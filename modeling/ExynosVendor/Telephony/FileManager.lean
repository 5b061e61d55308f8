import ExynosVendor.Common.Run
import Mathlib.Algebra.BigOperators.Group.List.Basic
import Mathlib.Algebra.Order.Ring.Nat

/-!
# The log files of the modem

`DMFileManager` of `dmd/DMFileManager.cpp` keeps the log partition within
its quota: a list of the files it manages, the bytes they take, and
`unlink` of the oldest. `Accounted` says when list, total and directory
agree, `Done` what a call has to do, and `Careful` what both take of a
call.

The disk is the base directory, which is opened under one name and whose
entries `readdir` gives in the order they have here.
-/

namespace ExynosVendor.FileManager

open List

/-- The name of a file in the base directory. -/
abbrev Name := List Char

def megabyte : ℕ := 1024 * 1024

def diskUsedThreshhold : ℕ := 85

def managedFileCountThreshhold : ℕ := 1000

def ignoreFileList : List Name :=
  ["NNEXT_PROFILE.nprf".toList, "sbuff_profile.sdm".toList, ".sbuff_header.sdm".toList]

def managedExt : List Name := [".sdm".toList, ".gz".toList, ".zip".toList]

def isIgnoreFile (fileName : Name) : Bool := ignoreFileList.contains fileName

/-- `isManagedExt`: the last place an extension stands is the end. -/
def isManagedExt (fileName : Name) : Bool := managedExt.any fun ext => ext.isSuffixOf fileName

/-- A file the list takes from the directory. -/
def isManaged (fileName : Name) : Bool := isManagedExt fileName && !isIgnoreFile fileName

/-- `struct DMFile`. -/
structure DMFile where
  fileName : Name
  /-- An `unsigned int`. -/
  fileSize : ℕ
  deriving DecidableEq

/-- A regular file of the directory. -/
structure DiskFile where
  name : Name
  size : ℕ
  deriving DecidableEq

/-- What `setLimit` leaves. -/
structure Limits where
  /-- `mCapacity`. -/
  capacity : ℕ
  /-- `mManagedFileSize`. -/
  managedFileSize : ℕ
  pos : 0 < managedFileSize

def setLimit (capacity managedFileSize : ℕ) : Limits where
  capacity := if capacity = 0 ∨ diskUsedThreshhold < capacity then diskUsedThreshhold else capacity
  managedFileSize :=
    if managedFileSize = 0 ∨ managedFileCountThreshhold < managedFileSize then
      managedFileCountThreshhold
    else managedFileSize
  pos := by
    split
    · decide
    · omega

/-- How the system answers a call. The turns of `shrink` in which `statvfs`
fails do nothing, and are left out. -/
structure Answers where
  /-- Whether the directory can be opened. -/
  opensDir : Bool
  /-- Whether a file can be opened to look at its size. -/
  opens : Name → Bool
  /-- Whether a file that is there can be deleted. -/
  unlinks : Name → Bool
  /-- `persist.vendor.sys.diag.log.maxsize`, by the turn. -/
  maxProperty : ℕ → ℕ
  /-- The bytes of `/data`, by the turn. -/
  storage : ℕ → ℕ

/-- `mMaxSize`, as a turn computes it. -/
def maxSize (limits : Limits) (a : Answers) (turn : ℕ) : ℕ :=
  if a.maxProperty turn ≠ 0 then a.maxProperty turn
  else a.storage turn * limits.capacity % 2 ^ 64 / 100 / megabyte % 2 ^ 32

/-- The manager, and the directory. -/
structure World where
  mFileList : List DMFile
  /-- An `unsigned int`. -/
  mTotalSize : ℕ
  mMaxSize : ℕ
  disk : List DiskFile
  /-- The files that were taken into the list, and not deleted since. -/
  known : List Name

namespace World

/-- A file is in the directory. -/
def onDisk (w : World) (name : Name) : Prop := ∃ f ∈ w.disk, f.name = name

instance (w : World) (name : Name) : Decidable (w.onDisk name) :=
  inferInstanceAs (Decidable (∃ f ∈ w.disk, f.name = name))

/-- Before the first call. -/
def start (disk : List DiskFile) : World := ⟨[], 0, 0, disk, []⟩

end World

/-- The size that is recorded of a file: `tellg` behind a `seekg` to the
end, and -1 where there is nothing to look at. -/
def recordedSize (a : Answers) (disk : List DiskFile) (name : Name) : ℕ :=
  match disk.find? fun f => f.name = name with
  | some f => if a.opens name then f.size % 2 ^ 32 else 2 ^ 32 - 1
  | none => 2 ^ 32 - 1

/-- The record of a file. -/
def record (a : Answers) (disk : List DiskFile) (name : Name) : DMFile :=
  ⟨name, recordedSize a disk name⟩

/-- The records of the directory's files. -/
def managedIn (a : Answers) (disk : List DiskFile) : List DMFile :=
  (disk.filter fun f => isManaged f.name).map fun f => record a disk f.name

/-- The bytes of a list of files. -/
def bytes (files : List DMFile) : ℕ := (files.map DMFile.fileSize).sum

section Calls

variable (limits : Limits) (a : Answers)

/-- A file goes to the end of the list. -/
def pushBack (w : World) (f : DMFile) : World :=
  { w with
    mTotalSize := (w.mTotalSize + f.fileSize) % 2 ^ 32
    mFileList := w.mFileList ++ [f]
    known := w.known ++ [f.fileName] }

def createManagedFileList (w : World) : World :=
  if a.opensDir then
    (managedIn a w.disk).foldl pushBack { w with mTotalSize := 0 }
  else w

/-- The first file leaves the list and is deleted, and whether it was. -/
def popFront (w : World) : World × Bool :=
  match w.mFileList with
  | [] => (w, true)
  | f :: files =>
      let w := { w with mFileList := files }
      if w.onDisk f.fileName ∧ a.unlinks f.fileName then
        ({ w with
            disk := w.disk.filter fun g => g.name ≠ f.fileName
            known := w.known.filter fun name => name ≠ f.fileName
            mTotalSize := (w.mTotalSize + 2 ^ 32 - f.fileSize) % 2 ^ 32 }, true)
      else (w, false)

/-- The first loop of `shrink`, from a turn on, and whether it was left at
its end. -/
def shrinkSize : ℕ → ℕ → World → World × Bool
  | 0, _, w => (w, true)
  | turns + 1, turn, w =>
      if 1 < w.mFileList.length then
        let w := { w with mMaxSize := maxSize limits a turn }
        if w.mTotalSize / megabyte < w.mMaxSize then (w, true)
        else
          let r := popFront a w
          if r.2 then shrinkSize turns (turn + 1) r.1 else r
      else (w, true)

/-- The second loop. -/
def shrinkCount : ℕ → World → World × Bool
  | 0, w => (w, true)
  | turns + 1, w =>
      if 0 < limits.managedFileSize ∧ limits.managedFileSize < w.mFileList.length then
        let r := popFront a w
        if r.2 then shrinkCount turns r.1 else r
      else (w, true)

/-- `shrink`, and whether no `unlink` failed. Each turn takes a file. -/
def shrink (w : World) : World × Bool :=
  let r := shrinkSize limits a w.mFileList.length 0 w
  if r.2 then shrinkCount limits a r.1.mFileList.length r.1 else r

def init (w : World) : World × Bool := shrink limits a (createManagedFileList a w)

def add (fileName : Name) (w : World) : World × Bool :=
  if fileName = [] then (w, true)
  else shrink limits a (pushBack w (record a w.disk fileName))

/-- The path `removeAll` deletes is the base directory's, whose `unlink`
fails; the loop over the list does nothing else. -/
def removeAll (w : World) : World := { w with mFileList := [], mTotalSize := 0 }

def refreshFileList (w : World) : World :=
  createManagedFileList a { w with mTotalSize := 0, mFileList := [] }

end Calls

/-- A call; or a file is written, which is no call. -/
inductive Call where
  | init
  | add (fileName : Name)
  | shrink
  | refreshFileList
  | removeAll
  | written (name : Name) (size : ℕ)

/-- A call, and whether no `unlink` of `shrink` failed in it. -/
def call (limits : Limits) (a : Answers) (w : World) : Call → World × Bool
  | .init => init limits a w
  | .add fileName => add limits a fileName w
  | .shrink => shrink limits a w
  | .refreshFileList => (refreshFileList a w, true)
  | .removeAll => (removeAll w, true)
  | .written name size =>
      ({ w with
          disk := (w.disk.filter fun f => f.name ≠ name) ++ [⟨name, size⟩]
          -- a new file was not taken into the list yet
          known := w.known.filter fun other => other ≠ name ∨ w.onDisk name }, true)

/-- The calls that end in `shrink`. -/
def Call.shrinks : Call → Prop
  | .init | .shrink => True
  | .add fileName => fileName ≠ []
  | _ => False

/-- One input. -/
def step (limits : Limits) (w : World) (i : Call × Answers) : World := (call limits i.2 w i.1).1

/-! ## What is to hold -/

/-- **Of every state**: the total is the bytes of the list's files, and a
file of the managed kind that was taken into the list and is still there is
in the list. -/
structure Accounted (w : World) : Prop where
  total : w.mTotalSize = bytes w.mFileList
  listed : ∀ name ∈ w.known, isManaged name → w.onDisk name →
    ∃ f ∈ w.mFileList, f.fileName = name

/-- What `shrink` is to reach. -/
def Shrunk (limits : Limits) (w : World) : Prop :=
  w.mFileList.length ≤ 1 ∨
    w.mTotalSize / megabyte < w.mMaxSize ∧ w.mFileList.length ≤ limits.managedFileSize

/-- **Of every call**: `removeAll` deletes the listed files, and a `shrink`
in which no `unlink` fails reaches its limits. -/
structure Done (limits : Limits) (w : World) (i : Call × Answers) : Prop where
  removed : i.1 = .removeAll → ∀ f ∈ w.mFileList, ¬ (step limits w i).onDisk f.fileName
  shrunk : i.1.shrinks → (call limits i.2 w i.1).2 = true → Shrunk limits (step limits w i)

/-! ## The condition -/

/-- How many files have to go until the bytes of the others are below the
limit, or one file is left. -/
def oversize (limits : Limits) (a : Answers) : ℕ → List DMFile → ℕ
  | turn, f :: g :: files =>
      if bytes (f :: g :: files) / megabyte < maxSize limits a turn then 0
      else oversize limits a (turn + 1) (g :: files) + 1
  | _, _ => 0

/-- The files that have to go. -/
def victims (limits : Limits) (a : Answers) (files : List DMFile) : List DMFile :=
  files.take (max (oversize limits a 0 files) (files.length - limits.managedFileSize))

/-- Each file that has to go is there, once, and can be deleted. -/
structure Deletable (limits : Limits) (a : Answers) (w : World) (files : List DMFile) : Prop where
  once : ((victims limits a files).map DMFile.fileName).Nodup
  there : ∀ f ∈ victims limits a files, w.onDisk f.fileName ∧ a.unlinks f.fileName

instance (limits : Limits) (a : Answers) (w : World) (files : List DMFile) :
    Decidable (Deletable limits a w files) :=
  decidable_of_iff
    (((victims limits a files).map DMFile.fileName).Nodup ∧
      ∀ f ∈ victims limits a files, w.onDisk f.fileName ∧ a.unlinks f.fileName)
    ⟨fun h => ⟨h.1, h.2⟩, fun h => ⟨h.once, h.there⟩⟩

/-- **The condition on a call.** The files of the directory are taken into
a list without bytes; the bytes of a list are an `unsigned int`; the files
that have to go can be deleted; and where the list is cleared and not made
again, none of its files is there. -/
def Careful (limits : Limits) (w : World) (i : Call × Answers) : Prop :=
  let ⟨c, a⟩ := i
  match c with
  | .init =>
      if a.opensDir then
        bytes w.mFileList = 0 ∧ bytes (managedIn a w.disk) < 2 ^ 32 ∧
          Deletable limits a w (w.mFileList ++ managedIn a w.disk)
      else Deletable limits a w w.mFileList
  | .add fileName =>
      fileName ≠ [] →
        bytes w.mFileList + recordedSize a w.disk fileName < 2 ^ 32 ∧
          Deletable limits a w (w.mFileList ++ [record a w.disk fileName])
  | .shrink => Deletable limits a w w.mFileList
  | .refreshFileList =>
      if a.opensDir then bytes (managedIn a w.disk) < 2 ^ 32
      else ∀ f ∈ w.mFileList, ¬ w.onDisk f.fileName
  | .removeAll => ∀ f ∈ w.mFileList, ¬ w.onDisk f.fileName
  | .written _ _ => True

instance (limits : Limits) (w : World) : (i : Call × Answers) → Decidable (Careful limits w i)
  | (.init, a) => inferInstanceAs (Decidable (if a.opensDir then
      bytes w.mFileList = 0 ∧ bytes (managedIn a w.disk) < 2 ^ 32 ∧
        Deletable limits a w (w.mFileList ++ managedIn a w.disk)
      else Deletable limits a w w.mFileList))
  | (.add fileName, a) => inferInstanceAs (Decidable (fileName ≠ [] →
      bytes w.mFileList + recordedSize a w.disk fileName < 2 ^ 32 ∧
        Deletable limits a w (w.mFileList ++ [record a w.disk fileName])))
  | (.shrink, a) => inferInstanceAs (Decidable (Deletable limits a w w.mFileList))
  | (.refreshFileList, a) => inferInstanceAs (Decidable (if a.opensDir then
      bytes (managedIn a w.disk) < 2 ^ 32 else ∀ f ∈ w.mFileList, ¬ w.onDisk f.fileName))
  | (.removeAll, _) => inferInstanceAs (Decidable (∀ f ∈ w.mFileList, ¬ w.onDisk f.fileName))
  | (.written _ _, _) => isTrue trivial

/-! ## The list and the total -/

/-- **The invariant.** -/
structure Kept (w : World) : Prop extends Accounted w where
  small : bytes w.mFileList < 2 ^ 32

/-- The first files of the list are there, once each, and can be deleted. -/
structure Ready (a : Answers) (w : World) (k : ℕ) : Prop where
  once : ((w.mFileList.take k).map DMFile.fileName).Nodup
  there : ∀ f ∈ w.mFileList.take k, w.onDisk f.fileName ∧ a.unlinks f.fileName

section Shrink

variable {limits : Limits} {a : Answers} {w : World} {f : DMFile} {files : List DMFile}

theorem bytes_cons (f : DMFile) (files : List DMFile) :
    bytes (f :: files) = f.fileSize + bytes files := rfl

theorem bytes_append (files files' : List DMFile) :
    bytes (files ++ files') = bytes files + bytes files' := by
  unfold bytes
  rw [map_append, sum_append]

/-- **A file is deleted.** -/
theorem popFront_spec {k : ℕ} (h : Kept w) (hr : Ready a w (k + 1))
    (hl : w.mFileList = f :: files) :
    (popFront a w).2 = true ∧ Kept (popFront a w).1 ∧ Ready a (popFront a w).1 k ∧
      (popFront a w).1.mFileList = files ∧ (popFront a w).1.mMaxSize = w.mMaxSize := by
  obtain ⟨honce, hthere⟩ := hr
  obtain ⟨⟨htotal, hlisted⟩, hsmall⟩ := h
  rw [hl] at honce hthere htotal hlisted hsmall
  rw [take_succ_cons] at honce hthere
  rw [bytes_cons] at htotal hsmall
  obtain ⟨hfirst, hrest⟩ := forall_mem_cons.mp hthere
  obtain ⟨hnot, honce'⟩ := nodup_cons.mp honce
  have heq : popFront a w = ({ w with
      mFileList := files
      disk := w.disk.filter fun g => g.name ≠ f.fileName
      known := w.known.filter fun name => name ≠ f.fileName
      mTotalSize := (w.mTotalSize + 2 ^ 32 - f.fileSize) % 2 ^ 32 }, true) := by
    unfold popFront
    rw [hl]
    exact if_pos hfirst
  have hdisk : ∀ name, (popFront a w).1.onDisk name ↔ name ≠ f.fileName ∧ w.onDisk name := by
    intro name
    rw [heq]
    unfold World.onDisk
    dsimp only
    constructor
    · rintro ⟨g, hg, rfl⟩
      obtain ⟨hmem, hne⟩ := mem_filter.mp hg
      exact ⟨of_decide_eq_true hne, g, hmem, rfl⟩
    · rintro ⟨hne, g, hg, rfl⟩
      exact ⟨g, mem_filter.mpr ⟨hg, decide_eq_true hne⟩, rfl⟩
  have hlist : (popFront a w).1.mFileList = files := by rw [heq]
  refine ⟨by rw [heq], ⟨⟨?_, fun name hname hmanaged hthere' => ?_⟩, ?_⟩, ⟨?_, ?_⟩, hlist, by rw [heq]⟩
  · rw [heq]
    dsimp only
    omega
  · have hknown : name ∈ w.known := by
      rw [heq] at hname
      exact (mem_filter.mp hname).1
    obtain ⟨hne, hon⟩ := (hdisk name).mp hthere'
    obtain ⟨g, hg, hgname⟩ := hlisted name hknown hmanaged hon
    rw [hlist]
    rcases mem_cons.mp hg with rfl | hmem
    · exact absurd hgname.symm hne
    · exact ⟨g, hmem, hgname⟩
  · rw [hlist]
    omega
  · rw [hlist]
    exact honce'
  · rw [hlist]
    intro g hg
    obtain ⟨hon, hunlinks⟩ := hrest g hg
    refine ⟨(hdisk _).mpr ⟨fun hsame => hnot ?_, hon⟩, hunlinks⟩
    rw [← hsame]
    exact mem_map_of_mem hg

theorem Kept.setMax (h : Kept w) (size : ℕ) : Kept { w with mMaxSize := size } :=
  ⟨⟨h.total, h.listed⟩, h.small⟩

/-- **The first loop** takes what is too much, and leaves the others
ready. -/
theorem shrinkSize_spec {turns turn j : ℕ} (hlen : w.mFileList.length ≤ turns) (h : Kept w)
    (hr : Ready a w (oversize limits a turn w.mFileList + j)) :
    (shrinkSize limits a turns turn w).2 = true ∧ Kept (shrinkSize limits a turns turn w).1 ∧
      Ready a (shrinkSize limits a turns turn w).1 j ∧
      (shrinkSize limits a turns turn w).1.mFileList.length + oversize limits a turn w.mFileList =
        w.mFileList.length ∧
      ((shrinkSize limits a turns turn w).1.mFileList.length ≤ 1 ∨
        (shrinkSize limits a turns turn w).1.mTotalSize / megabyte <
          (shrinkSize limits a turns turn w).1.mMaxSize) := by
  induction turns generalizing turn w with
  | zero =>
    have hnil : w.mFileList = [] := eq_nil_of_length_eq_zero (Nat.le_zero.mp hlen)
    have hover : oversize limits a turn w.mFileList = 0 := by rw [hnil]; rfl
    rw [hover, Nat.zero_add] at hr
    rw [hover]
    exact ⟨rfl, h, hr, rfl, Or.inl (Nat.le_trans hlen (Nat.zero_le 1))⟩
  | succ turns ih =>
    cases hl : w.mFileList with
    | nil =>
      rw [hl] at hr
      have heq : shrinkSize limits a (turns + 1) turn w = (w, true) := if_neg (by simp [hl])
      rw [heq]
      have hover : oversize limits a turn [] = 0 := rfl
      rw [hover, Nat.zero_add] at hr
      have hlength : w.mFileList.length + oversize limits a turn [] = ([] : List DMFile).length := by
        rw [hl, hover]
        rfl
      exact ⟨rfl, h, hr, hlength, Or.inl (by simp [hl])⟩
    | cons f rest =>
      cases rest with
      | nil =>
        rw [hl] at hr
        have heq : shrinkSize limits a (turns + 1) turn w = (w, true) := if_neg (by simp [hl])
        rw [heq]
        have hover : oversize limits a turn [f] = 0 := rfl
        rw [hover, Nat.zero_add] at hr
        exact ⟨rfl, h, hr, congrArg List.length hl, Or.inl (by simp [hl])⟩
      | cons g files =>
        have htotal := h.total
        have hmany : 1 < w.mFileList.length := by simp [hl]
        rw [hl] at hr htotal
        unfold oversize at hr ⊢
        rw [← htotal] at hr ⊢
        unfold shrinkSize
        rw [if_pos hmany]
        dsimp only
        by_cases hfits : w.mTotalSize / megabyte < maxSize limits a turn
        · rw [if_pos hfits] at hr ⊢
          rw [if_pos hfits]
          rw [Nat.zero_add] at hr
          exact ⟨rfl, h.setMax _, ⟨hr.once, hr.there⟩, congrArg List.length hl, Or.inr hfits⟩
        · rw [if_neg hfits] at hr ⊢
          rw [if_neg hfits]
          have hready : Ready a { w with mMaxSize := maxSize limits a turn }
              (oversize limits a (turn + 1) (g :: files) + j + 1) := by
            rw [show oversize limits a (turn + 1) (g :: files) + j + 1 =
              oversize limits a (turn + 1) (g :: files) + 1 + j by omega]
            exact ⟨hr.once, hr.there⟩
          obtain ⟨hok, hkept, hready', hlist, -⟩ := popFront_spec (h.setMax _) hready hl
          rw [if_pos hok]
          have hlen' : (popFront a { w with mMaxSize := maxSize limits a turn }).1.mFileList.length
              ≤ turns := by
            rw [hlist]
            rw [hl] at hlen
            exact Nat.le_of_succ_le_succ hlen
          rw [← hlist] at hready'
          obtain ⟨hok', hkept', hready'', hlen'', hend⟩ := ih hlen' hkept hready'
          rw [hlist] at hlen''
          exact ⟨hok', hkept', hready'', by simp only [length_cons] at hlen'' ⊢; omega, hend⟩

/-- **The second loop** takes what is too many. -/
theorem shrinkCount_spec {turns j : ℕ} (hlen : w.mFileList.length ≤ turns) (h : Kept w)
    (hr : Ready a w j) (hj : w.mFileList.length - limits.managedFileSize ≤ j)
    (hend : w.mFileList.length ≤ 1 ∨ w.mTotalSize / megabyte < w.mMaxSize) :
    (shrinkCount limits a turns w).2 = true ∧ Kept (shrinkCount limits a turns w).1 ∧
      Shrunk limits (shrinkCount limits a turns w).1 := by
  induction turns generalizing w j with
  | zero => exact ⟨rfl, h, Or.inl (Nat.le_trans hlen (Nat.zero_le 1))⟩
  | succ turns ih =>
    unfold shrinkCount
    have hpos := limits.pos
    split
    · next hmany =>
      cases hl : w.mFileList with
      | nil => rw [hl] at hmany; exact absurd hmany.2 (Nat.not_lt_zero _)
      | cons f files =>
        obtain ⟨i, rfl⟩ : ∃ i, j = i + 1 := ⟨j - 1, by omega⟩
        obtain ⟨hok, hkept, hready, hlist, hmax⟩ := popFront_spec h hr hl
        dsimp only
        rw [if_pos hok]
        have htotal := h.total
        have htotal' := hkept.total
        rw [hl] at htotal hlen hj hmany hend
        simp only [length_cons] at hlen hj hmany hend
        rw [hlist] at htotal'
        refine ih (by rw [hlist]; omega) hkept hready (by rw [hlist]; omega) (Or.inr ?_)
        rw [htotal', hmax]
        rw [htotal, bytes_cons] at hend
        have hle : bytes files / megabyte ≤ (f.fileSize + bytes files) / megabyte :=
          Nat.div_le_div_right (Nat.le_add_left _ _)
        omega
    · next hfew =>
      refine ⟨rfl, h, ?_⟩
      rcases hend with hone | hsize
      · exact Or.inl hone
      · have hcount : w.mFileList.length ≤ limits.managedFileSize := by omega
        exact Or.inr ⟨hsize, hcount⟩

/-- **`shrink`**, where the files that have to go can be deleted. -/
theorem shrink_spec (h : Kept w) (hd : Deletable limits a w w.mFileList) :
    (shrink limits a w).2 = true ∧ Kept (shrink limits a w).1 ∧
      Shrunk limits (shrink limits a w).1 := by
  obtain ⟨j, hj⟩ : ∃ j, max (oversize limits a 0 w.mFileList)
      (w.mFileList.length - limits.managedFileSize) = oversize limits a 0 w.mFileList + j :=
    ⟨_, (Nat.add_sub_of_le (Nat.le_max_left _ _)).symm⟩
  have hready : Ready a w (oversize limits a 0 w.mFileList + j) := by
    rw [← hj]
    exact ⟨hd.once, hd.there⟩
  obtain ⟨hok, hkept, hready', hlen, hend⟩ := shrinkSize_spec (Nat.le_refl _) h hready
  unfold shrink
  dsimp only
  rw [if_pos hok]
  exact shrinkCount_spec (Nat.le_refl _) hkept hready' (by omega) hend

end Shrink

/-! ## A call -/

section Calls

variable {limits : Limits} {a : Answers} {w : World}

/-- Files that go to the end of the list one by one. -/
theorem foldl_pushBack (files : List DMFile) (hsmall : w.mTotalSize < 2 ^ 32) :
    files.foldl pushBack w = { w with
      mTotalSize := (w.mTotalSize + bytes files) % 2 ^ 32
      mFileList := w.mFileList ++ files
      known := w.known ++ files.map DMFile.fileName } := by
  induction files generalizing w with
  | nil =>
    obtain ⟨list, total, max, disk, known⟩ := w
    have htotal : (total + bytes []) % 2 ^ 32 = total := Nat.mod_eq_of_lt hsmall
    rw [htotal]
    simp
  | cons f files ih =>
    rw [foldl_cons, ih (Nat.mod_lt _ (by decide))]
    unfold pushBack
    rw [bytes_cons, Nat.mod_add_mod, Nat.add_assoc]
    simp

theorem mem_managedIn {name : Name} (hmanaged : isManaged name) (hthere : w.onDisk name) :
    ∃ f ∈ managedIn a w.disk, f.fileName = name := by
  obtain ⟨g, hg, rfl⟩ := hthere
  exact ⟨record a w.disk g.name,
    mem_map_of_mem (mem_filter.mpr ⟨hg, hmanaged⟩), rfl⟩

/-- **The directory's files are taken into a list** without bytes. -/
theorem createManagedFileList_spec (hdir : a.opensDir = true) (hzero : bytes w.mFileList = 0)
    (hsmall : bytes (managedIn a w.disk) < 2 ^ 32) :
    Kept (createManagedFileList a w) ∧
      (createManagedFileList a w).mFileList = w.mFileList ++ managedIn a w.disk ∧
      (createManagedFileList a w).disk = w.disk := by
  have heq : createManagedFileList a w = { w with
      mTotalSize := bytes (managedIn a w.disk)
      mFileList := w.mFileList ++ managedIn a w.disk
      known := w.known ++ (managedIn a w.disk).map DMFile.fileName } := by
    unfold createManagedFileList
    rw [if_pos hdir, foldl_pushBack _ (Nat.two_pow_pos 32), Nat.zero_add, Nat.mod_eq_of_lt hsmall]
  have hbytes : bytes (w.mFileList ++ managedIn a w.disk) = bytes (managedIn a w.disk) := by
    rw [bytes_append, hzero, Nat.zero_add]
  rw [heq]
  refine ⟨⟨⟨hbytes.symm, fun name _ hmanaged hthere => ?_⟩, ?_⟩, rfl, rfl⟩
  · obtain ⟨f, hf, hname⟩ := mem_managedIn (a := a) hmanaged hthere
    exact ⟨f, mem_append_right _ hf, hname⟩
  · rw [hbytes]
    exact hsmall

theorem Kept.pushBack (h : Kept w) {f : DMFile}
    (hsmall : bytes w.mFileList + f.fileSize < 2 ^ 32) : Kept (pushBack w f) := by
  have hbytes : bytes (w.mFileList ++ [f]) = bytes w.mFileList + f.fileSize := bytes_append _ _
  refine ⟨⟨?_, fun name hname hmanaged hthere => ?_⟩, ?_⟩
  · show (w.mTotalSize + f.fileSize) % 2 ^ 32 = bytes (w.mFileList ++ [f])
    rw [hbytes, h.total, Nat.mod_eq_of_lt hsmall]
  · rcases mem_append.mp hname with hold | hnew
    · obtain ⟨g, hg, hgname⟩ := h.listed name hold hmanaged hthere
      exact ⟨g, mem_append_left _ hg, hgname⟩
    · exact ⟨f, mem_append_right _ (mem_singleton_self f), (mem_singleton.mp hnew).symm⟩
  · show bytes (w.mFileList ++ [f]) < 2 ^ 32
    rw [hbytes]
    exact hsmall

theorem Kept.cleared (h : Kept w) (hgone : ∀ f ∈ w.mFileList, ¬ w.onDisk f.fileName) :
    Kept { w with mFileList := [], mTotalSize := 0 } := by
  refine ⟨⟨rfl, fun name hname hmanaged hthere => ?_⟩, Nat.two_pow_pos 32⟩
  obtain ⟨f, hf, rfl⟩ := h.listed name hname hmanaged hthere
  exact absurd hthere (hgone f hf)

theorem Deletable.congr {w' : World} {files : List DMFile} (h : Deletable limits a w files)
    (hdisk : w'.disk = w.disk) : Deletable limits a w' files := by
  refine ⟨h.once, fun f hf => ⟨?_, (h.there f hf).2⟩⟩
  unfold World.onDisk
  rw [hdisk]
  exact (h.there f hf).1

theorem Kept.written (h : Kept w) (name : Name) (size : ℕ) :
    Kept (call limits a w (.written name size)).1 := by
  refine ⟨⟨h.total, fun other hother hmanaged hthere => ?_⟩, h.small⟩
  obtain ⟨hknown, hwas⟩ := mem_filter.mp hother
  refine h.listed other hknown hmanaged ?_
  by_cases hsame : other = name
  · rcases of_decide_eq_true hwas with hne | hon
    · exact absurd hsame hne
    · rw [hsame]
      exact hon
  · obtain ⟨f, hf, rfl⟩ := hthere
    rcases mem_append.mp hf with hold | hnew
    · exact ⟨f, (mem_filter.mp hold).1, rfl⟩
    · rw [mem_singleton.mp hnew] at hsame
      exact absurd rfl hsame

/-- **The step lemma.** -/
theorem Kept.step (h : Kept w) {i : Call × Answers} (hi : Careful limits w i) :
    Kept (step limits w i) ∧ Done limits w i := by
  obtain ⟨c, a⟩ := i
  have hshrink : ∀ w' : World, Kept w' → Deletable limits a w' w'.mFileList →
      call limits a w c = shrink limits a w' → c ≠ .removeAll →
        Kept (FileManager.step limits w (c, a)) ∧ Done limits w (c, a) := by
    intro w' hkept hd heq hc
    obtain ⟨-, hkept', hshrunk⟩ := shrink_spec hkept hd
    rw [← heq] at hkept' hshrunk
    exact ⟨hkept', fun hremove => absurd hremove hc, fun _ _ => hshrunk⟩
  have hother : ∀ w' : World, Kept w' → call limits a w c = (w', true) → ¬ c.shrinks →
      c ≠ .removeAll → Kept (FileManager.step limits w (c, a)) ∧ Done limits w (c, a) := by
    intro w' hkept heq hc hc'
    refine ⟨?_, fun hremove => absurd hremove hc', fun hs => absurd hs hc⟩
    show Kept (call limits a w c).1
    rw [heq]
    exact hkept
  unfold Careful at hi
  cases c with
  | init =>
    dsimp only at hi
    split at hi
    · next hdir =>
      obtain ⟨hzero, hsmall, hd⟩ := hi
      obtain ⟨hkept, hlist, hdisk⟩ := createManagedFileList_spec hdir hzero hsmall
      refine hshrink _ hkept ?_ rfl nofun
      rw [hlist]
      exact hd.congr hdisk
    · next hdir =>
      have heq : createManagedFileList a w = w := if_neg hdir
      refine hshrink w h hi ?_ nofun
      show shrink limits a (createManagedFileList a w) = _
      rw [heq]
  | add fileName =>
    by_cases hname : fileName = []
    · exact hother w h (if_pos hname) (fun hs => hs hname) nofun
    · obtain ⟨hsmall, hd⟩ := hi hname
      exact hshrink _ (h.pushBack hsmall) (hd.congr rfl) (if_neg hname) nofun
  | shrink => exact hshrink w h hi rfl nofun
  | refreshFileList =>
    dsimp only at hi
    refine hother _ ?_ rfl id nofun
    unfold refreshFileList
    split at hi
    · next hdir =>
      exact (createManagedFileList_spec (w := { w with mTotalSize := 0, mFileList := [] }) hdir rfl
        hi).1
    · next hdir =>
      have heq : createManagedFileList a { w with mTotalSize := 0, mFileList := [] } =
          { w with mTotalSize := 0, mFileList := [] } := if_neg hdir
      rw [heq]
      exact h.cleared hi
  | removeAll => exact ⟨h.cleared hi, fun _ => hi, fun hs => absurd hs id⟩
  | written name size =>
    have hkept : Kept (call limits a w (.written name size)).1 := h.written name size
    exact hother _ hkept rfl id nofun

end Calls

/-- **When list, total and directory agree.** For every sequence of calls,
from any directory, with any answers of the system, where the condition
holds of every call: every state is accounted and every call does what it
has to. -/
theorem accounted (limits : Limits) (disk : List DiskFile) {inputs : List (Call × Answers)}
    (h : Run.Throughout (step limits) (Careful limits) (World.start disk) inputs) :
    Run.Always (step limits) Accounted (World.start disk) inputs ∧
      Run.Throughout (step limits) (Done limits) (World.start disk) inputs := by
  have hstart : Kept (World.start disk) := ⟨⟨rfl, nofun⟩, Nat.two_pow_pos 32⟩
  have hstep : ∀ w i, Kept w → Careful limits w i → Kept (step limits w i) :=
    fun _ _ hw hi => (hw.step hi).1
  refine ⟨?_, Run.Throughout.of_invariant hstep (fun _ _ hw hi => (hw.step hi).2) hstart h⟩
  exact (Run.Always.of_invariant hstep hstart h).mono fun _ hw => hw.toAccounted

/-- Every file can be opened and deleted, and a megabyte is the most. -/
def obliging : Answers where
  opensDir := true
  opens := fun _ => true
  unlinks := fun _ => true
  maxProperty := fun _ => 1
  storage := fun _ => 0

/-- A log of a megabyte, and one of a byte. -/
def logs : List DiskFile := [⟨"a.sdm".toList, megabyte⟩, ⟨"b.sdm".toList, 1⟩]

/-- The first log is deleted, and a third is written and added. -/
theorem accounted_logs :
    let inputs := [.removeAll, .init, .written "c.sdm".toList 5, .add "c.sdm".toList, .shrink,
      .refreshFileList].map fun c => (c, obliging)
    Run.Always (step (setLimit 0 0)) Accounted (World.start logs) inputs ∧
      Run.Throughout (step (setLimit 0 0)) (Done (setLimit 0 0)) (World.start logs) inputs :=
  accounted (setLimit 0 0) logs (by decide)

/-- **`removeAll` deletes nothing**: the path is that of a file without a
name, for every file of the list. -/
theorem not_accounted_removeAll :
    ¬ ∀ (limits : Limits) (disk : List DiskFile) (inputs : List (Call × Answers)),
      Run.Always (step limits) Accounted (World.start disk) inputs ∧
        Run.Throughout (step limits) (Done limits) (World.start disk) inputs := by
  intro h
  obtain ⟨-, -, hdone, -⟩ := h (setLimit 0 0) logs [(.init, obliging), (.removeAll, obliging)]
  exact hdone.removed rfl ⟨"b.sdm".toList, 1⟩ (by decide) (by decide)

/-! ## What a clean-up takes -/

/-- **What goes is the front of the list**, the oldest files, and of the directory the files of
their names, as far as they could be deleted. -/
def Took (w w' : World) : Prop :=
  ∃ gone deleted, w.mFileList = gone ++ w'.mFileList ∧ deleted ⊆ gone.map DMFile.fileName ∧
    w'.disk = w.disk.filter fun g => g.name ∉ deleted

theorem took_of_eq {w w' : World} (hlist : w'.mFileList = w.mFileList) (hdisk : w'.disk = w.disk) :
    Took w w' :=
  ⟨[], [], hlist.symm, nil_subset _, by rw [hdisk]; exact (filter_true _).symm⟩

theorem Took.trans {w w' w'' : World} (h : Took w w') (h' : Took w' w'') : Took w w'' := by
  obtain ⟨gone, deleted, hlist, hsub, hdisk⟩ := h
  obtain ⟨gone', deleted', hlist', hsub', hdisk'⟩ := h'
  refine ⟨gone ++ gone', deleted ++ deleted', ?_, ?_, ?_⟩
  · rw [append_assoc, ← hlist', hlist]
  · rw [map_append]
    exact append_subset.mpr ⟨fun _ h => mem_append_left _ (hsub h),
      fun _ h => mem_append_right _ (hsub' h)⟩
  · rw [hdisk', hdisk, filter_filter]
    refine filter_congr fun g _ => ?_
    simp only [mem_append, not_or, Bool.decide_and, Bool.and_comm]

theorem took_popFront (a : Answers) (w : World) : Took w (popFront a w).1 := by
  unfold popFront
  split
  · exact took_of_eq rfl rfl
  case h_2 f files hl =>
    dsimp only
    split
    · refine ⟨[f], [f.fileName], by rw [hl]; rfl, List.Subset.refl _, ?_⟩
      simp only [mem_singleton]
    · exact ⟨[f], [], by rw [hl]; rfl, nil_subset _, (filter_true _).symm⟩

theorem length_popFront (a : Answers) (w : World) :
    w.mFileList.length ≤ (popFront a w).1.mFileList.length + 1 := by
  unfold popFront
  split
  · exact Nat.le_succ _
  case h_2 f files hl =>
    rw [hl]
    dsimp only
    split <;> exact Nat.le_refl _

variable (limits : Limits) (a : Answers)

theorem took_shrinkSize (turns turn : ℕ) (w : World) :
    Took w (shrinkSize limits a turns turn w).1 ∧
      min 1 w.mFileList.length ≤ (shrinkSize limits a turns turn w).1.mFileList.length := by
  induction turns generalizing turn w with
  | zero => exact ⟨took_of_eq rfl rfl, Nat.min_le_right _ _⟩
  | succ turns ih =>
    rw [shrinkSize]
    split_ifs with hlen
    · dsimp only
      generalize maxSize limits a turn = size
      have hpop := took_popFront a { w with mMaxSize := size }
      have hlong := length_popFront a { w with mMaxSize := size }
      dsimp only at hlong
      have hset : Took w { w with mMaxSize := size } := took_of_eq rfl rfl
      split_ifs
      · exact ⟨hset, Nat.min_le_right _ _⟩
      · obtain ⟨hnext, hleft⟩ := ih (turn + 1) (popFront a { w with mMaxSize := size }).1
        exact ⟨(hset.trans hpop).trans hnext, by omega⟩
      · exact ⟨hset.trans hpop, by omega⟩
    · exact ⟨took_of_eq rfl rfl, Nat.min_le_right _ _⟩

theorem took_shrinkCount (turns : ℕ) (w : World) :
    Took w (shrinkCount limits a turns w).1 ∧
      min 1 w.mFileList.length ≤ (shrinkCount limits a turns w).1.mFileList.length := by
  induction turns generalizing w with
  | zero => exact ⟨took_of_eq rfl rfl, Nat.min_le_right _ _⟩
  | succ turns ih =>
    rw [shrinkCount]
    split_ifs with hlen
    · dsimp only
      have hpop := took_popFront a w
      have hlong := length_popFront a w
      split_ifs
      · obtain ⟨hnext, hleft⟩ := ih (popFront a w).1
        exact ⟨hpop.trans hnext, by omega⟩
      · exact ⟨hpop, by omega⟩
    · exact ⟨took_of_eq rfl rfl, Nat.min_le_right _ _⟩

/-- Both loops at once, the second from where the first ends. -/
theorem shrink_took (w : World) :
    Took w (shrink limits a w).1 ∧
      min 1 w.mFileList.length ≤ (shrink limits a w).1.mFileList.length := by
  obtain ⟨hsize, hleft⟩ := took_shrinkSize limits a w.mFileList.length 0 w
  unfold shrink
  dsimp only
  generalize shrinkSize limits a w.mFileList.length 0 w = r at hsize hleft ⊢
  split
  · obtain ⟨hcount, hleft'⟩ := took_shrinkCount limits a r.1.mFileList.length r.1
    exact ⟨hsize.trans hcount, by omega⟩
  · exact ⟨hsize, hleft⟩

/-- The directory, if nobody but the writers of files had a hand in it. -/
def writtenTo (disk : List DiskFile) (i : Call × Answers) : List DiskFile :=
  match i.1 with
  | .written name size => (disk.filter fun f => f.name ≠ name) ++ [⟨name, size⟩]
  | _ => disk

/-- What the directory holds under a name. -/
def held (name : Name) (disk : List DiskFile) : List DiskFile :=
  disk.filter fun g => g.name = name

theorem held_filter_ne {name other : Name} (hne : other ≠ name) (disk : List DiskFile) :
    held name (disk.filter fun f => f.name ≠ other) = held name disk := by
  unfold held
  rw [filter_filter]
  refine filter_congr fun g _ => ?_
  by_cases hg : g.name = name
  · simp [hg, hne.symm]
  · simp [hg]

variable {name : Name} {w w' : World}

/-- What a clean-up takes of a name that is not listed is nothing. -/
theorem Took.held (h : Took w w') (hname : ∀ f ∈ w.mFileList, f.fileName ≠ name) :
    (∀ f ∈ w'.mFileList, f.fileName ≠ name) ∧ held name w'.disk = FileManager.held name w.disk := by
  obtain ⟨gone, deleted, hlist, hsub, hdisk⟩ := h
  rw [hlist] at hname
  refine ⟨fun f hf => hname f (mem_append_right _ hf), ?_⟩
  have hkept : name ∉ deleted := by
    intro hin
    obtain ⟨f, hf, hfile⟩ := mem_map.mp (hsub hin)
    exact hname f (mem_append_left _ hf) hfile
  unfold FileManager.held
  rw [hdisk, filter_filter]
  refine filter_congr fun g _ => ?_
  by_cases hg : g.name = name
  · simp [hg, hkept]
  · simp [hg]

theorem pushBack_all (files : List DMFile) (w : World) :
    (files.foldl pushBack w).mFileList = w.mFileList ++ files ∧
      (files.foldl pushBack w).disk = w.disk := by
  induction files generalizing w with
  | nil => exact ⟨(append_nil _).symm, rfl⟩
  | cons f files ih =>
    obtain ⟨hlist, hdisk⟩ := ih (pushBack w f)
    exact ⟨hlist.trans (append_assoc _ _ _), hdisk⟩

theorem created_others (hforeign : isManaged name = false) (a : Answers)
    (hname : ∀ f ∈ w.mFileList, f.fileName ≠ name) :
    (∀ f ∈ (createManagedFileList a w).mFileList, f.fileName ≠ name) ∧
      (createManagedFileList a w).disk = w.disk := by
  unfold createManagedFileList
  split
  · obtain ⟨hlist, hdisk⟩ := pushBack_all (managedIn a w.disk) { w with mTotalSize := 0 }
    refine ⟨fun f hf hsame => ?_, hdisk⟩
    rw [hlist] at hf
    rcases mem_append.mp hf with hold | hnew
    · exact hname f hold hsame
    · obtain ⟨g, hg, rfl⟩ := mem_map.mp hnew
      have hmanaged := (mem_filter.mp hg).2
      rw [show g.name = name from hsame, hforeign] at hmanaged
      exact Bool.false_ne_true hmanaged
  · exact ⟨hname, rfl⟩

/-- **The step lemma.** -/
theorem step_others (hforeign : isManaged name = false) {i : Call × Answers}
    (hadd : i.1 ≠ .add name) (hname : ∀ f ∈ w.mFileList, f.fileName ≠ name) :
    (∀ f ∈ (step limits w i).mFileList, f.fileName ≠ name) ∧
      held name (step limits w i).disk = held name (writtenTo w.disk i) := by
  obtain ⟨c, a⟩ := i
  cases c with
  | init =>
    obtain ⟨hlisted, hdisk⟩ := created_others hforeign a hname
    have hkept := (shrink_took limits a (createManagedFileList a w)).1.held hlisted
    rw [hdisk] at hkept
    exact hkept
  | add fileName =>
    show _ ∧ held name (FileManager.add limits a fileName w).1.disk = held name w.disk
    unfold FileManager.step FileManager.call FileManager.add
    dsimp only
    split
    · exact ⟨hname, rfl⟩
    · refine (shrink_took limits a _).1.held fun f hf => ?_
      rcases mem_append.mp hf with hold | hnew
      · exact hname f hold
      · rw [mem_singleton.mp hnew]
        exact fun hsame => hadd (congrArg Call.add hsame)
  | shrink => exact (shrink_took limits a w).1.held hname
  | refreshFileList =>
    obtain ⟨hlisted, hdisk⟩ := created_others hforeign a
      (w := { w with mTotalSize := 0, mFileList := [] }) (fun f hf => absurd hf (by simp))
    exact ⟨hlisted, congrArg (held name) hdisk⟩
  | removeAll => exact ⟨fun f hf => absurd hf (by simp [step, call, removeAll]), rfl⟩
  | written other size => exact ⟨hname, rfl⟩

theorem held_writtenTo {disk disk' : List DiskFile} (h : held name disk = held name disk')
    (i : Call × Answers) : held name (writtenTo disk i) = held name (writtenTo disk' i) := by
  obtain ⟨c, a⟩ := i
  cases c with
  | written other size =>
    show held name (_ ++ _) = held name (_ ++ _)
    by_cases hother : other = name
    · subst hother
      unfold held
      simp [filter_append, filter_filter]
    · unfold held at h ⊢
      rw [filter_append, filter_append]
      exact congrArg (· ++ _) ((held_filter_ne hother disk).trans
        (h.trans (held_filter_ne hother disk').symm))
  | _ => exact h

/-- **A file of no managed kind is never deleted**: in every run of calls in which it is not
added by name, whatever is deleted or cannot be, the directory holds of it what was written. -/
theorem others_held (limits : Limits) (disk : List DiskFile) (hforeign : isManaged name = false)
    {inputs : List (Call × Answers)} (hadd : ∀ i ∈ inputs, i.1 ≠ .add name) :
    held name (inputs.foldl (step limits) (World.start disk)).disk =
      held name (inputs.foldl writtenTo disk) := by
  have hrun : ∀ (w : World) (disk : List DiskFile), (∀ f ∈ w.mFileList, f.fileName ≠ name) →
      held name w.disk = held name disk →
      held name (inputs.foldl (step limits) w).disk = held name (inputs.foldl writtenTo disk) := by
    induction inputs with
    | nil => exact fun _ _ _ hheld => hheld
    | cons i inputs ih =>
      intro w disk hname hheld
      obtain ⟨hi, hrest⟩ := forall_mem_cons.mp hadd
      obtain ⟨hlisted, hstep⟩ := step_others limits hforeign hi hname
      exact ih hrest _ _ hlisted (hstep.trans (held_writtenTo hheld i))
  exact hrun _ disk (fun f hf => absurd hf (by simp [World.start])) rfl

/-- A file that is ignored, beside logs of which one is too much. -/
theorem others_held_ignored :
    held ".sbuff_header.sdm".toList
        ([(.init, obliging), (.shrink, obliging)].foldl (step (setLimit 0 0))
          (World.start (⟨".sbuff_header.sdm".toList, 7⟩ :: logs))).disk =
      [⟨".sbuff_header.sdm".toList, 7⟩] :=
  (others_held (setLimit 0 0) (⟨".sbuff_header.sdm".toList, 7⟩ :: logs) (by decide)
    (by simp)).trans (by decide)

end ExynosVendor.FileManager
