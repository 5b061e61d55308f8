import ExynosVendor.Camera.BufferManager
import ExynosVendor.Common.Run
import Mathlib.Data.Fintype.Basic

/-!
# The buffer supplier

`ExynosCameraBufferSupplier` of `Buffers/ExynosCameraBufferSupplier.cpp`
keeps buffer managers under tags and finds them by a tag of the same manager
type that shares a pipe. A buffer carries the tag it was asked for with, not
that of its manager, and is put back by searching again. The first manager
found stays the first, for managers are only added. But a remosaic request
that finds no manager of its type falls back to those of the plain type, and
when one of its type is created before the buffer is put back, the search
ends there.

The managers are of several classes; what the supplier calls of them is a
parameter.
-/

namespace ExynosVendor.Camera.Supplier

open List

/-- `buffer_manager_type`; `invalid` is any number that is no type. -/
inductive ManagerType where
  | ion
  | fastenAeIon
  | serviceGralloc
  | onlyHalUseIon
  | remosaicIon
  | remosaicOnlyHalUseIon
  | invalid
  deriving DecidableEq

/-- `buffer_manager_tag_t`. -/
structure Tag where
  /-- `pipeId`. -/
  pipeId : Fin 5 → ℤ
  /-- `managerType`. -/
  managerType : ManagerType
  /-- `reserved.i32`. -/
  reserved : ℤ
  deriving DecidableEq

/-- The pipes of a tag, in front of the first that is negative. -/
def Tag.pipes (t : Tag) : List ℤ := (List.ofFn t.pipeId).takeWhile fun p => -1 < p

/-- `operator==`: the same manager type, and a pipe in common. -/
def Tag.same (t t' : Tag) : Bool :=
  t.managerType = t'.managerType && t.pipes.any fun p => t'.pipes.any fun q => p = q

/-- The test of the first search of `m_getBufferManager`: a gralloc request
with an identifier is for the manager with that identifier. -/
def Tag.finds (t t' : Tag) : Bool :=
  t.same t' &&
    ! (t.managerType = .serviceGralloc && (0 ≤ t.reserved && t.reserved ≠ t'.reserved))

/-- The tag of the second search, for a remosaic request. -/
def Tag.remosaicTag (t : Tag) : Option Tag :=
  match t.managerType with
  | .remosaicIon | .remosaicOnlyHalUseIon => some { t with managerType := .ion }
  | _ => none

/-- `m_getBufferManager`: where in the list the manager is. Whether there is
a second search, `SUPPORT_OPTIMIZED_REMOSAIC_BUFFER_ALLOCATION` says. -/
def getBufferManager (optimizedRemosaic : Bool) (tags : List Tag) (tag : Tag) : Option ℕ :=
  (tags.findIdx? tag.finds).or
    (if optimizedRemosaic then tag.remosaicTag.bind fun t => tags.findIdx? t.same else none)

/-- What the supplier calls of a manager. `getBuffer` answers with its
status, the index and that in the buffer. -/
structure ManagerOps (σ : Type) where
  setInfo : σ → Config → Status × σ
  alloc : σ → Status × σ
  getBuffer : σ → Status × ℤ × ℤ × σ
  putBuffer : σ → ℤ → Status × σ

/-- A buffer as the supplier handed it out: its tag and its index. -/
structure Handed where
  tag : Tag
  index : ℤ
  deriving DecidableEq

variable {σ : Type}

/-- `m_bufferMgrMap`. -/
abbrev Managers (σ : Type) := List (Tag × σ)

/-- The tags of the managers. -/
def tags (managers : Managers σ) : List Tag := managers.map (·.1)

/-- A manager in another state. -/
def setManager (managers : Managers σ) (k : ℕ) (manager : σ) : Managers σ :=
  managers.modify k fun m => (m.1, manager)

/-- `createBufferManager`. Where the manager is created and gets its
allocator, `created` is that manager. -/
def createBufferManager (managers : Managers σ) (tag : Tag) (created : Option σ) :
    Status × Managers σ :=
  match tag.managerType, created with
  | .invalid, _ => (.invalidOperation, managers)
  | _, none => (.invalidOperation, managers)
  | _, some manager => (.noError, managers ++ [(tag, manager)])

section Calls

variable (ops : ManagerOps σ) (optimizedRemosaic : Bool) (managers : Managers σ)

/-- The manager of a tag, and where it is. -/
def lookup (tag : Tag) : Option (ℕ × σ) := do
  let k ← getBufferManager optimizedRemosaic (tags managers) tag
  let m ← managers[k]?
  some (k, m.2)

def setInfo (tag : Tag) (info : Config) : Status × Managers σ :=
  match lookup optimizedRemosaic managers tag with
  | none => (.invalidOperation, managers)
  | some (k, manager) =>
      let (ret, manager) := ops.setInfo manager info
      (ret, setManager managers k manager)

def alloc (tag : Tag) : Status × Managers σ :=
  match lookup optimizedRemosaic managers tag with
  | none => (.invalidOperation, managers)
  | some (k, manager) =>
      let (ret, manager) := ops.alloc manager
      (ret, setManager managers k manager)

/-- `getBuffer`: the buffer, and which manager it is of. -/
def getBuffer (tag : Tag) : Option (Handed × ℕ) × Managers σ :=
  match lookup optimizedRemosaic managers tag with
  | none => (none, managers)
  | some (k, manager) =>
      let (ret, bufIndex, index, manager) := ops.getBuffer manager
      if ret ≠ .noError ∨ bufIndex < 0 then (none, setManager managers k manager)
      else (some (⟨tag, index⟩, k), setManager managers k manager)

def putBuffer (buffer : Handed) : Status × Managers σ :=
  match lookup optimizedRemosaic managers buffer.tag with
  | none => (.invalidOperation, managers)
  | some (k, manager) =>
      let (ret, manager) := ops.putBuffer manager buffer.index
      (ret, setManager managers k manager)

end Calls

/-! ## Runs -/

/-- A buffer that was handed out: which manager it is of, and how many
managers there were. -/
structure Obtained where
  buffer : Handed
  owner : ℕ
  known : ℕ
  deriving DecidableEq

/-- The managers, and the buffers handed out so far. -/
structure State (σ : Type) where
  managers : Managers σ
  obtained : List Obtained

/-- A call of the supplier. A buffer is put back that was handed out, by its
number. -/
inductive Call (σ : Type) where
  | createBufferManager (tag : Tag) (created : Option σ)
  | setInfo (tag : Tag) (info : Config)
  | alloc (tag : Tag)
  | getBuffer (tag : Tag)
  | putBuffer (n : ℕ)

/-- One call. -/
def step (ops : ManagerOps σ) (optimizedRemosaic : Bool) (s : State σ) : Call σ → State σ
  | .createBufferManager tag created =>
      { s with managers := (createBufferManager s.managers tag created).2 }
  | .setInfo tag info =>
      { s with managers := (setInfo ops optimizedRemosaic s.managers tag info).2 }
  | .alloc tag => { s with managers := (alloc ops optimizedRemosaic s.managers tag).2 }
  | .getBuffer tag =>
      match getBuffer ops optimizedRemosaic s.managers tag with
      | (none, managers) => { s with managers := managers }
      | (some (buffer, owner), managers) =>
          ⟨managers, s.obtained ++ [⟨buffer, owner, s.managers.length⟩]⟩
  | .putBuffer n =>
      match s.obtained[n]? with
      | none => s
      | some r => { s with managers := (putBuffer ops optimizedRemosaic s.managers r.buffer).2 }

/-- No managers. -/
def State.start : State σ := ⟨[], []⟩

/-! ## The first found stays the first -/

section Search

variable {optimizedRemosaic : Bool} {tag : Tag} {l l' : List Tag} {k : ℕ}

theorem findIdx?_append_left {p : Tag → Bool} (h : l.findIdx? p = some k) :
    (l ++ l').findIdx? p = some k := by
  rw [findIdx?_append, h]
  rfl

/-- **A tag covers a request** of its manager type for one of its pipes. -/
def Tag.Covers (t tag : Tag) : Prop :=
  t.managerType = tag.managerType ∧ ∃ p ∈ tag.pipes, p ∈ t.pipes

theorem Tag.same_iff {t t' : Tag} : t.same t' = true ↔ t'.Covers t := by
  unfold Tag.same Tag.Covers
  simp only [Bool.and_eq_true, decide_eq_true_eq, any_eq_true]
  constructor
  · rintro ⟨htype, p, hp, q, hq, rfl⟩
    exact ⟨htype.symm, p, hp, hq⟩
  · rintro ⟨htype, p, hp, hq⟩
    exact ⟨htype.symm, p, hp, p, hq, rfl⟩

/-- What the first search finds covers the request. -/
theorem Tag.covers_of_finds {t t' : Tag} (h : t.finds t' = true) : t'.Covers t := by
  unfold Tag.finds at h
  exact Tag.same_iff.mp (Bool.and_eq_true_iff.mp h).1

theorem Tag.finds_of_covers {t t' plain : Tag} (hplain : t.remosaicTag = some plain)
    (h : t'.Covers t) : t.finds t' = true := by
  have htype : t.managerType ≠ .serviceGralloc := by
    intro htype
    simp [Tag.remosaicTag, htype] at hplain
  simp [Tag.finds, Tag.same_iff.mpr h, htype]

/-- **A request falls back** when it is for remosaic and no manager covers
it. -/
def Tag.FallsBack (optimizedRemosaic : Bool) (l : List Tag) (tag : Tag) : Prop :=
  optimizedRemosaic = true ∧ tag.remosaicTag ≠ none ∧ ∀ t ∈ l, ¬ t.Covers tag

/-- Where the first search finds nothing, a request that is answered falls
back. -/
theorem Tag.fallsBack_of_finds (h : getBufferManager optimizedRemosaic l tag = some k)
    (hnone : l.findIdx? tag.finds = none) :
    tag.FallsBack optimizedRemosaic l ∧
      ∃ plain, tag.remosaicTag = some plain ∧ l.findIdx? plain.same = some k := by
  unfold getBufferManager at h
  rw [hnone] at h
  simp only [Option.none_or] at h
  cases optimizedRemosaic with
  | false => exact absurd h (by simp)
  | true =>
    rw [if_pos rfl] at h
    obtain ⟨plain, hplain, hk⟩ := Option.bind_eq_some_iff.mp h
    refine ⟨⟨rfl, by simp [hplain], fun t ht hcovers => ?_⟩, plain, hplain, hk⟩
    have hfinds := findIdx?_eq_none_iff.mp hnone t ht
    rw [Tag.finds_of_covers hplain hcovers] at hfinds
    exact absurd hfinds (by simp)

/-- **The manager of a tag stays the same** when managers are added, unless
the request fell back and one of the new covers it. -/
theorem getBufferManager_append (h : getBufferManager optimizedRemosaic l tag = some k)
    (l' : List Tag) :
    getBufferManager optimizedRemosaic (l ++ l') tag = some k ∨
      tag.FallsBack optimizedRemosaic l ∧ ∃ t ∈ l', t.Covers tag := by
  cases hfirst : l.findIdx? tag.finds with
  | some j =>
    left
    unfold getBufferManager at h ⊢
    rw [hfirst] at h
    rw [findIdx?_append_left hfirst]
    exact h
  | none =>
    obtain ⟨hback, plain, hplain, hk⟩ := Tag.fallsBack_of_finds h hfirst
    by_cases hnew : ∃ t ∈ l', tag.finds t = true
    · obtain ⟨t, ht, hfinds⟩ := hnew
      exact .inr ⟨hback, t, ht, Tag.covers_of_finds hfinds⟩
    · left
      have hnone : l'.findIdx? tag.finds = none := by
        rw [findIdx?_eq_none_iff]
        intro t ht
        rw [← Bool.not_eq_true]
        exact fun hfinds => hnew ⟨t, ht, hfinds⟩
      unfold getBufferManager
      rw [findIdx?_append, hfirst, hnone, if_pos hback.1, hplain]
      exact findIdx?_append_left hk

/-- **The manager found covers the request**, or the request fell back and
it covers that of the plain type. -/
theorem getBufferManager_covers (h : getBufferManager optimizedRemosaic l tag = some k) :
    ∃ t, l[k]? = some t ∧ (t.Covers tag ∨ tag.FallsBack optimizedRemosaic l ∧
      ∃ plain, tag.remosaicTag = some plain ∧ t.Covers plain) := by
  cases hfirst : l.findIdx? tag.finds with
  | some j =>
    unfold getBufferManager at h
    rw [hfirst] at h
    obtain rfl := Option.some.inj h
    obtain ⟨hj, hfinds, -⟩ := findIdx?_eq_some_iff_getElem.mp hfirst
    exact ⟨l[j], getElem?_eq_getElem hj, .inl (Tag.covers_of_finds hfinds)⟩
  | none =>
    obtain ⟨hback, plain, hplain, hk⟩ := Tag.fallsBack_of_finds h hfirst
    obtain ⟨hj, hsame, -⟩ := findIdx?_eq_some_iff_getElem.mp hk
    have hcovers : l[k].Covers plain := Tag.same_iff.mp hsame
    exact ⟨l[k], getElem?_eq_getElem hj, .inr ⟨hback, plain, hplain, hcovers⟩⟩

end Search

/-! ## Buffers go back to their owner -/

section Owner

variable {ops : ManagerOps σ} {optimizedRemosaic : Bool} {managers : Managers σ} {s : State σ}

@[simp] theorem tags_setManager (k : ℕ) (manager : σ) :
    tags (setManager managers k manager) = tags managers := by
  unfold tags setManager
  induction managers generalizing k with
  | nil => simp
  | cons m managers ih =>
    cases k with
    | zero => simp
    | succ k => simp [ih k]

@[simp] theorem tags_setInfo (tag : Tag) (info : Config) :
    tags (setInfo ops optimizedRemosaic managers tag info).2 = tags managers := by
  unfold setInfo
  split
  · rfl
  · exact tags_setManager ..

@[simp] theorem tags_alloc (tag : Tag) :
    tags (alloc ops optimizedRemosaic managers tag).2 = tags managers := by
  unfold alloc
  split
  · rfl
  · exact tags_setManager ..

@[simp] theorem tags_putBuffer (buffer : Handed) :
    tags (putBuffer ops optimizedRemosaic managers buffer).2 = tags managers := by
  unfold putBuffer
  split
  · rfl
  · exact tags_setManager ..

/-- **What `getBuffer` hands out** carries the tag asked for, and is of the
manager the search finds, under the index that manager gave it. -/
theorem getBuffer_spec (ops : ManagerOps σ) (optimizedRemosaic : Bool) (managers : Managers σ)
    (tag : Tag) :
    tags (getBuffer ops optimizedRemosaic managers tag).2 = tags managers ∧
      ∀ buffer owner, (getBuffer ops optimizedRemosaic managers tag).1 = some (buffer, owner) →
        buffer.tag = tag ∧ getBufferManager optimizedRemosaic (tags managers) tag = some owner ∧
          ∃ m, managers[owner]? = some m ∧ (ops.getBuffer m.2).1 = .noError ∧
            buffer.index = (ops.getBuffer m.2).2.2.1 := by
  unfold getBuffer
  cases hlookup : lookup optimizedRemosaic managers tag with
  | none => exact ⟨rfl, fun _ _ h => absurd h (by simp)⟩
  | some found =>
    obtain ⟨k, manager⟩ := found
    obtain ⟨j, hj, hfound⟩ := Option.bind_eq_some_iff.mp hlookup
    obtain ⟨m, hm, heq⟩ := Option.bind_eq_some_iff.mp hfound
    obtain ⟨rfl, rfl⟩ := Prod.mk.inj (Option.some.inj heq)
    dsimp only
    split_ifs with hbad
    · exact ⟨tags_setManager .., fun _ _ h => absurd h (by simp)⟩
    · refine ⟨tags_setManager .., fun buffer owner h => ?_⟩
      obtain ⟨rfl, rfl⟩ := Prod.mk.inj (Option.some.inj h)
      rw [not_or, not_not] at hbad
      exact ⟨rfl, hj, m, hm, hbad.1, rfl⟩

theorem tags_createBufferManager (tag : Tag) (created : Option σ) :
    ∃ l, tags (createBufferManager managers tag created).2 = tags managers ++ l := by
  unfold createBufferManager
  split
  · exact ⟨[], (append_nil _).symm⟩
  · exact ⟨[], (append_nil _).symm⟩
  · exact ⟨[tag], map_append⟩

theorem step_putBuffer (n : ℕ) :
    tags (step ops optimizedRemosaic s (.putBuffer n)).managers = tags s.managers ∧
      (step ops optimizedRemosaic s (.putBuffer n)).obtained = s.obtained := by
  cases hr : s.obtained[n]? with
  | none => simp [step, hr]
  | some r => simp [step, hr]

/-- What a get changes. -/
theorem step_getBuffer (ops : ManagerOps σ) (optimizedRemosaic : Bool) (s : State σ) (tag : Tag) :
    tags (step ops optimizedRemosaic s (.getBuffer tag)).managers = tags s.managers ∧
      ∀ r ∈ (step ops optimizedRemosaic s (.getBuffer tag)).obtained, r ∈ s.obtained ∨
        (getBuffer ops optimizedRemosaic s.managers tag).1 = some (r.buffer, r.owner) ∧
          r.known = s.managers.length := by
  have hspec := (getBuffer_spec ops optimizedRemosaic s.managers tag).1
  cases hget : getBuffer ops optimizedRemosaic s.managers tag with
  | mk found managers =>
    rw [hget] at hspec
    cases found with
    | none =>
      simp only [step, hget]
      exact ⟨hspec, fun r hr => .inl hr⟩
    | some handed =>
      simp only [step, hget, mem_append, mem_singleton]
      refine ⟨hspec, ?_⟩
      rintro r (hr | rfl)
      · exact .inl hr
      · exact .inr ⟨rfl, rfl⟩

/-- **No call takes a manager away.** -/
theorem tags_step (ops : ManagerOps σ) (optimizedRemosaic : Bool) (s : State σ) (c : Call σ) :
    ∃ l, tags (step ops optimizedRemosaic s c).managers = tags s.managers ++ l := by
  cases c with
  | createBufferManager tag created => exact tags_createBufferManager tag created
  | setInfo tag info => exact ⟨[], by simp [step]⟩
  | alloc tag => exact ⟨[], by simp [step]⟩
  | getBuffer tag => exact ⟨[], by simp [step_getBuffer]⟩
  | putBuffer n => exact ⟨[], by simp [step_putBuffer n]⟩

/-- **A buffer is of a manager that covers its tag**, but for the
fallback. -/
def Obtained.Covered (optimizedRemosaic : Bool) (l : List Tag) (r : Obtained) : Prop :=
  ∃ t, l[r.owner]? = some t ∧ (t.Covers r.buffer.tag ∨
    r.buffer.tag.FallsBack optimizedRemosaic (l.take r.known) ∧
      ∃ plain, r.buffer.tag.remosaicTag = some plain ∧ t.Covers plain)

/-- **A buffer is overtaken** when its request fell back and a manager that
covers it came after. -/
def Obtained.Overtaken (optimizedRemosaic : Bool) (l : List Tag) (r : Obtained) : Prop :=
  r.buffer.tag.FallsBack optimizedRemosaic (l.take r.known) ∧
    ∃ t ∈ l.drop r.known, t.Covers r.buffer.tag

/-- **A buffer goes back to its owner**, under its index. -/
def Obtained.GoesBack (ops : ManagerOps σ) (optimizedRemosaic : Bool) (managers : Managers σ)
    (r : Obtained) : Prop :=
  ∃ m, managers[r.owner]? = some m ∧
    putBuffer ops optimizedRemosaic managers r.buffer =
      ((ops.putBuffer m.2 r.buffer.index).1,
        setManager managers r.owner (ops.putBuffer m.2 r.buffer.index).2)

/-- What holds of a buffer from when it is handed out. -/
structure Obtained.Kept (optimizedRemosaic : Bool) (l : List Tag) (r : Obtained) : Prop where
  known : r.known ≤ l.length
  covered : r.Covered optimizedRemosaic l
  found : getBufferManager optimizedRemosaic l r.buffer.tag = some r.owner ∨
    r.Overtaken optimizedRemosaic l

variable {r : Obtained}

/-- **Managers that are added leave it so.** -/
theorem Obtained.Kept.append {l l' : List Tag} (h : r.Kept optimizedRemosaic l) :
    r.Kept optimizedRemosaic (l ++ l') := by
  have htake : (l ++ l').take r.known = l.take r.known := take_append_of_le_length h.known
  have hdrop : (l ++ l').drop r.known = l.drop r.known ++ l' :=
    drop_append_of_le_length h.known
  refine ⟨?_, ?_, ?_⟩
  · rw [length_append]
    have := h.known
    omega
  · obtain ⟨t, ht, hcovers⟩ := h.covered
    refine ⟨t, ?_, ?_⟩
    · rw [getElem?_append_left (List.getElem?_eq_some_iff.mp ht).1]
      exact ht
    · rw [htake]
      exact hcovers
  · rcases h.found with hfound | ⟨hback, t, ht, hcovers⟩
    · rcases getBufferManager_append hfound l' with hstays | ⟨hback, t, ht, hcovers⟩
      · exact .inl hstays
      · refine .inr ⟨⟨hback.1, hback.2.1, fun t ht => ?_⟩, t, ?_, hcovers⟩
        · rw [htake] at ht
          exact hback.2.2 t (mem_of_mem_take ht)
        · rw [hdrop]
          exact mem_append_right _ ht
    · refine .inr ⟨?_, t, ?_, hcovers⟩
      · rw [htake]
        exact hback
      · rw [hdrop]
        exact mem_append_left _ ht

/-- A buffer that was just handed out. -/
theorem Obtained.Kept.ofGetBuffer {tag : Tag}
    (h : (getBuffer ops optimizedRemosaic managers tag).1 = some (r.buffer, r.owner))
    (hknown : r.known = managers.length) : r.Kept optimizedRemosaic (tags managers) := by
  obtain ⟨rfl, hfound, -⟩ := (getBuffer_spec _ _ _ tag).2 r.buffer r.owner h
  have hlength : (tags managers).length = managers.length := length_map _
  have htake : (tags managers).take r.known = tags managers :=
    take_of_length_le (by omega)
  refine ⟨by omega, ?_, .inl hfound⟩
  obtain ⟨t, ht, hcovers⟩ := getBufferManager_covers hfound
  refine ⟨t, ht, ?_⟩
  rw [htake]
  exact hcovers

/-- **Each call keeps it** of all buffers handed out. -/
theorem kept_step (h : ∀ r ∈ s.obtained, r.Kept optimizedRemosaic (tags s.managers))
    (c : Call σ) :
    ∀ r ∈ (step ops optimizedRemosaic s c).obtained,
      r.Kept optimizedRemosaic (tags (step ops optimizedRemosaic s c).managers) := by
  obtain ⟨l, hl⟩ := tags_step ops optimizedRemosaic s c
  have hold : ∀ r ∈ s.obtained,
      r.Kept optimizedRemosaic (tags (step ops optimizedRemosaic s c).managers) := by
    intro r hr
    rw [hl]
    exact (h r hr).append
  cases c with
  | createBufferManager tag created => exact hold
  | setInfo tag info => exact hold
  | alloc tag => exact hold
  | putBuffer n =>
    intro r hr
    rw [(step_putBuffer n).2] at hr
    exact hold r hr
  | getBuffer tag =>
    intro r hr
    obtain ⟨htags, hobtained⟩ := step_getBuffer ops optimizedRemosaic s tag
    rcases hobtained r hr with hr | ⟨hget, hknown⟩
    · exact hold r hr
    · rw [htags]
      exact Obtained.Kept.ofGetBuffer hget hknown

/-- **A buffer goes back to the owner** that is found for it. -/
theorem Obtained.GoesBack.of_found
    (h : getBufferManager optimizedRemosaic (tags managers) r.buffer.tag = some r.owner) :
    r.GoesBack ops optimizedRemosaic managers := by
  obtain ⟨t, ht, -⟩ := getBufferManager_covers h
  unfold tags at ht
  rw [getElem?_map] at ht
  obtain ⟨m, hm, -⟩ := Option.map_eq_some_iff.mp ht
  refine ⟨m, hm, ?_⟩
  have hlookup : lookup optimizedRemosaic managers r.buffer.tag = some (r.owner, m.2) := by
    unfold lookup
    rw [h]
    simp [hm]
  unfold putBuffer
  rw [hlookup]

/-- **A buffer is handed out as its manager numbers it**, under the tag asked
for. -/
def Issues (ops : ManagerOps σ) (optimizedRemosaic : Bool) (s : State σ) (c : Call σ) : Prop :=
  ∀ tag buffer owner, c = .getBuffer tag →
    (getBuffer ops optimizedRemosaic s.managers tag).1 = some (buffer, owner) →
      buffer.tag = tag ∧ ∃ m, s.managers[owner]? = some m ∧
        (ops.getBuffer m.2).1 = .noError ∧ buffer.index = (ops.getBuffer m.2).2.2.1

/-- **Buffers return to their owner.** In every run each buffer is handed out
as its manager numbers it. It stays with a manager that covers its tag, or
covered it in the fallback, and goes back to that manager until it is
overtaken. -/
theorem returnsToOwner (ops : ManagerOps σ) (optimizedRemosaic : Bool) (calls : List (Call σ)) :
    Run.Throughout (step ops optimizedRemosaic) (Issues ops optimizedRemosaic) State.start calls ∧
      Run.Always (step ops optimizedRemosaic) (fun s => ∀ r ∈ s.obtained,
        r.Covered optimizedRemosaic (tags s.managers) ∧
          (r.GoesBack ops optimizedRemosaic s.managers ∨
            r.Overtaken optimizedRemosaic (tags s.managers))) State.start calls := by
  constructor
  · refine Run.Throughout.of_all _ _ fun s c tag buffer owner _ hget => ?_
    obtain ⟨htag, -, hissued⟩ := (getBuffer_spec _ _ _ tag).2 buffer owner hget
    exact ⟨htag, hissued⟩
  · have hkept : Run.Always (step ops optimizedRemosaic) (fun s => ∀ r ∈ s.obtained,
        r.Kept optimizedRemosaic (tags s.managers)) State.start calls :=
      Run.Always.of_invariant (C := fun _ _ => True) (fun s c h _ => kept_step h c)
        (fun r hr => absurd hr not_mem_nil) (Run.Throughout.of_all _ _ fun _ _ => trivial)
    refine hkept.mono fun s h r hr => ⟨(h r hr).covered, ?_⟩
    rcases (h r hr).found with hfound | hovertaken
    · exact .inl (Obtained.GoesBack.of_found hfound)
    · exact .inr hovertaken

end Owner

/-! ## The fallback -/

/-- The managers of ION buffers, with memory for everything; `none` once a
call has ended the process. -/
def ionOps : ManagerOps (Option BufferManager) where
  setInfo
    | none, _ => (.invalidOperation, none)
    | some m, info => ((m.setInfo info).1, some (m.setInfo info).2)
  alloc m :=
    match m.bind (·.alloc .plenty) with
    | none => (.invalidOperation, none)
    | some (ret, m) => (ret, some m)
  getBuffer m :=
    match m.bind (·.getBuffer .plenty (-1) .inHal) with
    | none => (.invalidOperation, -1, -1, none)
    | some (ret, bufIndex, m) => (ret, bufIndex, (m.buffer bufIndex).index, some m)
  putBuffer
    | none, _ => (.invalidOperation, none)
    | some m, bufIndex => ((m.putBuffer bufIndex .none).1, some (m.putBuffer bufIndex .none).2)

/-- A tag for one pipe. -/
def pipeTag (pipe : ℤ) (managerType : ManagerType) : Tag where
  pipeId i := if i = 0 then pipe else -1
  managerType := managerType
  reserved := -1

/-- Two buffers of one image plane and the metadata. -/
def ionConfig : Config where
  planeCount := 2
  size := fun _ => 4096
  startBufIndex := 0
  reqBufCount := 2
  allowedMaxBufCount := 2
  batchSize := 1
  allocMode := .atOnce
  createMetaPlane := true
  createDebugInfoPlane := false

/-- A manager of ION buffers, and a remosaic request for its pipe. -/
def fallbackCalls : List (Call (Option BufferManager)) :=
  [.createBufferManager (pipeTag 5 .ion) (some (some .init)), .setInfo (pipeTag 5 .ion) ionConfig,
    .alloc (pipeTag 5 .ion), .getBuffer (pipeTag 5 .remosaicIon)]

/-- And then a manager of its type. -/
def overtakingCalls : List (Call (Option BufferManager)) :=
  fallbackCalls ++ [.createBufferManager (pipeTag 5 .remosaicIon) (some (some .init))]

/-- **Not every buffer is of a manager for its tag**: a remosaic request is
answered by the manager of the plain type. Nor does every one go back: one
put back after a manager of its own type was created goes to that one. -/
theorem not_returnsToOwner :
    ¬ (∀ calls, Run.Always (step ionOps true) (fun s => ∀ r ∈ s.obtained,
      ∃ t, (tags s.managers)[r.owner]? = some t ∧ t.Covers r.buffer.tag) State.start calls) ∧
    ¬ (∀ calls, Run.Always (step ionOps true) (fun s => ∀ r ∈ s.obtained,
      r.GoesBack ionOps true s.managers) State.start calls) := by
  constructor
  · intro h
    have hlast := (h fallbackCalls).last
    have hmem : ⟨⟨pipeTag 5 .remosaicIon, 0⟩, 0, 1⟩ ∈
        (fallbackCalls.foldl (step ionOps true) State.start).obtained := by
      decide +kernel
    obtain ⟨t, ht, htype, -⟩ := hlast _ hmem
    have hion : ((tags (fallbackCalls.foldl (step ionOps true) State.start).managers)[0]?).map
        (·.managerType) = some .ion := by
      decide +kernel
    rw [ht, Option.map_some, htype] at hion
    exact absurd hion (by decide)
  · intro h
    have hlast := (h overtakingCalls).last
    have hmem : ⟨⟨pipeTag 5 .remosaicIon, 0⟩, 0, 1⟩ ∈
        (overtakingCalls.foldl (step ionOps true) State.start).obtained := by
      decide +kernel
    obtain ⟨m, hm, hput⟩ := hlast _ hmem
    have hstatus := congrArg Prod.fst hput
    -- the new manager has no buffers to take back
    have hrefused : (putBuffer ionOps true
        (overtakingCalls.foldl (step ionOps true) State.start).managers
        ⟨pipeTag 5 .remosaicIon, 0⟩).1 = .invalidOperation := by
      decide +kernel
    have howner : ((overtakingCalls.foldl (step ionOps true) State.start).managers[0]?).map
        (fun m => (ionOps.putBuffer m.2 0).1) = some .noError := by
      decide +kernel
    rw [hm] at howner
    rw [hrefused] at hstatus
    rw [Option.map_some, ← hstatus] at howner
    exact absurd howner (by decide)

end ExynosVendor.Camera.Supplier
