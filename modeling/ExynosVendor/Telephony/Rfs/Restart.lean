import ExynosVendor.Telephony.Rfs.Frame
import ExynosVendor.Telephony.Rfs.Service

/-!
# A restart

A service that starts keeps an NV file whose checksum file agrees with it,
if it holds an image of its size; a normal file that does not agree is made
anew.
-/

namespace ExynosVendor.Rfs

open Ril (BYTE)
open Descriptor Machine

variable (md5 : List BYTE → List BYTE)

/-- The bytes hold an image of a size, that passes the check whatever is in
memory behind it. -/
structure Image (size : ℕ) (bytes : List BYTE) : Prop where
  length : size ≤ bytes.length
  check : ∀ heap, csumCheckForData (fileBuffer bytes size heap) size = true

/-- The ids of NV files. -/
def IsNv (id : U32) : Prop := id = nvNormal ∨ id = nvUser ∨ id = nvProtected

/-- The NV files the service looks at. -/
def Checked (id : U32) : Prop := id = nvNormal ∨ id = nvProtected

/-! ## A service that starts -/

section Touch

variable {m : Machine} {toc : List TocRecord} {w : Outcome} {size : ℕ} {bytes : List BYTE}

theorem csumMatches_csum (hmd5 : ∀ bytes, (md5 bytes).length = nvCsumLength) (bytes : List BYTE) :
    csumMatches md5 bytes (some (csum md5 bytes signatureSit)) = true := by
  have hlen : nvCsumLength ≤ (csum md5 bytes signatureSit).length := Nat.le_of_eq (hmd5 _).symm
  unfold csumMatches
  simp [hlen]

/-- An object without a descriptor reads the file by its name. -/
theorem csumCalc_of_none (hfd : m.obj.mFd = none) : m.csumCalc = m := by
  unfold Machine.csumCalc
  rw [hfd]

theorem isCsumCorrect_of (hfd : m.obj.mFd = none) (hw : w.opens)
    (hbytes : m.sys.files m.nvName = some bytes)
    (hcsum : csumMatches md5 bytes (m.sys.files (csumName m.nvName)) = true) :
    m.isCsumCorrect md5 w = true := by
  unfold Machine.isCsumCorrect
  rw [hfd, hbytes]
  dsimp only
  rw [hw, hcsum]
  rfl

/-- **A file whose checksum agrees is left as it is.** -/
theorem touchNvFile_kept (hfd : m.obj.mFd = none) (hw : w.opens)
    (hsize : tocSize toc m.obj.mId = some size)
    (hbytes : m.sys.files m.nvName = some bytes)
    (hcsum : csumMatches md5 bytes (m.sys.files (csumName m.nvName)) = true)
    (himage : Image size bytes) : m.touchNvFile md5 toc w = (m.setNvSize size, true) := by
  have hcorrect : (m.setNvSize size).isCsumCorrect md5 w = true :=
    isCsumCorrect_of md5 hfd hw hbytes hcsum
  have hcalc : (m.setNvSize size).csumCalc = m.setNvSize size := csumCalc_of_none hfd
  have hfile : (m.setNvSize size).sys.files (m.setNvSize size).nvName = some bytes := hbytes
  unfold Machine.touchNvFile
  rw [hsize]
  dsimp only
  rw [hfile]
  dsimp only
  rw [if_pos hcorrect, hcalc, if_pos (himage.check w.heap), if_neg (Nat.not_lt_of_le himage.length),
    if_neg (Nat.lt_irrefl size)]

/-- One whose checksum does not is made anew. -/
theorem touchNvFile_anew (hfd : m.obj.mFd = none) (hw : w.opens)
    (hsize : tocSize toc m.obj.mId = some size)
    (hcsum : ∀ bytes, m.sys.files m.nvName = some bytes →
      csumMatches md5 bytes (m.sys.files (csumName m.nvName)) = false) :
    m.touchNvFile md5 toc w = ((m.setNvSize size).storeNv (blank size), true) := by
  have hcreate : (m.setNvSize size).createNv w size =
      ((m.setNvSize size).storeNv (blank size), true) := if_pos hw
  unfold Machine.touchNvFile
  rw [hsize]
  dsimp only
  cases hbytes : (m.setNvSize size).sys.files (m.setNvSize size).nvName with
  | none => exact hcreate
  | some bytes =>
    have hwrong : ¬ (m.setNvSize size).isCsumCorrect md5 w = true := by
      have hfd' : (m.setNvSize size).obj.mFd = none := hfd
      unfold Machine.isCsumCorrect
      rw [hfd', hbytes]
      dsimp only
      rw [show csumMatches md5 bytes ((m.setNvSize size).sys.files
        (csumName (m.setNvSize size).nvName)) = false from hcsum bytes hbytes, Bool.and_false]
      exact Bool.false_ne_true
    dsimp only
    rw [if_neg hwrong, csumCalc_of_none (m := m.setNvSize size) hfd]
    exact hcreate

/-- The protected one is left as well. -/
theorem touchNvProtectedFile_kept (hfd : m.obj.mFd = none) (hw : w.opens)
    (hsize : tocSize toc m.obj.mId = some size)
    (hbytes : m.sys.files m.nvName = some bytes)
    (hcsum : csumMatches md5 bytes (m.sys.files (csumName m.nvName)) = true)
    (himage : Image size bytes) (hlen : bytes.length < 2 ^ 32) :
    m.touchNvProtectedFile md5 toc w = (m.setNvSize size, true) := by
  have hcorrect : (m.setNvSize size).isCsumCorrect md5 w = true :=
    isCsumCorrect_of md5 hfd hw hbytes hcsum
  have hcalc : (m.setNvSize size).csumCalc = m.setNvSize size := csumCalc_of_none hfd
  have hfile : (m.setNvSize size).sys.files (m.setNvSize size).nvName = some bytes := hbytes
  have hfits : ¬ bytes.length % 2 ^ 32 < size := by
    rw [Nat.mod_eq_of_lt hlen]
    exact Nat.not_lt_of_le himage.length
  unfold Machine.touchNvProtectedFile
  rw [hsize]
  dsimp only
  rw [if_pos hcorrect, hcalc, hfile]
  dsimp only
  rw [if_neg hfits]
  unfold Machine.checkNvData
  rw [hfile]
  dsimp only
  rw [if_neg (not_not.mpr hw), if_pos (himage.check w.heap)]

/-- The two `Touch` change their own file, its checksum file, and nothing of
the object but the size it knows. -/
structure Touched (toc : List TocRecord) (m m' : Machine) : Prop where
  obj : m'.obj = m.obj ∨ ∃ size, tocSize toc m.obj.mId = some size ∧
    m'.obj = { m.obj with mNvSize := size }
  files : ∀ name, name ≠ m.nvName → name ≠ csumName m.nvName →
    m'.sys.files name = m.sys.files name
  names : m'.sys.names = m.sys.names
  closed : m'.sys.closed = m.sys.closed

/-- The steps of the two behind the size. -/
structure SameObj (m m' : Machine) : Prop where
  obj : m'.obj = m.obj
  files : ∀ name, name ≠ m.nvName → name ≠ csumName m.nvName →
    m'.sys.files name = m.sys.files name
  names : m'.sys.names = m.sys.names
  closed : m'.sys.closed = m.sys.closed

theorem SameObj.trans {m' m'' : Machine} (h : SameObj m m') (h' : SameObj m' m'') :
    SameObj m m'' := by
  have hname : m'.nvName = m.nvName := nvName_of_mId (congrArg RfsFile.mId h.obj)
  refine ⟨h'.obj.trans h.obj, fun name hne hcsum => ?_, h'.names.trans h.names,
    h'.closed.trans h.closed⟩
  have hstep := h'.files name
  rw [hname] at hstep
  exact (hstep hne hcsum).trans (h.files name hne hcsum)

theorem sameObj_refl (m : Machine) : SameObj m m := ⟨rfl, fun _ _ _ => rfl, rfl, rfl⟩

theorem sameObj_storeNv (m : Machine) (bytes : List BYTE) : SameObj m (m.storeNv bytes) :=
  ⟨rfl, fun _ hne _ => System.files_store_ne _ hne _, rfl, rfl⟩

theorem sameObj_expand (m : Machine) (c : Prop) [Decidable c] (tailroom : ℕ) :
    SameObj m (if c then m.expandNv tailroom else m) := by
  split
  · exact sameObj_storeNv m _
  · exact sameObj_refl m

theorem sameObj_csumUpdate (w : Outcome) (m : Machine) : SameObj m (m.csumUpdate md5 w) :=
  ⟨csumUpdate_obj md5 w m, fun name _ hcsum => (csumUpdate_keeps md5 w m).2 name hcsum,
    (csumUpdate_keeps md5 w m).1, csumUpdate_closed md5 w m⟩

theorem sameObj_csumCalc (m : Machine) : SameObj m m.csumCalc := by
  unfold Machine.csumCalc
  split
  · exact sameObj_refl m
  split
  · exact ⟨rfl, fun _ _ _ => rfl, rfl, rfl⟩
  · exact ⟨rfl, fun name _ _ => congrFun (System.files_seek _ _ _) name, System.names_seek _ _ _,
      System.closed_seek _ _ _⟩

theorem sameObj_createNv (w : Outcome) (m : Machine) (size : ℕ) :
    SameObj m (m.createNv w size).1 := by
  unfold Machine.createNv
  split
  · exact sameObj_storeNv m _
  · exact sameObj_refl m

theorem sameObj_restore (w : Outcome) (m : Machine) : SameObj m (m.restore md5 w).1 := by
  unfold Machine.restore
  split
  · exact sameObj_refl m
  · split
    · exact sameObj_refl m
    · split
      · exact (sameObj_storeNv m _).trans (sameObj_csumUpdate md5 w _)
      · exact sameObj_refl m

theorem sameObj_checkNvData (w : Outcome) (m : Machine) (size : ℕ) :
    SameObj m (m.checkNvData md5 w size).1 := by
  unfold Machine.checkNvData
  split
  · exact sameObj_refl m
  · split_ifs
    · exact sameObj_refl m
    · exact sameObj_restore md5 w m
    · exact sameObj_refl m

theorem touched_of_sameObj {m' : Machine} (hsize : tocSize toc m.obj.mId = some size)
    (h : SameObj (m.setNvSize size) m') : Touched toc m m' :=
  ⟨Or.inr ⟨size, hsize, h.obj⟩, h.files, h.names, h.closed⟩

theorem touched_touchNvFile (toc : List TocRecord) (w : Outcome) (m : Machine) :
    Touched toc m (m.touchNvFile md5 toc w).1 := by
  unfold Machine.touchNvFile
  cases hsize : tocSize toc m.obj.mId with
  | none => exact ⟨Or.inl rfl, fun _ _ _ => rfl, rfl, rfl⟩
  | some size =>
    refine touched_of_sameObj hsize ?_
    dsimp only
    split
    · exact sameObj_createNv w _ size
    · next bytes hbytes =>
      have hcheck : SameObj (m.setNvSize size)
          (if csumCheckForData (fileBuffer bytes size w.heap) size then (m.setNvSize size).csumCalc
            else (m.setNvSize size).csumCalc.storeNv (blank size)) := by
        refine (sameObj_csumCalc _).trans ?_
        split
        · exact sameObj_refl _
        · exact sameObj_storeNv _ _
      by_cases hcorrect : (m.setNvSize size).isCsumCorrect md5 w = true
      · rw [if_pos hcorrect]
        exact hcheck.trans (sameObj_expand _ _ _)
      · rw [if_neg hcorrect]
        exact (sameObj_csumCalc _).trans (sameObj_createNv w _ size)

theorem touched_touchNvProtectedFile (toc : List TocRecord) (w : Outcome) (m : Machine) :
    Touched toc m (m.touchNvProtectedFile md5 toc w).1 := by
  unfold Machine.touchNvProtectedFile
  cases hsize : tocSize toc m.obj.mId with
  | none => exact ⟨Or.inl rfl, fun _ _ _ => rfl, rfl, rfl⟩
  | some size =>
    refine touched_of_sameObj hsize ?_
    dsimp only
    split <;> refine (sameObj_csumCalc _).trans ?_
    · split
      · exact sameObj_checkNvData md5 w _ size
      split
      · exact ((sameObj_storeNv _ _).trans (sameObj_csumUpdate md5 w _)).trans
          (sameObj_checkNvData md5 w _ size)
      · exact sameObj_checkNvData md5 w _ size
    · split
      · exact sameObj_restore md5 w _
      split
      · exact (sameObj_createNv w _ size).trans (sameObj_checkNvData md5 w _ size)
      · exact sameObj_createNv w _ size

end Touch

/-! ## The names of the files -/

theorem Checked.isNv {id : U32} (h : Checked id) : IsNv id := by
  rcases h with rfl | rfl
  · exact Or.inl rfl
  · exact Or.inr (Or.inr rfl)

/-- What one file has is not what another one has, -/
theorem nvNames_apart {i j : U32} (hi : IsNv i) (hj : IsNv j) (hij : i ≠ j) :
    nvFileName i ≠ nvFileName j ∧ nvFileName i ≠ csumName (nvFileName j) ∧
      csumName (nvFileName i) ≠ nvFileName j ∧
      csumName (nvFileName i) ≠ csumName (nvFileName j) := by
  rcases hi with rfl | rfl | rfl <;> rcases hj with rfl | rfl | rfl <;>
    first | exact absurd rfl hij | decide

/-- nor is a checksum file the file, nor the backup any of these. -/
theorem nvNames_own (i : U32) : nvFileName i ≠ csumName (nvFileName i) ∧
    nvFileName i ≠ backupName ∧ nvFileName i ≠ csumName backupName ∧
    csumName (nvFileName i) ≠ backupName ∧ csumName (nvFileName i) ≠ csumName backupName := by
  unfold nvFileName
  split_ifs <;> decide

/-! ## Entries -/

section Service

variable {sv : Service} {id j : U32}

theorem machine_put_ne (hne : id ≠ j) (s : Slot) :
    (sv.put j s).machine id = ⟨(sv.machine id).obj, s.sys, s.sent⟩ := by
  have hfile : (sv.put j s).mFiles id = sv.mFiles id := Function.update_of_ne hne _ _
  unfold Service.machine Service.slot Slot.machine
  rw [hfile]
  rfl

theorem machine_put_self (s : Slot) : (sv.put j s).machine j = s.machine j := by
  have hfile : (sv.put j s).mFiles j = s.file := Function.update_self _ _ _
  unfold Service.machine Service.slot Slot.machine
  rw [hfile]
  rfl

/-- The files before a service starts. -/
def unbooted (toc : List TocRecord) (files : Name → Option (List BYTE)) : Service :=
  ⟨toc, fun _ => none, ⟨files, [], [], []⟩, []⟩

/-- At its start the service looks at the normal file, and then, unless that
failed, at the protected one. -/
theorem boot_eq (toc : List TocRecord) (w : Outcome) (files : Name → Option (List BYTE)) :
    let normal := ((unbooted toc files).machine nvNormal).touchNvFile md5 toc w
    Service.boot md5 toc w files =
      if normal.2 then ((unbooted toc files).put nvNormal (.of normal.1)).put nvProtected (.of
        (touchNvProtectedFile md5 toc w ⟨allocFile nvProtected, normal.1.sys, normal.1.sent⟩).1)
      else (unbooted toc files).put nvNormal (.of normal.1) := by
  have hne : nvProtected ≠ nvNormal := by decide
  intro normal
  have hprotected : ((unbooted toc files).put nvNormal (.of normal.1)).machine nvProtected =
      ⟨allocFile nvProtected, normal.1.sys, normal.1.sent⟩ := machine_put_ne hne _
  rw [← hprotected]
  rfl

theorem boot_normal (toc : List TocRecord) (w : Outcome) (files : Name → Option (List BYTE)) :
    (Service.boot md5 toc w files).sys.files (nvFileName nvNormal) =
      (((unbooted toc files).machine nvNormal).touchNvFile md5 toc w).1.sys.files
        (nvFileName nvNormal) := by
  have hne : nvNormal ≠ nvProtected := by decide
  obtain ⟨happart, happart', -⟩ := nvNames_apart (Or.inl rfl) (Or.inr (Or.inr rfl)) hne
  rw [boot_eq]
  split
  · exact (touched_touchNvProtectedFile md5 _ w _).files _ happart happart'
  · rfl

variable {files : Name → Option (List BYTE)}

/-- **A service that starts leaves a file that agrees with its checksum.** -/
theorem boot_kept {toc : List TocRecord} {w : Outcome} {size : ℕ} {bytes : List BYTE}
    (hid : Checked id) (hw : w.opens) (hsize : tocSize toc id = some size)
    (hbytes : files (nvFileName id) = some bytes)
    (hcsum : csumMatches md5 bytes (files (csumName (nvFileName id))) = true)
    (himage : Image size bytes) (hlen : id = nvProtected → bytes.length < 2 ^ 32) :
    (Service.boot md5 toc w files).sys.files (nvFileName id) = files (nvFileName id) := by
  have hne : nvProtected ≠ nvNormal := by decide
  rcases hid with rfl | rfl
  · have hkept := touchNvFile_kept md5 (m := (unbooted toc files).machine nvNormal) rfl hw hsize
      hbytes hcsum himage
    rw [boot_normal, hkept]
    rfl
  · -- the normal file is not this one, and this one is left
    have hnormal := touched_touchNvFile md5 toc w ((unbooted toc files).machine nvNormal)
    rw [boot_eq]
    generalize ((unbooted toc files).machine nvNormal).touchNvFile md5 toc w = normal at hnormal ⊢
    obtain ⟨happart, happart', hcsum', hcsum''⟩ :=
      nvNames_apart (Or.inr (Or.inr rfl)) (Or.inl rfl) hne
    have hfile : normal.1.sys.files (nvFileName nvProtected) = files (nvFileName nvProtected) :=
      hnormal.files _ happart happart'
    have hdigits : normal.1.sys.files (csumName (nvFileName nvProtected)) =
        files (csumName (nvFileName nvProtected)) := hnormal.files _ hcsum' hcsum''
    have hkept : touchNvProtectedFile md5 toc w
          ⟨allocFile nvProtected, normal.1.sys, normal.1.sent⟩ =
        ((⟨allocFile nvProtected, normal.1.sys, normal.1.sent⟩ : Machine).setNvSize size, true) := by
      refine touchNvProtectedFile_kept md5 rfl hw hsize (hfile.trans hbytes) ?_ himage (hlen rfl)
      show csumMatches md5 bytes (normal.1.sys.files (csumName (nvFileName nvProtected))) = true
      rw [hdigits]
      exact hcsum
    split
    · rw [hkept]
      exact hfile
    · exact hfile

theorem boot_anew {toc : List TocRecord} {w : Outcome} {size : ℕ} (hw : w.opens)
    (hsize : tocSize toc nvNormal = some size)
    (hcsum : ∀ bytes, files (nvFileName nvNormal) = some bytes →
      csumMatches md5 bytes (files (csumName (nvFileName nvNormal))) = false) :
    (Service.boot md5 toc w files).sys.files (nvFileName nvNormal) = some (blank size) := by
  have hanew := touchNvFile_anew md5 (m := (unbooted toc files).machine nvNormal) rfl hw hsize hcsum
  rw [boot_normal, hanew]
  exact System.files_store_self _ _ _

end Service

end ExynosVendor.Rfs
