import ExynosVendor.Telephony.Rfs.File

/-!
# The service

`CRfsService` keeps the objects of its files. It looks at the NV files when
it starts, allocates an object for a packet whose file has none, and
deletes it when the object says so; the size of an NV file is only in the
objects that were there at the start. A descriptor that an object has
closed and still holds may be that of another object by then: `serve` is a
packet where the kernel gives numbers again.
-/

namespace ExynosVendor.Rfs

open Ril (BYTE)
open Descriptor

variable (md5 : List BYTE → List BYTE)

/-- `RFS_MAX_HANDLES`. -/
def maxHandles : ℕ := 1024

/-- A byte as `strcasecmp` takes it. -/
def lower (b : BYTE) : BYTE := if 65 ≤ b.toNat ∧ b.toNat ≤ 90 then b + 32 else b

/-- `GetFileId`, without one where it is `RFS_BAD_HANDLE`. -/
def fileId : Body → Option U32
  | .read _ file | .write _ file _ | .opStatus _ file | .closeFile file
  | .ioRequest file _ _ _ | .nvUnprotect file | .nvProtect file | .nvBackup file => some file
  | .openFile file name =>
      if file = nvNormal ∨ file = nvUser ∨ file = nvProtected then
        if name.map lower = (nvFileName file).map lower then some file else none
      else some file
  | .other => none

/-- `CRfsService`: the objects by their ids, with the system and what was
sent. -/
structure Service where
  toc : List TocRecord
  mFiles : U32 → Option RfsFile
  sys : System Name BYTE
  sent : List Message

namespace Service

/-- The entry of an id. -/
def slot (sv : Service) (id : U32) : Slot := ⟨sv.mFiles id, sv.sys, sv.sent⟩

/-- An entry after something was done with it. -/
def put (sv : Service) (id : U32) (s : Slot) : Service :=
  { sv with mFiles := Function.update sv.mFiles id s.file, sys := s.sys, sent := s.sent }

/-- The object of an id, allocated if there is none. -/
def machine (sv : Service) (id : U32) : Machine := (sv.slot id).machine id

def checkNvFiles (w : Outcome) (sv : Service) : Service :=
  let normal := (sv.machine nvNormal).touchNvFile md5 sv.toc w
  let sv := sv.put nvNormal (.of normal.1)
  if normal.2 then
    sv.put nvProtected (.of ((sv.machine nvProtected).touchNvProtectedFile md5 sv.toc w).1)
  else sv

/-- The constructor, over files that are there. -/
def boot (toc : List TocRecord) (w : Outcome) (files : Name → Option (List BYTE)) : Service :=
  checkNvFiles md5 w ⟨toc, fun _ => none, ⟨files, [], [], []⟩, []⟩

def processRfsPacket (sv : Service) (p : Packet) (w : Outcome) : Service :=
  match fileId p.body with
  | none => sv
  | some id =>
      if maxHandles < id.toNat then sv
      else sv.put id ((sv.slot id).processRfsPacket md5 id p w)

/-- The packet may come to `mFd`: it is no status, and finds no other command pending. -/
abbrev ReachesFd (m : Machine) (p : Packet) : Prop :=
  Machine.isOpStatus p.body = false ∧ ¬ m.blocked p

/-- The descriptor of the object a packet is for, as its number is read now. -/
def rebind (number : ℕ → ℕ) (sv : Service) (p : Packet) : Service :=
  match fileId p.body with
  | none => sv
  | some id =>
      if ReachesFd (sv.machine id) p then
        { sv with
          mFiles := Function.update sv.mFiles id ((sv.mFiles id).map fun f =>
            { f with mFd := sv.sys.renumbered number f.mFd }) }
      else sv

/-- `ProcessRfsPacket`, where the kernel gives numbers again. -/
def serve (number : ℕ → ℕ) (sv : Service) (i : Packet × Outcome) : Service :=
  (sv.rebind number i.1).processRfsPacket md5 i.1 i.2

/-- **No packet comes to a descriptor that its object has closed** and whose
number was given again. -/
def Holds (number : ℕ → ℕ) (sv : Service) (p : Packet) : Prop :=
  ∀ id, fileId p.body = some id → ReachesFd (sv.machine id) p →
    ¬ sv.sys.Reused number (sv.machine id).obj.mFd

section Serve

variable {number : ℕ → ℕ} {sv : Service}

theorem rebind_eq {p : Packet} (h : sv.Holds number p) : sv.rebind number p = sv := by
  unfold rebind
  split
  · rfl
  · next id hid =>
    split
    case isFalse => rfl
    rename_i hreaches
    have hsame : ((sv.mFiles id).map fun f =>
        { f with mFd := sv.sys.renumbered number f.mFd }) = sv.mFiles id := by
      cases hfile : sv.mFiles id with
      | none => rfl
      | some f =>
        have hobj : (sv.machine id).obj = f := by simp [machine, Slot.machine, slot, hfile]
        have hnot := h id hid hreaches
        rw [hobj] at hnot
        rw [Option.map_some, System.renumbered_eq hnot]
    rw [hsame, Function.update_eq_self]

theorem serve_eq {i : Packet × Outcome} (h : sv.Holds number i.1) :
    sv.serve md5 number i = sv.processRfsPacket md5 i.1 i.2 := by
  rw [serve, rebind_eq h]

end Serve

end Service

end ExynosVendor.Rfs
