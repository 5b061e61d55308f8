import ExynosVendor.Telephony.Rfs.Packets
import ExynosVendor.Telephony.Rfs.Session

/-!
# The bounds of a packet

The service checks that a packet has its header and as many bytes as the
header says, and no more: a command's own fields may be missing, a name or
the data of a response may go on behind the bytes, and the last number let
through as a file has no entry. `inBounds_iff` says which packets are read
in bounds.
-/

namespace ExynosVendor.Rfs

open Ril (BYTE)

variable (md5 : List BYTE → List BYTE)

namespace Service

/-- As many bytes were received as the header says. -/
def Fits (bytes : List BYTE) : Prop :=
  headerSize ≤ bytes.length ∧ headerSize + (word32 bytes 4).toNat ≤ bytes.length

instance (bytes : List BYTE) : Decidable (Fits bytes) := inferInstanceAs (Decidable (_ ∧ _))

/-- **What is to hold of a packet**: no read leaves the bytes received, no
index leaves `mFiles`, and one that does not fit is rejected. -/
structure InBounds (bits : ℕ) (sv : Service) (bytes : List BYTE) (w : Outcome) : Prop where
  reads : sv.processRfsPacketAt md5 bits bytes w ≠ .error .behind
  handles : ∀ id, sv.processRfsPacketAt md5 bits bytes w ≠ .error (.handle id)
  rejected : ¬ Fits bytes → sv.processRfsPacketAt md5 bits bytes w = .ok none

/-- **The condition.** What is taken for a packet is inside the bytes as far
as it is looked at, and where a file is found for it, it fits. (A sum of
`size_t` with more than 32 bits does not overflow, and only what fits is
taken for a packet.) -/
def Sound (bits : ℕ) (sv : Service) (bytes : List BYTE) (w : Outcome) : Prop :=
  Accepted bits bytes → sv.Contained bits bytes w ∧ (Addressed bits bytes → Fits bytes)

section Bounds

variable {bits : ℕ} {sv : Service} {bytes : List BYTE} {w : Outcome}

theorem no_fault_iff (x : Except Fault (Option Service)) :
    (x ≠ .error .behind ∧ ∀ id, x ≠ .error (.handle id)) ↔ ∃ r, x = .ok r := by
  cases x with
  | error e => cases e <;> simp
  | ok r => simp

/-- **Which packets are read in bounds.** For every content of the bytes
received, every state of the service and its objects, and every answer of
the system. -/
theorem inBounds_iff (hn : bytes.length ≤ maxReadBuffer) :
    InBounds md5 bits sv bytes w ↔ Sound bits sv bytes w := by
  classical
  by_cases haccepted : Accepted bits bytes
  · have hyields := yields_processRfsPacketAt md5 hn haccepted sv w
    have hfree := (no_fault_iff _).trans hyields.exists_iff
    constructor
    · intro h _
      have hcontained := hfree.mp ⟨h.reads, h.handles⟩
      refine ⟨hcontained, fun haddressed => ?_⟩
      by_contra hfits
      have hvalue := (hyields.ok hcontained).symm.trans (h.rejected hfits)
      rw [if_pos haddressed] at hvalue
      cases hvalue
    · intro h
      obtain ⟨hcontained, hfits⟩ := h haccepted
      obtain ⟨hreads, hhandles⟩ := hfree.mpr hcontained
      refine ⟨hreads, hhandles, fun hnot => ?_⟩
      rw [hyields.ok hcontained, if_neg fun haddressed => hnot (hfits haddressed)]
  · have hnone := processRfsPacketAt_of_not md5 hn haccepted sv w
    obtain ⟨hreads, hhandles⟩ := (no_fault_iff _).mpr ⟨_, hnone⟩
    exact iff_of_true ⟨hreads, hhandles, fun _ => hnone⟩ fun h => absurd h haccepted

end Bounds

/-- A service without objects. -/
def unused : Service := ⟨[], fun _ => none, ⟨fun _ => none, [], [], []⟩, []⟩

/-- `RFS_CLOSE` of a file. -/
def closePacket : List BYTE := [5, 0, 1, 0, 4, 0, 0, 0, 7, 0, 0, 0]

theorem inBounds_close : InBounds id 64 unused closePacket willing :=
  (inBounds_iff id (by decide)).mpr fun _ =>
    ⟨⟨⟨by decide, fun hopen => absurd hopen (by decide)⟩, fun id hid => by
      have hfile : fileId (packet 64 closePacket).body = some 7 := by decide
      obtain rfl := Option.some.inj (hfile.symm.trans hid)
      exact ⟨by decide, fun _ => trivial⟩⟩, fun _ => by decide⟩

/-- **A header alone** is taken for an `RFS_READ`, and the file is read
behind it. -/
theorem not_inBounds_header : ¬ InBounds id 64 unused [1, 0, 1, 0, 0, 0, 0, 0] willing :=
  fun h => h.reads rfl

end Service

end ExynosVendor.Rfs
