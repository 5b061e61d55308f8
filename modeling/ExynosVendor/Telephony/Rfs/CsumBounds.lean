import ExynosVendor.Common.Guarded
import ExynosVendor.Telephony.Rfs.Nv

/-!
# The bounds of the checksum

`CsumCheckForData` once more, read by read: the buffer ends where its size
says, and a read behind it is a fault. The check of the size leaves out the
header in front of the data, and the pad and the checksum behind them;
`verifies_iff` says on which buffers that does no harm.
-/

namespace ExynosVendor.Rfs

open Ril (BYTE)
open Guarded

/-! ## Read by read -/

/-- The two bytes at an address; the fault is the address. -/
def wordAt (buf : List BYTE) (a : ℕ) : Except ℕ (BitVec 16) :=
  (fun b => b.getD 1 0 ++ b.getD 0 0) <$> read a buf a 2

/-- The loop of `PalRegistryDataCheckCalc`, for so many words. -/
def sumWords (buf : List BYTE) : ℕ → ℕ → BitVec 16 → Except ℕ (BitVec 16)
  | 0, _, check => return check
  | n + 1, ptr, check => do
      let x ← wordAt buf ptr
      sumWords buf n (ptr + 2) (check + x)

/-- `PalRegistryDataCheckCalc`. -/
def dataCheckCalcAt (buf : List BYTE) (ptr len : ℕ) : Except ℕ (BitVec 16) := do
  let check ← sumWords buf (len / 2) ptr 0
  if len % 2 = 1 then do
    let x ← wordAt buf (ptr + (len - 1))
    return check + (x ||| 0xff00)
  else return check

/-- `CsumCheckForData`. -/
def csumCheckAt (buf : List BYTE) : Except ℕ Bool := do
  let total ← LittleEndian.decode <$> read 8 buf 8 4
  if total = 2 ^ 32 - 1 then return true
  else if buf.length < total ∨ 1024 * 1024 < buf.length then return false
  else do
    let check ← dataCheckCalcAt buf nvHeaderSize total
    let recorded ← wordAt buf (nvHeaderSize + total + total % 2)
    return check == recorded

/-! ## What is to hold -/

/-- The cells of a buffer, with zeros behind it. -/
def cells (buf : List BYTE) (k : ℕ) : BYTE := buf.getD k 0

/-- The header, the data with their pad, and the checksum are in the
buffer. -/
def AllInside (buf : List BYTE) : Prop :=
  nvHeaderSize + totalSize (cells buf) + totalSize (cells buf) % 2 + 2 ≤ buf.length

instance (buf : List BYTE) : Decidable (AllInside buf) := inferInstanceAs (Decidable (_ ≤ _))

/-- **What is to hold of a buffer**: no read leaves it, and the answer is
yes where the header says that there is no data, or where all is inside and
the checksum is that of the data. -/
structure Verifies (buf : List BYTE) : Prop where
  reads : ∀ a, csumCheckAt buf ≠ .error a
  answer : csumCheckAt buf = .ok true ↔ totalSize (cells buf) = 2 ^ 32 - 1 ∨ AllInside buf ∧
    word (cells buf) (nvHeaderSize + totalSize (cells buf) + totalSize (cells buf) % 2) =
      palRegistryDataCheckCalc (fun i => cells buf (nvHeaderSize + i)) (totalSize (cells buf))

/-- **The condition.** The field with the size is there, and a size that
does not exceed the buffer leaves room for the rest. -/
def Roomy (buf : List BYTE) : Prop :=
  12 ≤ buf.length ∧ (totalSize (cells buf) ≠ 2 ^ 32 - 1 →
    totalSize (cells buf) ≤ buf.length → AllInside buf)

section Reads

variable (buf : List BYTE)

theorem yields_wordAt (a : ℕ) :
    Yields (wordAt buf a) (a + 2 ≤ buf.length) (word (cells buf) a) :=
  (yields_read a 0 buf a 2).map _

/-- **The loop** is in bounds where its last word is. -/
theorem yields_sumWords (n ptr : ℕ) (check : BitVec 16) :
    Yields (sumWords buf n ptr check) (n ≠ 0 → ptr + 2 * n ≤ buf.length)
      (check + ((List.range n).map fun i => word (cells buf) (ptr + 2 * i)).sum) := by
  induction n generalizing ptr check with
  | zero => exact .of_eq (congrArg Except.ok (BitVec.add_zero check).symm) fun h => absurd rfl h
  | succ n ih =>
    have hbind : Yields (sumWords buf (n + 1) ptr check) _ _ := (yields_wordAt buf ptr).bind
      fun _ => ih (ptr + 2) (check + word (cells buf) ptr)
    refine (hbind.congr ?_).value fun _ => ?_
    · constructor
      · intro h _
        by_cases hn : n = 0
        · have := h.1
          omega
        · have := h.2 hn
          omega
      · intro h
        have := h (Nat.succ_ne_zero n)
        exact ⟨by omega, fun _ => by omega⟩
    · have hshift : (List.range n).map (fun i => word (cells buf) (ptr + 2 + 2 * i)) =
          (List.range n).map fun i => word (cells buf) (ptr + 2 * (i + 1)) :=
        List.map_congr_left fun i _ => by rw [Nat.mul_add, Nat.add_assoc, Nat.add_comm 2]
      rw [List.range_succ_eq_map, List.map_cons, List.sum_cons, List.map_map, hshift,
        BitVec.add_assoc]
      rfl

/-- **The sum** reads the data, and with an odd number the pad. -/
theorem yields_dataCheckCalcAt (ptr len : ℕ) :
    Yields (dataCheckCalcAt buf ptr len) (len ≠ 0 → ptr + len + len % 2 ≤ buf.length)
      (palRegistryDataCheckCalc (fun i => cells buf (ptr + i)) len) := by
  have hsum : Yields (sumWords buf (len / 2) ptr 0) (len / 2 ≠ 0 → ptr + 2 * (len / 2) ≤ buf.length)
      ((List.range (len / 2)).map fun i => word (fun i => cells buf (ptr + i)) (2 * i)).sum :=
    (yields_sumWords buf (len / 2) ptr 0).value fun _ => BitVec.zero_add _
  unfold dataCheckCalcAt palRegistryDataCheckCalc
  dsimp only
  by_cases hodd : len % 2 = 1
  · simp only [if_pos hodd]
    have hlast := (yields_wordAt buf (ptr + (len - 1))).map fun x =>
      ((List.range (len / 2)).map fun i => word (fun i => cells buf (ptr + i)) (2 * i)).sum +
        (x ||| 0xff00)
    refine (hsum.bind fun _ => hlast).congr ?_
    constructor
    · intro h _
      have := h.2
      omega
    · intro h
      have := h (by omega)
      exact ⟨fun _ => by omega, by omega⟩
  · simp only [if_neg hodd]
    refine (hsum.bind (d := True) fun _ => .of_eq rfl trivial).congr ?_
    rw [and_true]
    constructor
    · intro h hlen
      have := h (by omega)
      omega
    · intro h hlen
      have := h (by omega)
      omega

/-- **The check**: what is recorded lies behind all that is summed. -/
theorem yields_csumCheckAt :
    Yields (csumCheckAt buf) (12 ≤ buf.length ∧ (totalSize (cells buf) ≠ 2 ^ 32 - 1 →
        ¬ (buf.length < totalSize (cells buf) ∨ 1024 * 1024 < buf.length) → AllInside buf))
      (csumCheckForData (cells buf) buf.length) := by
  have htotal : Yields (LittleEndian.decode <$> read 8 buf 8 4) (12 ≤ buf.length)
      (totalSize (cells buf)) := (yields_read 8 0 buf 8 4).map _
  unfold csumCheckAt csumCheckForData AllInside
  dsimp only
  refine htotal.bind fun _ => ?_
  generalize totalSize (cells buf) = total
  by_cases hdefault : total = 2 ^ 32 - 1
  · rw [if_pos hdefault, if_pos hdefault]
    exact .of_eq rfl fun hne => absurd hdefault hne
  rw [if_neg hdefault, if_neg hdefault]
  by_cases hsize : buf.length < total ∨ 1024 * 1024 < buf.length
  · rw [if_pos hsize, if_pos hsize]
    exact .of_eq rfl fun _ hnot => absurd hsize hnot
  rw [if_neg hsize, if_neg hsize]
  refine ((yields_dataCheckCalcAt buf nvHeaderSize total).bind fun _ =>
    (yields_wordAt buf _).map _).congr ?_
  constructor
  · exact fun h _ _ => h.2
  · intro h
    have hend := h hdefault hsize
    exact ⟨fun _ => by omega, hend⟩

end Reads

/-- **Which buffers are verified in bounds.** For every content, and every
size up to the largest. -/
theorem verifies_iff {buf : List BYTE} (hmax : buf.length ≤ 1024 * 1024) :
    Verifies buf ↔ Roomy buf := by
  have hyields := yields_csumCheckAt buf
  have hcond : (12 ≤ buf.length ∧ (totalSize (cells buf) ≠ 2 ^ 32 - 1 →
      ¬ (buf.length < totalSize (cells buf) ∨ 1024 * 1024 < buf.length) → AllInside buf)) ↔
        Roomy buf := by
    have hsize : ¬ (buf.length < totalSize (cells buf) ∨ 1024 * 1024 < buf.length) ↔
        totalSize (cells buf) ≤ buf.length := by omega
    rw [hsize]
    rfl
  replace hyields := hyields.congr hcond
  constructor
  · intro h
    by_contra hnot
    obtain ⟨a, ha⟩ := hyields.fault hnot
    exact h.reads a ha
  · intro h
    have hvalue := hyields.ok h
    refine ⟨fun a ha => ?_, ?_⟩
    · rw [hvalue] at ha
      cases ha
    · rw [hvalue, Except.ok.injEq]
      obtain ⟨-, hroom⟩ := h
      unfold AllInside at hroom ⊢
      unfold csumCheckForData
      dsimp only
      generalize totalSize (cells buf) = total at hroom ⊢
      by_cases hdefault : total = 2 ^ 32 - 1
      · rw [if_pos hdefault]
        exact iff_of_true rfl (Or.inl hdefault)
      rw [if_neg hdefault, or_iff_right hdefault]
      by_cases hlarge : buf.length < total
      · rw [if_pos (Or.inl hlarge)]
        exact iff_of_false Bool.false_ne_true fun hboth => absurd hboth.1 (by omega)
      · rw [if_neg (by omega), beq_iff_eq, and_iff_right (hroom hdefault (by omega))]
        exact eq_comm

/-- A buffer of one word of data, with its checksum. -/
theorem verifies_word : Verifies [0, 0, 0, 0, 0, 0, 0, 0, 2, 0, 0, 0, 0, 0, 0, 0, 7, 0, 7, 0] :=
  (verifies_iff (by decide)).mpr ⟨by decide, fun _ _ => by decide⟩

/-- **Data as long as the buffer** are let through, and summed behind it. -/
theorem not_verifies_full : ¬ Verifies [0, 0, 0, 0, 0, 0, 0, 0, 16, 0, 0, 0, 0, 0, 0, 0] :=
  fun h => h.reads 16 rfl

end ExynosVendor.Rfs
