import Mathlib.Data.List.GetD
import Mathlib.Tactic.Common
import Mathlib.Algebra.Ring.Int.Defs
import Mathlib.Algebra.Ring.Nat

/-!
# Bits in a byte buffer

A buffer of bytes is also a row of bits, counted from the most
significant bit of the first byte. A field of `n` bits stands in it most
significant bit first, wherever it starts. `Holds` says which bits stand
at the front of a buffer when there are only zeros behind them: a writer
extends them, and a reader takes its fields off their front.
-/

namespace ExynosVendor.BitStream

open List

/-- The lowest `n` bits of a byte, most significant first. -/
def field (n : ℕ) (b : BitVec 8) : List Bool :=
  (List.range n).map fun j => b.getLsbD (n - 1 - j)

/-- Bit `k` of a buffer. -/
def bit (buf : List (BitVec 8)) (k : ℕ) : Bool :=
  (buf.getD (k / 8) 0).getLsbD (7 - k % 8)

/-- The buffer holds `w`, and zeros behind it. -/
def Holds (buf : List (BitVec 8)) (w : List Bool) : Prop :=
  ∀ k, bit buf k = w.getD k false

@[simp] theorem field_length (n : ℕ) (b : BitVec 8) : (field n b).length = n := by
  simp [field]

theorem field_getD {n k : ℕ} (b : BitVec 8) (h : k < n) :
    (field n b).getD k false = b.getLsbD (n - 1 - k) := by
  rw [getD_eq_getElem _ _ (by simpa using h)]
  simp [field]

/-- The bits behind which a field has been put. -/
theorem append_field_getD (w : List Bool) (n : ℕ) (b : BitVec 8) (k : ℕ) :
    (w ++ field n b).getD k false =
      (w.getD k false || (decide (w.length ≤ k) && decide (k < w.length + n) &&
        b.getLsbD (n - 1 - (k - w.length)))) := by
  by_cases hk : k < w.length
  · have hle : ¬ w.length ≤ k := by omega
    rw [getD_append _ _ _ _ hk]
    simp [hle]
  · have hle : w.length ≤ k := by omega
    rw [getD_append_right _ _ _ _ hle, getD_eq_default _ _ hle]
    by_cases hn : k < w.length + n
    · rw [field_getD b (by omega)]
      simp [hle, hn]
    · rw [getD_eq_default _ _ (by rw [field_length]; omega)]
      simp [hn]

variable {buf : List (BitVec 8)}

/-- Replacing a byte replaces its eight bits. -/
theorem bit_set {i : ℕ} (b : BitVec 8) (h : i < buf.length) (k : ℕ) :
    bit (buf.set i b) k = if k / 8 = i then b.getLsbD (7 - k % 8) else bit buf k := by
  rw [bit, bit, getD_eq_getElem?_getD, getElem?_set]
  by_cases hk : i = k / 8
  · rw [if_pos hk, if_pos h, if_pos hk.symm]
    rfl
  · rw [if_neg hk, if_neg (Ne.symm hk), getD_eq_getElem?_getD]

theorem bit_set_or {i : ℕ} (b : BitVec 8) (h : i < buf.length) (k : ℕ) :
    bit (buf.set i (buf[i] ||| b)) k =
      (bit buf k || (decide (k / 8 = i) && b.getLsbD (7 - k % 8))) := by
  rw [bit_set _ h]
  by_cases hk : k / 8 = i
  · rw [if_pos hk, BitVec.getLsbD_or, decide_eq_true hk, Bool.true_and, bit, hk,
      getD_eq_getElem _ _ h]
  · rw [if_neg hk, decide_eq_false hk, Bool.false_and, Bool.or_false]

theorem holds_replicate (n : ℕ) : Holds (List.replicate n 0) [] := by
  intro k
  simp [bit, getD_eq_getElem?_getD, getElem?_replicate]
  split <;> simp

/-- Cutting off zero bytes changes nothing. -/
theorem Holds.take {w : List Bool} {n : ℕ} (h : Holds buf w) (hn : w.length ≤ 8 * n) :
    Holds (buf.take n) w := by
  intro k
  by_cases hk : k / 8 < n
  · have hsame : bit (buf.take n) k = bit buf k := by
      rw [bit, bit, getD_eq_getElem?_getD, getElem?_take_of_lt hk, ← getD_eq_getElem?_getD]
    rw [hsame]
    exact h k
  · have hlen : (buf.take n).length ≤ k / 8 := by
      rw [length_take]
      omega
    rw [bit, getD_eq_default _ _ hlen, getD_eq_default _ _ (by omega)]
    simp

end ExynosVendor.BitStream
