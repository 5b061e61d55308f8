import Mathlib.Tactic.Common
import Mathlib.Algebra.Ring.Int.Defs
import Mathlib.Algebra.Ring.Nat

/-!
# Numbers in memory

The bytes of a number, the least significant first, and the number that
bytes hold.
-/

namespace ExynosVendor.LittleEndian

/-- The lowest bytes of a number, so many of them. -/
def encode : ℕ → ℕ → List (BitVec 8)
  | 0, _ => []
  | n + 1, v => BitVec.ofNat 8 v :: encode n (v / 256)

/-- The number in the bytes. -/
def decode (bytes : List (BitVec 8)) : ℕ :=
  bytes.foldr (fun b v => b.toNat + 256 * v) 0

@[simp] theorem length_encode (n v : ℕ) : (encode n v).length = n := by
  induction n generalizing v with
  | zero => rfl
  | succ n ih => rw [encode, List.length_cons, ih]

theorem decode_cons (b : BitVec 8) (bytes : List (BitVec 8)) :
    decode (b :: bytes) = b.toNat + 256 * decode bytes := rfl

/-- **What fits of a number is read back.** -/
theorem decode_encode (n v : ℕ) : decode (encode n v) = v % 256 ^ n := by
  induction n generalizing v with
  | zero => rw [Nat.pow_zero, Nat.mod_one]; rfl
  | succ n ih =>
    have hpow : 256 ^ (n + 1) = 256 * 256 ^ n := Nat.pow_succ'
    rw [encode, decode_cons, ih, BitVec.toNat_ofNat, hpow, Nat.mod_mul]

theorem decode_encode_of_lt {n v : ℕ} (h : v < 256 ^ n) : decode (encode n v) = v := by
  rw [decode_encode, Nat.mod_eq_of_lt h]

theorem decode_append (a b : List (BitVec 8)) :
    decode (a ++ b) = decode a + 256 ^ a.length * decode b := by
  induction a with
  | nil =>
    show decode b = 0 + 256 ^ 0 * decode b
    rw [Nat.pow_zero, Nat.one_mul, Nat.zero_add]
  | cons x a ih =>
    rw [List.cons_append, decode_cons, ih, decode_cons, List.length_cons, Nat.pow_succ',
      Nat.mul_add, Nat.mul_assoc, Nat.add_assoc]

theorem decode_lt (bytes : List (BitVec 8)) : decode bytes < 256 ^ bytes.length := by
  induction bytes with
  | nil => exact Nat.one_pos
  | cons b bytes ih =>
    have hb := b.isLt
    rw [decode_cons, List.length_cons, Nat.pow_succ]
    omega

/-- **Bytes are those of their number.** -/
theorem encode_decode (bytes : List (BitVec 8)) : encode bytes.length (decode bytes) = bytes := by
  induction bytes with
  | nil => rfl
  | cons b bytes ih =>
    have hb := b.isLt
    have hrest : (b.toNat + 256 * decode bytes) / 256 = decode bytes := by omega
    have hbyte : BitVec.ofNat 8 (b.toNat + 256 * decode bytes) = b := by
      apply BitVec.eq_of_toNat_eq
      rw [BitVec.toNat_ofNat]
      omega
    rw [List.length_cons, decode_cons, encode, hrest, hbyte, ih]

/-- So numbers that fit have the same bytes only if they are the same. -/
theorem encode_inj {n v w : ℕ} (hv : v < 256 ^ n) (hw : w < 256 ^ n)
    (h : encode n v = encode n w) : v = w := by
  rw [← decode_encode_of_lt hv, h, decode_encode_of_lt hw]

end ExynosVendor.LittleEndian
