import Mathlib.Tactic.Common
import Mathlib.Algebra.Ring.Int.Defs
import Mathlib.Algebra.Ring.Nat

/-!
# Machine words

The value of an `int` and of an `unsigned int` of 32 bits, and that a value
in range is its own.
-/

namespace ExynosVendor

/-- An `int`. -/
def toInt (n : ℤ) : ℤ := n.bmod (2 ^ 32)

/-- An `unsigned int`. -/
def toUInt (n : ℤ) : ℕ := (n % 2 ^ 32).toNat

theorem toInt_of_lt {n : ℤ} (h0 : -2 ^ 31 ≤ n) (h : n < 2 ^ 31) : toInt n = n := by
  unfold toInt
  exact Int.bmod_eq_of_le (by omega) (by omega)

theorem toUInt_of_lt {n : ℕ} (h : n < 2 ^ 32) : toUInt n = n := by
  unfold toUInt
  omega

end ExynosVendor
