import Mathlib.Data.Int.ModEq
import Mathlib.Data.List.Basic

/-!
# Rings

A list read around its end: so many entries from a start on. Writing the
entry behind the last appends it, and taking the first leaves the rest.
-/

namespace ExynosVendor.Ring

open List

variable {α : Type} [Inhabited α]

/-- So many entries of a ring, from a start on. -/
def contents (xs : List α) (start n : ℕ) : List α :=
  (List.range n).map fun i => xs.getD ((start + i) % xs.length) default

@[simp] theorem contents_length (xs : List α) (start n : ℕ) :
    (contents xs start n).length = n := by
  rw [contents, length_map, length_range]

theorem contents_mod (xs : List α) (start n : ℕ) :
    contents xs (start % xs.length) n = contents xs start n := by
  unfold contents
  refine map_congr_left fun i _ => ?_
  rw [Nat.mod_add_mod]

/-- **The first entry, and the rest.** -/
theorem contents_succ (xs : List α) (start n : ℕ) :
    contents xs start (n + 1) =
      xs.getD (start % xs.length) default :: contents xs (start + 1) n := by
  unfold contents
  rw [range_succ_eq_map, map_cons, map_map, Nat.add_zero]
  congr 1
  refine map_congr_left fun i _ => ?_
  rw [Function.comp_apply, Nat.add_succ, Nat.succ_add, Nat.succ_eq_add_one]

theorem index_ne (start : ℕ) {i n length : ℕ} (hi : i < n) (hn : n < length) :
    (start + i) % length ≠ (start + n) % length := by
  intro heq
  have hcancel : i ≡ n [MOD length] := Nat.ModEq.add_left_cancel' start heq
  have hsame : i = n := hcancel.eq_of_lt_of_lt (hi.trans hn) hn
  exact Nat.ne_of_lt hi hsame

/-- **The entry behind the last is appended** when the ring is not full. -/
theorem contents_set (xs : List α) (start : ℕ) {n : ℕ} (hn : n < xs.length) (a : α) :
    contents (xs.set ((start + n) % xs.length) a) start (n + 1) = contents xs start n ++ [a] := by
  have hlt : (start + n) % xs.length < xs.length := Nat.mod_lt _ (by omega)
  unfold contents
  rw [range_succ, map_append, map_singleton, length_set]
  congr 1
  · refine map_congr_left fun i hi => ?_
    have hne := index_ne start (mem_range.mp hi) hn
    rw [getD_eq_getElem?_getD, getD_eq_getElem?_getD, getElem?_set_ne (Ne.symm hne)]
  · rw [getD_eq_getElem?_getD, getElem?_set_self hlt, Option.getD_some]

end ExynosVendor.Ring
