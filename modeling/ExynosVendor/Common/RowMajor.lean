import Mathlib.Data.List.ProdSigma
import Mathlib.Data.List.Nodup
import Mathlib.Tactic.Ring

/-!
# Row-major arrays

A loop within a loop sees the pairs of `List.product`, the inner one fastest,
and the pair `(i, j)` of an array with rows of `n` cells stands at `i * n + j`.
An array of more dimensions is rows of rows, so one lemma a dimension does.

`scatter` is the loop that moves the cells of one array to other places of a
second: what it leaves is known as soon as no place is named twice.
-/

namespace ExynosVendor.RowMajor

open List

variable {α β : Type*}

theorem index_lt {m n i j : ℕ} (hi : i < m) (hj : j < n) : i * n + j < m * n := by
  have hrow : (i + 1) * n ≤ m * n := Nat.mul_le_mul_right n hi
  rw [Nat.add_mul, Nat.one_mul] at hrow
  omega

/-- No two cells stand at one place. -/
theorem index_inj {n i j i' j' : ℕ} (hj : j < n) (hj' : j' < n)
    (h : i * n + j = i' * n + j') : i = i' ∧ j = j' := by
  have hn : 0 < n := by omega
  have hrow : ∀ a b : ℕ, b < n → (a * n + b) / n = a := by
    intro a b hb
    rw [Nat.add_comm, Nat.add_mul_div_right b a hn, Nat.div_eq_of_lt hb, Nat.zero_add]
  have hi : i = i' := by rw [← hrow i j hj, h, hrow i' j' hj']
  subst hi
  exact ⟨rfl, by omega⟩

theorem exists_index {m n k : ℕ} (h : k < m * n) : ∃ i j, i < m ∧ j < n ∧ k = i * n + j := by
  have hn : 0 < n := by
    rcases Nat.eq_zero_or_pos n with rfl | hn
    · rw [Nat.mul_zero] at h
      omega
    · exact hn
  refine ⟨k / n, k % n, Nat.div_lt_of_lt_mul (by rwa [Nat.mul_comm]), Nat.mod_lt k hn, ?_⟩
  rw [Nat.mul_comm]
  exact (Nat.div_add_mod k n).symm

/-- The inner loop runs once for each round of the outer one. -/
theorem getElem?_product {xs : List α} {ys : List β} {i j : ℕ} {x : α} {y : β}
    (hx : xs[i]? = some x) (hy : ys[j]? = some y) :
    (xs ×ˢ ys)[i * ys.length + j]? = some (x, y) := by
  have hj : j < ys.length := (List.getElem?_eq_some_iff.mp hy).1
  induction xs generalizing i with
  | nil => simp at hx
  | cons x' xs ih =>
    rw [product_cons]
    cases i with
    | zero =>
      rw [Nat.zero_mul, Nat.zero_add, getElem?_append_left (by simpa using hj), getElem?_map, hy]
      rw [getElem?_cons_zero, Option.some.injEq] at hx
      rw [hx]
      rfl
    | succ i =>
      rw [getElem?_append_right (by rw [length_map, Nat.add_mul]; omega), length_map]
      have hplace : (i + 1) * ys.length + j - ys.length = i * ys.length + j := by
        rw [Nat.add_mul]
        omega
      rw [hplace]
      exact ih (by simpa using hx)

/-- Move the cells of `src`, in turn, to the places `places` of `dst`. -/
def scatter (dst : List α) (places : List ℕ) (src : List α) : List α :=
  (places.zip src).foldl (fun d move => d.set move.1 move.2) dst

@[simp] theorem scatter_cons (dst src : List α) (k : ℕ) (places : List ℕ) (x : α) :
    scatter dst (k :: places) (x :: src) = scatter (dst.set k x) places src := rfl

@[simp] theorem length_scatter (dst : List α) (places : List ℕ) (src : List α) :
    (scatter dst places src).length = dst.length := by
  induction places generalizing dst src with
  | nil => rfl
  | cons k places ih =>
    cases src with
    | nil => rfl
    | cons x src => rw [scatter_cons, ih, length_set]

theorem getElem?_scatter_of_notMem {places : List ℕ} {k : ℕ} (h : k ∉ places)
    (dst src : List α) : (scatter dst places src)[k]? = dst[k]? := by
  induction places generalizing dst src with
  | nil => rfl
  | cons k' places ih =>
    cases src with
    | nil => rfl
    | cons x src =>
      obtain ⟨hne, hrest⟩ := ne_and_not_mem_of_not_mem_cons h
      rw [scatter_cons, ih hrest, getElem?_set_ne (Ne.symm hne)]

/-- **And a place that is named once gets the cell that was moved there.** -/
theorem getElem?_scatter {places : List ℕ} (hnodup : places.Nodup) {i k : ℕ}
    (hk : places[i]? = some k) {dst src : List α} (hdst : k < dst.length) {x : α}
    (hx : src[i]? = some x) : (scatter dst places src)[k]? = some x := by
  induction places generalizing i dst src with
  | nil => simp at hk
  | cons k' places ih =>
    obtain ⟨hfresh, hnodup⟩ := nodup_cons.mp hnodup
    cases src with
    | nil => simp at hx
    | cons x' src =>
      rw [scatter_cons]
      cases i with
      | zero =>
        rw [getElem?_cons_zero, Option.some.injEq] at hk hx
        subst hk hx
        rw [getElem?_scatter_of_notMem hfresh, getElem?_set_self hdst]
      | succ i =>
        exact ih hnodup (by simpa using hk) (by simpa using hdst) (by simpa using hx)

/-- What holds of both arrays' cells holds of the result's. -/
theorem forall_scatter {P : α → Prop} {dst src : List α} (hdst : ∀ x ∈ dst, P x)
    (hsrc : ∀ x ∈ src, P x) (places : List ℕ) : ∀ x ∈ scatter dst places src, P x := by
  induction places generalizing dst src with
  | nil => exact hdst
  | cons k places ih =>
    cases src with
    | nil => exact hdst
    | cons x src =>
      obtain ⟨hx, hsrc⟩ := forall_mem_cons.mp hsrc
      rw [scatter_cons]
      refine ih (fun y hy => ?_) hsrc
      rcases mem_or_eq_of_mem_set hy with hy | rfl
      · exact hdst y hy
      · exact hx

/-! ## Cells of several bytes -/

/-- The cell `k` of an array whose cells have `s` bytes each. -/
def cell (s : ℕ) (bytes : List α) (k : ℕ) : List α := (bytes.drop (k * s)).take s

theorem length_cell {s k : ℕ} {bytes : List α} (h : k * s + s ≤ bytes.length) :
    (cell s bytes k).length = s := by
  rw [cell, length_take, length_drop]
  omega

theorem cell_take {s k m : ℕ} (h : k * s + s ≤ m) (bytes : List α) :
    cell s (bytes.take m) k = cell s bytes k := by
  rw [cell, cell, drop_take, take_take, Nat.min_eq_left (by omega)]

/-- An array is its cells. -/
theorem ext_cell {s n : ℕ} {a b : List α} (ha : a.length = n * s) (hb : b.length = n * s)
    (h : ∀ k < n, cell s a k = cell s b k) : a = b := by
  induction n generalizing a b with
  | zero =>
    rw [Nat.zero_mul] at ha hb
    rw [length_eq_zero_iff.mp ha, length_eq_zero_iff.mp hb]
  | succ n ih =>
    have hstep : (n + 1) * s = s + n * s := by rw [Nat.add_mul, Nat.one_mul, Nat.add_comm]
    have hfirst := h 0 (Nat.succ_pos n)
    have hrest : a.drop s = b.drop s := by
      refine ih (by rw [length_drop]; omega) (by rw [length_drop]; omega)
        fun k hk => ?_
      have hk' : s + k * s = (k + 1) * s := by rw [Nat.add_mul, Nat.one_mul, Nat.add_comm]
      rw [cell, cell, drop_drop, drop_drop, hk']
      exact h (k + 1) (Nat.succ_lt_succ hk)
    rw [cell, cell, Nat.zero_mul, drop_zero, drop_zero] at hfirst
    rw [← take_append_drop s a, hfirst, hrest, take_append_drop]

variable {cells : List (List α)}

/-- Cells laid end to end are the cells of the whole. -/
theorem cell_flatten {s : ℕ} (hlen : ∀ c ∈ cells, c.length = s) {k : ℕ} {c : List α}
    (hk : cells[k]? = some c) : cell s cells.flatten k = c := by
  induction cells generalizing k with
  | nil => simp at hk
  | cons c' cells ih =>
    obtain ⟨hc', hlen⟩ := forall_mem_cons.mp hlen
    rw [flatten_cons, cell]
    cases k with
    | zero =>
      rw [getElem?_cons_zero, Option.some.injEq] at hk
      rw [Nat.zero_mul, drop_zero, ← hk]
      exact take_left' hc'
    | succ k =>
      have hplace : (k + 1) * s = c'.length + k * s := by
        rw [hc', Nat.add_mul, Nat.one_mul, Nat.add_comm]
      rw [hplace, ← drop_drop, drop_left]
      exact ih hlen (by simpa using hk)

theorem length_flatten {s : ℕ} (hlen : ∀ c ∈ cells, c.length = s) :
    cells.flatten.length = cells.length * s := by
  induction cells with
  | nil => rw [flatten_nil, length_nil, length_nil, Nat.zero_mul]
  | cons c cells ih =>
    obtain ⟨hc, hlen⟩ := forall_mem_cons.mp hlen
    rw [flatten_cons, length_append, ih hlen, hc, length_cons, Nat.add_mul]
    omega

end ExynosVendor.RowMajor
