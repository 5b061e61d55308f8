import Mathlib.Data.List.TakeDrop

/-!
# Memory blocks

A block of memory is the list of its cells, and an access names an
offset and a count. `load` and `store` answer `none` when the access
leaves the block: a program that faults is a program whose value is
`none`, and "every access stays inside" is that its value is `some`.

Writers fill a block from the left, so the laws are stated at a block
that is a written prefix followed by the room that is left:
`store_behind` extends the prefix, and `store_eq_none` is the overflow.

`Allocator` is what a program cannot choose about its blocks: how many
cells it is really handed for a request. `Allocator.exact` hands out the
request itself, which is all the language promises.
-/

namespace ExynosVendor

open List Option

namespace Block

variable {α : Type*}

/-- Read `n` cells from offset `i`, or fault. -/
def load (b : List α) (i n : ℕ) : Option (List α) :=
  if i + n ≤ b.length then some ((b.drop i).take n) else none

/-- Overwrite the cells from offset `i` with `xs`, or fault. -/
def store (b : List α) (i : ℕ) (xs : List α) : Option (List α) :=
  if i + xs.length ≤ b.length then some (b.take i ++ xs ++ b.drop (i + xs.length)) else none

/-- Overwrite the one cell at offset `i`. -/
def put (b : List α) (i : ℕ) (x : α) : Option (List α) :=
  store b i [x]

variable {b : List α} {i : ℕ}

variable {n : ℕ} {xs : List α}

/-- A load inside the block succeeds. -/
theorem load_of_le (h : i + n ≤ b.length) :
    load b i n = some ((b.drop i).take n) := by
  simp only [load, if_pos h]

theorem load_eq_none (h : b.length < i + n) : load b i n = none := by
  simp only [load, if_neg (Nat.not_le.mpr h)]

theorem load_front (p r : List α) : load (p ++ r) 0 p.length = some p := by
  rw [load_of_le (by simp)]
  simp

/-- A store that leaves the block faults. -/
theorem store_eq_none (h : b.length < i + xs.length) :
    store b i xs = none := by
  simp only [store, if_neg (Nat.not_le.mpr h)]

theorem put_eq_none {x : α} (h : b.length ≤ i) : put b i x = none :=
  store_eq_none (by simpa using Nat.lt_succ_of_le h)

theorem store_isSome_iff :
    (store b i xs).isSome ↔ i + xs.length ≤ b.length := by
  by_cases h : i + xs.length ≤ b.length
  · simp only [store, if_pos h, isSome_some, true_iff]
    exact h
  · simp only [store, if_neg h, isSome_none, Bool.false_eq_true, false_iff]
    exact h

theorem store_length {b' : List α} (h : store b i xs = some b') :
    b'.length = b.length := by
  by_cases hi : i + xs.length ≤ b.length
  · simp only [store, if_pos hi, some.injEq] at h
    subst h
    simp only [length_append, length_take, length_drop]
    omega
  · simp only [store, if_neg hi, reduceCtorEq] at h

theorem store_of_le (h : i + xs.length ≤ b.length) :
    ∃ b', store b i xs = some b' ∧ b'.length = b.length := by
  obtain ⟨b', hb'⟩ := isSome_iff_exists.mp (store_isSome_iff.mpr h)
  exact ⟨b', hb', store_length hb'⟩

/-- A write to a cell the block has. -/
theorem put_of_lt (x : α) (h : i < b.length) :
    ∃ b', put b i x = some b' ∧ b'.length = b.length :=
  store_of_le (Nat.succ_le_of_lt h : i + [x].length ≤ b.length)

theorem put_eq_set (x : α) (h : i < b.length) :
    put b i x = some (b.set i x) := by
  have hle : i + [x].length ≤ b.length := Nat.succ_le_of_lt h
  rw [put, store, if_pos hle, set_eq_take_append_cons_drop, if_pos h]
  simp

/-- **The writer's rule.** A store right behind the written prefix
extends the prefix and uses up the same amount of room. -/
theorem store_behind {p r : List α} (h : xs.length ≤ r.length) :
    store (p ++ r) p.length xs = some (p ++ xs ++ r.drop xs.length) := by
  have hle : p.length + xs.length ≤ (p ++ r).length := by
    rw [length_append]
    omega
  simp only [store, if_pos hle, take_left]
  congr 2
  rw [drop_append]
  simp

theorem put_behind {p r : List α} {x : α} (h : 0 < r.length) :
    put (p ++ r) p.length x = some (p ++ [x] ++ r.drop 1) :=
  store_behind (by simpa using Nat.succ_le_of_lt h)

theorem put_at {p r : List α} {x y : α} (h : p.length = n) :
    put (p ++ x :: r) n y = some (p ++ y :: r) := by
  subst h
  rw [put_behind (by simp)]
  simp

theorem store_zero {r : List α} (h : xs.length ≤ r.length) :
    store r 0 xs = some (xs ++ r.drop xs.length) := by
  simpa using store_behind (p := []) h

/-- **Adjacent stores are one store**: the second starts where the first
ends, and the pair faults exactly when the whole does not fit. -/
theorem store_bind_store (b : List α) (i : ℕ) (xs ys : List α) :
    ((store b i xs).bind fun b' => store b' (i + xs.length) ys) = store b i (xs ++ ys) := by
  by_cases hi : i ≤ b.length
  · obtain ⟨p, r, rfl, rfl⟩ : ∃ p r, b = p ++ r ∧ p.length = i :=
      ⟨b.take i, b.drop i, (take_append_drop i b).symm, by rw [length_take]; omega⟩
    have hlen : p.length + xs.length = (p ++ xs).length := by rw [length_append]
    by_cases hx : xs.length ≤ r.length
    · rw [store_behind hx, bind_some, hlen]
      by_cases hy : ys.length ≤ (r.drop xs.length).length
      · have hxy : (xs ++ ys).length ≤ r.length := by
          rw [length_drop] at hy
          rw [length_append]
          omega
        rw [store_behind hy, store_behind hxy]
        simp
      · have hover : (p ++ xs ++ r.drop xs.length).length < (p ++ xs).length + ys.length := by
          simp only [length_append] at hy ⊢
          omega
        have hover' : (p ++ r).length < p.length + (xs ++ ys).length := by
          simp only [length_append, length_drop] at hover ⊢
          omega
        rw [store_eq_none hover, store_eq_none hover']
    · have hover : (p ++ r).length < p.length + xs.length := by
        rw [length_append]
        omega
      have hover' : (p ++ r).length < p.length + (xs ++ ys).length := by
        simp only [length_append]
        omega
      rw [store_eq_none hover, store_eq_none hover']
      rfl
  · rw [store_eq_none (by omega), store_eq_none (by omega)]
    rfl

theorem put_bind_store (b : List α) (i : ℕ) (x : α) (ys : List α) :
    ((put b i x).bind fun b' => store b' (i + 1) ys) = store b i (x :: ys) :=
  store_bind_store b i [x] ys

/-! ## Cell by cell -/

/-- **What a store leaves in a cell**: the new value within its range, the old one
outside. -/
theorem getElem?_store {b' : List α} (h : store b i xs = some b') (a : ℕ) :
    b'[a]? = if i ≤ a ∧ a < i + xs.length then xs[a - i]? else b[a]? := by
  have hle : i + xs.length ≤ b.length := store_isSome_iff.mp (h ▸ rfl)
  rw [store, if_pos hle, some.injEq] at h
  have hfront : (b.take i).length = i := by
    rw [length_take]
    omega
  rw [← h, append_assoc]
  by_cases hlow : i ≤ a
  · rw [getElem?_append_right (by omega), hfront]
    by_cases hhigh : a < i + xs.length
    · rw [if_pos ⟨hlow, hhigh⟩, getElem?_append_left (by omega)]
    · rw [if_neg (fun hin => hhigh hin.2), getElem?_append_right (by omega), getElem?_drop]
      congr 1
      omega
  · rw [if_neg (fun hin => hlow hin.1), getElem?_append_left (by omega),
      getElem?_take_of_lt (by omega)]

theorem load_store {b' : List α} (h : store b i xs = some b') :
    load b' i xs.length = some xs := by
  have hle : i + xs.length ≤ b.length := store_isSome_iff.mp (h ▸ rfl)
  rw [load_of_le (store_length h ▸ hle), some.injEq]
  rw [store, if_pos hle, some.injEq] at h
  have hfront : (b.take i).length = i := by
    rw [length_take]
    omega
  rw [← h, append_assoc, drop_left' hfront, take_left]

/-- A load sees no more than its cells. -/
theorem load_congr {b' : List α} (hlen : b'.length = b.length)
    (h : ∀ a, i ≤ a → a < i + n → b'[a]? = b[a]?) : load b' i n = load b i n := by
  by_cases hle : i + n ≤ b.length
  · rw [load_of_le hle, load_of_le (hlen ▸ hle), some.injEq]
    refine ext_getElem? fun k => ?_
    rw [getElem?_take, getElem?_take]
    split
    · rw [getElem?_drop, getElem?_drop]
      exact h _ (by omega) (by omega)
    · rfl
  · rw [load_eq_none (by omega), load_eq_none (by omega)]

theorem getElem?_load {k : ℕ} (h : load b i n = some xs) (hk : k < n) :
    xs[k]? = b[i + k]? := by
  unfold load at h
  split at h
  · rw [← some.inj h, getElem?_take_of_lt hk, getElem?_drop]
  · contradiction

theorem length_load (h : load b i n = some xs) : xs.length = n := by
  unfold load at h
  split at h
  · rw [← some.inj h, length_take, length_drop]
    omega
  · contradiction

/-- **A second store undoes a first** when it writes what was there. -/
theorem store_back_iff {b' ys : List α} (h : store b i xs = some b') (hlen : ys.length = xs.length) :
    store b' i ys = some b ↔ load b i xs.length = some ys := by
  constructor
  · intro hback
    rw [← hlen]
    exact load_store hback
  · intro hload
    have hfit : i + ys.length ≤ b'.length := by
      rw [hlen, store_length h]
      exact store_isSome_iff.mp (h ▸ rfl)
    obtain ⟨b'', hback⟩ := isSome_iff_exists.mp (store_isSome_iff.mpr hfit)
    rw [hback, some.injEq]
    refine ext_getElem? fun a => ?_
    rw [getElem?_store hback, getElem?_store h, hlen]
    split
    · next hin =>
      rw [getElem?_load hload (by omega)]
      congr 1
      omega
    · rfl

end Block

/-- What the allocator decides about a request. -/
structure Allocator where
  /-- The cells handed out for a request of `n`. -/
  usable : ℕ → ℕ
  /-- At least what was asked for. -/
  le_usable : ∀ n, n ≤ usable n

namespace Allocator

variable {α : Type*} (A : Allocator)

/-- A fresh block: `fill` is what its cells hold before a write. -/
def alloc (fill : ℕ → α) (n : ℕ) : List α :=
  (List.range (A.usable n)).map fill

@[simp] theorem alloc_length (fill : ℕ → α) (n : ℕ) : (A.alloc fill n).length = A.usable n := by
  simp [alloc]

/-- **The allocator of the language's own rules**: a block is as large
as the request and no larger, so every access past the request faults. -/
def exact : Allocator where
  usable := id
  le_usable _ := Nat.le_refl _

@[simp] theorem exact_usable (n : ℕ) : exact.usable n = n := rfl

end Allocator

end ExynosVendor
