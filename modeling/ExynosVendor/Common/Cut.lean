import Mathlib.Data.List.Basic
import Mathlib.Data.List.TakeDrop

/-!
# A stream of items, cut anywhere

A stream is the bytes of its items, one after the other. What of it has
arrived is a number of bytes, and that number alone says which items are
complete, which are ahead, and how much of the first of these is there.
-/

namespace ExynosVendor.Cut

variable {ι β : Type*}

/-- **How far a stream has come.** -/
structure Progress (ι : Type*) where
  /-- The items that are complete. -/
  done : List ι
  /-- The items that are not. -/
  ahead : List ι
  /-- How many bytes of the items ahead are there. -/
  got : ℕ

/-- The progress of a stream of which so many bytes are there. -/
def progress (bytes : ι → List β) : List ι → ℕ → Progress ι
  | [], m => ⟨[], [], m⟩
  | i :: items, m =>
      if (bytes i).length ≤ m then
        let p := progress bytes items (m - (bytes i).length)
        ⟨i :: p.done, p.ahead, p.got⟩
      else ⟨[], i :: items, m⟩

variable (bytes : ι → List β)

@[simp] theorem progress_nil (m : ℕ) : progress bytes [] m = ⟨[], [], m⟩ := rfl

theorem progress_cons_of_le {i : ι} {items : List ι} {m : ℕ} (h : (bytes i).length ≤ m) :
    progress bytes (i :: items) m =
      ⟨i :: (progress bytes items (m - (bytes i).length)).done,
        (progress bytes items (m - (bytes i).length)).ahead,
        (progress bytes items (m - (bytes i).length)).got⟩ := by
  rw [progress, if_pos h]

theorem progress_cons_of_lt {i : ι} {items : List ι} {m : ℕ} (h : m < (bytes i).length) :
    progress bytes (i :: items) m = ⟨[], i :: items, m⟩ := by
  rw [progress, if_neg (by omega)]

theorem done_append_ahead (items : List ι) (m : ℕ) :
    (progress bytes items m).done ++ (progress bytes items m).ahead = items := by
  induction items generalizing m with
  | nil => rfl
  | cons i items ih =>
    rcases Nat.lt_or_ge m (bytes i).length with h | h
    · rw [progress_cons_of_lt bytes h]
      rfl
    · rw [progress_cons_of_le bytes h]
      exact congrArg (i :: ·) (ih _)

/-- No byte that is there is counted twice or lost. -/
theorem length_done_add_got (items : List ι) (m : ℕ) :
    ((progress bytes items m).done.flatMap bytes).length + (progress bytes items m).got = m := by
  induction items generalizing m with
  | nil => simp
  | cons i items ih =>
    rcases Nat.lt_or_ge m (bytes i).length with h | h
    · rw [progress_cons_of_lt bytes h]
      simp
    · rw [progress_cons_of_le bytes h]
      have := ih (m - (bytes i).length)
      rw [List.flatMap_cons, List.length_append]
      dsimp only
      omega

/-- The first item ahead is not complete. -/
theorem got_lt {items rest : List ι} {m : ℕ} {i : ι}
    (h : (progress bytes items m).ahead = i :: rest) :
    (progress bytes items m).got < (bytes i).length := by
  induction items generalizing m with
  | nil => cases h
  | cons j items ih =>
    rcases Nat.lt_or_ge m (bytes j).length with hj | hj
    · rw [progress_cons_of_lt bytes hj] at h ⊢
      cases h
      exact hj
    · rw [progress_cons_of_le bytes hj] at h ⊢
      exact ih h

/-- **More bytes arrive**: they are bytes of the items ahead. -/
theorem progress_add (items : List ι) (m k : ℕ) :
    progress bytes items (m + k) =
      let p := progress bytes items m
      let q := progress bytes p.ahead (p.got + k)
      ⟨p.done ++ q.done, q.ahead, q.got⟩ := by
  induction items generalizing m with
  | nil => rfl
  | cons i items ih =>
    rcases Nat.lt_or_ge m (bytes i).length with h | h
    · rw [progress_cons_of_lt bytes h]
      rfl
    · rw [progress_cons_of_le bytes (m := m + k) (by omega), progress_cons_of_le bytes h,
        Nat.sub_add_comm h, ih]
      rfl

theorem drop_flatMap (items : List ι) (m : ℕ) :
    (items.flatMap bytes).drop m =
      ((progress bytes items m).ahead.flatMap bytes).drop (progress bytes items m).got := by
  have hitems := done_append_ahead bytes items m
  have hlen := length_done_add_got bytes items m
  generalize progress bytes items m = p at hitems hlen ⊢
  rw [← hitems, ← hlen, List.flatMap_append, List.drop_append, Nat.add_sub_cancel_left,
    List.drop_eq_nil_of_le (Nat.le_add_right _ _), List.nil_append]

end ExynosVendor.Cut
