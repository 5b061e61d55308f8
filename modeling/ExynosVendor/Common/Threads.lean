import Mathlib.Data.Bool.Basic
import Mathlib.Data.List.Perm.Basic

/-!
# Threads by phase

A machine with threads keeps them in a list, each as the phase it is in. A step begins a
thread, moves one on or ends one. What the machine's other data owe to the threads is said by
counting those in a phase, and a step changes a count by what the thread was and what it is
now.
-/

namespace ExynosVendor.Threads

variable {α : Type}

/-- **A thread goes on**, or ends. -/
def move (threads : List α) (n : ℕ) : Option α → List α
  | some u => threads.set n u
  | none => threads.eraseIdx n

variable {threads : List α} {n : ℕ} {t : α}

theorem mem_move {next : Option α} {u : α} (hu : u ∈ move threads n next) :
    u ∈ threads ∨ next = some u := by
  cases next with
  | none => exact Or.inl (List.mem_of_mem_eraseIdx hu)
  | some v =>
    rcases List.mem_or_eq_of_mem_set hu with hold | rfl
    · exact Or.inl hold
    · exact Or.inr rfl

theorem count_set (ht : threads[n]? = some t) (p : α → Bool) (u : α) :
    (threads.set n u).countP p + (p t).toNat = threads.countP p + (p u).toNat := by
  obtain ⟨hlt, rfl⟩ := List.getElem?_eq_some_iff.mp ht
  have hset := (List.set_perm_cons_eraseIdx hlt u).countP_eq p
  have hold := (List.getElem_cons_eraseIdx_perm hlt).countP_eq p
  rw [List.countP_cons] at hset hold
  cases hpt : p threads[n] <;> cases hpu : p u <;> simp [hpt, hpu] at hset hold ⊢ <;> omega

theorem count_end (ht : threads[n]? = some t) (p : α → Bool) :
    (threads.eraseIdx n).countP p + (p t).toNat = threads.countP p := by
  obtain ⟨hlt, rfl⟩ := List.getElem?_eq_some_iff.mp ht
  have hold := (List.getElem_cons_eraseIdx_perm hlt).countP_eq p
  rw [List.countP_cons] at hold
  cases hpt : p threads[n] <;> simp [hpt] at hold ⊢ <;> omega

/-- **A move counts** for what the thread was and what it is. -/
theorem count_move (ht : threads[n]? = some t) (p : α → Bool) (next : Option α) :
    (move threads n next).countP p + (p t).toNat =
      threads.countP p + (next.elim false p).toNat := by
  cases next with
  | none => exact count_end ht p
  | some u => exact count_set ht p u

theorem count_begin (threads : List α) (p : α → Bool) (u : α) :
    (threads ++ [u]).countP p = threads.countP p + (p u).toNat := by
  rw [List.countP_append]
  cases hpu : p u <;> simp [hpu]

theorem count_pos (ht : threads[n]? = some t) {p : α → Bool} (hp : p t = true) :
    0 < threads.countP p :=
  List.countP_pos_iff.mpr ⟨t, List.mem_of_getElem? ht, hp⟩

theorem count_eq_zero {p : α → Bool} (h : ∀ u ∈ threads, p u = false) : threads.countP p = 0 := by
  rw [List.countP_eq_zero]
  intro u hu
  rw [h u hu]
  exact Bool.false_ne_true

theorem eq_of_toNat_eq {b c : Bool} (h : b.toNat = c.toNat) : b = c := by
  rw [← Bool.ofNat_toNat b, h, Bool.ofNat_toNat]

end ExynosVendor.Threads
