import Mathlib.Data.List.Basic

/-!
# A heap of blocks

What `malloc` has handed out, by its address; a block that was freed is
not there any more, and no address is handed out again. A pointer that is
null, or whose block was freed, leads to nothing.
-/

namespace ExynosVendor

/-- The blocks, in the order they were allocated. -/
abbrev Heap (α : Type) := List (Option α)

namespace Heap

variable {α : Type}

/-- The block a pointer leads to. -/
def get (h : Heap α) (p : Option ℕ) : Option α := p.bind fun a => (h[a]?).join

/-- A new block, at the next address. -/
def alloc (h : Heap α) (b : α) : Heap α := h ++ [some b]

/-- Another content of a block. -/
def put (h : Heap α) (a : ℕ) (b : α) : Heap α := h.set a (some b)

/-- `free`. The null pointer frees nothing, and a pointer that leads to no
block is not to be freed. -/
def free (h : Heap α) (p : Option ℕ) : Option (Heap α) :=
  match p with
  | none => some h
  | some a => if (h.get p).isSome then some (h.set a none) else none

variable {h h' : Heap α} {p : Option ℕ} {a : ℕ} {b x : α}

theorem get_some (h : Heap α) (a : ℕ) : h.get (some a) = (h[a]?).join := rfl

theorem lt_of_get (hget : h.get (some a) = some x) : a < h.length := by
  by_contra hge
  rw [get_some, List.getElem?_eq_none (Nat.not_lt.mp hge)] at hget
  cases hget

theorem get_put_self (hget : h.get (some a) = some x) (b : α) :
    (h.put a b).get (some a) = some b := by
  rw [get_some, put, List.getElem?_set_self (lt_of_get hget)]
  rfl

theorem get_put_ne (hne : p ≠ some a) (b : α) : (h.put a b).get p = h.get p := by
  cases p with
  | none => rfl
  | some a' =>
    have hne' : a ≠ a' := fun heq => hne (congrArg some heq.symm)
    rw [get_some, put, List.getElem?_set_ne hne', get_some]

theorem put_get (hget : h.get (some a) = some x) : h.put a x = h := by
  have hlt := lt_of_get hget
  rw [get_some, List.getElem?_eq_getElem hlt, Option.join_some] at hget
  rw [put, ← hget]
  exact List.set_getElem_self hlt

/-- **A block that was freed is gone**, -/
theorem get_free_self (hfree : h.free p = some h') : h'.get p = none := by
  cases p with
  | none => rfl
  | some a =>
    unfold free at hfree
    dsimp only at hfree
    split at hfree
    · next hlive =>
      obtain ⟨x, hx⟩ := Option.isSome_iff_exists.mp hlive
      cases hfree
      rw [get_some, List.getElem?_set_self (lt_of_get hx)]
      rfl
    · cases hfree

end Heap

end ExynosVendor
