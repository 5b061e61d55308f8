import Mathlib.Order.Lattice
import Mathlib.Data.List.Forall2

/-!
# Deadline queues

Things are put in with a deadline and come out by it, the earliest first
and those of one deadline in the order they were put in. Each entry keeps
the turn it was put in at, so that the order is one without ties, and the
queue carries that its entries stand in it. `insertBefore` is how an
implementation finds the place of an entry: before the first that comes
later.
-/

namespace ExynosVendor

open List

/-! ## Finding the place -/

section Insert

variable {α β : Type*}

/-- The list with an element before the first one the test is true of. -/
def insertBefore (later : α → Bool) (a : α) : List α → List α
  | [] => [a]
  | b :: rest => if later b then a :: b :: rest else b :: insertBefore later a rest

variable {later : α → Bool} {list as : List α} {S : α → β → Prop} {bs : List β}

@[simp]
theorem mem_insertBefore {a c : α} :
    c ∈ insertBefore later a list ↔ c = a ∨ c ∈ list := by
  induction list with
  | nil => simp [insertBefore]
  | cons b rest ih =>
    rw [insertBefore]
    split_ifs with hlater
    · rw [mem_cons]
    · rw [mem_cons, ih, mem_cons]
      exact or_left_comm

variable {R : α → α → Prop}

/-- **The place is the right one** when the test tells which elements come
later. -/
theorem pairwise_insertBefore {a : α} (hlist : list.Pairwise R)
    (hafter : ∀ b ∈ list, later b → R a b) (hbefore : ∀ b ∈ list, ¬ later b → R b a)
    (hup : ∀ b ∈ list, ∀ c ∈ list, R b c → later b → R a c) :
    (insertBefore later a list).Pairwise R := by
  induction list with
  | nil => exact pairwise_singleton R a
  | cons b rest ih =>
    obtain ⟨hb, hrest⟩ := pairwise_cons.mp hlist
    rw [insertBefore]
    split_ifs with hlater
    · refine pairwise_cons.mpr ⟨fun c hc => ?_, hlist⟩
      rcases mem_cons.mp hc with rfl | hc'
      · exact hafter c mem_cons_self hlater
      · exact hup b mem_cons_self c hc (hb c hc') hlater
    · refine pairwise_cons.mpr ⟨fun c hc => ?_, ?_⟩
      · rcases mem_insertBefore.mp hc with rfl | hc'
        · exact hbefore b mem_cons_self hlater
        · exact hb c hc'
      · refine ih hrest (fun c hc => hafter c (mem_cons_of_mem b hc))
          (fun c hc => hbefore c (mem_cons_of_mem b hc)) ?_
        exact fun c hc d hd => hup c (mem_cons_of_mem b hc) d (mem_cons_of_mem b hd)

/-- The element is before all that the test is true of. -/
theorem rel_of_pairwise_insertBefore {a b : α} (h : (insertBefore later a list).Pairwise R)
    (hb : b ∈ list) (hlater : later b) : R a b := by
  induction list with
  | nil => exact absurd hb not_mem_nil
  | cons c rest ih =>
    rw [insertBefore] at h
    split_ifs at h with hc
    · exact (pairwise_cons.mp h).1 b hb
    · rcases mem_cons.mp hb with rfl | hrest
      · exact absurd hlater hc
      · exact ih (pairwise_cons.mp h).2 hrest

/-- Two lists that match still do when both tests agree. -/
theorem forall₂_insertBefore {later' : β → Bool} {a : α} {b : β} (h : List.Forall₂ S as bs)
    (hab : S a b) (hagree : ∀ c ∈ as, ∀ d, S c d → later c = later' d) :
    List.Forall₂ S (insertBefore later a as) (insertBefore later' b bs) := by
  induction h with
  | nil => exact List.Forall₂.cons hab List.Forall₂.nil
  | @cons c d cs ds hcd hrest ih =>
    rw [insertBefore, insertBefore, hagree c mem_cons_self d hcd]
    split_ifs with hlater
    · exact List.Forall₂.cons hab (List.Forall₂.cons hcd hrest)
    · exact List.Forall₂.cons hcd (ih fun e he => hagree e (mem_cons_of_mem c he))

theorem forall₂_tail (h : List.Forall₂ S as bs) :
    List.Forall₂ S as.tail bs.tail := by
  cases h with
  | nil => exact List.Forall₂.nil
  | cons _ hrest => exact hrest

theorem forall₂_eraseP {p : α → Bool} {p' : β → Bool} (h : List.Forall₂ S as bs)
    (hagree : ∀ c d, S c d → p c = p' d) :
    List.Forall₂ S (as.eraseP p) (bs.eraseP p') := by
  induction h with
  | nil => exact List.Forall₂.nil
  | @cons c d cs ds hcd hrest ih =>
    rw [eraseP_cons, eraseP_cons, hagree c d hcd]
    cases p' d with
    | true => exact hrest
    | false => exact List.Forall₂.cons hcd ih

end Insert

/-! ## The queue -/

/-- What is in a queue: when it is due, the turn it was put in at, and what
it is. -/
structure Pending (κ μ : Type*) where
  /-- The deadline. -/
  due : κ
  /-- How many had been put in before. -/
  turn : ℕ
  /-- The thing. -/
  item : μ

namespace Pending

variable {κ μ : Type*} [LinearOrder κ]

/-- **Which one comes out first**: the earlier deadline, and the earlier
turn for the same. -/
def Before (a b : Pending κ μ) : Prop :=
  a.due < b.due ∨ a.due = b.due ∧ a.turn < b.turn

theorem Before.due_le {a b : Pending κ μ} (h : a.Before b) : a.due ≤ b.due := by
  rcases h with hlt | ⟨heq, -⟩
  · exact le_of_lt hlt
  · exact le_of_eq heq

end Pending

/-- **A deadline queue**: its entries in the order they come out. -/
structure DeadlineQueue (κ μ : Type*) [LinearOrder κ] where
  /-- What is in it. -/
  entries : List (Pending κ μ)
  /-- How many have been put in. -/
  turns : ℕ
  /-- The entries stand in order. -/
  ordered : entries.Pairwise Pending.Before
  /-- All of them were put in before. -/
  earlier : ∀ e ∈ entries, e.turn < turns

namespace DeadlineQueue

variable {κ μ : Type*} [LinearOrder κ]

/-- The empty queue. -/
def empty : DeadlineQueue κ μ where
  entries := []
  turns := 0
  ordered := List.Pairwise.nil
  earlier := fun _ he => absurd he not_mem_nil

/-- A thing is put in. -/
def put (q : DeadlineQueue κ μ) (due : κ) (item : μ) : DeadlineQueue κ μ where
  entries := insertBefore (fun e => decide (due < e.due)) ⟨due, q.turns, item⟩ q.entries
  turns := q.turns + 1
  ordered := by
    refine pairwise_insertBefore q.ordered ?_ ?_ ?_
    · intro e _ hlater
      exact Or.inl (of_decide_eq_true hlater)
    · intro e he hlater
      rw [decide_eq_true_eq, not_lt] at hlater
      rcases lt_or_eq_of_le hlater with hlt | heq
      · exact Or.inl hlt
      · exact Or.inr ⟨heq, q.earlier e he⟩
    · intro e _ f _ hef hlater
      exact Or.inl (lt_of_lt_of_le (of_decide_eq_true hlater) hef.due_le)
  earlier := by
    intro e he
    rcases mem_insertBefore.mp he with rfl | hold
    · exact Nat.lt_succ_self _
    · exact Nat.lt_succ_of_lt (q.earlier e hold)

/-- The first one is taken out. -/
def pop (q : DeadlineQueue κ μ) : DeadlineQueue κ μ where
  entries := q.entries.tail
  turns := q.turns
  ordered := q.ordered.tail
  earlier := fun e he => q.earlier e (mem_of_mem_tail he)

/-- The first of some things is taken out. -/
def erase (q : DeadlineQueue κ μ) (p : μ → Bool) : DeadlineQueue κ μ where
  entries := q.entries.eraseP fun e => p e.item
  turns := q.turns
  ordered := q.ordered.sublist eraseP_sublist
  earlier := fun e he => q.earlier e (mem_of_mem_eraseP he)

/-- **What comes out comes before all that stays.** -/
theorem before_of_head {q : DeadlineQueue κ μ} {e : Pending κ μ} (he : q.entries.head? = some e) :
    ∀ f ∈ q.entries.tail, e.Before f := by
  intro f hf
  have hentries := eq_cons_of_mem_head? he
  have hordered := q.ordered
  rw [hentries] at hordered
  exact (pairwise_cons.mp hordered).1 f hf

end DeadlineQueue

end ExynosVendor
