import Mathlib.Data.List.Nodup
import Mathlib.Data.List.Perm.Subperm
import Mathlib.Data.List.Range

/-!
# Linked cells

A store hands out its addresses one after the other and keeps a cell at each of them until
it is freed. A cell may point to a next one; `Chain` says that a pointer leads through some
cells and then ends.

The loops over a chain are fuelled, and answer `none` when they run out of fuel or touch a
cell that is not there. On a chain they need no more fuel than it is long, which is no more
than there are addresses when no cell comes twice (`Chain.length_le`).
-/

namespace ExynosVendor.Linked

open List

variable {C : Type}

/-- The cells by their addresses. -/
abbrev Store (C : Type) := List (Option C)

/-- The cell at an address. -/
def read (s : Store C) (a : ℕ) : Option C := s[a]?.join

/-- A new cell, at the next address. -/
def alloc (s : Store C) (c : C) : Store C := s ++ [some c]

/-- A cell is overwritten. -/
def write (s : Store C) (a : ℕ) (c : C) : Store C := s.set a (some c)

/-- A cell is given up. -/
def free (s : Store C) (a : ℕ) : Store C := s.set a none

variable {s s' : Store C} {a b : ℕ} {c : C}

theorem lt_of_read (h : read s a = some c) : a < s.length := by
  by_contra hge
  rw [read, getElem?_eq_none (by omega)] at h
  exact absurd h.symm (Option.some_ne_none c)

@[simp] theorem length_alloc : (alloc s c).length = s.length + 1 := by
  simp [alloc]

@[simp] theorem length_write : (write s a c).length = s.length := length_set

theorem read_alloc_self : read (alloc s c) s.length = some c := by
  simp [read, alloc]

theorem read_alloc_of_ne (h : b ≠ s.length) : read (alloc s c) b = read s b := by
  rcases Nat.lt_or_ge b s.length with hlt | hge
  · rw [read, alloc, getElem?_append_left hlt]
    rfl
  · have hgt : (alloc s c).length ≤ b := by
      rw [length_alloc]
      omega
    rw [read, read, getElem?_eq_none hge, getElem?_eq_none hgt]

theorem read_write_self (h : a < s.length) : read (write s a c) a = some c := by
  simp [read, write, h]

theorem read_write_of_ne (h : b ≠ a) : read (write s a c) b = read s b := by
  rw [read, write, getElem?_set_ne (Ne.symm h)]
  rfl

theorem read_free_self : read (free s a) a = none := by
  rw [read, free]
  by_cases hlt : a < s.length
  · simp [hlt]
  · have hnone : (s.set a none)[a]? = none := by
      rw [getElem?_eq_none]
      rw [length_set]
      omega
    rw [hnone]
    rfl

theorem read_free_of_ne (h : b ≠ a) : read (free s a) b = read s b := by
  rw [read, free, getElem?_set_ne (Ne.symm h)]
  rfl

/-! ## Chains -/

variable (nxt : C → Option ℕ)

/-- **A pointer leads through some cells**, and the last one of them leads nowhere. -/
def Chain (s : Store C) : List ℕ → Option ℕ → Prop
  | [], p => p = none
  | a :: l, p => p = some a ∧ ∃ c, read s a = some c ∧ Chain s l (nxt c)

variable {nxt} {l : List ℕ} {p : Option ℕ}

theorem Chain.live (h : Chain nxt s l p) (ha : a ∈ l) : ∃ c, read s a = some c := by
  induction l generalizing p with
  | nil => exact absurd ha not_mem_nil
  | cons b l ih =>
    obtain ⟨-, c, hc, hrest⟩ := h
    rcases mem_cons.mp ha with rfl | htail
    · exact ⟨c, hc⟩
    · exact ih hrest htail

theorem Chain.length_le (h : Chain nxt s l p) (hl : l.Nodup) : l.length ≤ s.length := by
  have hsub : l ⊆ List.range s.length := by
    intro a ha
    obtain ⟨c, hc⟩ := h.live ha
    exact mem_range.mpr (lt_of_read hc)
  have hle := (subperm_of_subset hl hsub).length_le
  rwa [length_range] at hle

/-- **A chain stays one** where its cells keep their pointers. -/
theorem Chain.congr (h : Chain nxt s l p)
    (hsame : ∀ a ∈ l, ∀ c, read s a = some c → ∃ c', read s' a = some c' ∧ nxt c' = nxt c) :
    Chain nxt s' l p := by
  induction l generalizing p with
  | nil => exact h
  | cons a l ih =>
    obtain ⟨hp, c, hc, hrest⟩ := h
    obtain ⟨c', hc', hnext⟩ := hsame a mem_cons_self c hc
    refine ⟨hp, c', hc', ?_⟩
    rw [hnext]
    exact ih hrest fun b hb => hsame b (mem_cons_of_mem a hb)

/-- **A cell is linked in** behind one of the chain: it points to where that one pointed. -/
theorem Chain.insert {l₁ l₂ : List ℕ} {q n : ℕ} (h : Chain nxt s (l₁ ++ q :: l₂) p)
    (hl : (l₁ ++ q :: l₂).Nodup)
    (hq : ∃ c', read s' q = some c' ∧ nxt c' = some n)
    (hn : ∀ c, read s q = some c → ∃ c', read s' n = some c' ∧ nxt c' = nxt c)
    (hother : ∀ a ∈ l₁ ++ q :: l₂, a ≠ q → read s' a = read s a) :
    Chain nxt s' (l₁ ++ q :: n :: l₂) p := by
  induction l₁ generalizing p with
  | nil =>
    obtain ⟨hp, c, hc, hrest⟩ := h
    obtain ⟨c', hc', hnext'⟩ := hq
    obtain ⟨d, hd, hdnext⟩ := hn c hc
    refine ⟨hp, c', hc', hnext', d, hd, ?_⟩
    rw [hdnext]
    refine hrest.congr fun a ha ca hca => ⟨ca, ?_, rfl⟩
    have hne : a ≠ q := by
      rintro rfl
      exact (nodup_cons.mp hl).1 ha
    rw [hother a (mem_cons_of_mem q ha) hne]
    exact hca
  | cons b l₁ ih =>
    obtain ⟨hp, c, hc, hrest⟩ := h
    obtain ⟨hb, hl'⟩ := nodup_cons.mp hl
    have hne : b ≠ q := by
      rintro rfl
      exact hb (mem_append_right l₁ mem_cons_self)
    refine ⟨hp, c, ?_, ih hrest hl' fun a ha => hother a (mem_cons_of_mem b ha)⟩
    rw [hother b mem_cons_self hne]
    exact hc

theorem Chain.next {l₁ l₂ : List ℕ} (h : Chain nxt s (l₁ ++ a :: l₂) p) (hc : read s a = some c) :
    Chain nxt s l₂ (nxt c) := by
  induction l₁ generalizing p with
  | nil =>
    obtain ⟨-, c', hc', hrest⟩ := h
    obtain rfl := Option.some.inj (hc.symm.trans hc')
    exact hrest
  | cons b l₁ ih =>
    obtain ⟨-, d, -, hrest⟩ := h
    exact ih hrest

/-! ## Several chains -/

variable (nxt) in
/-- Pointers that lead through one chain each. -/
def Chains (s : Store C) (ps : List (Option ℕ)) (ls : List (List ℕ)) : Prop :=
  List.Forall₂ (fun p l => Chain nxt s l p) ps ls

variable {ps : List (Option ℕ)} {ls : List (List ℕ)}

theorem Chains.chain (h : Chains nxt s ps ls) (hl : l ∈ ls) : ∃ p ∈ ps, Chain nxt s l p := by
  induction h with
  | nil => exact absurd hl not_mem_nil
  | @cons p' l' ps' ls' hhead _ ih =>
    rcases mem_cons.mp hl with rfl | htail
    · exact ⟨p', mem_cons_self, hhead⟩
    · obtain ⟨p, hp, hchain⟩ := ih htail
      exact ⟨p, mem_cons_of_mem p' hp, hchain⟩

theorem Chains.of_pointer (h : Chains nxt s ps ls) (hp : p ∈ ps) : ∃ l ∈ ls, Chain nxt s l p := by
  induction h with
  | nil => exact absurd hp not_mem_nil
  | @cons p' l' ps' ls' hhead _ ih =>
    rcases mem_cons.mp hp with rfl | htail
    · exact ⟨l', mem_cons_self, hhead⟩
    · obtain ⟨l, hl, hchain⟩ := ih htail
      exact ⟨l, mem_cons_of_mem l' hl, hchain⟩

theorem Chains.live (h : Chains nxt s ps ls) (ha : a ∈ ls.flatten) : ∃ c, read s a = some c := by
  obtain ⟨l, hl, hal⟩ := mem_flatten.mp ha
  obtain ⟨p, -, hchain⟩ := h.chain hl
  exact hchain.live hal

theorem Chains.congr (h : Chains nxt s ps ls)
    (hsame : ∀ a ∈ ls.flatten, ∀ c, read s a = some c →
      ∃ c', read s' a = some c' ∧ nxt c' = nxt c) : Chains nxt s' ps ls := by
  induction h with
  | nil => exact List.Forall₂.nil
  | cons hhead _ ih =>
    refine List.Forall₂.cons (hhead.congr fun a ha => hsame a ?_) (ih fun a ha => hsame a ?_)
    · exact mem_append_left _ ha
    · exact mem_append_right _ ha

/-- **A cell is linked in** behind one of some chains. -/
theorem Chains.insert {q n : ℕ} (h : Chains nxt s ps ls) (hdistinct : ls.flatten.Nodup)
    (hmem : q ∈ ls.flatten) (hq : ∃ c', read s' q = some c' ∧ nxt c' = some n)
    (hn : ∀ c, read s q = some c → ∃ c', read s' n = some c' ∧ nxt c' = nxt c)
    (hother : ∀ a ∈ ls.flatten, a ≠ q → read s' a = read s a) :
    ∃ ls', Chains nxt s' ps ls' ∧ ls'.flatten.Perm (n :: ls.flatten) ∧
      ((∀ l ∈ ls, l ≠ []) → ∀ l ∈ ls', l ≠ []) := by
  induction h with
  | nil => exact absurd hmem not_mem_nil
  | @cons p l ps ls hhead htail ih =>
    rw [flatten_cons] at hdistinct hmem hother
    obtain ⟨hl, hls, hapart⟩ := nodup_append'.mp hdistinct
    rcases mem_append.mp hmem with hin | hbehind
    · obtain ⟨l₁, l₂, rfl⟩ := append_of_mem hin
      refine ⟨(l₁ ++ q :: n :: l₂) :: ls, List.Forall₂.cons ?_ ?_, ?_, ?_⟩
      · exact hhead.insert hl hq hn fun a ha => hother a (mem_append_left _ ha)
      · refine Chains.congr htail fun a ha c hc => ⟨c, ?_, rfl⟩
        have hne : a ≠ q := by
          rintro rfl
          exact hapart hin ha
        rw [hother a (mem_append_right _ ha) hne]
        exact hc
      · rw [flatten_cons, flatten_cons, ← cons_append]
        refine Perm.append_right _ ?_
        have hmiddle : (l₁ ++ q :: n :: l₂).Perm (n :: (l₁ ++ [q] ++ l₂)) := by
          have hcut : l₁ ++ q :: n :: l₂ = (l₁ ++ [q]) ++ n :: l₂ := by simp
          rw [hcut]
          exact perm_middle
        simpa using hmiddle
      · intro hne l' hl'
        rcases mem_cons.mp hl' with rfl | hrest
        · simp
        · exact hne l' (mem_cons_of_mem _ hrest)
    · obtain ⟨ls', hchains, hperm, hne⟩ :=
        ih hls hbehind fun a ha => hother a (mem_append_right _ ha)
      refine ⟨l :: ls', List.Forall₂.cons ?_ hchains, ?_, ?_⟩
      · refine hhead.congr fun a ha c hc => ⟨c, ?_, rfl⟩
        have hne' : a ≠ q := by
          rintro rfl
          exact hapart ha hbehind
        rw [hother a (mem_append_left _ ha) hne']
        exact hc
      · rw [flatten_cons, flatten_cons]
        exact (hperm.append_left l).trans perm_middle
      · intro hall l' hl'
        rcases mem_cons.mp hl' with rfl | hrest
        · exact hall _ mem_cons_self
        · exact hne (fun l'' hl'' => hall l'' (mem_cons_of_mem _ hl'')) l' hrest

/-! ## Loops -/

variable (nxt)

/-- The first cell of a chain that is looked for. -/
def find (s : Store C) (visit : C → Bool) : ℕ → Option ℕ → Option (Option ℕ)
  | _, none => some none
  | 0, some _ => none
  | n + 1, some a =>
      match read s a with
      | none => none
      | some c => if visit c then some (some a) else find s visit n (nxt c)

/-- The cells of a chain are given up one after the other; which is told. -/
def release : ℕ → Store C → Option ℕ → Option (Store C × List ℕ)
  | _, s, none => some (s, [])
  | 0, _, some _ => none
  | n + 1, s, some a =>
      match read s a with
      | none => none
      | some c => (release n (free s a) (nxt c)).map fun r => (r.1, a :: r.2)

variable {nxt}

/-- **A search along a chain** ends, and finds the first cell there is. -/
theorem Chain.find_eq (visit : C → Bool) {n : ℕ} (h : Chain nxt s l p) (hn : l.length ≤ n) :
    find nxt s visit n p = some (l.find? fun a => (read s a).any visit) := by
  induction l generalizing p n with
  | nil =>
    obtain rfl : p = none := h
    cases n <;> rfl
  | cons a l ih =>
    obtain ⟨rfl, c, hc, hrest⟩ := h
    cases n with
    | zero => exact absurd hn (Nat.not_succ_le_zero _)
    | succ n =>
      rw [find, hc]
      by_cases hvisit : visit c
      · simp [hvisit, hc]
      · simp only [hvisit, Bool.false_eq_true, if_false]
        rw [ih hrest (Nat.le_of_succ_le_succ hn), find?_cons]
        simp [hc, hvisit]

theorem read_foldl_free (l : List ℕ) (s : Store C) (a : ℕ) :
    read (l.foldl free s) a = if a ∈ l then none else read s a := by
  induction l generalizing s with
  | nil => simp
  | cons b l ih =>
    rw [foldl_cons, ih]
    by_cases hmem : a ∈ l
    · simp [hmem]
    · by_cases hab : a = b
      · subst hab
        simp [hmem, read_free_self]
      · simp [hmem, hab, read_free_of_ne hab]

/-- **A chain is released**: every cell of it once, and in its order. -/
theorem Chain.release_eq {n : ℕ} (h : Chain nxt s l p) (hl : l.Nodup) (hn : l.length ≤ n) :
    release nxt n s p = some (l.foldl free s, l) := by
  induction l generalizing s p n with
  | nil =>
    obtain rfl : p = none := h
    cases n <;> rfl
  | cons a l ih =>
    obtain ⟨rfl, c, hc, hrest⟩ := h
    obtain ⟨ha, hl'⟩ := nodup_cons.mp hl
    cases n with
    | zero => exact absurd hn (Nat.not_succ_le_zero _)
    | succ n =>
      have hrest' : Chain nxt (free s a) l (nxt c) := by
        refine hrest.congr fun b hb d hd => ⟨d, ?_, rfl⟩
        have hne : b ≠ a := by
          rintro rfl
          exact ha hb
        rw [read_free_of_ne hne]
        exact hd
      rw [release, hc]
      simp only [ih hrest' hl' (Nat.le_of_succ_le_succ hn), Option.map_some]
      rfl

end ExynosVendor.Linked
