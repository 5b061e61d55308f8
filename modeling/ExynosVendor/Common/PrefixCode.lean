import Mathlib.Data.List.Basic

/-!
# Prefix codes

A code whose words can be told from what follows them: two strings that
start with a word each agree on the word and on the rest. Concatenated
words then decode in one way only, which is what a parser's completeness
is stated over: `Starts` is that a string begins with a word, and
`encodeAll_eq_cons` peels the first word off a concatenation.

A writer that looks before each word whether its position is still below
a limit writes `fitting`; `fitting_eq_iff` says which words those are.
-/

namespace ExynosVendor

open List

/-- **A prefix code** of the words `α` over the alphabet `β`. -/
structure PrefixCode (α β : Type*) where
  /-- The word's string. -/
  encode : α → List β
  /-- No word is the empty string. -/
  encode_ne_nil : ∀ a, encode a ≠ []
  /-- A word and what follows it are determined by the string. -/
  encode_append_inj : ∀ {a b : α} {r s : List β}, encode a ++ r = encode b ++ s → a = b ∧ r = s

namespace PrefixCode

variable {α β : Type*} (C : PrefixCode α β)

/-- The concatenation of a list of words. -/
def encodeAll (as : List α) : List β :=
  as.flatMap C.encode

@[simp] theorem encodeAll_nil : C.encodeAll [] = [] := rfl

@[simp] theorem encodeAll_cons (a : α) (as : List α) :
    C.encodeAll (a :: as) = C.encode a ++ C.encodeAll as := rfl

/-- The string begins with a word. -/
def Starts (bs : List β) : Prop :=
  ∃ a r, bs = C.encode a ++ r

variable {C}

variable {as : List α}

theorem eq_nil_of_not_starts {bs : List β} (rest : List β) (h : ¬ C.Starts bs)
    (heq : bs = C.encodeAll as ++ rest) : as = [] := by
  cases as with
  | nil => rfl
  | cons a as =>
      refine absurd ⟨a, C.encodeAll as ++ rest, ?_⟩ h
      rw [heq, encodeAll_cons, append_assoc]

/-- **The first word of a concatenation is the word the string begins
with**, and the rest goes on behind it. -/
theorem encodeAll_eq_cons {a b : α} {bs rest : List β}
    (heq : C.encode a ++ bs = C.encodeAll (b :: as) ++ rest) :
    b = a ∧ bs = C.encodeAll as ++ rest := by
  rw [encodeAll_cons, append_assoc] at heq
  obtain ⟨rfl, hrest⟩ := C.encode_append_inj heq
  exact ⟨rfl, hrest⟩

/-- So a concatenation has one list of words only. -/
theorem encodeAll_injective : Function.Injective C.encodeAll := by
  intro as
  induction as with
  | nil =>
      intro bs h
      cases bs with
      | nil => rfl
      | cons b bs => exact absurd (append_eq_nil_iff.mp h.symm).1 (C.encode_ne_nil b)
  | cons a as ih =>
      intro bs h
      cases bs with
      | nil => exact absurd (append_eq_nil_iff.mp h).1 (C.encode_ne_nil a)
      | cons b bs =>
          obtain ⟨rfl, hrest⟩ := C.encode_append_inj h
          rw [ih hrest]

variable (C)

/-- The words written from a position while it is below the limit. -/
def fitting (limit : ℕ) : ℕ → List α → List α
  | _, [] => []
  | pos, a :: as =>
      if limit ≤ pos then [] else a :: fitting limit (pos + (C.encode a).length) as

variable {C}

theorem fitting_of_le {limit pos : ℕ} (h : pos + (C.encodeAll as).length ≤ limit) :
    C.fitting limit pos as = as := by
  induction as generalizing pos with
  | nil => rfl
  | cons a as ih =>
      have hword := length_pos_iff.mpr (C.encode_ne_nil a)
      rw [encodeAll_cons, length_append] at h
      rw [fitting, if_neg (by omega), ih (by omega)]

/-- **What is written up to a limit** is a front of the words whose last
one begins below the limit, and all of them or as many as reach it. -/
theorem fitting_eq_iff {limit pos : ℕ} {bs : List α} :
    C.fitting limit pos as = bs ↔ bs <+: as ∧
      (bs ≠ [] → pos + (C.encodeAll bs.dropLast).length < limit) ∧
        (bs = as ∨ limit ≤ pos + (C.encodeAll bs).length) := by
  induction as generalizing pos bs with
  | nil =>
      rw [fitting]
      constructor
      · rintro rfl
        exact ⟨prefix_refl _, fun h => absurd rfl h, Or.inl rfl⟩
      · rintro ⟨hfront, -⟩
        exact (prefix_nil.mp hfront).symm
  | cons a as ih =>
      rw [fitting]
      by_cases hstop : limit ≤ pos
      · rw [if_pos hstop]
        constructor
        · rintro rfl
          exact ⟨List.nil_prefix, fun h => absurd rfl h, Or.inr hstop⟩
        · rintro ⟨-, hlast, -⟩
          by_contra hne
          have := hlast fun h => hne h.symm
          omega
      · rw [if_neg hstop]
        cases bs with
        | nil =>
            refine iff_of_false (cons_ne_nil _ _) ?_
            rintro ⟨-, -, hall | hreach⟩
            · exact absurd hall.symm (cons_ne_nil _ _)
            · exact hstop hreach
        | cons b bs =>
            rw [List.cons.injEq, ih, cons_prefix_cons, List.cons.injEq, encodeAll_cons,
              length_append]
            constructor
            · rintro ⟨rfl, hfront, hlast, hend⟩
              rw [Nat.add_assoc] at hend
              refine ⟨⟨rfl, hfront⟩, fun _ => ?_, ?_⟩
              · cases bs with
                | nil => exact Nat.lt_of_not_le hstop
                | cons c bs =>
                    rw [dropLast_cons_cons, encodeAll_cons, length_append, ← Nat.add_assoc]
                    exact hlast (cons_ne_nil _ _)
              · exact hend.imp_left fun h => ⟨rfl, h⟩
            · rintro ⟨⟨rfl, hfront⟩, hlast, hend⟩
              rw [← Nat.add_assoc] at hend
              refine ⟨rfl, hfront, fun hne => ?_, ?_⟩
              · obtain ⟨c, bs, rfl⟩ := exists_cons_of_ne_nil hne
                have := hlast (cons_ne_nil _ _)
                rw [dropLast_cons_cons, encodeAll_cons, length_append, ← Nat.add_assoc] at this
                exact this
              · exact hend.imp_left And.right

end PrefixCode

end ExynosVendor
