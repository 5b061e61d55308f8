import ExynosVendor.Common.Block
import Mathlib.Data.List.GetD

/-!
# Programs that may fault

A program that reads a block gives a value, or faults where a read leaves
the block. `Yields` says under which condition it gives a value, and which:
a rule for each way to put programs together, so that the condition of a
whole program is read off its text.
-/

namespace ExynosVendor.Guarded

open List

universe u v

variable {α β : Type u} {φ : Type v}

/-- **The program gives the value exactly where the condition holds.** -/
structure Yields (x : Except φ α) (c : Prop) (a : α) : Prop where
  ok : c → x = .ok a
  fault : ¬ c → ∃ e, x = .error e

section Rules

variable {x y : Except φ α} {f : α → Except φ β} {c d p : Prop} {a : α} {b : β}

theorem Yields.of_eq (h : x = .ok a) (hc : c) : Yields x c a :=
  ⟨fun _ => h, fun hnot => absurd hc hnot⟩

theorem Yields.congr (h : Yields x c a) (hcd : c ↔ d) : Yields x d a :=
  ⟨fun hd => h.ok (hcd.mpr hd), fun hd => h.fault fun hc => hd (hcd.mp hc)⟩

theorem Yields.value (h : Yields x c a) {a' : α} (heq : c → a = a') : Yields x c a' :=
  ⟨fun hc => heq hc ▸ h.ok hc, h.fault⟩

/-- **The rule of composition.** -/
theorem Yields.bind (h : Yields x c a) (hf : c → Yields (f a) d b) :
    Yields (x >>= f) (c ∧ d) b := by
  by_cases hc : c
  · have hx : (x >>= f) = f a := by rw [h.ok hc]; rfl
    rw [hx]
    exact (hf hc).congr (and_iff_right hc).symm
  · obtain ⟨e, he⟩ := h.fault hc
    refine ⟨fun hboth => absurd hboth.1 hc, fun _ => ⟨e, ?_⟩⟩
    rw [he]
    rfl

theorem Yields.map (h : Yields x c a) (g : α → β) : Yields (g <$> x) c (g a) :=
  ⟨fun hc => by rw [h.ok hc]; rfl, fun hc => by
    obtain ⟨e, he⟩ := h.fault hc
    exact ⟨e, by rw [he]; rfl⟩⟩

/-- A program gives a value where the condition holds, and only there. -/
theorem Yields.exists_iff (h : Yields x c a) : (∃ r, x = .ok r) ↔ c := by
  constructor
  · rintro ⟨r, hr⟩
    by_contra hc
    obtain ⟨e, he⟩ := h.fault hc
    rw [hr] at he
    cases he
  · exact fun hc => ⟨a, h.ok hc⟩

end Rules

/-! ## Reads -/

/-- So many cells of a block, or the fault. -/
def read (e : φ) (b : List α) (i n : ℕ) : Except φ (List α) :=
  match Block.load b i n with
  | some xs => .ok xs
  | none => .error e

/-- The cells of a range, with a filling behind the block. -/
def slice (fill : α) (b : List α) (i n : ℕ) : List α :=
  (List.range n).map fun k => b.getD (i + k) fill

@[simp] theorem length_slice (fill : α) (b : List α) (i n : ℕ) : (slice fill b i n).length = n := by
  simp [slice]

theorem slice_of_le (fill : α) {b : List α} {i n : ℕ} (h : i + n ≤ b.length) :
    slice fill b i n = (b.drop i).take n := by
  refine ext_getElem ?_ fun k hk _ => ?_
  · rw [length_slice, length_take, length_drop]
    omega
  · rw [length_slice] at hk
    simp only [slice, getElem_map, getElem_range, getElem_take, getElem_drop]
    exact getD_eq_getElem _ _ (by omega)

/-- **A read is in bounds where its range is.** -/
theorem yields_read (e : φ) (fill : α) (b : List α) (i n : ℕ) :
    Yields (read e b i n) (i + n ≤ b.length) (slice fill b i n) := by
  unfold read
  constructor
  · intro h
    rw [Block.load_of_le h, slice_of_le fill h]
  · intro h
    rw [Block.load_eq_none (Nat.not_le.mp h)]
    exact ⟨e, rfl⟩

section Search

variable [DecidableEq α]

/-- The cells before the first that holds the stop, which is looked for as
far as the block goes. -/
def readUntil (e : φ) (stop : α) : List α → Except φ (List α)
  | [] => .error e
  | x :: xs => if x = stop then .ok [] else (x :: ·) <$> readUntil e stop xs

/-- **A search is in bounds where there is something to find.** -/
theorem yields_readUntil (e : φ) (stop : α) (b : List α) :
    Yields (readUntil e stop b) (stop ∈ b) (b.takeWhile (· ≠ stop)) := by
  induction b with
  | nil => exact ⟨fun h => absurd h not_mem_nil, fun _ => ⟨e, rfl⟩⟩
  | cons x xs ih =>
    rw [readUntil]
    by_cases hx : x = stop
    · subst hx
      rw [if_pos rfl]
      exact .of_eq (by simp) mem_cons_self
    · rw [if_neg hx]
      have htake : (x :: xs).takeWhile (· ≠ stop) = x :: xs.takeWhile (· ≠ stop) := by
        simp [hx]
      rw [htake]
      refine (ih.map (x :: ·)).congr ?_
      rw [mem_cons, or_iff_right (Ne.symm hx)]

/-- Whether a block begins with a pattern, compared up to the first cell
that differs. -/
def matchFront (e : φ) : List α → List α → Except φ Bool
  | [], _ => .ok true
  | _ :: _, [] => .error e
  | x :: xs, y :: ys => if x = y then matchFront e xs ys else .ok false

/-- **A comparison is in bounds** unless the block is a part of the pattern
only. -/
theorem yields_matchFront (e : φ) (xs ys : List α) :
    Yields (matchFront e xs ys) (¬ (ys <+: xs ∧ ys.length < xs.length)) (decide (xs <+: ys)) := by
  induction xs generalizing ys with
  | nil => exact .of_eq (by simp [matchFront]) (by simp)
  | cons x xs ih =>
    cases ys with
    | nil => exact ⟨fun h => absurd ⟨List.nil_prefix, by simp⟩ h, fun _ => ⟨e, rfl⟩⟩
    | cons y ys =>
      rw [matchFront]
      by_cases hxy : x = y
      · subst hxy
        rw [if_pos rfl]
        refine ((ih ys).congr ?_).value fun _ => ?_
        · rw [cons_prefix_cons, length_cons, length_cons, Nat.succ_lt_succ_iff, and_iff_right rfl]
        · exact decide_eq_decide.mpr (by rw [cons_prefix_cons, and_iff_right rfl])
      · rw [if_neg hxy]
        refine .of_eq ?_ fun h => hxy (cons_prefix_cons.mp h.1).1.symm
        have hnot : ¬ x :: xs <+: y :: ys := fun h => hxy (cons_prefix_cons.mp h).1
        rw [decide_eq_false hnot]

/-- What the pattern with its stop is found at the front of, is what the
search gives. -/
theorem prefix_iff_takeWhile {stop : α} {xs b : List α} (hxs : stop ∉ xs)
    (h : ¬ (b <+: xs ++ [stop] ∧ b.length < (xs ++ [stop]).length)) :
    xs ++ [stop] <+: b ↔ b.takeWhile (· ≠ stop) = xs := by
  constructor
  · rintro ⟨rest, rfl⟩
    have hne : ∀ x ∈ xs, decide (x ≠ stop) = true := fun x hx =>
      decide_eq_true (ne_of_mem_of_not_mem hx hxs)
    rw [append_assoc, takeWhile_append_of_pos hne]
    simp
  · intro htake
    have hsplit : b.takeWhile (· ≠ stop) ++ b.dropWhile (· ≠ stop) = b :=
      takeWhile_append_dropWhile
    rw [htake] at hsplit
    cases hdrop : b.dropWhile (· ≠ stop) with
    | nil =>
      rw [hdrop, append_nil] at hsplit
      subst hsplit
      exact absurd ⟨prefix_append _ _, by simp⟩ h
    | cons y ys =>
      have hstop : y = stop := by
        have hhead := head?_dropWhile_not (fun x => decide (x ≠ stop)) b
        rw [hdrop] at hhead
        simpa using hhead
      rw [hdrop, hstop] at hsplit
      exact ⟨ys, by rw [← hsplit]; simp⟩

end Search

end ExynosVendor.Guarded
