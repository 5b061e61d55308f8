import Mathlib.Data.List.Basic
import Mathlib.Order.Defs.LinearOrder

/-!
# A text split into lines

A line ends behind a character that stops it, or when it is as long as a
line may be. The characters come one at a time, so that it does not matter
where the text is cut.
-/

namespace ExynosVendor.Splitter

open List

variable {α : Type*} (stop : α → Bool) (limit : ℕ)

/-- The line with a character more, and whether it ends there. -/
def ends (line : List α) (c : α) : Bool := stop c || line.length + 1 = limit

/-- The lines that end in a text, and the line that is left. -/
def feed : List α → List α → List (List α) × List α
  | line, [] => ([], line)
  | line, c :: text =>
      if ends stop limit line c then
        let r := feed [] text
        ((line ++ [c]) :: r.1, r.2)
      else feed (line ++ [c]) text

variable {stop limit} {line text : List α} {c : α}

theorem feed_cons_of_ends (h : ends stop limit line c = true) :
    feed stop limit line (c :: text) =
      ((line ++ [c]) :: (feed stop limit [] text).1, (feed stop limit [] text).2) := by
  rw [feed, if_pos h]

theorem feed_cons_of_not_ends (h : ¬ ends stop limit line c = true) :
    feed stop limit line (c :: text) = feed stop limit (line ++ [c]) text := by
  rw [feed, if_neg h]

theorem ends_of_stop (line : List α) (h : stop c = true) : ends stop limit line c = true := by
  unfold ends
  rw [h, Bool.true_or]

/-- **It does not matter where the text is cut.** -/
theorem feed_append (text' : List α) :
    feed stop limit line (text ++ text') =
      ((feed stop limit line text).1 ++ (feed stop limit (feed stop limit line text).2 text').1,
        (feed stop limit (feed stop limit line text).2 text').2) := by
  induction text generalizing line with
  | nil => rfl
  | cons c text ih =>
    rw [cons_append]
    by_cases h : ends stop limit line c = true
    · rw [feed_cons_of_ends h, feed_cons_of_ends h, ih]
      rfl
    · rw [feed_cons_of_not_ends h, feed_cons_of_not_ends h, ih]

/-- **No character is lost.** -/
theorem flatten_feed :
    (feed stop limit line text).1.flatten ++ (feed stop limit line text).2 = line ++ text := by
  induction text generalizing line with
  | nil => rw [feed, append_nil]; rfl
  | cons c text ih =>
    by_cases h : ends stop limit line c = true
    · rw [feed_cons_of_ends h, flatten_cons, append_assoc, ih]
      simp
    · rw [feed_cons_of_not_ends h, ih]
      simp

/-- An open line: it is not too long, and no character stops it. -/
structure Open (stop : α → Bool) (limit : ℕ) (line : List α) : Prop where
  short : line.length < limit
  free : ∀ c ∈ line, ¬ stop c = true

theorem Open.push (h : Open stop limit line) (hc : ¬ ends stop limit line c = true) :
    Open stop limit (line ++ [c]) := by
  have hboth : ¬ (stop c = true ∨ line.length + 1 = limit) := by simpa [ends] using hc
  obtain ⟨hstop, hlen⟩ := not_or.mp hboth
  have hshort := h.short
  refine ⟨?_, fun c' hc' => ?_⟩
  · rw [length_append, length_singleton]
    omega
  · rcases mem_append.mp hc' with hold | hnew
    · exact h.free c' hold
    · rw [mem_singleton.mp hnew]
      exact hstop

/-- **A line** is an open one with a character more; and what is left is
open. -/
theorem feed_lines (hpos : 0 < limit) (h : Open stop limit line) :
    (∀ l ∈ (feed stop limit line text).1, ∃ front c, l = front ++ [c] ∧ Open stop limit front) ∧
      Open stop limit (feed stop limit line text).2 := by
  induction text generalizing line with
  | nil => exact ⟨nofun, h⟩
  | cons c text ih =>
    by_cases hc : ends stop limit line c = true
    · rw [feed_cons_of_ends hc]
      have hempty : Open stop limit ([] : List α) := ⟨hpos, nofun⟩
      obtain ⟨hlines, hrest⟩ := ih hempty
      refine ⟨fun l hl => ?_, hrest⟩
      rcases mem_cons.mp hl with rfl | hl
      · exact ⟨line, c, rfl, h⟩
      · exact hlines l hl
    · rw [feed_cons_of_not_ends hc]
      exact ih (h.push hc)

/-! ## With the last line -/

/-- The lines, with what is left as the last one. -/
def linesFrom (stop : α → Bool) (limit : ℕ) (line text : List α) : List (List α) :=
  (feed stop limit line text).1 ++
    if (feed stop limit line text).2 = [] then [] else [(feed stop limit line text).2]

/-- The lines of a text. A limit of zero is none. -/
def lines (stop : α → Bool) (limit : ℕ) (text : List α) : List (List α) :=
  linesFrom stop limit [] text

theorem linesFrom_nil (line : List α) :
    linesFrom stop limit line [] = if line = [] then [] else [line] := rfl

theorem linesFrom_cons_of_ends (h : ends stop limit line c = true) :
    linesFrom stop limit line (c :: text) = (line ++ [c]) :: lines stop limit text := by
  rw [linesFrom, feed_cons_of_ends h]
  rfl

theorem linesFrom_cons_of_not_ends (h : ¬ ends stop limit line c = true) :
    linesFrom stop limit line (c :: text) = linesFrom stop limit (line ++ [c]) text := by
  rw [linesFrom, feed_cons_of_not_ends h]
  rfl

/-- **The lines make up the text.** -/
theorem flatten_linesFrom : (linesFrom stop limit line text).flatten = line ++ text := by
  rw [← (flatten_feed : (feed stop limit line text).1.flatten ++ _ = _), linesFrom, flatten_append]
  split
  · rename_i hnil
    rw [hnil, flatten_nil]
  · rw [flatten_singleton]

variable (stop limit text) in
theorem flatten_lines : (lines stop limit text).flatten = text := flatten_linesFrom

/-- No line is empty. -/
theorem ne_nil_of_mem_linesFrom {l : List α} (h : l ∈ linesFrom stop limit line text) : l ≠ [] := by
  induction text generalizing line with
  | nil =>
    rw [linesFrom_nil] at h
    split at h
    · exact absurd h not_mem_nil
    · rwa [mem_singleton.mp h]
  | cons c text ih =>
    by_cases hc : ends stop limit line c = true
    · rw [linesFrom_cons_of_ends hc] at h
      rcases mem_cons.mp h with rfl | h
      · exact append_ne_nil_of_right_ne_nil _ (cons_ne_nil _ _)
      · exact ih h
    · rw [linesFrom_cons_of_not_ends hc] at h
      exact ih h

/-- A line is not longer than the limit. -/
theorem length_le_of_mem_lines (hpos : 0 < limit) {l : List α} (h : l ∈ lines stop limit text) :
    l.length ≤ limit := by
  have hempty : Open stop limit ([] : List α) := ⟨hpos, nofun⟩
  obtain ⟨hlines, hrest⟩ : (∀ l ∈ (feed stop limit [] text).1, _) ∧ _ := feed_lines hpos hempty
  rcases mem_append.mp h with hin | hlast
  · obtain ⟨front, c, rfl, hopen⟩ := hlines l hin
    rw [length_append, length_singleton]
    exact hopen.short
  · split at hlast
    · exact absurd hlast not_mem_nil
    · rw [mem_singleton.mp hlast]
      exact Nat.le_of_lt hrest.short

variable (stop limit) in
/-- An open line grows. -/
theorem exists_long_linesFrom (line text : List α) (c : α) :
    ∃ l ∈ linesFrom stop limit line (c :: text), line.length + 1 ≤ l.length := by
  induction text generalizing line c with
  | nil =>
    by_cases hc : ends stop limit line c = true
    · exact ⟨line ++ [c], linesFrom_cons_of_ends hc ▸ mem_cons_self, by simp⟩
    · refine ⟨line ++ [c], ?_, by simp⟩
      rw [linesFrom_cons_of_not_ends hc, linesFrom_nil, if_neg (by simp)]
      exact mem_singleton_self _
  | cons c' text ih =>
    by_cases hc : ends stop limit line c = true
    · exact ⟨line ++ [c], linesFrom_cons_of_ends hc ▸ mem_cons_self, by simp⟩
    · obtain ⟨l, hl, hlen⟩ := ih (line ++ [c]) c'
      rw [length_append, length_singleton] at hlen
      exact ⟨l, linesFrom_cons_of_not_ends hc ▸ hl, by omega⟩

/-- **A limit that no line passes** does not matter. -/
theorem linesFrom_eq_of_short (hline : line.length < limit)
    (h : ∀ l ∈ linesFrom stop 0 line text, l.length ≤ limit) :
    linesFrom stop limit line text = linesFrom stop 0 line text := by
  have hfree : ∀ (line : List α) c, ends stop 0 line c = stop c := fun line c => by
    rw [ends, decide_eq_false (Nat.succ_ne_zero _), Bool.or_false]
  induction text generalizing line with
  | nil => rfl
  | cons c text ih =>
    by_cases hstop : stop c = true
    · have hopen : linesFrom stop 0 line (c :: text) = (line ++ [c]) :: lines stop 0 text :=
        linesFrom_cons_of_ends (ends_of_stop line hstop)
      rw [hopen] at h ⊢
      rw [linesFrom_cons_of_ends (ends_of_stop line hstop)]
      exact congrArg _ (ih (Nat.lt_of_le_of_lt (Nat.zero_le _) hline) fun l hl =>
        h l (mem_cons_of_mem _ hl))
    · have hopen : linesFrom stop 0 line (c :: text) = linesFrom stop 0 (line ++ [c]) text :=
        linesFrom_cons_of_not_ends (by rw [hfree]; exact hstop)
      rw [hopen] at h ⊢
      have hlen : (line ++ [c]).length = line.length + 1 := by
        rw [length_append, length_singleton]
      by_cases hfull : line.length + 1 = limit
      · -- The line is as long as it may be, so that the text ends here.
        rcases text with _ | ⟨c', text⟩
        · rw [linesFrom_cons_of_ends (by simp [ends, hfull]), linesFrom_nil, if_neg (by simp)]
          rfl
        · obtain ⟨l, hl, hlong⟩ := exists_long_linesFrom stop 0 (line ++ [c]) text c'
          have := h l hl
          omega
      · rw [linesFrom_cons_of_not_ends (by simp [ends, hstop, hfull])]
        exact ih (by omega) h

/-- **Without a limit, all lines but the last have been stopped.** -/
theorem pairwise_linesFrom_stopped (line text : List α) :
    (linesFrom stop 0 line text).Pairwise fun l _ => ∃ body c, l = body ++ [c] ∧ stop c = true := by
  induction text generalizing line with
  | nil =>
    rw [linesFrom_nil]
    split
    · exact List.Pairwise.nil
    · exact pairwise_singleton _ _
  | cons c text ih =>
    by_cases hstop : stop c = true
    · rw [linesFrom_cons_of_ends (ends_of_stop line hstop)]
      exact pairwise_cons.mpr ⟨fun _ _ => ⟨line, c, rfl, hstop⟩, ih []⟩
    · rw [linesFrom_cons_of_not_ends (by simp [ends, hstop])]
      exact ih (line ++ [c])

end ExynosVendor.Splitter
