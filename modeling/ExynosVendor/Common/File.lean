import Mathlib.Data.List.GetD
import Mathlib.Tactic.Common

/-!
# Files

A file is the list of its bytes. A write replaces bytes or goes beyond
the end, where the gap is filled; a read ends where the file ends, and a
buffer that was filled before keeps what the read does not reach.
-/

namespace ExynosVendor.File

open List

variable {α : Type*} (fill : α)

/-- The byte at an offset. -/
def at' (f : List α) (k : ℕ) : α := f.getD k fill

/-- Read `n` bytes at an offset into a buffer that was filled before. -/
def load (f : List α) (offset n : ℕ) : List α :=
  (List.range n).map fun k => at' fill f (offset + k)

/-- Write bytes at an offset. Without bytes, nothing happens. -/
def write (f : List α) (offset : ℕ) (bytes : List α) : List α :=
  if bytes = [] then f
  else (f ++ List.replicate (offset - f.length) fill).take offset ++ bytes ++
    f.drop (offset + bytes.length)

/-- Two areas share no byte. -/
def Apart (a m b n : ℕ) : Prop :=
  m = 0 ∨ n = 0 ∨ a + m ≤ b ∨ b + n ≤ a

instance (a m b n : ℕ) : Decidable (Apart a m b n) :=
  inferInstanceAs (Decidable (_ ∨ _))

theorem Apart.mono {a m b n a' m' b' n' : ℕ} (h : Apart a m b n) (ha : a ≤ a')
    (ham : a' + m' ≤ a + m) (hb : b ≤ b') (hbn : b' + n' ≤ b + n) : Apart a' m' b' n' := by
  unfold Apart at h ⊢
  omega

@[simp] theorem length_load (f : List α) (offset n : ℕ) : (load fill f offset n).length = n := by
  simp [load]

theorem getElem?_load (f : List α) (offset : ℕ) {n k : ℕ} (hk : k < n) :
    (load fill f offset n)[k]? = some (at' fill f (offset + k)) := by
  simp [load, hk]

/-- A read that stays in the file. -/
theorem load_eq_take_drop {f : List α} {offset n : ℕ} (h : offset + n ≤ f.length) :
    load fill f offset n = (f.drop offset).take n := by
  have hlen : ((f.drop offset).take n).length = n := by
    rw [length_take, length_drop]
    omega
  refine ext_getElem (by rw [length_load, hlen]) fun k hk hk' => ?_
  rw [length_load] at hk
  have hat : (load fill f offset n)[k]? = some (at' fill f (offset + k)) := getElem?_load fill f _ hk
  rw [getElem?_eq_getElem (by rw [length_load]; exact hk)] at hat
  rw [Option.some.inj hat, getElem_take, getElem_drop, at', getD_eq_getElem _ _ (by omega)]

theorem load_congr {f f' : List α} {offset n : ℕ}
    (h : ∀ k, offset ≤ k → k < offset + n → at' fill f k = at' fill f' k) :
    load fill f offset n = load fill f' offset n := by
  refine map_congr_left fun k hk => ?_
  have hk' := mem_range.mp hk
  exact h (offset + k) (by omega) (by omega)

theorem load_add (f : List α) (offset m n : ℕ) :
    load fill f offset (m + n) = load fill f offset m ++ load fill f (offset + m) n := by
  unfold load
  rw [range_add, map_append, map_map]
  refine congrArg (_ ++ ·) (map_congr_left fun k _ => ?_)
  show at' fill f (offset + (m + k)) = _
  rw [Nat.add_assoc]

theorem load_part (f : List α) (offset : ℕ) {n i m : ℕ} (h : i + m ≤ n) :
    ((load fill f offset n).drop i).take m = load fill f (offset + i) m := by
  obtain ⟨k, rfl⟩ : ∃ k, n = i + m + k := ⟨n - (i + m), by omega⟩
  rw [load_add, load_add, append_assoc, drop_left' (length_load fill f offset i),
    take_left' (length_load fill f (offset + i) m)]

/-- **What a file holds after a write.** -/
theorem at_write (f : List α) (offset : ℕ) (bytes : List α) (k : ℕ) :
    at' fill (write fill f offset bytes) k =
      if offset ≤ k ∧ k < offset + bytes.length then bytes.getD (k - offset) fill
      else at' fill f k := by
  unfold write at'
  by_cases hb : bytes = []
  · subst hb
    rw [if_pos rfl, if_neg (by simp only [length_nil]; omega)]
  rw [if_neg hb]
  have hfront : ((f ++ List.replicate (offset - f.length) fill).take offset).length = offset := by
    rw [length_take, length_append, length_replicate]
    omega
  rcases Nat.lt_or_ge k offset with hk | hk
  · -- before the bytes written
    rw [if_neg (by omega), append_assoc, getD_append _ _ _ _ (by rw [hfront]; exact hk),
      getD_eq_getElem?_getD, getElem?_take_of_lt hk, ← getD_eq_getElem?_getD]
    rcases Nat.lt_or_ge k f.length with hf | hf
    · rw [getD_append _ _ _ _ hf]
    · rw [getD_append_right _ _ _ _ hf, getD_eq_default f _ hf, getD_replicate _ (by omega)]
  · rcases Nat.lt_or_ge k (offset + bytes.length) with hk' | hk'
    · -- among them
      rw [if_pos ⟨hk, hk'⟩, append_assoc, getD_append_right _ _ _ _ (by rw [hfront]; exact hk),
        hfront, getD_append _ _ _ _ (by omega)]
    · -- behind them
      rw [if_neg (by omega), getD_append_right _ _ _ _ (by
        rw [length_append, hfront]; exact hk'), length_append, hfront,
        getD_eq_getElem?_getD, getElem?_drop, ← getD_eq_getElem?_getD,
        Nat.add_sub_cancel' hk']

theorem length_write {f : List α} (offset : ℕ) {bytes : List α} (hb : bytes ≠ []) :
    (write fill f offset bytes).length = max f.length (offset + bytes.length) := by
  unfold write
  rw [if_neg hb, length_append, length_append, length_take, length_append,
    length_replicate, length_drop]
  omega

theorem ext_at {f g : List α} (hlen : f.length = g.length)
    (h : ∀ k, at' fill f k = at' fill g k) : f = g := by
  refine ext_getElem hlen fun k hk hk' => ?_
  have hat := h k
  unfold at' at hat
  rwa [getD_eq_getElem _ _ hk, getD_eq_getElem _ _ hk'] at hat

/-- **A write in two parts**, the second where the first has ended. -/
theorem write_append (f : List α) (offset : ℕ) (a b : List α) :
    write fill (write fill f offset a) (offset + a.length) b = write fill f offset (a ++ b) := by
  by_cases ha : a = []
  · subst ha
    rfl
  by_cases hb : b = []
  · subst hb
    rw [append_nil]
    exact if_pos rfl
  refine ext_at fill ?_ fun k => ?_
  · rw [length_write fill _ hb, length_write fill _ ha, length_write fill _ (by simp [ha]),
      length_append]
    omega
  · rw [at_write, at_write, at_write, length_append]
    rcases Nat.lt_or_ge k (offset + a.length) with hk | hk
    · rw [if_neg (by omega)]
      rcases Nat.lt_or_ge k offset with hk' | hk'
      · rw [if_neg (by omega), if_neg (by omega)]
      · rw [if_pos ⟨hk', hk⟩, if_pos ⟨hk', by omega⟩, getD_append _ _ _ _ (by omega)]
    · rcases Nat.lt_or_ge k (offset + a.length + b.length) with hk' | hk'
      · rw [if_pos ⟨hk, hk'⟩, if_pos ⟨by omega, by omega⟩,
          getD_append_right _ _ _ _ (by omega), Nat.sub_sub]
      · rw [if_neg (by omega), if_neg (by omega), if_neg (by omega)]

/-- A write at the end of a file. -/
theorem write_end (f bytes : List α) : write fill f f.length bytes = f ++ bytes := by
  by_cases hb : bytes = []
  · subst hb
    rw [append_nil]
    exact if_pos rfl
  · unfold write
    rw [if_neg hb, Nat.sub_self, replicate_zero, append_nil, take_length,
      drop_eq_nil_of_le (Nat.le_add_right _ _), append_nil]

/-- And only there, unless nothing is written, does a write append. -/
theorem append_eq_write_iff (f : List α) (offset : ℕ) (bytes : List α) :
    f ++ bytes = write fill f offset bytes ↔ bytes = [] ∨ offset = f.length := by
  constructor
  · intro h
    refine Classical.or_iff_not_imp_left.mpr fun hb => ?_
    have hlen := congrArg List.length h
    have hpos := length_pos_iff.mpr hb
    rw [length_write fill _ hb, length_append] at hlen
    omega
  · rintro (rfl | rfl)
    · rw [append_nil]
      exact (if_pos rfl).symm
    · exact (write_end fill f bytes).symm

theorem length_le_write (f : List α) (offset : ℕ) (bytes : List α) :
    f.length ≤ (write fill f offset bytes).length := by
  unfold write
  split_ifs
  · exact Nat.le_refl _
  · rw [length_append, length_append, length_take, length_append, length_replicate, length_drop]
    omega

theorem load_write_self (f : List α) (offset : ℕ) (bytes : List α) :
    load fill (write fill f offset bytes) offset bytes.length = bytes := by
  refine ext_getElem (by rw [length_load]) fun k hk hk' => ?_
  have h := getElem?_load fill (write fill f offset bytes) offset hk'
  rw [at_write, if_pos ⟨by omega, by omega⟩, Nat.add_sub_cancel_left,
    getD_eq_getElem _ _ hk', getElem?_eq_getElem hk] at h
  exact Option.some.inj h

/-- **A write elsewhere is not seen.** -/
theorem load_write_apart (f : List α) {offset offset' n : ℕ} {bytes : List α}
    (h : Apart offset bytes.length offset' n) :
    load fill (write fill f offset bytes) offset' n = load fill f offset' n := by
  refine load_congr fill fun k hk hk' => ?_
  rw [at_write, if_neg]
  unfold Apart at h
  omega

end ExynosVendor.File
