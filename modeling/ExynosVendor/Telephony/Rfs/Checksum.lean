import ExynosVendor.Telephony.Rfs.Nv
import Mathlib.Algebra.BigOperators.Group.List.Basic
import Mathlib.Tactic.IntervalCases

/-!
# What the checksum in the data tells apart

`PalRegistryDataCheckCalc` adds up the words of the data. The sum is another one as soon as one
word is, so `CsumCheckForData` refuses data of which one word was damaged, in a byte or in both;
and it is the same for the same words in any order.
-/

namespace ExynosVendor.Rfs

open Ril (BYTE)
open List

/-! ## Sums -/

/-- A sum in which one term is another is another sum. -/
theorem sum_range_ne {M : Type*} [AddGroup M] {f g : ℕ → M} {n k : ℕ} (hk : k < n)
    (hother : ∀ i < n, i ≠ k → g i = f i) (hne : g k ≠ f k) :
    ((List.range n).map g).sum ≠ ((List.range n).map f).sum := by
  induction n with
  | zero => exact absurd hk (Nat.not_lt_zero k)
  | succ n ih =>
    simp only [range_succ, map_append, sum_append, map_cons, map_nil, sum_singleton]
    rcases Nat.lt_succ_iff_lt_or_eq.mp hk with hlt | rfl
    · rw [hother n (Nat.lt_succ_self n) (Nat.ne_of_gt hlt)]
      intro heq
      exact ih hlt (fun i hi => hother i (Nat.lt_succ_of_lt hi)) (add_right_cancel heq)
    · have hfront : (List.range k).map g = (List.range k).map f :=
        map_congr_left fun i hi =>
          hother i (Nat.lt_succ_of_lt (mem_range.mp hi)) (Nat.ne_of_lt (mem_range.mp hi))
      rw [hfront]
      exact fun heq => hne (add_left_cancel heq)

/-! ## Words -/

theorem append_inj {high low high' low' : BYTE} :
    high' ++ low' = high ++ low ↔ low' = low ∧ high' = high := by
  refine ⟨fun heq => ⟨?_, ?_⟩, fun ⟨hlow, hhigh⟩ => by rw [hlow, hhigh]⟩
  · apply BitVec.eq_of_getLsbD_eq
    intro i hi
    have hbit := congrArg (fun w => w.getLsbD i) heq
    simpa only [BitVec.getLsbD_append, hi, if_true] using hbit
  · apply BitVec.eq_of_getLsbD_eq
    intro i hi
    have hbit := congrArg (fun w => w.getLsbD (i + 8)) heq
    simpa only [BitVec.getLsbD_append, Nat.not_lt.mpr (Nat.le_add_left 8 i), if_false,
      Nat.add_sub_cancel] using hbit

variable {mem mem' : ℕ → BYTE}

/-- Of an odd last byte the word counts with ones above it. -/
theorem lastWord_eq (a : ℕ) : word mem a ||| 0xff00 = 0xff#8 ++ mem a := by
  have hones : (0xff00 : BitVec 16) = 0xff#8 ++ 0#8 := rfl
  rw [word, hones, BitVec.or_append, BitVec.or_zero]
  congr 1
  exact BitVec.or_allOnes

/-! ## The checksum -/

/-- **One word damaged** is another checksum. -/
theorem palRegistryDataCheckCalc_ne {len k : ℕ} (hother : ∀ i < len, i / 2 ≠ k → mem' i = mem i)
    (hne : ∃ i < len, mem' i ≠ mem i) :
    palRegistryDataCheckCalc mem' len ≠ palRegistryDataCheckCalc mem len := by
  obtain ⟨d, hd, hdiff⟩ := hne
  have hdk : d / 2 = k := by_contra fun h => hdiff (hother d hd h)
  -- the words of other places
  have hword : ∀ i < len / 2, i ≠ k → word mem' (2 * i) = word mem (2 * i) := fun i hi hik =>
    append_inj.mpr ⟨hother _ (by omega) (by omega), hother _ (by omega) (by omega)⟩
  unfold palRegistryDataCheckCalc
  by_cases hwhole : k < len / 2
  · have hpair : word mem' (2 * k) ≠ word mem (2 * k) := by
      intro heq
      obtain ⟨hlow, hhigh⟩ := append_inj.mp heq
      rcases (by omega : d = 2 * k ∨ d = 2 * k + 1) with rfl | rfl
      · exact hdiff hlow
      · exact hdiff hhigh
    have hsum := sum_range_ne hwhole hword hpair
    dsimp only
    split_ifs with hodd
    · rw [lastWord_eq, lastWord_eq, hother (len - 1) (by omega) (by omega)]
      exact fun heq => hsum (add_right_cancel heq)
    · exact hsum
  · -- it is the last byte of an odd number
    obtain rfl : d = len - 1 := by omega
    have hsum : ((List.range (len / 2)).map fun i => word mem' (2 * i)) =
        (List.range (len / 2)).map fun i => word mem (2 * i) :=
      map_congr_left fun i hi =>
        hword i (mem_range.mp hi) fun hik => hwhole (hik ▸ mem_range.mp hi)
    dsimp only
    rw [hsum, if_pos (by omega), if_pos (by omega), lastWord_eq, lastWord_eq]
    intro heq
    exact hdiff (append_inj.mp (add_left_cancel heq)).1

/-- **Words in another order** have the checksum of the words. -/
theorem palRegistryDataCheckCalc_perm {len : ℕ} (heven : len % 2 = 0)
    (hperm : List.Perm ((List.range (len / 2)).map fun i => word mem' (2 * i))
      ((List.range (len / 2)).map fun i => word mem (2 * i))) :
    palRegistryDataCheckCalc mem' len = palRegistryDataCheckCalc mem len := by
  have hnot : ¬ len % 2 = 1 := by omega
  unfold palRegistryDataCheckCalc
  dsimp only
  rw [if_neg hnot, if_neg hnot]
  exact hperm.sum_eq

/-! ## Its check -/

/-- A byte of the data, of which the header says how many there are. -/
def InData (mem : ℕ → BYTE) (i : ℕ) : Prop :=
  nvHeaderSize ≤ i ∧ i < nvHeaderSize + totalSize mem

/-- The header and the checksum are outside the data. -/
theorem header_kept (hother : ∀ i, ¬ InData mem i → mem' i = mem i) :
    totalSize mem' = totalSize mem ∧
      word mem' (nvHeaderSize + totalSize mem + totalSize mem % 2) =
        word mem (nvHeaderSize + totalSize mem + totalSize mem % 2) := by
  refine ⟨?_, append_inj.mpr ⟨hother _ fun h => ?_, hother _ fun h => ?_⟩⟩
  · refine congrArg LittleEndian.decode (map_congr_left fun i hi => hother _ fun h => ?_)
    have hlt := mem_range.mp hi
    have hge := h.1
    rw [nvHeaderSize] at hge
    omega
  · have hlt := h.2
    omega
  · have hlt := h.2
    omega

/-- **What `CsumCheckForData` tells apart.** Of data that it accepts by their checksum it
refuses every damage to one word, whichever it is, and it accepts the words in every other
order, where they are whole. -/
theorem csumCheckForData_tells {nvSize : ℕ} (hchecked : totalSize mem ≠ 2 ^ 32 - 1)
    (hok : csumCheckForData mem nvSize = true) (hother : ∀ i, ¬ InData mem i → mem' i = mem i) :
    ((∃ i, mem' i ≠ mem i) →
        (∃ k, ∀ i, InData mem i → (i - nvHeaderSize) / 2 ≠ k → mem' i = mem i) →
        csumCheckForData mem' nvSize = false) ∧
      (totalSize mem % 2 = 0 →
        List.Perm
          ((List.range (totalSize mem / 2)).map fun i => word mem' (nvHeaderSize + 2 * i))
          ((List.range (totalSize mem / 2)).map fun i => word mem (nvHeaderSize + 2 * i)) →
        csumCheckForData mem' nvSize = true) := by
  obtain ⟨htotal, hstored⟩ := header_kept hother
  unfold csumCheckForData at hok ⊢
  dsimp only at hok ⊢
  rw [if_neg hchecked] at hok
  rw [htotal, if_neg hchecked, hstored]
  split_ifs at hok ⊢ with hsize
  have hsum := beq_iff_eq.mp hok
  refine ⟨fun ⟨d, hd⟩ ⟨k, hk⟩ => ?_, fun heven hperm => ?_⟩
  · have hin : InData mem d := by_contra fun h => hd (hother d h)
    have hdamage := @palRegistryDataCheckCalc_ne (fun i => mem (nvHeaderSize + i))
      (fun i => mem' (nvHeaderSize + i)) (totalSize mem) k
      (fun i hi hik => hk _ ⟨Nat.le_add_right _ _, Nat.add_lt_add_left hi _⟩
        (by rwa [Nat.add_sub_cancel_left]))
      ⟨d - nvHeaderSize, by have := hin.1; have := hin.2; omega, by
        rw [Nat.add_sub_cancel' hin.1]
        exact hd⟩
    rw [beq_eq_false_iff_ne, ← hsum]
    exact hdamage
  · rw [beq_iff_eq, ← hsum]
    exact palRegistryDataCheckCalc_perm heven hperm

/-- Two words with their sum behind them. -/
def twoWords (a b : BYTE) : ℕ → BYTE := fun i =>
  ([0, 0, 0, 0, 0, 0, 0, 0, 4, 0, 0, 0, 0, 0, 0, 0, a, 0, b, 0, 7, 0] : List BYTE).getD i 0

/-- A damaged word is refused, and the words the other way round are accepted. -/
theorem csumCheckForData_twoWords :
    csumCheckForData (twoWords 3 5) 24 = false ∧ csumCheckForData (twoWords 4 3) 24 = true := by
  have hother : ∀ (a b : BYTE) (i : ℕ), ¬ InData (twoWords 3 4) i →
      twoWords a b i = twoWords 3 4 i := by
    intro a b i hi
    have htotal : totalSize (twoWords 3 4) = 4 := by decide
    rw [InData, htotal, nvHeaderSize] at hi
    rcases Nat.lt_or_ge i 22 with hlt | hge
    · interval_cases i <;> first | rfl | exact absurd (by decide) hi
    · exact (getD_eq_default _ _ hge).trans (getD_eq_default _ _ hge).symm
  have hchecked : totalSize (twoWords 3 4) ≠ 2 ^ 32 - 1 := by decide
  have hok : csumCheckForData (twoWords 3 4) 24 = true := by decide
  refine ⟨(csumCheckForData_tells hchecked hok (hother 3 5)).1 ⟨18, by decide⟩
      ⟨1, fun i hi hik => ?_⟩,
    (csumCheckForData_tells hchecked hok (hother 4 3)).2 (by decide) (by decide)⟩
  have htotal : totalSize (twoWords 3 4) = 4 := by decide
  rw [InData, htotal, nvHeaderSize] at hi
  rw [nvHeaderSize] at hik
  obtain rfl | rfl : i = 16 ∨ i = 17 := by omega
  · rfl
  · rfl

end ExynosVendor.Rfs
