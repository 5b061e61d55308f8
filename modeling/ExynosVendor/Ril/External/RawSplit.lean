import ExynosVendor.Ril.External.RawSegments

/-!
# One message, taken apart and put together

Before the last segment every segment is full, so the receiver's copy grows by
`MAX_RADIO_DATA_SIZE` bytes a segment and agrees with the payload as far as it goes
(`part`). The last segment has the bytes that are left, unless the length is a multiple of
the size: its mask is nothing then, and the receiver waits for bytes that never come
(`runKey_split`).
-/

namespace ExynosVendor.Ril.External

open Reassembly
open List

variable {κ τ : Type}

/-! ## The lengths of the segments -/

theorem and_maxRadioDataMod (n : ℕ) : n &&& maxRadioDataMod = n % maxRadioDataSize :=
  Nat.and_two_pow_sub_one_eq_mod n 11

variable {index : ℕ}

variable {n : ℕ}

theorem segLength_of_lt (h : index + 1 < segmentNum n) :
    segLength n index = maxRadioDataSize :=
  if_neg (by omega)

theorem segLength_last (h : index + 1 = segmentNum n) :
    segLength n index = n % maxRadioDataSize := by
  rw [segLength, if_pos h, and_maxRadioDataMod]

theorem lt_of_lt_segmentNum (h : index + 1 < segmentNum n) :
    (index + 1) * maxRadioDataSize < n := by
  unfold segmentNum maxRadioDataSize at h
  unfold maxRadioDataSize
  omega

/-- **The last segment ends with the payload**, if the length is no multiple of the size. -/
theorem last_end (h : index + 1 = segmentNum n) (hn : n % maxRadioDataSize ≠ 0) :
    index * maxRadioDataSize + n % maxRadioDataSize = n := by
  unfold segmentNum maxRadioDataSize at h
  unfold maxRadioDataSize at hn ⊢
  omega

theorem last_end_of_dvd (h : index + 1 = segmentNum n) (hn : n % maxRadioDataSize = 0) :
    index * maxRadioDataSize + maxRadioDataSize = n := by
  unfold segmentNum maxRadioDataSize at h
  unfold maxRadioDataSize at hn ⊢
  omega

/-- Every segment fits. -/
theorem segLength_fits (h : index < segmentNum n) :
    index * maxRadioDataSize + segLength n index ≤ n := by
  rcases Nat.lt_or_ge (index + 1) (segmentNum n) with hlt | hge
  · rw [segLength_of_lt hlt]
    have hin := lt_of_lt_segmentNum hlt
    rw [Nat.succ_mul] at hin
    omega
  · have hlast : index + 1 = segmentNum n := by omega
    rw [segLength_last hlast]
    by_cases hn : n % maxRadioDataSize = 0
    · have hend := last_end_of_dvd hlast hn
      omega
    · have hend := last_end hlast hn
      omega

/-! ## The calls of a payload -/

variable {key : κ} {tag : τ} {data : List UInt8}

/-- What the loop does from a segment on: the pointer is at the bytes behind those that are
sent. -/
theorem segLoop_cons {k : ℕ} (h : index + (k + 1) = segmentNum data.length) :
    segLoop key tag data.length (data.drop (index * maxRadioDataSize)) index (k + 1) =
      ⟨key, tag, segLength data.length index,
        (data.drop (index * maxRadioDataSize)).take (segLength data.length index), index,
        data.length⟩ ::
      segLoop key tag data.length (data.drop ((index + 1) * maxRadioDataSize)) (index + 1) k := by
  rw [segLoop]
  cases k with
  | zero => rfl
  | succ k =>
    rw [segLength_of_lt (by omega), drop_drop, Nat.succ_mul]

/-- **A call of a message** has the key, the tag and the length of the message, and as many
bytes as it says. -/
theorem mem_segLoop {c : Call κ τ} : ∀ {k index : ℕ}, index + k = segmentNum data.length →
    c ∈ segLoop key tag data.length (data.drop (index * maxRadioDataSize)) index k →
    c.key = key ∧ c.tag = tag ∧ c.totalLen = data.length ∧ c.dataLen = c.data.length := by
  intro k
  induction k with
  | zero =>
    intro index _ hc
    exact absurd hc not_mem_nil
  | succ k ih =>
    intro index hk hc
    rw [segLoop_cons hk] at hc
    rcases mem_cons.mp hc with rfl | hrest
    · have hfits := segLength_fits (show index < segmentNum data.length by omega)
      have hlen : ((data.drop (index * maxRadioDataSize)).take
          (segLength data.length index)).length = segLength data.length index := by
        rw [length_take, length_drop]
        omega
      exact ⟨rfl, rfl, rfl, hlen.symm⟩
    · exact ih (by omega) hrest

theorem mem_split {c : Call κ τ} (hc : c ∈ split key tag data) :
    c.key = key ∧ c.tag = tag ∧ c.totalLen = data.length ∧ c.dataLen = c.data.length := by
  have hloop : c ∈ segLoop key tag data.length (data.drop (0 * maxRadioDataSize)) 0
      (segmentNum data.length) := by
    rw [Nat.zero_mul]
    exact hc
  exact mem_segLoop (Nat.zero_add _) hloop

/-! ## The receiver's copy -/

variable (fill : ℕ → UInt8)

/-- A message of which the first `n` bytes have come. -/
def part (key : κ) (tag : τ) (data : List UInt8) (n : ℕ) : Partial κ τ UInt8 :=
  ⟨key, tag, data.take n ++ (Allocator.exact.alloc fill data.length).drop n, data.length, n⟩

/-- And all of it. -/
def whole (key : κ) (tag : τ) (data : List UInt8) : Partial κ τ UInt8 :=
  ⟨key, tag, data, data.length, data.length⟩

variable {fill}

theorem part_length : part fill key tag data data.length = whole key tag data := by
  have hdrop : (Allocator.exact.alloc fill data.length).drop data.length = [] :=
    drop_eq_nil_of_le (by simp)
  rw [part, whole, take_length, hdrop, append_nil]

/-- **The next bytes** go behind those that have come. -/
theorem part_add {len : ℕ} {t : τ} (h : index * maxRadioDataSize + len ≤ data.length) :
    (part fill key tag data (index * maxRadioDataSize)).add maxRadioDataSize
        ⟨key, t, (data.drop (index * maxRadioDataSize)).take len, index, data.length⟩ =
      some (part fill key tag data (index * maxRadioDataSize + len)) := by
  have hfront : (data.take (index * maxRadioDataSize)).length = index * maxRadioDataSize := by
    rw [length_take]
    omega
  have hlen : ((data.drop (index * maxRadioDataSize)).take len).length = len := by
    rw [length_take, length_drop]
    omega
  have hroom : ((data.drop (index * maxRadioDataSize)).take len).length ≤
      ((Allocator.exact.alloc fill data.length).drop (index * maxRadioDataSize)).length := by
    rw [hlen, length_drop, Allocator.alloc_length, Allocator.exact_usable]
    omega
  have hstore := Block.store_behind (p := data.take (index * maxRadioDataSize)) hroom
  rw [hfront, hlen, ← take_add, drop_drop] at hstore
  simp only [Partial.add, part, hstore, Option.map_some, hlen]

variable (fill key tag)

/-- Where a message is before a segment: nowhere before the first. -/
def before (data : List UInt8) (index : ℕ) : Option (Partial κ τ UInt8) :=
  if index = 0 then none else some (part fill key tag data (index * maxRadioDataSize))

theorem stepKey_before {len : ℕ} (h : index * maxRadioDataSize + len ≤ data.length) :
    stepKey maxRadioDataSize fill (before key tag fill data index)
        ⟨key, tag, (data.drop (index * maxRadioDataSize)).take len, index, data.length⟩ =
      some (if data.length ≤ index * maxRadioDataSize + len then
          (none, some (part fill key tag data (index * maxRadioDataSize + len)))
        else (some (part fill key tag data (index * maxRadioDataSize + len)), none)) := by
  have hbase : (if index = 0 then
        (if (before key tag fill data index).isNone then
          some (start fill (⟨key, tag, (data.drop (index * maxRadioDataSize)).take len, index,
            data.length⟩ : Segment κ τ UInt8)) else none)
      else before key tag fill data index) =
      some (part fill key tag data (index * maxRadioDataSize)) := by
    by_cases hindex : index = 0
    · subst hindex
      simp [before, start, part]
    · simp [before, hindex]
  unfold stepKey
  simp only [hbase, Option.bind_some]
  rw [part_add h, Option.map_some]
  rfl

/-- **What the receiver makes of the calls of one payload**, from one of them on. -/
theorem runKey_segLoop : ∀ {k index : ℕ}, index + (k + 1) = segmentNum data.length →
    runKey maxRadioDataSize fill (before key tag fill data index)
        ((segLoop key tag data.length (data.drop (index * maxRadioDataSize)) index (k + 1)).map
          fun c => c.segment c.data) =
      some (if data.length % maxRadioDataSize = 0 then
          (some (part fill key tag data (data.length - maxRadioDataSize)), [])
        else (none, [whole key tag data])) := by
  intro k
  induction k with
  | zero =>
    intro index hk
    have hstep := stepKey_before key tag fill
      (segLength_fits (show index < segmentNum data.length by omega))
    rw [segLength_last hk] at hstep
    rw [segLoop_cons hk, segLoop, map_cons, map_nil, Call.segment, runKey, segLength_last hk, hstep]
    by_cases hn : data.length % maxRadioDataSize = 0
    · -- Nothing is in the last segment, and the last whole one is missing.
      have hend := last_end_of_dvd hk hn
      have hopen : ¬ data.length ≤ index * maxRadioDataSize := by
        have hpos : 0 < maxRadioDataSize := Nat.two_pow_pos 11
        omega
      have hgot : index * maxRadioDataSize = data.length - maxRadioDataSize := by omega
      rw [hn, Nat.add_zero, if_neg hopen, if_pos rfl, hgot]
      rfl
    · rw [last_end hk hn, if_pos (Nat.le_refl _), if_neg hn, part_length]
      rfl
  | succ k ih =>
    intro index hk
    have hlt : index + 1 < segmentNum data.length := by omega
    have hin := lt_of_lt_segmentNum hlt
    have hstep := stepKey_before key tag fill
      (segLength_fits (show index < segmentNum data.length by omega))
    rw [segLength_of_lt hlt, ← Nat.succ_mul, if_neg (Nat.not_le.mpr hin)] at hstep
    rw [segLoop_cons hk, map_cons, runKey, Call.segment, segLength_of_lt hlt, hstep,
      Option.bind_some]
    have hnext := @ih (index + 1) (by omega)
    rw [before, if_neg (Nat.succ_ne_zero index)] at hnext
    rw [hnext]
    rfl

/-- **One payload is put together again** exactly when its length is no multiple of the size;
otherwise it stays in its slot without its last segment. -/
theorem runKey_split (hlong : 0 < data.length) :
    runKey maxRadioDataSize fill none
        ((split key tag data).map fun c => c.segment c.data) =
      some (if data.length % maxRadioDataSize = 0 then
          (some (part fill key tag data (data.length - maxRadioDataSize)), [])
        else (none, [whole key tag data])) := by
  obtain ⟨k, hk⟩ : ∃ k, 0 + (k + 1) = segmentNum data.length := by
    refine ⟨segmentNum data.length - 1, ?_⟩
    unfold segmentNum maxRadioDataSize
    omega
  have hloop := runKey_segLoop key tag fill hk
  rw [Nat.zero_add] at hk
  rw [Nat.zero_mul, drop_zero, hk] at hloop
  exact hloop

end ExynosVendor.Ril.External
