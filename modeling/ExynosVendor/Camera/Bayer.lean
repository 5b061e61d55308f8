import Mathlib.Algebra.Ring.Nat
import Mathlib.Data.List.Nodup
import Mathlib.Data.List.Range

/-!
# Adding bayer buffers

`addBayerBuffer` of `ExynosCameraUtils.cpp` on buffers that are not packed: the pixels of
the source are added to those of the destination, by lanes of NEON or one by one. Both
versions go over whole blocks first and over a remainder after them.
-/

namespace ExynosVendor.Camera.Bayer

open List

inductive Status
  | noError
  | badValue
  deriving DecidableEq

/-- The 16-bit pixels from an address on. -/
abbrev Pixels := ℕ → ℕ

/-- `ExynosCameraBuffer`: the address and the size of its first plane. -/
structure Buffer where
  addr : Option Pixels
  size : ℕ

/-- What the loops leave: the pixels of the destination, and the indices that were added
to, in their order. -/
structure Sum where
  dst : Pixels
  touched : List ℕ

/-- `SATURATING_ADD`, which saturates at 0x3FF. -/
def SATURATING_ADD (limit a b : ℕ) : ℕ := if (limit : Int) - b < a then limit else a + b

/-- `vshlq_n_u16` of a lane. -/
def vshlq_n_u16 (a n : ℕ) : ℕ := a * 2 ^ n % 2 ^ 16

/-- `vqaddq_u16` of a lane. -/
def vqaddq_u16 (a b : ℕ) : ℕ := min (a + b) (2 ^ 16 - 1)

/-- `vshrq_n_u16` of a lane. -/
def vshrq_n_u16 (a n : ℕ) : ℕ := a / 2 ^ n

/-- What NEON makes of a lane. -/
def lane (dst src : ℕ) : ℕ := vshrq_n_u16 (vqaddq_u16 (vshlq_n_u16 dst 6) (vshlq_n_u16 src 6)) 6

/-- `dstAddr[i] = add(dstAddr[i], srcAddr[i])`. -/
def addAt (add : ℕ → ℕ → ℕ) (src : Pixels) (s : Sum) (i : ℕ) : Sum :=
  ⟨Function.update s.dst i (add (s.dst i) (src i)), s.touched ++ [i]⟩

/-- `n` pixels from `dstAddr`, which is `base` pixels on. -/
def addFrom (add : ℕ → ℕ → ℕ) (src : Pixels) (base n : ℕ) (s : Sum) : Sum :=
  (List.range n).foldl (fun s i => addAt add src s (base + i)) s

/-- The loop over blocks of `alignShort` pixels, the address moved behind each. -/
def addBlocks (add : ℕ → ℕ → ℕ) (src : Pixels) (alignShort realCopySize : ℕ) (s : Sum) : Sum :=
  (List.range realCopySize).foldl (fun s i => addFrom add src (alignShort * i) alignShort s) s

/-- The remainder is counted in bytes and added from the first pixel. -/
def addBayerBufferByNeon (limit : ℕ) (srcBuf dstBuf : Buffer) (copySize : ℕ) : Status × Sum :=
  match srcBuf.addr, dstBuf.addr with
  | some src, some dst =>
      let realCopySize := copySize / 64
      let remainedCopySize := copySize % 64
      let blocks := addBlocks lane src 32 realCopySize ⟨dst, []⟩
      (.noError, addFrom (SATURATING_ADD limit) src 0 remainedCopySize blocks)
  | _, dst => (.badValue, ⟨dst.getD fun _ => 0, []⟩)

/-- The remainder is counted in bytes and added behind the blocks. -/
def addBayerBufferByCpu (limit : ℕ) (srcBuf dstBuf : Buffer) (copySize : ℕ) : Status × Sum :=
  match srcBuf.addr, dstBuf.addr with
  | some src, some dst =>
      let realCopySize := copySize / 32
      let remainedCopySize := copySize % 32
      let blocks := addBlocks (SATURATING_ADD limit) src 16 realCopySize ⟨dst, []⟩
      (.noError, addFrom (SATURATING_ADD limit) src (16 * realCopySize) remainedCopySize blocks)
  | _, dst => (.badValue, ⟨dst.getD fun _ => 0, []⟩)

/-- The smaller of the two buffers is added. -/
def addBayerBuffer (byNeon : Bool) (limit : ℕ) (srcBuf dstBuf : Buffer) : Status × Sum :=
  let copySize := if srcBuf.size < dstBuf.size then srcBuf.size else dstBuf.size
  if byNeon then addBayerBufferByNeon limit srcBuf dstBuf copySize
  else addBayerBufferByCpu limit srcBuf dstBuf copySize

/-! ## The law -/

/-- **Every pixel is added once**, up to a limit: only whole pixels of the first `copySize`
bytes are touched, each of them once, and each becomes the sum. -/
structure AddsOnce (limit copySize : ℕ) (src dst : Pixels) (s : Sum) : Prop where
  inside : ∀ i ∈ s.touched, 2 * i + 2 ≤ copySize
  once : ∀ i < copySize / 2, s.touched.count i = 1
  sum : ∀ i < copySize / 2, s.dst i = min (dst i + src i) limit

/-- **What the two versions promise of each other**: each adds every pixel once up to its
limit, and they agree up to the limits on pixels of ten bits. -/
structure Accumulates (limit copySize : ℕ) (src dst : Pixels) (byNeon byCpu : Sum) : Prop where
  neon : AddsOnce 0x3FF copySize src dst byNeon
  cpu : AddsOnce limit copySize src dst byCpu
  same : ∀ i < copySize / 2, dst i < 2 ^ 10 → src i < 2 ^ 10 →
    byNeon.dst i = min (byCpu.dst i) 0x3FF

/-- A lane of NEON has room for ten bits: two pixels of that width, or two whose low ten
bits saturate. -/
def TenBits (dst src : ℕ) : Prop :=
  dst < 2 ^ 10 ∧ src < 2 ^ 10 ∨ 0x3FF ≤ dst % 2 ^ 10 + src % 2 ^ 10

/-! ## The loops -/

variable {add : ℕ → ℕ → ℕ} {src dst : Pixels} {s : Sum} {limit base n copySize : ℕ}

theorem addFrom_add (base n k : ℕ) (s : Sum) :
    addFrom add src base (n + k) s = addFrom add src (base + n) k (addFrom add src base n s) := by
  unfold addFrom
  rw [range_add, foldl_append, foldl_map]
  simp only [Nat.add_assoc]

theorem touched_addFrom (base n : ℕ) (s : Sum) :
    (addFrom add src base n s).touched = s.touched ++ (List.range n).map (base + ·) := by
  induction n with
  | zero => simp [addFrom]
  | succ n ih =>
    have hstep : (addFrom add src base (n + 1) s).touched =
        (addFrom add src base n s).touched ++ [base + n] := by
      rw [addFrom_add]
      rfl
    rw [hstep, ih, range_succ, map_append, append_assoc]
    rfl

/-- A pixel that the loop comes to is added to, and no other. -/
theorem dst_addFrom (base n : ℕ) (s : Sum) (i : ℕ) :
    (addFrom add src base n s).dst i =
      if base ≤ i ∧ i < base + n then add (s.dst i) (src i) else s.dst i := by
  induction n with
  | zero =>
    rw [if_neg (by omega)]
    rfl
  | succ n ih =>
    have hstep : (addFrom add src base (n + 1) s).dst =
        (addAt add src (addFrom add src base n s) (base + n)).dst := by
      rw [addFrom_add]
      rfl
    rw [hstep]
    rcases eq_or_ne i (base + n) with rfl | hne
    · rw [if_neg (by omega)] at ih
      simp [addAt, ih]
    · have hiff : base ≤ i ∧ i < base + (n + 1) ↔ base ≤ i ∧ i < base + n := by omega
      simp only [addAt, Function.update_of_ne hne, hiff, ih]

/-- **The blocks come to every pixel once**, like one loop over all of them. -/
theorem addBlocks_eq (w k : ℕ) (s : Sum) :
    addBlocks add src w k s = addFrom add src 0 (w * k) s := by
  induction k with
  | zero => rfl
  | succ k ih =>
    have hstep : addBlocks add src w (k + 1) s =
        addFrom add src (w * k) w (addBlocks add src w k s) := by
      simp [addBlocks, range_succ]
    rw [hstep, ih, Nat.mul_succ, addFrom_add, Nat.zero_add]

/-- One loop over the pixels adds each once, when it sums as it should. -/
theorem addsOnce_addFrom (hn : n = copySize / 2)
    (hadd : ∀ i < n, add (dst i) (src i) = min (dst i + src i) limit) :
    AddsOnce limit copySize src dst (addFrom add src 0 n ⟨dst, []⟩) where
  inside := by
    intro i hi
    rw [touched_addFrom] at hi
    simp only [nil_append, Nat.zero_add, map_id', mem_range] at hi
    omega
  once := by
    intro i hi
    rw [touched_addFrom]
    simp only [nil_append, Nat.zero_add, map_id']
    exact count_eq_one_of_mem nodup_range (mem_range.mpr (by omega))
  sum := by
    intro i hi
    rw [dst_addFrom, if_pos (by omega)]
    exact hadd i (by omega)

/-! ## The sums -/

theorem saturatingAdd_eq (limit a b : ℕ) : SATURATING_ADD limit a b = min (a + b) limit := by
  unfold SATURATING_ADD
  split <;> omega

theorem lane_eq (a b : ℕ) : lane a b = min (a % 2 ^ 10 + b % 2 ^ 10) 0x3FF := by
  simp only [lane, vshrq_n_u16, vqaddq_u16, vshlq_n_u16]
  omega

theorem lane_eq_min_iff (a b : ℕ) : lane a b = min (a + b) 0x3FF ↔ TenBits a b := by
  rw [lane_eq]
  unfold TenBits
  omega

/-! ## The two versions -/

theorem byNeon_eq (srcSize dstSize : ℕ) :
    (addBayerBufferByNeon limit ⟨some src, srcSize⟩ ⟨some dst, dstSize⟩ copySize).2 =
      addFrom (SATURATING_ADD limit) src 0 (copySize % 64)
        (addFrom lane src 0 (32 * (copySize / 64)) ⟨dst, []⟩) := by
  simp only [addBayerBufferByNeon, addBlocks_eq]

/-- The remainder behind the blocks goes on where they end. -/
theorem byCpu_eq (srcSize dstSize : ℕ) :
    (addBayerBufferByCpu limit ⟨some src, srcSize⟩ ⟨some dst, dstSize⟩ copySize).2 =
      addFrom (SATURATING_ADD limit) src 0 (16 * (copySize / 32) + copySize % 32) ⟨dst, []⟩ := by
  simp only [addBayerBufferByCpu, addBlocks_eq]
  rw [addFrom_add, Nat.zero_add]

variable (limit src dst) in
/-- **By the CPU** every pixel is added once when there is no remainder: one of a single
byte already takes in a whole pixel. -/
theorem byCpu_addsOnce_iff (srcSize dstSize : ℕ) :
    AddsOnce limit copySize src dst
        (addBayerBufferByCpu limit ⟨some src, srcSize⟩ ⟨some dst, dstSize⟩ copySize).2 ↔
      32 ∣ copySize := by
  rw [byCpu_eq]
  constructor
  · intro h
    by_contra hne
    have hlast : 16 * (copySize / 32) + copySize % 32 - 1 ∈
        (addFrom (SATURATING_ADD limit) src 0 (16 * (copySize / 32) + copySize % 32)
          ⟨dst, []⟩).touched := by
      rw [touched_addFrom]
      simp only [nil_append, Nat.zero_add, map_id', mem_range]
      omega
    have hinside := h.inside _ hlast
    omega
  · intro h
    exact addsOnce_addFrom (by omega) fun i _ => saturatingAdd_eq _ _ _

variable (limit) in
/-- **By NEON** every pixel is added once when there is no remainder, which would be added
to the first pixels again, and the lanes have room for the pixels. -/
theorem byNeon_addsOnce_iff (srcSize dstSize : ℕ) :
    AddsOnce 0x3FF copySize src dst
        (addBayerBufferByNeon limit ⟨some src, srcSize⟩ ⟨some dst, dstSize⟩ copySize).2 ↔
      64 ∣ copySize ∧ ∀ i < copySize / 2, TenBits (dst i) (src i) := by
  rw [byNeon_eq]
  constructor
  · intro h
    have hdvd : 64 ∣ copySize := by
      by_contra hne
      have hrest : 0 < copySize % 64 :=
        Nat.pos_of_ne_zero fun he => hne (Nat.dvd_of_mod_eq_zero he)
      have htouched : (addFrom (SATURATING_ADD limit) src 0 (copySize % 64)
          (addFrom lane src 0 (32 * (copySize / 64)) ⟨dst, []⟩)).touched =
            List.range (32 * (copySize / 64)) ++ List.range (copySize % 64) := by
        rw [touched_addFrom, touched_addFrom]
        simp only [nil_append, Nat.zero_add, map_id']
      rcases Nat.eq_zero_or_pos (copySize / 64) with hsmall | hlarge
      · have hinside := h.inside (copySize % 64 - 1) (by
          rw [htouched]
          exact mem_append_right _ (mem_range.mpr (by omega)))
        omega
      · have honce := h.once 0 (by omega)
        rw [htouched, count_append, count_eq_one_of_mem nodup_range (mem_range.mpr (by omega)),
          count_eq_one_of_mem nodup_range (mem_range.mpr hrest)] at honce
        omega
    refine ⟨hdvd, fun i hi => ?_⟩
    have hsum := h.sum i hi
    have hrest : copySize % 64 = 0 := Nat.mod_eq_zero_of_dvd hdvd
    rw [hrest, dst_addFrom, if_neg (by omega), dst_addFrom, if_pos (by omega)] at hsum
    exact (lane_eq_min_iff _ _).mp hsum
  · rintro ⟨hdvd, hbits⟩
    have hrest : copySize % 64 = 0 := Nat.mod_eq_zero_of_dvd hdvd
    rw [hrest]
    exact addsOnce_addFrom (by omega) fun i hi => (lane_eq_min_iff _ _).mpr (hbits i (by omega))

/-- **When the two versions do what they promise**: the size is a multiple of 64 bytes, so
that neither has a remainder, and the lanes of NEON have room for the pixels. -/
theorem accumulates_iff (hlimit : 0x3FF ≤ limit) (copySize srcSize dstSize : ℕ)
    (src dst : Pixels) :
    Accumulates limit copySize src dst
        (addBayerBufferByNeon limit ⟨some src, srcSize⟩ ⟨some dst, dstSize⟩ copySize).2
        (addBayerBufferByCpu limit ⟨some src, srcSize⟩ ⟨some dst, dstSize⟩ copySize).2 ↔
      64 ∣ copySize ∧ ∀ i < copySize / 2, TenBits (dst i) (src i) := by
  constructor
  · intro h
    exact (byNeon_addsOnce_iff limit srcSize dstSize).mp h.neon
  · intro h
    have hneon := (byNeon_addsOnce_iff limit srcSize dstSize).mpr h
    have hcpu := (byCpu_addsOnce_iff src dst limit srcSize dstSize).mpr
      (Nat.dvd_trans (by decide) h.1)
    refine ⟨hneon, hcpu, fun i hi _ _ => ?_⟩
    rw [hneon.sum i hi, hcpu.sum i hi]
    omega

theorem accumulates_block : Accumulates 0xFFFF 64 (fun _ => 1) (fun _ => 2)
    (addBayerBufferByNeon 0xFFFF ⟨some fun _ => 1, 64⟩ ⟨some fun _ => 2, 64⟩ 64).2
    (addBayerBufferByCpu 0xFFFF ⟨some fun _ => 1, 64⟩ ⟨some fun _ => 2, 64⟩ 64).2 :=
  (accumulates_iff (by decide) 64 64 64 (fun _ => 1) fun _ => 2).mpr
    ⟨by decide, fun _ _ => Or.inl ⟨by decide, by decide⟩⟩

/-- A buffer of one pixel behind a block of NEON's: the first pixel is added twice, the
last not at all, and the CPU goes a pixel too far. -/
theorem not_accumulates : ¬ ∀ (copySize srcSize dstSize : ℕ) (src dst : Pixels),
    (∀ i, src i < 2 ^ 16) → (∀ i, dst i < 2 ^ 16) →
      copySize ≤ srcSize → copySize ≤ dstSize →
      Accumulates 0xFFFF copySize src dst
        (addBayerBufferByNeon 0xFFFF ⟨some src, srcSize⟩ ⟨some dst, dstSize⟩ copySize).2
        (addBayerBufferByCpu 0xFFFF ⟨some src, srcSize⟩ ⟨some dst, dstSize⟩ copySize).2 := by
  intro h
  have hrun := h 66 66 66 (fun _ => 1) (fun _ => 2) (fun _ => by decide) (fun _ => by decide)
    (by decide) (by decide)
  have hfirst := hrun.neon.sum 0 (by decide)
  exact absurd hfirst (by decide)

/-- **The dispatch adds every pixel of the smaller buffer once**, when its size leaves no
remainder. -/
theorem addBayerBuffer_addsOnce {srcSize dstSize : ℕ} (h64 : 64 ∣ min srcSize dstSize)
    (hbits : ∀ i < min srcSize dstSize / 2, TenBits (dst i) (src i)) (byNeon : Bool) :
    AddsOnce (if byNeon then 0x3FF else limit) (min srcSize dstSize) src dst
      (addBayerBuffer byNeon limit ⟨some src, srcSize⟩ ⟨some dst, dstSize⟩).2 := by
  have hsize : (if srcSize < dstSize then srcSize else dstSize) = min srcSize dstSize := by
    split <;> omega
  simp only [addBayerBuffer, hsize]
  split
  · exact (byNeon_addsOnce_iff _ srcSize dstSize).mpr ⟨h64, hbits⟩
  · exact (byCpu_addsOnce_iff _ _ _ srcSize dstSize).mpr (Nat.dvd_trans (by decide) h64)

end ExynosVendor.Camera.Bayer
