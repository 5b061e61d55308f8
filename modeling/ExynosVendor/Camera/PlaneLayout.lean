import ExynosVendor.Camera.BufferManager
import Mathlib.Data.List.Nodup
import Mathlib.Data.List.Perm.Subperm
import Mathlib.Data.List.Range

/-!
# Where the planes of a buffer are

`setInfo` says where a plane goes, `m_getTotalPlaneCount` how many there
are, `m_getImagePlaneCount` how far apart the buffers of a batch are, and
`getMetaPlaneIndex` and `getDebugInfoPlaneIndex` where the two planes are
that the manager adds. They agree about a configuration that has the same
planes as the manager has flags. A flag stays from one configuration to the
next, though, and the two getters know no missing plane.
-/

namespace ExynosVendor.Camera

open List

theorem range_nodup (a b : ℤ) : (Int.range a b).Nodup := by
  unfold Int.range
  refine nodup_range.map fun i j h => ?_
  omega

theorem range_eq_nil {a b : ℤ} (h : b ≤ a) : Int.range a b = [] := by
  unfold Int.range
  have hzero : (b - a).toNat = 0 := by omega
  rw [hzero]
  rfl

namespace Config

/-- How many buffers there may be. -/
def limit (info : Config) : ℤ := max info.allowedMaxBufCount info.reqBufCount

/-- The image planes of one buffer of the batch, whatever others there are. -/
def imageCount (info : Config) : ℤ :=
  info.planeCount - (if info.createDebugInfoPlane then 1 else 0) -
    (if info.createMetaPlane then 1 else 0)

/-- `totalPlaneCount`. -/
def total (info : Config) : ℤ :=
  BufferManager.getTotalPlaneCount info.planeCount info.batchSize info.createMetaPlane
    info.createDebugInfoPlane

/-- The same without an overflow. -/
def planes (info : Config) : ℤ :=
  info.imageCount * info.batchSize + (info.planeCount - info.imageCount)

/-- The planes are as many as `totalPlaneCount` says, and have room in a buffer. -/
structure Counted (info : Config) : Prop where
  one : 1 ≤ info.total
  total : info.total = info.planes
  most : info.total ≤ bufferMaxPlanes

/-- Behind the last buffer that is written, an `int`. -/
def endIndex (info : Config) : ℤ := toInt (info.limit + info.startBufIndex)

/-- The indices of the buffers that are written. -/
def written (info : Config) : List ℤ := Int.range info.startBufIndex info.endIndex

/-- The slot of the metadata, or -1 if the configuration has none. -/
def metaSlot (info : Config) : ℤ :=
  if info.createMetaPlane then
    BufferManager.curPlaneIndex info info.total
      (info.planeCount - 1 - if info.createDebugInfoPlane then 1 else 0)
  else -1

/-- The slot of the debug information, or -1. -/
def debugInfoSlot (info : Config) : ℤ :=
  if info.createDebugInfoPlane then
    BufferManager.curPlaneIndex info info.total (info.planeCount - 1)
  else -1

end Config

namespace BufferManager

/-- The slots that are written for each buffer: first those of the first
buffer of the batch with the planes the manager adds, then the image planes
of the others. -/
def slots (m : BufferManager) (info : Config) : List ℤ :=
  (Int.range 0 info.planeCount).map (curPlaneIndex info info.total) ++
    (Int.range 1 info.batchSize).flatMap fun batchIndex =>
      (Int.range 0 (m.getImagePlaneCount info.planeCount)).map fun plane =>
        batchIndex * m.getImagePlaneCount info.planeCount + plane

/-- **A consistent layout.** -/
structure ConsistentLayout (info : Config) (m : BufferManager) : Prop where
  index : ∀ i ∈ info.written, 0 ≤ i ∧ i < videoMaxFrame
  distinct : info.written ≠ [] → (m.slots info).Nodup
  bound : info.written ≠ [] → ∀ q ∈ m.slots info,
    0 ≤ q ∧ q < info.total ∧ q < bufferMaxPlanes
  metadata : ∀ i ∈ info.written, (m.buffer i).getMetaPlaneIndex = some info.metaSlot
  debugInfo : ∀ i ∈ info.written, (m.buffer i).getDebugInfoPlaneIndex = some info.debugInfoSlot

/-! ## Sizes -/

section Sizes

variable {size : ℤ → ℕ} {place : ℤ → ℤ} {l : List ℤ} {b b' : Buffer}

/-- A plane that is nowhere placed keeps its size. -/
theorem setPlanes_other {ok : Bool} (h : setPlanes size place l b = (ok, b')) {q : ℤ}
    (hq : ∀ p ∈ l, place p ≠ q) : b'.size q = b.size q := by
  induction l generalizing b with
  | nil =>
    obtain ⟨-, rfl⟩ := Prod.mk.inj h
    rfl
  | cons p l ih =>
    have hne : q ≠ place p := fun heq => hq p mem_cons_self heq.symm
    unfold setPlanes at h
    split at h
    · obtain ⟨-, rfl⟩ := Prod.mk.inj h
      rfl
    · rw [ih h fun p' hp' => hq p' (mem_cons_of_mem p hp')]
      exact Function.update_of_ne hne _ _

/-- **And a plane that is placed has its own size**, which is not zero. -/
theorem setPlanes_size (h : setPlanes size place l b = (true, b')) (hnodup : l.Nodup)
    (hinj : ∀ p ∈ l, ∀ q ∈ l, place p = place q → p = q) :
    ∀ p ∈ l, size p ≠ 0 ∧ b'.size (place p) = size p := by
  induction l generalizing b with
  | nil => exact fun p hp => absurd hp not_mem_nil
  | cons p l ih =>
    obtain ⟨hp, hl⟩ := nodup_cons.mp hnodup
    unfold setPlanes at h
    split at h
    · exact absurd (Prod.mk.inj h).1 (by decide)
    · rename_i hsize
      intro q hq
      rcases mem_cons.mp hq with rfl | hq
      · refine ⟨hsize, ?_⟩
        rw [setPlanes_other h fun p' hp' heq => hp
          (hinj p' (mem_cons_of_mem q hp') q mem_cons_self heq ▸ hp')]
        exact Function.update_self _ _ _
      · exact ih h hl (fun p' hp' q' hq' => hinj p' (mem_cons_of_mem p hp') q'
          (mem_cons_of_mem p hq')) q hq

end Sizes

section Layout

variable {info : Config} {m m' : BufferManager}

/-! ## What is accepted -/

/-- The manager that the loop of `setInfo` starts with. -/
def flagged (m : BufferManager) (info : Config) : BufferManager :=
  { m with
    indexOffset := info.startBufIndex
    hasDebugInfoPlane := m.hasDebugInfoPlane || info.createDebugInfoPlane
    hasMetaPlane := m.hasMetaPlane || info.createMetaPlane }

/-- **An accepted configuration** has passed the checks, and the loop has
gone through. -/
theorem setInfo_accepted (h : m.setInfo info = (.noError, m')) :
    0 ≤ info.reqBufCount ∧ 1 ≤ info.total ∧ info.total ≤ bufferMaxPlanes ∧
      ∃ m₁, setBuffers info (planeSizes info) (curPlaneIndex info info.total) info.written
          (m.flagged info) = (true, m₁) ∧
        m' = { m₁ with
          allowedMaxBufCount := info.endIndex
          reqBufCount := info.reqBufCount
          allocMode := info.allocMode } := by
  have hlimit : toInt ((if info.allowedMaxBufCount < info.reqBufCount then info.reqBufCount
      else info.allowedMaxBufCount) + info.startBufIndex) = info.endIndex := by
    unfold Config.endIndex Config.limit
    congr 2
    split_ifs <;> omega
  unfold setInfo at h
  dsimp only at h
  rw [hlimit] at h
  split at h
  · exact absurd (Prod.mk.inj h).1 (by decide)
  · rename_i hreq
    split at h
    · exact absurd (Prod.mk.inj h).1 (by decide)
    · split at h
      · exact absurd (Prod.mk.inj h).1 (by decide)
      · rename_i htotal
        have hone : 1 ≤ info.total ∧ info.total ≤ bufferMaxPlanes := by
          unfold Config.total
          omega
        split at h
        · exact absurd (Prod.mk.inj h).1 (by decide)
        · rename_i m₁ hset
          obtain ⟨-, rfl⟩ := Prod.mk.inj h
          exact ⟨by omega, hone.1, hone.2, m₁, hset, rfl⟩

/-- And so has a plane and a batch. -/
theorem total_eq (h : 1 ≤ info.total) :
    1 ≤ info.planeCount ∧ 1 ≤ info.batchSize ∧ info.total = toInt info.planes := by
  unfold Config.total getTotalPlaneCount at h ⊢
  split_ifs at h ⊢
  all_goals first
    | exact absurd h (by decide)
    | exact ⟨by omega, by omega, by simp [Config.planes, Config.imageCount, *]⟩

theorem counted_eq (h : info.Counted) :
    1 ≤ info.planeCount ∧ 1 ≤ info.batchSize ∧
      info.total = info.imageCount * info.batchSize + (info.planeCount - info.imageCount) :=
  ⟨(total_eq h.one).1, (total_eq h.one).2.1, h.total⟩

/-- How the planes that the manager adds follow the images. -/
theorem planeCount_eq (info : Config) :
    info.planeCount = info.imageCount + (if info.createMetaPlane then 1 else 0) +
      (if info.createDebugInfoPlane then 1 else 0) := by
  unfold Config.imageCount
  omega

/-- **One formula for all planes**: the images stay, what is behind them
goes behind the images of all the batch. -/
theorem curPlaneIndex_total (h : info.Counted) {p : ℤ} (hp : p < info.planeCount) :
    curPlaneIndex info info.total p =
      if p < info.imageCount then p
      else p + (info.imageCount * info.batchSize - info.imageCount) := by
  obtain ⟨-, -, htotal⟩ := counted_eq h
  have hcount := planeCount_eq info
  unfold curPlaneIndex
  cases hmeta : info.createMetaPlane <;> cases hdebug : info.createDebugInfoPlane <;>
    simp only [hmeta, hdebug, Bool.false_eq_true, if_false, if_true, true_and,
      false_and] at hcount ⊢
  all_goals split_ifs <;> omega

/-- The slots of the two added planes. -/
theorem metaSlot_eq (h : info.Counted) (hmeta : info.createMetaPlane = true) :
    info.metaSlot = info.imageCount * info.batchSize := by
  have hcount := planeCount_eq info
  rw [hmeta, if_pos rfl] at hcount
  unfold Config.metaSlot
  rw [hmeta, if_pos rfl, curPlaneIndex_total h (by split_ifs <;> omega)]
  split_ifs at hcount ⊢ <;> omega

theorem debugInfoSlot_eq (h : info.Counted) (hdebug : info.createDebugInfoPlane = true) :
    info.debugInfoSlot =
      info.imageCount * info.batchSize + if info.createMetaPlane then 1 else 0 := by
  have hcount := planeCount_eq info
  rw [hdebug, if_pos rfl] at hcount
  unfold Config.debugInfoSlot
  rw [hdebug, if_pos rfl, curPlaneIndex_total h (by omega)]
  split_ifs at hcount ⊢ <;> omega

/-! ## Slots -/

/-- The buffers of a batch do not overlap. -/
theorem batch_lt {n j j' p p' : ℤ} (hp : p < n) (hp' : 0 ≤ p') (hn : 0 ≤ n) (hjj : j < j') :
    j * n + p < j' * n + p' := by
  have hnext : (j + 1) * n ≤ j' * n := Int.mul_le_mul_of_nonneg_right (by omega) hn
  rw [Int.add_mul] at hnext
  omega

/-- Where the images of the others of the batch are. -/
theorem mem_batch {n batchSize q : ℤ} (hn : 0 ≤ n)
    (hq : q ∈ (Int.range 1 batchSize).flatMap fun j => (Int.range 0 n).map fun p => j * n + p) :
    n ≤ q ∧ q < n * batchSize := by
  obtain ⟨j, hj, hq⟩ := mem_flatMap.mp hq
  obtain ⟨p, hp, rfl⟩ := mem_map.mp hq
  obtain ⟨hone, hlast⟩ := Int.mem_range_iff.mp hj
  obtain ⟨hlow, hhigh⟩ := Int.mem_range_iff.mp hp
  have hfirst : 1 * n ≤ j * n := Int.mul_le_mul_of_nonneg_right hone hn
  have hbehind : j * n + p < batchSize * n + 0 := batch_lt hhigh le_rfl hn hlast
  rw [mul_comm n]
  omega

theorem batch_nodup {n : ℤ} (hn : 0 ≤ n) (batchSize : ℤ) :
    ((Int.range 1 batchSize).flatMap fun j =>
      (Int.range 0 n).map fun p => j * n + p).Nodup := by
  refine nodup_flatMap.mpr ⟨fun j _ => (range_nodup 0 n).map fun p p' heq => ?_, ?_⟩
  · omega
  · refine (range_nodup 1 batchSize).imp fun {j j'} hne => ?_
    intro q hq hq'
    obtain ⟨p, hp, rfl⟩ := mem_map.mp hq
    obtain ⟨p', hp', heq⟩ := mem_map.mp hq'
    obtain ⟨hlow, hhigh⟩ := Int.mem_range_iff.mp hp
    obtain ⟨hlow', hhigh'⟩ := Int.mem_range_iff.mp hp'
    rcases lt_or_gt_of_ne hne with hlt | hgt
    · have hover := batch_lt (p := p) hhigh hlow' hn hlt
      omega
    · have hover := batch_lt (p := p') hhigh' hlow hn hgt
      omega

/-- The images are below the slots of the added planes. -/
theorem imageCount_le (h : info.Counted) (hn : 0 ≤ info.imageCount) :
    info.imageCount ≤ info.imageCount * info.batchSize := by
  obtain ⟨-, hbatch, -⟩ := counted_eq h
  have hone : info.imageCount * 1 ≤ info.imageCount * info.batchSize :=
    Int.mul_le_mul_of_nonneg_left hbatch hn
  omega

/-- **No slot is written twice**, if the manager has flags for the planes
that the configuration has. -/
theorem slots_nodup (h : info.Counted) (hn : 0 ≤ info.imageCount)
    (hcount : m.getImagePlaneCount info.planeCount = info.imageCount) :
    (m.slots info).Nodup := by
  have hle := imageCount_le h hn
  unfold slots
  rw [hcount]
  refine nodup_append'.mpr ⟨?_, batch_nodup hn _, fun q hq hq' => ?_⟩
  · refine Nodup.map_on (fun p hp p' hp' heq => ?_) (range_nodup _ _)
    rw [curPlaneIndex_total h (Int.mem_range_iff.mp hp).2,
      curPlaneIndex_total h (Int.mem_range_iff.mp hp').2] at heq
    split_ifs at heq <;> omega
  · obtain ⟨p, hp, rfl⟩ := mem_map.mp hq
    obtain ⟨hlow, hhigh⟩ := mem_batch hn hq'
    rw [curPlaneIndex_total h (Int.mem_range_iff.mp hp).2] at hlow hhigh
    split_ifs at hlow hhigh <;> omega

/-- **And none behind the last.** -/
theorem slots_bound (h : info.Counted) (hn : 0 ≤ info.imageCount)
    (hcount : m.getImagePlaneCount info.planeCount = info.imageCount) :
    ∀ q ∈ m.slots info, 0 ≤ q ∧ q < info.total := by
  have hle := imageCount_le h hn
  obtain ⟨-, -, htotal⟩ := counted_eq h
  have hplanes := planeCount_eq info
  have hextra : info.imageCount ≤ info.planeCount := by
    split_ifs at hplanes <;> omega
  intro q hq
  unfold slots at hq
  rw [hcount] at hq
  rcases mem_append.mp hq with hq | hq
  · obtain ⟨p, hp, rfl⟩ := mem_map.mp hq
    obtain ⟨hlow, hhigh⟩ := Int.mem_range_iff.mp hp
    rw [curPlaneIndex_total h hhigh]
    split_ifs <;> omega
  · obtain ⟨hlow, hhigh⟩ := mem_batch hn hq
    omega

/-! ## Sizes -/

variable {size : ℤ → ℕ} {b : Buffer}

/-- **The loop of `setInfo`**, for each of its buffers. -/
theorem setBuffers_each {place : ℤ → ℤ} {l : List ℤ} (hnodup : l.Nodup)
    (h : setBuffers info size place l m = (true, m')) :
    m' = { m with buffer := m'.buffer } ∧ (∀ i ∉ l, m'.buffer i = m.buffer i) ∧
      ∀ i ∈ l, ∃ b,
        setPlanes size place (Int.range 0 info.planeCount) (m.buffer i) = (true, b) ∧
        m'.buffer i =
          { (if info.batchSize > 1 then
              setBatch size (m.getImagePlaneCount info.planeCount) info.batchSize b else b) with
            planeCount := info.planeCount
            batchSize := info.batchSize
            hasMetaPlane := m.hasMetaPlane
            hasDebugInfoPlane := m.hasDebugInfoPlane } := by
  induction l generalizing m with
  | nil =>
    obtain ⟨-, rfl⟩ := Prod.mk.inj h
    exact ⟨rfl, fun _ _ => rfl, fun i hi => absurd hi not_mem_nil⟩
  | cons i l ih =>
    obtain ⟨hi, hl⟩ := nodup_cons.mp hnodup
    rw [setBuffers] at h
    split at h
    · exact absurd (Prod.mk.inj h).1 (by decide)
    · rename_i b hplanes
      obtain ⟨honly, hother, hall⟩ := ih hl h
      refine ⟨honly, fun j hj => ?_, fun j hj => ?_⟩
      · rw [hother j (not_mem_of_not_mem_cons hj)]
        exact Function.update_of_ne (ne_of_not_mem_cons hj) _ _
      · rcases mem_cons.mp hj with rfl | hj
        · refine ⟨b, hplanes, ?_⟩
          rw [hother j hi]
          exact Function.update_self _ _ _
        · obtain ⟨b', hplanes', hbuffer⟩ := hall j hj
          have hne : j ≠ i := fun heq => hi (heq ▸ hj)
          refine ⟨b', (congrArg (setPlanes size place (Int.range 0 info.planeCount)) ?_).trans
            hplanes', hbuffer⟩
          exact (Function.update_of_ne hne _ m.buffer).symm

/-- The loops over a batch write only the images of its other buffers. -/
theorem setBatch_other {n batchSize q : ℤ}
    (hq : q ∉ (Int.range 1 batchSize).flatMap fun j => (Int.range 0 n).map fun p => j * n + p)
    (b : Buffer) : (setBatch size n batchSize b).size q = b.size q := by
  unfold setBatch
  let Kept : Buffer → Prop := fun b' => b'.size q = b.size q
  refine List.foldlRecOn _ _ (motive := Kept) rfl fun b' hb' j hj => ?_
  refine List.foldlRecOn _ _ (motive := Kept) hb' fun b'' hb'' p hp => ?_
  have hne : q ≠ j * n + p := fun heq =>
    hq (mem_flatMap.mpr ⟨j, hj, mem_map.mpr ⟨p, hp, heq.symm⟩⟩)
  exact (Function.update_of_ne hne _ _).trans hb''

theorem setBatch_behind {n batchSize q : ℤ} (hn : 0 ≤ n) (hq : n * batchSize ≤ q) (b : Buffer) :
    (if batchSize > 1 then setBatch size n batchSize b else b).size q = b.size q := by
  split
  · exact setBatch_other (fun hin => by have hbatch := mem_batch hn hin; omega) b
  · rfl

/-- The planes that the manager adds have their sizes in the
configuration. -/
theorem planeSizes_meta (hmeta : info.createMetaPlane = true) :
    planeSizes info info.imageCount = metaPlaneSize := by
  unfold planeSizes Config.imageCount
  simp only [hmeta, if_true]
  split_ifs <;> simp

theorem planeSizes_debugInfo (hdebug : info.createDebugInfoPlane = true) :
    planeSizes info (info.planeCount - 1) = debugInfoPlaneSize := by
  unfold planeSizes
  simp only [hdebug, if_true]
  split
  · rw [Function.update_of_ne (by omega), Function.update_self]
  · exact Function.update_self _ _ _

/-- **A buffer that agrees with its configuration**: the flags are those of
the planes there are, and these have their sizes. -/
structure Agrees (info : Config) (b : Buffer) : Prop where
  planeCount : b.planeCount = info.planeCount
  batchSize : b.batchSize = info.batchSize
  hasMetaPlane : b.hasMetaPlane = info.createMetaPlane
  hasDebugInfoPlane : b.hasDebugInfoPlane = info.createDebugInfoPlane
  metadata : info.createMetaPlane = true → b.size info.metaSlot = metaPlaneSize
  debugInfo : info.createDebugInfoPlane = true → b.size info.debugInfoSlot = debugInfoPlaneSize

/-- The planes of a manager with the flags of the configuration. -/
theorem getImagePlaneCount_of_flags (hplanes : 1 ≤ info.planeCount)
    (hmeta : m.hasMetaPlane = info.createMetaPlane)
    (hdebug : m.hasDebugInfoPlane = info.createDebugInfoPlane) :
    m.getImagePlaneCount info.planeCount = info.imageCount := by
  unfold getImagePlaneCount Config.imageCount
  rw [if_neg (by omega), hmeta, hdebug]

/-- **Each written buffer agrees**, if the manager has the flags of the
configuration when the loop starts. -/
theorem setInfo_agrees (h : m.setInfo info = (.noError, m')) (hone : info.Counted)
    (hn : 0 ≤ info.imageCount) (hmeta : (m.flagged info).hasMetaPlane = info.createMetaPlane)
    (hdebug : (m.flagged info).hasDebugInfoPlane = info.createDebugInfoPlane) :
    (m'.getImagePlaneCount info.planeCount = info.imageCount) ∧
      ∀ i ∈ info.written, Agrees info (m'.buffer i) := by
  obtain ⟨-, -, -, m₁, hset, rfl⟩ := setInfo_accepted h
  obtain ⟨hplanes, -, -⟩ := counted_eq hone
  have hcount := getImagePlaneCount_of_flags hplanes hmeta hdebug
  have hle := imageCount_le hone hn
  have hparts := planeCount_eq info
  obtain ⟨honly, -, hall⟩ := setBuffers_each (range_nodup _ _) hset
  have hcount' : m₁.getImagePlaneCount info.planeCount = info.imageCount := by
    rw [honly]
    exact hcount
  refine ⟨hcount', fun i hi => ?_⟩
  obtain ⟨b, hplane, hbuffer⟩ := hall i hi
  have hsizes := setPlanes_size hplane (range_nodup _ _) ?_
  · rw [hcount] at hbuffer
    refine ⟨?_, ?_, ?_, ?_, fun hhas => ?_, fun hhas => ?_⟩
    · exact congrArg Buffer.planeCount hbuffer
    · exact congrArg Buffer.batchSize hbuffer
    · exact (congrArg Buffer.hasMetaPlane hbuffer).trans hmeta
    · exact (congrArg Buffer.hasDebugInfoPlane hbuffer).trans hdebug
    · rw [hhas, if_pos rfl] at hparts
      have hbehind : info.imageCount < info.planeCount := by
        split_ifs at hparts <;> omega
      have hplace := (hsizes info.imageCount (Int.mem_range_iff.mpr ⟨hn, hbehind⟩)).2
      rw [curPlaneIndex_total hone hbehind, if_neg (by omega), planeSizes_meta hhas] at hplace
      rw [metaSlot_eq hone hhas]
      refine (congrArg (fun b : Buffer => b.size _) hbuffer).trans ?_
      refine (setBatch_behind hn le_rfl b).trans ?_
      rw [← hplace]
      congr 1
      omega
    · have hlast : info.planeCount - 1 ∈ Int.range 0 info.planeCount :=
        Int.mem_range_iff.mpr (by omega)
      have hplace := (hsizes _ hlast).2
      rw [planeSizes_debugInfo hhas] at hplace
      rw [hhas, if_pos rfl] at hparts
      have hslot : curPlaneIndex info info.total (info.planeCount - 1) = info.debugInfoSlot := by
        unfold Config.debugInfoSlot
        rw [hhas, if_pos rfl]
      rw [hslot] at hplace
      refine (congrArg (fun b : Buffer => b.size _) hbuffer).trans ?_
      refine (setBatch_behind hn ?_ b).trans hplace
      rw [debugInfoSlot_eq hone hhas]
      split_ifs <;> omega
  · intro p hp q hq heq
    rw [curPlaneIndex_total hone (Int.mem_range_iff.mp hp).2,
      curPlaneIndex_total hone (Int.mem_range_iff.mp hq).2] at heq
    split_ifs at heq <;> omega

/-- **The getters of a buffer that agrees** find the slots. -/
theorem Agrees.getMetaPlaneIndex (h : Agrees info b) (hone : info.Counted)
    (hn : 0 ≤ info.imageCount) (hmeta : info.createMetaPlane = true) :
    b.getMetaPlaneIndex = some info.metaSlot := by
  have hslot := metaSlot_eq hone hmeta
  have hparts := planeCount_eq info
  have hle := imageCount_le hone hn
  rw [hmeta, if_pos rfl] at hparts
  have hindex : (if b.hasDebugInfoPlane then (b.planeCount - 2) * b.batchSize
      else (b.planeCount - 1) * b.batchSize) = info.metaSlot := by
    rw [h.hasDebugInfoPlane, h.planeCount, h.batchSize, hslot]
    split_ifs at hparts ⊢
    · have hcount : info.planeCount - 2 = info.imageCount := by omega
      rw [hcount]
    · have hcount : info.planeCount - 1 = info.imageCount := by omega
      rw [hcount]
  obtain ⟨hplanes, -, htotal⟩ := counted_eq hone
  have hmost := hone.most
  have hmax : bufferMaxPlanes = 17 := rfl
  unfold Buffer.getMetaPlaneIndex Buffer.checkedPlane
  rw [hindex, toInt_of_lt (by omega) (by split_ifs at hparts <;> omega),
    if_pos ⟨by omega, h.metadata hmeta⟩]

theorem Agrees.getDebugInfoPlaneIndex (h : Agrees info b) (hone : info.Counted)
    (hn : 0 ≤ info.imageCount) (hdebug : info.createDebugInfoPlane = true) :
    b.getDebugInfoPlaneIndex = some info.debugInfoSlot := by
  have hslot := debugInfoSlot_eq hone hdebug
  have hparts := planeCount_eq info
  have hle := imageCount_le hone hn
  rw [hdebug, if_pos rfl] at hparts
  have hindex : (if b.hasMetaPlane then (b.planeCount - 2) * b.batchSize + 1
      else (b.planeCount - 1) * b.batchSize) = info.debugInfoSlot := by
    rw [h.hasMetaPlane, h.planeCount, h.batchSize, hslot]
    split_ifs at hparts ⊢
    · have hcount : info.planeCount - 2 = info.imageCount := by omega
      rw [hcount]
    · have hcount : info.planeCount - 1 = info.imageCount := by omega
      rw [hcount, add_zero]
  obtain ⟨hplanes, -, htotal⟩ := counted_eq hone
  have hmost := hone.most
  have hmax : bufferMaxPlanes = 17 := rfl
  have hlow : 0 ≤ info.debugInfoSlot := by split_ifs at hslot <;> omega
  unfold Buffer.getDebugInfoPlaneIndex Buffer.checkedPlane
  rw [hindex, toInt_of_lt (by omega) (by split_ifs at hparts hslot <;> omega),
    if_pos ⟨hlow, h.debugInfo hdebug⟩]

/-! ## When the layout is consistent -/

/-- A plane index that is returned is not negative. -/
theorem checkedPlane_nonneg {plane q : ℤ} {size : ℕ} (h : b.checkedPlane plane size = some q) :
    0 ≤ q := by
  unfold Buffer.checkedPlane at h
  split at h
  · rename_i hplane
    obtain rfl := Option.some.inj h
    exact hplane.1
  · exact absurd h (by simp)

/-- **Slots that are apart have room** for all the planes. -/
theorem planes_le {n : ℤ} (hn : 0 ≤ n) (hplanes : 1 ≤ info.planeCount) (hbatch : 1 ≤ info.batchSize)
    (hcount : m.getImagePlaneCount info.planeCount = n) (hnodup : (m.slots info).Nodup)
    (hbound : ∀ q ∈ m.slots info, 0 ≤ q ∧ q < bufferMaxPlanes) :
    info.planeCount + (info.batchSize - 1) * n ≤ bufferMaxPlanes := by
  have hlength : (m.slots info).length =
      info.planeCount.toNat + (info.batchSize - 1).toNat * n.toNat := by
    unfold slots Int.range
    rw [hcount]
    simp [length_flatMap, Function.comp_def]
  have hsub : m.slots info ⊆ Int.range 0 bufferMaxPlanes := fun q hq =>
    Int.mem_range_iff.mpr (hbound q hq)
  have hle := (subperm_of_subset hnodup hsub).length_le
  have hroom : (Int.range 0 bufferMaxPlanes).length = 17 := rfl
  rw [hlength, hroom] at hle
  have hcast : ((info.batchSize - 1).toNat * n.toNat : ℤ) = (info.batchSize - 1) * n := by
    rw [Int.toNat_of_nonneg hn, Int.toNat_of_nonneg (by omega)]
  have hmax : bufferMaxPlanes = 17 := rfl
  rw [← hcast, hmax]
  omega

/-- **The layout of an accepted configuration is consistent exactly if no
buffer is written, or both of the added planes are there, the planes of all
the batch have room in a buffer, and only buffers of the array are
written.** What the manager was configured with before does not matter. -/
theorem consistentLayout_iff (h : m.setInfo info = (.noError, m'))
    (hint : info.batchSize < 2 ^ 31) :
    ConsistentLayout info m' ↔
      info.endIndex ≤ info.startBufIndex ∨
        info.createMetaPlane = true ∧ info.createDebugInfoPlane = true ∧ 2 ≤ info.planeCount ∧
          info.planes ≤ bufferMaxPlanes ∧
          0 ≤ info.startBufIndex ∧ info.endIndex ≤ videoMaxFrame := by
  obtain ⟨-, hone, hmost, m₁, hset, hm'⟩ := setInfo_accepted h
  obtain ⟨hplanes, hbatch, htotal⟩ := total_eq hone
  have hparts := planeCount_eq info
  have hmax : bufferMaxPlanes = 17 := rfl
  constructor
  · intro hlayout
    by_cases hend : info.endIndex ≤ info.startBufIndex
    · exact .inl hend
    have hfirst : info.startBufIndex ∈ info.written := Int.mem_range_iff.mpr (by omega)
    have hlast : info.endIndex - 1 ∈ info.written := Int.mem_range_iff.mpr (by omega)
    have hne : info.written ≠ [] := ne_nil_of_mem hfirst
    have hmetaSlot : 0 ≤ info.metaSlot := checkedPlane_nonneg (hlayout.metadata _ hfirst)
    have hdebugSlot : 0 ≤ info.debugInfoSlot := checkedPlane_nonneg (hlayout.debugInfo _ hfirst)
    have hmeta : info.createMetaPlane = true := by
      by_contra hnone
      rw [Config.metaSlot, if_neg hnone] at hmetaSlot
      omega
    have hdebug : info.createDebugInfoPlane = true := by
      by_contra hnone
      rw [Config.debugInfoSlot, if_neg hnone] at hdebugSlot
      omega
    rw [hmeta, hdebug, if_pos rfl] at hparts
    have hcount : 2 ≤ info.planeCount := by
      by_contra hfew
      -- the only plane is the debug information, and the metadata in front of the array
      have himages : info.imageCount = -1 := by omega
      have hsum : info.planes = 2 - info.batchSize := by
        unfold Config.planes
        rw [himages]
        omega
      have hcounted : info.Counted :=
        ⟨hone, htotal.trans (toInt_of_lt (by omega) (by omega)), hmost⟩
      rw [metaSlot_eq hcounted hmeta, himages] at hmetaSlot
      omega
    have hflags : m'.getImagePlaneCount info.planeCount = info.imageCount := by
      obtain ⟨honly, -⟩ := setBuffers_each (range_nodup _ _) hset
      rw [hm']
      refine (getImagePlaneCount_of_flags (m := m₁) hplanes ?_ ?_)
      · rw [honly, hmeta]
        simp [flagged, hmeta]
      · rw [honly, hdebug]
        simp [flagged, hdebug]
    have hroom := planes_le (by omega) hplanes hbatch hflags (hlayout.distinct hne)
      fun q hq => ⟨(hlayout.bound hne q hq).1, (hlayout.bound hne q hq).2.2⟩
    have hlow := (hlayout.index _ hfirst).1
    have hhigh := (hlayout.index _ hlast).2
    refine .inr ⟨hmeta, hdebug, hcount, ?_, hlow, by omega⟩
    unfold Config.planes
    rw [Int.sub_mul, one_mul, mul_comm] at hroom
    omega
  · rintro (hend | ⟨hmeta, hdebug, hcount, hroom, hstart, hframes⟩)
    · have hnone : info.written = [] := range_eq_nil hend
      refine ⟨?_, ?_, ?_, ?_, ?_⟩
      all_goals simp [hnone]
    · rw [hmeta, hdebug, if_pos rfl] at hparts
      have hn : 0 ≤ info.imageCount := by omega
      have hpos : 0 ≤ info.planes := by
        have hproduct := Int.mul_nonneg hn (show 0 ≤ info.batchSize by omega)
        unfold Config.planes
        omega
      have hcounted : info.Counted :=
        ⟨hone, htotal.trans (toInt_of_lt (by omega) (by omega)), hmost⟩
      obtain ⟨himages, hagrees⟩ := setInfo_agrees h hcounted hn (by simp [flagged, hmeta])
        (by simp [flagged, hdebug])
      refine ⟨fun i hi => ?_, fun _ => slots_nodup hcounted hn himages, fun _ q hq => ?_,
        fun i hi => (hagrees i hi).getMetaPlaneIndex hcounted hn hmeta,
        fun i hi => (hagrees i hi).getDebugInfoPlaneIndex hcounted hn hdebug⟩
      · obtain ⟨hlow, hhigh⟩ := Int.mem_range_iff.mp hi
        omega
      · obtain ⟨hlow, hhigh⟩ := slots_bound hcounted hn himages q hq
        omega

end Layout

/-- A configuration of images with these flags, `reqBufCount` of them from
`startBufIndex` on. -/
def plainInfo (planeCount startBufIndex reqBufCount batchSize : ℤ)
    (createMetaPlane createDebugInfoPlane : Bool) : Config where
  planeCount := planeCount
  size := fun _ => 4096
  startBufIndex := startBufIndex
  reqBufCount := reqBufCount
  allowedMaxBufCount := reqBufCount
  batchSize := batchSize
  allocMode := .atOnce
  createMetaPlane := createMetaPlane
  createDebugInfoPlane := createDebugInfoPlane

theorem consistentLayout_iff_one :
    (init.setInfo (plainInfo 3 0 1 2 true true)).1 = .noError ∧
      ConsistentLayout (plainInfo 3 0 1 2 true true)
        (init.setInfo (plainInfo 3 0 1 2 true true)).2 :=
  have haccepted : (init.setInfo (plainInfo 3 0 1 2 true true)).1 = .noError := by decide
  ⟨haccepted, (consistentLayout_iff (Prod.ext haccepted rfl) (by decide)).mpr (.inr (by decide))⟩

/-- **Two buffers from the last one of the array on** are accepted, and the
second is behind it. Behind a configuration with both planes, one without
the debug information, in batches of two, writes the first image of the
second buffer over the second image of the first, and its buffers find the
metadata where it was before. -/
theorem not_consistentLayout :
    (∃ m', init.setInfo (plainInfo 3 31 2 1 true true) = (.noError, m') ∧
      ¬ ConsistentLayout (plainInfo 3 31 2 1 true true) m') ∧
    ∃ m m', init.setInfo (plainInfo 4 0 1 1 true true) = (.noError, m) ∧
      m.setInfo (plainInfo 3 0 1 2 true false) = (.noError, m') ∧
      ¬ (m'.slots (plainInfo 3 0 1 2 true false)).Nodup ∧
      (m'.buffer 0).getMetaPlaneIndex = some 2 ∧ (plainInfo 3 0 1 2 true false).metaSlot = 4 := by
  have hfirst : (init.setInfo (plainInfo 3 31 2 1 true true)).1 = .noError := by decide
  have hboth : (init.setInfo (plainInfo 4 0 1 1 true true)).1 = .noError := by decide
  have hmeta : ((init.setInfo (plainInfo 4 0 1 1 true true)).2.setInfo
      (plainInfo 3 0 1 2 true false)).1 = .noError := by decide
  refine ⟨⟨_, Prod.ext hfirst rfl, fun hlayout => ?_⟩,
    _, _, Prod.ext hboth rfl, Prod.ext hmeta rfl, by decide, by decide, by decide⟩
  have hindex := (hlayout.index 32 (by decide)).2
  exact absurd hindex (by decide)

end BufferManager

end ExynosVendor.Camera
