import ExynosVendor.Common.LittleEndian
import ExynosVendor.Eden.ClientModel
import Mathlib.Tactic.IntervalCases

/-!
# Axes of the two layouts

An axis of a client's tensor counts its dimensions by (number, height, width, channel), and
one of the device by (number, channel, height, width). `configConcatenation` and
`readConcatParams` translate the axis of a concatenation, for the GPU and for the NPU, and
`configSplit` that of a split; `getEdenDimensions` places the sizes.
-/

namespace ExynosVendor.Eden

open Option

def N_NCHW : ℤ := 0
def C_NCHW : ℤ := 1
def H_NCHW : ℤ := 2
def W_NCHW : ℤ := 3

def N_NHWC : ℤ := 0
def H_NHWC : ℤ := 1
def W_NHWC : ℤ := 2
def C_NHWC : ℤ := 3

/-! ## Values of the options -/

/-- The `int32_t` at an offset. -/
def int32At (bytes : List (BitVec 8)) (offset : ℕ) : Option ℤ :=
  (Block.load bytes offset 4).map fun data => toInt (LittleEndian.decode data)

/-- `getValue<int32_t>`, of an operand that is a constant; `none` reads outside of an object. -/
def getValue (model : ClientModel) (androidOperation : ClientOperation) (op_id : ℕ) :
    Option ℤ := do
  let operand ← model.operands[← androidOperation.inputs[op_id]?]?
  match operand.lifetime with
  | .constantCopy => int32At model.operandValues operand.location.offset
  | .constantReference =>
      let pool ← model.pools[operand.location.poolIndex]?
      if pool.mapping = .memory then int32At pool.bytes operand.location.offset else none
  | _ => some (-1)

/-- The dimensions of the first input. -/
def firstRank (model : ClientModel) (androidOperation : ClientOperation) : Option ℕ := do
  let operand ← model.operands[← androidOperation.inputs[0]?]?
  return operand.dimensions.length

/-! ## Concatenation and split -/

/-- The case analysis of `configConcatenation` and of `configSplit`. -/
def edenAxis (rank : ℕ) (axisValue : ℤ) : ℤ :=
  if rank = 1 then axisValue
  else if rank = 2 then toInt (axisValue + 2)
  else if rank = 3 then
    if axisValue = H_NHWC ∨ axisValue = W_NHWC then axisValue + 1 else axisValue
  else if axisValue = C_NHWC then C_NCHW
  else if axisValue = W_NHWC then W_NCHW
  else if axisValue = H_NHWC then H_NCHW
  else axisValue

/-- `configConcatenation`, the axis of the options. -/
def configConcatenation (model : ClientModel) (androidOperation : ClientOperation) :
    Option ℤ := do
  let axisValue ← getValue model androidOperation (androidOperation.inputs.length - 1)
  return edenAxis (← firstRank model androidOperation) axisValue

/-- The case analysis of `readConcatParams`. -/
def concatParamsAxis (rank : ℕ) (axisValue : ℤ) : ℤ :=
  if rank = 2 then toInt (axisValue + 2)
  else if axisValue = C_NHWC then C_NCHW
  else if axisValue = W_NHWC then W_NCHW
  else if axisValue = H_NHWC then H_NCHW
  else axisValue

/-- `readConcatParams`. -/
def readConcatParams (model : ClientModel) (androidOperation : ClientOperation) :
    Option ℤ := do
  let axisValue ← getValue model androidOperation (androidOperation.inputs.length - 1)
  return concatParamsAxis (← firstRank model androidOperation) axisValue

structure SplitOptions where
  axis : ℤ
  num_outputs : ℤ
  deriving DecidableEq

/-- The axis that `configSplit` goes on with, counted from the front. -/
def frontAxis (rank : ℕ) (axis : ℤ) : ℤ := if axis < 0 then toInt (axis + rank) else axis

/-- `configSplit`; the inner `none` is an operand of options that is not made. -/
def configSplit (model : ClientModel) (androidOperation : ClientOperation) :
    Option (Option SplitOptions) := do
  let axis ← getValue model androidOperation 1
  let num_splits ← getValue model androidOperation 2
  let rank ← firstRank model androidOperation
  let axis := frontAxis rank axis
  let options : SplitOptions := { axis := edenAxis rank axis, num_outputs := num_splits }
  if ¬ (-(rank : ℤ) ≤ axis ∧ axis < rank) then return none else return some options

/-! ## What an axis names -/

namespace EdenDims

/-- The size at a position. -/
def sizeAt (d : EdenDims) : ℤ → Option ℤ
  | 0 => some d.number
  | 1 => some d.channel
  | 2 => some d.height
  | 3 => some d.width
  | _ => none

@[simp] theorem sizeAt_N (d : EdenDims) : d.sizeAt N_NCHW = some d.number := rfl

@[simp] theorem sizeAt_C (d : EdenDims) : d.sizeAt C_NCHW = some d.channel := rfl

@[simp] theorem sizeAt_H (d : EdenDims) : d.sizeAt H_NCHW = some d.height := rfl

@[simp] theorem sizeAt_W (d : EdenDims) : d.sizeAt W_NCHW = some d.width := rfl

/-- The dimensions after a concatenation or a split along an axis has made its size
another. -/
def resize (d : EdenDims) (size : ℤ) : ℤ → EdenDims
  | 0 => { d with number := size }
  | 1 => { d with channel := size }
  | 2 => { d with height := size }
  | 3 => { d with width := size }
  | _ => d

end EdenDims

/-- **An axis of the device names a dimension** when the size of the dimension is there,
whatever the dimensions of the tensor. -/
def Names (rank b : ℕ) (axis : ℤ) : Prop :=
  ∀ dims : List ℕ, dims.length = rank →
    (getEdenDimensions dims).sizeAt axis = (dims[b]?).map fun size : ℕ => toInt size

/-- Along the axis, the size of the dimension changes, and no other dimension's. -/
def ChangesOnly (rank b : ℕ) (axis : ℤ) : Prop :=
  ∀ dims : List ℕ, dims.length = rank → ∀ size : ℤ, ∀ c < rank, ∀ place, Names rank c place →
    ((getEdenDimensions dims).resize size axis).sizeAt place =
      if c = b then some size else (getEdenDimensions dims).sizeAt place

/-- **The translations of an axis agree.** One axis of the device for the three of them,
which names the dimension of the client's axis and along which only that changes. -/
def AxesAgree (gpu npu split : Option ℤ) (rank : ℕ) (a : ℤ) : Prop :=
  ∃ axis : ℤ, gpu = some axis ∧ npu = some axis ∧ split = some axis ∧
    Names rank (if a < 0 then a + rank else a).toNat axis ∧
    ChangesOnly rank (if a < 0 then a + rank else a).toNat axis

/-! ## Positions -/

/-- The position of a dimension on the device. -/
def edenPosition : ℕ → ℕ → ℤ
  | 1, _ => N_NCHW
  | 2, 0 => H_NCHW
  | 2, _ => W_NCHW
  | _, 0 => N_NCHW
  | _, 1 => H_NCHW
  | _, 2 => W_NCHW
  | _, _ => C_NCHW

variable {rank : ℕ}

variable {b : ℕ}

theorem names_edenPosition (hrank : 1 ≤ rank ∧ rank ≤ 4) (hb : b < rank) :
    Names rank b (edenPosition rank b) := by
  intro dims hdims
  subst hdims
  match dims, b with
  | [size], 0 =>
    by_cases hzero : size = 0
    · subst hzero
      simp [getEdenDimensions, edenPosition, toInt]
    · simp [getEdenDimensions, edenPosition, hzero]
  | [_, _], 0 | [_, _], 1 => simp [getEdenDimensions, edenPosition]
  | [_, _, _], 0 | [_, _, _], 1 | [_, _, _], 2 => simp [getEdenDimensions, edenPosition]
  | [_, _, _, _], 0 | [_, _, _, _], 1 | [_, _, _, _], 2 | [_, _, _, _], 3 =>
    simp [getEdenDimensions, edenPosition]
  | _ :: _ :: _ :: _ :: _ :: _, _ =>
    simp only [List.length_cons] at hrank
    omega

/-- The sizes that tell the positions apart. -/
theorem names_unique (hrank : 1 ≤ rank ∧ rank ≤ 4) (hb : b < rank) {axis : ℤ}
    (h : Names rank b axis) : axis = edenPosition rank b := by
  have hplace : ∀ (d : EdenDims) (size : ℤ), d.sizeAt axis = some size →
      axis = 0 ∧ d.number = size ∨ axis = 1 ∧ d.channel = size ∨ axis = 2 ∧ d.height = size ∨
        axis = 3 ∧ d.width = size := by
    intro d size hsize
    unfold EdenDims.sizeAt at hsize
    split at hsize <;> simp_all
  have hsizes := h ((List.range rank).map (· + 2)) (by simp)
  obtain ⟨hlow, hhigh⟩ := hrank
  interval_cases rank <;> interval_cases b <;>
    (rcases hplace _ _ hsizes with ⟨rfl, hsize⟩ | ⟨rfl, hsize⟩ | ⟨rfl, hsize⟩ | ⟨rfl, hsize⟩ <;>
      first
      | rfl
      | exact absurd hsize (by decide))

theorem edenPosition_injective {c : ℕ} (hrank : 1 ≤ rank ∧ rank ≤ 4) (hb : b < rank) (hc : c < rank)
    (h : edenPosition rank c = edenPosition rank b) : c = b := by
  obtain ⟨hlow, hhigh⟩ := hrank
  revert h
  interval_cases rank <;> interval_cases b <;> interval_cases c <;> decide

theorem edenPosition_range (hrank : 1 ≤ rank ∧ rank ≤ 4) (hb : b < rank) :
    0 ≤ edenPosition rank b ∧ edenPosition rank b ≤ 3 := by
  obtain ⟨hlow, hhigh⟩ := hrank
  interval_cases rank <;> interval_cases b <;> decide

theorem EdenDims.sizeAt_resize (d : EdenDims) (size : ℤ) {axis place : ℤ}
    (haxis : 0 ≤ axis ∧ axis ≤ 3) (hplace : 0 ≤ place ∧ place ≤ 3) :
    (d.resize size axis).sizeAt place = if place = axis then some size else d.sizeAt place := by
  obtain ⟨haxis, haxis'⟩ := haxis
  obtain ⟨hplace, hplace'⟩ := hplace
  interval_cases axis <;> interval_cases place <;> rfl

/-- **Along the position of a dimension, only that changes.** -/
theorem changesOnly_edenPosition (hrank : 1 ≤ rank ∧ rank ≤ 4) (hb : b < rank) :
    ChangesOnly rank b (edenPosition rank b) := by
  intro dims _ size c hc place hnames
  obtain rfl := names_unique hrank hc hnames
  rw [EdenDims.sizeAt_resize _ _ (edenPosition_range hrank hb) (edenPosition_range hrank hc)]
  by_cases hcb : c = b
  · rw [if_pos (congrArg _ hcb), if_pos hcb]
  · rw [if_neg fun h => hcb (edenPosition_injective hrank hb hc h), if_neg hcb]

/-! ## The translations -/

/-- An axis counted from the front is translated to the position of its dimension, by either
case analysis. -/
theorem edenAxis_front (hrank : 1 ≤ rank ∧ rank ≤ 4) (hb : b < rank) :
    edenAxis rank b = edenPosition rank b ∧ concatParamsAxis rank b = edenPosition rank b := by
  obtain ⟨hlow, hhigh⟩ := hrank
  interval_cases rank <;> interval_cases b <;> decide

/-- One counted from the back is not, by the first of them. -/
theorem edenAxis_back {a : ℤ} (hrank : 1 ≤ rank ∧ rank ≤ 4) (hlow : -(rank : ℤ) ≤ a)
    (hneg : a < 0) :
    edenAxis rank a ≠ edenPosition rank (a + rank).toNat := by
  obtain ⟨hpos, hhigh⟩ := hrank
  interval_cases rank <;> interval_cases a <;> decide

/-- What `configSplit` gives for a valid axis, of either sign. -/
theorem configSplit_axis {model : ClientModel} {split : ClientOperation} {a num_splits : ℤ}
    (hrank : 1 ≤ rank ∧ rank ≤ 4) (ha : -(rank : ℤ) ≤ a ∧ a < rank)
    (hfirst : firstRank model split = some rank) (hvalue : getValue model split 1 = some a)
    (hsplits : getValue model split 2 = some num_splits) :
    configSplit model split = some (some {
      axis := edenPosition rank (if a < 0 then a + rank else a).toNat
      num_outputs := num_splits }) := by
  have hfront : frontAxis rank a = ((if a < 0 then a + rank else a).toNat : ℤ) := by
    unfold frontAxis
    split
    · rw [toInt_of_lt (by omega) (by omega)]
      omega
    · omega
  have hlt : (if a < 0 then a + rank else a).toNat < rank := by
    split <;> omega
  generalize (if a < 0 then a + rank else a).toNat = b at hfront hlt
  have hin : ¬ ¬ (-(rank : ℤ) ≤ b ∧ (b : ℤ) < rank) := not_not.mpr ⟨by omega, by omega⟩
  simp only [configSplit, hvalue, hsplits, hfirst, hfront, if_neg hin,
    (edenAxis_front hrank hlt).1, bind_eq_bind, bind_some, pure_def]

/-- **The translations of an axis agree**, for a concatenation and a split of inputs of one
rank along one axis, when the axis is counted from the front: only that of a split counts one
from the back. -/
theorem axesAgree_iff {model splitModel : ClientModel} {concat split : ClientOperation}
    {rank : ℕ} {a num_splits : ℤ} (hrank : 1 ≤ rank ∧ rank ≤ 4)
    (ha : -(rank : ℤ) ≤ a ∧ a < rank) (hconcat : firstRank model concat = some rank)
    (hvalue : getValue model concat (concat.inputs.length - 1) = some a)
    (hsplit : firstRank splitModel split = some rank)
    (hsplitValue : getValue splitModel split 1 = some a)
    (hsplits : getValue splitModel split 2 = some num_splits) :
    AxesAgree (configConcatenation model concat) (readConcatParams model concat)
        ((configSplit splitModel split).bind (Option.map SplitOptions.axis)) rank a ↔ 0 ≤ a := by
  have hgpu : configConcatenation model concat = some (edenAxis rank a) := by
    simp only [configConcatenation, hvalue, hconcat, bind_eq_bind, bind_some, pure_def]
  have hnpu : readConcatParams model concat = some (concatParamsAxis rank a) := by
    simp only [readConcatParams, hvalue, hconcat, bind_eq_bind, bind_some, pure_def]
  rw [hgpu, hnpu, configSplit_axis hrank ha hsplit hsplitValue hsplits]
  constructor
  · rintro ⟨axis, hgpu', -, hsplit', -⟩
    by_contra hneg
    simp only [if_pos (not_le.mp hneg), bind_some, map_some, some.injEq] at hsplit' hgpu'
    exact edenAxis_back hrank ha.1 (not_le.mp hneg) (hgpu'.trans hsplit'.symm)
  · intro hpos
    obtain ⟨b, rfl⟩ := Int.eq_ofNat_of_zero_le hpos
    have hb : b < rank := by omega
    have hneg : ¬ ((b : ℤ) < 0) := by omega
    obtain ⟨hfront, hfront'⟩ := edenAxis_front hrank hb
    refine ⟨edenPosition rank b, congrArg some hfront, congrArg some hfront', ?_, ?_, ?_⟩
    · simp only [if_neg hneg, Int.toNat_natCast, bind_some, map_some]
    · rw [if_neg hneg, Int.toNat_natCast]
      exact names_edenPosition hrank hb
    · rw [if_neg hneg, Int.toNat_natCast]
      exact changesOnly_edenPosition hrank hb

/-! ## A tensor of four dimensions -/

/-- A model with two tensors, an axis and a number of splits. -/
def axisModel (axis : ℤ) : ClientModel where
  operands := [
    { type := .tensorFloat32, dimensions := [1, 8, 8, 2], lifetime := .modelInput },
    { type := .tensorFloat32, dimensions := [1, 8, 8, 2], lifetime := .modelInput },
    { type := .int32, dimensions := [], lifetime := .constantCopy, location := { length := 4 } },
    { type := .int32, dimensions := [], lifetime := .constantCopy,
      location := { offset := 4, length := 4 } }]
  operations := []
  inputIndexes := [0, 1]
  outputIndexes := []
  operandValues := LittleEndian.encode 4 (toUInt axis) ++ LittleEndian.encode 4 2

def axisConcat : ClientOperation := { type := .concatenation, inputs := [0, 1, 2], outputs := [] }

def axisSplit : ClientOperation := { type := .split, inputs := [0, 2, 3], outputs := [] }

theorem axesAgree_channel :
    AxesAgree (configConcatenation (axisModel 3) axisConcat)
        (readConcatParams (axisModel 3) axisConcat)
        ((configSplit (axisModel 3) axisSplit).bind (Option.map SplitOptions.axis)) 4 3 ↔
      (0 : ℤ) ≤ 3 :=
  axesAgree_iff (by decide) (by decide) (by decide +kernel) (by decide +kernel)
    (by decide +kernel) (by decide +kernel)
    (by decide +kernel : getValue (axisModel 3) axisSplit 2 = some 2)

/-- The last axis, counted from the back: the concatenation keeps it as it is. -/
theorem not_axesAgree_last :
    configConcatenation (axisModel (-1)) axisConcat = some (-1) ∧
      configSplit (axisModel (-1)) axisSplit = some (some { axis := 1, num_outputs := 2 }) ∧
      ¬ AxesAgree (configConcatenation (axisModel (-1)) axisConcat)
        (readConcatParams (axisModel (-1)) axisConcat)
        ((configSplit (axisModel (-1)) axisSplit).bind (Option.map SplitOptions.axis)) 4 (-1) := by
  have hgpu : configConcatenation (axisModel (-1)) axisConcat = some (-1) := by decide +kernel
  have hsplit : configSplit (axisModel (-1)) axisSplit =
    some (some { axis := 1, num_outputs := 2 }) := by decide +kernel
  refine ⟨hgpu, hsplit, ?_⟩
  rintro ⟨axis, hgpu', -, hsplit', -⟩
  rw [hgpu] at hgpu'
  rw [hsplit] at hsplit'
  cases hgpu'
  exact absurd hsplit' (by decide)

end ExynosVendor.Eden
