import ExynosVendor.Eden.Axis

/-!
# Values that change with the layout

The paddings of `PAD` and `PAD_V2` and the begin, end and strides of `STRIDED_SLICE` are
values by axis, and `adjustOperandDims` puts them in the order of the device's axes when it
converts the operation that reads them, through `extendRankToFour` for the latter.

The operands are those of the client's model with the same index: `getEdenOperandIdx` makes
one of the device's for each the first time an operation names it.
-/

namespace ExynosVendor.Eden

/-- Where a conversion ends early: outside of an object, or with a status. -/
inductive Stop where
  | fault
  | returned (status : ℤ)
  deriving DecidableEq

/-- An element that the code takes to be there. -/
def elementAt {α : Type} (l : List α) (idx : ℕ) : Except Stop α :=
  match l[idx]? with
  | some a => .ok a
  | none => .error .fault

@[simp] theorem elementAt_eq_ok {α : Type} {l : List α} {idx : ℕ} {a : α} :
    elementAt l idx = .ok a ↔ l[idx]? = some a := by
  unfold elementAt
  cases l[idx]? <;> simp

def NO_REQUIRED_OPTION_OPERAND : ℤ := 6

namespace ValueRewrites

/-- An operand of the device: the words of its buffer, or a null pointer, and its shape. -/
structure EdenOperand where
  buffer : Option (List ℤ)
  numOfDims : ℤ
  dims : EdenDims
  deriving DecidableEq

structure StridedSliceOptions where
  beginMask : ℤ
  endMask : ℤ
  ellipsisMask : ℤ
  newAxisMask : ℤ
  shrinkAxisMask : ℤ
  deriving DecidableEq

/-- The operands made so far, and the operations that were added, with their options. -/
structure Rewriting where
  operands : ℕ → Option EdenOperand
  operations : List (ClientOperation × Option StridedSliceOptions)

/-! ## Operands -/

/-- The words of a constant's bytes. -/
def words (bytes : List (BitVec 8)) : List ℤ :=
  (List.range (bytes.length / 4)).map fun i => toInt (LittleEndian.decode (RowMajor.cell 4 bytes i))

/-- The buffer of a new operand: the value of a constant, and nothing otherwise. -/
def constantWords (model : ClientModel) (operand : ClientOperand) : Option (List ℤ) :=
  match operand.lifetime with
  | .constantCopy =>
      (Block.load model.operandValues operand.location.offset operand.location.length).map words
  | .constantReference => do
      let pool ← model.pools[operand.location.poolIndex]?
      (Block.load pool.bytes operand.location.offset operand.location.length).map words
  | _ => none

/-- The `numOfDims` that `getEdenDimensions` gives. -/
def numOfDims (dimensions : List ℕ) : ℤ :=
  match dimensions with
  | [] => 0
  | [_] => 1
  | _ => 4

/-- `createEdenOperand`. -/
def createEdenOperand (model : ClientModel) (androidOperand : ClientOperand) : EdenOperand where
  buffer := constantWords model androidOperand
  numOfDims := numOfDims androidOperand.dimensions
  dims := getEdenDimensions androidOperand.dimensions

/-- `getEdenOperandIdx`, after which there is an operand. -/
def getEdenOperand (model : ClientModel) (androidOperandIdx : ℕ) (c : Rewriting) :
    Except Stop Rewriting :=
  match c.operands androidOperandIdx with
  | some _ => .ok c
  | none => do
      let androidOperand ← elementAt model.operands androidOperandIdx
      .ok { c with operands := Function.update c.operands androidOperandIdx
                     (some (createEdenOperand model androidOperand)) }

/-- The operands of an operation, in the order of its inputs and outputs. -/
def getEdenOperands (model : ClientModel) : List ℕ → Rewriting → Except Stop Rewriting
  | [], c => .ok c
  | androidOperandIdx :: rest, c => do
      let c ← getEdenOperand model androidOperandIdx c
      getEdenOperands model rest c

/-- `operands.at`. -/
def operandAt (c : Rewriting) (operandIdx : ℕ) : Except Stop EdenOperand :=
  match c.operands operandIdx with
  | some operand => .ok operand
  | none => .error .fault

def setOperand (c : Rewriting) (operandIdx : ℕ) (operand : EdenOperand) : Rewriting :=
  { c with operands := Function.update c.operands operandIdx (some operand) }

/-- The word `i` of a buffer. -/
def wordAt (buffer : Option (List ℤ)) (i : ℕ) : Except Stop ℤ :=
  match buffer.bind (·[i]?) with
  | some word => .ok word
  | none => .error .fault

/-! ## Strided slices -/

/-- `(mask >> i) & 0x01`. -/
def bit (mask : ℤ) (i : ℕ) : ℤ := mask / 2 ^ i % 2

/-- `extendRankToFour`, the operand and the mask. -/
def extendRankToFour (operand : EdenOperand) (rank defaultValue mask : ℤ) :
    Except Stop (EdenOperand × ℤ) := do
  let value := wordAt operand.buffer
  let newDims ←
    if rank = 1 then do
      .ok [← value 0, defaultValue, defaultValue, defaultValue]
    else if rank = 2 then do
      .ok [defaultValue, defaultValue, ← value 0, ← value 1]
    else if rank = 3 then do
      .ok [← value 0, defaultValue, ← value 1, ← value 2]
    else do
      .ok [← value 0, ← value 3, ← value 1, ← value 2]
  -- `bit << N_NCHW | bit << C_NCHW | bit << H_NCHW | bit << W_NCHW`
  let mask :=
    if rank = 1 then bit mask 0
    else if rank = 2 then 4 * bit mask 0 + 8 * bit mask 1
    else if rank = 3 then bit mask 0 + 4 * bit mask 1 + 8 * bit mask 2
    else bit mask 0 + 2 * bit mask 3 + 4 * bit mask 1 + 8 * bit mask 2
  .ok ({ operand with buffer := some newDims }, mask)

/-- The rank of one of the three operands is extended, and its shape. -/
def extendOperand (operandIdx : ℕ) (defaultValue mask : ℤ) (c : Rewriting) :
    Except Stop (Rewriting × ℤ) := do
  let operand ← operandAt c operandIdx
  let (operand, mask) ← extendRankToFour operand operand.dims.number defaultValue mask
  .ok (setOperand c operandIdx { operand with dims := { operand.dims with number := 4 } }, mask)

/-- The case `EDEN_OP_STRIDED_SLICE` of `adjustOperandDims`. -/
def adjustStridedSlice (beginIdx endIdx stridesIdx : ℕ) (options : StridedSliceOptions)
    (c : Rewriting) : Except Stop (Rewriting × StridedSliceOptions) := do
  let operandForBegin ← operandAt c beginIdx
  let operandForEnd ← operandAt c endIdx
  let operandForStrides ← operandAt c stridesIdx
  if operandForBegin.numOfDims = 0 ∨ operandForEnd.numOfDims = 0 ∨
      operandForStrides.numOfDims = 0 then .ok (c, options)
  else
    let (c, beginMask) ← extendOperand beginIdx 0 options.beginMask c
    let (c, endMask) ← extendOperand endIdx 1 options.endMask c
    let (c, shrinkAxisMask) ← extendOperand stridesIdx 1 options.shrinkAxisMask c
    .ok (c, { options with beginMask, endMask, shrinkAxisMask })

/-- An element that the source reads from the values of the model. -/
def valueAt (model : ClientModel) (operation : ClientOperation) (op_id : ℕ) : Except Stop ℤ :=
  match getValue model operation op_id with
  | some value => .ok value
  | none => .error .fault

/-- `configStridedSlice`. -/
def configStridedSlice (model : ClientModel) (operation : ClientOperation) :
    Except Stop StridedSliceOptions :=
  if operation.inputs.length ≠ 7 then .error (.returned NO_REQUIRED_OPTION_OPERAND)
  else do
    .ok {
      beginMask := ← valueAt model operation 4
      endMask := ← valueAt model operation 5
      ellipsisMask := 0
      newAxisMask := 0
      shrinkAxisMask := ← valueAt model operation 6 }

/-! ## Paddings -/

/-- The rows of the 4x2 table, each from the pair of an axis or zero. -/
def paddingTable (buffer : Option (List ℤ)) (rows : List (Option ℕ)) : Except Stop (List ℤ) :=
  match rows with
  | [] => .ok []
  | none :: rows => do .ok (0 :: 0 :: (← paddingTable buffer rows))
  | some axis :: rows => do
      let front ← wordAt buffer (2 * axis)
      let back ← wordAt buffer (2 * axis + 1)
      .ok (front :: back :: (← paddingTable buffer rows))

/-- The axis of the paddings that each row of the table is of, by the rank. -/
def paddingRows : ℕ → List (Option ℕ)
  | 1 => [none, none, none, some 0]
  | 2 => [none, none, some 0, some 1]
  | 3 => [some 0, none, some 1, some 2]
  | 4 => [some 0, some 3, some 1, some 2]
  | _ => [none, none, none, none]

/-- The case of rank 1 moves the size, too. -/
def numberToWidth (dims : EdenDims) : EdenDims := { dims with width := dims.number, number := 1 }

/-- The shape of an input or output of the operation. -/
def adjustPadShape (dim operandIdx : ℕ) (c : Rewriting) : Except Stop Rewriting := do
  let operand ← operandAt c operandIdx
  .ok (setOperand c operandIdx { operand with
    numOfDims := 4, dims := if dim = 1 then numberToWidth operand.dims else operand.dims })

/-- The shape of the value to pad with, if there is one. -/
def adjustPadValue : List ℕ → Rewriting → Except Stop Rewriting
  | [], c => .ok c
  | padvalueIdx :: _, c => do
      let operand ← operandAt c padvalueIdx
      .ok (setOperand c padvalueIdx { operand with numOfDims := 1, dims := ⟨1, 1, 1, 1⟩ })

/-- The case `EDEN_OP_PAD` of `adjustOperandDims`. -/
def adjustPad (model : ClientModel) (inputIdx paddingsIdx outputIdx : ℕ) (padvalueIdx : List ℕ)
    (c : Rewriting) : Except Stop Rewriting := do
  let c ← adjustPadValue padvalueIdx c
  let paddingsOperand ← operandAt c paddingsIdx
  let bufferAddr := paddingsOperand.buffer
  let androidOperand ← elementAt model.operands inputIdx
  let dim := androidOperand.dimensions.length
  let c ← adjustPadShape dim inputIdx c
  let c ← adjustPadShape dim outputIdx c
  let paddingValue ← paddingTable bufferAddr (paddingRows dim)
  let paddingsOperand ← operandAt c paddingsIdx
  .ok (setOperand c paddingsIdx { paddingsOperand with
    buffer := some paddingValue
    numOfDims := 4
    dims := { paddingsOperand.dims with height := 4, width := 2 } })

/-! ## Operations -/

/-- `createEdenOperation`, of the operations whose values are rewritten. -/
def createEdenOperation (model : ClientModel) (operation : ClientOperation) (c : Rewriting) :
    Except Stop Rewriting :=
  match operation.type, operation.inputs, operation.outputs with
  | .pad, inputIdx :: paddingsIdx :: _, outputIdx :: _ => do
      let c ← getEdenOperands model [inputIdx, paddingsIdx, outputIdx] c
      let c ← adjustPad model inputIdx paddingsIdx outputIdx [] c
      .ok { c with operations := c.operations ++ [(operation, none)] }
  | .padV2, inputIdx :: paddingsIdx :: padvalueIdx :: _, outputIdx :: _ => do
      let c ← getEdenOperands model [inputIdx, paddingsIdx, padvalueIdx, outputIdx] c
      let c ← adjustPad model inputIdx paddingsIdx outputIdx [padvalueIdx] c
      .ok { c with operations := c.operations ++ [(operation, none)] }
  | .stridedSlice, inputIdx :: beginIdx :: endIdx :: stridesIdx :: _, outputIdx :: _ => do
      let options ← configStridedSlice model operation
      let c ← getEdenOperands model [inputIdx, beginIdx, endIdx, stridesIdx, outputIdx] c
      let (c, options) ← adjustStridedSlice beginIdx endIdx stridesIdx options c
      .ok { c with operations := c.operations ++ [(operation, some options)] }
  | _, _, _ => .error .fault

/-- **All operations are converted**, in their order. -/
def convertOperations (model : ClientModel) : List ClientOperation → Rewriting →
    Except Stop Rewriting
  | [], c => .ok c
  | operation :: operations, c => do
      let c ← createEdenOperation model operation c
      convertOperations model operations c

/-- Before the first operation. -/
def Rewriting.start : Rewriting := ⟨fun _ => none, []⟩

end ValueRewrites

end ExynosVendor.Eden
