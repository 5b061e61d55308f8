import ExynosVendor.Eden.PreparedModel

/-!
# Executing a request

`EdenPreparedModel::execute` and its two siblings check a request and hand it to
the agent, which makes the buffers ready, loads the inputs and hands it to the
scheduler. The scheduler's body is a `do … while (0)`: what leaves it by `break`
is notified behind it, and then the function returns `RET_OK`; what leaves it by
`return` is notified by the caller of the agent.
-/

namespace ExynosVendor.Eden

/-- `ErrorStatus`, as far as the driver uses it. -/
inductive ErrorStatus where
  | none
  | generalFailure
  | invalidArgument
  deriving DecidableEq

/-- What the Eden runtime answers to the calls of one execution, what the device
leaves in the output buffers, and what fresh memory holds. -/
structure Runtime where
  deduceOperandDimensions : ℤ → Bool
  readyToAllocateInputBuffers : ℤ → Bool
  readyToAllocateOutputBuffers : ℤ → Bool
  allocateInputBuffers : ℤ × Option (List EdenBuffer)
  allocateOutputBuffers : ℤ × Option (List EdenBuffer)
  executeRequest : ℤ
  waitFor : ℤ
  /-- The result, and width, height, channel and number, `int32_t` each. -/
  getOutputBufferShape : ℕ → ℤ × ℤ × ℤ × ℤ × ℤ
  /-- The byte of an output buffer, by the buffer's number and its offset. -/
  results : ℕ → ℕ → BitVec 8
  inputOffset : ℤ
  outputOffset : ℤ
  inputHeap : ℕ → ℕ → BitVec 8
  outputHeap : ℕ → ℕ → BitVec 8

/-- `width * height * channel * number`, an `int32_t`. -/
def Runtime.totalSize (rt : Runtime) (idx : ℕ) : ℤ :=
  let shape := (rt.getOutputBufferShape idx).2
  toInt (shape.1 * shape.2.1 * shape.2.2.1 * shape.2.2.2)

/-! ## The checks on the outputs' dimensions -/

/-- The dimensions of the model's outputs. -/
def Model.outputDimensions (model : Model) : Option (List (List ℕ)) :=
  (List.range model.outputIndexes.length).mapM fun idx =>
    (model.operandAt model.outputIndexes idx).map Operand.dimensions

/-- The sum of all dimensions, as an `int32_t`; only whether it is zero counts. -/
def outputSizeSum (outputs : List (List ℕ)) : ℕ :=
  outputs.foldl (fun sum dims => dims.foldl (fun sum d => (sum + d) % 2 ^ 32) sum) 0

/-- The product of an output's dimensions, in the same way. -/
def outputSizeMul (dims : List ℕ) : ℕ := dims.foldl (fun mul d => mul * d % 2 ^ 32) 1

def skipZeroSize (outputs : List (List ℕ)) : Bool :=
  outputs.all fun dims => outputSizeMul dims = 0

/-! ## Inputs and outputs -/

/-- The offset for the elements of a `QUANT8` tensor on the NPU. -/
def npuOffset (hwPreference : HwPreference) (dataType : DataType) (offset : ℤ) : BitVec 8 :=
  if dataType = .quant8 ∧ hwPreference = .npuOnly then BitVec.ofInt 8 offset else 0

/-- `preProcessOnInputs` on the input buffer `idx`. -/
def preProcessOnInputs (rt : Runtime) (hwPreference : HwPreference) (operand : Operand)
    (idx : ℕ) (buffer : EdenBuffer) : Option EdenBuffer :=
  let dataType := getDataType operand.type
  match buffer.addr with
  | none => some buffer
  | some bytes =>
      (convertDataLayoutFromNHWCToNCHW (getEdenDimensions operand.dimensions) dataType
        (npuOffset hwPreference dataType rt.inputOffset) (rt.inputHeap idx) bytes 0
        buffer.size).map fun bytes => { buffer with addr := some bytes }

/-- The loop "Convert input data layout", from the buffer `idx` on. -/
def convertInputs (rt : Runtime) (pm : EdenPreparedModel) :
    ℕ → List EdenBuffer → Option (List EdenBuffer)
  | _, [] => some []
  | idx, buffer :: buffers =>
      (pm.model.operandAt pm.model.inputIndexes idx).bind fun operand =>
        (preProcessOnInputs rt pm.hwPreference operand idx buffer).bind fun buffer =>
          (convertInputs rt pm (idx + 1) buffers).map (buffer :: ·)

/-- Which the GPU does without. -/
def layOutInputs (rt : Runtime) (pm : EdenPreparedModel) : Option EdenPreparedModel :=
  if pm.hwPreference = .gpuOnly then some pm
  else
    (convertInputs rt pm 0 (pm.inputAddr.getD [])).map fun buffers =>
      { pm with inputAddr := pm.inputAddr.map fun _ => buffers }

/-- The loop that maps the pools of the outputs: `vecMappedPtr` has an address for
each output that has a value. -/
def mapOutputs : ExecuteMemory → List MappedPtr → List RequestArgument →
    Option (ℤ × List MappedPtr × ExecuteMemory)
  | m, vecMappedPtr, [] => some (RET_OK, vecMappedPtr, m)
  | m, vecMappedPtr, arg :: args =>
      if arg.hasNoValue then mapOutputs m vecMappedPtr args
      else
        (loadHidlMem m arg.poolIndex true).bind fun mapped =>
          if mapped.1 ≠ RET_OK then some (mapped.1, vecMappedPtr, mapped.2.2)
          else mapOutputs mapped.2.2 (vecMappedPtr ++ [mapped.2.1]) args

/-- The operand whose dimensions an output is converted by: its own, or the input's
of a model that is one reshape to a single dimension. -/
def EdenPreparedModel.layoutOperand (pm : EdenPreparedModel) (idx : ℕ) : Option Operand :=
  (pm.model.operandAt pm.model.outputIndexes idx).bind fun operand =>
    (pm.model.operations[0]?).bind fun operation =>
      if operation.type = ANEURALNETWORKS_RESHAPE ∧ pm.model.operations.length = 1 ∧
          operand.dimensions.length = 1 then
        pm.model.operandAt pm.model.inputIndexes 0
      else some operand

/-- The bytes of an output buffer after the execution. -/
def Runtime.outputBytes (rt : Runtime) (pm : EdenPreparedModel) (idx : ℕ) :
    Option (List (BitVec 8)) :=
  pm.outputAddr.bind fun outputBuffers => (outputBuffers[idx]?).bind fun buffer =>
    buffer.addr.map fun bytes => (List.range bytes.length).map (rt.results idx)

/-- `postProcessOnOutputs` at an address of the client's memory. -/
def postProcessOnOutputs (rt : Runtime) (pm : EdenPreparedModel) (operand : Operand) (idx : ℕ)
    (m : ExecuteMemory) (ptr : MappedPtr) (arg : RequestArgument) : Option ExecuteMemory :=
  let dataType := getDataType operand.type
  (m.object ptr).bind fun memory =>
    (convertDataLayoutFromNCHWToNHWC (getEdenDimensions operand.dimensions) dataType
      (npuOffset pm.hwPreference dataType rt.outputOffset) (rt.outputHeap idx) memory
      arg.offset arg.length).map (m.update ptr)

/-- The copy of the output `idx` to an address, and its conversion there. -/
def copyOutput (rt : Runtime) (pm : EdenPreparedModel) (m : ExecuteMemory) (ptr : MappedPtr)
    (idx : ℕ) (arg : RequestArgument) : Option ExecuteMemory :=
  (rt.outputBytes pm idx).bind fun bytes =>
    (Block.load bytes 0 arg.length).bind fun data =>
      (m.write ptr arg.offset data).bind fun m =>
        if pm.hwPreference = .gpuOnly then some m
        else (pm.layoutOperand idx).bind fun operand =>
          postProcessOnOutputs rt pm operand idx m ptr arg

/-- The client's memory as the loop over the outputs leaves it, and which output it
has copied to which address. -/
structure Copied where
  memory : ExecuteMemory
  copies : List (ℕ × MappedPtr)

/-- The loop that copies the outputs, from the output `idx` on. -/
def copyOutputs (rt : Runtime) (pm : EdenPreparedModel) (vecMappedPtr : List MappedPtr) :
    Copied → ℕ → List RequestArgument → Option (ℤ × Copied)
  | c, _, [] => some (RET_OK, c)
  | c, idx, arg :: args =>
      if (rt.getOutputBufferShape idx).1 ≠ RET_OK then
        some ((rt.getOutputBufferShape idx).1, c)
      else if rt.totalSize idx = 0 then copyOutputs rt pm vecMappedPtr c (idx + 1) args
      else if arg.hasNoValue then copyOutputs rt pm vecMappedPtr c (idx + 1) args
      else
        -- the addresses are those of the outputs with a value, `idx` counts them all
        (vecMappedPtr[idx]?).bind fun mappedPtr =>
          if mappedPtr = .null then some (FAIL_ON_EDEN_EXECUTE_REQ, c)
          else
            (copyOutput rt pm c.memory mappedPtr idx arg).bind fun m =>
              copyOutputs rt pm vecMappedPtr ⟨m, c.copies ++ [(idx, mappedPtr)]⟩ (idx + 1) args

/-! ## The scheduler -/

/-- How the body of the scheduler's function is left. -/
inductive Exit where
  | broke (retCode : ℤ)
  | returned (ret : ℤ)
  deriving DecidableEq

/-- The part of the body from `ExecuteRequest` on. -/
def executeOnEden (rt : Runtime) (pm : EdenPreparedModel) (request : Request)
    (m : ExecuteMemory) : Option (Exit × Copied) :=
  if rt.executeRequest ≠ RET_OK then
    some (.returned FAIL_ON_EDEN_EXECUTE_REQ, ⟨m, []⟩)
  else
    (mapOutputs m [] request.outputs).bind fun mapped =>
      if mapped.1 ≠ RET_OK then some (.returned mapped.1, ⟨mapped.2.2, []⟩)
      else if rt.waitFor < 0 then some (.broke FAIL_ON_EDEN_EXECUTE_REQ, ⟨mapped.2.2, []⟩)
      else
        (copyOutputs rt pm mapped.2.1 ⟨mapped.2.2, []⟩ 0 request.outputs).map fun copied =>
          if copied.1 ≠ RET_OK then (.returned copied.1, copied.2)
          else (.broke RET_OK, copied.2)

/-- The body of `requestOneExecutionInAsyncBase`. -/
def requestBody (rt : Runtime) (pm : EdenPreparedModel) (request : Request)
    (m : ExecuteMemory) : Option (Exit × EdenPreparedModel × Copied) :=
  pm.model.outputDimensions.bind fun outputs =>
    if outputSizeSum outputs = 0 then some (.broke INVALID_PARAMS, pm, ⟨m, []⟩)
    else if skipZeroSize outputs then some (.broke RET_OK, pm, ⟨m, []⟩)
    else if request.outputs.length ≠ pm.outputNumOfBuffers then
      some (.broke INVALID_PARAMS, pm, ⟨m, []⟩)
    else
      (layOutInputs rt pm).bind fun pm =>
        (executeOnEden rt pm request m).map fun executed => (executed.1, pm, executed.2)

/-- What a call leaves: its result, the statuses that the callback was invoked with
in turn, the prepared model, and the client's memory with the copies made. -/
structure Outcome where
  ret : ℤ
  notified : List ErrorStatus
  pm : EdenPreparedModel
  copied : Copied

/-- `requestOneExecutionInAsyncBase`, for a callback that is not `NULL`. -/
def requestOneExecutionInAsyncBase (rt : Runtime) (pm : EdenPreparedModel) (request : Request)
    (m : ExecuteMemory) : Option Outcome :=
  (requestBody rt pm request m).map fun executed =>
    match executed with
    | (.broke retCode, pm, copied) =>
        ⟨RET_OK, [if retCode = RET_OK then .none else .generalFailure], pm, copied⟩
    | (.returned ret, pm, copied) => ⟨ret, [], pm, copied⟩

/-! ## The agent -/

namespace EdenPreparedModel

variable (pm : EdenPreparedModel)

/-- The loop of `resolveUnknownDimensions` over the inputs: whether none is left
without dimensions. The dimensions are collected in an array of four. -/
def resolveInputs : ℕ → List RequestArgument → Option Bool
  | _, [] => some true
  | idx, arg :: args =>
      if arg.hasNoValue then resolveInputs (idx + 1) args
      else
        (pm.edenOperandAt pm.model.inputIndexes idx).bind fun
          | none => resolveInputs (idx + 1) args
          | some _ =>
              if 4 < arg.dimensions.length then none
              else if arg.dimensions.length = 0 then
                (resolveInputs (idx + 1) args).map fun _ => false
              else resolveInputs (idx + 1) args

/-- And over the outputs, which ends at the first whose size is not deduced. -/
def resolveOutputs (rt : Runtime) : ℕ → List RequestArgument → Option Bool
  | _, [] => some true
  | idx, arg :: args =>
      (pm.edenOperandAt pm.model.outputIndexes idx).bind fun
        | none => resolveOutputs rt (idx + 1) args
        | some edenOperandIdx =>
            if arg.dimensions.length = 0 ∨ 0 ∈ arg.dimensions then
              if rt.deduceOperandDimensions edenOperandIdx then resolveOutputs rt (idx + 1) args
              else some false
            else if 4 < arg.dimensions.length then none
            else resolveOutputs rt (idx + 1) args

def resolveUnknownDimensions (rt : Runtime) (request : Request) :
    Option (ℤ × EdenPreparedModel) :=
  (if pm.needInputBuffers then (pm.resolveInputs 0 request.inputs).map (!·)
    else some false).bind fun needInputBuffers =>
      (if pm.needOutputBuffers then (pm.resolveOutputs rt 0 request.outputs).map (!·)
        else some false).map fun needOutputBuffers =>
          (RET_OK, { pm with
            needInputBuffers := needInputBuffers, needOutputBuffers := needOutputBuffers })

/-- `readyToAllocateInputBuffers` and `readyToAllocateOutputBuffers`. -/
def readyToAllocate (ready : ℤ → Bool) (indexes : List ℕ) :
    ℕ → List RequestArgument → Option Bool
  | _, [] => some true
  | idx, arg :: args =>
      (pm.edenOperandAt indexes idx).bind fun
        | none => readyToAllocate ready indexes (idx + 1) args
        | some edenOperandIdx =>
            if arg.hasNoValue ∨ ready edenOperandIdx then
              readyToAllocate ready indexes (idx + 1) args
            else some false

/-- The part of `executeBaseOnNNAgent` that makes sure of the input buffers. -/
def allocateInputBuffers (rt : Runtime) (request : Request) : Option (ℤ × EdenPreparedModel) :=
  if pm.needInputBuffers then
    (pm.readyToAllocate rt.readyToAllocateInputBuffers pm.model.inputIndexes 0
      request.inputs).map fun ready =>
        if ready then
          if rt.allocateInputBuffers.1 ≠ RET_OK then (rt.allocateInputBuffers.1, pm)
          else
            (RET_OK, { pm with
              inputAddr := rt.allocateInputBuffers.2
              needInputBuffers := rt.allocateInputBuffers.2.isNone })
        else (FAIL_TO_ALLOCATE_INPUT_BUFFERS_ON_EXECUTE, pm)
  else some (RET_OK, pm)

/-- And of the output buffers. -/
def allocateOutputBuffers (rt : Runtime) (request : Request) : Option (ℤ × EdenPreparedModel) :=
  if pm.needOutputBuffers then
    (pm.readyToAllocate rt.readyToAllocateOutputBuffers pm.model.outputIndexes 0
      request.outputs).map fun ready =>
        if ready then
          if rt.allocateOutputBuffers.1 ≠ RET_OK then (rt.allocateOutputBuffers.1, pm)
          else
            (RET_OK, { pm with
              outputAddr := rt.allocateOutputBuffers.2
              needOutputBuffers := rt.allocateOutputBuffers.2.isNone })
        else (FAIL_TO_ALLOCATE_OUTPUT_BUFFERS_ON_EXECUTE, pm)
  else some (RET_OK, pm)

/-- One thing after the other, each only if the one before returned `RET_OK`. -/
def andThen (first : Option (ℤ × EdenPreparedModel))
    (second : EdenPreparedModel → Option (ℤ × EdenPreparedModel)) :
    Option (ℤ × EdenPreparedModel) :=
  first.bind fun done => if done.1 ≠ RET_OK then some done else second done.2

/-- `executeBaseOnNNAgent` up to the input data. -/
def makeReady (rt : Runtime) (request : Request) : Option (ℤ × EdenPreparedModel) :=
  andThen
    (andThen
      ((pm.resolveUnknownDimensions rt request).map fun resolved =>
        if resolved.1 ≠ RET_OK then (FAIL_TO_RESOLVE_UNKNOWN_DIMENSIONS, resolved.2)
        else resolved)
      fun pm => pm.allocateInputBuffers rt request)
    fun pm => pm.allocateOutputBuffers rt request

/-- `executeBaseOnNNAgent` up to the scheduler. -/
def prepare (rt : Runtime) (request : Request) :
    Option (ℤ × EdenPreparedModel × ExecuteMemory) :=
  (pm.makeReady rt request).bind fun ready =>
    if ready.1 ≠ RET_OK then some (ready.1, ready.2, ⟨request.pools, []⟩)
    else ready.2.loadInputData request

def executeBaseOnNNAgent (rt : Runtime) (request : Request) : Option Outcome :=
  (pm.prepare rt request).bind fun prepared =>
    if prepared.1 ≠ RET_OK then some ⟨prepared.1, [], prepared.2.1, prepared.2.2, []⟩
    else requestOneExecutionInAsyncBase rt prepared.2.1 request prepared.2.2

/-- `NNAgent::execute` and `NNAgent::executeSynchronously`. -/
def executeOnNNAgent (validateRequest : Request → Model → Bool) (rt : Runtime)
    (request : Request) : Option Outcome :=
  if validateRequest request pm.model then pm.executeBaseOnNNAgent rt request
  else some ⟨INVALID_PARAMS, [], pm, ⟨request.pools, []⟩, []⟩

/-! ## The entry points -/

/-- What an entry point has in common with its siblings: a request that is refused,
and one whose execution is, is notified here. -/
def executeRequest (validateRequest : Request → Model → Bool) (rt : Runtime)
    (request : Request) : Option (Bool × Outcome) :=
  let refused : Outcome := ⟨RET_OK, [.invalidArgument], pm, ⟨request.pools, []⟩, []⟩
  if validateRequest request pm.model then
    (verifyDimension request pm.model).bind fun verified =>
      if verified then
        (pm.executeOnNNAgent validateRequest rt request).map fun outcome =>
          if outcome.ret ≠ RET_OK then
            (false, { outcome with notified := outcome.notified ++ [.invalidArgument] })
          else (true, outcome)
      else some (false, refused)
  else some (false, refused)

/-- `EdenPreparedModel::execute` with a callback, or with `NULL`: the status that is
returned, and what the call leaves. -/
def execute (validateRequest : Request → Model → Bool) (rt : Runtime) (request : Request)
    (callback : Bool) : Option (ErrorStatus × Outcome) :=
  if callback then
    (pm.executeRequest validateRequest rt request).map fun executed =>
      (if executed.1 then .none else .invalidArgument, executed.2)
  else some (.invalidArgument, ⟨RET_OK, [], pm, ⟨request.pools, []⟩, []⟩)

def execute_1_2 (validateRequest : Request → Model → Bool) (rt : Runtime) (request : Request)
    (callback : Bool) : Option (ErrorStatus × Outcome) :=
  pm.execute validateRequest rt request callback

/-- `EdenPreparedModel::executeSynchronously`, which returns nothing and whose
callback is never `NULL`. -/
def executeSynchronously (validateRequest : Request → Model → Bool) (rt : Runtime)
    (request : Request) : Option Outcome :=
  (pm.executeRequest validateRequest rt request).map Prod.snd

end EdenPreparedModel

end ExynosVendor.Eden
