import ExynosVendor.Eden.DataLayout

/-!
# Prepared models and requests of the NN driver

A request names the bytes of its arguments by a pool, an offset and a length;
`BufferInfoOnExecute` maps the pools into the driver. A prepared model has the
client's model and the buffers that the Eden runtime allocated for the inputs and
outputs of the converted one. `loadInputData` copies the arguments of a request
into the input buffers.

A function that leaves an object, reads a null pointer or throws has the value
`none`. What the Eden runtime answers and what a fresh array of the heap holds is
a parameter.
-/

namespace ExynosVendor.Eden

open Option

/-! ## Return codes -/

def RET_OK : ℤ := 0
def INVALID_PARAMS : ℤ := 1
def SUPPORTED_HIDL_MEMORY_TYPE : ℤ := 4
def BUFFER_ON_OPTION_IS_NULL : ℤ := 13
def FAIL_TO_ALLOCATE_INPUT_BUFFERS_ON_EXECUTE : ℤ := 25
def FAIL_TO_ALLOCATE_OUTPUT_BUFFERS_ON_EXECUTE : ℤ := 26
def FAIL_TO_RESOLVE_UNKNOWN_DIMENSIONS : ℤ := 27
def FAIL_ON_EDEN_EXECUTE_REQ : ℤ := 31

/-! ## Pools -/

/-- What mapping a pool gives: its memory, an `IMemory` without a pointer, or
nothing, which is a null `IMemory` of `mapMemory` and the `MAP_FAILED` of `mmap`. -/
inductive Mapping where
  | memory
  | null
  | failed
  deriving DecidableEq

/-- A pool of a request, with what mapping it gives, whether it may be written, and
what it holds. -/
structure HidlMemory where
  name : String
  mapping : Mapping
  writable : Bool
  bytes : List (BitVec 8)
  deriving DecidableEq

/-- Where a `char*` of the driver points to: nowhere, to a pool, or to a copy of
one that only the driver sees. -/
inductive MappedPtr where
  | null
  | failed
  | pool (poolIndex : ℕ)
  | copy (idx : ℕ)
  deriving DecidableEq

/-- The pools of the request and the copies of the `BufferInfoOnExecute`. -/
structure ExecuteMemory where
  pools : List HidlMemory
  copies : List (List (BitVec 8))
  deriving DecidableEq

namespace ExecuteMemory

variable (m : ExecuteMemory)

/-- The bytes behind a pointer. -/
def object : MappedPtr → Option (List (BitVec 8))
  | .null => none
  | .failed => none
  | .pool poolIndex => (m.pools[poolIndex]?).map HidlMemory.bytes
  | .copy idx => m.copies[idx]?

/-- The memory with other bytes behind a pointer. -/
def update : MappedPtr → List (BitVec 8) → ExecuteMemory
  | .null, _ => m
  | .failed, _ => m
  | .pool poolIndex, bytes =>
      { m with pools := m.pools.modify poolIndex fun memory => { memory with bytes := bytes } }
  | .copy idx, bytes => { m with copies := m.copies.set idx bytes }

/-- `memcpy` from a mapped address. -/
def read (ptr : MappedPtr) (offset length : ℕ) : Option (List (BitVec 8)) :=
  (m.object ptr).bind fun bytes => Block.load bytes offset length

/-- `memcpy` to a mapped address. -/
def write (ptr : MappedPtr) (offset : ℕ) (data : List (BitVec 8)) : Option ExecuteMemory :=
  (m.object ptr).bind fun bytes => (Block.store bytes offset data).map (m.update ptr)

end ExecuteMemory

/-- `getVirtualAddressOnPool` and `loadHidlMem`: the address of a pool. A pool of
type `mmap_fd` that cannot be written is copied for who wants to write. -/
def loadHidlMem (m : ExecuteMemory) (poolIndex : ℕ) (needToWrite : Bool) :
    Option (ℤ × MappedPtr × ExecuteMemory) :=
  (m.pools[poolIndex]?).bind fun memory =>
    if memory.name = "ashmem" then
      match memory.mapping with
      | .memory => some (RET_OK, .pool poolIndex, m)
      | .null => some (RET_OK, .null, m)
      | .failed => none
    else if memory.name = "mmap_fd" then
      if needToWrite = false ∨ memory.writable = true then
        match memory.mapping with
        | .memory => some (RET_OK, .pool poolIndex, m)
        | _ => some (RET_OK, .failed, m)
      else
        match memory.mapping with
        | .memory =>
            some (RET_OK, .copy m.copies.length, { m with copies := m.copies ++ [memory.bytes] })
        | _ => none
    else some (SUPPORTED_HIDL_MEMORY_TYPE, .null, m)

/-! ## Models and requests -/

/-- An operand, with dimensions of type `uint32_t`. -/
structure Operand where
  type : OperandType
  dimensions : List ℕ
  deriving DecidableEq

/-- An operation of the client's model. -/
structure Operation where
  type : ℕ
  inputs : List ℕ
  deriving DecidableEq

def ANEURALNETWORKS_LSH_PROJECTION : ℕ := 15
def ANEURALNETWORKS_RESHAPE : ℕ := 22

/-- The client's model. -/
structure Model where
  operands : List Operand
  operations : List Operation
  inputIndexes : List ℕ
  outputIndexes : List ℕ
  deriving DecidableEq

/-- An argument of a request, for an input or an output. -/
structure RequestArgument where
  hasNoValue : Bool
  poolIndex : ℕ
  offset : ℕ
  length : ℕ
  dimensions : List ℕ
  deriving DecidableEq

structure Request where
  inputs : List RequestArgument
  outputs : List RequestArgument
  pools : List HidlMemory
  deriving DecidableEq

/-- The operand at a place of the model's inputs or outputs. -/
def Model.operandAt (model : Model) (indexes : List ℕ) (idx : ℕ) : Option Operand :=
  (indexes[idx]?).bind fun operandIdx => model.operands[operandIdx]?

/-- The comparison of `verifyDimension`, over the dimensions of the argument. -/
def verifyDimensions : List ℕ → List ℕ → Option Bool
  | [], _ => some true
  | _ :: _, [] => none
  | d :: ds, e :: es => if d ≠ e then some false else verifyDimensions ds es

/-- The loop of `verifyDimension` over the inputs or the outputs, from `idx` on. -/
def verifyArguments (model : Model) (indexes : List ℕ) :
    ℕ → List RequestArgument → Option Bool
  | _, [] => some true
  | idx, arg :: args =>
      if arg.hasNoValue then verifyArguments model indexes (idx + 1) args
      else
        (model.operandAt indexes idx).bind fun operand =>
          (verifyDimensions arg.dimensions operand.dimensions).bind fun same =>
            if same then verifyArguments model indexes (idx + 1) args else some false

def verifyDimension (request : Request) (model : Model) : Option Bool :=
  (verifyArguments model model.inputIndexes 0 request.inputs).bind fun verified =>
    if verified then verifyArguments model model.outputIndexes 0 request.outputs else some false

/-! ## The conversion's inputs and outputs -/

/-- The loop of `ModelConverter::convert` over the inputs, or the outputs, of the
client's model: the array that it fills, fresh from the heap, and how many ids it
counts. -/
def convertIndexes (mapOperandIdFromAToE : ℕ → Option ℤ) (heap : ℕ → ℤ) (indexes : List ℕ) :
    List ℤ × ℕ :=
  (indexes.mapIdx fun idx operandIdx => (mapOperandIdFromAToE operandIdx).getD (heap idx),
    indexes.countP fun operandIdx => (mapOperandIdFromAToE operandIdx).isSome)

/-- What `ModelConverter::convert` passes to `IdentifyInputsAndOutputs`, which
reads as many ids of the array as it is told. -/
def identifiedIndexes (mapOperandIdFromAToE : ℕ → Option ℤ) (heap : ℕ → ℤ)
    (indexes : List ℕ) : List ℤ :=
  let converted := convertIndexes mapOperandIdFromAToE heap indexes
  converted.1.take converted.2

/-! ## Prepared models -/

inductive HwPreference where
  | allHw
  | npuOnly
  | gpuOnly
  | cpuOnly
  deriving DecidableEq

/-- A buffer of the Eden runtime: its memory, if it has any, and whether the driver
has set its size to zero. -/
structure EdenBuffer where
  addr : Option (List (BitVec 8))
  emptied : Bool
  deriving DecidableEq

/-- The field `size` of a buffer. -/
def EdenBuffer.size (buffer : EdenBuffer) : ℕ :=
  if buffer.emptied then 0 else (buffer.addr.getD []).length

/-- An operation of the converted model: whether it has options, and whether these
have a buffer. -/
structure EdenOperation where
  hasOptions : Bool
  optionsBuffer : Bool
  deriving DecidableEq

/-- `EdenPreparedModel`, with the maps of the conversion; `inputAddr` and
`outputAddr` are the arrays of buffers, or `NULL`. -/
structure EdenPreparedModel where
  model : Model
  hwPreference : HwPreference
  inputAddr : Option (List EdenBuffer)
  outputAddr : Option (List EdenBuffer)
  updatedOperations : List ℤ
  mapOperandIdFromAToE : ℕ → Option ℤ
  mapOperationIdFromAToE : ℕ → ℤ
  edenOperation : ℤ → Option EdenOperation
  inputConsumers : List ℕ
  needInputBuffers : Bool
  needOutputBuffers : Bool

namespace EdenPreparedModel

variable (pm : EdenPreparedModel)

def inputNumOfBuffers : ℕ := (pm.inputAddr.getD []).length

def outputNumOfBuffers : ℕ := (pm.outputAddr.getD []).length

/-- The Eden operand of an input or output of the model, if it has one. -/
def edenOperandAt (indexes : List ℕ) (idx : ℕ) : Option (Option ℤ) :=
  (indexes[idx]?).map pm.mapOperandIdFromAToE

/-- Replace a buffer of the inputs. -/
def setInputBuffer (idx : ℕ) (buffer : EdenBuffer) : EdenPreparedModel :=
  { pm with inputAddr := pm.inputAddr.map fun buffers => buffers.set idx buffer }

/-- An input buffer. -/
def inputBuffer (idx : ℕ) : Option EdenBuffer :=
  pm.inputAddr.bind fun buffers => buffers[idx]?

/-- An input that is not an operand of the converted model belongs to the options
of the operation that consumes it: this is noted for the runtime. -/
def updateOperation (inputIdx : ℕ) : Option (ℤ × EdenPreparedModel) :=
  (pm.inputConsumers[inputIdx]?).bind fun androidOperationIdx =>
    (pm.model.operations[androidOperationIdx]?).bind fun _ =>
      let edenOperationIdx := pm.mapOperationIdFromAToE androidOperationIdx
      (pm.edenOperation edenOperationIdx).map fun edenOperation =>
        let noted :=
          { pm with updatedOperations := pm.updatedOperations ++ [edenOperationIdx] }
        if edenOperation.hasOptions ∧ ¬ edenOperation.optionsBuffer then
          (BUFFER_ON_OPTION_IS_NULL, noted)
        else (RET_OK, noted)

/-- `loadDefaultValuesForOptionalInputs`: the third input of an LSH projection is
filled with ones of type `float`. -/
def loadDefaultValuesForOptionalInputs (operation : Operation) (indexNumber : ℕ)
    (buffer : EdenBuffer) : Option EdenBuffer :=
  if operation.type = ANEURALNETWORKS_LSH_PROJECTION then
    if operation.inputs.length ≤ indexNumber ∨ indexNumber ≠ 2 then some buffer
    else
      let numOfData := buffer.size / 4
      some { buffer with
        addr := buffer.addr.map fun bytes =>
          (List.replicate numOfData [0x00, 0x00, 0x80, 0x3F]).flatten ++
            bytes.drop (numOfData * 4) }
  else none

/-- `loadDefaultDataOnTargetBuffer`, whose result is not looked at. -/
def loadDefaultDataOnTargetBuffer (inputIdx : ℕ) : Option EdenPreparedModel :=
  (pm.model.inputIndexes[inputIdx]?).bind fun androidOperandIdx =>
    (pm.inputConsumers[inputIdx]?).bind fun androidOperationIdx =>
      (pm.model.operations[androidOperationIdx]?).bind fun androidOperation =>
        match pm.mapOperandIdFromAToE androidOperandIdx with
        | some _ =>
            pm.inputAddr.bind fun edenBufferForInputs =>
              (edenBufferForInputs[inputIdx]?).map fun buffer =>
                let indexNumber := androidOperation.inputs.idxOf androidOperandIdx
                pm.setInputBuffer inputIdx <|
                  (loadDefaultValuesForOptionalInputs androidOperation
                    (if indexNumber < androidOperation.inputs.length then indexNumber else 0)
                    buffer).getD { buffer with emptied := true }
        | none => (pm.updateOperation inputIdx).map Prod.snd

/-- `loadDataOnTargetBuffer`: the argument's bytes to the start of the buffer that
has the number of the input. -/
def loadDataOnTargetBuffer (m : ExecuteMemory) (ptr : MappedPtr) (offset length inputIdx : ℕ) :
    Option (ℤ × EdenPreparedModel) :=
  (pm.model.inputIndexes[inputIdx]?).bind fun androidOperandIdx =>
    match pm.mapOperandIdFromAToE androidOperandIdx with
    | some _ =>
        pm.inputAddr.bind fun edenBufferForInputs =>
          (edenBufferForInputs[inputIdx]?).bind fun buffer =>
            match buffer.addr with
            | none => some (RET_OK, pm)
            | some target =>
                if buffer.size = 0 then some (RET_OK, pm)
                -- offset and length become an `int32_t`
                else if 2 ^ 31 ≤ offset ∨ 2 ^ 31 ≤ length then none
                else
                  (m.read ptr offset length).bind fun data =>
                    (Block.store target 0 data).map fun bytes =>
                      (RET_OK, pm.setInputBuffer inputIdx { buffer with addr := some bytes })
    | none => pm.updateOperation inputIdx

/-- The loop of `loadInputData` over the inputs of a request, from `idx` on. -/
def loadInputs : EdenPreparedModel → ExecuteMemory → ℕ → List RequestArgument →
    Option (ℤ × EdenPreparedModel × ExecuteMemory)
  | pm, m, _, [] => some (RET_OK, pm, m)
  | pm, m, idx, arg :: args =>
      if arg.hasNoValue then
        (pm.loadDefaultDataOnTargetBuffer idx).bind fun pm => loadInputs pm m (idx + 1) args
      else
        (loadHidlMem m arg.poolIndex true).bind fun mapped =>
          if mapped.1 ≠ RET_OK then some (mapped.1, pm, mapped.2.2)
          else
            (pm.loadDataOnTargetBuffer mapped.2.2 mapped.2.1 arg.offset arg.length idx).bind
              fun loaded =>
                if loaded.1 ≠ RET_OK then some (loaded.1, loaded.2, mapped.2.2)
                else loadInputs loaded.2 mapped.2.2 (idx + 1) args

def loadInputData (request : Request) : Option (ℤ × EdenPreparedModel × ExecuteMemory) :=
  pm.loadInputs ⟨request.pools, []⟩ 0 request.inputs

end EdenPreparedModel

/-! ## What loading leaves alone -/

section Loading

variable {pm pm' : EdenPreparedModel} {m : ExecuteMemory}


/-- What loading leaves of a prepared model: all but the noted operations and what is in
the input buffers. -/
structure SameModel (pm pm' : EdenPreparedModel) : Prop where
  model : pm'.model = pm.model
  hwPreference : pm'.hwPreference = pm.hwPreference
  mapOperandIdFromAToE : pm'.mapOperandIdFromAToE = pm.mapOperandIdFromAToE
  inputConsumers : pm'.inputConsumers = pm.inputConsumers

theorem SameModel.refl (pm : EdenPreparedModel) : SameModel pm pm := ⟨rfl, rfl, rfl, rfl⟩

theorem SameModel.trans {pm'' : EdenPreparedModel} (h : SameModel pm pm')
    (h' : SameModel pm' pm'') : SameModel pm pm'' :=
  ⟨h'.model.trans h.model, h'.hwPreference.trans h.hwPreference,
    h'.mapOperandIdFromAToE.trans h.mapOperandIdFromAToE,
    h'.inputConsumers.trans h.inputConsumers⟩

/-- And what a round leaves: the buffers with another number. -/
structure SameOthers (idx : ℕ) (pm pm' : EdenPreparedModel) : Prop extends SameModel pm pm' where
  buffers : ∀ j, j ≠ idx → pm'.inputBuffer j = pm.inputBuffer j

theorem inputBuffer_setInputBuffer (pm : EdenPreparedModel) (idx j : ℕ) (buffer : EdenBuffer) :
    (pm.setInputBuffer idx buffer).inputBuffer j =
      if idx = j then (pm.inputBuffer j).map fun _ => buffer else pm.inputBuffer j := by
  unfold EdenPreparedModel.setInputBuffer EdenPreparedModel.inputBuffer
  cases pm.inputAddr with
  | none => simp
  | some buffers =>
    simp only [map_some, bind_some, List.getElem?_set]
    by_cases h : idx = j
    · subst h
      by_cases hlt : idx < buffers.length <;> simp [hlt]
    · simp [h]

theorem sameOthers_setInputBuffer (pm : EdenPreparedModel) (idx : ℕ) (buffer : EdenBuffer) :
    SameOthers idx pm (pm.setInputBuffer idx buffer) := by
  refine ⟨⟨rfl, rfl, rfl, rfl⟩, fun j hj => ?_⟩
  rw [inputBuffer_setInputBuffer, if_neg (Ne.symm hj)]

variable {idx : ℕ}

variable {p : ℤ × EdenPreparedModel}

theorem updateOperation_same (h : pm.updateOperation idx = some p) :
    SameModel pm p.2 ∧ ∀ j, p.2.inputBuffer j = pm.inputBuffer j := by
  unfold EdenPreparedModel.updateOperation at h
  obtain ⟨operationIdx, -, h⟩ := bind_eq_some_iff.mp h
  obtain ⟨operation, -, h⟩ := bind_eq_some_iff.mp h
  obtain ⟨edenOperation, -, rfl⟩ := map_eq_some_iff.mp h
  dsimp only
  split <;> exact ⟨⟨rfl, rfl, rfl, rfl⟩, fun j => rfl⟩

theorem loadDefaultDataOnTargetBuffer_same (h : pm.loadDefaultDataOnTargetBuffer idx = some pm') :
    SameOthers idx pm pm' := by
  unfold EdenPreparedModel.loadDefaultDataOnTargetBuffer at h
  obtain ⟨operandIdx, -, h⟩ := bind_eq_some_iff.mp h
  obtain ⟨operationIdx, -, h⟩ := bind_eq_some_iff.mp h
  obtain ⟨operation, -, h⟩ := bind_eq_some_iff.mp h
  split at h
  · obtain ⟨buffers, -, h⟩ := bind_eq_some_iff.mp h
    obtain ⟨buffer, -, rfl⟩ := map_eq_some_iff.mp h
    exact sameOthers_setInputBuffer _ _ _
  · obtain ⟨p, hp, rfl⟩ := map_eq_some_iff.mp h
    obtain ⟨hmodel, hbuffers⟩ := updateOperation_same hp
    exact ⟨hmodel, fun j _ => hbuffers j⟩

theorem loadDataOnTargetBuffer_same {ptr : MappedPtr} {offset length : ℕ}
    (h : pm.loadDataOnTargetBuffer m ptr offset length idx = some p) :
    SameOthers idx pm p.2 := by
  have hsame : SameOthers idx pm pm := ⟨SameModel.refl pm, fun _ _ => rfl⟩
  unfold EdenPreparedModel.loadDataOnTargetBuffer at h
  obtain ⟨operandIdx, -, h⟩ := bind_eq_some_iff.mp h
  split at h
  · obtain ⟨buffers, -, h⟩ := bind_eq_some_iff.mp h
    obtain ⟨buffer, -, h⟩ := bind_eq_some_iff.mp h
    split at h
    · exact some.inj h ▸ hsame
    · split at h
      · exact some.inj h ▸ hsame
      · split at h
        · contradiction
        · obtain ⟨data, -, h⟩ := bind_eq_some_iff.mp h
          obtain ⟨bytes, -, rfl⟩ := map_eq_some_iff.mp h
          exact sameOthers_setInputBuffer _ _ _
  · obtain ⟨hmodel, hbuffers⟩ := updateOperation_same h
    exact ⟨hmodel, fun j _ => hbuffers j⟩

/-- **A run of the loop** leaves the model, and the buffers it does not come to. -/
theorem loadInputs_same (args : List RequestArgument) {p : ℤ × EdenPreparedModel × ExecuteMemory}
    (h : pm.loadInputs m idx args = some p) :
    SameModel pm p.2.1 ∧ ∀ j, (j < idx ∨ idx + args.length ≤ j) →
      p.2.1.inputBuffer j = pm.inputBuffer j := by
  induction args generalizing pm m idx with
  | nil =>
    rw [← some.inj h]
    exact ⟨SameModel.refl pm, fun _ _ => rfl⟩
  | cons arg args ih =>
    have hround : ∀ {pm' : EdenPreparedModel} {m' : ExecuteMemory}, SameOthers idx pm pm' →
        pm'.loadInputs m' (idx + 1) args = some p →
        SameModel pm p.2.1 ∧ ∀ j, (j < idx ∨ idx + (arg :: args).length ≤ j) →
          p.2.1.inputBuffer j = pm.inputBuffer j := by
      intro pm' m' hsame hrest
      obtain ⟨hmodel, hbuffers⟩ := ih hrest
      refine ⟨hsame.toSameModel.trans hmodel, fun j hj => ?_⟩
      rw [List.length_cons] at hj
      rw [hbuffers j (by omega), hsame.buffers j (by omega)]
    have hstop : ∀ {pm' : EdenPreparedModel}, SameOthers idx pm pm' →
        SameModel pm pm' ∧ ∀ j, (j < idx ∨ idx + (arg :: args).length ≤ j) →
          pm'.inputBuffer j = pm.inputBuffer j := by
      intro pm' hsame
      refine ⟨hsame.toSameModel, fun j hj => hsame.buffers j ?_⟩
      rw [List.length_cons] at hj
      omega
    rw [EdenPreparedModel.loadInputs] at h
    split at h
    · obtain ⟨pm', hpm', h⟩ := bind_eq_some_iff.mp h
      exact hround (loadDefaultDataOnTargetBuffer_same hpm') h
    · obtain ⟨mapped, -, h⟩ := bind_eq_some_iff.mp h
      split at h
      · rw [← some.inj h]
        exact ⟨SameModel.refl pm, fun _ _ => rfl⟩
      · obtain ⟨loaded, hloaded, h⟩ := bind_eq_some_iff.mp h
        have hsame := loadDataOnTargetBuffer_same hloaded
        split at h
        · rw [← some.inj h]
          exact hstop hsame
        · exact hround hsame h

end Loading

end ExynosVendor.Eden
