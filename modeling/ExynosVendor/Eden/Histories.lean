import ExynosVendor.Eden.Inputs

/-!
# One request after the other

A prepared model keeps its input buffers and its list of updated operations from one
execution to the next. What an execution hands to the runtime is the same whatever
was executed before, and whatever fresh memory held then, as long as nothing has been
noted in that list, no buffer has been given up that the request needs, and the
request and its tensors fill what it does not give up itself.

`Repeatable` says this of a history, `Reached` is what a history leaves, and
`executions_independent` compares two of them.
-/

namespace ExynosVendor.Eden

open EdenPreparedModel
open List Option

/-! ## What is handed to the runtime -/

/-- A buffer as the runtime sees it: its size, and the bytes within. -/
def EdenBuffer.contents (buffer : EdenBuffer) : ℕ × Option (List (BitVec 8)) :=
  (buffer.size, buffer.addr.map fun bytes => bytes.take buffer.size)

/-- The arguments of `ExecuteRequest` that are kept in the prepared model. -/
structure Submission where
  inputs : Option (List (ℕ × Option (List (BitVec 8))))
  updatedOperations : List ℤ
  deriving DecidableEq

def EdenPreparedModel.submission (pm : EdenPreparedModel) : Submission :=
  ⟨pm.inputAddr.map fun buffers => buffers.map EdenBuffer.contents, pm.updatedOperations⟩

/-- What an execution calls `ExecuteRequest` with, if it comes to that. -/
def EdenPreparedModel.submitted (pm : EdenPreparedModel) (rt : Runtime) (request : Request) :
    Option Submission :=
  (pm.prepare rt request).bind fun prepared =>
    if prepared.1 ≠ RET_OK then none
    else prepared.2.1.model.outputDimensions.bind fun outputs =>
      if outputSizeSum outputs = 0 ∨ skipZeroSize outputs = true ∨
          request.outputs.length ≠ prepared.2.1.outputNumOfBuffers then none
      else (layOutInputs rt prepared.2.1).map EdenPreparedModel.submission

/-- What is left of a buffer without the bytes. -/
def EdenBuffer.shape (buffer : EdenBuffer) : Option ℕ × Bool :=
  (buffer.addr.map List.length, buffer.emptied)

/-- Two executions on one device: the buffers that are allocated for a model have the same sizes,
and the elements get the same offset. Else the answers and the memory may be any. -/
structure Runtime.Alike (rt rt' : Runtime) : Prop where
  allocated : rt'.allocateInputBuffers.2.map (List.map EdenBuffer.shape) =
    rt.allocateInputBuffers.2.map (List.map EdenBuffer.shape)
  inputOffset : rt'.inputOffset = rt.inputOffset

/-- An execution that is notified as a success. -/
def Succeeds (validateRequest : Request → Model → Bool) (rt : Runtime) (pm : EdenPreparedModel)
    (request : Request) (entry : EntryPoint) (pm' : EdenPreparedModel) : Prop :=
  ∃ answer, pm.call validateRequest rt request entry = some answer ∧
    answer.2.notified = [.none] ∧ answer.2.pm = pm'

/-- Successful executions on a device, one after the other, each with its own answers and its
own memory. -/
inductive History (validateRequest : Request → Model → Bool) (device : Runtime) :
    EdenPreparedModel → List Request → EdenPreparedModel → Prop where
  | nil (pm : EdenPreparedModel) : History validateRequest device pm [] pm
  | cons {pm pm' pm'' : EdenPreparedModel} {rt : Runtime} {request : Request} {entry : EntryPoint}
      {requests : List Request} (alike : device.Alike rt)
      (first : Succeeds validateRequest rt pm request entry pm')
      (rest : History validateRequest device pm' requests pm'') :
      History validateRequest device pm (request :: requests) pm''

/-- How a prepared model is constructed: its input buffers are to be allocated if there
are none. -/
def EdenPreparedModel.Prepared (pm : EdenPreparedModel) : Prop :=
  pm.needInputBuffers = pm.inputAddr.isNone ∧ pm.updatedOperations = []

/-! ## When a history leaves no trace -/

/-- The buffers that a prepared model has, or gets. -/
def EdenPreparedModel.baseBuffers (pm : EdenPreparedModel) (rt : Runtime) :
    Option (List EdenBuffer) :=
  pm.inputAddr.or rt.allocateInputBuffers.2

/-- The operation that consumes the input has a default for it: it is the third input
of an LSH projection. -/
def EdenPreparedModel.HasDefault (pm : EdenPreparedModel) (k : ℕ) : Prop :=
  ∃ operandIdx operationIdx operation, pm.model.inputIndexes[k]? = some operandIdx ∧
    pm.inputConsumers[k]? = some operationIdx ∧
    pm.model.operations[operationIdx]? = some operation ∧
    operation.type = ANEURALNETWORKS_LSH_PROJECTION ∧
    operation.inputs.idxOf operandIdx = 2 ∧ 2 < operation.inputs.length

/-- The request gives all bytes of a buffer of this size: by an argument of this length,
or by a default. -/
def Fills (pm : EdenPreparedModel) (request : Request) (k size : ℕ) : Prop :=
  ∃ arg, request.inputs[k]? = some arg ∧
    if arg.hasNoValue then pm.HasDefault k ∧ size % 4 = 0 else arg.length = size

/-- **The tensor of an input fills a buffer of this size.** -/
def EdenPreparedModel.TensorFills (pm : EdenPreparedModel) (k size : ℕ) : Prop :=
  ∀ operand, pm.model.operandAt pm.model.inputIndexes k = some operand →
    size = (getEdenDimensions operand.dimensions).volume * (getDataType operand.type).width

/-- **The condition on a history.** All inputs of the model are operands of the converted
model; of the buffers with a size, the requests give up only those that the last request
gives up; and that fills the others, and so does its tensor, if it is converted. -/
structure Repeatable (rt : Runtime) (pm : EdenPreparedModel) (history : List Request)
    (request : Request) : Prop where
  kept : ∀ k < pm.model.inputIndexes.length, pm.Kept k
  omitted : ∀ earlier ∈ history, ∀ base, pm.baseBuffers rt = some base →
    ∀ k buffer, base[k]? = some buffer → buffer.size ≠ 0 →
      Omitted pm earlier k → Omitted pm request k
  filled : ∀ base, pm.baseBuffers rt = some base →
    ∀ k buffer, base[k]? = some buffer → buffer.size ≠ 0 →
      ¬ Omitted pm request k → Fills pm request k buffer.size ∧
        (pm.hwPreference ≠ .gpuOnly → pm.TensorFills k buffer.size)

/-! ## What loading changes -/

section Loading

variable {pm pm' : EdenPreparedModel} {m : ExecuteMemory}

/-- A prepared model with other contents of its input buffers and other noted operations. -/
def Reloaded (pm pm' : EdenPreparedModel) : Prop :=
  ∃ buffers noted, pm' = { pm with inputAddr := buffers, updatedOperations := noted } ∧
    buffers.map List.length = pm.inputAddr.map List.length

theorem Reloaded.refl (pm : EdenPreparedModel) : Reloaded pm pm := ⟨_, _, rfl, rfl⟩

theorem Reloaded.trans {pm'' : EdenPreparedModel} (h : Reloaded pm pm')
    (h' : Reloaded pm' pm'') : Reloaded pm pm'' := by
  obtain ⟨buffers, noted, rfl, hlength⟩ := h
  obtain ⟨buffers', noted', rfl, hlength'⟩ := h'
  exact ⟨buffers', noted', rfl, hlength'.trans hlength⟩

theorem reloaded_setInputBuffer (pm : EdenPreparedModel) (idx : ℕ) (buffer : EdenBuffer) :
    Reloaded pm (pm.setInputBuffer idx buffer) := by
  refine ⟨_, _, rfl, ?_⟩
  cases pm.inputAddr with
  | none => rfl
  | some buffers => simp

variable {idx : ℕ}

variable {p : ℤ × EdenPreparedModel}

theorem reloaded_updateOperation (h : pm.updateOperation idx = some p) :
    Reloaded pm p.2 := by
  unfold updateOperation at h
  obtain ⟨operationIdx, -, h⟩ := bind_eq_some_iff.mp h
  obtain ⟨operation, -, h⟩ := bind_eq_some_iff.mp h
  obtain ⟨edenOperation, -, rfl⟩ := map_eq_some_iff.mp h
  dsimp only
  split <;> exact ⟨_, _, rfl, rfl⟩

/-- For an input with an operand, no operation is noted. -/
theorem loadDefaultDataOnTargetBuffer_reloaded
    (h : pm.loadDefaultDataOnTargetBuffer idx = some pm') :
    Reloaded pm pm' ∧ (pm.Kept idx →
      pm'.updatedOperations = pm.updatedOperations ∧ pm.inputAddr.isSome) := by
  unfold loadDefaultDataOnTargetBuffer at h
  obtain ⟨operandIdx, hoperand, h⟩ := bind_eq_some_iff.mp h
  obtain ⟨operationIdx, -, h⟩ := bind_eq_some_iff.mp h
  obtain ⟨operation, -, h⟩ := bind_eq_some_iff.mp h
  split at h
  · obtain ⟨buffers, hbuffers, h⟩ := bind_eq_some_iff.mp h
    obtain ⟨buffer, -, rfl⟩ := map_eq_some_iff.mp h
    exact ⟨reloaded_setInputBuffer _ _ _, fun _ => ⟨rfl, by rw [hbuffers]; rfl⟩⟩
  · rename_i hmap
    obtain ⟨p, hp, rfl⟩ := map_eq_some_iff.mp h
    refine ⟨reloaded_updateOperation hp, ?_⟩
    rintro ⟨operandIdx', hoperand', hsome⟩
    rw [hoperand, some.injEq] at hoperand'
    rw [← hoperand', hmap] at hsome
    contradiction

theorem loadDataOnTargetBuffer_reloaded {ptr : MappedPtr} {offset length : ℕ}
    (h : pm.loadDataOnTargetBuffer m ptr offset length idx = some p) :
    Reloaded pm p.2 ∧ (pm.Kept idx →
      p.2.updatedOperations = pm.updatedOperations ∧ pm.inputAddr.isSome) := by
  unfold loadDataOnTargetBuffer at h
  obtain ⟨operandIdx, hoperand, h⟩ := bind_eq_some_iff.mp h
  split at h
  · obtain ⟨buffers, hbuffers, h⟩ := bind_eq_some_iff.mp h
    obtain ⟨buffer, -, h⟩ := bind_eq_some_iff.mp h
    have hsome : pm.inputAddr.isSome := by rw [hbuffers]; rfl
    split at h
    · exact some.inj h ▸ ⟨Reloaded.refl pm, fun _ => ⟨rfl, hsome⟩⟩
    · split at h
      · exact some.inj h ▸ ⟨Reloaded.refl pm, fun _ => ⟨rfl, hsome⟩⟩
      · split at h
        · contradiction
        · obtain ⟨data, -, h⟩ := bind_eq_some_iff.mp h
          obtain ⟨bytes, -, rfl⟩ := map_eq_some_iff.mp h
          exact ⟨reloaded_setInputBuffer _ _ _, fun _ => ⟨rfl, hsome⟩⟩
  · rename_i hmap
    refine ⟨reloaded_updateOperation h, ?_⟩
    rintro ⟨operandIdx', hoperand', hsome⟩
    rw [hoperand, some.injEq] at hoperand'
    rw [← hoperand', hmap] at hsome
    contradiction

/-- Mapping a pool leaves the pools, and what is behind its address is what it holds. -/
theorem loadHidlMem_pools {poolIndex : ℕ} {ret : ℤ} {ptr : MappedPtr} {m' : ExecuteMemory}
    (h : loadHidlMem m poolIndex true = some (ret, ptr, m')) :
    m'.pools = m.pools ∧ ∀ bytes, m'.object ptr = some bytes →
      ∃ memory, m.pools[poolIndex]? = some memory ∧ memory.bytes = bytes := by
  unfold loadHidlMem at h
  obtain ⟨memory, hmemory, h⟩ := bind_eq_some_iff.mp h
  have hpool : ∀ bytes, m.object (.pool poolIndex) = some bytes →
      ∃ memory, m.pools[poolIndex]? = some memory ∧ memory.bytes = bytes := by
    intro bytes hbytes
    exact map_eq_some_iff.mp hbytes
  split at h
  · split at h
    · simp only [some.injEq, Prod.mk.injEq] at h
      obtain ⟨-, rfl, rfl⟩ := h
      exact ⟨rfl, hpool⟩
    · simp only [some.injEq, Prod.mk.injEq] at h
      obtain ⟨-, rfl, rfl⟩ := h
      exact ⟨rfl, fun _ h => by contradiction⟩
    · contradiction
  · split at h
    · split at h
      · split at h
        · simp only [some.injEq, Prod.mk.injEq] at h
          obtain ⟨-, rfl, rfl⟩ := h
          exact ⟨rfl, hpool⟩
        · simp only [some.injEq, Prod.mk.injEq] at h
          obtain ⟨-, rfl, rfl⟩ := h
          exact ⟨rfl, fun _ h => by contradiction⟩
      · split at h
        · simp only [some.injEq, Prod.mk.injEq] at h
          obtain ⟨-, rfl, rfl⟩ := h
          refine ⟨rfl, fun bytes hbytes => ⟨memory, hmemory, ?_⟩⟩
          have hcopy : (m.copies ++ [memory.bytes])[m.copies.length]? = some bytes := hbytes
          rw [getElem?_concat_length] at hcopy
          exact some.inj hcopy
        · contradiction
    · simp only [some.injEq, Prod.mk.injEq] at h
      obtain ⟨-, rfl, rfl⟩ := h
      exact ⟨rfl, fun _ h => by contradiction⟩

/-- **A run of the loop.** The pools stay; and where all inputs have operands, nothing is
noted and there are buffers. -/
theorem loadInputs_reloaded (args : List RequestArgument) {m' : ExecuteMemory}
    (h : pm.loadInputs m idx args = some (RET_OK, pm', m')) :
    Reloaded pm pm' ∧ m'.pools = m.pools ∧
      ((∀ k, idx ≤ k → k < idx + args.length → pm.Kept k) →
        pm'.updatedOperations = pm.updatedOperations ∧ (args ≠ [] → pm.inputAddr.isSome)) := by
  induction args generalizing pm m idx with
  | nil =>
    simp only [loadInputs, some.injEq, Prod.mk.injEq, true_and] at h
    obtain ⟨rfl, rfl⟩ := h
    exact ⟨Reloaded.refl pm, rfl, fun _ => ⟨rfl, fun h => absurd rfl h⟩⟩
  | cons arg args ih =>
    have hround : ∀ {pm'' : EdenPreparedModel} {m'' : ExecuteMemory}, m''.pools = m.pools →
        SameModel pm pm'' → (Reloaded pm pm'' ∧ (pm.Kept idx →
          pm''.updatedOperations = pm.updatedOperations ∧ pm.inputAddr.isSome)) →
        pm''.loadInputs m'' (idx + 1) args = some (RET_OK, pm', m') →
        Reloaded pm pm' ∧ m'.pools = m.pools ∧
          ((∀ k, idx ≤ k → k < idx + (arg :: args).length → pm.Kept k) →
            pm'.updatedOperations = pm.updatedOperations ∧
              (arg :: args ≠ [] → pm.inputAddr.isSome)) := by
      intro pm'' m'' hpools hsame hreloaded hrest
      obtain ⟨hreloaded', hpools', hnoted⟩ := ih hrest
      refine ⟨hreloaded.1.trans hreloaded', hpools'.trans hpools, fun hkept => ?_⟩
      rw [length_cons] at hkept
      obtain ⟨hfirst, hsome⟩ := hreloaded.2 (hkept idx (by omega) (by omega))
      have hrest := (hnoted fun k hlow hhigh =>
        (hsame.kept k).mpr (hkept k (by omega) (by omega))).1
      exact ⟨hrest.trans hfirst, fun _ => hsome⟩
    rw [loadInputs] at h
    split at h
    · obtain ⟨pm'', hpm'', h⟩ := bind_eq_some_iff.mp h
      exact hround rfl (loadDefaultDataOnTargetBuffer_same hpm'').toSameModel
        (loadDefaultDataOnTargetBuffer_reloaded hpm'') h
    · obtain ⟨mapped, hmapped, h⟩ := bind_eq_some_iff.mp h
      split at h
      · rename_i hret
        rw [some.injEq, Prod.mk.injEq] at h
        exact absurd h.1 hret
      · obtain ⟨loaded, hloaded, h⟩ := bind_eq_some_iff.mp h
        split at h
        · rename_i hret
          rw [some.injEq, Prod.mk.injEq] at h
          exact absurd h.1 hret
        · exact hround (loadHidlMem_pools hmapped).1 (loadDataOnTargetBuffer_same hloaded).toSameModel
            (loadDataOnTargetBuffer_reloaded hloaded) h

end Loading

/-! ## What comes before and after loading -/

section Ready

variable {rt : Runtime} {pm pm' : EdenPreparedModel} {request : Request}

/-- One thing went well after the other. -/
theorem andThen_ok {first : Option (ℤ × EdenPreparedModel)}
    {second : EdenPreparedModel → Option (ℤ × EdenPreparedModel)}
    (h : andThen first second = some (RET_OK, pm')) :
    ∃ pm'', first = some (RET_OK, pm'') ∧ second pm'' = some (RET_OK, pm') := by
  obtain ⟨⟨ret, pm''⟩, hfirst, h⟩ := bind_eq_some_iff.mp h
  split at h
  · rename_i hret
    rw [some.inj h] at hret
    exact absurd rfl hret
  · rename_i hret
    have hok : ret = RET_OK := not_not.mp hret
    exact ⟨pm'', by rw [hfirst, hok], h⟩

/-- The output buffers are no input buffers. -/
theorem allocateOutputBuffers_ok (h : pm.allocateOutputBuffers rt request = some (RET_OK, pm')) :
    SameModel pm pm' ∧ pm'.updatedOperations = pm.updatedOperations ∧
      pm'.needInputBuffers = pm.needInputBuffers ∧ pm'.inputAddr = pm.inputAddr := by
  unfold allocateOutputBuffers at h
  split at h
  · obtain ⟨ready, -, h⟩ := map_eq_some_iff.mp h
    split at h
    · split at h
      · rename_i hfailed
        exact absurd (Prod.mk.inj h).1 hfailed
      · rw [← (Prod.mk.inj h).2]
        exact ⟨⟨rfl, rfl, rfl, rfl⟩, rfl, rfl, rfl⟩
    · exact absurd (Prod.mk.inj h).1 (by decide)
  · rw [← (Prod.mk.inj (some.inj h)).2]
    exact ⟨SameModel.refl _, rfl, rfl, rfl⟩

theorem allocateInputBuffers_ok (h : pm.allocateInputBuffers rt request = some (RET_OK, pm')) :
    SameModel pm pm' ∧ pm'.updatedOperations = pm.updatedOperations ∧
      ((pm'.needInputBuffers = false ∧ pm'.inputAddr = pm.inputAddr) ∨
        (pm.needInputBuffers = true ∧ pm'.inputAddr = rt.allocateInputBuffers.2 ∧
          pm'.needInputBuffers = rt.allocateInputBuffers.2.isNone)) := by
  unfold allocateInputBuffers at h
  split at h
  · rename_i hneed
    obtain ⟨ready, -, h⟩ := map_eq_some_iff.mp h
    split at h
    · split at h
      · rename_i hfailed
        exact absurd (Prod.mk.inj h).1 hfailed
      · rw [← (Prod.mk.inj h).2]
        exact ⟨⟨rfl, rfl, rfl, rfl⟩, rfl, Or.inr ⟨hneed, rfl, rfl⟩⟩
    · exact absurd (Prod.mk.inj h).1 (by decide)
  · rename_i hneed
    rw [← (Prod.mk.inj (some.inj h)).2]
    exact ⟨SameModel.refl _, rfl, Or.inl ⟨by simpa using hneed, rfl⟩⟩

/-- Input buffers stay to be allocated where some input is left without dimensions. -/
theorem resolveUnknownDimensions_ok {ret : ℤ}
    (h : pm.resolveUnknownDimensions rt request = some (ret, pm')) :
    ret = RET_OK ∧ SameModel pm pm' ∧ pm'.updatedOperations = pm.updatedOperations ∧
      pm'.inputAddr = pm.inputAddr ∧ (pm'.needInputBuffers = true →
        pm.needInputBuffers = true ∧ pm.resolveInputs 0 request.inputs = some false) := by
  unfold resolveUnknownDimensions at h
  obtain ⟨needInputBuffers, hneed, h⟩ := bind_eq_some_iff.mp h
  obtain ⟨needOutputBuffers, -, h⟩ := map_eq_some_iff.mp h
  obtain ⟨rfl, rfl⟩ := Prod.mk.inj h
  refine ⟨rfl, ⟨rfl, rfl, rfl, rfl⟩, rfl, rfl, fun hstill => ?_⟩
  dsimp only at hstill
  split at hneed
  · rename_i hpm
    obtain ⟨resolved, hresolved, hnot⟩ := map_eq_some_iff.mp hneed
    rw [hstill, Bool.not_eq_true'] at hnot
    exact ⟨hpm, by rw [hresolved, hnot]⟩
  · rw [← some.inj hneed] at hstill
    contradiction

/-- **Making the buffers ready** keeps the input buffers that there are, or allocates
them. -/
theorem makeReady_ok (h : pm.makeReady rt request = some (RET_OK, pm')) :
    SameModel pm pm' ∧ pm'.updatedOperations = pm.updatedOperations ∧
      ((pm'.needInputBuffers = false ∧ pm'.inputAddr = pm.inputAddr) ∨
        (pm.needInputBuffers = true ∧ pm.resolveInputs 0 request.inputs = some false ∧
          pm'.inputAddr = rt.allocateInputBuffers.2 ∧
          pm'.needInputBuffers = rt.allocateInputBuffers.2.isNone)) := by
  obtain ⟨allocated, hallocated, houtput⟩ := andThen_ok h
  obtain ⟨resolved, hresolved, hinput⟩ := andThen_ok hallocated
  obtain ⟨⟨ret, resolved'⟩, hresolution, heq⟩ := map_eq_some_iff.mp hresolved
  obtain ⟨rfl, hsame, hnoted, haddr, hopen⟩ := resolveUnknownDimensions_ok hresolution
  obtain rfl : resolved' = resolved := (Prod.mk.inj heq).2
  obtain ⟨hsame', hnoted', hbuffers⟩ := allocateInputBuffers_ok hinput
  obtain ⟨hsame'', hnoted'', hneed, haddr'⟩ := allocateOutputBuffers_ok houtput
  refine ⟨(hsame.trans hsame').trans hsame'', hnoted''.trans (hnoted'.trans hnoted), ?_⟩
  rw [hneed, haddr']
  rcases hbuffers with ⟨hready, hkept⟩ | ⟨hstill, hnew, hnone⟩
  · exact Or.inl ⟨hready, hkept.trans haddr⟩
  · exact Or.inr ⟨(hopen hstill).1, (hopen hstill).2, hnew, hnone⟩

/-- A prepared execution is a load after that. -/
theorem prepare_loads {m : ExecuteMemory} (h : pm.prepare rt request = some (RET_OK, pm', m)) :
    ∃ ready, pm.makeReady rt request = some (RET_OK, ready) ∧
      ready.loadInputData request = some (RET_OK, pm', m) := by
  obtain ⟨⟨ret, ready⟩, hready, h⟩ := bind_eq_some_iff.mp h
  split at h
  · rename_i hret
    rw [some.injEq, Prod.mk.injEq] at h
    exact absurd h.1 hret
  · rename_i hret
    have hok : ret = RET_OK := not_not.mp hret
    exact ⟨ready, by rw [hready, hok], h⟩

/-- **A successful execution**: the request is valid and is loaded, and what it leaves is
what was loaded, or that in the layout of the device. -/
theorem succeeds_loads {validateRequest : Request → Model → Bool} {entry : EntryPoint}
    (h : Succeeds validateRequest rt pm request entry pm') :
    validateRequest request pm.model = true ∧ ∃ loaded m,
      pm.prepare rt request = some (RET_OK, loaded, m) ∧
      (pm' = loaded ∨ layOutInputs rt loaded = some pm') := by
  obtain ⟨answer, hcall, hnotified, hpm'⟩ := h
  have hexecuted : ∃ executed, pm.executeRequest validateRequest rt request = some executed ∧
      executed.2 = answer.2 := by
    unfold call at hcall
    cases entry with
    | execute =>
      obtain ⟨answer', hanswer', rfl⟩ := map_eq_some_iff.mp hcall
      simp only [EdenPreparedModel.execute, if_true] at hanswer'
      obtain ⟨executed, hexecuted, rfl⟩ := map_eq_some_iff.mp hanswer'
      exact ⟨executed, hexecuted, rfl⟩
    | execute_1_2 =>
      obtain ⟨answer', hanswer', rfl⟩ := map_eq_some_iff.mp hcall
      simp only [execute_1_2, EdenPreparedModel.execute, if_true] at hanswer'
      obtain ⟨executed, hexecuted, rfl⟩ := map_eq_some_iff.mp hanswer'
      exact ⟨executed, hexecuted, rfl⟩
    | executeSynchronously =>
      obtain ⟨outcome, houtcome, rfl⟩ := map_eq_some_iff.mp hcall
      obtain ⟨executed, hexecuted, rfl⟩ := map_eq_some_iff.mp houtcome
      exact ⟨executed, hexecuted, rfl⟩
  obtain ⟨executed, hexecuted, hanswer⟩ := hexecuted
  rw [← hanswer] at hnotified hpm'
  unfold executeRequest at hexecuted
  dsimp only at hexecuted
  have hrefused : ∀ copied : Copied, executed ≠
      (false, (⟨RET_OK, [.invalidArgument], pm, copied⟩ : Outcome)) := by
    rintro copied rfl
    exact absurd hnotified (by simp)
  split at hexecuted
  swap
  · exact absurd (some.inj hexecuted).symm (hrefused _)
  rename_i hvalid
  refine ⟨hvalid, ?_⟩
  obtain ⟨verified, -, hexecuted⟩ := bind_eq_some_iff.mp hexecuted
  split at hexecuted
  swap
  · exact absurd (some.inj hexecuted).symm (hrefused _)
  obtain ⟨outcome, houtcome, rfl⟩ := map_eq_some_iff.mp hexecuted
  rw [executeOnNNAgent, if_pos hvalid] at houtcome
  split at hnotified
  · rw [append_eq_singleton_iff] at hnotified
    rcases hnotified with ⟨-, hlast⟩ | ⟨-, hlast⟩
    · exact absurd hlast (by simp)
    · exact absurd hlast (by simp)
  rename_i hret
  rw [if_neg hret] at hpm'
  obtain ⟨⟨ret, loaded, m⟩, hprepared, houtcome⟩ := bind_eq_some_iff.mp houtcome
  split at houtcome
  · rename_i hfailed
    rw [← some.inj houtcome] at hret
    exact absurd hfailed hret
  rename_i hok
  have hret' : ret = RET_OK := not_not.mp hok
  refine ⟨loaded, m, by rw [hprepared, hret'], ?_⟩
  obtain ⟨body, hbody, rfl⟩ := map_eq_some_iff.mp houtcome
  have hbodypm : body.2.1 = loaded ∨ layOutInputs rt loaded = some body.2.1 := by
    unfold requestBody at hbody
    obtain ⟨outputs, -, hbody⟩ := bind_eq_some_iff.mp hbody
    split at hbody
    · exact Or.inl (some.inj hbody ▸ rfl)
    · split at hbody
      · exact Or.inl (some.inj hbody ▸ rfl)
      · split at hbody
        · exact Or.inl (some.inj hbody ▸ rfl)
        · obtain ⟨laidOut, hlaidOut, hbody⟩ := bind_eq_some_iff.mp hbody
          obtain ⟨executed, -, rfl⟩ := map_eq_some_iff.mp hbody
          exact Or.inr hlaidOut
  have hleft : body.2.1 = pm' := by
    rw [← hpm']
    obtain ⟨exit, left, copied⟩ := body
    cases exit <;> rfl
  exact hleft ▸ hbodypm

end Ready

/-! ## The layout -/

section Layout

variable {rt : Runtime} {pm pm' : EdenPreparedModel} {buffer buffer' : EdenBuffer}

/-- A buffer with a size is known from its contents. -/
theorem eq_of_contents (h : buffer.contents = buffer'.contents) (hsize : buffer.size ≠ 0) :
    buffer = buffer' := by
  obtain ⟨addr, emptied⟩ := buffer
  obtain ⟨addr', emptied'⟩ := buffer'
  obtain ⟨hsizes, hbytes⟩ := Prod.mk.inj h
  cases emptied with
  | true => exact absurd rfl hsize
  | false =>
    cases emptied' with
    | true => exact absurd hsizes hsize
    | false =>
      have hwhole : ∀ addr : Option (List (BitVec 8)),
          (addr.map fun bytes => bytes.take (EdenBuffer.mk addr false).size) = addr := by
        intro addr
        cases addr with
        | none => rfl
        | some bytes => exact congrArg some (take_of_length_le (Nat.le_refl _))
      rw [hwhole, hwhole] at hbytes
      rw [hbytes]

variable {operand : Operand}

variable {hwPreference : HwPreference} {buffers' : List EdenBuffer}

theorem preProcessOnInputs_of_size {idx : ℕ} (h : buffer.size = 0) :
    preProcessOnInputs rt hwPreference operand idx buffer = some buffer := by
  unfold preProcessOnInputs convertDataLayoutFromNHWCToNCHW
  obtain ⟨addr, emptied⟩ := buffer
  cases addr with
  | none => rfl
  | some bytes =>
    dsimp only
    rw [if_pos h]
    rfl

/-- What a conversion hands out is known from what it is handed, if the tensor fills that. -/
theorem preProcessOnInputs_contents {rt rt' : Runtime} (hwPreference : HwPreference) (idx : ℕ)
    (hoffset : rt'.inputOffset = rt.inputOffset) (h : buffer.contents = buffer'.contents)
    (hfull : buffer.size ≠ 0 → buffer.size =
      (getEdenDimensions operand.dimensions).volume * (getDataType operand.type).width) :
    (preProcessOnInputs rt hwPreference operand idx buffer).map EdenBuffer.contents =
      (preProcessOnInputs rt' hwPreference operand idx buffer').map EdenBuffer.contents := by
  by_cases hsize : buffer.size = 0
  · have hsize' : buffer'.size = 0 := (Prod.mk.inj h).1 ▸ hsize
    rw [preProcessOnInputs_of_size hsize, preProcessOnInputs_of_size hsize', map_some, map_some, h]
  · rw [← eq_of_contents h hsize]
    unfold preProcessOnInputs convertDataLayoutFromNHWCToNCHW convertToNCHW
    rw [hoffset]
    cases buffer.addr with
    | none => rfl
    | some bytes =>
      dsimp only
      rw [convert_heap (EdenDims.nodup_nchwPlaces _) (fun k hk => by
        rw [EdenDims.length_nchwPlaces]
        exact EdenDims.nchwPlaces_lt _ k hk) (DataType.width_pos _) (fun c => length_map _)
        (by rw [EdenDims.length_nchwPlaces]; exact hfull hsize) (rt'.inputHeap idx)]

/-- It keeps the size of the memory. -/
theorem preProcessOnInputs_memory {idx : ℕ}
    (h : preProcessOnInputs rt hwPreference operand idx buffer = some buffer') :
    buffer'.addr.map List.length = buffer.addr.map List.length ∧
      buffer'.emptied = buffer.emptied := by
  obtain ⟨addr, emptied⟩ := buffer
  unfold preProcessOnInputs convertDataLayoutFromNHWCToNCHW at h
  cases addr with
  | none => exact some.inj h ▸ ⟨rfl, rfl⟩
  | some bytes =>
    obtain ⟨bytes', hbytes', rfl⟩ := map_eq_some_iff.mp h
    refine ⟨congrArg some ?_, rfl⟩
    split at hbytes'
    · rw [some.inj hbytes']
    · exact length_convert hbytes'

theorem convertInputs_length (buffers : List EdenBuffer) {idx : ℕ}
    (h : convertInputs rt pm idx buffers = some buffers') : buffers'.length = buffers.length := by
  induction buffers generalizing idx buffers' with
  | nil => exact some.inj h ▸ rfl
  | cons buffer buffers ih =>
    rw [convertInputs] at h
    obtain ⟨operand, -, h⟩ := bind_eq_some_iff.mp h
    obtain ⟨converted, -, h⟩ := bind_eq_some_iff.mp h
    obtain ⟨rest, hrest, rfl⟩ := map_eq_some_iff.mp h
    rw [length_cons, length_cons, ih hrest]

/-- **The layout leaves** all but the bytes of the buffers. -/
theorem layOutInputs_same (h : layOutInputs rt pm = some pm') :
    SameModel pm pm' ∧ pm'.updatedOperations = pm.updatedOperations ∧
      pm'.needInputBuffers = pm.needInputBuffers ∧
      ∀ buffers, pm.inputAddr = some buffers → ∃ buffers', pm'.inputAddr = some buffers' ∧
        buffers'.length = buffers.length ∧
        ∀ (k : ℕ) (buffer buffer' : EdenBuffer), buffers[k]? = some buffer →
          buffers'[k]? = some buffer' →
          buffer'.addr.map List.length = buffer.addr.map List.length ∧
            buffer'.emptied = buffer.emptied := by
  unfold layOutInputs at h
  split at h
  · rw [← some.inj h]
    refine ⟨SameModel.refl _, rfl, rfl, fun buffers hbuffers => ⟨buffers, hbuffers, rfl, ?_⟩⟩
    intro k buffer buffer' hk hk'
    rw [hk, some.injEq] at hk'
    exact hk' ▸ ⟨rfl, rfl⟩
  · obtain ⟨buffers', hbuffers', rfl⟩ := map_eq_some_iff.mp h
    refine ⟨⟨rfl, rfl, rfl, rfl⟩, rfl, rfl, fun buffers hbuffers => ?_⟩
    rw [hbuffers, getD_some] at hbuffers'
    refine ⟨buffers', by rw [hbuffers]; rfl, convertInputs_length _ hbuffers', ?_⟩
    intro k buffer buffer' hk hk'
    obtain ⟨operand, -, hconverted⟩ := convertInputs_getElem? buffers hbuffers' hk
    rw [hk'] at hconverted
    exact preProcessOnInputs_memory hconverted.symm

theorem convertInputs_contents {rt rt' : Runtime} (hoffset : rt'.inputOffset = rt.inputOffset)
    (h : SameModel pm pm') (buffers : List EdenBuffer) (idx : ℕ)
    (hcontents : buffers.map EdenBuffer.contents = buffers'.map EdenBuffer.contents)
    (hfull : ∀ k buffer, buffers[k]? = some buffer → buffer.size ≠ 0 → pm.TensorFills (idx + k) buffer.size) :
    (convertInputs rt pm idx buffers).map (List.map EdenBuffer.contents) =
      (convertInputs rt' pm' idx buffers').map (List.map EdenBuffer.contents) := by
  induction buffers generalizing idx buffers' with
  | nil =>
    rw [map_nil] at hcontents
    rw [map_eq_nil_iff.mp hcontents.symm]
    rfl
  | cons buffer buffers ih =>
    cases buffers' with
    | nil => simp at hcontents
    | cons buffer' buffers' =>
      rw [map_cons, map_cons] at hcontents
      obtain ⟨hfirst, hrest⟩ := List.cons.inj hcontents
      have hconverted := fun operand hoperand => preProcessOnInputs_contents
        pm.hwPreference idx hoffset hfirst fun hsize => hfull 0 buffer rfl hsize operand hoperand
      have ih := ih (idx + 1) hrest fun k buffer hk hsize => by
        rw [Nat.add_assoc, Nat.add_comm 1 k]
        exact hfull (k + 1) buffer hk hsize
      rw [convertInputs, convertInputs, h.model, h.hwPreference]
      cases hoperand : pm.model.operandAt pm.model.inputIndexes idx with
      | none => rw [bind_none, bind_none, map_none]
      | some operand =>
        have hconverted := hconverted operand hoperand
        rw [bind_some, bind_some]
        cases hfirst : preProcessOnInputs rt pm.hwPreference operand idx buffer with
        | none =>
          rw [hfirst, map_none] at hconverted
          rw [map_eq_none_iff.mp hconverted.symm, bind_none, bind_none, map_none]
        | some converted =>
          rw [hfirst, map_some] at hconverted
          obtain ⟨converted', hfirst', hcontents'⟩ := map_eq_some_iff.mp hconverted.symm
          rw [hfirst', bind_some, bind_some, Option.map_map, Option.map_map]
          cases hlast : convertInputs rt pm (idx + 1) buffers with
          | none =>
            rw [hlast, map_none] at ih
            rw [map_eq_none_iff.mp ih.symm, map_none, map_none]
          | some rest =>
            rw [hlast, map_some] at ih
            obtain ⟨rest', hlast', hcontents''⟩ := map_eq_some_iff.mp ih.symm
            rw [hlast']
            simp only [map_some, Function.comp_apply, map_cons, hcontents', hcontents'']

/-- **What is handed to the runtime is known from the contents** of the buffers before the
layout. -/
theorem layOutInputs_submission {rt' : Runtime} (hoffset : rt'.inputOffset = rt.inputOffset)
    (h : SameModel pm pm') (hcontents : pm.submission = pm'.submission)
    (hfull : pm.hwPreference ≠ .gpuOnly → ∀ buffers, pm.inputAddr = some buffers →
      ∀ k buffer, buffers[k]? = some buffer → buffer.size ≠ 0 → pm.TensorFills k buffer.size) :
    (layOutInputs rt pm).map EdenPreparedModel.submission =
      (layOutInputs rt' pm').map EdenPreparedModel.submission := by
  obtain ⟨hinputs, hnoted⟩ := Submission.mk.inj hcontents
  unfold layOutInputs
  rw [h.hwPreference]
  split
  · rw [map_some, map_some, hcontents]
  rename_i hconverts
  cases haddr : pm.inputAddr with
  | none =>
    rw [haddr, map_none] at hinputs
    rw [map_eq_none_iff.mp hinputs.symm]
    simp only [getD_none, convertInputs, map_some, map_none, EdenPreparedModel.submission, hnoted]
  | some buffers =>
    rw [haddr, map_some] at hinputs
    obtain ⟨buffers', haddr', hcontents'⟩ := map_eq_some_iff.mp hinputs.symm
    have hconverted := convertInputs_contents hoffset h buffers 0 hcontents'.symm
      fun k buffer hk hsize => by
        rw [Nat.zero_add]
        exact hfull (h.hwPreference ▸ hconverts) buffers haddr k buffer hk hsize
    rw [haddr', getD_some, getD_some]
    cases hfirst : convertInputs rt pm 0 buffers with
    | none =>
      rw [hfirst, map_none] at hconverted
      rw [map_eq_none_iff.mp hconverted.symm]
      rfl
    | some converted =>
      rw [hfirst, map_some] at hconverted
      obtain ⟨converted', hfirst', heq⟩ := map_eq_some_iff.mp hconverted.symm
      rw [hfirst']
      simp only [map_some, EdenPreparedModel.submission, hnoted, heq]

end Layout

/-! ## What a history leaves of a buffer -/

section Buffers

variable {rt : Runtime} {pm pm' loaded : EdenPreparedModel} {request : Request}
variable {m' : ExecuteMemory} {k : ℕ} {omitted : Prop} {base buffer buffer' : EdenBuffer}

/-- A buffer has the memory that it began with, and was given up only if the last request
gives it up. -/
structure Descends (omitted : Prop) (base buffer : EdenBuffer) : Prop where
  memory : buffer.addr.map List.length = base.addr.map List.length
  emptied : base.emptied = true → buffer.emptied = true
  givenUp : buffer.emptied = true → base.size = 0 ∨ omitted

theorem Descends.of_shape (omitted : Prop) (h : buffer.shape = base.shape) :
    Descends omitted base buffer := by
  obtain ⟨hmemory, hemptied⟩ := Prod.mk.inj h
  refine ⟨hmemory, fun hbase => hemptied.trans hbase, fun hbuffer => Or.inl ?_⟩
  rw [EdenBuffer.size, if_pos (hemptied.symm.trans hbuffer)]

/-- A step that keeps the memory and gives up what may be given up. -/
theorem Descends.step (h : Descends omitted base buffer) {given : Prop}
    (hmemory : buffer'.addr.map List.length = buffer.addr.map List.length)
    (hemptied : buffer'.emptied = true ↔ buffer.emptied = true ∨ given)
    (hgiven : base.size ≠ 0 → given → omitted) : Descends omitted base buffer' := by
  refine ⟨hmemory.trans h.memory, fun hbase => hemptied.mpr (Or.inl (h.emptied hbase)), ?_⟩
  intro hemptied'
  rcases hemptied.mp hemptied' with hbefore | hnow
  · exact h.givenUp hbefore
  · by_cases hsize : base.size = 0
    · exact Or.inl hsize
    · exact Or.inr (hgiven hsize hnow)

/-- A buffer that has a size to begin with and is not given up. -/
theorem Descends.memory_of_size (h : Descends omitted base buffer) (hsize : base.size ≠ 0)
    (homitted : ¬ omitted) :
    ∃ bytes, buffer = ⟨some bytes, false⟩ ∧ bytes.length = base.size := by
  obtain ⟨addr, emptied⟩ := buffer
  have hnot : emptied = false := by
    cases emptied with
    | false => rfl
    | true =>
      rcases h.givenUp rfl with hzero | hgiven
      · exact absurd hzero hsize
      · exact absurd hgiven homitted
  obtain ⟨addr₀, emptied₀⟩ := base
  cases emptied₀ with
  | true => exact absurd rfl hsize
  | false =>
    cases addr₀ with
    | none => exact absurd rfl hsize
    | some bytes₀ =>
      obtain ⟨bytes, hbytes, hlength⟩ := map_eq_some_iff.mp h.memory
      dsimp only at hbytes
      exact ⟨bytes, by rw [hbytes, hnot], hlength⟩

/-- The bytes that a request gives to a buffer. -/
def loadedBytes (request : Request) (k size : ℕ) : List (BitVec 8) :=
  match request.inputs[k]? with
  | none => []
  | some arg =>
      if arg.hasNoValue then (List.replicate (size / 4) [0x00, 0x00, 0x80, 0x3F]).flatten
      else
        ((request.pools[arg.poolIndex]?).bind fun memory =>
          Block.load memory.bytes arg.offset arg.length).getD []

/-- **A buffer that the request fills** holds what the request gives, and nothing else. -/
theorem loadInputData_fills (h : pm.loadInputData request = some (RET_OK, loaded, m'))
    (hkept : pm.Kept k) {bytes : List (BitVec 8)}
    (hbuffer : pm.inputBuffer k = some ⟨some bytes, false⟩) (hbytes : bytes ≠ [])
    (hfills : Fills pm request k bytes.length) :
    loaded.inputBuffer k = some ⟨some (loadedBytes request k bytes.length), false⟩ := by
  have hlength : bytes.length ≠ 0 := fun h => hbytes (length_eq_zero_iff.mp h)
  have hsize : (⟨some bytes, false⟩ : EdenBuffer).size = bytes.length := rfl
  obtain ⟨arg, harg, hgives⟩ := hfills
  obtain ⟨reached, mk, left, mk', hreached, hround, hmodel, hbefore, hafter⟩ :=
    loadInputs_at k h harg
  rw [hbuffer] at hbefore
  obtain ⟨buffers, hbuffers, hget⟩ := bind_eq_some_iff.mp hbefore
  obtain ⟨operandIdx, hoperand, hsome⟩ := (hmodel.kept k).mpr hkept
  obtain ⟨edenIdx, hmap⟩ := isSome_iff_exists.mp hsome
  rw [hafter]
  unfold loadedBytes
  rw [harg]
  rw [loadInputs] at hround
  dsimp only
  by_cases hvalue : arg.hasNoValue = true
  · rw [if_pos hvalue] at hround hgives ⊢
    obtain ⟨⟨operandIdx', operationIdx, operation, hoperand', hconsumer, hoperation, htype, hindex,
      hthird⟩, hmod⟩ := hgives
    rw [← hmodel.model, hoperand, some.injEq] at hoperand'
    subst hoperand'
    rw [← hmodel.inputConsumers] at hconsumer
    rw [← hmodel.model] at hoperation
    obtain ⟨pm'', hdefault, hround⟩ := bind_eq_some_iff.mp hround
    simp only [loadInputs, some.injEq, Prod.mk.injEq, true_and] at hround
    rw [← hround.1]
    unfold loadDefaultDataOnTargetBuffer at hdefault
    simp only [hoperand, hconsumer, hoperation, hmap, hbuffers, hget, bind_some,
      map_some, some.injEq, hindex, if_pos hthird] at hdefault
    rw [← hdefault, inputBuffer_setInputBuffer, if_pos rfl, hbefore, map_some,
      loadDefaultValuesForOptionalInputs, if_pos htype, if_neg (by omega), hsize, getD_some]
    have hall : bytes.length / 4 * 4 = bytes.length := by omega
    simp only [hall, map_some, drop_length, append_nil]
  · rw [if_neg hvalue] at hround hgives ⊢
    obtain ⟨mapped, hmapped, hround⟩ := bind_eq_some_iff.mp hround
    split at hround
    · rename_i hret
      rw [some.injEq, Prod.mk.injEq] at hround
      exact absurd hround.1 hret
    obtain ⟨copied, hcopied, hround⟩ := bind_eq_some_iff.mp hround
    split at hround
    · rename_i hret
      rw [some.injEq, Prod.mk.injEq] at hround
      exact absurd hround.1 hret
    simp only [loadInputs, some.injEq, Prod.mk.injEq, true_and] at hround
    rw [← hround.1]
    unfold loadDataOnTargetBuffer at hcopied
    simp only [hoperand, hmap, hbuffers, hget, bind_some, hsize, if_neg hlength] at hcopied
    split at hcopied
    · contradiction
    obtain ⟨data, hdata, hcopied⟩ := bind_eq_some_iff.mp hcopied
    obtain ⟨stored, hstored, rfl⟩ := map_eq_some_iff.mp hcopied
    obtain ⟨source, hsource, hload⟩ := bind_eq_some_iff.mp hdata
    have hdatalen := Block.length_load hload
    -- the bytes behind the address are those of the pool of the request
    obtain ⟨hpools, hobject⟩ := loadHidlMem_pools hmapped
    obtain ⟨memory, hmemory, rfl⟩ := hobject source hsource
    rw [(loadInputs_reloaded _ hreached).2.1] at hmemory
    dsimp only at hmemory
    rw [hmemory, bind_some, hload, getD_some]
    have hwhole : stored = data := by
      rw [Block.store_zero (by omega), some.injEq] at hstored
      rw [← hstored, drop_eq_nil_of_le (by omega), append_nil]
    rw [inputBuffer_setInputBuffer, if_pos rfl, hbefore, hwhole]
    rfl

/-- **The contents after loading**, by what there was to begin with. -/
theorem loadInputData_contents (h : pm.loadInputData request = some (RET_OK, loaded, m'))
    (hkept : k < request.inputs.length → pm.Kept k) (hbuffer : pm.inputBuffer k = some buffer)
    (hdescends : Descends (Omitted pm request k) base buffer)
    (hfills : base.size ≠ 0 → ¬ Omitted pm request k → Fills pm request k base.size)
    (hbuffer' : loaded.inputBuffer k = some buffer') :
    (base.size = 0 → buffer'.contents = (0, base.addr.map fun _ => [])) ∧
      (base.size ≠ 0 → Omitted pm request k → buffer'.contents = (0, some [])) ∧
      (base.size ≠ 0 → ¬ Omitted pm request k → buffer'.contents =
        (base.size, some ((loadedBytes request k base.size).take base.size))) := by
  obtain ⟨hmemory, hemptied⟩ := (loadInputData_buffer h k).memory buffer buffer' hbuffer hbuffer'
  have hwhole := hmemory.trans hdescends.memory
  have hzero : ∀ {lengths : Option (List (BitVec 8))}, buffer'.size = 0 →
      lengths.map (fun _ => ([] : List (BitVec 8))) =
        buffer'.addr.map (fun _ => ([] : List (BitVec 8))) →
      buffer'.contents = (0, lengths.map fun _ => []) := by
    intro lengths hsize heq
    rw [EdenBuffer.contents, hsize, heq]
    simp
  have hnulls : base.addr.map (fun _ => ([] : List (BitVec 8))) =
      buffer'.addr.map fun _ => ([] : List (BitVec 8)) := by
    have hconst := congrArg (Option.map fun _ : ℕ => ([] : List (BitVec 8))) hwhole
    rw [Option.map_map, Option.map_map] at hconst
    exact hconst.symm
  have hempty : buffer'.emptied = true → buffer'.size = 0 := by
    intro hgiven
    rw [EdenBuffer.size, if_pos hgiven]
  refine ⟨fun hbase => hzero ?_ hnulls, fun hbase homitted => ?_, fun hbase homitted => ?_⟩
  · by_cases hgiven : buffer'.emptied = true
    · exact hempty hgiven
    · have hnot : base.emptied ≠ true := fun hbase =>
        hgiven (hemptied.mpr (Or.inl (hdescends.emptied hbase)))
      rw [EdenBuffer.size, if_neg hnot] at hbase
      rw [EdenBuffer.size, if_neg hgiven]
      cases haddr : buffer'.addr with
      | none => rfl
      | some bytes' =>
        rw [haddr] at hwhole
        obtain ⟨bytes, hbytes, hlength⟩ := map_eq_some_iff.mp hwhole.symm
        rw [hbytes, getD_some] at hbase
        exact hlength.symm.trans hbase
  · have hgiven := hempty (hemptied.mpr (Or.inr homitted))
    have hsome : base.addr.isSome := by
      cases haddr : base.addr with
      | some bytes => rfl
      | none =>
        rw [EdenBuffer.size, haddr] at hbase
        exact absurd (by split <;> rfl) hbase
    obtain ⟨bytes, hbytes⟩ := isSome_iff_exists.mp hsome
    rw [hzero hgiven hnulls, hbytes]
    rfl
  · obtain ⟨bytes, hbytes, hlength⟩ := hdescends.memory_of_size hbase homitted
    have hne : bytes ≠ [] := by
      rintro rfl
      exact hbase hlength.symm
    have hgives := hfills hbase homitted
    have hwithin : k < request.inputs.length := by
      obtain ⟨arg, harg, -⟩ := hgives
      exact (List.getElem?_eq_some_iff.mp harg).1
    have hfilled := loadInputData_fills h (hkept hwithin) (hbytes ▸ hbuffer) hne (hlength ▸ hgives)
    rw [hfilled, some.injEq] at hbuffer'
    have hlen : (loadedBytes request k bytes.length).length = base.size := by
      rw [← hbuffer', hbytes] at hmemory
      rw [← hlength]
      exact some.inj hmemory
    rw [hlength] at hbuffer' hlen
    rw [← hbuffer', EdenBuffer.contents]
    have hsize : (⟨some (loadedBytes request k base.size), false⟩ : EdenBuffer).size =
        (loadedBytes request k base.size).length := rfl
    rw [hsize, hlen]
    rfl

end Buffers

/-! ## What a history leaves -/

section Reached

variable {validateRequest : Request → Model → Bool} {device rt rt' : Runtime}
variable {pm σ σ' loaded loaded' : EdenPreparedModel} {earlier request : Request}
variable {m m' : ExecuteMemory}

/-- The input buffers are still to be allocated, or descend from those that there were or
that were allocated. -/
inductive BuffersDescend (device : Runtime) (pm : EdenPreparedModel) (request : Request)
    (σ : EdenPreparedModel) : Prop where
  | unallocated (need : σ.needInputBuffers = true) (null : σ.inputAddr = none)
      (first : pm.inputAddr = none)
  | allocated (ready : σ.needInputBuffers = false) (base buffers : List EdenBuffer)
      (first : pm.baseBuffers device = some base) (now : σ.inputAddr = some buffers)
      (length : buffers.length = base.length)
      (descends : ∀ k first now, base[k]? = some first → buffers[k]? = some now →
        Descends (Omitted pm request k) first now)

/-- **What a repeatable history leaves**: the model, the noted operations and descendants of
the buffers. -/
structure Reached (device : Runtime) (pm : EdenPreparedModel) (request : Request)
    (σ : EdenPreparedModel) : Prop where
  same : SameModel pm σ
  noted : σ.updatedOperations = pm.updatedOperations
  buffers : BuffersDescend device pm request σ

theorem SameModel.omitted (h : SameModel pm σ) (request : Request) (k : ℕ) :
    Omitted σ request k ↔ Omitted pm request k := by
  unfold Omitted
  rw [h.kept, h.noDefault]

theorem SameModel.fills (h : SameModel pm σ) (request : Request) (k size : ℕ) :
    Fills σ request k size ↔ Fills pm request k size := by
  unfold Fills EdenPreparedModel.HasDefault
  rw [h.model, h.inputConsumers]

theorem reached_refl (hprepared : pm.Prepared) (device : Runtime) (request : Request) :
    Reached device pm request pm := by
  refine ⟨SameModel.refl pm, rfl, ?_⟩
  have hneed := hprepared.1
  cases haddr : pm.inputAddr with
  | none =>
    rw [haddr] at hneed
    exact .unallocated hneed haddr haddr
  | some buffers =>
    rw [haddr] at hneed
    refine .allocated hneed buffers buffers (by rw [baseBuffers, haddr]; rfl)
      haddr rfl fun k first now hfirst hnow => ?_
    rw [hfirst, some.injEq] at hnow
    exact hnow ▸ Descends.of_shape _ rfl

/-- An execution makes the buffers ready, and if it loads an input, they are there. -/
theorem Reached.ready (h : Reached device pm request σ) (halike : device.Alike rt)
    {ready : EdenPreparedModel}
    (hready : σ.makeReady rt earlier = some (RET_OK, ready))
    (hload : ready.loadInputData earlier = some (RET_OK, loaded, m))
    (hkept : ∀ k < earlier.inputs.length, pm.Kept k) (hinputs : earlier.inputs ≠ []) :
    SameModel pm ready ∧ ready.updatedOperations = pm.updatedOperations ∧
      ready.needInputBuffers = false ∧ ∃ base buffers, pm.baseBuffers device = some base ∧
        ready.inputAddr = some buffers ∧ buffers.length = base.length ∧
        ∀ k first now, base[k]? = some first → buffers[k]? = some now →
          Descends (Omitted pm request k) first now := by
  obtain ⟨hsame, hnoted, hbuffers⟩ := makeReady_ok hready
  have hsame := h.same.trans hsame
  have hsome := ((loadInputs_reloaded _ hload).2.2 fun k _ hk =>
    (hsame.kept k).mpr (hkept k (by omega))).2 hinputs
  obtain ⟨buffers, haddr⟩ := isSome_iff_exists.mp hsome
  refine ⟨hsame, hnoted.trans h.noted, ?_⟩
  rcases hbuffers with ⟨hneed, hstay⟩ | ⟨hneed, -, hnew, hnone⟩
  · refine ⟨hneed, ?_⟩
    rcases h.buffers with ⟨-, hnull, -⟩ | ⟨-, base, buffers', hbase, hnow, hlength, hdescends⟩
    · rw [hstay, hnull] at haddr
      contradiction
    · exact ⟨base, buffers', hbase, hstay.trans hnow, hlength, hdescends⟩
  · have hnew : rt.allocateInputBuffers.2 = some buffers := hnew.symm.trans haddr
    -- the device has allocated as much before
    have hshapes := halike.allocated
    rw [hnew, map_some] at hshapes
    obtain ⟨base, hbase, hshapes⟩ := map_eq_some_iff.mp hshapes.symm
    rcases h.buffers with ⟨-, -, hfirst⟩ | ⟨hready, -⟩
    · refine ⟨by rw [hnone, hnew]; rfl, base, buffers, ?_, haddr, ?_, ?_⟩
      · rw [baseBuffers, hfirst, none_or, hbase]
      · rw [← length_map EdenBuffer.shape, ← hshapes, length_map]
      · intro k first now hfirst hnow
        have hshape := congrArg (·[k]?) hshapes
        rw [getElem?_map, getElem?_map, hfirst, hnow] at hshape
        exact Descends.of_shape _ (some.inj hshape).symm
    · rw [hready] at hneed
      contradiction

/-- What is loaded descends as well. -/
theorem Reached.load (h : Reached device pm request σ) (halike : device.Alike rt)
    (hprepare : σ.prepare rt earlier = some (RET_OK, loaded, m))
    (hkept : ∀ k < earlier.inputs.length, pm.Kept k) (hinputs : earlier.inputs ≠ [])
    (homitted : ∀ base, pm.baseBuffers device = some base → ∀ k buffer, base[k]? = some buffer →
      buffer.size ≠ 0 → Omitted pm earlier k → Omitted pm request k) :
    Reached device pm request loaded := by
  obtain ⟨ready, hready, hload⟩ := prepare_loads hprepare
  obtain ⟨hsame, hnoted, hneed, base, buffers, hbase, haddr, hlength, hdescends⟩ :=
    h.ready halike hready hload hkept hinputs
  have hsame' := hsame.trans (loadInputs_same _ hload).1
  obtain ⟨hreloaded, -, hnone⟩ := loadInputs_reloaded _ hload
  obtain ⟨addr, noted, hloaded, hcount⟩ := hreloaded
  have hnoted' := (hnone fun k _ hk => (hsame.kept k).mpr (hkept k (by omega))).1
  refine ⟨hsame', hnoted'.trans hnoted, ?_⟩
  have haddr' : loaded.inputAddr = addr := by rw [hloaded]
  rw [haddr, map_some] at hcount
  obtain ⟨buffers', hbuffers', hlength'⟩ := map_eq_some_iff.mp hcount
  have hnow : loaded.inputAddr = some buffers' := haddr'.trans hbuffers'
  refine .allocated (by rw [hloaded]; exact hneed) base buffers' hbase hnow (hlength'.trans hlength) ?_
  intro k first now hfirst hk
  have hlt : k < buffers.length := hlength ▸ (List.getElem?_eq_some_iff.mp hfirst).1
  have hbefore := getElem?_eq_getElem hlt
  have hkeeps := loadInputData_buffer hload k
  rw [hsame.omitted] at hkeeps
  obtain ⟨hmemory, hemptied⟩ := hkeeps.memory _ now
    (by rw [inputBuffer, haddr, bind_some, hbefore])
    (by rw [inputBuffer, hnow, bind_some, hk])
  exact (hdescends k first _ hfirst hbefore).step hmemory hemptied
    (homitted base hbase k first hfirst)

/-- And so does what is laid out. -/
theorem Reached.layOut (h : Reached device pm request σ) (hlayout : layOutInputs rt σ = some σ') :
    Reached device pm request σ' := by
  obtain ⟨hsame, hnoted, hneed, hbuffers⟩ := layOutInputs_same hlayout
  refine ⟨h.same.trans hsame, hnoted.trans h.noted, ?_⟩
  rcases h.buffers with ⟨hopen, hnull, hfirst⟩ | ⟨hready, base, buffers, hbase, hnow, hlength, hdescends⟩
  · refine .unallocated (hneed.trans hopen) ?_ hfirst
    unfold layOutInputs at hlayout
    split at hlayout
    · rw [← some.inj hlayout, hnull]
    · obtain ⟨converted, -, rfl⟩ := map_eq_some_iff.mp hlayout
      rw [hnull]
      rfl
  · obtain ⟨buffers', hnow', hlength', hmemory⟩ := hbuffers buffers hnow
    refine .allocated (hneed.trans hready) base buffers' hbase hnow' (hlength'.trans hlength) ?_
    intro k first now hfirst hk
    have hlt : k < buffers.length := hlength ▸ (List.getElem?_eq_some_iff.mp hfirst).1
    have hbefore := getElem?_eq_getElem hlt
    obtain ⟨hsize, hemptied⟩ := hmemory k _ now hbefore hk
    have hemptied' : now.emptied = true ↔ buffers[k].emptied = true ∨ False := by
      rw [hemptied, or_false]
    exact (hdescends k first _ hfirst hbefore).step hsize hemptied' fun _ h => h.elim

/-- **One execution of a repeatable history.** -/
theorem Reached.succeeds (h : Reached device pm request σ) (halike : device.Alike rt) {entry : EntryPoint}
    (hsucceeds : Succeeds validateRequest rt σ earlier entry σ')
    (hkept : ∀ k < earlier.inputs.length, pm.Kept k) (hinputs : earlier.inputs ≠ [])
    (homitted : ∀ base, pm.baseBuffers device = some base → ∀ k buffer, base[k]? = some buffer →
      buffer.size ≠ 0 → Omitted pm earlier k → Omitted pm request k) :
    Reached device pm request σ' := by
  obtain ⟨-, loaded, m, hprepare, rfl | hlayout⟩ := succeeds_loads hsucceeds
  · exact h.load halike hprepare hkept hinputs homitted
  · exact (h.load halike hprepare hkept hinputs homitted).layOut hlayout

variable {requests : List Request}

/-- **A repeatable history.** -/
theorem Reached.history (h : Reached device pm request σ)
    (hvalidate : ∀ request model, validateRequest request model = true →
      request.inputs.length = model.inputIndexes.length)
    (hinputs : pm.model.inputIndexes ≠ []) (hrepeatable : Repeatable device pm requests request)
    (hrun : History validateRequest device σ requests σ') : Reached device pm request σ' := by
  induction hrun with
  | nil => exact h
  | @cons σ σ₁ σ₂ rt earlier entry requests halike first rest ih =>
    have hlength := hvalidate _ _ (succeeds_loads first).1
    rw [h.same.model] at hlength
    have hne : earlier.inputs ≠ [] := by
      intro hnil
      rw [hnil, length_nil] at hlength
      exact hinputs (length_eq_zero_iff.mp hlength.symm)
    refine ih (h.succeeds halike first (hlength ▸ hrepeatable.kept) hne
      (hrepeatable.omitted earlier mem_cons_self)) ⟨hrepeatable.kept, ?_, hrepeatable.filled⟩
    exact fun earlier hearlier => hrepeatable.omitted earlier (mem_cons_of_mem _ hearlier)

/-- The contents that are loaded behind a history. -/
theorem Reached.contents (h : Reached device pm request σ) (halike : device.Alike rt)
    (hprepare : σ.prepare rt request = some (RET_OK, loaded, m))
    (hkept : ∀ k < request.inputs.length, pm.Kept k) (hinputs : request.inputs ≠ [])
    (hfilled : ∀ base, pm.baseBuffers device = some base → ∀ k buffer, base[k]? = some buffer →
      buffer.size ≠ 0 → ¬ Omitted pm request k → Fills pm request k buffer.size) :
    ∃ base buffers, pm.baseBuffers device = some base ∧ loaded.inputAddr = some buffers ∧
      buffers.length = base.length ∧
      ∀ k first now, base[k]? = some first → buffers[k]? = some now →
        (first.size = 0 → now.contents = (0, first.addr.map fun _ => [])) ∧
        (first.size ≠ 0 → Omitted pm request k → now.contents = (0, some [])) ∧
        (first.size ≠ 0 → ¬ Omitted pm request k → now.contents =
          (first.size, some ((loadedBytes request k first.size).take first.size))) := by
  obtain ⟨ready, hready, hload⟩ := prepare_loads hprepare
  obtain ⟨hsame, -, -, base, buffers, hbase, haddr, hlength, hdescends⟩ :=
    h.ready halike hready hload hkept hinputs
  obtain ⟨⟨addr, noted, hreloaded, hcount⟩, -, -⟩ := loadInputs_reloaded _ hload
  have haddr' : loaded.inputAddr = addr := by rw [hreloaded]
  rw [haddr, map_some] at hcount
  obtain ⟨buffers', hbuffers', hlength'⟩ := map_eq_some_iff.mp hcount
  have hnow : loaded.inputAddr = some buffers' := haddr'.trans hbuffers'
  refine ⟨base, buffers', hbase, hnow, hlength'.trans hlength, fun k first now hfirst hk => ?_⟩
  have hlt : k < buffers.length := hlength ▸ (List.getElem?_eq_some_iff.mp hfirst).1
  have hbefore := getElem?_eq_getElem hlt
  have hdescends := hdescends k first _ hfirst hbefore
  have hfilled := hfilled base hbase k first hfirst
  rw [← hsame.omitted] at hdescends hfilled
  rw [← hsame.fills] at hfilled
  have hcontents := loadInputData_contents hload
    (fun hwithin => (hsame.kept k).mpr (hkept k hwithin))
    (by rw [inputBuffer, haddr, bind_some, hbefore]) hdescends hfilled
    (by rw [inputBuffer, hnow, bind_some, hk])
  rw [hsame.omitted] at hcontents
  exact hcontents

/-- **What is loaded behind two histories is the same.** -/
theorem Reached.submission (h : Reached device pm request σ) (h' : Reached device pm request σ')
    (halike : device.Alike rt) (halike' : device.Alike rt')
    (hprepare : σ.prepare rt request = some (RET_OK, loaded, m))
    (hprepare' : σ'.prepare rt' request = some (RET_OK, loaded', m'))
    (hkept : ∀ k < request.inputs.length, pm.Kept k) (hinputs : request.inputs ≠ [])
    (hfilled : ∀ base, pm.baseBuffers device = some base → ∀ k buffer, base[k]? = some buffer →
      buffer.size ≠ 0 → ¬ Omitted pm request k → Fills pm request k buffer.size) :
    loaded.submission = loaded'.submission := by
  have hnoted := (h.load halike hprepare hkept hinputs fun _ _ _ _ _ _ homitted => homitted).noted
  have hnoted' := (h'.load halike' hprepare' hkept hinputs fun _ _ _ _ _ _ homitted => homitted).noted
  obtain ⟨base, buffers, hbase, haddr, hlength, hcontents⟩ :=
    h.contents halike hprepare hkept hinputs hfilled
  obtain ⟨base', buffers', hbase', haddr', hlength', hcontents'⟩ :=
    h'.contents halike' hprepare' hkept hinputs hfilled
  rw [hbase, some.injEq] at hbase'
  subst hbase'
  rw [EdenPreparedModel.submission, EdenPreparedModel.submission, haddr, haddr', hnoted, hnoted',
    map_some, map_some, Submission.mk.injEq, some.injEq]
  refine ⟨ext_getElem? fun k => ?_, rfl⟩
  rw [getElem?_map, getElem?_map]
  cases hfirst : base[k]? with
  | none =>
    have hbeyond := List.getElem?_eq_none_iff.mp hfirst
    rw [List.getElem?_eq_none_iff.mpr (by omega), List.getElem?_eq_none_iff.mpr (by omega)]
  | some first =>
    have hlt := (List.getElem?_eq_some_iff.mp hfirst).1
    have hnow := getElem?_eq_getElem (l := buffers) (i := k) (by omega)
    have hnow' := getElem?_eq_getElem (l := buffers') (i := k) (by omega)
    obtain ⟨hzero, homitted, hfull⟩ := hcontents k first _ hfirst hnow
    obtain ⟨hzero', homitted', hfull'⟩ := hcontents' k first _ hfirst hnow'
    rw [hnow, hnow', map_some, map_some, some.injEq]
    by_cases hsize : first.size = 0
    · rw [hzero hsize, hzero' hsize]
    · by_cases hgiven : Omitted pm request k
      · rw [homitted hsize hgiven, homitted' hsize hgiven]
      · rw [hfull hsize hgiven, hfull' hsize hgiven]

/-- And the tensors fill it. -/
theorem Reached.full (h : Reached device pm request σ) (halike : device.Alike rt)
    (hprepare : σ.prepare rt request = some (RET_OK, loaded, m))
    (hkept : ∀ k < request.inputs.length, pm.Kept k) (hinputs : request.inputs ≠ [])
    (hrepeatable : Repeatable device pm requests request) (hconverts : pm.hwPreference ≠ .gpuOnly)
    {buffers : List EdenBuffer} (haddr : loaded.inputAddr = some buffers) {k : ℕ}
    {buffer : EdenBuffer} (hk : buffers[k]? = some buffer) (hsize : buffer.size ≠ 0) :
    pm.TensorFills k buffer.size := by
  obtain ⟨base, buffers', hbase, haddr', hlength, hcontents⟩ :=
    h.contents halike hprepare hkept hinputs fun base hbase k buffer hk hsize homitted =>
      (hrepeatable.filled base hbase k buffer hk hsize homitted).1
  obtain rfl := some.inj (haddr.symm.trans haddr')
  have hlt : k < base.length := hlength ▸ (List.getElem?_eq_some_iff.mp hk).1
  have hfirst := getElem?_eq_getElem hlt
  obtain ⟨hzero, homitted, hfull⟩ := hcontents k _ buffer hfirst hk
  by_cases hnone : base[k].size = 0
  · exact absurd (Prod.mk.inj (hzero hnone)).1 hsize
  by_cases hgiven : Omitted pm request k
  · exact absurd (Prod.mk.inj (homitted hnone hgiven)).1 hsize
  rw [(Prod.mk.inj (hfull hnone hgiven)).1]
  exact (hrepeatable.filled base hbase k _ hfirst hnone hgiven).2 hconverts

end Reached

/-! ## Two histories -/

section Independent

variable {validateRequest : Request → Model → Bool} {device rt rt' : Runtime}
variable {pm σ σ' loaded : EdenPreparedModel} {request : Request} {m : ExecuteMemory}

theorem SameModel.symm (h : SameModel σ σ') : SameModel σ' σ :=
  ⟨h.model.symm, h.hwPreference.symm, h.mapOperandIdFromAToE.symm, h.inputConsumers.symm⟩

/-- What is handed to the runtime is what was loaded, laid out. -/
theorem submitted_loads {s : Submission} (h : σ.submitted rt request = some s) :
    ∃ loaded m, σ.prepare rt request = some (RET_OK, loaded, m) ∧
      (layOutInputs rt loaded).map EdenPreparedModel.submission = some s := by
  obtain ⟨⟨ret, loaded, m⟩, hprepare, h⟩ := bind_eq_some_iff.mp h
  split at h
  · contradiction
  · rename_i hret
    have hok : ret = RET_OK := not_not.mp hret
    obtain ⟨outputs, -, h⟩ := bind_eq_some_iff.mp h
    split at h
    · contradiction
    · exact ⟨loaded, m, by rw [hprepare, hok], h⟩

/-- The buffers of a model without inputs are as they were. -/
structure Untouched (pm σ : EdenPreparedModel) : Prop where
  same : SameModel pm σ
  inputAddr : σ.inputAddr = pm.inputAddr
  noted : σ.updatedOperations = pm.updatedOperations

theorem Untouched.load (h : Untouched pm σ)
    (hprepare : σ.prepare rt request = some (RET_OK, loaded, m)) (hinputs : request.inputs = []) :
    Untouched pm loaded := by
  obtain ⟨ready, hready, hload⟩ := prepare_loads hprepare
  obtain ⟨hsame, hnoted, hbuffers⟩ := makeReady_ok hready
  rw [loadInputData, hinputs] at hload
  simp only [loadInputs, some.injEq, Prod.mk.injEq, true_and] at hload
  rw [← hload.1]
  refine ⟨h.same.trans hsame, ?_, hnoted.trans h.noted⟩
  rcases hbuffers with ⟨-, hstay⟩ | ⟨-, hopen, -⟩
  · exact hstay.trans h.inputAddr
  · rw [hinputs] at hopen
    exact absurd hopen (by simp [resolveInputs])

theorem Untouched.layOut (h : Untouched pm σ) (hlayout : layOutInputs rt σ = some σ')
    (hindexes : pm.model.inputIndexes = []) : Untouched pm σ' := by
  unfold layOutInputs at hlayout
  split at hlayout
  · exact some.inj hlayout ▸ h
  · obtain ⟨converted, hconverted, rfl⟩ := map_eq_some_iff.mp hlayout
    refine ⟨h.same.trans ⟨rfl, rfl, rfl, rfl⟩, ?_, h.noted⟩
    rw [← h.inputAddr]
    dsimp only
    cases haddr : σ.inputAddr with
    | none => rfl
    | some buffers =>
      rw [haddr, getD_some] at hconverted
      cases buffers with
      | nil => rw [← some.inj hconverted]; rfl
      | cons buffer buffers =>
        rw [convertInputs, h.same.model, hindexes] at hconverted
        contradiction

theorem Untouched.history {requests : List Request} (h : Untouched pm σ)
    (hvalidate : ∀ request model, validateRequest request model = true →
      request.inputs.length = model.inputIndexes.length)
    (hindexes : pm.model.inputIndexes = [])
    (hrun : History validateRequest device σ requests σ') : Untouched pm σ' := by
  induction hrun with
  | nil => exact h
  | @cons σ σ₁ σ₂ rt earlier entry requests halike first rest ih =>
    obtain ⟨hvalid, loaded, m, hprepare, hleft⟩ := succeeds_loads first
    have hlength := hvalidate _ _ hvalid
    rw [h.same.model, hindexes] at hlength
    have hloaded := h.load hprepare (length_eq_zero_iff.mp hlength)
    rcases hleft with rfl | hlayout
    · exact ih hloaded
    · exact ih (hloaded.layOut hlayout hindexes)

/-- **Executions do not influence each other**: behind two repeatable histories of a
prepared model, a request hands the same input buffers and the same updated operations to
the runtime, whatever the memory of each execution held. -/
theorem executions_independent {history history' : List Request} {entry : EntryPoint}
    {τ : EdenPreparedModel} {s s' : Submission}
    (hvalidate : ∀ request model, validateRequest request model = true →
      request.inputs.length = model.inputIndexes.length)
    (hprepared : pm.Prepared)
    (hrepeatable : Repeatable device pm history request)
    (hrepeatable' : Repeatable device pm history' request)
    (hrun : History validateRequest device pm history σ)
    (hrun' : History validateRequest device pm history' σ')
    (halike : device.Alike rt) (halike' : device.Alike rt')
    (hlast : Succeeds validateRequest rt σ request entry τ)
    (hs : σ.submitted rt request = some s) (hs' : σ'.submitted rt' request = some s') :
    s = s' := by
  obtain ⟨loaded, m, hprepare, hlaidOut⟩ := submitted_loads hs
  obtain ⟨loaded', m', hprepare', hlaidOut'⟩ := submitted_loads hs'
  have hoffset : rt'.inputOffset = rt.inputOffset :=
    halike'.inputOffset.trans halike.inputOffset.symm
  by_cases hindexes : pm.model.inputIndexes = []
  · have hleft := Untouched.history ⟨SameModel.refl pm, rfl, rfl⟩ hvalidate hindexes hrun
    have hleft' := Untouched.history ⟨SameModel.refl pm, rfl, rfl⟩ hvalidate hindexes hrun'
    have hlength := hvalidate _ _ (succeeds_loads hlast).1
    rw [hleft.same.model, hindexes] at hlength
    have hloaded := hleft.load hprepare (length_eq_zero_iff.mp hlength)
    have hloaded' := hleft'.load hprepare' (length_eq_zero_iff.mp hlength)
    have hsubmission : loaded.submission = loaded'.submission := by
      rw [EdenPreparedModel.submission, EdenPreparedModel.submission, hloaded.inputAddr,
        hloaded'.inputAddr, hloaded.noted, hloaded'.noted]
    rw [layOutInputs_submission hoffset (hloaded.same.symm.trans hloaded'.same) hsubmission
      fun _ _ _ k _ _ _ operand hoperand => ?_, hlaidOut'] at hlaidOut
    · exact (some.inj hlaidOut).symm
    · rw [hloaded.same.model, Model.operandAt, hindexes] at hoperand
      contradiction
  have hleft := (reached_refl hprepared device request).history hvalidate hindexes hrepeatable hrun
  have hleft' :=
    (reached_refl hprepared device request).history hvalidate hindexes hrepeatable' hrun'
  have hlength := hvalidate _ _ (succeeds_loads hlast).1
  rw [hleft.same.model] at hlength
  have hne : request.inputs ≠ [] := by
    intro hnil
    rw [hnil, length_nil] at hlength
    exact hindexes (length_eq_zero_iff.mp hlength.symm)
  have hkept : ∀ k < request.inputs.length, pm.Kept k := hlength ▸ hrepeatable.kept
  have hall : ∀ base, pm.baseBuffers device = some base → ∀ k buffer, base[k]? = some buffer →
      buffer.size ≠ 0 → Omitted pm request k → Omitted pm request k :=
    fun _ _ _ _ _ _ homitted => homitted
  have hsame := (hleft.load halike hprepare hkept hne hall).same
  have hsame' := (hleft'.load halike' hprepare' hkept hne hall).same
  have hsubmission := hleft.submission hleft' halike halike' hprepare hprepare' hkept hne
    fun base hbase k buffer hk hsize homitted =>
      (hrepeatable.filled base hbase k buffer hk hsize homitted).1
  rw [layOutInputs_submission hoffset (hsame.symm.trans hsame') hsubmission
    fun hconverts buffers haddr k buffer hk hsize => ?_, hlaidOut'] at hlaidOut
  · exact (some.inj hlaidOut).symm
  · have hfull := hleft.full halike hprepare hkept hne hrepeatable
      (hsame.hwPreference ▸ hconverts) haddr hk hsize
    unfold EdenPreparedModel.TensorFills
    rw [hsame.model]
    exact hfull

end Independent

/-! ## A request that omits an input and one that has it -/

/-- A model of one operation on one input. -/
def oneInputModel : EdenPreparedModel :=
  { dynamicModel with
    model := { dynamicModel.model with
      operands := [⟨.tensorFloat32, [1]⟩, ⟨.tensorFloat32, [1]⟩] } }

/-- `dynamicRequest` without its input. -/
def omittingRequest : Request :=
  { dynamicRequest with inputs := [⟨true, 0, 0, 0, []⟩] }

/-- As many arguments as the model has inputs. -/
def countsInputs (request : Request) (model : Model) : Bool :=
  request.inputs.length = model.inputIndexes.length

/-- The executions of a list of requests, as a function. -/
def executeAll (rt : Runtime) : EdenPreparedModel → List Request → Option EdenPreparedModel
  | pm, [] => some pm
  | pm, request :: requests =>
      (pm.call countsInputs rt request .execute).bind fun answer =>
        if answer.2.notified = [.none] then executeAll rt answer.2.pm requests else none

variable {requests : List Request}

theorem history_of_executeAll {rt : Runtime} {pm σ : EdenPreparedModel}
    (h : executeAll rt pm requests = some σ) : History countsInputs rt pm requests σ := by
  induction requests generalizing pm with
  | nil => exact some.inj h ▸ History.nil pm
  | cons request requests ih =>
    obtain ⟨answer, hanswer, h⟩ := bind_eq_some_iff.mp h
    split at h
    · rename_i hnotified
      exact History.cons ⟨rfl, rfl⟩ ⟨answer, hanswer, hnotified, rfl⟩ (ih h)
    · contradiction

/-- What is handed to the runtime for the last of the requests, if all succeed. -/
def submittedBehind (rt : Runtime) (pm : EdenPreparedModel) (requests : List Request)
    (request : Request) : Option Submission :=
  (executeAll rt pm requests).bind fun σ =>
    (executeAll rt σ [request]).bind fun _ => σ.submitted rt request

theorem of_submittedBehind {rt : Runtime} {pm : EdenPreparedModel} {request : Request}
    {s : Submission} (h : submittedBehind rt pm requests request = some s) :
    ∃ σ τ, History countsInputs rt pm requests σ ∧
      Succeeds countsInputs rt σ request .execute τ ∧ σ.submitted rt request = some s := by
  obtain ⟨σ, hσ, h⟩ := bind_eq_some_iff.mp h
  obtain ⟨τ, hτ, h⟩ := bind_eq_some_iff.mp h
  obtain ⟨answer, hanswer, hτ⟩ := bind_eq_some_iff.mp hτ
  split at hτ
  · rename_i hnotified
    exact ⟨σ, _, history_of_executeAll hσ, ⟨answer, hanswer, hnotified, rfl⟩, h⟩
  · contradiction

/-- The same request twice. -/
theorem executions_independent_twice :
    ∃ s, submittedBehind idleRuntime oneInputModel [dynamicRequest] dynamicRequest = some s ∧
      submittedBehind idleRuntime oneInputModel [] dynamicRequest = some s := by
  have hs : (submittedBehind idleRuntime oneInputModel [dynamicRequest] dynamicRequest).isSome :=
    by decide +kernel
  have hs' : (submittedBehind idleRuntime oneInputModel [] dynamicRequest).isSome := by
    decide +kernel
  obtain ⟨s, hs⟩ := isSome_iff_exists.mp hs
  obtain ⟨s', hs'⟩ := isSome_iff_exists.mp hs'
  obtain ⟨σ, τ, hrun, hlast, hsubmitted⟩ := of_submittedBehind hs
  obtain ⟨σ', -, hrun', -, hsubmitted'⟩ := of_submittedBehind hs'
  have hkept : ∀ k < oneInputModel.model.inputIndexes.length, oneInputModel.Kept k := by
    intro k hk
    obtain rfl : k = 0 := Nat.lt_one_iff.mp hk
    exact ⟨0, rfl, rfl⟩
  have hfilled : ∀ base, oneInputModel.baseBuffers idleRuntime = some base → ∀ k buffer,
      base[k]? = some buffer → buffer.size ≠ 0 → ¬ Omitted oneInputModel dynamicRequest k →
      Fills oneInputModel dynamicRequest k buffer.size ∧
        (oneInputModel.hwPreference ≠ .gpuOnly → oneInputModel.TensorFills k buffer.size) := by
    intro base hbase k buffer hk _ _
    obtain rfl : [⟨some [0, 0, 0, 0], false⟩] = base := some.inj hbase
    cases k with
    | zero =>
      obtain rfl := some.inj hk
      exact ⟨⟨_, rfl, rfl⟩, fun _ operand hoperand => some.inj hoperand ▸ rfl⟩
    | succ k => contradiction
  have hrepeatable : Repeatable idleRuntime oneInputModel [dynamicRequest] dynamicRequest := by
    refine ⟨hkept, fun _ hmem _ _ _ _ _ _ h => ?_, hfilled⟩
    rw [mem_singleton] at hmem
    exact hmem ▸ h
  have hrepeatable' : Repeatable idleRuntime oneInputModel [] dynamicRequest :=
    ⟨hkept, fun _ hearlier => absurd hearlier not_mem_nil, hfilled⟩
  have hequal := executions_independent (fun _ _ h => of_decide_eq_true h) ⟨rfl, rfl⟩ hrepeatable
    hrepeatable' hrun hrun' ⟨rfl, rfl⟩ ⟨rfl, rfl⟩ hlast hsubmitted hsubmitted'
  exact ⟨s, hs, hequal ▸ hs'⟩

/-- **An input that is supplied after it was omitted is not loaded**: its buffer has no size
any more. -/
theorem not_executions_independent :
    ¬ ∀ (validateRequest : Request → Model → Bool) (device rt rt' : Runtime)
      (pm : EdenPreparedModel) (history history' : List Request) (request : Request)
      (entry entry' : EntryPoint) (σ σ' τ τ' : EdenPreparedModel) (s s' : Submission),
      (∀ request model, validateRequest request model = true →
        request.inputs.length = model.inputIndexes.length) →
      pm.Prepared → History validateRequest device pm history σ →
      History validateRequest device pm history' σ' →
      device.Alike rt → device.Alike rt' →
      Succeeds validateRequest rt σ request entry τ →
      Succeeds validateRequest rt' σ' request entry' τ' →
      σ.submitted rt request = some s → σ'.submitted rt' request = some s' → s = s' := by
  intro h
  have hs : submittedBehind idleRuntime oneInputModel [omittingRequest] dynamicRequest =
      some ⟨some [(0, some [])], []⟩ := by
    decide +kernel
  have hs' : submittedBehind idleRuntime oneInputModel [] dynamicRequest =
      some ⟨some [(4, some [0, 0, 0, 0])], []⟩ := by
    decide +kernel
  obtain ⟨σ, τ, hrun, hlast, hsubmitted⟩ := of_submittedBehind hs
  obtain ⟨σ', τ', hrun', hlast', hsubmitted'⟩ := of_submittedBehind hs'
  have hequal := h countsInputs idleRuntime idleRuntime idleRuntime oneInputModel _ _
    dynamicRequest _ _ σ σ' τ τ' _ _ (fun _ _ h => of_decide_eq_true h) ⟨rfl, rfl⟩ hrun hrun'
    ⟨rfl, rfl⟩ ⟨rfl, rfl⟩ hlast hlast' hsubmitted hsubmitted'
  exact absurd hequal (by decide)

end ExynosVendor.Eden
