import ExynosVendor.Eden.Answers

/-!
# Outputs at their destinations

The scheduler collects the mapped addresses of the outputs that have a value and
then looks an address up by the number that the output has among all of them. So
the copy goes to its own pool where the two numbers lead to one pool, and past the
end of the vector where an output without a value precedes the last that is copied.

`Aimed` is what has to be the case of a request, and `outputs_land_iff` says that it
is the case exactly if, whatever the device computes, each output comes to its
destination and nothing else is written.
-/

namespace ExynosVendor.Eden

open List Option

/-! ## What the claim of a successful answer is -/

/-- The runtime, with other bytes left by the device. -/
def Runtime.withResults (rt : Runtime) (results : ℕ → ℕ → BitVec 8) : Runtime :=
  { rt with results := results }

/-- An output is empty: by its operand's dimensions where nothing is executed, and
else by what the runtime reports. -/
def EmptyOutput (rt : Runtime) (model : Model) (idx : ℕ) : Prop :=
  let shape := (rt.getOutputBufferShape idx).2
  if model.outputDimensions.any skipZeroSize then
    ∃ operand, model.operandAt model.outputIndexes idx = some operand ∧ 0 ∈ operand.dimensions
  else shape.1 = 0 ∨ shape.2.1 = 0 ∨ shape.2.2.1 = 0 ∨ shape.2.2.2 = 0

/-- An output whose bytes the client waits for. -/
def Wanted (rt : Runtime) (model : Model) (request : Request) (idx : ℕ) (arg : RequestArgument) :
    Prop :=
  request.outputs[idx]? = some arg ∧ arg.hasNoValue = false ∧ ¬ EmptyOutput rt model idx ∧
    0 < arg.length

/-- An address is one of an output's destination. -/
def Covers (arg : RequestArgument) (poolIndex addr : ℕ) : Prop :=
  arg.poolIndex = poolIndex ∧ arg.offset ≤ addr ∧ addr < arg.offset + arg.length

/-- The bytes of an output buffer, in the layout of the client: as they are for the
GPU, else the operand's tensor. -/
def OutputData (rt : Runtime) (pm : EdenPreparedModel) (idx : ℕ) (arg : RequestArgument)
    (out : List (BitVec 8)) : Prop :=
  ∃ bytes, rt.outputBytes pm idx = some bytes ∧ arg.length ≤ bytes.length ∧
    if pm.hwPreference = .gpuOnly then out = bytes.take arg.length
    else ∃ operand, pm.layoutOperand idx = some operand ∧
      arg.length = (getEdenDimensions operand.dimensions).volume *
        (getDataType operand.type).width ∧
      (getEdenDimensions operand.dimensions).IsNHWC (getDataType operand.type).width
        (npuOffset pm.hwPreference (getDataType operand.type) rt.outputOffset)
        (bytes.take arg.length) out

/-- An output's bytes are at its own pool and offset. -/
def Landed (rt : Runtime) (pm : EdenPreparedModel) (m : ExecuteMemory) (idx : ℕ)
    (arg : RequestArgument) : Prop :=
  ∃ memory out, m.object (.pool arg.poolIndex) = some memory ∧
    Block.load memory arg.offset arg.length = some out ∧ OutputData rt pm idx arg out

/-- A byte of a pool. -/
def ExecuteMemory.byteAt (m : ExecuteMemory) (poolIndex addr : ℕ) : Option (BitVec 8) :=
  (m.object (.pool poolIndex)).bind fun bytes => bytes[addr]?

/-- The loop over the outputs is entered with these addresses. -/
def CopiesWith (rt : Runtime) (pm : EdenPreparedModel) (request : Request) (m : ExecuteMemory)
    (vecMappedPtr : List MappedPtr) (m' : ExecuteMemory) : Prop :=
  (∃ outputs, pm.model.outputDimensions = some outputs ∧ outputSizeSum outputs ≠ 0 ∧
    skipZeroSize outputs = false) ∧
  request.outputs.length = pm.outputNumOfBuffers ∧ (layOutInputs rt pm).isSome ∧
  rt.executeRequest = RET_OK ∧
  mapOutputs m [] request.outputs = some (RET_OK, vecMappedPtr, m') ∧ 0 ≤ rt.waitFor

/-- **The outputs reach their destinations**: the loop over them leaves no object, and
if it is notified that all is well, the wanted outputs have landed and no other byte of
a pool is modified. -/
def OutputsLand (rt : Runtime) (pm : EdenPreparedModel) (request : Request)
    (m : ExecuteMemory) : Prop :=
  (∀ vecMappedPtr m', CopiesWith rt pm request m vecMappedPtr m' →
    (requestOneExecutionInAsyncBase rt pm request m).isSome) ∧
  ∀ o, requestOneExecutionInAsyncBase rt pm request m = some o → o.notified = [.none] →
    (∀ idx arg, Wanted rt pm.model request idx arg → Landed rt pm o.copied.memory idx arg) ∧
    ∀ poolIndex addr,
      (∀ idx arg, Wanted rt pm.model request idx arg → ¬ Covers arg poolIndex addr) →
      o.copied.memory.byteAt poolIndex addr = m.byteAt poolIndex addr

/-! ## When they do -/

/-- A wanted output has a size that an `int32_t` holds, the address of its pool, and
the length of its tensor where it is converted. -/
structure AimedAt (rt : Runtime) (pm : EdenPreparedModel) (request : Request)
    (pools : List HidlMemory) (idx : ℕ) (arg : RequestArgument) : Prop where
  size : rt.totalSize idx ≠ 0
  address : OwnAddress request pools idx arg
  tensor : pm.hwPreference ≠ .gpuOnly → ∃ operand, pm.layoutOperand idx = some operand ∧
    arg.length = (getEdenDimensions operand.dimensions).volume * (getDataType operand.type).width

/-- The loop over the outputs is entered: what it needs is there, all pools are mapped, and
the execution is waited for. -/
def Copying (rt : Runtime) (pm : EdenPreparedModel) (request : Request) (m : ExecuteMemory) :
    Prop :=
  (∃ outputs, pm.model.outputDimensions = some outputs ∧ outputSizeSum outputs ≠ 0 ∧
    skipZeroSize outputs = false) ∧
  request.outputs.length = pm.outputNumOfBuffers ∧ (layOutInputs rt pm).isSome ∧
  rt.executeRequest = RET_OK ∧
  Round.loop (request.outputs.map (mapRound m.pools)) = .go ∧ 0 ≤ rt.waitFor

/-- **The condition on a request.** What is taken for empty is empty; no access of the
loop leaves its object; and if the loop goes through, each wanted output is aimed at its
pool and no two of them at one byte. -/
structure Aimed (rt : Runtime) (pm : EdenPreparedModel) (request : Request)
    (m : ExecuteMemory) : Prop where
  skipped : ∀ outputs, pm.model.outputDimensions = some outputs → outputSizeSum outputs ≠ 0 →
    skipZeroSize outputs = true → ∀ idx arg, ¬ Wanted rt pm.model request idx arg
  within : Copying rt pm request m → Round.loop (outputRounds rt pm request m.pools) ≠ .fault
  aimed : Copying rt pm request m → Round.loop (outputRounds rt pm request m.pools) = .go →
    ∀ idx arg, Wanted rt pm.model request idx arg → AimedAt rt pm request m.pools idx arg
  apart : Copying rt pm request m → Round.loop (outputRounds rt pm request m.pools) = .go →
    ∀ idx arg, Wanted rt pm.model request idx arg →
    ∀ idx' arg', Wanted rt pm.model request idx' arg' → idx ≠ idx' →
    ∀ poolIndex addr, Covers arg poolIndex addr → ¬ Covers arg' poolIndex addr

/-! ## The run of the loop -/

/-- The loop over the outputs, where it goes through. -/
inductive CopyRun (rt : Runtime) (pm : EdenPreparedModel) (vecMappedPtr : List MappedPtr) :
    ExecuteMemory → ℕ → List RequestArgument → ExecuteMemory → Prop where
  | done (m : ExecuteMemory) (idx : ℕ) : CopyRun rt pm vecMappedPtr m idx [] m
  | skip {m m' : ExecuteMemory} {idx : ℕ} {arg : RequestArgument} {args : List RequestArgument}
      (hskip : rt.totalSize idx = 0 ∨ arg.hasNoValue = true)
      (hrest : CopyRun rt pm vecMappedPtr m (idx + 1) args m') :
      CopyRun rt pm vecMappedPtr m idx (arg :: args) m'
  | copy {m m' m'' : ExecuteMemory} {idx : ℕ} {arg : RequestArgument}
      {args : List RequestArgument} {ptr : MappedPtr} (htotal : rt.totalSize idx ≠ 0)
      (hvalue : arg.hasNoValue = false) (hptr : vecMappedPtr[idx]? = some ptr)
      (hcopy : copyOutput rt pm m ptr idx arg = some m'')
      (hrest : CopyRun rt pm vecMappedPtr m'' (idx + 1) args m') :
      CopyRun rt pm vecMappedPtr m idx (arg :: args) m'

theorem copyOutputs_run {rt : Runtime} {pm : EdenPreparedModel} {vecMappedPtr : List MappedPtr}
    (args : List RequestArgument) {c c' : Copied} {idx : ℕ}
    (h : copyOutputs rt pm vecMappedPtr c idx args = some (RET_OK, c')) :
    CopyRun rt pm vecMappedPtr c.memory idx args c'.memory := by
  induction args generalizing c idx with
  | nil =>
    rw [copyOutputs, some.injEq, Prod.mk.injEq] at h
    exact h.2 ▸ CopyRun.done _ _
  | cons arg args ih =>
    rw [copyOutputs] at h
    split at h
    · rename_i hshape
      rw [some.injEq, Prod.mk.injEq] at h
      exact absurd h.1 hshape
    · split at h
      · rename_i htotal
        exact CopyRun.skip (Or.inl htotal) (ih h)
      · rename_i htotal
        split at h
        · rename_i hvalue
          exact CopyRun.skip (Or.inr hvalue) (ih h)
        · rename_i hvalue
          obtain ⟨ptr, hptr, h⟩ := bind_eq_some_iff.mp h
          split at h
          · rw [some.injEq, Prod.mk.injEq] at h
            exact absurd h.1 (by decide)
          · obtain ⟨m, hcopy, h⟩ := bind_eq_some_iff.mp h
            exact CopyRun.copy htotal (by simpa using hvalue) hptr hcopy (ih h)

section Run

variable {rt : Runtime} {pm : EdenPreparedModel} {vecMappedPtr : List MappedPtr}
variable {m m' : ExecuteMemory} {idx : ℕ} {arg : RequestArgument} {args : List RequestArgument}
variable {poolIndex addr : ℕ}

/-- A landing changes no byte outside of its range. -/
theorem getElem?_landing {memory memory' : List (BitVec 8)}
    (h : landing rt pm idx arg memory = some memory')
    (hout : addr < arg.offset ∨ arg.offset + arg.length ≤ addr) :
    memory'[addr]? = memory[addr]? := by
  unfold landing at h
  obtain ⟨bytes, -, h⟩ := bind_eq_some_iff.mp h
  obtain ⟨data, hdata, h⟩ := bind_eq_some_iff.mp h
  obtain ⟨stored, hstored, h⟩ := bind_eq_some_iff.mp h
  have hdatalen := Block.length_load hdata
  have hstore : stored[addr]? = memory[addr]? := by
    rw [Block.getElem?_store hstored, if_neg (by omega)]
  split at h
  · rw [← some.inj h, hstore]
  · obtain ⟨operand, -, h⟩ := bind_eq_some_iff.mp h
    rw [← hstore]
    unfold convertDataLayoutFromNCHWToNHWC at h
    split at h
    · rw [some.inj h]
    · unfold convertToNHWC convert at h
      split at h
      · contradiction
      · obtain ⟨input, hinput, h⟩ := bind_eq_some_iff.mp h
        split at h
        · rw [Block.getElem?_store h, length_moved (getDataType operand.type).width_pos
            (fun _ => length_map _) (Block.length_load hinput), if_neg (by omega)]
        · contradiction

/-- **What a landing leaves** in its range, if that has the length of the tensor. -/
theorem landing_load {memory memory' : List (BitVec 8)}
    (h : landing rt pm idx arg memory = some memory') (hlength : 0 < arg.length)
    (htensor : pm.hwPreference ≠ .gpuOnly → ∃ operand, pm.layoutOperand idx = some operand ∧
      arg.length = (getEdenDimensions operand.dimensions).volume *
        (getDataType operand.type).width) :
    ∃ out, Block.load memory' arg.offset arg.length = some out ∧ OutputData rt pm idx arg out := by
  have hfits := landing_isSome_iff.mp (h ▸ rfl : (landing rt pm idx arg memory).isSome = true)
  unfold landing at h
  obtain ⟨bytes, hbytes, h⟩ := bind_eq_some_iff.mp h
  obtain ⟨data, hdata, h⟩ := bind_eq_some_iff.mp h
  obtain ⟨stored, hstored, h⟩ := bind_eq_some_iff.mp h
  have hdatalen := Block.length_load hdata
  have hread : arg.length ≤ bytes.length := by
    obtain ⟨bytes', hbytes', hle⟩ := hfits.read
    rw [hbytes, some.injEq] at hbytes'
    exact hbytes' ▸ hle
  have hloaded : data = bytes.take arg.length := by
    rw [Block.load_of_le (by omega), some.injEq, drop_zero] at hdata
    exact hdata.symm
  have hload := Block.load_store hstored
  rw [hdatalen] at hload
  by_cases hgpu : pm.hwPreference = .gpuOnly
  · rw [if_pos hgpu, some.injEq] at h
    refine ⟨data, h ▸ hload, bytes, hbytes, hread, ?_⟩
    rw [if_pos hgpu]
    exact hloaded
  · rw [if_neg hgpu] at h
    obtain ⟨operand, hoperand, h⟩ := bind_eq_some_iff.mp h
    obtain ⟨operand', hoperand', hsize⟩ := htensor hgpu
    rw [hoperand, some.injEq] at hoperand'
    subst hoperand'
    obtain ⟨operand', hoperand', hconvert⟩ := hfits.convert hgpu
    rw [hoperand, some.injEq] at hoperand'
    subst hoperand'
    have hint := (hconvert (by omega)).1
    have hwithin : arg.offset + arg.length ≤ stored.length := by
      rw [Block.store_length hstored]
      exact hfits.write
    have hne : arg.length ≠ 0 := by omega
    unfold convertDataLayoutFromNCHWToNHWC at h
    rw [if_neg hne] at h
    obtain ⟨out, hout, hspec⟩ := convertToNHWC_spec (getEdenDimensions operand.dimensions)
      (getDataType operand.type).width_pos
      (npuOffset pm.hwPreference (getDataType operand.type) rt.outputOffset)
      (rt.outputHeap idx) hsize hint hwithin
    rw [hout] at h
    have houtlen : out.length = arg.length := by rw [hspec.length, hsize]
    have hdropped : (stored.drop arg.offset).take arg.length = bytes.take arg.length := by
      rw [Block.load_of_le hwithin, some.injEq] at hload
      rw [hload, hloaded]
    refine ⟨out, houtlen ▸ Block.load_store h, bytes, hbytes, hread, ?_⟩
    rw [if_neg hgpu]
    exact ⟨operand, hoperand, hsize, hdropped ▸ hspec⟩

/-- The copy to one pool leaves the others alone. -/
theorem copyOutput_object {ptr ptr' : MappedPtr} (h : copyOutput rt pm m ptr idx arg = some m')
    (hne : ptr ≠ ptr') : m'.object ptr' = m.object ptr' := by
  rw [copyOutput_eq] at h
  obtain ⟨memory, -, h⟩ := bind_eq_some_iff.mp h
  obtain ⟨landed, -, rfl⟩ := map_eq_some_iff.mp h
  exact ExecuteMemory.object_update_of_ne hne landed

theorem copyOutput_landing {ptr : MappedPtr} (h : copyOutput rt pm m ptr idx arg = some m') :
    ∃ memory memory', m.object ptr = some memory ∧ m'.object ptr = some memory' ∧
      landing rt pm idx arg memory = some memory' := by
  rw [copyOutput_eq] at h
  obtain ⟨memory, hmemory, h⟩ := bind_eq_some_iff.mp h
  obtain ⟨landed, hlanded, rfl⟩ := map_eq_some_iff.mp h
  exact ⟨memory, landed, hmemory, ExecuteMemory.object_update_self hmemory landed, hlanded⟩

theorem CopyRun.sameSizes (h : CopyRun rt pm vecMappedPtr m idx args m') : m.SameSizes m' := by
  induction h with
  | done => exact ExecuteMemory.SameSizes.refl _
  | skip _ _ ih => exact ih
  | copy _ _ _ hcopy _ ih => exact (copyOutput_sameSizes hcopy).trans ih

/-- A byte that no copy covers is as it was. -/
theorem CopyRun.byteAt (h : CopyRun rt pm vecMappedPtr m idx args m')
    (hout : ∀ k arg, (arg, k) ∈ args.zipIdx idx → rt.totalSize k ≠ 0 → arg.hasNoValue = false →
      vecMappedPtr[k]? = some (.pool poolIndex) →
      addr < arg.offset ∨ arg.offset + arg.length ≤ addr) :
    m'.byteAt poolIndex addr = m.byteAt poolIndex addr := by
  induction h with
  | done => rfl
  | skip _ _ ih =>
    exact ih fun k arg hmem => hout k arg (by rw [zipIdx_cons]; exact mem_cons_of_mem _ hmem)
  | @copy m m' m'' idx arg args ptr htotal hvalue hptr hcopy _ ih =>
    rw [ih fun k arg hmem => hout k arg (by
      rw [zipIdx_cons]; exact mem_cons_of_mem _ hmem)]
    unfold ExecuteMemory.byteAt
    by_cases hpool : ptr = .pool poolIndex
    · subst hpool
      obtain ⟨memory, memory', hmemory, hmemory', hlanding⟩ := copyOutput_landing hcopy
      rw [hmemory, hmemory', bind_some, bind_some]
      exact getElem?_landing hlanding (hout idx arg
        (by rw [zipIdx_cons]; exact mem_cons_self) htotal hvalue hptr)
    · rw [copyOutput_object hcopy hpool]

/-- The run up to and including the copy of one output, and what comes after it. -/
theorem CopyRun.split (h : CopyRun rt pm vecMappedPtr m idx args m') {k : ℕ}
    (hmem : (arg, k) ∈ args.zipIdx idx) (htotal : rt.totalSize k ≠ 0)
    (hvalue : arg.hasNoValue = false) :
    ∃ before after ptr rest, vecMappedPtr[k]? = some ptr ∧
      copyOutput rt pm before ptr k arg = some after ∧
      CopyRun rt pm vecMappedPtr after (k + 1) rest m' ∧
      ∀ x ∈ rest.zipIdx (k + 1), x ∈ args.zipIdx idx := by
  induction h with
  | done =>
    rw [zipIdx_nil] at hmem
    contradiction
  | @skip m m' idx arg' args hskip hrest ih =>
    rw [zipIdx_cons, mem_cons] at hmem
    rcases hmem with heq | hmem
    · obtain ⟨rfl, rfl⟩ := Prod.mk.inj heq
      rcases hskip with hzero | hnone
      · exact absurd hzero htotal
      · rw [hvalue] at hnone
        contradiction
    · obtain ⟨before, after, ptr, rest, hptr, hcopy, hafter, hsub⟩ := ih hmem
      refine ⟨before, after, ptr, rest, hptr, hcopy, hafter, fun x hx => ?_⟩
      rw [zipIdx_cons]
      exact mem_cons_of_mem _ (hsub x hx)
  | @copy m m' m'' idx arg' args ptr htotal' hvalue' hptr hcopy hrest ih =>
    rw [zipIdx_cons, mem_cons] at hmem
    rcases hmem with heq | hmem
    · obtain ⟨rfl, rfl⟩ := Prod.mk.inj heq
      refine ⟨m, m'', ptr, args, hptr, hcopy, hrest, fun x hx => ?_⟩
      rw [zipIdx_cons]
      exact mem_cons_of_mem _ hx
    · obtain ⟨before, after, ptr, rest, hptr, hcopy, hafter, hsub⟩ := ih hmem
      refine ⟨before, after, ptr, rest, hptr, hcopy, hafter, fun x hx => ?_⟩
      rw [zipIdx_cons]
      exact mem_cons_of_mem _ (hsub x hx)

end Run

/-! ## From the function to the run -/

section Function

variable {rt : Runtime} {pm : EdenPreparedModel} {request : Request} {m m' : ExecuteMemory}
variable {vecMappedPtr : List MappedPtr} {idx : ℕ} {arg : RequestArgument} {o : Outcome}

/-- The layout of the inputs changes nothing that the outputs are copied by. -/
theorem copyOutputs_layOutInputs {pm' : EdenPreparedModel} (h : layOutInputs rt pm = some pm') :
    copyOutputs rt pm' = copyOutputs rt pm := by
  unfold layOutInputs at h
  split at h
  · rw [some.inj h]
  · obtain ⟨buffers, -, rfl⟩ := map_eq_some_iff.mp h
    have hcopy : copyOutput rt { pm with inputAddr := pm.inputAddr.map fun _ => buffers } =
        copyOutput rt pm := rfl
    funext vec c idx args
    induction args generalizing c idx with
    | nil => rfl
    | cons arg args ih => simp only [copyOutputs, hcopy, ih]

/-- The addresses belong to the outputs that have a value. -/
theorem CopiesWith.addresses (h : CopiesWith rt pm request m vecMappedPtr m') :
    List.Forall₂ (fun arg ptr => AddressOf m' arg.poolIndex ptr)
      (request.outputs.filter fun arg => !arg.hasNoValue) vecMappedPtr ∧ m'.pools = m.pools ∧
      Round.loop (request.outputs.map (mapRound m.pools)) = .go := by
  obtain ⟨-, -, -, -, hmaps, -⟩ := h
  have hspec := mapOutputs_spec request.outputs m []
  cases hloop : Round.loop (request.outputs.map (mapRound m.pools)) with
  | fault =>
    rw [hloop] at hspec
    dsimp only at hspec
    rw [hmaps] at hspec
    contradiction
  | stop =>
    rw [hloop] at hspec
    obtain ⟨ret, vec, m'', hspec, hret⟩ := hspec
    rw [hmaps, some.injEq, Prod.mk.injEq] at hspec
    exact absurd hspec.1.symm hret
  | go =>
    rw [hloop] at hspec
    obtain ⟨ptrs, extra, hspec, haddresses⟩ := hspec
    rw [hmaps, nil_append, some.injEq, Prod.mk.injEq, Prod.mk.injEq] at hspec
    obtain ⟨-, rfl, rfl⟩ := hspec
    exact ⟨haddresses, rfl, rfl⟩

theorem CopiesWith.copying (h : CopiesWith rt pm request m vecMappedPtr m') :
    Copying rt pm request m :=
  ⟨h.1, h.2.1, h.2.2.1, h.2.2.2.1, h.addresses.2.2, h.2.2.2.2.2⟩

theorem Copying.copies (h : Copying rt pm request m) :
    ∃ vecMappedPtr m', CopiesWith rt pm request m vecMappedPtr m' := by
  obtain ⟨hskip, hcount, hinputs, hrequest, hmapped, hwait⟩ := h
  have hspec := mapOutputs_spec request.outputs m []
  rw [hmapped] at hspec
  obtain ⟨ptrs, extra, hmaps, -⟩ := hspec
  exact ⟨_, _, hskip, hcount, hinputs, hrequest, hmaps, hwait⟩

/-- What becomes of the function once the loop is entered. -/
theorem request_of_copies (h : CopiesWith rt pm request m vecMappedPtr m') :
    match Round.loop (outputRounds rt pm request m.pools) with
    | .fault => requestOneExecutionInAsyncBase rt pm request m = none
    | .stop => ∃ o, requestOneExecutionInAsyncBase rt pm request m = some o ∧ o.notified = []
    | .go => ∃ o, requestOneExecutionInAsyncBase rt pm request m = some o ∧
        o.notified = [.none] ∧
        CopyRun rt pm vecMappedPtr m' 0 request.outputs o.copied.memory := by
  obtain ⟨haddresses, hpools, -⟩ := h.addresses
  obtain ⟨⟨outputs, houtputs, hsum, hskip⟩, hcount, hinputs, hrequest, hmaps, hwait⟩ := h
  obtain ⟨pm', hinputs⟩ := isSome_iff_exists.mp hinputs
  have hcopies := copyOutputs_spec rt pm vecMappedPtr request.outputs
    (c := ⟨m', []⟩) (ExecuteMemory.SameSizes.refl m') 0
  rw [copyRounds_eq haddresses, hpools] at hcopies
  have hskip' : ¬ skipZeroSize outputs = true := by simp [hskip]
  unfold requestOneExecutionInAsyncBase requestBody executeOnEden
  simp only [houtputs, bind_some, if_neg hsum, if_neg hskip', if_neg (not_not.mpr hcount),
    hinputs, if_neg (not_not.mpr hrequest), hmaps, ne_eq, not_true_eq_false, if_false,
    if_neg (not_lt.mpr hwait), copyOutputs_layOutInputs hinputs]
  cases hrounds : Round.loop (outputRounds rt pm request m.pools) with
  | fault =>
    rw [hrounds] at hcopies
    simp only [hcopies, map_none]
  | stop =>
    rw [hrounds] at hcopies
    obtain ⟨ret, copied, hcopies, hret⟩ := hcopies
    simp only [hcopies, map_some, hret, not_false_eq_true, if_true]
    exact ⟨_, rfl, rfl⟩
  | go =>
    rw [hrounds] at hcopies
    obtain ⟨m'', hcopies⟩ := hcopies
    have hrun := copyOutputs_run request.outputs hcopies
    simp only [hcopies, map_some, not_true_eq_false, if_false]
    exact ⟨_, rfl, rfl, hrun⟩

theorem request_of_skipped (rt : Runtime) (request : Request) (m : ExecuteMemory)
    {outputs : List (List ℕ)}
    (houtputs : pm.model.outputDimensions = some outputs) (hsum : outputSizeSum outputs ≠ 0)
    (hskip : skipZeroSize outputs = true) :
    ∃ o, requestOneExecutionInAsyncBase rt pm request m = some o ∧ o.notified = [.none] ∧
      o.copied.memory = m := by
  unfold requestOneExecutionInAsyncBase requestBody
  simp only [houtputs, bind_some, if_neg hsum, if_pos hskip, map_some]
  exact ⟨_, rfl, rfl, rfl⟩

/-- There is no other way to a good answer. -/
theorem request_none (h : requestOneExecutionInAsyncBase rt pm request m = some o)
    (hnotified : o.notified = [.none]) :
    (∃ outputs, pm.model.outputDimensions = some outputs ∧ outputSizeSum outputs ≠ 0 ∧
      skipZeroSize outputs = true) ∨
    ∃ vecMappedPtr m', CopiesWith rt pm request m vecMappedPtr m' ∧
      Round.loop (outputRounds rt pm request m.pools) = .go := by
  have hbody := h
  unfold requestOneExecutionInAsyncBase requestBody at hbody
  obtain ⟨executed, hexecuted, ho⟩ := map_eq_some_iff.mp hbody
  obtain ⟨outputs, houtputs, hexit⟩ := bind_eq_some_iff.mp hexecuted
  have hbroken : ∀ {ret : ℤ} {pm' : EdenPreparedModel} {copied : Copied},
      executed = (.broke ret, pm', copied) → ret = RET_OK := by
    rintro ret pm' copied rfl
    by_contra hret
    rw [← ho] at hnotified
    dsimp only at hnotified
    rw [if_neg hret] at hnotified
    exact absurd hnotified (by decide)
  have hreturned : ∀ {ret : ℤ} {pm' : EdenPreparedModel} {copied : Copied},
      executed ≠ (.returned ret, pm', copied) := by
    rintro ret pm' copied rfl
    rw [← ho] at hnotified
    exact absurd hnotified (by simp)
  split at hexit
  · exact absurd (hbroken (some.inj hexit).symm) (by decide)
  rename_i hsum
  split at hexit
  · rename_i hskip
    exact Or.inl ⟨outputs, houtputs, hsum, hskip⟩
  rename_i hskip
  split at hexit
  · exact absurd (hbroken (some.inj hexit).symm) (by decide)
  rename_i hcount
  obtain ⟨pm', hinputs, hexit⟩ := bind_eq_some_iff.mp hexit
  obtain ⟨left, hleft, hexecuted⟩ := map_eq_some_iff.mp hexit
  unfold executeOnEden at hleft
  split at hleft
  · rw [← some.inj hleft] at hexecuted
    exact absurd hexecuted.symm hreturned
  rename_i hrequest
  obtain ⟨⟨ret, vec, m'⟩, hmaps, hleft⟩ := bind_eq_some_iff.mp hleft
  split at hleft
  · rw [← some.inj hleft] at hexecuted
    exact absurd hexecuted.symm hreturned
  rename_i hret
  split at hleft
  · rw [← some.inj hleft] at hexecuted
    exact absurd (hbroken hexecuted.symm) (by decide)
  rename_i hwait
  have hcopies : CopiesWith rt pm request m vec m' := by
    refine ⟨⟨outputs, houtputs, hsum, by simpa using hskip⟩, not_not.mp hcount,
      hinputs ▸ rfl, not_not.mp hrequest, ?_, not_lt.mp hwait⟩
    have hok : ret = RET_OK := not_not.mp hret
    rw [hmaps, hok]
  have hfunction := request_of_copies hcopies
  refine Or.inr ⟨vec, m', hcopies, ?_⟩
  cases hrounds : Round.loop (outputRounds rt pm request m.pools) with
  | go => rfl
  | stop =>
    rw [hrounds] at hfunction
    obtain ⟨o', ho', hnone⟩ := hfunction
    rw [h, some.injEq] at ho'
    rw [← ho', hnotified] at hnone
    contradiction
  | fault =>
    rw [hrounds] at hfunction
    dsimp only at hfunction
    rw [h] at hfunction
    contradiction

/-- So the own address of an output is its pool. -/
theorem CopiesWith.ownAddress_iff (h : CopiesWith rt pm request m vecMappedPtr m') :
    OwnAddress request m.pools idx arg ↔ vecMappedPtr[idx]? = some (.pool arg.poolIndex) := by
  have haddresses := h.addresses.1
  constructor
  · rintro ⟨arg', hpresent, hpool, hshared⟩
    obtain ⟨ptr, hptr, haddress⟩ := (forall₂_getElem? haddresses).2 hpresent
    rw [hptr, (haddress.pool arg.poolIndex).mpr ⟨hpool.symm, by rwa [h.addresses.2.1]⟩]
  · intro hptr
    obtain ⟨arg', hpresent, haddress⟩ := (forall₂_getElem? haddresses).1 hptr
    obtain ⟨hpool, hshared⟩ := (haddress.pool arg.poolIndex).mp rfl
    rw [h.addresses.2.1] at hshared
    exact ⟨arg', hpresent, hpool.symm, hshared⟩

theorem CopiesWith.not_empty (h : CopiesWith rt pm request m vecMappedPtr m')
    (htotal : rt.totalSize idx ≠ 0) : ¬ EmptyOutput rt pm.model idx := by
  obtain ⟨⟨outputs, houtputs, -, hskip⟩, -⟩ := h
  unfold EmptyOutput
  simp only [houtputs, any_some, hskip, Bool.false_eq_true, if_false]
  intro hzero
  refine htotal ?_
  unfold Runtime.totalSize
  dsimp only
  rcases hzero with hzero | hzero | hzero | hzero <;> rw [hzero] <;> simp [toInt]

theorem CopiesWith.wanted (h : CopiesWith rt pm request m vecMappedPtr m')
    (hmem : (arg, idx) ∈ request.outputs.zipIdx) (htotal : rt.totalSize idx ≠ 0)
    (hvalue : arg.hasNoValue = false) (hlength : 0 < arg.length) :
    Wanted rt pm.model request idx arg :=
  ⟨mem_zipIdx_iff_getElem?.mp hmem, hvalue, h.not_empty htotal, hlength⟩

/-! ## The condition is enough -/

/-- A run of a request that is aimed changes no byte outside of what is wanted. -/
theorem Aimed.byteAt (h : Aimed rt pm request m) (hcopies : CopiesWith rt pm request m
    vecMappedPtr m') (hgo : Round.loop (outputRounds rt pm request m.pools) = .go)
    {first rest : ExecuteMemory} {k poolIndex addr : ℕ} {args : List RequestArgument}
    (hrun : CopyRun rt pm vecMappedPtr first k args rest)
    (hsub : ∀ x ∈ args.zipIdx k, x ∈ request.outputs.zipIdx)
    (hout : ∀ idx arg, (arg, idx) ∈ args.zipIdx k → Wanted rt pm.model request idx arg →
      ¬ Covers arg poolIndex addr) :
    rest.byteAt poolIndex addr = first.byteAt poolIndex addr := by
  refine hrun.byteAt fun idx arg hmem htotal hvalue hptr => ?_
  rcases Nat.eq_zero_or_pos arg.length with hzero | hlength
  · omega
  · have hwanted := hcopies.wanted (hsub _ hmem) htotal hvalue hlength
    have hown := hcopies.ownAddress_iff.mp (h.aimed hcopies.copying hgo idx arg hwanted).address
    rw [hptr, some.injEq, MappedPtr.pool.injEq] at hown
    have hcovers := hout idx arg hmem hwanted
    by_contra hin
    exact hcovers ⟨hown.symm, by omega, by omega⟩

/-- **The outputs of a request that is aimed reach their destinations.** -/
theorem Aimed.land (h : Aimed rt pm request m) : OutputsLand rt pm request m := by
  refine ⟨fun vec m' hcopies => ?_, fun o ho hnotified => ?_⟩
  · have hfunction := request_of_copies hcopies
    cases hrounds : Round.loop (outputRounds rt pm request m.pools) with
    | fault => exact absurd hrounds (h.within hcopies.copying)
    | stop =>
      rw [hrounds] at hfunction
      obtain ⟨o, ho, -⟩ := hfunction
      exact ho ▸ rfl
    | go =>
      rw [hrounds] at hfunction
      obtain ⟨o, ho, -⟩ := hfunction
      exact ho ▸ rfl
  rcases request_none ho hnotified with ⟨outputs, houtputs, hsum, hskip⟩ | ⟨vec, m', hcopies, hgo⟩
  · obtain ⟨o', ho', -, hmemory⟩ := request_of_skipped rt request m houtputs hsum hskip
    rw [ho, some.injEq] at ho'
    refine ⟨fun idx arg hwanted => ?_, fun _ _ _ => by rw [ho', hmemory]⟩
    exact absurd hwanted (h.skipped outputs houtputs hsum hskip idx arg)
  have hfunction := request_of_copies hcopies
  rw [hgo] at hfunction
  obtain ⟨o', ho', -, hrun⟩ := hfunction
  rw [ho, some.injEq] at ho'
  subst ho'
  refine ⟨fun idx arg hwanted => ?_, fun poolIndex addr hout => ?_⟩
  · have haimed := h.aimed hcopies.copying hgo idx arg hwanted
    have hown := hcopies.ownAddress_iff.mp haimed.address
    obtain ⟨before, after, ptr, rest, hptr, hcopy, hafter, hsub⟩ :=
      hrun.split (mem_zipIdx_iff_getElem?.mpr hwanted.1) haimed.size hwanted.2.1
    rw [hptr, some.injEq] at hown
    subst hown
    obtain ⟨memory, memory', -, hmemory', hlanding⟩ := copyOutput_landing hcopy
    obtain ⟨out, hload, hdata⟩ := landing_load hlanding hwanted.2.2.2 haimed.tensor
    -- what is copied later covers none of its bytes
    obtain ⟨final, hfinal, hlen⟩ : ∃ final, o.copied.memory.object (.pool arg.poolIndex) =
        some final ∧ final.length = memory'.length := by
      have hsizes := hafter.sameSizes (.pool arg.poolIndex)
      rw [hmemory', map_some] at hsizes
      exact map_eq_some_iff.mp hsizes
    refine ⟨final, out, hfinal, ?_, hdata⟩
    rw [← hload]
    refine Block.load_congr hlen fun addr hlow hhigh => ?_
    have hbyte : o.copied.memory.byteAt arg.poolIndex addr =
        after.byteAt arg.poolIndex addr := by
      refine h.byteAt hcopies hgo hafter hsub fun idx' arg' hmem hwanted' => ?_
      have hlater := le_snd_of_mem_zipIdx hmem
      exact h.apart hcopies.copying hgo idx arg hwanted idx' arg' hwanted' (by omega) _ _
        ⟨rfl, hlow, hhigh⟩
    unfold ExecuteMemory.byteAt at hbyte
    rwa [hfinal, hmemory', bind_some, bind_some] at hbyte
  · rw [h.byteAt hcopies hgo hrun (fun _ hx => hx) fun idx arg _ hwanted => hout idx arg hwanted]
    unfold ExecuteMemory.byteAt ExecuteMemory.object
    rw [hcopies.addresses.2.1]

end Function

/-! ## And there is no other -/

section Results

variable {rt : Runtime} {pm : EdenPreparedModel} {request : Request} {m m' : ExecuteMemory}
variable {vecMappedPtr : List MappedPtr} {idx : ℕ} {arg : RequestArgument}
variable {results results' : ℕ → ℕ → BitVec 8}

/-- What the conversion adds to the bytes of an output. -/
def outputShift (rt : Runtime) (pm : EdenPreparedModel) (idx : ℕ) : BitVec 8 :=
  if pm.hwPreference = .gpuOnly then 0
  else
    match pm.layoutOperand idx with
    | none => 0
    | some operand =>
        npuOffset pm.hwPreference (getDataType operand.type) rt.outputOffset

/-- An array of one element through and through has it in each layout. -/
theorem EdenDims.IsNHWC.replicate {d : EdenDims} {width : ℕ} {offset x : BitVec 8}
    {out : List (BitVec 8)} (h : d.IsNHWC width offset (List.replicate (d.volume * width) x) out) {a : ℕ}
    (ha : a < d.volume * width) : out[a]? = some (x + offset) := by
  obtain ⟨e, j, he, hj, rfl⟩ := RowMajor.exists_index ha
  -- the element's four coordinates, of the layout of the client
  have hvolume : d.volume =
      d.number.toNat * d.height.toNat * d.width.toNat * d.channel.toNat := by
    rw [EdenDims.volume]
    ring
  obtain ⟨nhw, c, hnhw, hc, rfl⟩ := RowMajor.exists_index (hvolume ▸ he)
  obtain ⟨nh, w, hnh, hw, rfl⟩ := RowMajor.exists_index hnhw
  obtain ⟨n, hh, hn, hhh, rfl⟩ := RowMajor.exists_index hnh
  have helement := h.element n hn c hc hh hhh w hw
  have hturn : ((n * d.channel.toNat + c) * d.height.toNat + hh) * d.width.toNat + w <
      d.volume := by
    rw [← d.length_nhwcPlaces]
    exact (List.getElem?_eq_some_iff.mp (d.getElem?_nhwcPlaces hn hc hhh hw)).1
  have hcell : (RowMajor.cell width (List.replicate (d.volume * width) x)
      (((n * d.channel.toNat + c) * d.height.toNat + hh) * d.width.toNat + w))[j]? = some x := by
    have hwithin : _ * width + width ≤ d.volume * width := index_cell hturn
    rw [RowMajor.cell, getElem?_take_of_lt hj, getElem?_drop, getElem?_replicate, if_pos (by omega)]
  have hout := congrArg (fun cell : List (BitVec 8) => cell[j]?) helement
  rw [getElem?_map, hcell, RowMajor.cell, getElem?_take_of_lt hj, getElem?_drop] at hout
  exact hout

/-- So an output buffer of one byte through and through is known at its destination. -/
theorem OutputData.const {x : BitVec 8} {out : List (BitVec 8)}
    (hx : ∀ i, results idx i = x)
    (h : OutputData (rt.withResults results) pm idx arg out) {a : ℕ} (ha : a < arg.length) :
    out[a]? = some (x + outputShift rt pm idx) := by
  obtain ⟨bytes, hbytes, hlength, hdata⟩ := h
  have hconst : bytes.take arg.length = List.replicate arg.length x := by
    unfold Runtime.outputBytes at hbytes
    obtain ⟨buffers, -, hbytes⟩ := bind_eq_some_iff.mp hbytes
    obtain ⟨buffer, -, hbytes⟩ := bind_eq_some_iff.mp hbytes
    obtain ⟨memory, -, rfl⟩ := map_eq_some_iff.mp hbytes
    refine List.eq_replicate_iff.mpr ⟨by rw [length_take, Nat.min_eq_left hlength], ?_⟩
    intro b hb
    obtain ⟨i, -, rfl⟩ := List.mem_map.mp (mem_of_mem_take hb)
    exact hx i
  rw [hconst] at hdata
  unfold outputShift
  by_cases hgpu : pm.hwPreference = .gpuOnly
  · rw [if_pos hgpu] at hdata
    rw [if_pos hgpu, hdata, getElem?_replicate, if_pos ha]
    simp
  · rw [if_neg hgpu] at hdata
    obtain ⟨operand, hoperand, hsize, hnhwc⟩ := hdata
    rw [if_neg hgpu, hoperand]
    rw [hsize] at hnhwc ha
    exact hnhwc.replicate ha

/-- Where an output is not copied to a pool, the pool does not depend on its buffer. -/
theorem CopyRun.agree (k poolIndex : ℕ) (hother : ∀ idx, idx ≠ k → results idx = results' idx)
    {args : List RequestArgument}
    (h : CopyRun (rt.withResults results) pm vecMappedPtr m idx args m') :
    ∀ {n n' : ExecuteMemory}, CopyRun (rt.withResults results') pm vecMappedPtr n idx args n' →
      m.object (.pool poolIndex) = n.object (.pool poolIndex) →
      (∀ arg, (arg, k) ∈ args.zipIdx idx → rt.totalSize k ≠ 0 → arg.hasNoValue = false →
        vecMappedPtr[k]? ≠ some (.pool poolIndex)) →
      m'.object (.pool poolIndex) = n'.object (.pool poolIndex) := by
  induction h with
  | done m idx =>
    intro n n' hrun heq _
    cases hrun
    exact heq
  | @skip m m' idx arg args hskip _ ih =>
    intro n n' hrun heq hk
    have hrest : ∀ arg', (arg', k) ∈ args.zipIdx (idx + 1) → rt.totalSize k ≠ 0 →
        arg'.hasNoValue = false → vecMappedPtr[k]? ≠ some (.pool poolIndex) := by
      intro arg' hmem
      exact hk arg' (by rw [zipIdx_cons]; exact mem_cons_of_mem _ hmem)
    cases hrun with
    | skip _ hrun => exact ih hrun heq hrest
    | copy htotal hvalue _ _ _ =>
      rcases hskip with hzero | hnone
      · exact absurd hzero htotal
      · rw [hvalue] at hnone
        contradiction
  | @copy m m' m'' idx arg args ptr htotal hvalue hptr hcopy _ ih =>
    intro n n' hrun heq hk
    have hrest : ∀ arg', (arg', k) ∈ args.zipIdx (idx + 1) → rt.totalSize k ≠ 0 →
        arg'.hasNoValue = false → vecMappedPtr[k]? ≠ some (.pool poolIndex) := by
      intro arg' hmem
      exact hk arg' (by rw [zipIdx_cons]; exact mem_cons_of_mem _ hmem)
    cases hrun with
    | skip hskip _ =>
      rcases hskip with hzero | hnone
      · exact absurd hzero htotal
      · rw [hvalue] at hnone
        contradiction
    | @copy _ _ n'' _ _ _ ptr' _ _ hptr' hcopy' hrun =>
      rw [hptr, some.injEq] at hptr'
      subst hptr'
      refine ih hrun ?_ hrest
      by_cases hpool : ptr = .pool poolIndex
      · have hne : idx ≠ k := by
          rintro rfl
          exact hk arg (by rw [zipIdx_cons]; exact mem_cons_self) htotal hvalue
            (hpool ▸ hptr)
        subst hpool
        obtain ⟨memory, after, hmemory, hafter, hlanding⟩ := copyOutput_landing hcopy
        obtain ⟨memory', after', hmemory', hafter', hlanding'⟩ := copyOutput_landing hcopy'
        rw [hmemory, hmemory', some.injEq] at heq
        subst heq
        have hsame : landing (rt.withResults results) pm idx arg memory =
            landing (rt.withResults results') pm idx arg memory := by
          unfold landing Runtime.outputBytes Runtime.withResults
          simp only [hother idx hne]
        rw [hafter, hafter', ← hlanding, ← hlanding', hsame]
      · rw [copyOutput_object hcopy hpool, copyOutput_object hcopy' hpool, heq]

/-- The rounds of the loops do not depend on the results. -/
theorem landingFits_withResults {size : ℕ} :
    LandingFits (rt.withResults results) pm idx arg size ↔ LandingFits rt pm idx arg size := by
  have hread : (∃ bytes, (rt.withResults results).outputBytes pm idx = some bytes ∧
      arg.length ≤ bytes.length) ↔
      ∃ bytes, rt.outputBytes pm idx = some bytes ∧ arg.length ≤ bytes.length := by
    unfold Runtime.outputBytes
    cases pm.outputAddr with
    | none => rfl
    | some buffers =>
      simp only [bind_some]
      cases buffers[idx]? with
      | none => rfl
      | some buffer =>
        simp only [bind_some]
        cases buffer.addr with
        | none => rfl
        | some bytes => simp
  exact ⟨fun h => ⟨hread.mp h.read, h.write, h.convert⟩,
    fun h => ⟨hread.mpr h.read, h.write, h.convert⟩⟩

theorem outputRounds_withResults :
    outputRounds (rt.withResults results) pm request m.pools =
      outputRounds rt pm request m.pools := by
  unfold outputRounds outputRound
  simp only [landingFits_withResults]
  rfl

theorem layOutInputs_withResults : layOutInputs (rt.withResults results) pm = layOutInputs rt pm := by
  have hinputs : ∀ idx buffers, convertInputs (rt.withResults results) pm idx buffers =
      convertInputs rt pm idx buffers := by
    intro idx buffers
    induction buffers generalizing idx with
    | nil => rfl
    | cons buffer buffers ih =>
      simp only [convertInputs, ih]
      rfl
  unfold layOutInputs
  rw [hinputs]

theorem copiesWith_withResults (results : ℕ → ℕ → BitVec 8) :
    CopiesWith (rt.withResults results) pm request m vecMappedPtr m' ↔
      CopiesWith rt pm request m vecMappedPtr m' := by
  unfold CopiesWith
  rw [layOutInputs_withResults]
  rfl

theorem copying_withResults (results : ℕ → ℕ → BitVec 8) :
    Copying (rt.withResults results) pm request m ↔ Copying rt pm request m := by
  unfold Copying
  rw [layOutInputs_withResults]
  rfl

/-- So the condition does not either. -/
theorem Aimed.withResults (h : Aimed rt pm request m) (results : ℕ → ℕ → BitVec 8) :
    Aimed (rt.withResults results) pm request m where
  skipped := h.skipped
  within hcopying := by
    rw [outputRounds_withResults]
    exact h.within ((copying_withResults results).mp hcopying)
  aimed hcopying hgo idx arg hwanted := by
    rw [outputRounds_withResults] at hgo
    have haimed := h.aimed ((copying_withResults results).mp hcopying) hgo idx arg hwanted
    exact ⟨haimed.size, haimed.address, haimed.tensor⟩
  apart hcopying hgo := by
    rw [outputRounds_withResults] at hgo
    exact h.apart ((copying_withResults results).mp hcopying) hgo

/-- The run of a loop that goes through, for any results. -/
theorem OutputsLand.run (h : ∀ results, OutputsLand (rt.withResults results) pm request m)
    (hcopies : CopiesWith rt pm request m vecMappedPtr m')
    (hgo : Round.loop (outputRounds rt pm request m.pools) = .go)
    (results : ℕ → ℕ → BitVec 8) :
    ∃ final, CopyRun (rt.withResults results) pm vecMappedPtr m' 0 request.outputs final ∧
      ∀ idx arg, Wanted rt pm.model request idx arg →
        Landed (rt.withResults results) pm final idx arg := by
  have hfunction := request_of_copies ((copiesWith_withResults results).mpr hcopies)
  rw [outputRounds_withResults, hgo] at hfunction
  obtain ⟨o, ho, hnotified, hrun⟩ := hfunction
  exact ⟨_, hrun, ((h results).2 o ho hnotified).1⟩

/-- **An output whose bytes come to its destination whatever they are** is copied
there: two results that differ in its buffer alone must leave two pools. -/
theorem OutputsLand.aimedAt (h : ∀ results, OutputsLand (rt.withResults results) pm request m)
    (hcopies : CopiesWith rt pm request m vecMappedPtr m')
    (hgo : Round.loop (outputRounds rt pm request m.pools) = .go)
    (hwanted : Wanted rt pm.model request idx arg) : AimedAt rt pm request m.pools idx arg := by
  have hcopied : rt.totalSize idx ≠ 0 ∧ OwnAddress request m.pools idx arg := by
    by_contra hnot
    obtain ⟨final, hrun, hlanded⟩ := OutputsLand.run h hcopies hgo fun _ _ => 0
    obtain ⟨final', hrun', hlanded'⟩ := OutputsLand.run h hcopies hgo
      fun k _ => if k = idx then 1 else 0
    have hother : ∀ k, k ≠ idx → (fun _ => 0 : ℕ → BitVec 8) = fun _ => if k = idx then 1 else 0 := by
      intro k hk
      rw [if_neg hk]
    have hagree : final.object (.pool arg.poolIndex) = final'.object (.pool arg.poolIndex) := by
      refine CopyRun.agree idx arg.poolIndex hother hrun hrun' rfl fun arg' _ htotal _ hptr => ?_
      exact hnot ⟨htotal, hcopies.ownAddress_iff.mpr hptr⟩
    obtain ⟨memory, out, hmemory, hload, hdata⟩ := hlanded idx arg hwanted
    obtain ⟨memory', out', hmemory', hload', hdata'⟩ := hlanded' idx arg hwanted
    rw [hagree, hmemory', some.injEq] at hmemory
    subst hmemory
    rw [hload', some.injEq] at hload
    subst hload
    have hzero := hdata.const (fun _ => rfl) hwanted.2.2.2
    have hone := hdata'.const (fun _ => if_pos rfl) hwanted.2.2.2
    rw [hzero, some.injEq] at hone
    generalize outputShift rt pm idx = shift at hone
    bv_omega
  refine ⟨hcopied.1, hcopied.2, fun hgpu => ?_⟩
  obtain ⟨final, -, hlanded⟩ := OutputsLand.run h hcopies hgo rt.results
  obtain ⟨memory, out, -, -, bytes, -, -, hdata⟩ := hlanded idx arg hwanted
  rw [if_neg hgpu] at hdata
  obtain ⟨operand, hoperand, hsize, -⟩ := hdata
  exact ⟨operand, hoperand, hsize⟩

/-- And two of them are not aimed at one byte, which cannot be both of theirs. -/
theorem OutputsLand.apart (h : ∀ results, OutputsLand (rt.withResults results) pm request m)
    (hcopies : CopiesWith rt pm request m vecMappedPtr m')
    (hgo : Round.loop (outputRounds rt pm request m.pools) = .go)
    (hwanted : Wanted rt pm.model request idx arg) {idx' : ℕ} {arg' : RequestArgument}
    (hwanted' : Wanted rt pm.model request idx' arg') (hne : idx ≠ idx') {poolIndex addr : ℕ}
    (hcovers : Covers arg poolIndex addr) : ¬ Covers arg' poolIndex addr := by
  intro hcovers'
  obtain ⟨rfl, hlow, hhigh⟩ := hcovers
  obtain ⟨hpool, hlow', hhigh'⟩ := hcovers'
  obtain ⟨final, -, hlanded⟩ := OutputsLand.run h hcopies hgo fun k _ =>
    if k = idx then outputShift rt pm idx' - outputShift rt pm idx + 1 else 0
  obtain ⟨memory, out, hmemory, hload, hdata⟩ := hlanded idx arg hwanted
  obtain ⟨memory', out', hmemory', hload', hdata'⟩ := hlanded idx' arg' hwanted'
  rw [hpool, hmemory, some.injEq] at hmemory'
  subst hmemory'
  have hbyte := hdata.const (fun _ => if_pos rfl) (a := addr - arg.offset) (by omega)
  have hbyte' := hdata'.const (fun _ => if_neg (Ne.symm hne)) (a := addr - arg'.offset) (by omega)
  rw [Block.getElem?_load hload (by omega)] at hbyte
  rw [Block.getElem?_load hload' (by omega)] at hbyte'
  have haddr : arg.offset + (addr - arg.offset) = arg'.offset + (addr - arg'.offset) := by omega
  rw [haddr, hbyte', some.injEq] at hbyte
  generalize outputShift rt pm idx' = shift' at hbyte
  generalize outputShift rt pm idx = shift at hbyte
  bv_omega

/-- **Each output reaches its destination, whatever the device computes, exactly if**
the request is aimed. -/
theorem outputs_land_iff (rt : Runtime) (pm : EdenPreparedModel) (request : Request)
    (m : ExecuteMemory) :
    (∀ results, OutputsLand (rt.withResults results) pm request m) ↔ Aimed rt pm request m := by
  refine ⟨fun h => ⟨?_, ?_, ?_, ?_⟩, fun h results => (h.withResults results).land⟩
  · intro outputs houtputs hsum hskip idx arg hwanted
    obtain ⟨o, ho, hnotified, hmemory⟩ := request_of_skipped
      (rt.withResults fun _ _ => 0) request m houtputs hsum hskip
    obtain ⟨o', ho', hnotified', hmemory'⟩ := request_of_skipped
      (rt.withResults fun _ _ => 1) request m houtputs hsum hskip
    obtain ⟨memory, out, hobject, hload, hdata⟩ := ((h _).2 o ho hnotified).1 idx arg hwanted
    obtain ⟨memory', out', hobject', hload', hdata'⟩ :=
      ((h _).2 o' ho' hnotified').1 idx arg hwanted
    rw [hmemory, ← hmemory', hobject', some.injEq] at hobject
    subst hobject
    rw [hload', some.injEq] at hload
    subst hload
    have hzero := hdata.const (fun _ => rfl) hwanted.2.2.2
    have hone := hdata'.const (fun _ => rfl) hwanted.2.2.2
    rw [hzero, some.injEq] at hone
    generalize outputShift rt pm idx = shift at hone
    bv_omega
  · intro hcopying hfault
    obtain ⟨vec, m', hcopies⟩ := hcopying.copies
    have hsome := (h rt.results).1 vec m' hcopies
    have hfunction := request_of_copies hcopies
    rw [hfault] at hfunction
    have hnone : requestOneExecutionInAsyncBase (rt.withResults rt.results) pm request m = none :=
      hfunction
    rw [hnone] at hsome
    contradiction
  · intro hcopying hgo idx arg hwanted
    obtain ⟨vec, m', hcopies⟩ := hcopying.copies
    exact OutputsLand.aimedAt h hcopies hgo hwanted
  · intro hcopying hgo idx arg hwanted idx' arg' hwanted' hne poolIndex addr hcovers
    obtain ⟨vec, m', hcopies⟩ := hcopying.copies
    exact OutputsLand.apart h hcopies hgo hwanted hwanted' hne hcovers

end Results

/-! ## An output without a value before one with a value -/

/-- A model with two outputs of one float each. -/
def twoOutputsModel : EdenPreparedModel :=
  { dynamicModel with
    model :=
      { operands := [⟨.tensorFloat32, [1]⟩, ⟨.tensorFloat32, [1]⟩, ⟨.tensorFloat32, [1]⟩]
        operations := [⟨19, [0]⟩]
        inputIndexes := [0]
        outputIndexes := [1, 2] }
    outputAddr := some [⟨some [0, 0, 0, 0], false⟩, ⟨some [0, 0, 0, 0], false⟩] }

/-- A request that omits the first of them. -/
def secondOutputRequest : Request :=
  { dynamicRequest with outputs := [⟨true, 0, 0, 0, []⟩, ⟨false, 0, 4, 4, []⟩] }

/-- **The address of the second output is looked for past the end of the vector**,
which has one address. -/
theorem not_outputs_land :
    ¬ ∀ (rt : Runtime) (pm : EdenPreparedModel) (request : Request) (m : ExecuteMemory),
      OutputsLand rt pm request m := by
  intro h
  have hcopies : CopiesWith idleRuntime twoOutputsModel secondOutputRequest
      ⟨secondOutputRequest.pools, []⟩ [.pool 0] ⟨secondOutputRequest.pools, []⟩ :=
    ⟨⟨[[1], [1]], by decide +kernel⟩, by decide +kernel, by decide +kernel, rfl,
      by decide +kernel, by decide⟩
  have hsome := (h idleRuntime twoOutputsModel secondOutputRequest
    ⟨secondOutputRequest.pools, []⟩).1 _ _ hcopies
  have hnone : (requestOneExecutionInAsyncBase idleRuntime twoOutputsModel secondOutputRequest
      ⟨secondOutputRequest.pools, []⟩).isSome = false := by
    decide +kernel
  rw [hnone] at hsome
  contradiction

end ExynosVendor.Eden
