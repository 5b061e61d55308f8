import ExynosVendor.Eden.Answers

/-!
# Inputs and their buffers

An input of the client's model that became a part of some operation's options has
no Eden operand, and the converted model has one buffer for each of the others. The
driver writes the Eden ids at the places of the inputs and reads as many as it
counts, and it finds an input's buffer by the input's number. So inputs and buffers
belong together as long as an input without an operand comes behind those with one.

`InputsFit` is this and what the buffers have to be, and `inputs_matched_iff` says
that the inputs are matched exactly then.
-/

namespace ExynosVendor.Eden

open EdenPreparedModel
open List Option

/-! ## What the claim of the inputs is -/

namespace EdenPreparedModel

variable (pm : EdenPreparedModel)

/-- The input has an Eden operand. -/
def Kept (k : ℕ) : Prop :=
  ∃ operandIdx, pm.model.inputIndexes[k]? = some operandIdx ∧
    (pm.mapOperandIdFromAToE operandIdx).isSome

/-- The buffer that belongs to the input's operand: there is one for each input that
has one. -/
def bufferOf (k : ℕ) : ℕ :=
  (pm.model.inputIndexes.take k).countP fun operandIdx =>
    (pm.mapOperandIdFromAToE operandIdx).isSome

end EdenPreparedModel

/-- Loading comes to an input with a value and an operand, and can read its bytes. -/
structure Loads (pm : EdenPreparedModel) (request : Request) (k : ℕ) (arg : RequestArgument)
    (data : List (BitVec 8)) (reached : EdenPreparedModel) (m : ExecuteMemory)
    (ptr : MappedPtr) : Prop where
  given : request.inputs[k]? = some arg
  value : arg.hasNoValue = false
  kept : pm.Kept k
  length : 0 < arg.length
  reached : ∃ m', pm.loadInputs ⟨request.pools, []⟩ 0 (request.inputs.take k) =
    some (RET_OK, reached, m') ∧ loadHidlMem m' arg.poolIndex true = some (RET_OK, ptr, m)
  data : m.read ptr arg.offset arg.length = some data

/-- An input buffer starts with these bytes, within its size. -/
def Holds (pm : EdenPreparedModel) (idx : ℕ) (data : List (BitVec 8)) : Prop :=
  ∃ buffer bytes, pm.inputBuffer idx = some buffer ∧ buffer.addr = some bytes ∧
    data.length ≤ buffer.size ∧ bytes.take data.length = data

/-- The bytes of a tensor. -/
def Operand.tensorSize (operand : Operand) : ℕ :=
  (getEdenDimensions operand.dimensions).volume * (getDataType operand.type).width

/-- An input buffer holds these bytes in the layout of the device: as they are for the
GPU, else as the tensor of the input's operand. -/
def InputData (rt : Runtime) (pm : EdenPreparedModel) (k : ℕ) (data : List (BitVec 8))
    (laidOut : EdenPreparedModel) : Prop :=
  if pm.hwPreference = .gpuOnly then Holds laidOut (pm.bufferOf k) data
  else ∃ operand, pm.model.operandAt pm.model.inputIndexes k = some operand ∧
    data.length = operand.tensorSize ∧
    ∃ out, out.length = operand.tensorSize ∧ Holds laidOut (pm.bufferOf k) out ∧
      (getEdenDimensions operand.dimensions).IsNCHW (getDataType operand.type).width
        (npuOffset pm.hwPreference (getDataType operand.type) rt.inputOffset) data out

/-- **The inputs are matched by position**: the converted model is told the ids of the
inputs that have one; an input's bytes are copied into the buffer of its operand and
stay within; and what is laid out there is the operand's tensor. -/
structure InputsMatched (rt : Runtime) (pm : EdenPreparedModel) (request : Request) : Prop where
  identified : ∀ heap, identifiedIndexes pm.mapOperandIdFromAToE heap pm.model.inputIndexes =
    pm.model.inputIndexes.filterMap pm.mapOperandIdFromAToE
  copied : ∀ k arg data reached m ptr, Loads pm request k arg data reached m ptr →
    ∃ loaded, reached.loadDataOnTargetBuffer m ptr arg.offset arg.length k =
      some (RET_OK, loaded) ∧ Holds loaded (pm.bufferOf k) data
  laidOut : ∀ loaded m', pm.loadInputData request = some (RET_OK, loaded, m') →
    ∃ laidOut, layOutInputs rt loaded = some laidOut ∧
      ∀ k arg data reached m ptr, Loads pm request k arg data reached m ptr →
        InputData rt pm k data laidOut

/-! ## When they are -/

/-- The operation that consumes the input has no default for it. -/
def EdenPreparedModel.NoDefault (pm : EdenPreparedModel) (k : ℕ) : Prop :=
  ∃ operationIdx operation, pm.inputConsumers[k]? = some operationIdx ∧
    pm.model.operations[operationIdx]? = some operation ∧
    operation.type ≠ ANEURALNETWORKS_LSH_PROJECTION

/-- An input with an operand that the request omits and that has no default. -/
def Omitted (pm : EdenPreparedModel) (request : Request) (k : ℕ) : Prop :=
  pm.Kept k ∧ pm.NoDefault k ∧ ∃ arg, request.inputs[k]? = some arg ∧ arg.hasNoValue = true

/-- A buffer can be converted as the tensor of an operand. -/
def Converts (operand : Operand) (buffer : EdenBuffer) : Prop :=
  ∀ bytes, buffer = ⟨some bytes, false⟩ → bytes ≠ [] →
    bytes.length < 2 ^ 31 ∧ operand.tensorSize ≤ bytes.length

/-- **The condition on a prepared model and a request.** The inputs with an operand come
first; the buffer with the number of a loaded input has memory, which no earlier request
has given up, for all of its bytes; and outside of the GPU each buffer has room for
the tensor of the operand with its number, which a loaded input fills. -/
structure InputsFit (pm : EdenPreparedModel) (request : Request) : Prop where
  keptFirst : pm.model.inputIndexes.Pairwise fun operandIdx behind =>
    (pm.mapOperandIdFromAToE behind).isSome → (pm.mapOperandIdFromAToE operandIdx).isSome
  buffers : ∀ k arg data reached m ptr, Loads pm request k arg data reached m ptr →
    arg.offset < 2 ^ 31 ∧ arg.length < 2 ^ 31 ∧
      ∃ target, pm.inputBuffer k = some ⟨some target, false⟩ ∧ arg.length ≤ target.length
  tensors : pm.hwPreference ≠ .gpuOnly →
    (∃ loaded m', pm.loadInputData request = some (RET_OK, loaded, m')) →
      (∀ idx buffer, pm.inputBuffer idx = some buffer →
        ∃ operand, pm.model.operandAt pm.model.inputIndexes idx = some operand ∧
          (¬ Omitted pm request idx → Converts operand buffer)) ∧
      ∀ k arg data reached m ptr, Loads pm request k arg data reached m ptr →
        ∃ operand, pm.model.operandAt pm.model.inputIndexes k = some operand ∧
          arg.length = operand.tensorSize

/-! ## The ids of the inputs -/

section Identified

variable {mapOperandIdFromAToE : ℕ → Option ℤ} {heap : ℕ → ℤ} {operandIdx : ℕ}
variable {operandIdxs : List ℕ}

theorem identifiedIndexes_cons_some {edenIdx : ℤ}
    (h : mapOperandIdFromAToE operandIdx = some edenIdx) :
    identifiedIndexes mapOperandIdFromAToE heap (operandIdx :: operandIdxs) =
      edenIdx :: identifiedIndexes mapOperandIdFromAToE (fun idx => heap (idx + 1))
        operandIdxs := by
  have hcount : (operandIdx :: operandIdxs).countP
      (fun operandIdx => (mapOperandIdFromAToE operandIdx).isSome) =
      operandIdxs.countP (fun operandIdx => (mapOperandIdFromAToE operandIdx).isSome) + 1 :=
    countP_cons_of_pos (by rw [h]; rfl)
  simp only [identifiedIndexes, convertIndexes, hcount, mapIdx_cons, take_succ_cons, h, getD_some]

/-- An input without an operand leaves its place as the heap has it, and this place
is read as long as some input counts. -/
theorem identifiedIndexes_cons_none (h : mapOperandIdFromAToE operandIdx = none) :
    identifiedIndexes mapOperandIdFromAToE heap (operandIdx :: operandIdxs) =
      (heap 0 :: operandIdxs.mapIdx fun idx operandIdx =>
        (mapOperandIdFromAToE operandIdx).getD (heap (idx + 1))).take
          (operandIdxs.countP fun operandIdx => (mapOperandIdFromAToE operandIdx).isSome) := by
  have hcount : (operandIdx :: operandIdxs).countP
      (fun operandIdx => (mapOperandIdFromAToE operandIdx).isSome) =
      operandIdxs.countP (fun operandIdx => (mapOperandIdFromAToE operandIdx).isSome) :=
    countP_cons_of_neg (by rw [h]; decide)
  simp only [identifiedIndexes, convertIndexes, hcount, mapIdx_cons, h, getD_none]

/-- **The ids are those of the inputs, whatever the heap holds, exactly if** an input
without one comes behind those with one. -/
theorem identifiedIndexes_iff (operandIdxs : List ℕ) :
    (∀ heap, identifiedIndexes mapOperandIdFromAToE heap operandIdxs =
      operandIdxs.filterMap mapOperandIdFromAToE) ↔
    operandIdxs.Pairwise fun operandIdx behind =>
      (mapOperandIdFromAToE behind).isSome → (mapOperandIdFromAToE operandIdx).isSome := by
  induction operandIdxs with
  | nil => exact ⟨fun _ => List.Pairwise.nil, fun _ _ => rfl⟩
  | cons operandIdx operandIdxs ih =>
    rw [pairwise_cons, ← ih]
    cases hmap : mapOperandIdFromAToE operandIdx with
    | some edenIdx =>
      constructor
      · intro h
        refine ⟨fun _ _ _ => rfl, fun heap => ?_⟩
        have hheap := h fun idx => heap (idx - 1)
        rw [identifiedIndexes_cons_some hmap, filterMap_cons_some hmap] at hheap
        exact (List.cons.inj hheap).2
      · rintro ⟨-, h⟩ heap
        rw [identifiedIndexes_cons_some hmap, filterMap_cons_some hmap, h]
    | none =>
      constructor
      · intro h
        -- two heaps tell a place that is read from one that is written
        have hcount : operandIdxs.countP
            (fun operandIdx => (mapOperandIdFromAToE operandIdx).isSome) = 0 := by
          by_contra hne
          obtain ⟨n, hn⟩ := Nat.exists_eq_succ_of_ne_zero hne
          have hzero := h fun _ => 0
          have hone := h fun _ => 1
          rw [← hone, identifiedIndexes_cons_none hmap, identifiedIndexes_cons_none hmap, hn,
            take_succ_cons, take_succ_cons] at hzero
          exact absurd (List.cons.inj hzero).1 (by decide)
        have hnone : ∀ behind ∈ operandIdxs, mapOperandIdFromAToE behind = none := by
          intro behind hbehind
          have := countP_eq_zero.mp hcount behind hbehind
          simpa using this
        refine ⟨fun behind hbehind hsome => ?_, fun heap => ?_⟩
        · rw [hnone behind hbehind] at hsome
          contradiction
        · rw [filterMap_eq_nil_iff.mpr hnone]
          simp only [identifiedIndexes, convertIndexes, hcount, take_zero]
      · rintro ⟨hbehind, -⟩ heap
        have hnone : ∀ behind ∈ operandIdxs, mapOperandIdFromAToE behind = none := by
          intro behind hmem
          cases hmap' : mapOperandIdFromAToE behind with
          | none => rfl
          | some edenIdx =>
            have := hbehind behind hmem (by rw [hmap']; rfl)
            contradiction
        have hcount : operandIdxs.countP
            (fun operandIdx => (mapOperandIdFromAToE operandIdx).isSome) = 0 :=
          countP_eq_zero.mpr fun behind hmem => by rw [hnone behind hmem]; decide
        rw [identifiedIndexes_cons_none hmap, hcount, take_zero,
          filterMap_cons_none hmap, filterMap_eq_nil_iff.mpr hnone]

/-- Then the buffer of an input is the one that has its number. -/
theorem bufferOf_eq {pm : EdenPreparedModel} {k : ℕ}
    (h : pm.model.inputIndexes.Pairwise fun operandIdx behind =>
      (pm.mapOperandIdFromAToE behind).isSome → (pm.mapOperandIdFromAToE operandIdx).isSome)
    (hkept : pm.Kept k) : pm.bufferOf k = k := by
  obtain ⟨operandIdx, hk, hsome⟩ := hkept
  obtain ⟨hlt, hget⟩ := List.getElem?_eq_some_iff.mp hk
  have hall : ∀ ahead ∈ pm.model.inputIndexes.take k, (pm.mapOperandIdFromAToE ahead).isSome := by
    intro ahead hahead
    obtain ⟨j, hj⟩ := mem_iff_getElem?.mp hahead
    rw [getElem?_take] at hj
    split at hj
    · rename_i hjk
      obtain ⟨hjlt, rfl⟩ := List.getElem?_eq_some_iff.mp hj
      exact pairwise_iff_getElem.mp h j k hjlt hlt hjk (hget ▸ hsome)
    · contradiction
  rw [EdenPreparedModel.bufferOf, countP_eq_length.mpr hall, length_take]
  omega

end Identified

/-! ## The loop over the inputs -/

section Loop

variable {pm pm' : EdenPreparedModel} {request : Request} {m m' : ExecuteMemory}

/-- The loop over some inputs and then over others. -/
theorem loadInputs_append (args args' : List RequestArgument) {idx : ℕ} :
    pm.loadInputs m idx (args ++ args') =
      (pm.loadInputs m idx args).bind fun p =>
        if p.1 ≠ RET_OK then some p
        else p.2.1.loadInputs p.2.2 (idx + args.length) args' := by
  induction args generalizing pm m idx with
  | nil =>
    rw [loadInputs, nil_append, bind_some, if_neg (by simp)]
    rfl
  | cons arg args ih =>
    have hidx : idx + (arg :: args).length = idx + 1 + args.length := by
      rw [length_cons]
      omega
    rw [cons_append, loadInputs, loadInputs, hidx]
    split
    · rw [bind_assoc]
      exact congrArg _ (funext fun pm' => ih)
    · rw [bind_assoc]
      refine congrArg _ (funext fun mapped => ?_)
      split
      · rename_i hret
        rw [bind_some, if_pos hret]
      · rw [bind_assoc]
        refine congrArg _ (funext fun loaded => ?_)
        split
        · rename_i hret
          rw [bind_some, if_pos hret]
        · exact ih

/-- So a run that succeeds comes to each input, and what the input's round leaves in
its buffer stays. -/
theorem loadInputs_at {args : List RequestArgument} (k : ℕ) {arg : RequestArgument}
    (h : pm.loadInputs m 0 args = some (RET_OK, pm', m')) (harg : args[k]? = some arg) :
    ∃ reached mk left mk', pm.loadInputs m 0 (args.take k) = some (RET_OK, reached, mk) ∧
      reached.loadInputs mk k [arg] = some (RET_OK, left, mk') ∧
      SameModel pm reached ∧ reached.inputBuffer k = pm.inputBuffer k ∧
      pm'.inputBuffer k = left.inputBuffer k := by
  obtain ⟨hk, hget⟩ := List.getElem?_eq_some_iff.mp harg
  have hsplit : args = args.take k ++ ([arg] ++ args.drop (k + 1)) := by
    rw [singleton_append, ← hget, getElem_cons_drop, take_append_drop]
  rw [hsplit, loadInputs_append] at h
  obtain ⟨p, hreached, h⟩ := bind_eq_some_iff.mp h
  split at h
  · rename_i hret
    rw [some.inj h] at hret
    contradiction
  rename_i hret
  have hlength : 0 + (args.take k).length = k := by
    rw [length_take]
    omega
  rw [hlength, loadInputs_append] at h
  obtain ⟨q, hround, h⟩ := bind_eq_some_iff.mp h
  split at h
  · rename_i hret
    rw [some.inj h] at hret
    contradiction
  rename_i hret'
  obtain ⟨hmodel, hbuffers⟩ := loadInputs_same _ hreached
  refine ⟨p.2.1, p.2.2, q.2.1, q.2.2, ?_, ?_, hmodel, hbuffers k (Or.inr (by omega)), ?_⟩
  · rw [hreached, ← not_not.mp hret]
  · rw [hround, ← not_not.mp hret']
  · have hbuffer := (loadInputs_same _ h).2 k (Or.inl (by rw [length_singleton]; omega))
    exact hbuffer

/-! ## The buffer of a round -/

/-- What loading leaves of a buffer: the size of its memory, and its size unless the
input is omitted. -/
structure KeepsMemory (omitted : Prop) (before after : Option EdenBuffer) : Prop where
  isSome : after.isSome = before.isSome
  memory : ∀ buffer buffer', before = some buffer → after = some buffer' →
    buffer'.addr.map List.length = buffer.addr.map List.length ∧
      (buffer'.emptied = true ↔ buffer.emptied = true ∨ omitted)

variable {omitted : Prop}

theorem KeepsMemory.same (h : ¬ omitted) (buffer : Option EdenBuffer) :
    KeepsMemory omitted buffer buffer := by
  refine ⟨rfl, fun buffer buffer' hbuffer hbuffer' => ?_⟩
  rw [hbuffer, some.injEq] at hbuffer'
  rw [hbuffer']
  exact ⟨rfl, by simp [h]⟩

theorem KeepsMemory.set {idx : ℕ} {buffer buffer' : EdenBuffer}
    (hbuffer : pm.inputBuffer idx = some buffer)
    (hlength : buffer'.addr.map List.length = buffer.addr.map List.length)
    (hemptied : buffer'.emptied = true ↔ buffer.emptied = true ∨ omitted) :
    KeepsMemory omitted (pm.inputBuffer idx) ((pm.setInputBuffer idx buffer').inputBuffer idx) := by
  rw [inputBuffer_setInputBuffer, if_pos rfl, hbuffer, map_some]
  refine ⟨rfl, fun b b' hb hb' => ?_⟩
  rw [← some.inj hb, ← some.inj hb']
  exact ⟨hlength, hemptied⟩

/-- A default is as long as the buffer, and the buffer is given up without one. -/
theorem loadDefaultValuesForOptionalInputs_getD (operation : Operation) (indexNumber : ℕ)
    (buffer : EdenBuffer) :
    let buffer' := (loadDefaultValuesForOptionalInputs operation indexNumber
      buffer).getD { buffer with emptied := true }
    buffer'.addr.map List.length = buffer.addr.map List.length ∧
      (buffer'.emptied = true ↔
        buffer.emptied = true ∨ operation.type ≠ ANEURALNETWORKS_LSH_PROJECTION) := by
  unfold loadDefaultValuesForOptionalInputs
  by_cases htype : operation.type = ANEURALNETWORKS_LSH_PROJECTION
  swap
  · rw [if_neg htype]
    exact ⟨rfl, by simp [htype]⟩
  rw [if_pos htype]
  split
  · exact ⟨rfl, by simp [htype]⟩
  · refine ⟨?_, by simp [htype]⟩
    cases haddr : buffer.addr with
    | none => rfl
    | some bytes =>
      have hsize : buffer.size ≤ bytes.length := by
        rw [EdenBuffer.size, haddr, getD_some]
        split <;> omega
      simp only [getD_some, map_some, some.injEq, length_append, length_drop, List.length_flatten,
        map_replicate, sum_replicate_nat, length_cons, length_nil]
      omega

theorem loadDefaultDataOnTargetBuffer_buffer {k : ℕ}
    (h : pm.loadDefaultDataOnTargetBuffer k = some pm') :
    KeepsMemory (pm.Kept k ∧ pm.NoDefault k) (pm.inputBuffer k) (pm'.inputBuffer k) := by
  unfold loadDefaultDataOnTargetBuffer at h
  obtain ⟨operandIdx, hoperand, h⟩ := bind_eq_some_iff.mp h
  obtain ⟨operationIdx, hconsumer, h⟩ := bind_eq_some_iff.mp h
  obtain ⟨operation, hoperation, h⟩ := bind_eq_some_iff.mp h
  cases hmap : pm.mapOperandIdFromAToE operandIdx with
  | none =>
    rw [hmap] at h
    obtain ⟨p, hp, rfl⟩ := map_eq_some_iff.mp h
    rw [(updateOperation_same hp).2 k]
    refine KeepsMemory.same ?_ _
    rintro ⟨⟨operandIdx', hoperand', hsome⟩, -⟩
    rw [hoperand, some.injEq] at hoperand'
    rw [← hoperand', hmap] at hsome
    contradiction
  | some edenIdx =>
    rw [hmap] at h
    obtain ⟨buffers, hbuffers, h⟩ := bind_eq_some_iff.mp h
    obtain ⟨buffer, hbuffer, rfl⟩ := map_eq_some_iff.mp h
    have hinput : pm.inputBuffer k = some buffer := by
      rw [inputBuffer, hbuffers, bind_some, hbuffer]
    obtain ⟨hlength, hemptied⟩ := loadDefaultValuesForOptionalInputs_getD operation
      (if operation.inputs.idxOf operandIdx < operation.inputs.length then
        operation.inputs.idxOf operandIdx else 0) buffer
    refine KeepsMemory.set hinput hlength (hemptied.trans (or_congr_right ?_))
    constructor
    · intro htype
      exact ⟨⟨operandIdx, hoperand, by rw [hmap]; rfl⟩, operationIdx, operation, hconsumer,
        hoperation, htype⟩
    · rintro ⟨-, operationIdx', operation', hconsumer', hoperation', htype⟩
      rw [hconsumer, some.injEq] at hconsumer'
      rw [← hconsumer', hoperation, some.injEq] at hoperation'
      exact hoperation' ▸ htype

/-- **The copy of an argument** whose input has an operand reaches the buffer with the
input's number exactly if that has the memory for it. -/
theorem loadDataOnTargetBuffer_holds_iff {k offset length : ℕ} {ptr : MappedPtr}
    {data : List (BitVec 8)} (hkept : pm.Kept k)
    (hdata : m.read ptr offset length = some data) (hlength : 0 < length) :
    (∃ loaded, pm.loadDataOnTargetBuffer m ptr offset length k = some (RET_OK, loaded) ∧
      Holds loaded k data) ↔
    offset < 2 ^ 31 ∧ length < 2 ^ 31 ∧
      ∃ target, pm.inputBuffer k = some ⟨some target, false⟩ ∧ length ≤ target.length := by
  obtain ⟨operandIdx, hoperand, hsome⟩ := hkept
  obtain ⟨edenIdx, hmap⟩ := isSome_iff_exists.mp hsome
  obtain ⟨memory, -, hload⟩ := bind_eq_some_iff.mp hdata
  have hdatalen := Block.length_load hload
  unfold loadDataOnTargetBuffer
  rw [hoperand, bind_some, hmap]
  dsimp only
  constructor
  · rintro ⟨loaded, h, buffer', bytes, hbuffer', haddr', hsize', -⟩
    obtain ⟨buffers, hbuffers, h⟩ := bind_eq_some_iff.mp h
    obtain ⟨buffer, hbuffer, h⟩ := bind_eq_some_iff.mp h
    have hinput : pm.inputBuffer k = some buffer := by
      rw [inputBuffer, hbuffers, bind_some, hbuffer]
    have hskipped : pm = loaded → buffer.addr = some bytes ∧ data.length ≤ buffer.size := by
      rintro rfl
      rw [hinput, some.injEq] at hbuffer'
      exact hbuffer' ▸ ⟨haddr', hsize'⟩
    split at h
    · rename_i hnull
      simp only [some.injEq, Prod.mk.injEq, true_and] at h
      rw [(hskipped h).1] at hnull
      contradiction
    · rename_i target haddr
      split at h
      · simp only [some.injEq, Prod.mk.injEq, true_and] at h
        have := (hskipped h).2
        omega
      · rename_i hsize
        split at h
        · contradiction
        · rename_i hint
          rw [hdata, bind_some] at h
          obtain ⟨bytes, hstore, -⟩ := map_eq_some_iff.mp h
          have hfit := Block.store_isSome_iff.mp (isSome_iff_exists.mpr ⟨bytes, hstore⟩)
          refine ⟨by omega, by omega, target, ?_, by omega⟩
          rw [hinput, some.injEq]
          cases buffer with
          | mk addr emptied =>
            cases emptied with
            | true => exact absurd rfl hsize
            | false => rw [← haddr]
  · rintro ⟨hoffset, hlen, target, hinput, hfit⟩
    obtain ⟨buffers, hbuffers, hbuffer⟩ := bind_eq_some_iff.mp hinput
    have hsize : (⟨some target, false⟩ : EdenBuffer).size = target.length := rfl
    rw [hbuffers, bind_some, hbuffer, bind_some]
    dsimp only
    rw [hsize, if_neg (by omega), if_neg (by omega), hdata, bind_some,
      Block.store_zero (by omega), map_some]
    refine ⟨_, rfl, ⟨some (data ++ target.drop data.length), false⟩,
      data ++ target.drop data.length, ?_, rfl, ?_, take_left⟩
    · rw [inputBuffer_setInputBuffer, if_pos rfl, hinput, map_some]
    · have hbytes : (⟨some (data ++ target.drop data.length), false⟩ : EdenBuffer).size =
          (data ++ target.drop data.length).length := rfl
      rw [hbytes, length_append]
      omega

/-- It does not give up the buffer. -/
theorem loadDataOnTargetBuffer_buffer {k offset length : ℕ} {ptr : MappedPtr}
    {p : ℤ × EdenPreparedModel} (h : pm.loadDataOnTargetBuffer m ptr offset length k = some p)
    (homitted : ¬ omitted) : KeepsMemory omitted (pm.inputBuffer k) (p.2.inputBuffer k) := by
  unfold loadDataOnTargetBuffer at h
  obtain ⟨operandIdx, -, h⟩ := bind_eq_some_iff.mp h
  split at h
  · obtain ⟨buffers, hbuffers, h⟩ := bind_eq_some_iff.mp h
    obtain ⟨buffer, hbuffer, h⟩ := bind_eq_some_iff.mp h
    have hinput : pm.inputBuffer k = some buffer := by
      rw [inputBuffer, hbuffers, bind_some, hbuffer]
    split at h
    · exact some.inj h ▸ KeepsMemory.same homitted _
    · rename_i target haddr
      split at h
      · exact some.inj h ▸ KeepsMemory.same homitted _
      · split at h
        · contradiction
        · obtain ⟨data, -, h⟩ := bind_eq_some_iff.mp h
          obtain ⟨bytes, hstore, rfl⟩ := map_eq_some_iff.mp h
          refine KeepsMemory.set hinput ?_ (by simp [homitted])
          rw [haddr, map_some, map_some, Block.store_length hstore]
  · rw [(updateOperation_same h).2 k]
    exact KeepsMemory.same homitted _

theorem SameModel.kept (h : SameModel pm pm') (k : ℕ) : pm'.Kept k ↔ pm.Kept k := by
  unfold EdenPreparedModel.Kept
  rw [h.model, h.mapOperandIdFromAToE]

theorem SameModel.noDefault (h : SameModel pm pm') (k : ℕ) : pm'.NoDefault k ↔ pm.NoDefault k := by
  unfold EdenPreparedModel.NoDefault
  rw [h.model, h.inputConsumers]

/-- **What loading leaves of each buffer.** -/
theorem loadInputData_buffer (h : pm.loadInputData request = some (RET_OK, pm', m')) (idx : ℕ) :
    KeepsMemory (Omitted pm request idx) (pm.inputBuffer idx) (pm'.inputBuffer idx) := by
  cases harg : request.inputs[idx]? with
  | none =>
    have hlength := List.getElem?_eq_none_iff.mp harg
    rw [(loadInputs_same _ h).2 idx (Or.inr (by omega))]
    refine KeepsMemory.same ?_ _
    rintro ⟨-, -, arg, harg', -⟩
    rw [harg] at harg'
    contradiction
  | some arg =>
    obtain ⟨reached, mk, left, mk', -, hround, hmodel, hbefore, hafter⟩ :=
      loadInputs_at idx h harg
    rw [hafter, ← hbefore]
    rw [loadInputs] at hround
    split at hround
    · rename_i hvalue
      have homitted : Omitted pm request idx ↔ reached.Kept idx ∧ reached.NoDefault idx := by
        rw [hmodel.kept, hmodel.noDefault, Omitted]
        refine and_congr_right fun _ => ⟨fun h => h.1, fun h => ⟨h, arg, harg, hvalue⟩⟩
      obtain ⟨pm'', hdefault, hround⟩ := bind_eq_some_iff.mp hround
      simp only [loadInputs, some.injEq, Prod.mk.injEq, true_and] at hround
      rw [homitted, ← hround.1]
      exact loadDefaultDataOnTargetBuffer_buffer hdefault
    · rename_i hvalue
      have homitted : ¬ Omitted pm request idx := by
        rintro ⟨-, -, arg', harg', hvalue'⟩
        rw [harg, some.injEq] at harg'
        exact hvalue (harg' ▸ hvalue')
      obtain ⟨mapped, -, hround⟩ := bind_eq_some_iff.mp hround
      split at hround
      · rename_i hret
        rw [some.injEq, Prod.mk.injEq] at hround
        exact absurd hround.1 hret
      · obtain ⟨loaded, hloaded, hround⟩ := bind_eq_some_iff.mp hround
        split at hround
        · rename_i hret
          rw [some.injEq, Prod.mk.injEq] at hround
          exact absurd hround.1 hret
        · simp only [loadInputs, some.injEq, Prod.mk.injEq, true_and] at hround
          rw [← hround.1]
          exact loadDataOnTargetBuffer_buffer hloaded homitted

end Loop

/-! ## The layout -/

section Layout

variable {rt : Runtime} {pm pm' : EdenPreparedModel} {request : Request}

/-- A buffer is converted, or needs no conversion. -/
theorem preProcessOnInputs_isSome_iff (rt : Runtime) (hwPreference : HwPreference) (idx : ℕ)
    {operand : Operand} {buffer : EdenBuffer} :
    (preProcessOnInputs rt hwPreference operand idx buffer).isSome ↔ Converts operand buffer := by
  obtain ⟨addr, emptied⟩ := buffer
  unfold preProcessOnInputs convertDataLayoutFromNHWCToNCHW Converts
  cases addr with
  | none => simp
  | some bytes =>
    cases emptied with
    | true => simp [EdenBuffer.size]
    | false =>
      have hsize : (⟨some bytes, false⟩ : EdenBuffer).size = bytes.length := rfl
      dsimp only
      rw [hsize, isSome_map]
      by_cases hempty : bytes = []
      · rw [hempty, length_nil, if_pos rfl]
        simp
      · have hlength : bytes.length ≠ 0 := fun h => hempty (length_eq_zero_iff.mp h)
        have hwidth := (getDataType operand.type).width_pos
        rw [if_neg hlength, convertToNCHW, convert_isSome_iff hwidth fun _ => length_map _,
          EdenDims.length_nchwPlaces, Nat.zero_add, Nat.zero_add]
        constructor
        · rintro ⟨hint, hfit, -, -⟩ bytes' heq -
          simp only [EdenBuffer.mk.injEq, some.injEq, and_true] at heq
          exact heq ▸ ⟨hint, hfit⟩
        · intro h
          obtain ⟨hint, hfit⟩ := h bytes rfl hempty
          refine ⟨hint, hfit, fun place hplace => ?_, le_refl _⟩
          have hvolume := EdenDims.nchwPlaces_lt _ place hplace
          have hbytes := Nat.le_mul_of_pos_right
            (getEdenDimensions operand.dimensions).volume hwidth
          rw [Operand.tensorSize] at hfit
          omega

theorem convertInputs_isSome_iff (buffers : List EdenBuffer) {idx : ℕ} :
    (convertInputs rt pm idx buffers).isSome ↔ ∀ j buffer, buffers[j]? = some buffer →
      ∃ operand, pm.model.operandAt pm.model.inputIndexes (idx + j) = some operand ∧
        Converts operand buffer := by
  induction buffers generalizing idx with
  | nil => simp [convertInputs]
  | cons buffer buffers ih =>
    rw [convertInputs]
    constructor
    · intro h j buffer' hj
      obtain ⟨out, h⟩ := isSome_iff_exists.mp h
      obtain ⟨operand, hoperand, h⟩ := bind_eq_some_iff.mp h
      obtain ⟨converted, hconverted, h⟩ := bind_eq_some_iff.mp h
      obtain ⟨rest, hrest, -⟩ := map_eq_some_iff.mp h
      cases j with
      | zero =>
        rw [getElem?_cons_zero, some.injEq] at hj
        exact ⟨operand, hoperand, hj ▸ (preProcessOnInputs_isSome_iff rt pm.hwPreference idx).mp
          (isSome_iff_exists.mpr ⟨converted, hconverted⟩)⟩
      | succ j =>
        obtain ⟨operand, hoperand, hfit⟩ := ih.mp
          (isSome_iff_exists.mpr ⟨rest, hrest⟩) j buffer' hj
        exact ⟨operand, by rw [← hoperand, Nat.add_right_comm, Nat.add_assoc], hfit⟩
    · intro h
      obtain ⟨operand, hoperand, hfit⟩ := h 0 buffer rfl
      obtain ⟨converted, hconverted⟩ := isSome_iff_exists.mp
        (preProcessOnInputs_isSome_iff rt pm.hwPreference idx |>.mpr hfit)
      have hrest : (convertInputs rt pm (idx + 1) buffers).isSome := by
        refine ih.mpr fun j buffer' hj => ?_
        obtain ⟨operand, hoperand, hfit⟩ := h (j + 1) buffer' hj
        exact ⟨operand, by rw [← hoperand, Nat.add_right_comm, Nat.add_assoc], hfit⟩
      rw [Nat.add_zero] at hoperand
      rw [hoperand, bind_some, hconverted, bind_some, isSome_map]
      exact hrest

/-- And each buffer by the operand that has its number. -/
theorem convertInputs_getElem? (buffers : List EdenBuffer) {idx : ℕ} {buffers' : List EdenBuffer}
    (h : convertInputs rt pm idx buffers = some buffers') {j : ℕ} {buffer : EdenBuffer}
    (hj : buffers[j]? = some buffer) :
    ∃ operand, pm.model.operandAt pm.model.inputIndexes (idx + j) = some operand ∧
      buffers'[j]? = preProcessOnInputs rt pm.hwPreference operand (idx + j) buffer := by
  induction buffers generalizing idx j buffers' with
  | nil => contradiction
  | cons buffer' buffers ih =>
    rw [convertInputs] at h
    obtain ⟨operand, hoperand, h⟩ := bind_eq_some_iff.mp h
    obtain ⟨converted, hconverted, h⟩ := bind_eq_some_iff.mp h
    obtain ⟨rest, hrest, rfl⟩ := map_eq_some_iff.mp h
    cases j with
    | zero =>
      rw [getElem?_cons_zero, some.injEq] at hj
      exact ⟨operand, hoperand, by rw [Nat.add_zero, ← hj, hconverted]; rfl⟩
    | succ j =>
      have hidx : idx + (j + 1) = idx + 1 + j := by omega
      rw [hidx]
      exact ih hrest hj

/-- **The layout stays within its objects** exactly if each buffer can be converted as
the tensor of the operand that has its number. -/
theorem layOutInputs_isSome_iff (h : pm.hwPreference ≠ .gpuOnly) :
    (layOutInputs rt pm).isSome ↔ ∀ idx buffer, pm.inputBuffer idx = some buffer →
      ∃ operand, pm.model.operandAt pm.model.inputIndexes idx = some operand ∧
        Converts operand buffer := by
  rw [layOutInputs, if_neg h, isSome_map, convertInputs_isSome_iff]
  unfold inputBuffer
  simp only [Nat.zero_add]
  cases pm.inputAddr with
  | none => simp
  | some buffers => rfl

/-- **What it leaves** of a buffer that is not given up. -/
theorem layOutInputs_inputBuffer (h : layOutInputs rt pm = some pm')
    (hgpu : pm.hwPreference ≠ .gpuOnly) {idx : ℕ} {bytes : List (BitVec 8)}
    (hbuffer : pm.inputBuffer idx = some ⟨some bytes, false⟩) (hbytes : bytes ≠ []) :
    ∃ operand out, pm.model.operandAt pm.model.inputIndexes idx = some operand ∧
      pm'.inputBuffer idx = some ⟨some out, false⟩ ∧ out.length = bytes.length ∧
      operand.tensorSize ≤ bytes.length ∧
      (getEdenDimensions operand.dimensions).IsNCHW (getDataType operand.type).width
        (npuOffset pm.hwPreference (getDataType operand.type) rt.inputOffset)
        (bytes.take operand.tensorSize) (out.take operand.tensorSize) := by
  have hsome := (layOutInputs_isSome_iff hgpu).mp (h ▸ rfl : (layOutInputs rt pm).isSome = true)
  obtain ⟨operand', hoperand', hfit⟩ := hsome idx _ hbuffer
  rw [layOutInputs, if_neg hgpu] at h
  obtain ⟨buffers', hbuffers', rfl⟩ := map_eq_some_iff.mp h
  obtain ⟨buffers, hbuffers, hget⟩ := bind_eq_some_iff.mp hbuffer
  rw [hbuffers, getD_some] at hbuffers'
  obtain ⟨operand, hoperand, hconverted⟩ := convertInputs_getElem? buffers hbuffers' hget
  rw [Nat.zero_add] at hoperand hconverted
  rw [hoperand, some.injEq] at hoperand'
  rw [← hoperand'] at hfit
  have hsize : (⟨some bytes, false⟩ : EdenBuffer).size = bytes.length := rfl
  have hlength : bytes.length ≠ 0 := fun h => hbytes (length_eq_zero_iff.mp h)
  obtain ⟨converted, hpre⟩ := isSome_iff_exists.mp
    (preProcessOnInputs_isSome_iff rt pm.hwPreference idx |>.mpr hfit)
  have hdef := hpre
  unfold preProcessOnInputs convertDataLayoutFromNHWCToNCHW at hdef
  dsimp only at hdef
  rw [hsize, if_neg hlength] at hdef
  obtain ⟨out, hout, rfl⟩ := map_eq_some_iff.mp hdef
  refine ⟨operand, out, hoperand, ?_, length_convert hout, (hfit bytes rfl hbytes).2,
    convertToNCHW_front _ (getDataType operand.type).width_pos _ _ hout⟩
  rw [inputBuffer, hbuffers, map_some, bind_some, hconverted, hpre]

end Layout

/-! ## Inputs and buffers -/

section Matched

variable {rt : Runtime} {pm reached loaded : EdenPreparedModel} {request : Request} {k : ℕ}
variable {arg : RequestArgument} {data : List (BitVec 8)} {m m' : ExecuteMemory} {ptr : MappedPtr}

theorem Loads.before (h : Loads pm request k arg data reached m ptr) :
    SameModel pm reached ∧ reached.inputBuffer k = pm.inputBuffer k := by
  obtain ⟨m', hreached, -⟩ := h.reached
  obtain ⟨hmodel, hbuffers⟩ := loadInputs_same _ hreached
  refine ⟨hmodel, hbuffers k (Or.inr ?_)⟩
  rw [length_take]
  omega

theorem Loads.length_data (h : Loads pm request k arg data reached m ptr) :
    data.length = arg.length := by
  obtain ⟨memory, -, hload⟩ := bind_eq_some_iff.mp h.data
  exact Block.length_load hload

/-- **Its bytes come to the buffer with its number** exactly if that has room. -/
theorem Loads.holds_iff (h : Loads pm request k arg data reached m ptr) :
    (∃ loaded, reached.loadDataOnTargetBuffer m ptr arg.offset arg.length k =
      some (RET_OK, loaded) ∧ Holds loaded k data) ↔
    arg.offset < 2 ^ 31 ∧ arg.length < 2 ^ 31 ∧
      ∃ target, pm.inputBuffer k = some ⟨some target, false⟩ ∧ arg.length ≤ target.length := by
  obtain ⟨hmodel, hbuffer⟩ := h.before
  rw [← hbuffer]
  exact loadDataOnTargetBuffer_holds_iff ((hmodel.kept k).mpr h.kept) h.data h.length

/-- And are still there when all are loaded. -/
theorem Loads.holds (h : Loads pm request k arg data reached m ptr)
    (hload : pm.loadInputData request = some (RET_OK, loaded, m'))
    (hfit : arg.offset < 2 ^ 31 ∧ arg.length < 2 ^ 31 ∧
      ∃ target, pm.inputBuffer k = some ⟨some target, false⟩ ∧ arg.length ≤ target.length) :
    Holds loaded k data := by
  obtain ⟨copied, hcopied, hholds⟩ := h.holds_iff.mpr hfit
  obtain ⟨mk, hreached, hmapped⟩ := h.reached
  obtain ⟨reached', mk', left, mk'', hreached', hround, -, -, hafter⟩ := loadInputs_at k hload h.given
  simp only [hreached, some.injEq, Prod.mk.injEq, true_and] at hreached'
  obtain ⟨rfl, rfl⟩ := hreached'
  rw [loadInputs, h.value] at hround
  simp only [Bool.false_eq_true, if_false, hmapped, bind_some, ne_eq, not_true_eq_false,
    hcopied, loadInputs, some.injEq, Prod.mk.injEq, true_and] at hround
  unfold Holds
  rw [hafter, ← hround.1]
  exact hholds

theorem Holds.buffer (h : Holds loaded k data) (hdata : 0 < data.length) :
    ∃ bytes, loaded.inputBuffer k = some ⟨some bytes, false⟩ ∧ bytes.take data.length = data := by
  obtain ⟨⟨addr, emptied⟩, bytes, hbuffer, haddr, hsize, htake⟩ := h
  dsimp only at haddr
  subst haddr
  cases emptied with
  | false => exact ⟨bytes, hbuffer, htake⟩
  | true =>
    rw [EdenBuffer.size, if_pos rfl] at hsize
    omega

/-- A conversion asks for no more than the size of a buffer's memory. -/
theorem KeepsMemory.converts {omitted : Prop} {operand : Operand} {buffer buffer' : EdenBuffer}
    (h : KeepsMemory omitted (some buffer) (some buffer')) :
    Converts operand buffer' ↔ (¬ omitted → Converts operand buffer) := by
  obtain ⟨hlength, hemptied⟩ := h.memory buffer buffer' rfl rfl
  obtain ⟨addr, emptied⟩ := buffer
  obtain ⟨addr', emptied'⟩ := buffer'
  dsimp only at hlength hemptied
  constructor
  · rintro hconverts homitted bytes heq hbytes
    simp only [EdenBuffer.mk.injEq] at heq
    obtain ⟨rfl, rfl⟩ := heq
    obtain ⟨bytes', rfl, hlen⟩ := map_eq_some_iff.mp hlength
    have hnot : emptied' = false := by
      cases emptied' with
      | false => rfl
      | true => exact absurd (hemptied.mp rfl) (by simp [homitted])
    have hbytes' : bytes' ≠ [] := by
      rintro rfl
      exact hbytes (length_eq_zero_iff.mp hlen.symm)
    exact hlen ▸ hconverts bytes' (by rw [hnot]) hbytes'
  · rintro hconverts bytes' heq hbytes'
    simp only [EdenBuffer.mk.injEq] at heq
    obtain ⟨rfl, rfl⟩ := heq
    obtain ⟨bytes, rfl, hlen⟩ := map_eq_some_iff.mp hlength.symm
    have hnot : ¬ (emptied = true ∨ omitted) := fun hor => by
      have := hemptied.mpr hor
      contradiction
    obtain ⟨hemptied, homitted⟩ := not_or.mp hnot
    have hbytes : bytes ≠ [] := by
      rintro rfl
      exact hbytes' (length_eq_zero_iff.mp hlen.symm)
    exact hlen ▸ hconverts homitted bytes (by simp [hemptied]) hbytes

/-- **When the layout of loaded inputs stays within its objects**, in terms of what there
was before. -/
theorem layOutInputs_loaded (rt : Runtime)
    (hload : pm.loadInputData request = some (RET_OK, loaded, m'))
    (hgpu : pm.hwPreference ≠ .gpuOnly) :
    (layOutInputs rt loaded).isSome ↔ ∀ idx buffer, pm.inputBuffer idx = some buffer →
      ∃ operand, pm.model.operandAt pm.model.inputIndexes idx = some operand ∧
        (¬ Omitted pm request idx → Converts operand buffer) := by
  obtain ⟨hmodel, -⟩ := loadInputs_same _ hload
  rw [layOutInputs_isSome_iff (hmodel.hwPreference ▸ hgpu), hmodel.model]
  refine forall_congr' fun idx => ?_
  have hkeeps := loadInputData_buffer hload idx
  cases hbuffer : pm.inputBuffer idx with
  | none =>
    rw [hbuffer] at hkeeps
    have hnone : loaded.inputBuffer idx = none :=
      isSome_eq_false_iff.mp hkeeps.isSome |> isNone_iff_eq_none.mp
    simp [hnone]
  | some buffer =>
    rw [hbuffer] at hkeeps
    obtain ⟨buffer', hbuffer'⟩ := isSome_iff_exists.mp hkeeps.isSome
    rw [hbuffer'] at hkeeps
    simp only [hbuffer', some.injEq, forall_eq', hkeeps.converts]

/-- **The inputs are matched by position exactly if** those with an operand come first
and the buffers fit. -/
theorem inputs_matched_iff (rt : Runtime) (pm : EdenPreparedModel) (request : Request) :
    InputsMatched rt pm request ↔ InputsFit pm request := by
  constructor
  · intro h
    have hfirst := (identifiedIndexes_iff _).mp h.identified
    have hbuffers : ∀ k arg data reached m ptr, Loads pm request k arg data reached m ptr →
        arg.offset < 2 ^ 31 ∧ arg.length < 2 ^ 31 ∧
          ∃ target, pm.inputBuffer k = some ⟨some target, false⟩ ∧
            arg.length ≤ target.length := by
      intro k arg data reached m ptr hloads
      have hcopied := h.copied k arg data reached m ptr hloads
      rw [bufferOf_eq hfirst hloads.kept] at hcopied
      exact hloads.holds_iff.mp hcopied
    refine ⟨hfirst, hbuffers, fun hgpu hload => ?_⟩
    obtain ⟨loaded, m', hload⟩ := hload
    obtain ⟨laidOut, hlaidOut, hdata⟩ := h.laidOut loaded m' hload
    refine ⟨(layOutInputs_loaded rt hload hgpu).mp
      (isSome_iff_exists.mpr ⟨laidOut, hlaidOut⟩), ?_⟩
    intro k arg data reached m ptr hloads
    have hinput := hdata k arg data reached m ptr hloads
    rw [InputData, if_neg hgpu] at hinput
    obtain ⟨operand, hoperand, hlength, -⟩ := hinput
    exact ⟨operand, hoperand, hloads.length_data ▸ hlength⟩
  · intro h
    refine ⟨(identifiedIndexes_iff _).mpr h.keptFirst, ?_, fun loaded m' hload => ?_⟩
    · intro k arg data reached m ptr hloads
      rw [bufferOf_eq h.keptFirst hloads.kept]
      exact hloads.holds_iff.mpr (h.buffers k arg data reached m ptr hloads)
    obtain ⟨hmodel, -⟩ := loadInputs_same _ hload
    have hholds : ∀ k arg data reached m ptr, Loads pm request k arg data reached m ptr →
        Holds loaded k data := fun k arg data reached m ptr hloads =>
      hloads.holds hload (h.buffers k arg data reached m ptr hloads)
    by_cases hgpu : pm.hwPreference = .gpuOnly
    · refine ⟨loaded, by rw [layOutInputs, hmodel.hwPreference, if_pos hgpu], ?_⟩
      intro k arg data reached m ptr hloads
      rw [InputData, if_pos hgpu, bufferOf_eq h.keptFirst hloads.kept]
      exact hholds k arg data reached m ptr hloads
    · obtain ⟨hroom, htensors⟩ := h.tensors hgpu ⟨loaded, m', hload⟩
      obtain ⟨laidOut, hlaidOut⟩ := isSome_iff_exists.mp
        ((layOutInputs_loaded rt hload hgpu).mpr hroom)
      refine ⟨laidOut, hlaidOut, ?_⟩
      intro k arg data reached m ptr hloads
      have hlength := hloads.length_data
      have hpos := hloads.length
      obtain ⟨bytes, hbuffer, htake⟩ :=
        (hholds k arg data reached m ptr hloads).buffer (by omega)
      have hbytes : bytes ≠ [] := by
        rintro rfl
        rw [take_nil] at htake
        rw [← htake] at hlength
        exact absurd hlength (Nat.ne_of_lt hpos)
      obtain ⟨operand, out, hoperand, hout, houtlen, hsize, htensor⟩ :=
        layOutInputs_inputBuffer hlaidOut (hmodel.hwPreference ▸ hgpu) hbuffer hbytes
      obtain ⟨operand', hoperand', hfull⟩ := htensors k arg data reached m ptr hloads
      rw [hmodel.model, hoperand', some.injEq] at hoperand
      subst hoperand
      rw [InputData, if_neg hgpu, bufferOf_eq h.keptFirst hloads.kept]
      have hdata : bytes.take operand'.tensorSize = data := by
        rw [← hfull, ← hlength]
        exact htake
      refine ⟨operand', hoperand', by omega, out.take operand'.tensorSize, ?_, ?_, ?_⟩
      · rw [length_take]
        omega
      · refine ⟨⟨some out, false⟩, out, hout, rfl, ?_, ?_⟩
        · have houtsize : (⟨some out, false⟩ : EdenBuffer).size = out.length := rfl
          rw [houtsize, length_take]
          omega
        · rw [length_take, Nat.min_eq_left (by omega)]
      · rw [hmodel.hwPreference, hdata] at htensor
        exact htensor

end Matched

/-! ## An input without an operand before one with an operand -/

/-- A model whose first input has become a part of the options of its operation. -/
def skippedInputModel : EdenPreparedModel :=
  { dynamicModel with
    model :=
      { operands := [⟨.int32, []⟩, ⟨.tensorFloat32, [1]⟩, ⟨.tensorFloat32, [1]⟩]
        operations := [⟨19, [1, 0]⟩]
        inputIndexes := [0, 1]
        outputIndexes := [2] }
    mapOperandIdFromAToE := fun operandIdx => if operandIdx = 0 then none else some operandIdx
    inputConsumers := [0, 0] }

/-- **The ids of the converted model's inputs are those of the heap** when the first of
two inputs has become a part of the options. -/
theorem not_inputs_matched :
    ¬ ∀ (rt : Runtime) (pm : EdenPreparedModel) (request : Request),
      InputsMatched rt pm request := by
  intro h
  have hmatched := h idleRuntime skippedInputModel ⟨[], [], []⟩
  have hids := hmatched.identified fun _ => 0
  exact absurd hids (by decide +kernel)

end ExynosVendor.Eden
