import ExynosVendor.Eden.OutputLoops

/-!
# The answer to a request

Each exit of the driver answers the callback once. A `return` of the scheduler is
answered by the entry point, which returns what it says. A `break` is answered by
the scheduler, which then returns `RET_OK` whatever it said, so that `execute`
returns `NONE` for an execution that failed; and success is said of outputs that
never came to where the client looks for them.

`Scheduled` follows the exits and asks of each what makes its answer right, and
`answered_iff` is that this is all there is to ask.
-/

namespace ExynosVendor.Eden

open List Option

/-- The functions of `IPreparedModel` that execute a request. -/
inductive EntryPoint where
  | execute
  | execute_1_2
  | executeSynchronously
  deriving DecidableEq

/-- A call with a callback: the status that is returned, if one is, and what the call
leaves. -/
def EdenPreparedModel.call (pm : EdenPreparedModel) (validateRequest : Request → Model → Bool)
    (rt : Runtime) (request : Request) : EntryPoint → Option (Option ErrorStatus × Outcome)
  | .execute =>
      (pm.execute validateRequest rt request true).map fun answer => (some answer.1, answer.2)
  | .execute_1_2 =>
      (pm.execute_1_2 validateRequest rt request true).map fun answer => (some answer.1, answer.2)
  | .executeSynchronously =>
      (pm.executeSynchronously validateRequest rt request).map fun outcome => (none, outcome)

/-! ## What an answer has to be -/

/-- An output is empty: a dimension of its operand, or of those that the runtime
reports, is zero. -/
def ZeroSized (rt : Runtime) (model : Model) (idx : ℕ) : Prop :=
  let shape := (rt.getOutputBufferShape idx).2
  (∃ operand, model.operandAt model.outputIndexes idx = some operand ∧ 0 ∈ operand.dimensions) ∨
    shape.1 = 0 ∨ shape.2.1 = 0 ∨ shape.2.2.1 = 0 ∨ shape.2.2.2 = 0

def AllZeroSized (rt : Runtime) (model : Model) : Prop :=
  ∀ idx < model.outputIndexes.length, ZeroSized rt model idx

/-- Each output that has a value was copied to its pool, unless all are empty. -/
def Delivered (rt : Runtime) (model : Model) (request : Request)
    (copies : List (ℕ × MappedPtr)) : Prop :=
  (∀ idx arg, request.outputs[idx]? = some arg → arg.hasNoValue = false →
    (idx, .pool arg.poolIndex) ∈ copies) ∨ AllZeroSized rt model

/-- **Answered once and truly**: the callback is invoked once, the returned status is
`NONE` exactly when the notified one is, and that is `NONE` only for outputs that are
delivered. -/
def Answered (validateRequest : Request → Model → Bool) (rt : Runtime) (pm : EdenPreparedModel)
    (request : Request) (entry : EntryPoint) : Prop :=
  ∃ answer, pm.call validateRequest rt request entry = some answer ∧
    answer.2.notified.length = 1 ∧
    (∀ status, answer.1 = some status →
      (status = .none ↔ answer.2.notified = [.none])) ∧
    (answer.2.notified = [.none] → Delivered rt pm.model request answer.2.copied.copies)

/-! ## When it is -/

/-- The output whose address a copy goes to: of those that have a value, the one with its
number. -/
def Request.addressed (request : Request) (idx : ℕ) : Option RequestArgument :=
  (request.outputs.filter fun arg => !arg.hasNoValue)[idx]?

/-- That output lies in the same pool, and the pool is shared with the client. -/
def OwnAddress (request : Request) (pools : List HidlMemory) (idx : ℕ) (arg : RequestArgument) :
    Prop :=
  ∃ arg', request.addressed idx = some arg' ∧ arg'.poolIndex = arg.poolIndex ∧
    ∃ memory, pools[arg.poolIndex]? = some memory ∧ memory.Shared

/-- What the loop does with an output, if it comes to it: the request must have more outputs
with a value than the number of a copied one says, and the copy must fit. -/
def outputRound (rt : Runtime) (pm : EdenPreparedModel) (request : Request)
    (pools : List HidlMemory) (idx : ℕ) (arg : RequestArgument) : Round :=
  if (rt.getOutputBufferShape idx).1 ≠ RET_OK then .stop
  else if rt.totalSize idx = 0 ∨ arg.hasNoValue = true then .go
  else
    match (request.addressed idx).bind fun arg' => pools[arg'.poolIndex]? with
    | none => .fault
    | some memory =>
        if memory.Null then .stop
        else if memory.room.any fun size => LandingFits rt pm idx arg size then .go else .fault

/-- The rounds of the loop that copies the outputs. -/
def outputRounds (rt : Runtime) (pm : EdenPreparedModel) (request : Request)
    (pools : List HidlMemory) : List Round :=
  request.outputs.zipIdx.map fun x => outputRound rt pm request pools x.2 x.1

/-- The exits behind `ExecuteRequest`. An asynchronous call must not time out, no
access leaves its object, and where the loop goes through, each output with a value
is not empty and has the address of its pool, unless all are empty. -/
def Executed (async : Bool) (rt : Runtime) (pm : EdenPreparedModel) (request : Request)
    (m : ExecuteMemory) : Prop :=
  rt.executeRequest = RET_OK →
    Round.loop (request.outputs.map (mapRound m.pools)) ≠ .fault ∧
    (Round.loop (request.outputs.map (mapRound m.pools)) = .go →
      if rt.waitFor < 0 then async = false
      else
        Round.loop (outputRounds rt pm request m.pools) ≠ .fault ∧
        (Round.loop (outputRounds rt pm request m.pools) = .go →
          (∀ idx arg, request.outputs[idx]? = some arg → arg.hasNoValue = false →
            rt.totalSize idx ≠ 0 ∧ OwnAddress request m.pools idx arg) ∨
          AllZeroSized rt pm.model))

/-- The exits of the scheduler: an asynchronous call must not fail its checks, and
outputs that are taken for empty must be, or have no value. -/
def Scheduled (async : Bool) (rt : Runtime) (pm : EdenPreparedModel) (request : Request)
    (m : ExecuteMemory) : Prop :=
  ∃ outputs, pm.model.outputDimensions = some outputs ∧
    if outputSizeSum outputs = 0 then async = false
    else if skipZeroSize outputs then
      (∀ arg ∈ request.outputs, arg.hasNoValue = true) ∨ AllZeroSized rt pm.model
    else if request.outputs.length ≠ pm.outputNumOfBuffers then async = false
    else ∃ pm', layOutInputs rt pm = some pm' ∧ Executed async rt pm' request m

/-- And those before it, which are all answered by the entry point. -/
def Answerable (validateRequest : Request → Model → Bool) (rt : Runtime)
    (pm : EdenPreparedModel) (request : Request) (entry : EntryPoint) : Prop :=
  validateRequest request pm.model = true →
    ∃ verified, verifyDimension request pm.model = some verified ∧
      (verified = true →
        ∃ prepared, pm.prepare rt request = some prepared ∧
          (prepared.1 = RET_OK →
            Scheduled (entry ≠ .executeSynchronously) rt prepared.2.1 request prepared.2.2))

/-! ## The exits of the scheduler -/

/-- What the agent must leave for its caller to answer: an error without an answer, or
`RET_OK` with the right one. -/
def Fine (async : Bool) (rt : Runtime) (model : Model) (request : Request)
    (outcome : Option Outcome) : Prop :=
  ∃ o, outcome = some o ∧
    ((o.ret ≠ RET_OK ∧ o.notified = []) ∨
      (o.ret = RET_OK ∧ ∃ status, o.notified = [status] ∧
        (async = true → status = .none) ∧
        (status = .none → Delivered rt model request o.copied.copies)))

theorem forall₂_getElem? {α β : Type} {R : α → β → Prop} {xs : List α} {ys : List β}
    (h : List.Forall₂ R xs ys) {k : ℕ} :
    (∀ {y}, ys[k]? = some y → ∃ x, xs[k]? = some x ∧ R x y) ∧
      (∀ {x}, xs[k]? = some x → ∃ y, ys[k]? = some y ∧ R x y) := by
  induction h generalizing k with
  | nil => simp
  | cons hxy _ ih =>
    cases k with
    | zero =>
      simp only [getElem?_cons_zero, some.injEq, forall_eq', exists_eq_left']
      exact ⟨hxy, hxy⟩
    | succ k => exact ih

variable {rt : Runtime} {vecMappedPtr : List MappedPtr}

/-- The copies that are made, with their addresses. -/
theorem mem_copiedOutputs {args : List RequestArgument} {idx : ℕ} {ptr : MappedPtr} :
    (idx, ptr) ∈ copiedOutputs rt vecMappedPtr 0 args ↔
      ∃ arg, args[idx]? = some arg ∧ rt.totalSize idx ≠ 0 ∧ arg.hasNoValue = false ∧
        vecMappedPtr[idx]? = some ptr := by
  unfold copiedOutputs
  rw [mem_filterMap]
  constructor
  · rintro ⟨⟨arg, k⟩, hmem, heq⟩
    have harg := mem_zipIdx_iff_getElem?.mp hmem
    dsimp only at heq
    split at heq
    · contradiction
    · rename_i hskip
      obtain ⟨htotal, hvalue⟩ := not_or.mp hskip
      obtain ⟨ptr', hptr, heq⟩ := map_eq_some_iff.mp heq
      obtain ⟨rfl, rfl⟩ := Prod.mk.inj heq
      exact ⟨arg, harg, htotal, by simpa using hvalue, hptr⟩
  · rintro ⟨arg, harg, htotal, hvalue, hptr⟩
    refine ⟨(arg, idx), mem_zipIdx_iff_getElem?.mpr harg, ?_⟩
    dsimp only
    rw [if_neg (by simp [htotal, hvalue]), hptr]
    rfl

/-- So what is delivered is known from the request, the pools and the reported sizes. -/
theorem delivered_iff {model : Model} {request : Request} {m : ExecuteMemory}
    (h : List.Forall₂ (fun arg ptr => AddressOf m arg.poolIndex ptr)
      (request.outputs.filter fun arg => !arg.hasNoValue) vecMappedPtr) :
    Delivered rt model request (copiedOutputs rt vecMappedPtr 0 request.outputs) ↔
      (∀ idx arg, request.outputs[idx]? = some arg → arg.hasNoValue = false →
        rt.totalSize idx ≠ 0 ∧ OwnAddress request m.pools idx arg) ∨ AllZeroSized rt model := by
  refine or_congr_left (forall_congr' fun idx => forall_congr' fun arg =>
    forall_congr' fun harg => forall_congr' fun hvalue => ?_)
  rw [mem_copiedOutputs]
  constructor
  · rintro ⟨arg', harg', htotal, -, hptr⟩
    rw [harg, some.injEq] at harg'
    subst harg'
    obtain ⟨arg', hpresent, haddress⟩ := (forall₂_getElem? h).1 hptr
    obtain ⟨hpool, memory, hmemory, hshared⟩ := (haddress.pool arg.poolIndex).mp rfl
    exact ⟨htotal, arg', hpresent, hpool.symm, memory, hmemory, hshared⟩
  · rintro ⟨htotal, arg', hpresent, hpool, hshared⟩
    obtain ⟨ptr, hptr, haddress⟩ := (forall₂_getElem? h).2 hpresent
    refine ⟨arg, harg, htotal, hvalue, ?_⟩
    rw [hptr, (haddress.pool arg.poolIndex).mpr ⟨hpool.symm, hshared⟩]

/-- And so is the loop: an address is null or has its room as the pool has it. -/
theorem copyRounds_eq {pm : EdenPreparedModel} {request : Request} {m : ExecuteMemory}
    (h : List.Forall₂ (fun arg ptr => AddressOf m arg.poolIndex ptr)
      (request.outputs.filter fun arg => !arg.hasNoValue) vecMappedPtr) :
    (request.outputs.zipIdx.map fun x => copyRound rt pm vecMappedPtr m x.2 x.1) =
      outputRounds rt pm request m.pools := by
  refine map_congr_left fun x _ => ?_
  unfold copyRound outputRound
  split
  · rfl
  split
  · rfl
  cases hptr : vecMappedPtr[x.2]? with
  | none =>
    have hnone : request.addressed x.2 = none := by
      rw [Request.addressed, List.getElem?_eq_none_iff, h.length_eq]
      exact List.getElem?_eq_none_iff.mp hptr
    rw [hnone]
    rfl
  | some ptr =>
    obtain ⟨arg', harg', haddress⟩ := (forall₂_getElem? h).1 hptr
    obtain ⟨memory, hmemory, hnull, hroom⟩ := haddress.room
    rw [Request.addressed, harg', bind_some, hmemory]
    dsimp only
    rw [← hroom]
    simp only [hnull, copyFits, Option.any_map]
    rfl

section Exits

variable {async : Bool} {rt : Runtime} {pm pm' : EdenPreparedModel} {request : Request}
variable {m : ExecuteMemory}

theorem not_fine_none (model : Model) : ¬ Fine async rt model request none := by
  rintro ⟨o, h, -⟩
  contradiction

/-- An exit by `return` is left to the caller. -/
theorem fine_returned {ret : ℤ} (hret : ret ≠ RET_OK) (model : Model) (pm : EdenPreparedModel)
    (copied : Copied) : Fine async rt model request (some ⟨ret, [], pm, copied⟩) :=
  ⟨_, rfl, Or.inl ⟨hret, rfl⟩⟩

/-- An exit by `break` with an error suits only who returns nothing. -/
theorem fine_failure {model : Model} {copied : Copied} :
    Fine async rt model request (some ⟨RET_OK, [.generalFailure], pm, copied⟩) ↔
      async = false := by
  constructor
  · rintro ⟨o, h, hret | ⟨-, status, hstatus, hasync, -⟩⟩
    · rw [← some.inj h] at hret
      exact absurd rfl hret.1
    · rw [← some.inj h, List.cons.injEq] at hstatus
      cases async with
      | false => rfl
      | true =>
        rw [hasync rfl] at hstatus
        exact absurd hstatus.1 (by decide)
  · intro hasync
    exact ⟨_, rfl, Or.inr ⟨rfl, _, rfl, fun h => by rw [hasync] at h; contradiction,
      fun h => by contradiction⟩⟩

/-- And one without an error suits if the outputs are delivered. -/
theorem fine_success {model : Model} {copied : Copied} :
    Fine async rt model request (some ⟨RET_OK, [.none], pm, copied⟩) ↔
      Delivered rt model request copied.copies := by
  constructor
  · rintro ⟨o, h, hret | ⟨-, status, hstatus, -, hdelivered⟩⟩
    · rw [← some.inj h] at hret
      exact absurd rfl hret.1
    · rw [← some.inj h] at hstatus hdelivered
      exact hdelivered (List.cons.inj hstatus).1.symm
  · intro h
    exact ⟨_, rfl, Or.inr ⟨rfl, _, rfl, fun _ => rfl, fun _ => h⟩⟩

/-- How an exit is turned into what the scheduler leaves. -/
def Exit.outcome (pm : EdenPreparedModel) : Exit × Copied → Outcome
  | (.broke retCode, copied) =>
      ⟨RET_OK, [if retCode = RET_OK then .none else .generalFailure], pm, copied⟩
  | (.returned ret, copied) => ⟨ret, [], pm, copied⟩

/-- The exits behind `ExecuteRequest`, one by one. -/
theorem fine_executeOnEden (pm' : EdenPreparedModel) :
    Fine async rt pm.model request
      ((executeOnEden rt pm request m).map (Exit.outcome pm')) ↔
      Executed async rt pm request m := by
  unfold executeOnEden Executed
  by_cases hrequest : rt.executeRequest = RET_OK
  swap
  · rw [if_pos hrequest]
    exact ⟨fun _ h => absurd h hrequest, fun _ => fine_returned (by decide) _ _ _⟩
  rw [if_neg (not_not.mpr hrequest)]
  have hmaps := mapOutputs_spec request.outputs m []
  cases hloop : Round.loop (request.outputs.map (mapRound m.pools)) with
  | fault =>
    rw [hloop] at hmaps
    rw [hmaps]
    exact ⟨fun h => absurd h (not_fine_none _), fun h => absurd rfl (h hrequest).1⟩
  | stop =>
    rw [hloop] at hmaps
    obtain ⟨ret, vec, m', hmaps, hret⟩ := hmaps
    rw [hmaps, bind_some, if_pos hret]
    exact ⟨fun _ _ => ⟨by decide, fun h => absurd h (by decide)⟩,
      fun _ => fine_returned hret _ _ _⟩
  | go =>
    rw [hloop] at hmaps
    obtain ⟨vec, extra, hmaps, haddresses⟩ := hmaps
    rw [nil_append] at hmaps
    rw [hmaps, bind_some, if_neg (by simp)]
    dsimp only
    have hquestion : ∀ P : Prop,
        (rt.executeRequest = RET_OK → Round.go ≠ .fault ∧ (Round.go = .go → P)) ↔ P := fun P =>
      ⟨fun h => (h hrequest).2 rfl, fun h _ => ⟨by decide, fun _ => h⟩⟩
    rw [hquestion]
    by_cases hwait : rt.waitFor < 0
    · rw [if_pos hwait, if_pos hwait]
      exact fine_failure
    rw [if_neg hwait, if_neg hwait]
    have hcopies := copyOutputs_spec rt pm vec request.outputs
      (c := ⟨⟨m.pools, m.copies ++ extra⟩, []⟩) (ExecuteMemory.SameSizes.refl _) 0
    rw [copyRounds_eq haddresses] at hcopies
    dsimp only at hcopies
    cases hrounds : Round.loop (outputRounds rt pm request m.pools) with
    | fault =>
      rw [hrounds] at hcopies
      rw [hcopies]
      exact ⟨fun h => absurd h (not_fine_none _), fun h => absurd rfl h.1⟩
    | stop =>
      rw [hrounds] at hcopies
      obtain ⟨ret, copied, hcopies, hret⟩ := hcopies
      rw [hcopies, map_some, if_pos hret]
      exact ⟨fun _ => ⟨by decide, fun h => by contradiction⟩,
        fun _ => fine_returned hret _ _ _⟩
    | go =>
      rw [hrounds] at hcopies
      obtain ⟨m', hcopies⟩ := hcopies
      rw [hcopies, map_some, if_neg (by simp), nil_append]
      have hsuccess : Exit.outcome pm'
          (.broke RET_OK, ⟨m', copiedOutputs rt vec 0 request.outputs⟩) =
          ⟨RET_OK, [.none], pm', ⟨m', copiedOutputs rt vec 0 request.outputs⟩⟩ := rfl
      rw [map_some, hsuccess, fine_success, delivered_iff haddresses]
      exact ⟨fun h => ⟨by decide, fun _ => h⟩, fun h => h.2 rfl⟩

theorem layOutInputs_model (h : layOutInputs rt pm = some pm') : pm'.model = pm.model := by
  unfold layOutInputs at h
  split at h
  · rw [some.inj h]
  · obtain ⟨buffers, -, rfl⟩ := map_eq_some_iff.mp h
    rfl

/-- **The exits of the scheduler, one by one.** -/
theorem fine_requestOneExecutionInAsyncBase :
    Fine async rt pm.model request (requestOneExecutionInAsyncBase rt pm request m) ↔
      Scheduled async rt pm request m := by
  unfold requestOneExecutionInAsyncBase requestBody Scheduled
  cases houtputs : pm.model.outputDimensions with
  | none =>
    refine ⟨fun h => absurd h (not_fine_none _), ?_⟩
    rintro ⟨outputs, h, -⟩
    contradiction
  | some outputs =>
    rw [bind_some]
    have hquestion : ∀ P : List (List ℕ) → Prop,
        (∃ outputs', some outputs = some outputs' ∧ P outputs') ↔ P outputs := by
      intro P
      simp only [some.injEq, exists_eq_left']
    rw [hquestion fun outputs => if outputSizeSum outputs = 0 then async = false
      else if skipZeroSize outputs then
        (∀ arg ∈ request.outputs, arg.hasNoValue = true) ∨ AllZeroSized rt pm.model
      else if request.outputs.length ≠ pm.outputNumOfBuffers then async = false
      else ∃ pm', layOutInputs rt pm = some pm' ∧ Executed async rt pm' request m]
    by_cases hsum : outputSizeSum outputs = 0
    · rw [if_pos hsum, if_pos hsum, map_some]
      exact fine_failure
    rw [if_neg hsum, if_neg hsum]
    by_cases hskip : skipZeroSize outputs = true
    · rw [if_pos hskip, if_pos hskip, map_some]
      refine fine_success.trans (or_congr_left ⟨fun h arg harg => ?_, fun h idx arg harg hvalue => ?_⟩)
      · obtain ⟨idx, hidx⟩ := mem_iff_getElem?.mp harg
        cases hvalue : arg.hasNoValue with
        | true => rfl
        | false => exact absurd (h idx arg hidx hvalue) (not_mem_nil)
      · rw [h arg (mem_of_getElem? harg)] at hvalue
        contradiction
    rw [if_neg hskip, if_neg hskip]
    by_cases hcount : request.outputs.length ≠ pm.outputNumOfBuffers
    · rw [if_pos hcount, if_pos hcount, map_some]
      exact fine_failure
    rw [if_neg hcount, if_neg hcount]
    cases hinputs : layOutInputs rt pm with
    | none =>
      refine ⟨fun h => absurd h (not_fine_none _), ?_⟩
      rintro ⟨pm', h, -⟩
      contradiction
    | some pm' =>
      rw [bind_some, Option.map_map]
      simp only [some.injEq, exists_eq_left']
      rw [← fine_executeOnEden pm', layOutInputs_model hinputs]
      refine iff_of_eq (congrArg _ (congrArg (Option.map · _) ?_))
      funext executed
      rcases executed with ⟨exit, copied⟩
      cases exit <;> rfl

end Exits

/-! ## The exits before it -/

section Prepare

variable {rt : Runtime} {pm pm' : EdenPreparedModel} {request : Request} {m : ExecuteMemory}

/-- What comes before the scheduler leaves the model alone. -/
theorem andThen_model {first : Option (ℤ × EdenPreparedModel)}
    {second : EdenPreparedModel → Option (ℤ × EdenPreparedModel)} {model : Model}
    (hfirst : ∀ p, first = some p → p.2.model = model)
    (hsecond : ∀ pm p, second pm = some p → p.2.model = pm.model) :
    ∀ p, EdenPreparedModel.andThen first second = some p → p.2.model = model := by
  intro p h
  obtain ⟨done, hdone, h⟩ := bind_eq_some_iff.mp h
  split at h
  · rw [← some.inj h]
    exact hfirst done hdone
  · exact (hsecond _ _ h).trans (hfirst done hdone)

variable {p : ℤ × EdenPreparedModel}

theorem allocateInputBuffers_model (h : pm.allocateInputBuffers rt request = some p) :
    p.2.model = pm.model := by
  unfold EdenPreparedModel.allocateInputBuffers at h
  split at h
  · obtain ⟨ready, -, rfl⟩ := map_eq_some_iff.mp h
    split
    · split <;> rfl
    · rfl
  · rw [← some.inj h]

theorem allocateOutputBuffers_model (h : pm.allocateOutputBuffers rt request = some p) :
    p.2.model = pm.model := by
  unfold EdenPreparedModel.allocateOutputBuffers at h
  split at h
  · obtain ⟨ready, -, rfl⟩ := map_eq_some_iff.mp h
    split
    · split <;> rfl
    · rfl
  · rw [← some.inj h]

theorem makeReady_model (h : pm.makeReady rt request = some p) :
    p.2.model = pm.model := by
  refine andThen_model (andThen_model (fun p hp => ?_) fun pm p => allocateInputBuffers_model)
    (fun pm p => allocateOutputBuffers_model) p h
  obtain ⟨resolved, hresolved, rfl⟩ := map_eq_some_iff.mp hp
  unfold EdenPreparedModel.resolveUnknownDimensions at hresolved
  obtain ⟨needInputBuffers, -, hresolved⟩ := bind_eq_some_iff.mp hresolved
  obtain ⟨needOutputBuffers, -, rfl⟩ := map_eq_some_iff.mp hresolved
  split <;> rfl

theorem prepare_model {p : ℤ × EdenPreparedModel × ExecuteMemory}
    (h : pm.prepare rt request = some p) : p.2.1.model = pm.model := by
  obtain ⟨ready, hready, h⟩ := bind_eq_some_iff.mp h
  split at h
  · rw [← some.inj h]
    exact makeReady_model hready
  · exact (loadInputs_same _ h).1.model.trans (makeReady_model hready)

end Prepare

section Entry

variable {validateRequest : Request → Model → Bool} {rt : Runtime} {pm : EdenPreparedModel}
variable {request : Request} {entry : EntryPoint}

/-- The entry points differ in what they return. -/
theorem answered_iff_executeRequest :
    Answered validateRequest rt pm request entry ↔
      ∃ executed, pm.executeRequest validateRequest rt request = some executed ∧
        executed.2.notified.length = 1 ∧
        (entry ≠ .executeSynchronously →
          (executed.1 = true ↔ executed.2.notified = [.none])) ∧
        (executed.2.notified = [.none] →
          Delivered rt pm.model request executed.2.copied.copies) := by
  have hreturned : ∀ executed : Bool × Outcome,
      (∀ status, some (if executed.1 = true then ErrorStatus.none else .invalidArgument) =
        some status → (status = .none ↔ executed.2.notified = [.none])) ↔
      (executed.1 = true ↔ executed.2.notified = [.none]) := by
    intro executed
    simp only [some.injEq, forall_eq']
    cases executed.1 <;> simp
  unfold Answered EdenPreparedModel.call
  cases hexecuted : pm.executeRequest validateRequest rt request with
  | none =>
    cases entry <;> simp [EdenPreparedModel.execute, EdenPreparedModel.execute_1_2,
      EdenPreparedModel.executeSynchronously, hexecuted]
  | some executed =>
    have hreturned := hreturned executed
    cases entry with
    | execute =>
      simp only [EdenPreparedModel.execute, hexecuted, if_true, map_some,
        some.injEq, exists_eq_left', ne_eq, reduceCtorEq, not_false_eq_true, true_imp_iff]
      simp only [some.injEq] at hreturned
      rw [hreturned]
    | execute_1_2 =>
      simp only [EdenPreparedModel.execute_1_2, EdenPreparedModel.execute, hexecuted, if_true,
        map_some, some.injEq, exists_eq_left', ne_eq, reduceCtorEq, not_false_eq_true, true_imp_iff]
      simp only [some.injEq] at hreturned
      rw [hreturned]
    | executeSynchronously =>
      simp only [EdenPreparedModel.executeSynchronously, hexecuted, map_some,
        some.injEq, exists_eq_left', ne_eq, not_true_eq_false, false_imp_iff, true_and,
        reduceCtorEq, implies_true]

/-- What the entry point makes of what the agent leaves. -/
theorem fine_iff_executeRequest {model : Model} {outcome : Option Outcome} {async : Bool} :
    (∃ executed, (outcome.map fun outcome =>
        if outcome.ret ≠ RET_OK then
          (false, { outcome with notified := outcome.notified ++ [.invalidArgument] })
        else (true, outcome)) = some executed ∧
      executed.2.notified.length = 1 ∧
      (async = true → (executed.1 = true ↔ executed.2.notified = [.none])) ∧
      (executed.2.notified = [.none] → Delivered rt model request executed.2.copied.copies)) ↔
    Fine async rt model request outcome := by
  constructor
  · rintro ⟨executed, h, hlength, hreturned, hdelivered⟩
    obtain ⟨o, rfl, rfl⟩ := map_eq_some_iff.mp h
    refine ⟨o, rfl, ?_⟩
    by_cases hret : o.ret ≠ RET_OK
    · rw [if_pos hret] at hlength
      rw [length_append, length_singleton] at hlength
      exact Or.inl ⟨hret, length_eq_zero_iff.mp (by omega)⟩
    · rw [if_neg hret] at hlength hreturned hdelivered
      obtain ⟨status, hstatus⟩ := length_eq_one_iff.mp hlength
      rw [hstatus] at hreturned hdelivered
      refine Or.inr ⟨not_not.mp hret, status, hstatus, fun hasync => ?_, fun hnone => ?_⟩
      · exact (List.cons.inj ((hreturned hasync).mp rfl)).1
      · exact hdelivered (by rw [hnone])
  · rintro ⟨o, rfl, ⟨hret, hnotified⟩ | ⟨hret, status, hstatus, hasync, hdelivered⟩⟩
    · refine ⟨_, rfl, ?_⟩
      beta_reduce
      rw [if_pos hret, hnotified]
      exact ⟨rfl, fun _ => by simp, fun h => by simp at h⟩
    · refine ⟨_, rfl, ?_⟩
      beta_reduce
      rw [if_neg (not_not.mpr hret), hstatus]
      refine ⟨rfl, fun h => ?_, fun h => hdelivered (List.cons.inj h).1⟩
      rw [hasync h]
      exact ⟨fun _ => rfl, fun _ => rfl⟩

/-- **The driver answers a request once and truly exactly if** it comes to no exit
of the scheduler whose answer differs from what is returned, and says so of no output
that the client does not get. -/
theorem answered_iff (validateRequest : Request → Model → Bool) (rt : Runtime)
    (pm : EdenPreparedModel) (request : Request) (entry : EntryPoint) :
    Answered validateRequest rt pm request entry ↔
      Answerable validateRequest rt pm request entry := by
  rw [answered_iff_executeRequest]
  unfold EdenPreparedModel.executeRequest Answerable
  dsimp only
  -- a request that is refused is answered by the entry point, and that is the end of it
  have hrefused : ∀ copied : Copied, ∃ executed : Bool × Outcome,
      some (false, (⟨RET_OK, [.invalidArgument], pm, copied⟩ : Outcome)) = some executed ∧
        executed.2.notified.length = 1 ∧
        (entry ≠ .executeSynchronously →
          (executed.1 = true ↔ executed.2.notified = [.none])) ∧
        (executed.2.notified = [.none] →
          Delivered rt pm.model request executed.2.copied.copies) := by
    intro copied
    exact ⟨_, rfl, rfl, fun _ => by simp, fun h => by simp at h⟩
  by_cases hvalid : validateRequest request pm.model = true
  swap
  · rw [if_neg hvalid]
    exact ⟨fun _ h => absurd h hvalid, fun _ => hrefused _⟩
  rw [if_pos hvalid]
  simp only [hvalid, true_imp_iff]
  cases hverified : verifyDimension request pm.model with
  | none => simp
  | some verified =>
    simp only [bind_some, some.injEq, exists_eq_left']
    cases verified with
    | false =>
      simp only [Bool.false_eq_true, if_false, false_imp_iff, iff_true]
      exact hrefused _
    | true =>
      simp only [if_true, true_imp_iff, EdenPreparedModel.executeOnNNAgent, hvalid]
      have hasync : ∀ P : Prop, (entry ≠ .executeSynchronously → P) ↔
          (decide (entry ≠ .executeSynchronously) = true → P) := by
        intro P
        rw [decide_eq_true_eq]
      simp only [hasync]
      rw [fine_iff_executeRequest, EdenPreparedModel.executeBaseOnNNAgent]
      cases hprepared : pm.prepare rt request with
      | none =>
        refine ⟨fun h => absurd h (not_fine_none _), ?_⟩
        rintro ⟨prepared, h, -⟩
        contradiction
      | some prepared =>
        simp only [bind_some, some.injEq, exists_eq_left']
        by_cases hret : prepared.1 ≠ RET_OK
        · rw [if_pos hret]
          exact ⟨fun _ h => absurd h hret, fun _ => fine_returned hret _ _ _⟩
        · rw [if_neg hret, ← prepare_model hprepared, fine_requestOneExecutionInAsyncBase]
          exact ⟨fun h _ => h, fun h => h (not_not.mp hret)⟩

end Entry

/-! ## An execution that failed, for which `NONE` is returned -/

/-- A model of one operation, whose output has a dimension that is not specified. -/
def dynamicModel : EdenPreparedModel where
  model :=
    { operands := [⟨.tensorFloat32, [1]⟩, ⟨.tensorFloat32, [0]⟩]
      operations := [⟨19, [0]⟩]
      inputIndexes := [0]
      outputIndexes := [1] }
  hwPreference := .gpuOnly
  inputAddr := some [⟨some [0, 0, 0, 0], false⟩]
  outputAddr := some [⟨some [0, 0, 0, 0], false⟩]
  updatedOperations := []
  mapOperandIdFromAToE := fun operandIdx => some operandIdx
  mapOperationIdFromAToE := fun _ => 0
  edenOperation := fun _ => some ⟨false, false⟩
  inputConsumers := [0]
  needInputBuffers := false
  needOutputBuffers := false

/-- A runtime to which nothing happens. -/
def idleRuntime : Runtime where
  deduceOperandDimensions := fun _ => true
  readyToAllocateInputBuffers := fun _ => true
  readyToAllocateOutputBuffers := fun _ => true
  allocateInputBuffers := (RET_OK, none)
  allocateOutputBuffers := (RET_OK, none)
  executeRequest := RET_OK
  waitFor := 0
  getOutputBufferShape := fun _ => (RET_OK, 1, 1, 1, 1)
  results := fun _ _ => 0x2A
  inputOffset := 0
  outputOffset := 0
  inputHeap := fun _ _ => 0
  outputHeap := fun _ _ => 0

/-- A request with a pool for the input and the output. -/
def dynamicRequest : Request where
  inputs := [⟨false, 0, 0, 4, []⟩]
  outputs := [⟨false, 0, 4, 4, []⟩]
  pools := [⟨"ashmem", .memory, true, List.replicate 8 0⟩]

/-- **A failure for which `NONE` is returned**: the dimensions of the outputs are all
zero, the scheduler takes that for an invalid parameter and says so to the callback
only. -/
theorem not_answered :
    ¬ ∀ (validateRequest : Request → Model → Bool) (rt : Runtime) (pm : EdenPreparedModel)
      (request : Request) (entry : EntryPoint),
      Answered validateRequest rt pm request entry := by
  intro h
  obtain ⟨answer, hcall, -, hreturned, -⟩ :=
    h (fun _ _ => true) idleRuntime dynamicModel dynamicRequest .execute
  have hrun : ((dynamicModel.call (fun _ _ => true) idleRuntime dynamicRequest .execute).map
      fun answer => (answer.1, answer.2.notified)) = some (some .none, [.generalFailure]) := by
    decide +kernel
  rw [hcall, map_some, some.injEq, Prod.mk.injEq] at hrun
  have hnotified := (hreturned _ hrun.1).mp rfl
  rw [hrun.2] at hnotified
  exact absurd hnotified (by decide)

end ExynosVendor.Eden
