import ExynosVendor.Common.Checked
import ExynosVendor.Eden.Scheduler

/-!
# The loops over the outputs

What the loops of the scheduler do with one output depends on the request, the
model and the sizes of the memories, never on a byte. So the rounds of a loop are
known before it runs (`mapRound`, `copyRound`), and `mapOutputs_spec` and
`copyOutputs_spec` say what the loop leaves when it goes through.

The copy and the conversion of one output change one object only: `landing` is
that change, and `copyOutput_eq` puts it in its place.
-/

namespace ExynosVendor.Eden

open List Option

/-! ## Objects of the client's memory -/

namespace ExecuteMemory

variable {m m' : ExecuteMemory} {ptr ptr' : MappedPtr} {bytes bytes' : List (BitVec 8)}

theorem object_update_self (h : m.object ptr = some bytes) (bytes' : List (BitVec 8)) :
    (m.update ptr bytes').object ptr = some bytes' := by
  cases ptr with
  | null => contradiction
  | failed => contradiction
  | pool poolIndex =>
    obtain ⟨memory, hmemory, -⟩ := map_eq_some_iff.mp h
    simp only [update, object, getElem?_modify_eq, hmemory]
    rfl
  | copy idx =>
    have hidx : idx < m.copies.length := (List.getElem?_eq_some_iff.mp h).1
    simp only [update, object, getElem?_set_self hidx]

theorem object_update_of_ne (h : ptr ≠ ptr') (bytes : List (BitVec 8)) :
    (m.update ptr bytes).object ptr' = m.object ptr' := by
  cases ptr with
  | null => rfl
  | failed => rfl
  | pool poolIndex =>
    cases ptr' with
    | pool poolIndex' =>
      have hne : poolIndex ≠ poolIndex' := fun heq => h (heq ▸ rfl)
      simp only [update, object, getElem?_modify_ne _ _ hne]
    | null => rfl
    | failed => rfl
    | copy idx => rfl
  | copy idx =>
    cases ptr' with
    | copy idx' =>
      have hne : idx ≠ idx' := fun heq => h (heq ▸ rfl)
      simp only [update, object, getElem?_set_ne hne]
    | null => rfl
    | failed => rfl
    | pool poolIndex => rfl

theorem update_update (m : ExecuteMemory) (ptr : MappedPtr) (bytes bytes' : List (BitVec 8)) :
    (m.update ptr bytes).update ptr bytes' = m.update ptr bytes' := by
  cases ptr with
  | null => rfl
  | failed => rfl
  | pool poolIndex =>
    simp only [update, modify_modify_eq]
    rfl
  | copy idx => simp only [update, set_set]

/-- Two memories with the same objects, of the same sizes. -/
def SameSizes (m m' : ExecuteMemory) : Prop :=
  ∀ ptr, (m'.object ptr).map List.length = (m.object ptr).map List.length

theorem SameSizes.refl (m : ExecuteMemory) : m.SameSizes m := fun _ => rfl

theorem SameSizes.trans {m'' : ExecuteMemory} (h : m.SameSizes m') (h' : m'.SameSizes m'') :
    m.SameSizes m'' :=
  fun ptr => (h' ptr).trans (h ptr)

theorem SameSizes.update (h : m.object ptr = some bytes) (hlen : bytes'.length = bytes.length) :
    m.SameSizes (m.update ptr bytes') := by
  intro ptr'
  by_cases hptr : ptr = ptr'
  · subst hptr
    rw [object_update_self h, h, map_some, map_some, hlen]
  · rw [object_update_of_ne hptr]

end ExecuteMemory

/-! ## The copy of one output -/

/-- What the copy of an output and its conversion make of the object behind the
address. -/
def landing (rt : Runtime) (pm : EdenPreparedModel) (idx : ℕ) (arg : RequestArgument)
    (memory : List (BitVec 8)) : Option (List (BitVec 8)) :=
  (rt.outputBytes pm idx).bind fun bytes =>
    (Block.load bytes 0 arg.length).bind fun data =>
      (Block.store memory arg.offset data).bind fun memory =>
        if pm.hwPreference = .gpuOnly then some memory
        else (pm.layoutOperand idx).bind fun operand =>
          let dataType := getDataType operand.type
          convertDataLayoutFromNCHWToNHWC (getEdenDimensions operand.dimensions) dataType
            (npuOffset pm.hwPreference dataType rt.outputOffset) (rt.outputHeap idx) memory
            arg.offset arg.length

section Landing

variable {rt : Runtime} {pm : EdenPreparedModel} {idx : ℕ} {arg : RequestArgument}
variable {m m' : ExecuteMemory} {ptr : MappedPtr}

theorem copyOutput_eq (rt : Runtime) (pm : EdenPreparedModel) (m : ExecuteMemory)
    (ptr : MappedPtr) (idx : ℕ) (arg : RequestArgument) :
    copyOutput rt pm m ptr idx arg =
      (m.object ptr).bind fun memory => (landing rt pm idx arg memory).map (m.update ptr) := by
  unfold copyOutput landing
  cases hobject : m.object ptr with
  | none =>
    simp only [ExecuteMemory.write, hobject, bind_none, bind_fun_none]
  | some memory =>
    simp only [ExecuteMemory.write, hobject, bind_some, Option.map_bind]
    congr 1
    funext bytes
    simp only [Function.comp_apply, Option.map_bind]
    congr 1
    funext data
    rw [bind_map]
    congr 1
    funext stored
    simp only [Function.comp_apply]
    split
    · rfl
    · rw [Option.map_bind]
      congr 1
      funext operand
      simp only [postProcessOnOutputs, ExecuteMemory.object_update_self hobject, bind_some,
        Function.comp_apply]
      congr 1
      funext converted
      exact ExecuteMemory.update_update m ptr stored converted

variable {memory : List (BitVec 8)}

variable {heap : ℕ → BitVec 8} {memory' : List (BitVec 8)}

theorem length_convertDataLayoutFromNCHWToNHWC {d : EdenDims} {dataType : DataType}
    {offset : BitVec 8} {addr size : ℕ}
    (h : convertDataLayoutFromNCHWToNHWC d dataType offset heap memory addr size = some memory') :
    memory'.length = memory.length := by
  unfold convertDataLayoutFromNCHWToNHWC at h
  split at h
  · rw [some.inj h]
  · exact length_convert h

theorem length_landing (h : landing rt pm idx arg memory = some memory') :
    memory'.length = memory.length := by
  unfold landing at h
  obtain ⟨bytes, -, h⟩ := bind_eq_some_iff.mp h
  obtain ⟨data, -, h⟩ := bind_eq_some_iff.mp h
  obtain ⟨stored, hstored, h⟩ := bind_eq_some_iff.mp h
  rw [← Block.store_length hstored]
  split at h
  · rw [some.inj h]
  · obtain ⟨operand, -, h⟩ := bind_eq_some_iff.mp h
    exact length_convertDataLayoutFromNCHWToNHWC h

/-- The copy of one output keeps all sizes. -/
theorem copyOutput_sameSizes (h : copyOutput rt pm m ptr idx arg = some m') :
    m.SameSizes m' := by
  rw [copyOutput_eq] at h
  obtain ⟨memory, hmemory, h⟩ := bind_eq_some_iff.mp h
  obtain ⟨landed, hlanded, rfl⟩ := map_eq_some_iff.mp h
  exact ExecuteMemory.SameSizes.update hmemory (length_landing hlanded)

/-- Where the copy of an output stays within its objects: the output buffer, the
memory of the client, and the copy of the conversion. -/
structure LandingFits (rt : Runtime) (pm : EdenPreparedModel) (idx : ℕ) (arg : RequestArgument)
    (size : ℕ) : Prop where
  read : ∃ bytes, rt.outputBytes pm idx = some bytes ∧ arg.length ≤ bytes.length
  write : arg.offset + arg.length ≤ size
  convert : pm.hwPreference ≠ .gpuOnly → ∃ operand, pm.layoutOperand idx = some operand ∧
    (arg.length ≠ 0 → arg.length < 2 ^ 31 ∧
      arg.offset + (getEdenDimensions operand.dimensions).volume *
        (getDataType operand.type).width ≤ size ∧
      ∀ k ∈ (getEdenDimensions operand.dimensions).nhwcPlaces, k < arg.length)

theorem convertDataLayoutFromNCHWToNHWC_isSome_iff {d : EdenDims} {dataType : DataType}
    {offset : BitVec 8} {addr size : ℕ} (hfit : addr + size ≤ memory.length) :
    (convertDataLayoutFromNCHWToNHWC d dataType offset heap memory addr size).isSome ↔
      (size ≠ 0 → size < 2 ^ 31 ∧ addr + d.volume * dataType.width ≤ memory.length ∧
        ∀ k ∈ d.nhwcPlaces, k < size) := by
  unfold convertDataLayoutFromNCHWToNHWC convertToNHWC
  by_cases hsize : size = 0
  · simp [hsize]
  · rw [if_neg hsize, convert_isSome_iff dataType.width_pos fun _ => length_map _,
      d.length_nhwcPlaces]
    exact ⟨fun h _ => ⟨h.1, h.2.1, h.2.2.1⟩, fun h => ⟨(h hsize).1, (h hsize).2.1,
      (h hsize).2.2, hfit⟩⟩

theorem landing_isSome_iff :
    (landing rt pm idx arg memory).isSome ↔ LandingFits rt pm idx arg memory.length := by
  unfold landing
  cases hbytes : rt.outputBytes pm idx with
  | none =>
    simp only [bind_none, isSome_none, Bool.false_eq_true, false_iff]
    rintro ⟨⟨bytes, hsome, -⟩, -, -⟩
    rw [hbytes] at hsome
    contradiction
  | some bytes =>
    rw [bind_some]
    by_cases hread : arg.length ≤ bytes.length
    swap
    · rw [Block.load_eq_none (by omega)]
      simp only [bind_none, isSome_none, Bool.false_eq_true, false_iff]
      rintro ⟨⟨bytes', hsome, hle⟩, -, -⟩
      rw [hbytes, some.injEq] at hsome
      exact hread (hsome ▸ hle)
    rw [Block.load_of_le (by omega), bind_some, drop_zero]
    have hdata : (bytes.take arg.length).length = arg.length := by
      rw [length_take, Nat.min_eq_left hread]
    by_cases hwrite : arg.offset + arg.length ≤ memory.length
    swap
    · rw [Block.store_eq_none (by omega)]
      simp only [bind_none, isSome_none, Bool.false_eq_true, false_iff]
      exact fun h => hwrite h.write
    obtain ⟨stored, hstored, hlen⟩ : ∃ stored, Block.store memory arg.offset
        (bytes.take arg.length) = some stored ∧ stored.length = memory.length :=
      Block.store_of_le (by omega)
    rw [hstored, bind_some]
    have hreads : ∃ bytes, rt.outputBytes pm idx = some bytes ∧ arg.length ≤ bytes.length :=
      ⟨bytes, hbytes, hread⟩
    by_cases hgpu : pm.hwPreference = .gpuOnly
    · rw [if_pos hgpu]
      exact ⟨fun _ => ⟨hreads, hwrite, fun hne => absurd hgpu hne⟩, fun _ => rfl⟩
    · rw [if_neg hgpu]
      cases hoperand : pm.layoutOperand idx with
      | none =>
        simp only [bind_none, isSome_none, Bool.false_eq_true, false_iff]
        intro h
        obtain ⟨operand, hsome, -⟩ := h.convert hgpu
        rw [hoperand] at hsome
        contradiction
      | some operand =>
        rw [bind_some]
        dsimp only
        rw [convertDataLayoutFromNCHWToNHWC_isSome_iff (hlen ▸ hwrite), hlen]
        refine ⟨fun h => ⟨hreads, hwrite, fun _ => ⟨operand, hoperand, h⟩⟩, fun h => ?_⟩
        obtain ⟨operand', hsome, hfits⟩ := h.convert hgpu
        rw [hoperand, some.injEq] at hsome
        exact hsome ▸ hfits

instance (size : ℕ) : Decidable (LandingFits rt pm idx arg size) :=
  decidable_of_iff ((landing rt pm idx arg (List.replicate size 0)).isSome = true) (by
    rw [landing_isSome_iff, length_replicate])

/-- Whether it does is a matter of the memory's size. -/
def copyFits (rt : Runtime) (pm : EdenPreparedModel) (m : ExecuteMemory) (ptr : MappedPtr)
    (idx : ℕ) (arg : RequestArgument) : Bool :=
  (m.object ptr).any fun memory => LandingFits rt pm idx arg memory.length

theorem copyOutput_isSome :
    (copyOutput rt pm m ptr idx arg).isSome = copyFits rt pm m ptr idx arg := by
  rw [copyOutput_eq, copyFits]
  cases m.object ptr with
  | none => rfl
  | some memory =>
    rw [bind_some, isSome_map, Bool.eq_iff_iff, landing_isSome_iff, any_some, decide_eq_true_eq]

theorem copyFits_congr (h : m.SameSizes m') :
    copyFits rt pm m' ptr idx arg = copyFits rt pm m ptr idx arg := by
  have hlen := h ptr
  unfold copyFits
  cases hobject : m.object ptr with
  | none =>
    rw [hobject, map_none, map_eq_none_iff] at hlen
    rw [hlen]
  | some memory =>
    rw [hobject, map_some] at hlen
    obtain ⟨memory', hobject', hlen⟩ := map_eq_some_iff.mp hlen
    rw [hobject', any_some, any_some, hlen]

end Landing

/-! ## The loop that maps the pools -/

/-- What mapping a pool for writing does to the loop. -/
def HidlMemory.mapRound (memory : HidlMemory) : Round :=
  if memory.name = "ashmem" then if memory.mapping = .failed then .fault else .go
  else if memory.name = "mmap_fd" then
    if memory.writable = true ∨ memory.mapping = .memory then .go else .fault
  else .stop

/-- A pool whose mapping the client sees: what is written there is written to it. -/
def HidlMemory.Shared (memory : HidlMemory) : Prop :=
  memory.mapping = .memory ∧
    (memory.name = "ashmem" ∨ memory.name = "mmap_fd" ∧ memory.writable = true)

instance (memory : HidlMemory) : Decidable memory.Shared :=
  inferInstanceAs (Decidable (_ ∧ _))

/-- A pool whose mapping gives no address. -/
def HidlMemory.Null (memory : HidlMemory) : Prop :=
  memory.name = "ashmem" ∧ memory.mapping = .null

instance (memory : HidlMemory) : Decidable memory.Null :=
  inferInstanceAs (Decidable (_ ∧ _))

/-- How much room there is behind the address of a pool. -/
def HidlMemory.room (memory : HidlMemory) : Option ℕ :=
  if memory.mapping = .memory then some memory.bytes.length else none

/-- An address leads to a pool exactly if it is that of a shared pool, and has the room of
its own. -/
structure AddressOf (m : ExecuteMemory) (poolIndex : ℕ) (ptr : MappedPtr) : Prop where
  pool : ∀ p, ptr = .pool p ↔ p = poolIndex ∧ ∃ memory, m.pools[p]? = some memory ∧ memory.Shared
  room : ∃ memory, m.pools[poolIndex]? = some memory ∧ (ptr = .null ↔ memory.Null) ∧
    (m.object ptr).map List.length = memory.room

/-- What `loadHidlMem` does, for writing. -/
theorem loadHidlMem_spec {m : ExecuteMemory} {poolIndex : ℕ} {memory : HidlMemory}
    (h : m.pools[poolIndex]? = some memory) :
    match memory.mapRound with
    | .fault => loadHidlMem m poolIndex true = none
    | .stop => ∃ ret ptr, loadHidlMem m poolIndex true = some (ret, ptr, m) ∧ ret ≠ RET_OK
    | .go => ∃ ptr extra,
        loadHidlMem m poolIndex true = some (RET_OK, ptr, ⟨m.pools, m.copies ++ extra⟩) ∧
          ∀ more, AddressOf ⟨m.pools, m.copies ++ extra ++ more⟩ poolIndex ptr := by
  have hself : m = ⟨m.pools, m.copies ++ []⟩ := by rw [append_nil]
  have hpool : memory.Shared →
      ∀ copies, AddressOf ⟨m.pools, copies⟩ poolIndex (.pool poolIndex) := by
    intro hshared copies
    refine ⟨fun p => ⟨fun heq => ?_, fun hp => hp.1 ▸ rfl⟩, memory, h, ?_, ?_⟩
    · rw [MappedPtr.pool.injEq] at heq
      exact ⟨heq.symm, memory, heq ▸ h, hshared⟩
    · refine iff_of_false (by simp) fun hnull => ?_
      rw [HidlMemory.Null, hshared.1] at hnull
      exact absurd hnull.2 (by decide)
    · rw [HidlMemory.room, if_pos hshared.1]
      simp only [ExecuteMemory.object, h, map_some]
  have hother : ∀ {ptr copies}, (∀ p, ptr ≠ .pool p) → ¬ memory.Shared →
      (ptr = .null ↔ memory.Null) →
      ((⟨m.pools, copies⟩ : ExecuteMemory).object ptr).map List.length = memory.room →
      AddressOf ⟨m.pools, copies⟩ poolIndex ptr := by
    intro ptr copies hptr hshared hnull hroom
    refine ⟨fun p => ⟨fun heq => absurd heq (hptr p), ?_⟩, memory, h, hnull, hroom⟩
    rintro ⟨rfl, memory', hmemory', hshared'⟩
    rw [h, some.injEq] at hmemory'
    exact absurd (hmemory' ▸ hshared') hshared
  unfold HidlMemory.mapRound loadHidlMem
  rw [h]
  simp only [bind_some]
  by_cases hashmem : memory.name = "ashmem"
  · rw [if_pos hashmem, if_pos hashmem]
    cases hmapping : memory.mapping with
    | memory => exact ⟨_, [], by rw [← hself], fun _ => hpool ⟨hmapping, Or.inl hashmem⟩ _⟩
    | null =>
      refine ⟨_, [], by rw [← hself], fun _ => hother (by simp) (fun hshared => ?_)
        (iff_of_true rfl ⟨hashmem, hmapping⟩) (by simp [HidlMemory.room, hmapping,
          ExecuteMemory.object])⟩
      have hmemory := hshared.1
      rw [hmapping] at hmemory
      exact absurd hmemory (by decide)
    | failed => rfl
  · rw [if_neg hashmem, if_neg hashmem]
    have hnull : ¬ memory.Null := fun hnull => hashmem hnull.1
    by_cases hmmap : memory.name = "mmap_fd"
    · rw [if_pos hmmap, if_pos hmmap]
      by_cases hwritable : memory.writable = true
      · rw [if_pos (Or.inl hwritable), if_pos (Or.inr hwritable)]
        have hfailed : memory.mapping ≠ .memory → ∃ ptr extra,
            some (RET_OK, MappedPtr.failed, m) =
              some (RET_OK, ptr, ⟨m.pools, m.copies ++ extra⟩) ∧
            ∀ more, AddressOf ⟨m.pools, m.copies ++ extra ++ more⟩ poolIndex ptr :=
          fun hne => ⟨_, [], by rw [← hself], fun _ => hother (by simp)
            (fun hshared => hne hshared.1) (iff_of_false (by simp) hnull)
            (by simp [HidlMemory.room, hne, ExecuteMemory.object])⟩
        cases hmapping : memory.mapping with
        | memory =>
          exact ⟨_, [], by rw [← hself], fun _ => hpool ⟨hmapping, Or.inr ⟨hmmap, hwritable⟩⟩ _⟩
        | null => exact hfailed (by rw [hmapping]; decide)
        | failed => exact hfailed (by rw [hmapping]; decide)
      · have hshared : ¬ memory.Shared := by
          rintro ⟨-, hname | ⟨-, hname⟩⟩
          · exact hashmem hname
          · exact hwritable hname
        rw [if_neg (by simp [hwritable] : ¬ (true = false ∨ memory.writable = true))]
        cases hmapping : memory.mapping with
        | memory =>
          rw [if_pos (Or.inr rfl)]
          refine ⟨_, _, rfl, fun more => hother (by simp) hshared (iff_of_false (by simp) hnull) ?_⟩
          simp [HidlMemory.room, hmapping, ExecuteMemory.object]
        | null =>
          rw [if_neg (by simp [hwritable])]
        | failed =>
          rw [if_neg (by simp [hwritable])]
    · rw [if_neg hmmap, if_neg hmmap]
      exact ⟨_, _, rfl, by decide⟩

/-- What the loop does with an output. -/
def mapRound (pools : List HidlMemory) (arg : RequestArgument) : Round :=
  if arg.hasNoValue then .go
  else
    match pools[arg.poolIndex]? with
    | none => .fault
    | some memory => memory.mapRound

/-- **The addresses are those of the outputs that have a value**, in turn. -/
theorem mapOutputs_spec (args : List RequestArgument) (m : ExecuteMemory)
    (vecMappedPtr : List MappedPtr) :
    match Round.loop (args.map (mapRound m.pools)) with
    | .fault => mapOutputs m vecMappedPtr args = none
    | .stop => ∃ ret vec m', mapOutputs m vecMappedPtr args = some (ret, vec, m') ∧ ret ≠ RET_OK
    | .go => ∃ ptrs extra, mapOutputs m vecMappedPtr args =
          some (RET_OK, vecMappedPtr ++ ptrs, ⟨m.pools, m.copies ++ extra⟩) ∧
        List.Forall₂ (fun arg ptr => AddressOf ⟨m.pools, m.copies ++ extra⟩ arg.poolIndex ptr)
          (args.filter fun arg => !arg.hasNoValue) ptrs := by
  induction args generalizing m vecMappedPtr with
  | nil =>
    refine ⟨[], [], ?_, List.Forall₂.nil⟩
    rw [append_nil, append_nil]
    rfl
  | cons arg args ih =>
    rw [map_cons, mapOutputs]
    by_cases hvalue : arg.hasNoValue = true
    · have hround : mapRound m.pools arg = .go := if_pos hvalue
      rw [hround, Round.loop_go, if_pos hvalue, filter_cons_of_neg (by simp [hvalue])]
      exact ih m vecMappedPtr
    · rw [if_neg hvalue]
      cases hpool : m.pools[arg.poolIndex]? with
      | none =>
        have hround : mapRound m.pools arg = .fault := by rw [mapRound, if_neg hvalue, hpool]
        rw [hround]
        simp only [Round.loop_fault, loadHidlMem, hpool, bind_none]
      | some memory =>
        have hround : mapRound m.pools arg = memory.mapRound := by
          rw [mapRound, if_neg hvalue, hpool]
        have hload := loadHidlMem_spec hpool
        rw [hround]
        cases hmap : memory.mapRound with
        | fault =>
          rw [hmap] at hload
          simp only [Round.loop_fault, hload, bind_none]
        | stop =>
          rw [hmap] at hload
          obtain ⟨ret, ptr, hload, hret⟩ := hload
          simp only [Round.loop_stop, hload, bind_some, if_pos hret]
          exact ⟨ret, vecMappedPtr, m, rfl, hret⟩
        | go =>
          rw [hmap] at hload
          obtain ⟨ptr, extra, hload, haddress⟩ := hload
          rw [Round.loop_go, hload, bind_some, if_neg (by simp),
            filter_cons_of_pos (by simp [hvalue])]
          have hrest := ih ⟨m.pools, m.copies ++ extra⟩ (vecMappedPtr ++ [ptr])
          dsimp only at hrest ⊢
          cases hloop : Round.loop (args.map (mapRound m.pools)) with
          | fault =>
            rw [hloop] at hrest
            exact hrest
          | stop =>
            rw [hloop] at hrest
            exact hrest
          | go =>
            rw [hloop] at hrest
            obtain ⟨ptrs, extra', hrest, hptrs⟩ := hrest
            have hfirst := haddress extra'
            rw [append_assoc] at hfirst hptrs
            refine ⟨ptr :: ptrs, extra ++ extra', ?_, List.Forall₂.cons hfirst hptrs⟩
            rw [hrest, append_assoc, append_assoc]
            rfl

/-! ## The loop that copies -/

/-- What the loop does with an output, if it comes to it. -/
def copyRound (rt : Runtime) (pm : EdenPreparedModel) (vecMappedPtr : List MappedPtr)
    (m : ExecuteMemory) (idx : ℕ) (arg : RequestArgument) : Round :=
  if (rt.getOutputBufferShape idx).1 ≠ RET_OK then .stop
  else if rt.totalSize idx = 0 ∨ arg.hasNoValue = true then .go
  else
    match vecMappedPtr[idx]? with
    | none => .fault
    | some ptr =>
        if ptr = .null then .stop
        else if copyFits rt pm m ptr idx arg then .go else .fault

/-- The outputs that are copied, and to which address. -/
def copiedOutputs (rt : Runtime) (vecMappedPtr : List MappedPtr) (idx : ℕ)
    (args : List RequestArgument) : List (ℕ × MappedPtr) :=
  (args.zipIdx idx).filterMap fun x =>
    if rt.totalSize x.2 = 0 ∨ x.1.hasNoValue = true then none
    else (vecMappedPtr[x.2]?).map fun ptr => (x.2, ptr)

/-- **What the loop does is known before it runs.** -/
theorem copyOutputs_spec (rt : Runtime) (pm : EdenPreparedModel) (vecMappedPtr : List MappedPtr)
    {m : ExecuteMemory} (args : List RequestArgument) {c : Copied} (hsizes : m.SameSizes c.memory)
    (idx : ℕ) :
    match Round.loop ((args.zipIdx idx).map fun x => copyRound rt pm vecMappedPtr m x.2 x.1) with
    | .fault => copyOutputs rt pm vecMappedPtr c idx args = none
    | .stop => ∃ ret c', copyOutputs rt pm vecMappedPtr c idx args = some (ret, c') ∧
        ret ≠ RET_OK
    | .go => ∃ m', copyOutputs rt pm vecMappedPtr c idx args =
          some (RET_OK, ⟨m', c.copies ++ copiedOutputs rt vecMappedPtr idx args⟩) := by
  induction args generalizing c idx with
  | nil => exact ⟨c.memory, by rw [copiedOutputs, zipIdx_nil, filterMap_nil,
      append_nil, copyOutputs]⟩
  | cons arg args ih =>
    rw [zipIdx_cons, map_cons, copyOutputs]
    dsimp only
    by_cases hshape : (rt.getOutputBufferShape idx).1 ≠ RET_OK
    · have hround : copyRound rt pm vecMappedPtr m idx arg = .stop := if_pos hshape
      rw [hround, if_pos hshape]
      exact ⟨_, c, rfl, hshape⟩
    rw [if_neg hshape]
    by_cases hskip : rt.totalSize idx = 0 ∨ arg.hasNoValue = true
    · have hround : copyRound rt pm vecMappedPtr m idx arg = .go := by
        rw [copyRound, if_neg hshape, if_pos hskip]
      have hcopied : copiedOutputs rt vecMappedPtr idx (arg :: args) =
          copiedOutputs rt vecMappedPtr (idx + 1) args := by
        simp only [copiedOutputs, zipIdx_cons, filterMap_cons, if_pos hskip]
      have hbody : (if rt.totalSize idx = 0 then copyOutputs rt pm vecMappedPtr c (idx + 1) args
          else if arg.hasNoValue = true then copyOutputs rt pm vecMappedPtr c (idx + 1) args
          else (vecMappedPtr[idx]?).bind fun mappedPtr =>
            if mappedPtr = .null then some (FAIL_ON_EDEN_EXECUTE_REQ, c)
            else
              (copyOutput rt pm c.memory mappedPtr idx arg).bind fun m =>
                copyOutputs rt pm vecMappedPtr ⟨m, c.copies ++ [(idx, mappedPtr)]⟩ (idx + 1)
                  args) = copyOutputs rt pm vecMappedPtr c (idx + 1) args := by
        by_cases htotal : rt.totalSize idx = 0
        · rw [if_pos htotal]
        · rw [if_neg htotal, if_pos (hskip.resolve_left htotal)]
      rw [hround, Round.loop_go, hcopied, hbody]
      exact ih hsizes (idx + 1)
    · have hround : copyRound rt pm vecMappedPtr m idx arg =
          match vecMappedPtr[idx]? with
          | none => .fault
          | some ptr =>
              if ptr = .null then .stop
              else if copyFits rt pm m ptr idx arg then .go else .fault := by
        rw [copyRound, if_neg hshape, if_neg hskip]
      obtain ⟨htotal, hvalue⟩ := not_or.mp hskip
      rw [if_neg htotal, if_neg hvalue, hround]
      cases hptr : vecMappedPtr[idx]? with
      | none => simp only [Round.loop_fault, bind_none]
      | some ptr =>
        rw [bind_some]
        dsimp only
        by_cases hnull : ptr = .null
        · rw [if_pos hnull, if_pos hnull]
          exact ⟨_, c, rfl, by decide⟩
        rw [if_neg hnull, if_neg hnull, ← copyFits_congr hsizes, ← copyOutput_isSome]
        cases hcopy : copyOutput rt pm c.memory ptr idx arg with
        | none =>
          rw [if_neg (by simp)]
          simp only [Round.loop_fault, bind_none]
        | some m' =>
          have hcopied : copiedOutputs rt vecMappedPtr idx (arg :: args) =
              (idx, ptr) :: copiedOutputs rt vecMappedPtr (idx + 1) args := by
            simp only [copiedOutputs, zipIdx_cons, filterMap_cons, if_neg hskip, hptr, map_some]
          have hrest := ih (c := ⟨m', c.copies ++ [(idx, ptr)]⟩)
            (hsizes.trans (copyOutput_sameSizes hcopy)) (idx + 1)
          rw [if_pos isSome_some, Round.loop_go, bind_some, hcopied]
          dsimp only at hrest
          rw [append_assoc, singleton_append] at hrest
          exact hrest

end ExynosVendor.Eden
