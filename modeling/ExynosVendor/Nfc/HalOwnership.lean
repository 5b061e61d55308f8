import ExynosVendor.Nfc.HalSystem

/-!
# Who owns a message

A buffer of the pool is handed from the thread that gets it to `msg_q`, and
from there to the task, which frees it. `Holds` says that each buffer in use
has one owner, where a thread in the middle of a step may hold some itself;
each operation on the pool and on the queue moves a buffer between the thread
and the others.

The read helpers free a message whose payload they do not get, which the task
frees once more, and the end of the initialisation is put back into the queue
and freed there. A message that is longer than its buffer is written over the
state of it.
-/

namespace ExynosVendor.Nfc

open List

/-- The buffers of an action. -/
def TaskAction.slots : TaskAction → List ℕ
  | .switched _ _ newMsg => [newMsg]
  | _ => []

/-- The message the task works on. -/
def TaskThread.message : TaskThread → Option ℕ
  | .got msg | .read msg | .doing msg _ => some msg
  | .waiting | .ended => none

/-- And all its buffers. -/
def TaskThread.slots : TaskThread → List ℕ
  | .got msg | .read msg => [msg]
  | .doing msg rest => msg :: rest.flatMap TaskAction.slots
  | .waiting | .ended => []

/-- The buffers of the read thread. -/
def ReadThread.slots : ReadThread → List ℕ
  | .holding msg => [msg]
  | _ => []

/-- The buffers of a thread of the stack. -/
def ApiThread.slots : ApiThread → List ℕ
  | .writeFilled msg _ | .writePut msg => msg.toList
  | .put _ msg => [msg]
  | _ => []

/-- The task is not about to put its message back. -/
def TaskThread.keeps : TaskThread → Prop
  | .doing _ rest => TaskAction.requeue ∉ rest
  | _ => True

/-- A header has been read whole. -/
def ReadThread.whole : ReadThread → Prop
  | .header data => data.length = nciHdrSize
  | _ => True

/-- The message ends inside its buffer. -/
def HalMsg.fits (m : HalMsg) : Prop := m.param.length ≤ halMsgRoom

instance (m : HalMsg) : Decidable m.fits := inferInstanceAs (Decidable (_ ≤ _))

/-- So does the message of a thread of the stack, if it gets a buffer. -/
def ApiThread.fits : ApiThread → Prop
  | .write data => data.length + 1 ≤ osiMemPoolSize → HalMsg.fits ⟨.write, data⟩
  | .post event param => param.length + 1 ≤ osiMemPoolSize → HalMsg.fits ⟨event, param⟩
  | _ => True

instance (t : ApiThread) : Decidable t.fits := by
  cases t <;> unfold ApiThread.fits <;> infer_instance

namespace HalSystem

/-- The buffers `msg_q` refers to. -/
def queued (s : HalSystem) : List ℕ := (s.msgQ.contents.filter (· ≠ 0)).map ptrSlot

/-- **Ownership of messages**: what the queue refers to is allocated, once; so
is what the task works on; no buffer is freed twice before it is handed out
again; and none is handed out that the queue or the task still has. -/
structure Owned (s : HalSystem) : Prop where
  allocated : ∀ slot ∈ s.queued, s.mem[slot]? = some osiAllocated
  once : s.queued.Nodup
  processed : ∀ slot, s.task.message = some slot → s.mem[slot]? = some osiAllocated
  frees : ∀ slot, s.frees slot ≤ 1
  given : ∀ slot, s.memGet.1 = some slot → slot ∉ s.queued ∧ s.task.message ≠ some slot

/-- The message whose payload is to be read. -/
def reading (s : HalSystem) : Option (ℕ × PayloadKind) :=
  match s.task with
  | .got slot => (s.info.reads (s.buffer slot).event).map (slot, ·)
  | _ => none

/-- The message that is to be handled. -/
def handling (s : HalSystem) : Option ℕ :=
  match s.task with
  | .read slot => some slot
  | _ => none

/-- **The condition**: a payload is read whole and fits, the end of the
initialisation does not come while the RF registers are set, a message of the
stack fits, and the HAL is opened when no thread of it runs. -/
def Sound (s : HalSystem) : HalStep → Prop
  | .apiOpen _ _ =>
      s.info.state = .postinit ∨ (s.task = .ended ∧ s.reader = .ended ∧ s.api = [])
  | .api n => ∀ t ∈ s.api[n]?, t.fits
  | .taskRead limit => ∀ r ∈ s.reading,
      (s.readData r.2 (s.buffer r.1) limit).2.1 = true ∧
        (withPayload (s.buffer r.1) (s.readData r.2 (s.buffer r.1) limit).1).fits
  | .taskHandle _ => ∀ slot ∈ s.handling, ¬ s.info.requeues (s.buffer slot).event
  | _ => True

instance (s : HalSystem) : (i : HalStep) → Decidable (s.Sound i)
  | .apiOpen _ _ => inferInstanceAs (Decidable (_ ∨ _))
  | .api n => inferInstanceAs (Decidable (∀ t ∈ s.api[n]?, t.fits))
  | .taskRead limit => inferInstanceAs (Decidable (∀ r ∈ s.reading,
      (s.readData r.2 (s.buffer r.1) limit).2.1 = true ∧
        (withPayload (s.buffer r.1) (s.readData r.2 (s.buffer r.1) limit).1).fits))
  | .taskHandle _ =>
      inferInstanceAs (Decidable (∀ slot ∈ s.handling, ¬ s.info.requeues (s.buffer slot).event))
  | .apiWrite _ | .apiCoreInitialized _ | .apiControlGranted | .apiPowerCycle | .apiClose
  | .readHeader _ | .readerGet | .readerPut | .taskTake | .taskAct _ | .controller _ => isTrue trivial

/-! ## One owner -/

/-- How often a buffer is in use. -/
def uses (s : HalSystem) (slot : ℕ) : ℕ :=
  s.queued.count slot + s.task.slots.count slot + s.reader.slots.count slot +
    (s.api.flatMap ApiThread.slots).count slot + s.lastSlot.toList.count slot

/-- Neither thread is about to go wrong. -/
def Ready (s : HalSystem) : Prop := s.task.keeps ∧ s.reader.whole

/-- **Each buffer in use has one owner**, with these in the hands of the thread
that takes the step. -/
structure Holds (held : List ℕ) (s : HalSystem) : Prop where
  queue : s.msgQ.Shaped ∨ (s.msgQ.state ≠ .allocated ∧ s.msgQ.contents = [])
  room : s.mem.length ≤ osiMaxMemPool
  once : ∀ slot, s.uses slot + held.count slot ≤ 1
  live : ∀ slot, 0 < s.uses slot + held.count slot →
    s.mem[slot]? = some osiAllocated ∧ s.frees slot = 0
  frees : ∀ slot, s.frees slot ≤ 1
  ready : s.Ready

variable {s : HalSystem} {held held' : List ℕ} {slot : ℕ}

variable {s' : HalSystem} {t : ApiThread} {size : ℕ}

/-- **The owners change**, and neither the pool nor the queue does. -/
theorem Holds.hand (h : Holds held s) (hmsgQ : s'.msgQ = s.msgQ) (hmem : s'.mem = s.mem)
    (hfrees : s'.frees = s.frees) (hready : s'.Ready)
    (huses : ∀ slot, s'.uses slot + held'.count slot ≤ s.uses slot + held.count slot) :
    Holds held' s' where
  queue := by
    rw [hmsgQ]
    exact h.queue
  room := by
    rw [hmem]
    exact h.room
  once slot := Nat.le_trans (huses slot) (h.once slot)
  live slot hpos := by
    rw [hmem, hfrees]
    exact h.live slot (Nat.lt_of_lt_of_le hpos (huses slot))
  frees slot := by
    rw [hfrees]
    exact h.frees slot
  ready := hready

theorem Holds.allocated (h : Holds (slot :: held) s) : s.mem[slot]? = some osiAllocated :=
  (h.live slot (by rw [count_cons_self]; omega)).1

theorem Holds.lt (h : Holds (slot :: held) s) : slot < osiMaxMemPool := by
  have hget := h.allocated
  have hlt := (List.getElem?_eq_some_iff.mp hget).1
  exact Nat.lt_of_lt_of_le hlt h.room

/-- **A buffer that is handed out** was nobody's. -/
theorem Holds.memGet (h : Holds held s) (hget : s.memGet = (some slot, s')) :
    Holds (slot :: held) s' := by
  unfold HalSystem.memGet at hget
  split at hget
  · exact absurd (congrArg Prod.fst hget) (by simp)
  · rename_i index mem heq
    obtain ⟨hslot, rfl⟩ := Prod.mk.inj hget
    obtain rfl := Option.some.inj hslot
    obtain ⟨hfree, rfl⟩ := OsiMem.get_free heq
    have hlt := (List.getElem?_eq_some_iff.mp hfree).1
    have hunused : s.uses index + held.count index = 0 := by
      refine Nat.eq_zero_of_not_pos fun hpos => ?_
      have hlive := (h.live index hpos).1
      rw [hfree] at hlive
      exact absurd hlive (by decide)
    refine ⟨h.queue, ?_, fun x => ?_, fun x hpos => ?_, fun x => ?_, h.ready⟩
    · show (s.mem.set index osiAllocated).length ≤ _
      rw [length_set]
      exact h.room
    · show s.uses x + (index :: held).count x ≤ 1
      have honce := h.once x
      by_cases hx : x = index
      · obtain rfl := hx
        rw [count_cons_self]
        omega
      · rw [count_cons_of_ne (Ne.symm hx)]
        exact honce
    · have hpos : 0 < s.uses x + (index :: held).count x := hpos
      show (s.mem.set index osiAllocated)[x]? = _ ∧ Function.update s.frees index 0 x = 0
      by_cases hx : x = index
      · obtain rfl := hx
        rw [getElem?_set_self hlt, Function.update_self]
        exact ⟨rfl, rfl⟩
      · rw [count_cons_of_ne (Ne.symm hx)] at hpos
        rw [getElem?_set_ne (Ne.symm hx), Function.update_of_ne hx]
        exact h.live x hpos
    · show Function.update s.frees index 0 x ≤ 1
      by_cases hx : x = index
      · obtain rfl := hx
        rw [Function.update_self]
        exact Nat.zero_le 1
      · rw [Function.update_of_ne hx]
        exact h.frees x

theorem memGet_none (hget : s.memGet = (none, s')) : s' = s := by
  unfold HalSystem.memGet at hget
  split at hget
  · exact (Prod.mk.inj hget).2.symm
  · exact absurd (congrArg Prod.fst hget) (by simp)

/-- **A buffer that is freed** was the thread's. -/
theorem Holds.memFree (h : Holds (slot :: held) s) : Holds held (s.memFree slot) := by
  have hgone : s.uses slot + held.count slot = 0 := by
    have honce := h.once slot
    rw [count_cons_self] at honce
    omega
  have hfrees := (h.live slot (by rw [count_cons_self]; omega)).2
  refine ⟨h.queue, ?_, fun x => ?_, fun x hpos => ?_, fun x => ?_, h.ready⟩
  · show (s.mem.set slot osiFree).length ≤ _
    rw [length_set]
    exact h.room
  · show s.uses x + held.count x ≤ 1
    have honce := h.once x
    rw [count_cons] at honce
    omega
  · have hpos : 0 < s.uses x + held.count x := hpos
    have hx : x ≠ slot := by
      rintro rfl
      omega
    show (s.mem.set slot osiFree)[x]? = _ ∧
      Function.update s.frees slot (s.frees slot + 1) x = 0
    rw [getElem?_set_ne (Ne.symm hx), Function.update_of_ne hx]
    refine h.live x ?_
    rw [count_cons]
    omega
  · show Function.update s.frees slot (s.frees slot + 1) x ≤ 1
    by_cases hx : x = slot
    · obtain rfl := hx
      rw [Function.update_self, hfrees]
    · rw [Function.update_of_ne hx]
      exact h.frees x

/-- **A message that fits** leaves the pool alone. -/
theorem Holds.fill (h : Holds (slot :: held) s) {msg : HalMsg} (hfits : msg.fits) :
    Holds (slot :: held) (s.fill slot msg) := by
  have hmem : (s.fill slot msg).mem = s.mem := if_neg (Nat.not_lt.mpr hfits)
  exact h.hand rfl hmem rfl h.ready fun x => Nat.le_refl _

/-- A pointer to a buffer of the pool. -/
theorem ptrSlot_slotPtr (hslot : slot < osiMaxMemPool) :
    slotPtr slot ≠ 0 ∧ ptrSlot (slotPtr slot) = slot := by
  unfold osiMaxMemPool at hslot
  have hnat : (slotPtr slot).toNat = slot + 1 := by
    unfold slotPtr
    rw [BitVec.toNat_ofNat]
    omega
  refine ⟨fun hzero => ?_, ?_⟩
  · rw [hzero] at hnat
    exact absurd hnat (by simp)
  · unfold ptrSlot
    omega

/-- What a pointer adds to the queue. -/
def ptrSlots (p : Ptr) : List ℕ := if p = 0 then [] else [ptrSlot p]

theorem queued_append (s : HalSystem) {q : OsiQueue} {p : Ptr}
    (hq : q.contents = s.msgQ.contents ++ [p]) :
    ({ s with msgQ := q } : HalSystem).queued = s.queued ++ ptrSlots p := by
  unfold queued ptrSlots
  show (q.contents.filter _).map _ = _
  rw [hq, filter_append, map_append]
  by_cases hp : p = 0
  · rw [if_pos hp, filter_cons_of_neg (by simpa using hp)]
    rfl
  · rw [if_neg hp, filter_cons_of_pos (by simpa using hp)]
    rfl

theorem queued_put_room (h : s.msgQ.Shaped) (p : Ptr)
    (hroom : s.msgQ.contents.length + 1 < osiQueueSize) :
    (s.put p).queued = s.queued ++ ptrSlots p :=
  queued_append s ((h.put p).2.1 hroom)

/-- **What is put** is behind the others, or lost, or lost with them. -/
theorem queued_put
    (h : s.msgQ.Shaped ∨ (s.msgQ.state ≠ .allocated ∧ s.msgQ.contents = [])) (p : Ptr) :
    (s.put p).queued = s.queued ++ ptrSlots p ∨ (s.put p).queued = s.queued ∨
      (s.put p).queued = [] := by
  rcases h with hshaped | ⟨hstate, -⟩
  · by_cases hroom : s.msgQ.contents.length + 1 < osiQueueSize
    · exact .inl (queued_put_room hshaped p hroom)
    · rcases (hshaped.put p).2.2 hroom with hsame | hnil
      · refine .inr (.inl ?_)
        unfold queued HalSystem.put
        rw [hsame]
      · refine .inr (.inr ?_)
        unfold queued HalSystem.put
        rw [hnil]
        rfl
  · have hput : s.msgQ.osiQueuePut p = (s.msgQ, -1) := if_pos hstate
    refine .inr (.inl ?_)
    unfold queued HalSystem.put
    rw [hput]

/-- The thread that puts has no more of it. -/
theorem Holds.put {p : Ptr} (h : Holds (ptrSlots p ++ held) s) : Holds held (s.put p) := by
  have hqueue : (s.put p).msgQ.Shaped ∨
      ((s.put p).msgQ.state ≠ .allocated ∧ (s.put p).msgQ.contents = []) := by
    rcases h.queue with hshaped | ⟨hstate, hcontents⟩
    · exact .inl (hshaped.put p).1
    · have hput : s.msgQ.osiQueuePut p = (s.msgQ, -1) := if_pos hstate
      refine .inr ?_
      unfold HalSystem.put
      rw [hput]
      exact ⟨hstate, hcontents⟩
  have hcount (x : ℕ) :
      (s.put p).queued.count x ≤ s.queued.count x + (ptrSlots p).count x := by
    rcases queued_put h.queue p with hbehind | hsame | hnil
    · rw [hbehind, count_append]
    · rw [hsame]
      omega
    · rw [hnil, count_nil]
      omega
  have huses (x : ℕ) : (s.put p).uses x + held.count x ≤
      s.uses x + (ptrSlots p ++ held).count x := by
    have := hcount x
    rw [count_append]
    show (s.put p).queued.count x + s.task.slots.count x + s.reader.slots.count x +
      (s.api.flatMap ApiThread.slots).count x + s.lastSlot.toList.count x + held.count x ≤ _
    unfold uses
    omega
  refine ⟨hqueue, h.room, fun x => Nat.le_trans (huses x) (h.once x),
    fun x hpos => h.live x (Nat.lt_of_lt_of_le hpos (huses x)), h.frees, h.ready⟩

theorem Holds.putSlot (h : Holds (slot :: held) s) : Holds held (s.put (slotPtr slot)) := by
  obtain ⟨hne, hslot⟩ := ptrSlot_slotPtr h.lt
  refine Holds.put ?_
  unfold ptrSlots
  rw [if_neg hne, hslot]
  exact h

/-! ## The threads -/

theorem Holds.setTask (h : Holds held s) {task : TaskThread} (hkeeps : task.keeps)
    (hslots : ∀ x, task.slots.count x + held'.count x ≤ s.task.slots.count x + held.count x) :
    Holds held' { s with task := task } := by
  refine h.hand rfl rfl rfl ⟨hkeeps, h.ready.2⟩ fun x => ?_
  have := hslots x
  show s.queued.count x + task.slots.count x + s.reader.slots.count x +
    (s.api.flatMap ApiThread.slots).count x + s.lastSlot.toList.count x + held'.count x ≤ _
  unfold uses
  omega

/-- The read thread does. -/
theorem Holds.setReader (h : Holds held s) {reader : ReadThread} (hwhole : reader.whole)
    (hslots : ∀ x, reader.slots.count x + held'.count x ≤
      s.reader.slots.count x + held.count x) :
    Holds held' { s with reader := reader } := by
  refine h.hand rfl rfl rfl ⟨h.ready.1, hwhole⟩ fun x => ?_
  have := hslots x
  show s.queued.count x + s.task.slots.count x + reader.slots.count x +
    (s.api.flatMap ApiThread.slots).count x + s.lastSlot.toList.count x + held'.count x ≤ _
  unfold uses
  omega

theorem Holds.setApi (h : Holds held s) {api : List ApiThread}
    (hslots : ∀ x, (api.flatMap ApiThread.slots).count x + held'.count x ≤
      (s.api.flatMap ApiThread.slots).count x + held.count x) :
    Holds held' { s with api := api } := by
  refine h.hand rfl rfl rfl h.ready fun x => ?_
  have := hslots x
  show s.queued.count x + s.task.slots.count x + s.reader.slots.count x +
    (api.flatMap ApiThread.slots).count x + s.lastSlot.toList.count x + held'.count x ≤ _
  unfold uses
  omega

theorem count_api {api : List ApiThread} {n : ℕ} (hget : api[n]? = some t) (x : ℕ) :
    (api.flatMap ApiThread.slots).count x =
      t.slots.count x + ((api.eraseIdx n).flatMap ApiThread.slots).count x := by
  obtain ⟨hlt, ht⟩ := List.getElem?_eq_some_iff.mp hget
  have hperm := (getElem_cons_eraseIdx_perm hlt).flatMap_right ApiThread.slots
  rw [← hperm.count_eq x, flatMap_cons, count_append, ht]

/-- **A thread of the stack goes on**: its buffers are the step's, and what it
becomes has those of the step. -/
theorem Holds.goesOn (h : Holds held s) {n : ℕ} (hget : s.api[n]? = some t) {rest : List ApiThread}
    (hslots : ∀ x, (rest.flatMap ApiThread.slots).count x + held'.count x ≤
      t.slots.count x + held.count x) :
    Holds held' (s.goesOn n rest) := by
  refine h.setApi fun x => ?_
  have := hslots x
  rw [flatMap_append, count_append, count_api hget x]
  omega

/-! ## The steps -/

/-- **The pool is made anew** when no thread runs. -/
theorem holds_init (s : HalSystem) (ans : HalAnswers) (htask : s.task = .ended)
    (hreader : s.reader = .ended) (hapi : s.api = []) : Holds [] (s.init ans) := by
  unfold init
  generalize hempty : ({ s with
      lastSlot := none
      mem := OsiMem.init
      frees := fun _ => 0
      msgQ := OsiQueue.fresh.initialized "msg_q"
      sending := false
      dataCback := false
      fresh := []
      info := { HalInfo.zero with
        count := s.info.count
        fwUpdateState := s.info.fwUpdateState
        nciLastPkt := some []
        sleepTimeout := ans.sleepTimeout.getD 5000 } } : HalSystem) = t
  have hrep := OsiQueue.represents_initialized OsiQueue.fresh "msg_q"
  have hunused (x : ℕ) : t.uses x = 0 := by
    subst hempty
    unfold uses queued
    dsimp only
    rw [hrep.contents_eq, htask, hreader, hapi]
    rfl
  have ht : Holds [] t := by
    refine ⟨?_, ?_, fun x => ?_, fun x hpos => ?_, fun x => ?_, ?_⟩
    · subst hempty
      exact .inl hrep.shaped
    · subst hempty
      exact Nat.le_of_eq length_replicate
    · rw [hunused x, count_nil]
      exact Nat.zero_le 1
    · rw [hunused x, count_nil] at hpos
      exact absurd hpos (Nat.lt_irrefl 0)
    · subst hempty
      exact Nat.zero_le 1
    · subst hempty
      show s.task.keeps ∧ s.reader.whole
      rw [htask, hreader]
      exact ⟨trivial, trivial⟩
  have hlast : t.lastSlot = none := by
    subst hempty
    rfl
  clear hempty
  dsimp only
  cases hget : t.memGet with
  | mk slot t' =>
    cases slot with
    | none =>
      obtain rfl := memGet_none hget
      refine ht.hand rfl rfl rfl ht.ready fun x => ?_
      show t'.queued.count x + t'.task.slots.count x + t'.reader.slots.count x +
        (t'.api.flatMap ApiThread.slots).count x + 0 + _ ≤ _
      unfold uses
      omega
    | some slot =>
      have ht' := ht.memGet hget
      have hlast' : t'.lastSlot = none := by
        unfold HalSystem.memGet at hget
        split at hget
        · exact absurd (congrArg Prod.fst hget) (by simp)
        · rw [← (Prod.mk.inj hget).2]
          exact hlast
      refine ht'.hand rfl rfl rfl ht'.ready fun x => ?_
      show t'.queued.count x + t'.task.slots.count x + t'.reader.slots.count x +
        (t'.api.flatMap ApiThread.slots).count x + [slot].count x + 0 ≤ _
      unfold uses
      rw [hlast']
      show _ ≤ t'.queued.count x + t'.task.slots.count x + t'.reader.slots.count x +
        (t'.api.flatMap ApiThread.slots).count x + 0 + [slot].count x
      omega

theorem init_threads (s : HalSystem) (ans : HalAnswers) :
    (s.init ans).task = s.task ∧ (s.init ans).reader = s.reader ∧ (s.init ans).api = s.api := by
  unfold init HalSystem.memGet
  dsimp only
  split <;> exact ⟨rfl, rfl, rfl⟩

theorem Holds.apiOpen (h : Holds [] s) {ans : HalAnswers} {dataCback : Bool}
    (hsound : s.Sound (.apiOpen ans dataCback)) : Holds [] (s.apiOpen ans dataCback) := by
  unfold HalSystem.apiOpen
  by_cases hstate : s.info.state = .postinit
  · rw [if_pos hstate]
    exact h
  · rw [if_neg hstate]
    obtain ⟨htask, hreader, hapi⟩ := hsound.resolve_left hstate
    have hinit := holds_init s ans htask hreader hapi
    obtain ⟨htask', hreader', hapi'⟩ := init_threads s ans
    dsimp only
    split
    · have hended : (s.init ans).task = .ended := htask'.trans htask
      have hclosed : (s.init ans).reader = .ended := hreader'.trans hreader
      refine hinit.hand rfl rfl rfl ?_ fun x => ?_
      · show TaskThread.keeps (if (s.init ans).task = .ended then .waiting else _) ∧
          ReadThread.whole (if (s.init ans).reader = .ended then .selecting else _)
        rw [if_pos hended, if_pos hclosed]
        exact ⟨trivial, trivial⟩
      · show (s.init ans).queued.count x +
            (if (s.init ans).task = .ended then TaskThread.waiting
              else (s.init ans).task).slots.count x +
            (if (s.init ans).reader = .ended then ReadThread.selecting
              else (s.init ans).reader).slots.count x +
            (((s.init ans).api ++ [ApiThread.post .open []]).flatMap ApiThread.slots).count x +
            (s.init ans).lastSlot.toList.count x + 0 ≤ _
        rw [if_pos hended, if_pos hclosed, flatMap_append, count_append]
        unfold uses
        rw [hended, hclosed]
        exact Nat.le_refl _
    · exact hinit

theorem Holds.enter (h : Holds [] s) (ht : t.slots = []) :
    Holds [] { s with api := s.api ++ [t] } := by
  refine h.setApi fun x => ?_
  rw [flatMap_append, count_append, flatMap_singleton, ht]
  exact Nat.le_refl _

/-- `OSI_mem_get`, of any size. -/
theorem Holds.memGetFor (h : Holds held s) (hget : s.memGetFor size = (some slot, s')) :
    size + 1 ≤ osiMemPoolSize ∧ Holds (slot :: held) s' := by
  unfold HalSystem.memGetFor at hget
  split at hget
  · exact absurd (congrArg Prod.fst hget) (by simp)
  · exact ⟨by omega, h.memGet hget⟩

theorem memGetFor_none (hget : s.memGetFor size = (none, s')) :
    s' = s := by
  unfold HalSystem.memGetFor at hget
  split at hget
  · exact (Prod.mk.inj hget).2.symm
  · exact memGet_none hget

theorem memGet_api {found : Option ℕ} (hget : s.memGet = (found, s')) :
    s'.api = s.api ∧ s'.task = s.task ∧ s'.reader = s.reader := by
  unfold HalSystem.memGet at hget
  split at hget
  · rw [← (Prod.mk.inj hget).2]
    exact ⟨rfl, rfl, rfl⟩
  · rw [← (Prod.mk.inj hget).2]
    exact ⟨rfl, rfl, rfl⟩

theorem memGetFor_api {found : Option ℕ} (hget : s.memGetFor size = (found, s')) :
    s'.api = s.api := by
  unfold HalSystem.memGetFor at hget
  split at hget
  · rw [← (Prod.mk.inj hget).2]
  · exact (memGet_api hget).1

theorem flatMap_behindPost (event : HalEvent) :
    (behindPost event).flatMap ApiThread.slots = [] := by
  unfold behindPost
  split <;> rfl

/-- **A thread of the stack goes on.** -/
theorem Holds.apiStep (h : Holds [] s) {n : ℕ} (hget : s.api[n]? = some t) (hfits : t.fits) :
    Holds [] (s.apiStep n t) := by
  cases t with
  | write data =>
    rw [HalSystem.apiStep_write]
    split
    · rename_i s' heq
      obtain rfl := memGetFor_none heq
      exact h.goesOn hget fun x => Nat.le_refl _
    · rename_i slot s' heq
      obtain ⟨hsize, hheld⟩ := h.memGetFor heq
      have hget' : (s'.fill slot ⟨.write, data⟩).api[n]? = some (.write data) := by
        show s'.api[n]? = _
        rw [memGetFor_api heq]
        exact hget
      exact (hheld.fill (hfits hsize)).goesOn hget' fun x => by
        simp [ApiThread.slots]
  | writeFilled msg command =>
    have hgone : Holds [] (s.goesOn n [.writePut msg]) := h.goesOn hget fun x => by
      simp [ApiThread.slots]
    exact hgone.hand rfl rfl rfl h.ready fun x => Nat.le_refl _
  | writePut msg =>
    have htaken : Holds (ptrSlots (msg.elim 0 slotPtr) ++ []) (s.goesOn n []) := by
      refine h.goesOn hget fun x => ?_
      cases msg with
      | none => exact Nat.le_refl _
      | some slot =>
        have hheld : Holds [slot] (s.goesOn n []) := h.goesOn hget fun x => by
          simp [ApiThread.slots]
        obtain ⟨hne, hslot⟩ := ptrSlot_slotPtr hheld.lt
        show _ + (ptrSlots (slotPtr slot) ++ []).count x ≤ _
        unfold ptrSlots
        rw [if_neg hne, hslot]
        simp [ApiThread.slots]
    exact htaken.put.hand rfl rfl rfl h.ready fun x => Nat.le_refl _
  | post event param =>
    rw [HalSystem.apiStep_post]
    split
    · rename_i s' heq
      obtain rfl := memGetFor_none heq
      refine h.goesOn hget fun x => ?_
      rw [flatMap_behindPost]
      exact Nat.le_refl _
    · rename_i slot s' heq
      obtain ⟨hsize, hheld⟩ := h.memGetFor heq
      have hget' : (s'.fill slot ⟨event, param⟩).api[n]? = some (.post event param) := by
        show s'.api[n]? = _
        rw [memGetFor_api heq]
        exact hget
      exact (hheld.fill (hfits hsize)).goesOn hget' fun x => by
        simp [ApiThread.slots]
  | put event msg =>
    have hheld : Holds [msg] (s.goesOn n (behindPost event)) := by
      refine h.goesOn hget fun x => ?_
      rw [flatMap_behindPost]
      simp [ApiThread.slots]
    exact hheld.putSlot
  | closing =>
    show Holds [] (if _ then _ else s)
    split
    · rename_i hended
      have hheld : Holds [] (s.goesOn n []) := h.goesOn hget fun x => Nat.le_refl _
      have hclosed : Holds [] { s.goesOn n [] with reader := .ended } :=
        hheld.setReader trivial fun x => Nat.zero_le _
      exact hclosed.hand rfl rfl rfl hclosed.ready fun x => Nat.le_refl _
    · exact h

/-- **The read thread.** -/
theorem Holds.readHeader (h : Holds [] s) (limit : ℕ) : Holds [] (s.readHeader limit) := by
  unfold HalSystem.readHeader
  split
  · dsimp only
    split
    · rename_i hwhole
      have hread : Holds [] { s with reader := .header (s.deviceRead nciHdrSize limit).1 } :=
        h.setReader hwhole fun x => Nat.zero_le _
      exact hread.hand rfl rfl rfl hread.ready fun x => Nat.le_refl _
    · exact h.hand rfl rfl rfl h.ready fun x => Nat.le_refl _
  · exact h

theorem Holds.readerGet (h : Holds [] s) : Holds [] s.readerGet := by
  unfold HalSystem.readerGet
  split
  · rename_i data hreader
    split
    · rename_i s' heq
      obtain rfl := memGet_none heq
      exact h.setReader trivial fun x => Nat.zero_le _
    · rename_i slot s' heq
      have hheader : data.length = nciHdrSize := by
        have hwhole := h.ready.2
        rw [hreader] at hwhole
        exact hwhole
      have hfits : HalMsg.fits ⟨.read, data⟩ := by
        show data.length ≤ halMsgRoom
        rw [hheader]
        decide
      have hheld := (h.memGet heq).fill hfits
      have hgiven : Holds [] { s'.fill slot ⟨.read, data⟩ with reader := .holding slot } :=
        hheld.setReader trivial fun x => by simp [ReadThread.slots]
      exact hgiven.hand rfl rfl rfl hgiven.ready fun x => Nat.le_refl _
  · exact h

theorem Holds.readerPut (h : Holds [] s) : Holds [] s.readerPut := by
  unfold HalSystem.readerPut
  split
  · rename_i slot hreader
    have hheld : Holds [slot] { s with reader := .selecting } := by
      refine h.setReader trivial fun x => ?_
      rw [hreader]
      simp [ReadThread.slots]
    exact hheld.putSlot
  · exact h

/-- **What the queue gives** is its first. -/
theorem queued_get
    (h : s.msgQ.Shaped ∨ (s.msgQ.state ≠ .allocated ∧ s.msgQ.contents = [])) :
    s.queued = ptrSlots s.msgQ.queueGet.2 ++
      ({ s with msgQ := s.msgQ.queueGet.1 } : HalSystem).queued := by
  rcases h with hshaped | ⟨hstate, -⟩
  · obtain ⟨-, hrest, hfirst⟩ := hshaped.get
    unfold queued ptrSlots
    show _ = _ ++ (s.msgQ.queueGet.1.contents.filter _).map _
    rw [hrest, hfirst]
    cases s.msgQ.contents with
    | nil => rfl
    | cons p rest =>
      by_cases hp : p = 0
      · rw [filter_cons_of_neg (by simpa using hp)]
        show _ = (if p = 0 then [] else _) ++ _
        rw [if_pos hp]
        rfl
      · rw [filter_cons_of_pos (by simpa using hp)]
        show _ = (if p = 0 then [] else _) ++ _
        rw [if_neg hp]
        rfl
  · have hget : s.msgQ.queueGet = (s.msgQ, 0) := if_pos hstate
    rw [hget]
    rfl

/-- And it is the thread's. -/
theorem Holds.take (h : Holds [] s) :
    Holds (ptrSlots s.msgQ.queueGet.2) { s with msgQ := s.msgQ.queueGet.1 } := by
  have hqueue : s.msgQ.queueGet.1.Shaped ∨
      (s.msgQ.queueGet.1.state ≠ .allocated ∧ s.msgQ.queueGet.1.contents = []) := by
    rcases h.queue with hshaped | ⟨hstate, hcontents⟩
    · exact .inl hshaped.get.1
    · have hget : s.msgQ.queueGet = (s.msgQ, 0) := if_pos hstate
      rw [hget]
      exact .inr ⟨hstate, hcontents⟩
  have huses (x : ℕ) : ({ s with msgQ := s.msgQ.queueGet.1 } : HalSystem).uses x +
      (ptrSlots s.msgQ.queueGet.2).count x = s.uses x := by
    show List.count x _ + s.task.slots.count x + s.reader.slots.count x +
      (s.api.flatMap ApiThread.slots).count x + s.lastSlot.toList.count x + _ = _
    unfold uses
    rw [queued_get h.queue, count_append]
    omega
  refine ⟨hqueue, h.room, fun x => ?_, fun x hpos => ?_, h.frees, h.ready⟩
  · rw [huses x]
    exact h.once x
  · rw [huses x] at hpos
    exact h.live x hpos

/-- The task is idle or at an end, with its buffers in the hands of the step. -/
theorem Holds.taskTake (h : Holds [] s) : Holds [] s.taskTake := by
  unfold HalSystem.taskTake
  split
  · rename_i hwaiting
    have htaken := h.take
    dsimp only
    by_cases hp : s.msgQ.queueGet.2 = 0
    · rw [if_pos hp]
      unfold ptrSlots at htaken
      rw [if_pos hp] at htaken
      exact htaken
    · rw [if_neg hp]
      unfold ptrSlots at htaken
      rw [if_neg hp] at htaken
      split
      · exact htaken.setTask trivial fun x => Nat.zero_le _
      · exact htaken.setTask trivial fun x => by simp [TaskThread.slots]
  · exact h

theorem readData_stream (s : HalSystem) (kind : PayloadKind) (msg : HalMsg) (limit : ℕ) :
    ∃ stream, (s.readData kind msg limit).2.2 = { s with stream := stream } := by
  cases kind with
  | nci => exact ⟨_, rfl⟩
  | fw =>
    unfold readData
    dsimp only
    split
    · exact ⟨_, rfl⟩
    · exact ⟨_, rfl⟩

/-- **A payload that is read whole** leaves the message with the task. -/
theorem Holds.taskRead (h : Holds [] s) {limit : ℕ} (hsound : s.Sound (.taskRead limit)) :
    Holds [] (s.taskRead limit) := by
  unfold HalSystem.taskRead
  split
  · rename_i slot htask
    have hread : Holds [slot] { s with task := .waiting } := by
      refine h.setTask trivial fun x => ?_
      rw [htask]
      simp [TaskThread.slots]
    dsimp only
    split
    · exact h.setTask trivial fun x => by
        rw [htask]
        exact Nat.le_refl _
    · rename_i kind hreads
      have hreading : s.reading = some (slot, kind) := by
        unfold reading
        rw [htask]
        show (s.info.reads _).map _ = _
        rw [hreads]
        rfl
      obtain ⟨hwhole, hfits⟩ := hsound (slot, kind) hreading
      obtain ⟨stream, hstream⟩ := readData_stream s kind (s.buffer slot) limit
      rw [if_pos hwhole, hstream]
      have hfilled := hread.fill hfits
      have hgiven : Holds [] { ({ s with task := .waiting } : HalSystem).fill slot
          (withPayload (s.buffer slot) (s.readData kind (s.buffer slot) limit).1) with
            task := .read slot } :=
        hfilled.setTask trivial fun x => by simp [TaskThread.slots]
      exact hgiven.hand rfl rfl rfl hgiven.ready fun x => Nat.le_refl _
  · exact h

theorem flatMap_effects (out : List HalEffect) :
    (out.map TaskAction.effect).flatMap TaskAction.slots = [] := by
  rw [flatMap_eq_nil_iff]
  intro a ha
  obtain ⟨e, -, rfl⟩ := mem_map.mp ha
  rfl

/-- **The state machine computes.** -/
theorem Holds.taskHandle (h : Holds [] s) {ans : HalAnswers}
    (hsound : s.Sound (.taskHandle ans)) : Holds [] (s.taskHandle ans) := by
  unfold HalSystem.taskHandle
  split
  · rename_i slot htask
    have hhandling : s.handling = some slot := by
      unfold handling
      rw [htask]
    have hback := hsound slot hhandling
    dsimp only
    rw [if_neg hback, append_nil]
    have hkeeps : TaskThread.keeps
        (.doing slot ((s.info.handle ans (s.buffer slot)).2.map .effect)) := by
      intro hmem
      obtain ⟨e, -, he⟩ := mem_map.mp hmem
      exact absurd he (by simp)
    have hdone : Holds [] { s with
        task := .doing slot ((s.info.handle ans (s.buffer slot)).2.map .effect) } := by
      refine h.setTask hkeeps fun x => ?_
      show (slot :: List.flatMap _ _).count x + 0 ≤ _
      rw [flatMap_effects, htask]
      exact Nat.le_refl _
    exact hdone.hand rfl rfl rfl hdone.ready fun x => Nat.le_refl _
  · exact h

/-- An effect that is none of the queue or the pool is behind the task. -/
theorem Holds.pass (h : Holds [] s) {slot : ℕ} {a : TaskAction} {rest : List TaskAction}
    (htask : s.task = .doing slot (a :: rest)) :
    Holds a.slots { s with task := .doing slot rest } := by
  have hkeeps : TaskThread.keeps (.doing slot rest) := by
    have hready := h.ready.1
    rw [htask] at hready
    exact fun hmem => hready (mem_cons_of_mem a hmem)
  refine h.setTask hkeeps fun x => ?_
  rw [htask]
  show (slot :: rest.flatMap TaskAction.slots).count x + a.slots.count x ≤
    (slot :: (a.slots ++ rest.flatMap TaskAction.slots)).count x + 0
  rw [count_cons, count_cons, count_append]
  omega

/-- **The task does what comes next.** -/
theorem Holds.taskAct (h : Holds [] s) (whole : Bool) : Holds [] (s.taskAct whole) := by
  unfold HalSystem.taskAct
  split
  · rename_i slot e rest htask
    have hpass : Holds [] { s with task := .doing slot rest } := h.pass htask
    cases e with
    | stateSwitch event state =>
      rw [HalSystem.perform_stateSwitch]
      split
      · rename_i s' heq
        obtain rfl := memGet_none heq
        exact hpass
      · rename_i newMsg s' heq
        have hheld := h.memGet heq
        obtain ⟨-, htask', -⟩ := memGet_api heq
        have hkeeps := hpass.ready.1
        refine hheld.setTask ?_ fun x => ?_
        · intro hmem
          rcases mem_cons.mp hmem with hhead | hrest
          · exact absurd hhead (by simp)
          · exact hkeeps hrest
        · rw [htask', htask]
          show (slot :: newMsg :: rest.flatMap TaskAction.slots).count x + 0 ≤
            (slot :: rest.flatMap TaskAction.slots).count x + [newMsg].count x
          rw [count_cons, count_cons, count_cons, count_cons, count_nil]
          omega
    | deviceClose =>
      show Holds [] (if _ then _ else s)
      split
      · have hclosed : Holds [] { s with reader := .ended, task := .doing slot rest } :=
          hpass.setReader trivial fun x => Nat.zero_le _
        exact hclosed
      · exact h
    | deviceOpen =>
      have hopened : Holds [] { s with
          reader := if s.reader = .ended then .selecting else s.reader
          task := .doing slot rest } := by
        by_cases hended : s.reader = .ended
        · rw [if_pos hended]
          exact hpass.setReader trivial fun x => Nat.zero_le _
        · rw [if_neg hended]
          exact hpass
      exact hopened
    | fault => exact hpass.setTask trivial fun x => Nat.zero_le _
    | write data =>
      unfold perform deviceWrite
      dsimp only
      split
      · exact hpass.hand rfl rfl rfl hpass.ready fun x => Nat.le_refl _
      · exact hpass
    | data data =>
      unfold perform dataCallback
      dsimp only
      split
      · exact hpass.hand rfl rfl rfl hpass.ready fun x => Nat.le_refl _
      · exact hpass
    | setMode mode => exact hpass
    | frame pkt => exact hpass
    | timerStart timer timeout callback => exact hpass
    | timerStop timer => exact hpass
    | stack event status => exact hpass
  · rename_i slot event state newMsg rest htask
    have hheld : Holds [newMsg] { s with task := .doing slot rest } := h.pass htask
    have hfits : HalMsg.fits { (s.buffer slot).copied with event := event } :=
      (by decide : 2 ≤ halMsgRoom)
    have hput := (hheld.fill hfits).putSlot
    exact hput.hand rfl rfl rfl hput.ready fun x => Nat.le_refl _
  · rename_i slot rest htask
    have hkeeps := h.ready.1
    rw [htask] at hkeeps
    exact absurd mem_cons_self hkeeps
  · rename_i slot htask
    have hheld : Holds [slot] { s with task := .waiting } := by
      refine h.setTask trivial fun x => ?_
      rw [htask]
      simp [TaskThread.slots]
    exact hheld.memFree
  · exact h

/-- **Every step.** -/
theorem Holds.step (h : Holds [] s) (i : HalStep) (hsound : s.Sound i) :
    Holds [] (HalSystem.step s i) := by
  cases i with
  | apiOpen ans dataCback => exact h.apiOpen hsound
  | apiWrite data =>
    show Holds [] (if _ then s else _)
    split
    · exact h
    · exact h.enter rfl
  | apiCoreInitialized params =>
    show Holds [] (if _ then _ else s)
    split
    · exact h.enter rfl
    · exact h
  | apiControlGranted => exact h.enter rfl
  | apiPowerCycle =>
    show Holds [] (if _ then s else _)
    split
    · exact h
    · exact h.enter rfl
  | apiClose =>
    show Holds [] (if _ then s else _)
    split
    · exact h
    · exact h.enter rfl
  | api n =>
    show Holds [] ((s.api[n]?).elim s (s.apiStep n))
    cases hget : s.api[n]? with
    | none => exact h
    | some t => exact h.apiStep hget (hsound t hget)
  | readHeader limit => exact h.readHeader limit
  | readerGet => exact h.readerGet
  | readerPut => exact h.readerPut
  | taskTake => exact h.taskTake
  | taskRead limit => exact h.taskRead hsound
  | taskHandle ans => exact h.taskHandle hsound
  | taskAct whole => exact h.taskAct whole
  | controller p => exact h.hand rfl rfl rfl h.ready fun x => Nat.le_refl _

theorem holds_initial : Holds [] initial where
  queue := .inr ⟨by decide, rfl⟩
  room := Nat.zero_le _
  once slot := Nat.zero_le 1
  live slot hpos := absurd hpos (Nat.lt_irrefl 0)
  frees slot := Nat.zero_le 1
  ready := ⟨trivial, trivial⟩

theorem TaskThread.mem_slots {t : TaskThread} (h : t.message = some slot) : slot ∈ t.slots := by
  cases t with
  | waiting => exact absurd h (by simp [TaskThread.message])
  | ended => exact absurd h (by simp [TaskThread.message])
  | got msg =>
    obtain rfl := Option.some.inj h
    exact mem_cons_self
  | read msg =>
    obtain rfl := Option.some.inj h
    exact mem_cons_self
  | doing msg rest =>
    obtain rfl := Option.some.inj h
    exact mem_cons_self

/-- **One owner each** is what ownership is. -/
theorem Holds.owned (h : Holds [] s) : Owned s := by
  have hqueued (slot : ℕ) (hmem : slot ∈ s.queued) : 0 < s.uses slot + 0 := by
    have hpos := count_pos_iff.mpr hmem
    unfold uses
    omega
  have htask (slot : ℕ) (hmsg : s.task.message = some slot) : 0 < s.uses slot + 0 := by
    have hpos := count_pos_iff.mpr (TaskThread.mem_slots hmsg)
    unfold uses
    omega
  refine ⟨fun slot hmem => (h.live slot (hqueued slot hmem)).1, ?_,
    fun slot hmsg => (h.live slot (htask slot hmsg)).1, h.frees, fun slot hget => ?_⟩
  · rw [nodup_iff_count]
    intro slot
    have honce := h.once slot
    unfold uses at honce
    omega
  · have hfree : s.mem[slot]? = some osiFree := by
      unfold HalSystem.memGet at hget
      split at hget
      · exact absurd hget (by simp)
      · rename_i index mem heq
        obtain rfl := Option.some.inj hget
        exact (OsiMem.get_free heq).1
    constructor
    · intro hmem
      have hlive := (h.live slot (hqueued slot hmem)).1
      rw [hfree] at hlive
      exact absurd hlive (by decide)
    · intro hmsg
      have hlive := (h.live slot (htask slot hmsg)).1
      rw [hfree] at hlive
      exact absurd hlive (by decide)

/-- **Messages have one owner** in every state of every run in which each
payload is read whole and fits its buffer, the end of the initialisation does
not come while the RF registers are set, the messages of the stack fit theirs,
and the HAL is opened when no thread of it runs. -/
theorem messages_owned (steps : List HalStep) (h : Run.Throughout step Sound initial steps) :
    Run.Always step Owned initial steps :=
  (Run.Always.of_invariant (fun _ i hs hc => hs.step i hc) holds_initial h).mono
    fun _ hs => hs.owned

/-- The HAL is opened, and asks the bootloader for its information. -/
def opening : List HalStep :=
  [.apiOpen .plain true, .api 0, .api 0, .taskTake, .taskRead 0, .taskHandle .plain] ++
    List.replicate 4 (.taskAct true)

/-- The bootloader refuses. -/
def refusal : CtrlPacket where
  kind := .fw
  oct0 := 0
  oid := 1
  len := 0
  payload := [0]
  size := rfl

/-- Its response, up to the queue. -/
def responding : List HalStep := [.controller refusal, .readHeader 3, .readerGet, .readerPut]

/-- As when the HAL is opened, and the response read whole. -/
theorem messages_owned_opening :
    Run.Always step Owned initial (opening ++ responding ++ [.taskTake, .taskRead 2]) :=
  messages_owned (opening ++ responding ++ [.taskTake, .taskRead 2]) (by decide +kernel)

/-- **A payload that does not come is freed under the task**, which goes on
with the message and frees it again. -/
theorem not_messages_owned :
    ¬ ∀ steps : List HalStep, Run.Always step Owned initial steps := by
  intro h
  have hlast := (h (opening ++ responding ++ [.taskTake, .taskRead 0])).last
  have hfreed := hlast.processed 8 (by decide +kernel)
  exact absurd hfreed (by decide +kernel)

end HalSystem

end ExynosVendor.Nfc
