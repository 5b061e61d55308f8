import ExynosVendor.Nfc.HalOwnership

/-!
# The framing of the packets

The header of a packet is read by the read thread and its payload by the task,
with the queue in between, and the stream has no marks. `Framed` says that what
both have read is the packets the controller sent. `Tracks` divides these into
the packets that were handled, those on their way, whose headers are in the
messages of `fresh`, and those still in the stream.

The read thread does not wait for the task, so that a second header may be read
from the payload of the first packet. Nor does the task know whether a message
came from the read thread: one it has posted to itself is read as another
packet.
-/

namespace ExynosVendor.Nfc

open List

/-- What the task has taken and not read yet. -/
def TaskThread.taken : TaskThread → List ℕ
  | .got msg => [msg]
  | _ => []

/-- The header the read thread has in hand. -/
def ReadThread.inHand : ReadThread → List (List (BitVec 8))
  | .header data => [data]
  | _ => []

/-- The packet a state is for: a frame of the bootloader, or one of NCI. -/
def HalInfo.expects (h : HalInfo) : Option PayloadKind :=
  match h.state with
  | .open => some .fw
  | .fw => if h.fw.state.w4FwRsp then some .fw else if h.fw.state.w4NciRsp then some .nci else none
  | .vs | .postinit | .service | .granted => some .nci
  | .init | .deinit | .close | .powercycle => none

/-- A thread of the stack is about to put a message. -/
def ApiThread.puts : ApiThread → Prop
  | .writePut _ | .put _ _ => True
  | _ => False

instance : (t : ApiThread) → Decidable t.puts
  | .writePut _ | .put _ _ => isTrue trivial
  | .write _ | .writeFilled _ _ | .post _ _ | .closing => isFalse fun h => h

/-- So is the task. -/
def TaskThread.puts : TaskThread → Prop
  | .doing _ (.switched _ _ _ :: _) | .doing _ (.requeue :: _) => True
  | _ => False

instance : (t : TaskThread) → Decidable t.puts
  | .doing _ (.switched _ _ _ :: _) | .doing _ (.requeue :: _) => isTrue trivial
  | .doing _ (.effect _ :: _) | .doing _ [] | .waiting | .got _ | .read _ | .ended =>
      isFalse fun h => h

namespace HalSystem

/-- The messages on their way to a state machine, the first in front. -/
def arriving (s : HalSystem) : List ℕ := s.task.taken ++ s.queued ++ s.reader.slots

/-- The packets of which the header has been read, and the payload not. -/
def underway (s : HalSystem) : List CtrlPacket :=
  (s.sent.drop s.delivered.length).take (s.headers.length - s.delivered.length)

/-- **Framing**: the headers that were read are those of the packets sent, and
what was handled is the packets themselves, one after the other; each packet in
between is on its way to a state machine, and its payload in front of the
packets to come. -/
structure Framed (s : HalSystem) : Prop where
  headers : s.headers <+: s.sent.map CtrlPacket.header
  delivered : s.delivered <+: s.sent.map CtrlPacket.bytes
  underway : s.headers.length = s.delivered.length + s.fresh.length + s.reader.inHand.length
  arriving : ∀ slot ∈ s.fresh, slot ∈ s.arriving
  stream : s.stream = s.underway.flatMap CtrlPacket.payload ++
    (s.sent.drop s.headers.length).flatMap CtrlPacket.bytes

/-- The controller sends what the state is for. -/
def Meant (s : HalSystem) : HalStep → Prop
  | .controller p => s.info.expects = some p.kind
  | _ => True

instance (s : HalSystem) : (i : HalStep) → Decidable (s.Meant i)
  | .controller p => inferInstanceAs (Decidable (s.info.expects = some p.kind))
  | .apiOpen _ _ | .apiWrite _ | .apiCoreInitialized _ | .apiControlGranted | .apiPowerCycle
  | .apiClose | .api _ | .readHeader _ | .readerGet | .readerPut | .taskTake | .taskRead _
  | .taskHandle _ | .taskAct _ => isTrue trivial

/-- The queue takes another message. -/
def Roomy (s : HalSystem) : Prop :=
  s.msgQ.state = .allocated ∧ s.msgQ.contents.length + 1 < osiQueueSize

instance (s : HalSystem) : Decidable s.Roomy := inferInstanceAs (Decidable (_ ∧ _))

/-- No packet is in the queue. -/
def Clear (s : HalSystem) : Prop := ∀ slot ∈ s.fresh, slot ∉ s.queued

instance (s : HalSystem) : Decidable s.Clear :=
  inferInstanceAs (Decidable (∀ slot ∈ s.fresh, slot ∉ s.queued))

/-- What the state machine reads for the message it is given: the payload of
the packet the message is for, and nothing for another. -/
def ReadsOwn (s : HalSystem) (slot : ℕ) : Prop :=
  s.info.reads (s.buffer slot).event =
    if slot ∈ s.fresh then s.underway.head?.map CtrlPacket.kind else none

instance (s : HalSystem) (slot : ℕ) : Decidable (s.ReadsOwn slot) :=
  inferInstanceAs (Decidable (_ = _))

/-- **The condition**: a header is read whole, and not in front of a payload;
there is a buffer and room for its message; no message of another is put on a
full queue with a packet in it; the state machine reads what is its own. -/
def Aligned (s : HalSystem) : HalStep → Prop
  | .apiOpen ans _ => s.info.state = .postinit ∨ ans.opens = true ∨ s.fresh = []
  | .api n => ∀ t ∈ s.api[n]?, t.puts → s.Roomy ∨ s.Clear
  | .readHeader limit => s.reader = .selecting →
      (s.deviceRead nciHdrSize limit).1 = [] ∨
        ((s.deviceRead nciHdrSize limit).1.length = nciHdrSize ∧
          s.underway.flatMap CtrlPacket.payload = [])
  | .readerGet => s.reader.inHand ≠ [] → s.memGet.1 ≠ none
  | .readerPut => s.reader.slots ≠ [] → s.Roomy
  | .taskRead _ => ∀ slot ∈ s.task.taken, s.ReadsOwn slot
  | .taskAct _ => s.task.puts → s.Roomy ∨ s.Clear
  | _ => True

instance (s : HalSystem) : (i : HalStep) → Decidable (s.Aligned i)
  | .apiOpen ans _ =>
      inferInstanceAs (Decidable (s.info.state = .postinit ∨ ans.opens = true ∨ s.fresh = []))
  | .api n => inferInstanceAs (Decidable (∀ t ∈ s.api[n]?, t.puts → s.Roomy ∨ s.Clear))
  | .readHeader limit => inferInstanceAs (Decidable (s.reader = .selecting →
      (s.deviceRead nciHdrSize limit).1 = [] ∨
        ((s.deviceRead nciHdrSize limit).1.length = nciHdrSize ∧
          s.underway.flatMap CtrlPacket.payload = [])))
  | .readerGet => inferInstanceAs (Decidable (s.reader.inHand ≠ [] → s.memGet.1 ≠ none))
  | .readerPut => inferInstanceAs (Decidable (s.reader.slots ≠ [] → s.Roomy))
  | .taskRead _ => inferInstanceAs (Decidable (∀ slot ∈ s.task.taken, s.ReadsOwn slot))
  | .taskAct _ => inferInstanceAs (Decidable (s.task.puts → s.Roomy ∨ s.Clear))
  | .apiWrite _ | .apiCoreInitialized _ | .apiControlGranted | .apiPowerCycle | .apiClose
  | .taskTake | .taskHandle _ | .controller _ => isTrue trivial

/-! ## The packets -/

/-- The message the read thread makes of a header. -/
def readMsg (header : List (BitVec 8)) : HalMsg := ⟨.read, header⟩

/-- The packets that were handled, those on their way, and those to come. -/
structure Split (s : HalSystem) (done way coming : List CtrlPacket) : Prop where
  sent : s.sent = done ++ way ++ coming
  delivered : s.delivered = done.map CtrlPacket.bytes
  headers : s.headers = (done ++ way).map CtrlPacket.header
  stream : s.stream = way.flatMap CtrlPacket.payload ++ coming.flatMap CtrlPacket.bytes
  messages : way.map (fun p => readMsg p.header) =
    s.fresh.map s.buffer ++ s.reader.inHand.map readMsg

/-- **What the threads know of the packets.** -/
structure Tracks (s : HalSystem) : Prop where
  order : s.arriving.filter (· ∈ s.fresh) = s.fresh
  split : ∃ done way coming, s.Split done way coming

variable {s : HalSystem} {held : List ℕ} {slot : ℕ} {done way coming : List CtrlPacket}

theorem Split.underway_eq (h : s.Split done way coming) : s.underway = way := by
  have hdone : s.delivered.length = done.length := by rw [h.delivered, length_map]
  have hway : s.headers.length - done.length = way.length := by
    rw [h.headers, length_map, length_append]
    omega
  unfold underway
  rw [hdone, hway, h.sent, append_assoc, drop_left, take_left]

theorem Split.length_way (h : s.Split done way coming) :
    way.length = s.fresh.length + s.reader.inHand.length := by
  have hlen := congrArg List.length h.messages
  rw [length_map, length_append, length_map, length_map] at hlen
  exact hlen

/-- **What the threads know** is that the packets are framed. -/
theorem Tracks.framed (h : Tracks s) : Framed s := by
  obtain ⟨done, way, coming, hsplit⟩ := h.split
  have hlen := hsplit.length_way
  refine ⟨?_, ?_, ?_, fun slot hmem => ?_, ?_⟩
  · rw [hsplit.headers, hsplit.sent]
    exact (prefix_append _ _).map _
  · rw [hsplit.delivered, hsplit.sent, append_assoc]
    exact (prefix_append _ _).map _
  · rw [hsplit.headers, hsplit.delivered, length_map, length_map, length_append]
    omega
  · rw [← h.order] at hmem
    exact (mem_filter.mp hmem).1
  · have hheaders : s.headers.length = (done ++ way).length := by
      rw [hsplit.headers, length_map]
    rw [hsplit.underway_eq, hheaders, hsplit.sent, drop_left]
    exact hsplit.stream

theorem Tracks.not_fresh (h : Tracks s) (hslot : slot ∉ s.arriving) : slot ∉ s.fresh := by
  intro hmem
  rw [← h.order] at hmem
  exact hslot (mem_filter.mp hmem).1

variable {s' : HalSystem} {limit : ℕ}

/-- **What is left alone**: the history, the stream, the messages of the
packets and their order. -/
theorem Tracks.frame (h : Tracks s) (hsent : s'.sent = s.sent)
    (hdelivered : s'.delivered = s.delivered) (hheaders : s'.headers = s.headers)
    (hstream : s'.stream = s.stream) (hfresh : s'.fresh = s.fresh)
    (hhand : s'.reader.inHand = s.reader.inHand)
    (hbuffer : ∀ slot ∈ s.fresh, s'.buffer slot = s.buffer slot)
    (harriving : s'.arriving.filter (· ∈ s.fresh) = s.arriving.filter (· ∈ s.fresh)) :
    Tracks s' := by
  obtain ⟨done, way, coming, hsplit⟩ := h.split
  refine ⟨?_, done, way, coming, ?_, ?_, ?_, ?_, ?_⟩
  · rw [hfresh, harriving]
    exact h.order
  · rw [hsent]
    exact hsplit.sent
  · rw [hdelivered]
    exact hsplit.delivered
  · rw [hheaders]
    exact hsplit.headers
  · rw [hstream]
    exact hsplit.stream
  · rw [hfresh, hhand, map_congr_left hbuffer]
    exact hsplit.messages

/-! ## Buffers and the queue -/

/-- A buffer in the hands of a thread is not arriving. -/
theorem Holds.not_arriving (h : Holds (slot :: held) s) : slot ∉ s.arriving := by
  have honce := h.once slot
  rw [count_cons_self] at honce
  have hzero : s.uses slot = 0 := by omega
  unfold uses at hzero
  intro hmem
  unfold arriving at hmem
  rcases mem_append.mp hmem with hmem | hmem
  · rcases mem_append.mp hmem with hmem | hmem
    · have htask : slot ∈ s.task.slots := by
        cases htask : s.task with
        | got msg =>
          rw [htask] at hmem
          exact hmem
        | _ =>
          rw [htask] at hmem
          exact absurd hmem (not_mem_nil)
      have := count_pos_iff.mpr htask
      omega
    · have := count_pos_iff.mpr hmem
      omega
  · have := count_pos_iff.mpr hmem
    omega

theorem Tracks.memGet (h : Tracks s) (hh : Holds held s) (hget : s.memGet = (some slot, s')) :
    Tracks s' := by
  have hheld := hh.memGet hget
  unfold HalSystem.memGet at hget
  split at hget
  · exact absurd (congrArg Prod.fst hget) (by simp)
  · rename_i index mem heq
    obtain ⟨hslot, rfl⟩ := Prod.mk.inj hget
    obtain rfl := Option.some.inj hslot
    refine h.frame rfl rfl rfl rfl rfl rfl (fun x hx => Function.update_of_ne ?_ _ _) rfl
    rintro rfl
    exact h.not_fresh hheld.not_arriving hx

theorem Tracks.memGetFor (h : Tracks s) (hh : Holds held s) {size : ℕ}
    (hget : s.memGetFor size = (some slot, s')) : Tracks s' := by
  unfold HalSystem.memGetFor at hget
  split at hget
  · exact absurd (congrArg Prod.fst hget) (by simp)
  · exact h.memGet hh hget

theorem Tracks.fill (h : Tracks s) (hh : Holds (slot :: held) s) (msg : HalMsg) :
    Tracks (s.fill slot msg) := by
  refine h.frame rfl rfl rfl rfl rfl rfl (fun x hx => Function.update_of_ne ?_ _ _) rfl
  rintro rfl
  exact h.not_fresh hh.not_arriving hx

/-- **A message that is no packet** is put: the packets in the queue stay. -/
theorem Tracks.put (h : Tracks s) {p : Ptr}
    (hqueue : s.msgQ.Shaped ∨ (s.msgQ.state ≠ .allocated ∧ s.msgQ.contents = []))
    (hout : ∀ slot ∈ ptrSlots p, slot ∉ s.fresh) (hroom : s.Roomy ∨ s.Clear) :
    Tracks (s.put p) := by
  have hptr : (ptrSlots p).filter (· ∈ s.fresh) = [] := by
    rw [filter_eq_nil_iff]
    exact fun x hx => by simpa using hout x hx
  have hqueued : (s.put p).queued.filter (· ∈ s.fresh) = s.queued.filter (· ∈ s.fresh) := by
    rcases hroom with ⟨hstate, hlt⟩ | hclear
    · have hshaped := hqueue.resolve_right fun hno => hno.1 hstate
      rw [queued_put_room hshaped p hlt, filter_append, hptr, append_nil]
    · have hnone : s.queued.filter (· ∈ s.fresh) = [] := by
        rw [filter_eq_nil_iff]
        exact fun x hx => by simpa using fun hfresh => hclear x hfresh hx
      rcases queued_put hqueue p with hbehind | hsame | hnil
      · rw [hbehind, filter_append, hptr, append_nil]
      · rw [hsame]
      · rw [hnil, hnone]
        rfl
  refine h.frame rfl rfl rfl rfl rfl rfl (fun _ _ => rfl) ?_
  show (s.task.taken ++ (s.put p).queued ++ s.reader.slots).filter _ = _
  unfold arriving
  rw [filter_append, filter_append, hqueued, filter_append, filter_append]

theorem Tracks.putSlot (h : Tracks s) (hh : Holds (slot :: held) s)
    (hroom : s.Roomy ∨ s.Clear) : Tracks (s.put (slotPtr slot)) := by
  obtain ⟨hne, hslot⟩ := ptrSlot_slotPtr hh.lt
  refine h.put hh.queue (fun x hx => ?_) hroom
  unfold ptrSlots at hx
  rw [if_neg hne, hslot, mem_singleton] at hx
  rw [hx]
  exact h.not_fresh hh.not_arriving

/-! ## The stack -/

theorem Tracks.setApi (h : Tracks s) (api : List ApiThread) : Tracks { s with api := api } :=
  h.frame rfl rfl rfl rfl rfl rfl (fun _ _ => rfl) rfl

/-- **The HAL is opened** when no thread of it runs. -/
theorem Tracks.apiOpen (h : Tracks s) {ans : HalAnswers} {dataCback : Bool}
    (hsound : s.Sound (.apiOpen ans dataCback)) (haligned : s.Aligned (.apiOpen ans dataCback)) :
    Tracks (s.apiOpen ans dataCback) := by
  unfold HalSystem.apiOpen
  by_cases hstate : s.info.state = .postinit
  · rw [if_pos hstate]
    exact h
  · rw [if_neg hstate]
    obtain ⟨-, hreader, -⟩ := hsound.resolve_left hstate
    obtain ⟨-, hreader', -⟩ := init_threads s ans
    have hfresh : (s.init ans).fresh = [] := by
      unfold init HalSystem.memGet
      dsimp only
      split <;> rfl
    dsimp only
    split
    · have hnone (l : List ℕ) : l.filter (· ∈ (s.init ans).fresh) = (s.init ans).fresh := by
        rw [hfresh, filter_eq_nil_iff]
        exact fun x _ => by simp
      refine ⟨hnone _, [], [], [], rfl, rfl, rfl, rfl, ?_⟩
      show [] = (s.init ans).fresh.map _ ++ (ReadThread.inHand (if _ then _ else _)).map _
      rw [hfresh, hreader', hreader, if_pos rfl]
      rfl
    · rename_i hopens
      have hempty : s.fresh = [] := by
        rcases haligned with hpostinit | hyes | hempty
        · exact absurd hpostinit hstate
        · exact absurd hyes hopens
        · exact hempty
      have hsame : (s.init ans).sent = s.sent ∧ (s.init ans).delivered = s.delivered ∧
          (s.init ans).headers = s.headers ∧ (s.init ans).stream = s.stream := by
        unfold init HalSystem.memGet
        dsimp only
        split <;> exact ⟨rfl, rfl, rfl, rfl⟩
      obtain ⟨hsent, hdelivered, hheaders, hstream⟩ := hsame
      have hnone (l : List ℕ) : l.filter (· ∈ s.fresh) = [] := by
        rw [hempty, filter_eq_nil_iff]
        exact fun x _ => by simp
      refine h.frame hsent hdelivered hheaders hstream (hfresh.trans hempty.symm)
        (congrArg _ hreader') (fun x hx => ?_) ?_
      · rw [hempty] at hx
        exact absurd hx not_mem_nil
      · rw [hnone, hnone]

/-- **A thread of the stack goes on.** -/
theorem Tracks.apiStep (h : Tracks s) (hh : Holds [] s) {n : ℕ} {t : ApiThread}
    (hget : s.api[n]? = some t) (hroom : t.puts → s.Roomy ∨ s.Clear) :
    Tracks (s.apiStep n t) := by
  cases t with
  | write data =>
    rw [HalSystem.apiStep_write]
    split
    · rename_i s' heq
      obtain rfl := memGetFor_none heq
      exact h.setApi _
    · rename_i slot s' heq
      exact ((h.memGetFor hh heq).fill (hh.memGetFor heq).2 _).setApi _
  | writeFilled msg command =>
    exact h.frame rfl rfl rfl rfl rfl rfl (fun _ _ => rfl) rfl
  | writePut msg =>
    have hgone : Tracks (s.goesOn n []) := h.setApi _
    have hput : Tracks ((s.goesOn n []).put (msg.elim 0 slotPtr)) := by
      refine hgone.put hh.queue (fun x hx => ?_) (hroom trivial)
      cases msg with
      | none => exact absurd hx (not_mem_nil)
      | some slot =>
        have hheld : Holds [slot] (s.goesOn n []) := hh.goesOn hget fun x => by
          simp [ApiThread.slots]
        obtain ⟨hne, hslot⟩ := ptrSlot_slotPtr hheld.lt
        have hx : x ∈ ptrSlots (slotPtr slot) := hx
        unfold ptrSlots at hx
        rw [if_neg hne, hslot, mem_singleton] at hx
        rw [hx]
        exact hgone.not_fresh hheld.not_arriving
    exact hput.frame rfl rfl rfl rfl rfl rfl (fun _ _ => rfl) rfl
  | post event param =>
    rw [HalSystem.apiStep_post]
    split
    · rename_i s' heq
      obtain rfl := memGetFor_none heq
      exact h.setApi _
    · rename_i slot s' heq
      exact ((h.memGetFor hh heq).fill (hh.memGetFor heq).2 _).setApi _
  | put event msg =>
    have hgone : Tracks (s.goesOn n (behindPost event)) := h.setApi _
    have hheld : Holds [msg] (s.goesOn n (behindPost event)) := by
      refine hh.goesOn hget fun x => ?_
      rw [flatMap_behindPost]
      simp [ApiThread.slots]
    exact hgone.putSlot hheld (hroom trivial)
  | closing =>
    show Tracks (if _ then _ else s)
    split
    · rename_i hended
      have hread : s.reader.slots = [] ∧ s.reader.inHand = [] := by
        rcases hended.2 with hreader | hreader
        · rw [hreader]
          exact ⟨rfl, rfl⟩
        · rw [hreader]
          exact ⟨rfl, rfl⟩
      refine h.frame rfl rfl rfl rfl rfl hread.2.symm (fun _ _ => rfl) ?_
      unfold arriving
      rw [hread.1]
      rfl
    · exact h

/-! ## The read thread -/

theorem CtrlPacket.bytes_eq (p : CtrlPacket) : p.bytes = p.header ++ p.payload := rfl

/-- **A header is read**: the next packet is on its way. -/
theorem Tracks.readHeader (h : Tracks s) (haligned : s.Aligned (.readHeader limit)) :
    Tracks (s.readHeader limit) := by
  unfold HalSystem.readHeader
  by_cases hreader : s.reader = .selecting
  · rw [if_pos hreader]
    obtain ⟨done, way, coming, hsplit⟩ := h.split
    rcases haligned hreader with hnone | ⟨hwhole, hempty⟩
    · have hshort : ¬ (s.deviceRead nciHdrSize limit).1.length = nciHdrSize := by
        rw [hnone]
        decide
      dsimp only
      rw [if_neg hshort]
      refine h.frame rfl rfl rfl ?_ rfl rfl (fun _ _ => rfl) rfl
      show s.stream.drop (min nciHdrSize limit) = s.stream
      rcases take_eq_nil_iff.mp hnone with hzero | hnil
      · rw [hzero, drop_zero]
      · rw [hnil, drop_nil]
    · dsimp only
      rw [if_pos hwhole]
      have hlimit : min nciHdrSize limit = nciHdrSize := by
        have hlen : (s.stream.take (min nciHdrSize limit)).length = nciHdrSize := hwhole
        rw [length_take] at hlen
        omega
      have hstream : s.stream = coming.flatMap CtrlPacket.bytes := by
        rw [hsplit.stream, ← hsplit.underway_eq, hempty, nil_append]
      cases coming with
      | nil =>
        have hlen : (s.stream.take (min nciHdrSize limit)).length = nciHdrSize := hwhole
        rw [hstream] at hlen
        exact absurd hlen (by simp [nciHdrSize])
      | cons p coming =>
        -- The header of the next packet is what comes first.
        have hnext : s.stream = p.header ++ (p.payload ++ coming.flatMap CtrlPacket.bytes) := by
          rw [hstream, flatMap_cons, CtrlPacket.bytes_eq, append_assoc]
        have hdata : (s.deviceRead nciHdrSize limit).1 = p.header := by
          show s.stream.take (min nciHdrSize limit) = _
          rw [hlimit, hnext]
          exact take_left' rfl
        have hrest : s.stream.drop (min nciHdrSize limit) =
            p.payload ++ coming.flatMap CtrlPacket.bytes := by
          rw [hlimit, hnext]
          exact drop_left' rfl
        rw [hdata]
        refine ⟨?_, done, way ++ [p], coming, ?_, hsplit.delivered, ?_, ?_, ?_⟩
        · have horder := h.order
          unfold arriving at horder
          rw [hreader] at horder
          exact horder
        · show s.sent = _
          rw [hsplit.sent]
          simp
        · show s.headers ++ [p.header] = _
          rw [hsplit.headers]
          simp
        · show s.stream.drop (min nciHdrSize limit) = _
          have hpayloads : way.flatMap CtrlPacket.payload = [] := by
            rw [← hsplit.underway_eq]
            exact hempty
          rw [hrest, flatMap_append, hpayloads, nil_append, flatMap_singleton]
        · have hmessages := hsplit.messages
          rw [hreader] at hmessages
          rw [map_append, hmessages]
          show s.fresh.map s.buffer ++ [] ++ [readMsg p.header] = _
          rw [append_nil]
          rfl
  · rw [if_neg hreader]
    exact h

/-- **It gets a message** for the header. -/
theorem Tracks.readerGet (h : Tracks s) (hh : Holds [] s) (haligned : s.Aligned .readerGet) :
    Tracks s.readerGet := by
  unfold HalSystem.readerGet
  split
  · rename_i data hreader
    have hfound : s.memGet.1 ≠ none := by
      refine haligned ?_
      rw [hreader]
      simp [ReadThread.inHand]
    split
    · rename_i s' heq
      exact absurd (congrArg Prod.fst heq) hfound
    · rename_i slot s' heq
      have hout : slot ∉ s.arriving := by
        have hheld := (hh.memGet heq).not_arriving
        unfold HalSystem.memGet at heq
        split at heq
        · exact absurd (congrArg Prod.fst heq) (by simp)
        · obtain ⟨-, rfl⟩ := Prod.mk.inj heq
          exact hheld
      have hnew := h.not_fresh hout
      have hs' := h.memGet hh heq
      obtain ⟨-, htask', hreader'⟩ := memGet_api heq
      have hqueued : s'.queued = s.queued ∧ s'.fresh = s.fresh := by
        unfold HalSystem.memGet at heq
        split at heq
        · exact absurd (congrArg Prod.fst heq) (by simp)
        · obtain ⟨-, rfl⟩ := Prod.mk.inj heq
          exact ⟨rfl, rfl⟩
      obtain ⟨done, way, coming, hsplit⟩ := hs'.split
      refine ⟨?_, done, way, coming, hsplit.sent, hsplit.delivered, hsplit.headers,
        hsplit.stream, ?_⟩
      · have horder := hs'.order
        unfold arriving at horder hout
        rw [htask', hqueued.1, hqueued.2, hreader', hreader] at horder
        rw [hreader] at hout
        show (s'.task.taken ++ s'.queued ++ [slot]).filter (· ∈ s'.fresh ++ [slot]) =
          s'.fresh ++ [slot]
        rw [htask', hqueued.1, hqueued.2, filter_append]
        have hsame : (s.task.taken ++ s.queued).filter (· ∈ s.fresh ++ [slot]) =
            (s.task.taken ++ s.queued).filter (· ∈ s.fresh) := by
          refine filter_congr fun x hx => ?_
          have hne : x ≠ slot := by
            rintro rfl
            exact hout (mem_append_left _ hx)
          simp [hne]
        have hlast : [slot].filter (· ∈ s.fresh ++ [slot]) = [slot] := by simp
        have hkept : (s.task.taken ++ s.queued).filter (· ∈ s.fresh) = s.fresh := by
          simpa [ReadThread.slots] using horder
        rw [hsame, hlast, hkept]
      · have hmessages := hsplit.messages
        rw [hreader', hreader, hqueued.2] at hmessages
        show way.map _ = (s'.fresh ++ [slot]).map
          (Function.update s'.buffer slot ⟨.read, data⟩) ++ []
        have hkeep : s.fresh.map (Function.update s'.buffer slot ⟨.read, data⟩) =
            s.fresh.map s'.buffer := by
          refine map_congr_left fun x hx => Function.update_of_ne ?_ _ _
          rintro rfl
          exact hnew hx
        rw [hmessages, hqueued.2, map_append, hkeep, append_nil, map_singleton,
          Function.update_self]
        rfl
  · exact h

/-- **It posts the message**, behind those in the queue. -/
theorem Tracks.readerPut (h : Tracks s) (hh : Holds [] s) (haligned : s.Aligned .readerPut) :
    Tracks s.readerPut := by
  unfold HalSystem.readerPut
  split
  · rename_i slot hreader
    have hroom : s.Roomy := by
      refine haligned ?_
      rw [hreader]
      exact cons_ne_nil _ _
    have hshaped := hh.queue.resolve_right fun hno => hno.1 hroom.1
    have hheld : Holds [slot] { s with reader := .selecting } := by
      refine hh.setReader trivial fun x => ?_
      rw [hreader]
      simp [ReadThread.slots]
    obtain ⟨hne, hslot⟩ := ptrSlot_slotPtr hheld.lt
    refine h.frame rfl rfl rfl rfl rfl ?_ (fun _ _ => rfl) ?_
    · rw [hreader]
      rfl
    · show (s.task.taken ++ (s.put (slotPtr slot)).queued ++ []).filter _ = _
      unfold arriving
      rw [queued_put_room hshaped _ hroom.2, hreader]
      unfold ptrSlots
      rw [if_neg hne, hslot, append_nil, ← append_assoc]
      rfl
  · exact h

/-! ## The task -/

/-- **The task takes a message**: the first of the queue is the first still. -/
theorem Tracks.taskTake (h : Tracks s) (hh : Holds [] s) : Tracks s.taskTake := by
  unfold HalSystem.taskTake
  split
  · rename_i hwaiting
    have hget := queued_get hh.queue
    have harriving : s.arriving = ptrSlots s.msgQ.queueGet.2 ++
        ({ s with msgQ := s.msgQ.queueGet.1 } : HalSystem).queued ++ s.reader.slots := by
      rw [← hget]
      unfold arriving
      rw [hwaiting]
      rfl
    dsimp only
    by_cases hp : s.msgQ.queueGet.2 = 0
    · rw [if_pos hp]
      refine h.frame rfl rfl rfl rfl rfl rfl (fun _ _ => rfl) ?_
      rw [harriving]
      unfold arriving ptrSlots
      rw [if_pos hp, hwaiting]
      rfl
    · rw [if_neg hp]
      unfold ptrSlots at harriving
      rw [if_neg hp] at harriving
      split
      · rename_i hterminate
        -- What the read thread posts is a packet, and this is none.
        have hnone : ptrSlot s.msgQ.queueGet.2 ∉ s.fresh := by
          intro hmem
          obtain ⟨done, way, coming, hsplit⟩ := h.split
          have hmsg : s.buffer (ptrSlot s.msgQ.queueGet.2) ∈ way.map (fun p => readMsg p.header) := by
            rw [hsplit.messages]
            exact mem_append_left _ (mem_map_of_mem hmem)
          obtain ⟨p, -, hp⟩ := mem_map.mp hmsg
          have hevent : (s.buffer (ptrSlot s.msgQ.queueGet.2)).event = .read := by
            rw [← hp]
            rfl
          rw [hevent] at hterminate
          exact absurd hterminate (by decide)
        refine h.frame rfl rfl rfl rfl rfl rfl (fun _ _ => rfl) ?_
        rw [harriving, append_assoc, singleton_append, filter_cons_of_neg (by simpa using hnone)]
        rfl
      · refine h.frame rfl rfl rfl rfl rfl rfl (fun _ _ => rfl) ?_
        rw [harriving]
        rfl
  · exact h

/-- **A payload that is read whole** is that of the packet. -/
theorem readData_packet {p : CtrlPacket} {rest : List (BitVec 8)}
    (hstream : s.stream = p.payload ++ rest)
    (hwhole : (s.readData p.kind (readMsg p.header) limit).2.1 = true) :
    (s.readData p.kind (readMsg p.header) limit).1 = p.payload ∧
      (s.readData p.kind (readMsg p.header) limit).2.2 = { s with stream := rest } := by
  have hsize := p.size
  cases hkind : p.kind with
  | nci =>
    rw [hkind] at hwhole hsize
    have hsize : p.payload.length = p.len.toNat := hsize
    have hlen : (s.stream.take (min p.len.toNat limit)).length = p.len.toNat :=
      of_decide_eq_true hwhole
    rw [length_take] at hlen
    have hlimit : min p.len.toNat limit = p.payload.length := by omega
    constructor
    · show s.stream.take (min p.len.toNat limit) = _
      rw [hlimit, hstream, take_left]
    · show { s with stream := s.stream.drop (min p.len.toNat limit) } = _
      rw [hlimit, hstream, drop_left]
  | fw =>
    rw [hkind] at hwhole hsize
    have hsize : p.payload.length = 1 + (p.len.toNat + 256 * (p.payload.getD 0 0).toNat) := hsize
    cases hpayload : p.payload with
    | nil =>
      rw [hpayload] at hsize
      exact absurd hsize (by simp; omega)
    | cons high data =>
      rw [hpayload] at hsize hstream
      have hdata : data.length = p.len.toNat + 256 * high.toNat := by
        have hsize : data.length + 1 = 1 + (p.len.toNat + 256 * high.toNat) := hsize
        omega
      unfold readData at hwhole ⊢
      dsimp only at hwhole ⊢
      by_cases hone : (s.deviceRead 1 limit).1.length = 1
      · rw [if_pos hone] at hwhole
        rw [if_pos hone]
        have hlimit : min 1 limit = 1 := by
          have hlen : (s.stream.take (min 1 limit)).length = 1 := hone
          rw [length_take] at hlen
          omega
        have hhigh : (s.deviceRead 1 limit).1 = [high] := by
          show s.stream.take (min 1 limit) = _
          rw [hlimit, hstream]
          rfl
        have hrest : (s.deviceRead 1 limit).2 = { s with stream := data ++ rest } := by
          show { s with stream := s.stream.drop (min 1 limit) } = _
          rw [hlimit, hstream]
          rfl
        have hlen : ((readMsg p.header).fwLen + 256 * (([high] : List (BitVec 8)).getD 0 0).toNat) %
            2 ^ 16 = data.length := by
          have hlow : (readMsg p.header).fwLen = p.len.toNat := by
            show p.len.toNat + 256 * 0 = _
            omega
          have hbyte : (([high] : List (BitVec 8)).getD 0 0).toNat = high.toNat := rfl
          have := p.len.isLt
          have := high.isLt
          rw [hlow, hbyte, hdata]
          omega
        rw [hhigh, hrest, hlen] at hwhole
        rw [hhigh, hrest, hlen]
        have htake : ((data ++ rest).take (min data.length (limit - 1))).length = data.length :=
          of_decide_eq_true hwhole
        rw [length_take, length_append] at htake
        have hmin : min data.length (limit - 1) = data.length := by omega
        constructor
        · show [high] ++ (data ++ rest).take (min data.length (limit - 1)) = _
          rw [hmin, take_left]
          rfl
        · show { s with stream := (data ++ rest).drop (min data.length (limit - 1)) } = _
          rw [hmin, drop_left]
      · rw [if_neg hone] at hwhole
        exact Bool.noConfusion hwhole

/-- **The state machine reads its own**: the payload of the packet the message
is for. -/
theorem Tracks.taskRead (h : Tracks s) (hh : Holds [] s) (hsound : s.Sound (.taskRead limit))
    (haligned : s.Aligned (.taskRead limit)) :
    Tracks (s.taskRead limit) := by
  unfold HalSystem.taskRead
  split
  · rename_i slot htask
    have hown : s.ReadsOwn slot := by
      refine haligned slot ?_
      rw [htask]
      exact mem_singleton_self slot
    have harriving : s.arriving = slot :: (s.queued ++ s.reader.slots) := by
      unfold arriving
      rw [htask]
      rfl
    have horder := h.order
    rw [harriving] at horder
    obtain ⟨done, way, coming, hsplit⟩ := h.split
    have hunderway := hsplit.underway_eq
    unfold ReadsOwn at hown
    by_cases hfresh : slot ∈ s.fresh
    · rw [if_pos hfresh] at hown
      rw [filter_cons_of_pos (by simpa using hfresh)] at horder
      -- The message is the first on its way, and its packet the first.
      have hmessages := hsplit.messages
      rw [← horder, map_cons, cons_append] at hmessages
      cases way with
      | nil => exact absurd hmessages (by simp)
      | cons p way =>
        rw [map_cons] at hmessages
        obtain ⟨hbuffer, hrestMessages⟩ := List.cons.inj hmessages
        rw [hunderway] at hown
        have hreads : s.info.reads (s.buffer slot).event = some p.kind := hown
        have hreading : s.reading = some (slot, p.kind) := by
          unfold reading
          rw [htask]
          show (s.info.reads _).map _ = _
          rw [hreads]
          rfl
        obtain ⟨hwhole, -⟩ := hsound (slot, p.kind) hreading
        have hstream : s.stream = p.payload ++
            (way.flatMap CtrlPacket.payload ++ coming.flatMap CtrlPacket.bytes) := by
          rw [hsplit.stream, flatMap_cons, append_assoc]
        dsimp only at hwhole ⊢
        rw [hreads]
        dsimp only
        rw [← hbuffer] at hwhole ⊢
        obtain ⟨hdata, hrest⟩ := readData_packet hstream hwhole
        rw [if_pos hwhole, hdata, hrest]
        have hout : slot ∉ s.queued ++ s.reader.slots := by
          have honce := hh.once slot
          unfold uses at honce
          rw [htask] at honce
          have htaken : (TaskThread.got slot).slots.count slot = 1 := count_cons_self ..
          intro hmem
          rcases mem_append.mp hmem with hmem | hmem
          · have := count_pos_iff.mpr hmem
            omega
          · have := count_pos_iff.mpr hmem
            omega
        have herase : s.fresh.erase slot =
            (s.queued ++ s.reader.slots).filter (· ∈ s.fresh) := by
          conv => lhs; rw [← horder]
          exact erase_cons_head ..
        have hmem (x : ℕ) (hx : x ∈ s.queued ++ s.reader.slots) :
            x ∈ s.fresh ↔ x ∈ s.fresh.erase slot := by
          have hne : x ≠ slot := by
            rintro rfl
            exact hout hx
          exact (mem_erase_of_ne hne).symm
        refine ⟨?_, done ++ [p], way, coming, ?_, ?_, ?_, ?_, ?_⟩
        · show (s.queued ++ s.reader.slots).filter (· ∈ s.fresh.erase slot) = s.fresh.erase slot
          rw [← filter_congr fun x hx => decide_eq_decide.mpr (hmem x hx), herase]
        · show s.sent = _
          rw [hsplit.sent]
          simp
        · show s.delivered ++ [p.header ++ p.payload] = _
          rw [hsplit.delivered, map_append]
          rfl
        · show s.headers = _
          rw [hsplit.headers]
          simp
        · rfl
        · show way.map _ = (s.fresh.erase slot).map (Function.update s.buffer slot _) ++ _
          have hkeep : (s.fresh.erase slot).map (Function.update s.buffer slot
              (withPayload (readMsg p.header) p.payload)) = (s.fresh.erase slot).map s.buffer := by
            refine map_congr_left fun x hx => Function.update_of_ne ?_ _ _
            rintro rfl
            rw [herase] at hx
            exact hout (mem_filter.mp hx).1
          rw [hkeep, herase]
          exact hrestMessages
    · rw [if_neg hfresh] at hown
      dsimp only
      rw [hown]
      refine h.frame rfl rfl rfl rfl rfl rfl (fun _ _ => rfl) ?_
      rw [harriving, filter_cons_of_neg (by simpa using hfresh)]
      rfl
  · exact h

theorem Tracks.setTask (h : Tracks s) {task : TaskThread} (htaken : task.taken = s.task.taken) :
    Tracks { s with task := task } := by
  refine h.frame rfl rfl rfl rfl rfl rfl (fun _ _ => rfl) ?_
  show (task.taken ++ s.queued ++ s.reader.slots).filter _ = _
  unfold arriving
  rw [htaken]

theorem Tracks.taskHandle (h : Tracks s) (ans : HalAnswers) : Tracks (s.taskHandle ans) := by
  unfold HalSystem.taskHandle
  split
  · rename_i slot htask
    dsimp only
    refine h.frame rfl rfl rfl rfl rfl rfl (fun _ _ => rfl) ?_
    unfold arriving
    rw [htask]
    rfl
  · exact h

/-- **The task does what comes next**, for no packet on its way. -/
theorem Tracks.taskAct (h : Tracks s) (hh : Holds [] s) {whole : Bool}
    (haligned : s.Aligned (.taskAct whole)) : Tracks (s.taskAct whole) := by
  unfold HalSystem.taskAct
  split
  · rename_i slot e rest htask
    have htaken : s.task.taken = [] := by
      rw [htask]
      rfl
    have hpass : Tracks { s with task := .doing slot rest } := h.setTask htaken.symm
    cases e with
    | stateSwitch event state =>
      rw [HalSystem.perform_stateSwitch]
      split
      · rename_i s' heq
        obtain rfl := memGet_none heq
        exact hpass
      · rename_i newMsg s' heq
        refine (h.memGet hh heq).setTask ?_
        rw [(memGet_api heq).2.1, htaken]
        rfl
    | deviceClose =>
      show Tracks (if _ then _ else s)
      split
      · rename_i hidle
        have hread : s.reader.slots = [] ∧ s.reader.inHand = [] := by
          rcases hidle with hreader | hreader
          · rw [hreader]
            exact ⟨rfl, rfl⟩
          · rw [hreader]
            exact ⟨rfl, rfl⟩
        refine hpass.frame rfl rfl rfl rfl rfl hread.2.symm (fun _ _ => rfl) ?_
        unfold arriving
        rw [hread.1]
        rfl
      · exact h
    | deviceOpen =>
      have hread : (if s.reader = .ended then .selecting else s.reader).slots = s.reader.slots ∧
          (if s.reader = .ended then .selecting else s.reader).inHand = s.reader.inHand := by
        by_cases hended : s.reader = .ended
        · rw [if_pos hended, hended]
          exact ⟨rfl, rfl⟩
        · rw [if_neg hended]
          exact ⟨rfl, rfl⟩
      refine hpass.frame rfl rfl rfl rfl rfl hread.2 (fun _ _ => rfl) ?_
      show (_ ++ _ ++ ReadThread.slots (if s.reader = .ended then .selecting else s.reader)).filter
        _ = _
      rw [hread.1]
      rfl
    | fault => exact h.setTask htaken.symm
    | write data =>
      unfold perform deviceWrite
      dsimp only
      split
      · exact hpass.frame rfl rfl rfl rfl rfl rfl (fun _ _ => rfl) rfl
      · exact hpass
    | data data =>
      unfold perform dataCallback
      dsimp only
      split
      · exact hpass.frame rfl rfl rfl rfl rfl rfl (fun _ _ => rfl) rfl
      · exact hpass
    | setMode mode => exact hpass
    | frame pkt => exact hpass
    | timerStart timer timeout callback => exact hpass
    | timerStop timer => exact hpass
    | stack event status => exact hpass
  · rename_i slot event state newMsg rest htask
    have htaken : s.task.taken = [] := by
      rw [htask]
      rfl
    have hroom : s.Roomy ∨ s.Clear := by
      refine haligned ?_
      rw [htask]
      trivial
    have hheld : Holds [newMsg] { s with task := .doing slot rest } := hh.pass htask
    have hpass : Tracks { s with task := .doing slot rest } := h.setTask htaken.symm
    have hfits : HalMsg.fits { (s.buffer slot).copied with event := event } :=
      (by decide : 2 ≤ halMsgRoom)
    have hput := (hpass.fill hheld _).putSlot (hheld.fill hfits) hroom
    exact hput.frame rfl rfl rfl rfl rfl rfl (fun _ _ => rfl) rfl
  · rename_i slot rest htask
    have hkeeps := hh.ready.1
    rw [htask] at hkeeps
    exact absurd mem_cons_self hkeeps
  · rename_i slot htask
    refine h.frame rfl rfl rfl rfl rfl rfl (fun _ _ => rfl) ?_
    unfold arriving
    rw [htask]
    rfl
  · exact h

/-- **Every step.** -/
theorem Tracks.step (h : Tracks s) (hh : Holds [] s) (i : HalStep) (hsound : s.Sound i)
    (haligned : s.Aligned i) : Tracks (HalSystem.step s i) := by
  cases i with
  | apiOpen ans dataCback => exact h.apiOpen hsound haligned
  | apiWrite data =>
    show Tracks (if _ then s else _)
    split
    · exact h
    · exact h.setApi _
  | apiCoreInitialized params =>
    show Tracks (if _ then _ else s)
    split
    · exact h.setApi _
    · exact h
  | apiControlGranted => exact h.setApi _
  | apiPowerCycle =>
    show Tracks (if _ then s else _)
    split
    · exact h
    · exact h.setApi _
  | apiClose =>
    show Tracks (if _ then s else _)
    split
    · exact h
    · exact h.setApi _
  | api n =>
    show Tracks ((s.api[n]?).elim s (s.apiStep n))
    cases hget : s.api[n]? with
    | none => exact h
    | some t => exact h.apiStep hh hget (haligned t hget)
  | readHeader limit => exact h.readHeader haligned
  | readerGet => exact h.readerGet hh haligned
  | readerPut => exact h.readerPut hh haligned
  | taskTake => exact h.taskTake hh
  | taskRead limit => exact h.taskRead hh hsound haligned
  | taskHandle ans => exact h.taskHandle ans
  | taskAct whole => exact h.taskAct hh haligned
  | controller p =>
    obtain ⟨done, way, coming, hsplit⟩ := h.split
    refine ⟨h.order, done, way, coming ++ [p], ?_, hsplit.delivered, hsplit.headers, ?_,
      hsplit.messages⟩
    · show s.sent ++ [p] = _
      rw [hsplit.sent, append_assoc]
    · show s.stream ++ p.bytes = _
      rw [hsplit.stream, flatMap_append, flatMap_singleton, append_assoc]

theorem tracks_initial : Tracks initial :=
  ⟨rfl, [], [], [], rfl, rfl, rfl, rfl, rfl⟩

/-- **The packets are framed** in every state of every run in which, besides
what keeps the messages owned, a header is read whole and only when no payload
is in front of it, no message of a packet is lost, and a state machine reads the
payload of its own packet, and none for another message. -/
theorem packets_framed (steps : List HalStep)
    (h : Run.Throughout step (fun s i => s.Sound i ∧ s.Aligned i) initial steps) :
    Run.Always step Framed initial steps := by
  have hinv : Run.Always step (fun s => Holds [] s ∧ Tracks s) initial steps :=
    Run.Always.of_invariant
      (fun _ i hs hc => ⟨hs.1.step i hc.1, hs.2.step hs.1 i hc.1 hc.2⟩)
      ⟨holds_initial, tracks_initial⟩ h
  exact hinv.mono fun _ hs => hs.2.framed

/-- As for the response to the first command. -/
theorem packets_framed_opening :
    Run.Always step Framed initial (opening ++ responding ++ [.taskTake, .taskRead 2]) :=
  packets_framed (opening ++ responding ++ [.taskTake, .taskRead 2]) (by decide +kernel)

/-- The bootloader's information of a chip. -/
def bootInfo : CtrlPacket where
  kind := .fw
  oct0 := 0
  oid := 0
  len := 8
  payload := [0, 0x80, 0, 0, 0, 0, 2, 0, 0x20]
  size := rfl

/-- **A payload is read as a header** when the read thread is faster than the
task. -/
theorem not_packets_framed :
    ¬ ∀ steps : List HalStep, Run.Throughout step Meant initial steps →
      Run.Always step Framed initial steps := by
  intro h
  have hlast := (h (opening ++ [.controller bootInfo, .readHeader 3, .readerGet, .readerPut,
    .readHeader 3]) (by decide +kernel)).last
  have hlong := hlast.headers.length_le
  exact absurd hlong (by decide +kernel)

end HalSystem

end ExynosVendor.Nfc
