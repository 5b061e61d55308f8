import ExynosVendor.Nfc.HalEffects
import ExynosVendor.Nfc.HalFraming

/-!
# The flow of commands

The stack's commands are written one at a time: `sending_nci_packet` is set
with a command and cleared with a response. `Pending` says where the command is
that the flag stands for, or its response; as long as the flag is set there is
one, and each step hands it on or clears the flag.

A command that the state machine takes for one it has sent before is not sent
at all, and its flag stays.
-/

namespace ExynosVendor.Nfc

open List

/-! ## The state machines -/

/-- A message with a command of the stack. -/
def HalMsg.IsCommand (m : HalMsg) : Prop := m.event = .write ∧ isCommand m.param = true

instance (m : HalMsg) : Decidable m.IsCommand := inferInstanceAs (Decidable (_ ∧ _))

/-- A message with a response, and not with the first part of one. -/
def HalMsg.IsRsp (m : HalMsg) : Prop := m.event = .read ∧ m.byte 0 >>> 4 = 4

instance (m : HalMsg) : Decidable m.IsRsp := inferInstanceAs (Decidable (_ ∧ _))

/-- The command has been answered already, so that it is not sent. -/
def HalInfo.Shortcut (h : HalInfo) (pkt : NciPkt) : Prop :=
  pkt.gid = nciGidCore ∧
    ((pkt.nciOid = nciCoreReset ∧ pkt.len = 1 ∧ h.has halFlagAlreadyReset) ∨
      (pkt.nciOid = nciCoreInit ∧ (pkt.len = 0 ∨ pkt.len = 2) ∧ h.has halFlagAlreadyInit))

instance (h : HalInfo) (pkt : NciPkt) : Decidable (h.Shortcut pkt) :=
  inferInstanceAs (Decidable (_ ∧ _))

/-- A command of the stack is sent. -/
def HalInfo.Takes (h : HalInfo) (pkt : NciPkt) : Prop :=
  (h.state = .postinit ∧ ¬ h.Shortcut pkt) ∨ h.state = .service

instance (h : HalInfo) (pkt : NciPkt) : Decidable (h.Takes pkt) :=
  inferInstanceAs (Decidable (_ ∨ _))

/-- A response is given to the stack. -/
def HalInfo.Passes (h : HalInfo) (pkt : NciPkt) : Prop :=
  (h.state = .postinit ∧ ¬ h.fw.bl.versionOf pkt) ∨ h.state = .service

instance (h : HalInfo) (pkt : NciPkt) : Decidable (h.Passes pkt) :=
  inferInstanceAs (Decidable (_ ∨ _))

/-- A command is written, or a response given to the stack. -/
def HalEffect.Answers : HalEffect → Prop
  | .write pkt => isCommand pkt = true
  | .data pkt => pkt.getD 0 0 >>> 4 = 4
  | _ => False

/-- A state machine does one of these, and reads nothing outside the image. -/
def Answered (out : List HalEffect) : Prop := .fault ∉ out ∧ ∃ e ∈ out, e.Answers

theorem mt_of_nibble (a : BitVec 8) :
    (a >>> 4 = 2 → a &&& 0xE0 = nciMtCmd) ∧ (a >>> 4 = 4 → a &&& 0xE0 = nciMtRsp) := by
  revert a
  decide

section Functions

variable {α β : Type} {m : HalM α} {f : α → HalM β} {r : HalRun}

/-- A function does no read outside the image. -/
def Spares (m : HalM α) (r : HalRun) : Prop := Emits (fun e => e ≠ .fault) m r

/-- And it answers. -/
def Replies (m : HalM α) (r : HalRun) : Prop := Does Answered m r

/-- The answer is in what comes behind. -/
theorem Replies.behind (h : Spares m r) (hf : Replies (f (m r).1) (m r).2) :
    Replies (m >>= f) r := by
  refine Does.bind h hf fun out out' hno hanswered => ?_
  obtain ⟨hno', e, he, hanswers⟩ := hanswered
  refine ⟨fun hmem => ?_, e, mem_append_right _ he, hanswers⟩
  rcases mem_append.mp hmem with hmem | hmem
  · exact hno _ hmem rfl
  · exact hno' hmem

theorem Replies.front (h : Replies m r) (hf : Spares (f (m r).1) (m r).2) :
    Replies (m >>= f) r := by
  refine Does.bind h hf fun out out' hanswered hno' => ?_
  obtain ⟨hno, e, he, hanswers⟩ := hanswered
  refine ⟨fun hmem => ?_, e, mem_append_left _ he, hanswers⟩
  rcases mem_append.mp hmem with hmem | hmem
  · exact hno hmem
  · exact hno' _ hmem rfl

theorem spares_pure (a : α) (r : HalRun) : Spares (pure a : HalM α) r := emits_pure a r

theorem spares_modifyInfo (f : HalInfo → HalInfo) (r : HalRun) : Spares (modifyInfo f) r :=
  emits_modifyInfo f r

theorem spares_getInfo (r : HalRun) : Spares getInfo r := emits_getInfo r

theorem spares_emit {e : HalEffect} (he : e ≠ .fault) (r : HalRun) : Spares (emit e) r :=
  emits_emit (P := fun e => e ≠ .fault) he r

theorem replies_emit {e : HalEffect} (he : e.Answers) (r : HalRun) : Replies (emit e) r := by
  refine does_emit ⟨?_, e, mem_singleton_self e, he⟩
  rw [mem_singleton]
  rintro rfl
  exact he

theorem spares_halUpdateSleepTimer (r : HalRun) : Spares halUpdateSleepTimer r :=
  emits_halUpdateSleepTimer (by simp) r

variable {pkt : NciPkt} {ans : HalAnswers}

/-- **A packet is sent**: a command. -/
theorem replies_halNciSend (hcmd : pkt.oct0 >>> 4 = 2) (r : HalRun) :
    Replies (halNciSend pkt) r := by
  refine Replies.behind (spares_halUpdateSleepTimer r) ?_
  refine Replies.behind (spares_modifyInfo _ _) ?_
  have hwrite : HalEffect.Answers (.write pkt.bytes) := decide_eq_true hcmd
  exact replies_emit hwrite _

/-- **A packet is given to the stack**: a response. -/
theorem replies_nfcDataCallback (hrsp : pkt.oct0 >>> 4 = 4) (r : HalRun) :
    Replies (nfcDataCallback pkt) r := by
  have hdata : HalEffect.Answers (.data pkt.bytes) := hrsp
  exact replies_emit hdata r

/-- **A command in `HAL_STATE_POSTINIT`.** -/
theorem replies_postinitWrite (hcmd : pkt.oct0 >>> 4 = 2) (hno : ¬ r.info.Shortcut pkt) :
    Replies (postinitWrite pkt) r := by
  refine Replies.behind (spares_getInfo r) ?_
  show Replies (if pkt.gid = nciGidCore then _ else _) r
  split
  · rename_i hgid
    split
    · rename_i hreset
      show Replies (if r.info.has halFlagAlreadyReset then _ else _) r
      rw [if_neg fun hflag => hno ⟨hgid, .inl ⟨hreset.1, hreset.2, hflag⟩⟩]
      refine Replies.behind (spares_modifyInfo _ _) ?_
      refine Replies.behind (spares_emit (by simp) _) ?_
      exact replies_halNciSend hcmd _
    · split
      · rename_i hinit
        show Replies (if r.info.has halFlagAlreadyInit then _ else _) r
        rw [if_neg fun hflag => hno ⟨hgid, .inr ⟨hinit.1, hinit.2, hflag⟩⟩]
        refine Replies.behind (spares_modifyInfo _ _) ?_
        refine Replies.behind (spares_emit (by simp) _) ?_
        exact replies_halNciSend hcmd _
      · exact replies_halNciSend hcmd _
  · exact replies_halNciSend hcmd _

/-- **A response there.** -/
theorem replies_postinitRead (hrsp : pkt.oct0 >>> 4 = 4) (hno : ¬ r.info.fw.bl.versionOf pkt) :
    Replies (postinitRead ans pkt) r := by
  refine Replies.behind (spares_getInfo r) ?_
  show Replies (if r.info.fw.bl.versionOf pkt then _ else _) r
  rw [if_neg hno]
  refine Replies.behind ?_ (replies_nfcDataCallback hrsp _)
  split
  · refine Emits.bind ?_ (spares_emit (by simp) _)
    split
    · exact Emits.bind (spares_modifyInfo _ _) (spares_modifyInfo _ _)
    · split
      · exact Emits.bind (spares_modifyInfo _ _) (spares_modifyInfo _ _)
      · exact spares_pure _ _
  · exact spares_pure _ _

theorem spares_setSleepTimeout (ans : HalAnswers) (option timeout : ℕ) (r : HalRun) :
    Spares (setSleepTimeout ans option timeout) r :=
  spares_modifyInfo _ _

/-- **A command in `HAL_STATE_SERVICE`**: it goes on, or is answered here, or a
reset is sent for it. -/
theorem replies_serviceWrite (hcmd : pkt.oct0 >>> 4 = 2) :
    Replies (do
      match ← nfcHalPrehandler ans pkt with
      | some pkt => halNciSend pkt
      | none => return) r := by
  have hmt : pkt.mt = nciMtCmd := (mt_of_nibble pkt.oct0).1 hcmd
  have hntf : ¬ pkt.mt = nciMtNtf := by
    rw [hmt]
    decide
  unfold nfcHalPrehandler
  rw [if_neg hntf, if_pos hmt]
  unfold prehandleCmd
  by_cases hgid : pkt.gid = nciGidProp
  · rw [if_pos hgid]
    by_cases hreset : pkt.nciOid = nciPropWrReset
    · rw [if_pos hreset]
      refine Replies.front ?_ (spares_pure _ _)
      refine Replies.front ?_ (spares_pure _ _)
      refine Replies.front (replies_halNciSend (by decide) _) ?_
      exact Emits.bind (spares_modifyInfo _ _) (spares_pure _ _)
    · rw [if_neg hreset]
      by_cases hsleep : pkt.nciOid = nciPropSetSleepTime
      · rw [if_pos hsleep]
        refine Replies.front ?_ (spares_pure _ _)
        refine Replies.front ?_ (spares_pure _ _)
        refine Replies.behind ?_ ?_
        · split
          · exact spares_setSleepTimeout _ _ _ _
          · exact spares_setSleepTimeout _ _ _ _
        · refine Replies.behind (spares_halUpdateSleepTimer _) ?_
          refine Replies.front (replies_nfcDataCallback ?_ _) (spares_pure _ _)
          show (nciMtRsp ||| nciGidProp) >>> 4 = 4
          decide
      · rw [if_neg hsleep]
        exact replies_halNciSend hcmd _
  · rw [if_neg hgid]
    exact replies_halNciSend hcmd _

/-- **A response there**, which may be made one to another command. -/
theorem replies_serviceRead (hrsp : pkt.oct0 >>> 4 = 4) :
    Replies (do
      halUpdateSleepTimer
      match ← nfcHalPrehandler ans pkt with
      | some pkt => nfcDataCallback pkt
      | none => return) r := by
  have hmt : pkt.mt = nciMtRsp := (mt_of_nibble pkt.oct0).2 hrsp
  have hntf : ¬ pkt.mt = nciMtNtf := by
    rw [hmt]
    decide
  have hcmd : ¬ pkt.mt = nciMtCmd := by
    rw [hmt]
    decide
  refine Replies.behind (spares_halUpdateSleepTimer r) ?_
  unfold nfcHalPrehandler
  rw [if_neg hntf, if_neg hcmd]
  split
  · refine replies_nfcDataCallback ?_ _
    show (nciMtRsp ||| nciGidProp) >>> 4 = 4
    decide
  · exact replies_nfcDataCallback hrsp _

end Functions

/-- **A command that is taken** is written, or answered. -/
theorem HalInfo.Takes.answered {h : HalInfo} {msg : HalMsg} (ans : HalAnswers)
    (htakes : h.Takes msg.nciPacket) (hmsg : msg.IsCommand) : Answered (h.handle ans msg).2 := by
  obtain ⟨hevent, hcommand⟩ := hmsg
  have hcmd : msg.nciPacket.oct0 >>> 4 = 2 := of_decide_eq_true hcommand
  refine Does.handle ?_
  unfold Does
  rcases htakes with ⟨hstate, hno⟩ | hstate
  · rw [nfcHalTask_postinit ans msg hstate]
    unfold nfcHalPostinitSm
    rw [hevent]
    exact replies_postinitWrite hcmd hno
  · rw [nfcHalTask_service ans msg hstate]
    unfold nfcHalServiceSm
    rw [hevent]
    exact replies_serviceWrite hcmd

/-- **A response that is passed** is given to the stack. -/
theorem HalInfo.Passes.answered {h : HalInfo} {msg : HalMsg} (ans : HalAnswers)
    (hpasses : h.Passes msg.nciPacket) (hmsg : msg.IsRsp) : Answered (h.handle ans msg).2 := by
  obtain ⟨hevent, hrsp⟩ := hmsg
  refine Does.handle ?_
  unfold Does
  rcases hpasses with ⟨hstate, hno⟩ | hstate
  · rw [nfcHalTask_postinit ans msg hstate]
    unfold nfcHalPostinitSm
    rw [hevent]
    exact replies_postinitRead hrsp hno
  · rw [nfcHalTask_service ans msg hstate]
    unfold nfcHalServiceSm
    rw [hevent]
    exact replies_serviceRead hrsp

namespace HalSystem

/-! ## Where a command is -/

/-- Nothing is under way: the queue and the stream are empty, the threads wait,
no function of the stack runs and no response is outstanding. -/
structure Quiet (s : HalSystem) : Prop where
  msgQ : s.msgQ.contents = []
  task : s.task = .waiting
  reader : s.reader = .selecting ∨ s.reader = .ended
  api : s.api = []
  stream : s.stream = []
  unanswered : s.unanswered = []

/-- **The stack is not blocked**: when nothing is under way, the next command is
accepted. -/
def Unblocked (s : HalSystem) : Prop := s.Quiet → s.sending = false

/-- The task is about to answer, and to do nothing else that could be the end of
it. -/
def Answering : List TaskAction → Prop
  | [] => False
  | .effect e :: rest => e.Answers ∨ (e ≠ .fault ∧ Answering rest)
  | _ :: rest => Answering rest

/-- The task has a command, or a response, or is about to answer. -/
def OfTask (s : HalSystem) : Prop :=
  match s.task with
  | .got slot => (s.buffer slot).IsCommand
  | .read slot => (s.buffer slot).IsCommand ∨ (s.buffer slot).IsRsp
  | .doing _ rest => Answering rest
  | .waiting | .ended => False

/-- **A command of the stack is under way**, or its response. -/
inductive Pending (s : HalSystem) : Prop
  | put (slot : ℕ) (hapi : .writePut (some slot) ∈ s.api) (hcmd : (s.buffer slot).IsCommand)
  | queued (slot : ℕ) (hmem : slot ∈ s.queued) (hcmd : (s.buffer slot).IsCommand)
  | task (h : s.OfTask)
  | unanswered (h : s.unanswered ≠ [])
  | later (p : CtrlPacket) (hp : p ∈ s.sent.drop s.delivered.length) (hrsp : p.isRsp)

/-- The flag is about to be set for what is in the buffer, and as long as it is
set a command is under way. -/
structure Flows (s : HalSystem) : Prop where
  filled : ∀ slot command, .writeFilled (some slot) command ∈ s.api →
    (s.buffer slot).event = .write ∧ isCommand (s.buffer slot).param = command
  pending : s.sending = true → Pending s

/-- No command is lost with a full queue. -/
def Spared (s : HalSystem) (slots : List ℕ) : Prop :=
  s.Roomy ∨ ∀ slot ∈ s.queued ++ slots, ¬ (s.buffer slot).IsCommand

instance (s : HalSystem) (slots : List ℕ) : Decidable (s.Spared slots) :=
  inferInstanceAs (Decidable (_ ∨ _))

/-- An effect reaches whom it is for: the device takes a command whole, and
there is a data callback. -/
def Reaches (s : HalSystem) (whole : Bool) : HalEffect → Prop
  | .write pkt => isCommand pkt = true → whole = true
  | .data pkt => pkt.getD 0 0 >>> 4 = 4 → s.dataCback = true
  | _ => True

instance (s : HalSystem) (whole : Bool) : (e : HalEffect) → Decidable (s.Reaches whole e)
  | .write pkt => inferInstanceAs (Decidable (isCommand pkt = true → whole = true))
  | .data pkt => inferInstanceAs (Decidable (pkt.getD 0 0 >>> 4 = 4 → s.dataCback = true))
  | .setMode _ | .frame _ | .timerStart _ _ _ | .timerStop _ | .stack _ _ | .stateSwitch _ _
  | .deviceClose | .deviceOpen | .fault => isTrue trivial

/-- The next effect of the task. -/
def next (s : HalSystem) : Option HalEffect :=
  match s.task with
  | .doing _ (.effect e :: _) => some e
  | _ => none

/-- **The condition**, while the flag is set: a command is handled where it is
sent and not taken for an old one, a response where it is given to the stack and
not taken for the HAL's own, what is sent reaches the device and what is given
the stack, and no command is lost with a full queue. -/
def Answerable (s : HalSystem) : HalStep → Prop
  | .api n => ∀ t ∈ s.api[n]?, t.puts → s.Spared t.slots
  | .taskHandle _ => s.sending = true → ∀ slot ∈ s.handling,
      ((s.buffer slot).IsCommand → s.info.Takes (s.buffer slot).nciPacket) ∧
        ((s.buffer slot).IsRsp → s.info.Passes (s.buffer slot).nciPacket)
  | .taskAct whole => (s.task.puts → s.Spared []) ∧
      (s.sending = true → ∀ e ∈ s.next, s.Reaches whole e)
  | _ => True

instance (s : HalSystem) : (i : HalStep) → Decidable (s.Answerable i)
  | .api n => inferInstanceAs (Decidable (∀ t ∈ s.api[n]?, t.puts → s.Spared t.slots))
  | .taskHandle _ => inferInstanceAs (Decidable (s.sending = true → ∀ slot ∈ s.handling,
      ((s.buffer slot).IsCommand → s.info.Takes (s.buffer slot).nciPacket) ∧
        ((s.buffer slot).IsRsp → s.info.Passes (s.buffer slot).nciPacket)))
  | .taskAct whole => inferInstanceAs (Decidable ((s.task.puts → s.Spared []) ∧
      (s.sending = true → ∀ e ∈ s.next, s.Reaches whole e)))
  | .apiOpen _ _ | .apiWrite _ | .apiCoreInitialized _ | .apiControlGranted | .apiPowerCycle
  | .apiClose | .readHeader _ | .readerGet | .readerPut | .taskTake | .taskRead _
  | .controller _ => isTrue trivial

variable {s : HalSystem} {held : List ℕ} {slot : ℕ}

/-- **Nothing under way** means no command. -/
theorem Quiet.not_pending (h : s.Quiet) (ht : Tracks s) : ¬ Pending s := by
  have hqueued : s.queued = [] := by
    unfold queued
    rw [h.msgQ]
    rfl
  have hread : s.reader.slots = [] ∧ s.reader.inHand = [] := by
    rcases h.reader with hreader | hreader
    · rw [hreader]
      exact ⟨rfl, rfl⟩
    · rw [hreader]
      exact ⟨rfl, rfl⟩
  intro hpending
  cases hpending with
  | put slot hapi hcmd =>
    rw [h.api] at hapi
    exact absurd hapi not_mem_nil
  | queued slot hmem hcmd =>
    rw [hqueued] at hmem
    exact absurd hmem not_mem_nil
  | task htask =>
    unfold OfTask at htask
    rw [h.task] at htask
    exact htask
  | unanswered hne => exact hne h.unanswered
  | later p hp hrsp =>
    -- No message of a packet is on its way, and none is in the stream.
    obtain ⟨done, way, coming, hsplit⟩ := ht.split
    have hfresh : s.fresh = [] := by
      have horder := ht.order
      unfold arriving at horder
      rw [h.task, hqueued, hread.1] at horder
      exact horder.symm
    have hway : way = [] := by
      have hlen := hsplit.length_way
      rw [hfresh, hread.2] at hlen
      exact eq_nil_of_length_eq_zero hlen
    have hcoming : coming = [] := by
      have hstream := hsplit.stream
      rw [h.stream, hway, flatMap_nil, nil_append] at hstream
      cases coming with
      | nil => rfl
      | cons q coming => exact absurd hstream (by simp [CtrlPacket.bytes, CtrlPacket.header])
    have hdone : s.delivered.length = done.length := by
      rw [hsplit.delivered, length_map]
    rw [hdone, hsplit.sent, hway, hcoming, append_nil, append_nil, drop_length]
      at hp
    exact absurd hp not_mem_nil

theorem Flows.unblocked (h : Flows s) (ht : Tracks s) : Unblocked s := by
  intro hquiet
  cases hsending : s.sending with
  | false => rfl
  | true => exact absurd (h.pending hsending) (hquiet.not_pending ht)

/-! ## One step -/

variable {s' : HalSystem} {t : ApiThread} {n : ℕ}

/-- **What a step leaves of the commands**: it keeps those of the stack and of
the queue, and says what becomes of the others. -/
theorem Pending.frame (h : Pending s)
    (hapi : ∀ slot, .writePut (some slot) ∈ s.api → (s.buffer slot).IsCommand →
      .writePut (some slot) ∈ s'.api ∨ slot ∈ s'.queued)
    (hqueued : ∀ slot ∈ s.queued, (s.buffer slot).IsCommand →
      slot ∈ s'.queued ∨ s'.task = .got slot)
    (hbuffer : ∀ slot ∈ s.queued ++ s.api.flatMap ApiThread.slots, s'.buffer slot = s.buffer slot)
    (htask : s.OfTask → Pending s') (hunanswered : s.unanswered ≠ [] → Pending s')
    (hlater : ∀ p ∈ s.sent.drop s.delivered.length, p.isRsp → Pending s') : Pending s' := by
  cases h with
  | put slot hmem hcmd =>
    have hin : slot ∈ s.api.flatMap ApiThread.slots :=
      mem_flatMap.mpr ⟨_, hmem, mem_cons_self⟩
    rw [← hbuffer slot (mem_append_right _ hin)] at hcmd
    rcases hapi slot hmem (hbuffer slot (mem_append_right _ hin) ▸ hcmd) with hput | hput
    · exact .put slot hput hcmd
    · exact .queued slot hput hcmd
  | queued slot hmem hcmd =>
    have hsame := hbuffer slot (mem_append_left _ hmem)
    rcases hqueued slot hmem hcmd with hput | hgot
    · exact .queued slot hput (hsame ▸ hcmd)
    · refine .task ?_
      unfold OfTask
      rw [hgot]
      show (s'.buffer slot).IsCommand
      rw [hsame]
      exact hcmd
  | task hof => exact htask hof
  | unanswered hne => exact hunanswered hne
  | later p hp hrsp => exact hlater p hp hrsp

/-- The task is left alone, with its buffer. -/
theorem OfTask.frame (h : s.OfTask) (htask : s'.task = s.task)
    (hbuffer : ∀ slot ∈ s.task.slots, s'.buffer slot = s.buffer slot) : s'.OfTask := by
  unfold OfTask at h ⊢
  rw [htask]
  cases hs : s.task with
  | got slot =>
    rw [hs] at h hbuffer
    show (s'.buffer slot).IsCommand
    rw [hbuffer slot mem_cons_self]
    exact h
  | read slot =>
    rw [hs] at h hbuffer
    show (s'.buffer slot).IsCommand ∨ (s'.buffer slot).IsRsp
    rw [hbuffer slot mem_cons_self]
    exact h
  | doing slot rest =>
    rw [hs] at h
    exact h
  | waiting =>
    rw [hs] at h
    exact h
  | ended =>
    rw [hs] at h
    exact h

/-- **What is left alone**, and with it the flag: no thread of the stack has
come to set it, and no buffer in use is touched. -/
theorem Flows.frame (h : Flows s)
    (hfilled : ∀ slot command, .writeFilled (some slot) command ∈ s'.api →
      .writeFilled (some slot) command ∈ s.api)
    (hsending : s'.sending = true → s.sending = true)
    (hapi : ∀ slot, .writePut (some slot) ∈ s.api → (s.buffer slot).IsCommand →
      .writePut (some slot) ∈ s'.api ∨ slot ∈ s'.queued)
    (hbuffer : ∀ slot, 0 < s.uses slot → s'.buffer slot = s.buffer slot)
    (hqueued : ∀ slot ∈ s.queued, (s.buffer slot).IsCommand → slot ∈ s'.queued)
    (htask : s'.task = s.task) (hunanswered : s'.unanswered = s.unanswered)
    (hsent : s'.sent = s.sent) (hdelivered : s'.delivered = s.delivered) : Flows s' where
  filled slot command hmem := by
    have hold := hfilled slot command hmem
    have hin : slot ∈ s.api.flatMap ApiThread.slots :=
      mem_flatMap.mpr ⟨_, hold, mem_cons_self⟩
    have := count_pos_iff.mpr hin
    rw [hbuffer slot (by unfold uses; omega)]
    exact h.filled slot command hold
  pending hset := by
    refine (h.pending (hsending hset)).frame hapi
      (fun slot hmem hcmd => .inl (hqueued slot hmem hcmd)) (fun slot hmem => ?_)
      (fun hof => .task (hof.frame htask fun slot hmem => ?_))
      (fun hne => .unanswered (hunanswered ▸ hne)) fun p hp hrsp => ?_
    · refine hbuffer slot ?_
      rcases mem_append.mp hmem with hmem | hmem
      · have := count_pos_iff.mpr hmem
        unfold uses
        omega
      · have := count_pos_iff.mpr hmem
        unfold uses
        omega
    · refine hbuffer slot ?_
      have := count_pos_iff.mpr hmem
      unfold uses
      omega
    · rw [← hsent, ← hdelivered] at hp
      exact .later p hp hrsp

/-- A buffer that is handed out was not in use, and no other is touched. -/
theorem buffer_memGet (hh : Holds held s) (hget : s.memGet = (some slot, s')) (x : ℕ)
    (hx : 0 < s.uses x) : s'.buffer x = s.buffer x ∧ x ≠ slot := by
  have honce := (hh.memGet hget).once slot
  rw [count_cons_self] at honce
  unfold HalSystem.memGet at hget
  split at hget
  · exact absurd (congrArg Prod.fst hget) (by simp)
  · rename_i index mem heq
    obtain ⟨hslot, rfl⟩ := Prod.mk.inj hget
    obtain rfl := Option.some.inj hslot
    have hne : x ≠ index := by
      rintro rfl
      have honce : s.uses x + _ ≤ 1 := honce
      omega
    exact ⟨Function.update_of_ne hne _ _, hne⟩

/-- What else `OSI_mem_get` leaves alone. -/
theorem memGet_same {found : Option ℕ} (hget : s.memGet = (found, s')) :
    s'.queued = s.queued ∧ s'.sending = s.sending ∧ s'.unanswered = s.unanswered ∧
      s'.sent = s.sent ∧ s'.delivered = s.delivered := by
  unfold HalSystem.memGet at hget
  split at hget
  · rw [← (Prod.mk.inj hget).2]
    exact ⟨rfl, rfl, rfl, rfl, rfl⟩
  · rw [← (Prod.mk.inj hget).2]
    exact ⟨rfl, rfl, rfl, rfl, rfl⟩

theorem memGet_of_memGetFor {size : ℕ} (hget : s.memGetFor size = (some slot, s')) :
    s.memGet = (some slot, s') := by
  unfold HalSystem.memGetFor at hget
  split at hget
  · exact absurd (congrArg Prod.fst hget) (by simp)
  · exact hget

/-! ## The stack -/

theorem Flows.enter (h : Flows s) (ht : ∀ slot command, t ≠ .writeFilled (some slot) command) :
    Flows { s with api := s.api ++ [t] } := by
  refine h.frame (fun slot command hmem => ?_) id
    (fun slot hmem _ => .inl (mem_append_left _ hmem)) (fun _ _ => rfl)
    (fun _ hmem _ => hmem) rfl rfl rfl rfl
  rcases mem_append.mp hmem with hmem | hmem
  · exact hmem
  · exact absurd (mem_singleton.mp hmem).symm (ht slot command)

theorem mem_of_goesOn {t' : ApiThread} (hget : s.api[n]? = some t) (hmem : t' ∈ s.api)
    (hne : t' ≠ t) : t' ∈ s.api.eraseIdx n := by
  obtain ⟨hlt, ht⟩ := List.getElem?_eq_some_iff.mp hget
  have hperm := getElem_cons_eraseIdx_perm hlt
  rcases mem_cons.mp (hperm.mem_iff.mpr hmem) with hhead | hrest
  · exact absurd (hhead.trans ht) hne
  · exact hrest

/-- A thread of the stack that puts nothing goes on, to where it sets no flag. -/
theorem Flows.goesOn (h : Flows s) (hget : s.api[n]? = some t)
    (ht : ∀ slot, t ≠ .writePut (some slot)) {rest : List ApiThread}
    (hrest : ∀ slot command, .writeFilled (some slot) command ∉ rest) :
    Flows (s.goesOn n rest) := by
  refine h.frame (fun slot command hmem => ?_) id
    (fun slot hmem _ => .inl (mem_append_left _ ?_)) (fun _ _ => rfl)
    (fun _ hmem _ => hmem) rfl rfl rfl rfl
  · rcases mem_append.mp hmem with hmem | hmem
    · exact mem_of_mem_eraseIdx hmem
    · exact absurd hmem (hrest slot command)
  · exact mem_of_goesOn hget hmem (ht slot).symm

/-- **It is given a buffer**, and writes its message. -/
theorem Flows.given (h : Flows s) (hh : Holds [] s) {t' : ApiThread} (hget : s.api[n]? = some t)
    (ht : ∀ slot, t ≠ .writePut (some slot)) (heq : s.memGet = (some slot, s')) (msg : HalMsg)
    (ht' : ∀ slot' command, t' = .writeFilled (some slot') command →
      slot' = slot ∧ msg.event = .write ∧ isCommand msg.param = command) :
    Flows ((s'.fill slot msg).goesOn n [t']) := by
  obtain ⟨hqueued, hsending, hunanswered, hsent, hdelivered⟩ := memGet_same heq
  obtain ⟨hapi, htask, -⟩ := memGet_api heq
  have hbuffer (x : ℕ) (hx : 0 < s.uses x) : (s'.fill slot msg).buffer x = s.buffer x := by
    obtain ⟨hsame, hne⟩ := buffer_memGet hh heq x hx
    exact (Function.update_of_ne hne _ _).trans hsame
  have hgone : Flows ((s'.fill slot msg).goesOn n []) := by
    refine h.frame (fun x command hmem => ?_) (fun hset => hsending ▸ hset)
      (fun x hmem _ => .inl (mem_append_left _ ?_)) hbuffer (fun x hmem _ => hqueued ▸ hmem)
      htask hunanswered hsent hdelivered
    · have hmem : _ ∈ s'.api.eraseIdx n ++ [] := hmem
      rw [hapi, append_nil] at hmem
      exact mem_of_mem_eraseIdx hmem
    · show _ ∈ s'.api.eraseIdx n
      rw [hapi]
      exact mem_of_goesOn hget hmem (ht x).symm
  refine ⟨fun x command hmem => ?_, fun hset => ?_⟩
  · have hmem : _ ∈ s'.api.eraseIdx n ++ [t'] := hmem
    rcases mem_append.mp hmem with hmem | hmem
    · exact hgone.filled x command (mem_append_left _ hmem)
    · obtain ⟨rfl, hevent, hcommand⟩ := ht' x command (mem_singleton.mp hmem).symm
      show (Function.update s'.buffer x msg x).event = _ ∧
        isCommand (Function.update s'.buffer x msg x).param = _
      rw [Function.update_self]
      exact ⟨hevent, hcommand⟩
  · refine (hgone.pending hset).frame (fun x hmem _ => .inl ?_) (fun x hmem _ => .inl hmem)
      (fun _ _ => rfl) (fun hof => .task (hof.frame rfl fun _ _ => rfl))
      (fun hne => .unanswered hne) fun p hp hrsp => .later p hp hrsp
    have hmem : _ ∈ s'.api.eraseIdx n ++ [] := hmem
    rw [append_nil] at hmem
    exact mem_append_left _ hmem

/-- **It puts its message**: no command is lost. -/
theorem Flows.putApi (h : Flows s) (hh : Holds [] s) (hget : s.api[n]? = some t)
    (hspared : s.Spared t.slots) {rest : List ApiThread} {p : Ptr}
    (hrest : ∀ slot command, .writeFilled (some slot) command ∉ rest)
    (hput : ∀ slot, t = .writePut (some slot) → p = slotPtr slot) {sending : Bool}
    (hsending : sending = true → s.sending = true) :
    Flows { (s.put p).goesOn n rest with sending := sending } := by
  have hroom (hroomy : s.Roomy) : (s.put p).queued = s.queued ++ ptrSlots p :=
    queued_put_room (hh.queue.resolve_right fun hno => hno.1 hroomy.1) p hroomy.2
  refine h.frame (fun slot command hmem => ?_) hsending (fun slot hmem hcmd => ?_)
    (fun _ _ => rfl) (fun slot hmem hcmd => ?_) rfl rfl rfl rfl
  · rcases mem_append.mp hmem with hmem | hmem
    · exact mem_of_mem_eraseIdx hmem
    · exact absurd hmem (hrest slot command)
  · by_cases ht : t = .writePut (some slot)
    · rcases hspared with hroomy | hnone
      · have hheld : Holds [slot] (s.goesOn n []) := hh.goesOn hget fun x => by
          rw [ht]
          simp [ApiThread.slots]
        obtain ⟨hne, hslot⟩ := ptrSlot_slotPtr hheld.lt
        refine .inr ?_
        show slot ∈ (s.put p).queued
        rw [hroom hroomy, hput slot ht]
        unfold ptrSlots
        rw [if_neg hne, hslot]
        exact mem_append_right _ mem_cons_self
      · refine absurd hcmd (hnone slot (mem_append_right _ ?_))
        rw [ht]
        exact mem_cons_self
    · exact .inl (mem_append_left _ (mem_of_goesOn hget hmem fun heq => ht heq.symm))
  · rcases hspared with hroomy | hnone
    · show slot ∈ (s.put p).queued
      rw [hroom hroomy]
      exact mem_append_left _ hmem
    · exact absurd hcmd (hnone slot (mem_append_left _ hmem))

/-- **A thread of the stack goes on.** -/
theorem Flows.apiStep (h : Flows s) (hh : Holds [] s) (hget : s.api[n]? = some t)
    (hspared : t.puts → s.Spared t.slots) :
    Flows (s.apiStep n t) := by
  cases t with
  | write data =>
    rw [HalSystem.apiStep_write]
    split
    · rename_i s' heq
      obtain rfl := memGetFor_none heq
      exact h.goesOn hget (by simp) (by simp)
    · rename_i slot s' heq
      refine h.given hh hget (by simp) (memGet_of_memGetFor heq) _ fun slot' command heq' => ?_
      obtain ⟨hslot, hcommand⟩ := ApiThread.writeFilled.inj heq'
      exact ⟨(Option.some.inj hslot).symm, rfl, hcommand⟩
  | writeFilled msg command =>
    have hgone : Flows (s.goesOn n [.writePut msg]) := h.goesOn hget (by simp) (by simp)
    refine ⟨hgone.filled, fun hset => ?_⟩
    have hkept (hsending : s.sending = true) : Pending (s.apiStep n (.writeFilled msg command)) :=
      (hgone.pending hsending).frame (fun x hmem _ => .inl hmem) (fun x hmem _ => .inl hmem)
        (fun _ _ => rfl) (fun hof => .task (hof.frame rfl fun _ _ => rfl))
        (fun hne => .unanswered hne) fun p hp hrsp => .later p hp hrsp
    cases hsending : s.sending with
    | true => exact hkept hsending
    | false =>
      -- The flag is set for the command in the buffer.
      have hset : (s.sending || (command && msg.isSome)) = true := hset
      rw [hsending, Bool.false_or, Bool.and_eq_true] at hset
      obtain ⟨hcommand, hmsg⟩ := hset
      obtain ⟨slot, rfl⟩ := Option.isSome_iff_exists.mp hmsg
      have hmem := mem_of_getElem? hget
      obtain ⟨hevent, hparam⟩ := h.filled slot command hmem
      exact .put slot (mem_append_right _ mem_cons_self) ⟨hevent, hparam.trans hcommand⟩
  | writePut msg =>
    refine h.putApi hh hget (hspared trivial) (by simp) (fun slot heq => ?_) fun hset => ?_
    · rw [ApiThread.writePut.inj heq]
      rfl
    · exact (Bool.and_eq_true _ _ ▸ hset).1
  | post event param =>
    rw [HalSystem.apiStep_post]
    split
    · rename_i s' heq
      obtain rfl := memGetFor_none heq
      refine h.goesOn hget (by simp) fun slot command hmem => ?_
      unfold behindPost at hmem
      split at hmem <;> simp at hmem
    · rename_i slot s' heq
      exact h.given hh hget (by simp) (memGet_of_memGetFor heq) _ (by simp)
  | put event msg =>
    refine Flows.putApi h hh hget (hspared trivial) (fun slot command hmem => ?_) (by simp) id
    unfold behindPost at hmem
    split at hmem <;> simp at hmem
  | closing =>
    show Flows (if _ then _ else s)
    split
    · have hgone : Flows (s.goesOn n []) := h.goesOn hget (by simp) (by simp)
      exact hgone.frame (fun _ _ hmem => hmem) id (fun _ hmem _ => .inl hmem) (fun _ _ => rfl)
        (fun _ hmem _ => hmem) rfl rfl rfl rfl
    · exact h

/-- **The HAL is opened** with the flag down. -/
theorem Flows.apiOpen (h : Flows s) {ans : HalAnswers} {dataCback : Bool}
    (hsound : s.Sound (.apiOpen ans dataCback)) : Flows (s.apiOpen ans dataCback) := by
  unfold HalSystem.apiOpen
  by_cases hstate : s.info.state = .postinit
  · rw [if_pos hstate]
    exact h
  · rw [if_neg hstate]
    obtain ⟨-, -, hapi⟩ := hsound.resolve_left hstate
    obtain ⟨-, -, hapi'⟩ := init_threads s ans
    have hsending : (s.init ans).sending = false := by
      unfold init HalSystem.memGet
      dsimp only
      split <;> rfl
    dsimp only
    split
    · refine ⟨fun slot command hmem => ?_, fun hset => absurd (hsending.symm.trans hset) (by simp)⟩
      have hmem : _ ∈ (s.init ans).api ++ [.post .open []] := hmem
      rw [hapi', hapi] at hmem
      simp at hmem
    · refine ⟨fun slot command hmem => ?_, fun hset => absurd (hsending.symm.trans hset) (by simp)⟩
      rw [hapi', hapi] at hmem
      exact absurd hmem not_mem_nil

/-! ## The read thread -/

theorem Flows.readHeader (h : Flows s) (limit : ℕ) : Flows (s.readHeader limit) := by
  unfold HalSystem.readHeader
  split
  · dsimp only
    split
    · exact h.frame (fun _ _ hmem => hmem) id (fun _ hmem _ => .inl hmem) (fun _ _ => rfl)
        (fun _ hmem _ => hmem) rfl rfl rfl rfl
    · exact h.frame (fun _ _ hmem => hmem) id (fun _ hmem _ => .inl hmem) (fun _ _ => rfl)
        (fun _ hmem _ => hmem) rfl rfl rfl rfl
  · exact h

theorem Flows.readerGet (h : Flows s) (hh : Holds [] s) : Flows s.readerGet := by
  unfold HalSystem.readerGet
  split
  · split
    · rename_i s' heq
      obtain rfl := memGet_none heq
      exact h.frame (fun _ _ hmem => hmem) id (fun _ hmem _ => .inl hmem) (fun _ _ => rfl)
        (fun _ hmem _ => hmem) rfl rfl rfl rfl
    · rename_i slot s' heq
      obtain ⟨hqueued, hsending, hunanswered, hsent, hdelivered⟩ := memGet_same heq
      obtain ⟨hapi, htask, -⟩ := memGet_api heq
      refine h.frame (fun x command hmem => hapi ▸ hmem) (fun hset => hsending ▸ hset)
        (fun x hmem _ => .inl (hapi ▸ hmem)) (fun x hx => ?_) (fun x hmem _ => hqueued ▸ hmem)
        htask hunanswered hsent hdelivered
      obtain ⟨hsame, hne⟩ := buffer_memGet hh heq x hx
      exact (Function.update_of_ne hne _ _).trans hsame
  · exact h

theorem Flows.readerPut (h : Flows s) (hh : Holds [] s) (haligned : s.Aligned .readerPut) :
    Flows s.readerPut := by
  unfold HalSystem.readerPut
  split
  · rename_i slot hreader
    have hroom : s.Roomy := by
      refine haligned ?_
      rw [hreader]
      exact cons_ne_nil _ _
    have hshaped := hh.queue.resolve_right fun hno => hno.1 hroom.1
    refine h.frame (fun _ _ hmem => hmem) id (fun _ hmem _ => .inl hmem) (fun _ _ => rfl)
      (fun x hmem _ => ?_) rfl rfl rfl rfl
    show x ∈ (s.put (slotPtr slot)).queued
    rw [queued_put_room hshaped _ hroom.2]
    exact mem_append_left _ hmem
  · exact h

/-! ## The task -/

/-- **The task takes a message**, or ends. -/
theorem Flows.taskTake (h : Flows s) (hh : Holds [] s) : Flows s.taskTake := by
  unfold HalSystem.taskTake
  split
  · rename_i hwaiting
    have hget := queued_get hh.queue
    have hidle : ¬ s.OfTask := by
      unfold OfTask
      rw [hwaiting]
      exact id
    dsimp only
    by_cases hp : s.msgQ.queueGet.2 = 0
    · rw [if_pos hp]
      refine h.frame (fun _ _ hmem => hmem) id (fun _ hmem _ => .inl hmem) (fun _ _ => rfl)
        (fun x hmem _ => ?_) rfl rfl rfl rfl
      rw [hget] at hmem
      unfold ptrSlots at hmem
      rw [if_pos hp] at hmem
      exact hmem
    · rw [if_neg hp]
      have hfirst (x : ℕ) (hmem : x ∈ s.queued) : x = ptrSlot s.msgQ.queueGet.2 ∨
          x ∈ ({ s with msgQ := s.msgQ.queueGet.1 } : HalSystem).queued := by
        rw [hget] at hmem
        unfold ptrSlots at hmem
        rw [if_neg hp] at hmem
        exact mem_cons.mp hmem
      split
      · rename_i hterminate
        refine ⟨h.filled, fun hset => (h.pending hset).frame (fun _ hmem _ => .inl hmem)
          (fun x hmem hcmd => ?_) (fun _ _ => rfl) (fun hof => absurd hof hidle)
          (fun hne => .unanswered hne) fun p hp hrsp => .later p hp hrsp⟩
        rcases hfirst x hmem with rfl | hrest
        · exact absurd (hterminate.symm.trans hcmd.1) (by simp)
        · exact .inl hrest
      · refine ⟨h.filled, fun hset => (h.pending hset).frame (fun _ hmem _ => .inl hmem)
          (fun x hmem hcmd => ?_) (fun _ _ => rfl) (fun hof => absurd hof hidle)
          (fun hne => .unanswered hne) fun p hp hrsp => .later p hp hrsp⟩
        rcases hfirst x hmem with rfl | hrest
        · exact .inr rfl
        · exact .inl hrest
  · exact h

theorem reads_write (info : HalInfo) : info.reads .write = none := by
  unfold HalInfo.reads
  split <;> simp

/-- **The task reads the payload** of a packet, which may be a response. -/
theorem Flows.taskRead (h : Flows s) (hh : Holds [] s) (ht : Tracks s) {limit : ℕ}
    (hsound : s.Sound (.taskRead limit)) (haligned : s.Aligned (.taskRead limit)) :
    Flows (s.taskRead limit) := by
  unfold HalSystem.taskRead
  split
  · rename_i slot htask
    dsimp only
    have hof (hofTask : s.OfTask) : (s.buffer slot).IsCommand := by
      unfold OfTask at hofTask
      rw [htask] at hofTask
      exact hofTask
    split
    · refine ⟨h.filled, fun hset => (h.pending hset).frame (fun _ hmem _ => .inl hmem)
        (fun _ hmem _ => .inl hmem) (fun _ _ => rfl) (fun hofTask => .task (.inl (hof hofTask)))
        (fun hne => .unanswered hne) fun p hp hrsp => .later p hp hrsp⟩
    · rename_i kind hreads
      have hreading : s.reading = some (slot, kind) := by
        unfold reading
        rw [htask]
        show (s.info.reads _).map _ = _
        rw [hreads]
        rfl
      obtain ⟨hwhole, -⟩ := hsound (slot, kind) hreading
      obtain ⟨stream, hstream⟩ := readData_stream s kind (s.buffer slot) limit
      rw [if_pos hwhole, hstream]
      -- No other buffer is touched.
      have hother (x : ℕ) (hmem : x ∈ s.queued ++ s.api.flatMap ApiThread.slots) (msg : HalMsg) :
          Function.update s.buffer slot msg x = s.buffer x := by
        refine Function.update_of_ne ?_ _ _
        rintro rfl
        have honce := hh.once x
        unfold uses at honce
        rw [htask] at honce
        have htaken : (TaskThread.got x).slots.count x = 1 := count_cons_self ..
        rcases mem_append.mp hmem with hmem | hmem
        · have := count_pos_iff.mpr hmem
          omega
        · have := count_pos_iff.mpr hmem
          omega
      refine ⟨fun x command hmem => ?_, fun hset => (h.pending hset).frame
        (fun _ hmem _ => .inl hmem) (fun _ hmem _ => .inl hmem) (fun x hmem => hother x hmem _)
        (fun hofTask => ?_) (fun hne => .unanswered hne) fun p hp hrsp => ?_⟩
      · have hin : x ∈ s.api.flatMap ApiThread.slots :=
          mem_flatMap.mpr ⟨_, hmem, mem_cons_self⟩
        have hsame := hother x (mem_append_right _ hin)
          (withPayload (s.buffer slot) (s.readData kind (s.buffer slot) limit).1)
        show (Function.update s.buffer slot _ x).event = _ ∧
          isCommand (Function.update s.buffer slot _ x).param = _
        rw [hsame]
        exact h.filled x command hmem
      · rw [(hof hofTask).1, reads_write] at hreads
        exact absurd hreads (by simp)
      · -- The packet is the first on its way, or comes behind it.
        have hown : s.ReadsOwn slot := by
          refine haligned slot ?_
          rw [htask]
          exact mem_singleton_self slot
        unfold ReadsOwn at hown
        obtain ⟨done, way, coming, hsplit⟩ := ht.split
        rw [hsplit.underway_eq, hreads] at hown
        have horder := ht.order
        unfold arriving at horder
        rw [htask, append_assoc] at horder
        have hfresh : slot ∈ s.fresh := by
          by_contra hno
          rw [if_neg hno] at hown
          exact absurd hown (by simp)
        have horder : (slot :: (s.queued ++ s.reader.slots)).filter (· ∈ s.fresh) = s.fresh :=
          horder
        rw [filter_cons_of_pos (by simpa using hfresh)] at horder
        have hmessages := hsplit.messages
        rw [← horder, map_cons, cons_append] at hmessages
        have hdone : s.delivered.length = done.length := by
          rw [hsplit.delivered, length_map]
        cases way with
        | nil => exact absurd hmessages (by simp)
        | cons q way =>
          obtain ⟨hbuffer, -⟩ := List.cons.inj hmessages
          have hlater : s.sent.drop s.delivered.length = q :: (way ++ coming) := by
            rw [hdone, hsplit.sent, append_assoc, drop_left]
            rfl
          rw [hlater] at hp
          rcases mem_cons.mp hp with rfl | hp
          · refine .task (.inr ?_)
            show (Function.update s.buffer slot _ slot).IsRsp
            rw [Function.update_self, ← hbuffer]
            exact ⟨rfl, hrsp.2⟩
          · refine .later p ?_ hrsp
            show p ∈ s.sent.drop (s.delivered ++ [_]).length
            rw [length_append, ← drop_drop, hlater]
            exact hp
  · exact h

theorem answering_of_answered {out : List HalEffect} (h : Answered out) :
    Answering (out.map .effect) := by
  obtain ⟨hno, e, he, hanswers⟩ := h
  induction out with
  | nil => exact absurd he not_mem_nil
  | cons a out ih =>
    rw [mem_cons, not_or] at hno
    rcases mem_cons.mp he with rfl | he
    · exact .inl hanswers
    · exact .inr ⟨fun heq => hno.1 heq.symm, ih hno.2 he⟩

/-- **The state machine answers** what it is given. -/
theorem Flows.taskHandle (h : Flows s) {ans : HalAnswers} (hsound : s.Sound (.taskHandle ans))
    (hanswerable : s.Answerable (.taskHandle ans)) : Flows (s.taskHandle ans) := by
  unfold HalSystem.taskHandle
  split
  · rename_i slot htask
    have hhandling : s.handling = some slot := by
      unfold handling
      rw [htask]
    have hback := hsound slot hhandling
    dsimp only
    rw [if_neg hback, append_nil]
    refine ⟨h.filled, fun hset => (h.pending hset).frame (fun _ hmem _ => .inl hmem)
      (fun _ hmem _ => .inl hmem) (fun _ _ => rfl) (fun hof => ?_)
      (fun hne => .unanswered hne) fun p hp hrsp => .later p hp hrsp⟩
    obtain ⟨htakes, hpasses⟩ := hanswerable hset slot hhandling
    unfold OfTask at hof
    rw [htask] at hof
    refine .task ?_
    rcases hof with hcmd | hrsp
    · exact answering_of_answered ((htakes hcmd).answered ans hcmd)
    · exact answering_of_answered ((hpasses hrsp).answered ans hrsp)
  · exact h

/-- An effect that leaves the rest to do. -/
theorem Flows.rest (h : Flows s) {slot : ℕ} {a : TaskAction} {rest : List TaskAction}
    (htask : s.task = .doing slot (a :: rest)) (hapi : s'.api = s.api)
    (hsending : s'.sending = true → s.sending = true)
    (hbuffer : ∀ slot ∈ s.queued ++ s.api.flatMap ApiThread.slots, s'.buffer slot = s.buffer slot)
    (hqueued : ∀ slot ∈ s.queued, (s.buffer slot).IsCommand → slot ∈ s'.queued)
    (hdoes : s'.sending = true → Answering (a :: rest) → Pending s')
    (hunanswered : s.unanswered ≠ [] → s'.unanswered ≠ []) (hsent : s'.sent = s.sent)
    (hdelivered : s'.delivered = s.delivered) : Flows s' where
  filled x command hmem := by
    rw [hapi] at hmem
    have hin : x ∈ s.api.flatMap ApiThread.slots :=
      mem_flatMap.mpr ⟨_, hmem, mem_cons_self⟩
    rw [hbuffer x (mem_append_right _ hin)]
    exact h.filled x command hmem
  pending hset := by
    refine (h.pending (hsending hset)).frame (fun _ hmem _ => .inl (hapi ▸ hmem))
      (fun x hmem hcmd => .inl (hqueued x hmem hcmd)) hbuffer (fun hof => ?_)
      (fun hne => .unanswered (hunanswered hne)) fun p hp hrsp => ?_
    · unfold OfTask at hof
      rw [htask] at hof
      exact hdoes hset hof
    · rw [← hsent, ← hdelivered] at hp
      exact .later p hp hrsp

theorem pending_rest {slot : ℕ} {e : HalEffect} {rest : List TaskAction}
    (htask : s'.task = .doing slot rest) (he : ¬ e.Answers) (h : Answering (.effect e :: rest)) :
    Pending s' := by
  refine .task ?_
  unfold OfTask
  rw [htask]
  exact (h.resolve_left he).2

variable {e : HalEffect} {rest : List TaskAction} {whole : Bool}

/-- What neither writes nor answers leaves everything to the rest. -/
theorem Flows.pass (h : Flows s) (htask : s.task = .doing slot (.effect e :: rest))
    (he : ¬ e.Answers) (htask' : s'.task = .doing slot rest) (hapi : s'.api = s.api)
    (hsending : s'.sending = s.sending) (hbuffer : s'.buffer = s.buffer)
    (hqueued : s'.queued = s.queued) (hunanswered : s'.unanswered = s.unanswered)
    (hsent : s'.sent = s.sent) (hdelivered : s'.delivered = s.delivered) : Flows s' :=
  h.rest htask hapi (fun hset => hsending ▸ hset) (fun x _ => congrFun hbuffer x)
    (fun _ hmem _ => hqueued ▸ hmem) (fun _ hdoes => pending_rest htask' he hdoes)
    (fun hne => hunanswered ▸ hne) hsent hdelivered

/-- A slot is taken for the message that switches the state. -/
theorem Flows.performSwitch (h : Flows s) (hh : Holds [] s) {event : HalEvent} {state : HalState}
    (htask : s.task = .doing slot (.effect (.stateSwitch event state) :: rest)) :
    Flows (s.perform slot rest whole (.stateSwitch event state)) := by
  rw [HalSystem.perform_stateSwitch]
  split
  · rename_i s' heq
    obtain rfl := memGet_none heq
    exact h.pass htask id rfl rfl rfl rfl rfl rfl rfl rfl
  · rename_i newMsg s' heq
    obtain ⟨hqueued, hsending, hunanswered, hsent, hdelivered⟩ := memGet_same heq
    obtain ⟨hapi, -, -⟩ := memGet_api heq
    refine h.rest htask hapi (fun hset => hsending ▸ hset) (fun x hmem => ?_)
      (fun x hmem _ => hqueued ▸ hmem) (fun _ hdoes => .task ?_)
      (fun hne => hunanswered ▸ hne) hsent hdelivered
    · refine (buffer_memGet hh heq x ?_).1
      rcases mem_append.mp hmem with hmem | hmem
      · have := count_pos_iff.mpr hmem
        unfold uses
        omega
      · have := count_pos_iff.mpr hmem
        unfold uses
        omega
    · exact (hdoes.resolve_left id).2

/-- A command that is written is to be answered. -/
theorem Flows.performWrite (h : Flows s) {pkt : List (BitVec 8)}
    (htask : s.task = .doing slot (.effect (.write pkt) :: rest))
    (hreaches : s.sending = true → s.Reaches whole (.write pkt)) :
    Flows (s.perform slot rest whole (.write pkt)) := by
  show Flows { s.deviceWrite pkt whole with task := .doing slot rest }
  by_cases hcmd : isCommand pkt = true
  · refine h.rest htask ?_ (fun hset => ?_) (fun _ _ => ?_) (fun _ hmem _ => ?_)
      (fun hset hdoes => ?_) (fun hne => ?_) ?_ ?_
    all_goals unfold deviceWrite at *
    all_goals dsimp only at *
    · split <;> rfl
    · split at hset <;> exact hset
    · split <;> rfl
    · split <;> exact hmem
    · have hsending : s.sending = true := by split at hset <;> exact hset
      refine .unanswered ?_
      rw [if_pos ⟨hreaches hsending hcmd, hcmd⟩]
      simp
    · split
      · simp
      · exact hne
    · split <;> rfl
    · split <;> rfl
  · have hsame : s.deviceWrite pkt whole = s := by
      unfold deviceWrite
      exact if_neg fun hboth => hcmd hboth.2
    rw [hsame]
    exact h.pass htask hcmd rfl rfl rfl rfl rfl rfl rfl rfl

/-- And a response that is given to the stack answers one. -/
theorem Flows.performData (h : Flows s) {pkt : List (BitVec 8)}
    (htask : s.task = .doing slot (.effect (.data pkt) :: rest))
    (hreaches : s.sending = true → s.Reaches whole (.data pkt)) :
    Flows (s.perform slot rest whole (.data pkt)) := by
  show Flows { s.dataCallback pkt with task := .doing slot rest }
  by_cases hrsp : pkt.getD 0 0 >>> 4 = 4
  · by_cases hcback : s.dataCback = true
    · have hdown : s.dataCallback pkt = { s with sending := false } :=
        if_pos ⟨hcback, hrsp⟩
      rw [hdown]
      exact h.rest htask rfl (fun hset => absurd hset (by simp)) (fun _ _ => rfl)
        (fun _ hmem _ => hmem) (fun hset => absurd hset (by simp)) id rfl rfl
    · have hsame : s.dataCallback pkt = s := if_neg fun hboth => hcback hboth.1
      rw [hsame]
      exact h.rest htask rfl id (fun _ _ => rfl) (fun _ hmem _ => hmem)
        (fun hset => absurd (hreaches hset hrsp) hcback) id rfl rfl
  · have hsame : s.dataCallback pkt = s := if_neg fun hboth => hrsp hboth.2
    rw [hsame]
    exact h.pass htask hrsp rfl rfl rfl rfl rfl rfl rfl rfl

theorem Flows.perform (h : Flows s) (hh : Holds [] s)
    (htask : s.task = .doing slot (.effect e :: rest))
    (hreaches : s.sending = true → s.Reaches whole e) : Flows (s.perform slot rest whole e) := by
  cases e with
  | stateSwitch event state => exact h.performSwitch hh htask
  | write pkt => exact h.performWrite htask hreaches
  | data pkt => exact h.performData htask hreaches
  | deviceClose =>
    show Flows (if _ then _ else s)
    split
    · exact h.pass htask id rfl rfl rfl rfl rfl rfl rfl rfl
    · exact h
  | fault =>
    refine h.rest htask rfl id (fun _ _ => rfl) (fun _ hmem _ => hmem) (fun _ hdoes => ?_) id
      rfl rfl
    exact absurd rfl (hdoes.resolve_left id).1
  | deviceOpen | setMode _ | frame _ | timerStart _ _ _ | timerStop _ | stack _ _ =>
    exact h.pass htask id rfl rfl rfl rfl rfl rfl rfl rfl

/-- **The task does what comes next**: a command that is written is to be
answered, and a response that is given to the stack takes the flag down. -/
theorem Flows.taskAct (h : Flows s) (hh : Holds [] s)
    (hanswerable : s.Answerable (.taskAct whole)) : Flows (s.taskAct whole) := by
  unfold HalSystem.taskAct
  split
  · rename_i slot e rest htask
    refine h.perform hh htask fun hset => hanswerable.2 hset e ?_
    rw [next, htask]
    rfl
  · rename_i slot event state newMsg rest htask
    have hspared : s.Spared [] := by
      refine hanswerable.1 ?_
      rw [htask]
      trivial
    have hheld : Holds [newMsg] { s with task := .doing slot rest } := hh.pass htask
    have hnew (x : ℕ) (hmem : x ∈ s.queued ++ s.api.flatMap ApiThread.slots) : x ≠ newMsg := by
      rintro rfl
      have honce := hheld.once x
      rw [count_cons_self] at honce
      unfold uses at honce
      rcases mem_append.mp hmem with hmem | hmem
      · have hpos : 0 < List.count x ({ s with task := .doing slot rest } : HalSystem).queued :=
          count_pos_iff.mpr hmem
        omega
      · have := count_pos_iff.mpr hmem
        dsimp only at honce
        omega
    refine h.rest htask rfl id (fun x hmem => Function.update_of_ne (hnew x hmem) _ _)
      (fun x hmem hcmd => ?_) (fun _ hdoes => .task hdoes) id rfl rfl
    rcases hspared with hroomy | hnone
    · have hshaped := hh.queue.resolve_right fun hno => hno.1 hroomy.1
      show x ∈ (s.put (slotPtr newMsg)).queued
      rw [queued_put_room hshaped _ hroomy.2]
      exact mem_append_left _ hmem
    · exact absurd hcmd (hnone x (mem_append_left _ hmem))
  · rename_i slot rest htask
    have hkeeps := hh.ready.1
    rw [htask] at hkeeps
    exact absurd mem_cons_self hkeeps
  · rename_i slot htask
    refine ⟨h.filled, fun hset => (h.pending hset).frame (fun _ hmem _ => .inl hmem)
      (fun _ hmem _ => .inl hmem) (fun _ _ => rfl) (fun hof => ?_) (fun hne => .unanswered hne)
      fun p hp hrsp => .later p hp hrsp⟩
    unfold OfTask at hof
    rw [htask] at hof
    exact absurd hof id
  · exact h

/-- **Every step.** -/
theorem Flows.step (h : Flows s) (hh : Holds [] s) (ht : Tracks s) (i : HalStep)
    (hsound : s.Sound i) (haligned : s.Aligned i) (hanswerable : s.Answerable i) :
    Flows (HalSystem.step s i) := by
  cases i with
  | apiOpen ans dataCback => exact h.apiOpen hsound
  | apiWrite data =>
    show Flows (if _ then s else _)
    split
    · exact h
    · exact h.enter (by simp)
  | apiCoreInitialized params =>
    show Flows (if _ then _ else s)
    split
    · exact h.enter (by simp)
    · exact h
  | apiControlGranted => exact h.enter (by simp)
  | apiPowerCycle =>
    show Flows (if _ then s else _)
    split
    · exact h
    · exact h.enter (by simp)
  | apiClose =>
    show Flows (if _ then s else _)
    split
    · exact h
    · exact h.enter (by simp)
  | api n =>
    show Flows ((s.api[n]?).elim s (s.apiStep n))
    cases hget : s.api[n]? with
    | none => exact h
    | some t => exact h.apiStep hh hget (hanswerable t hget)
  | readHeader limit => exact h.readHeader limit
  | readerGet => exact h.readerGet hh
  | readerPut => exact h.readerPut hh haligned
  | taskTake => exact h.taskTake hh
  | taskRead limit => exact h.taskRead hh ht hsound haligned
  | taskHandle ans => exact h.taskHandle hsound hanswerable
  | taskAct whole => exact h.taskAct hh hanswerable
  | controller p =>
    -- A response that answers a command is under way itself.
    obtain ⟨done, way, coming, hsplit⟩ := ht.split
    have hdone : s.delivered.length ≤ s.sent.length := by
      rw [hsplit.delivered, hsplit.sent, length_map, length_append, length_append]
      omega
    refine ⟨h.filled, fun hset => (h.pending hset).frame (fun _ hmem _ => .inl hmem)
      (fun _ hmem _ => .inl hmem) (fun _ _ => rfl) (fun hof => .task hof) (fun hne => ?_)
      fun q hq hrsp => ?_⟩
    · by_cases hrsp : p.isRsp
      · refine .later p ?_ hrsp
        show p ∈ (s.sent ++ [p]).drop s.delivered.length
        rw [drop_append_of_le_length hdone]
        exact mem_append_right _ mem_cons_self
      · refine .unanswered ?_
        show (if p.isRsp then _ else s.unanswered) ≠ []
        rw [if_neg hrsp]
        exact hne
    · refine .later q ?_ hrsp
      show q ∈ (s.sent ++ [p]).drop s.delivered.length
      rw [drop_append_of_le_length hdone]
      exact mem_append_left _ hq

theorem flows_initial : Flows initial :=
  ⟨fun _ _ hmem => absurd hmem not_mem_nil, fun hset => absurd hset (by decide)⟩

/-- **The stack is not blocked** in any state of a run in which, besides what
keeps the packets framed, its commands are sent and reach the device, the
responses are given to it, and no command is lost with a full queue. -/
theorem commands_flow (steps : List HalStep)
    (h : Run.Throughout step (fun s i => s.Sound i ∧ s.Aligned i ∧ s.Answerable i)
      initial steps) : Run.Always step Unblocked initial steps := by
  have hinv : Run.Always step (fun s => Holds [] s ∧ Tracks s ∧ Flows s) initial steps :=
    Run.Always.of_invariant
      (fun _ i hs hc => ⟨hs.1.step i hc.1, hs.2.1.step hs.1 i hc.1 hc.2.1,
        hs.2.2.step hs.1 hs.2.1 i hc.1 hc.2.1 hc.2.2⟩)
      ⟨holds_initial, tracks_initial, flows_initial⟩ h
  exact hinv.mono fun _ hs => hs.2.2.unblocked hs.2.1

/-- The exchange of commands and responses: the stack writes while the HAL is
initialised or in service, and its commands are handled there; the controller
takes each command, and sends what is expected of it, each response for a
command. -/
def Exchanging (s : HalSystem) : HalStep → Prop
  | .apiWrite _ => s.info.state = .postinit ∨ s.info.state = .service
  | .apiCoreInitialized _ | .apiControlGranted | .apiPowerCycle | .apiClose => False
  | .taskHandle _ => ∀ slot ∈ s.handling, (s.buffer slot).IsCommand →
      s.info.state = .postinit ∨ s.info.state = .service
  | .taskAct whole => whole = true
  | .controller p => s.info.expects = some p.kind ∧ (p.isRsp → p.command ∈ s.unanswered)
  | _ => True

instance (s : HalSystem) : (i : HalStep) → Decidable (s.Exchanging i)
  | .apiWrite _ => inferInstanceAs (Decidable (s.info.state = .postinit ∨ s.info.state = .service))
  | .apiCoreInitialized _ | .apiControlGranted | .apiPowerCycle | .apiClose => isFalse id
  | .taskHandle _ => inferInstanceAs (Decidable (∀ slot ∈ s.handling, (s.buffer slot).IsCommand →
      s.info.state = .postinit ∨ s.info.state = .service))
  | .taskAct whole => inferInstanceAs (Decidable (whole = true))
  | .controller p => inferInstanceAs
      (Decidable (s.info.expects = some p.kind ∧ (p.isRsp → p.command ∈ s.unanswered)))
  | .apiOpen _ _ | .api _ | .readHeader _ | .readerGet | .readerPut | .taskTake
  | .taskRead _ => isTrue trivial

/-- The task handles the next message. -/
def handlingNext (acts : ℕ) : List HalStep :=
  [.taskTake, .taskRead 100, .taskHandle .plain] ++ List.replicate acts (.taskAct true)

/-- A packet is sent, and handled. -/
def receiving (p : CtrlPacket) (acts : ℕ) : List HalStep :=
  [.controller p, .readHeader 3, .readerGet, .readerPut] ++ handlingNext acts

/-- A packet of the stack is written, and handled. -/
def writing (data : List (BitVec 8)) (acts : ℕ) : List HalStep :=
  [.apiWrite data, .api 0, .api 0, .api 0] ++ handlingNext acts

/-- A chip that is started without an update. -/
def n5Info : CtrlPacket where
  kind := .fw
  oct0 := 0
  oid := 0
  len := 8
  payload := [0, 0x05, 0, 0, 0, 0, 2, 0, 0]
  size := rfl

def resetRsp : CtrlPacket where
  kind := .nci
  oct0 := 0x40
  oid := 0
  len := 3
  payload := [0, 0x10, 0]
  size := rfl

theorem status_size : [(0 : BitVec 8)].length = (1 : BitVec 8).toNat := rfl

def initRsp : CtrlPacket where
  kind := .nci
  oct0 := 0x40
  oid := 1
  len := 1
  payload := [0]
  size := status_size

/-- The HAL is opened, and has reset the controller. -/
def started : List HalStep := opening ++ receiving n5Info 5 ++ receiving resetRsp 4

/-- As when the stack's first command is answered. -/
theorem commands_flow_started :
    Run.Always step Unblocked initial (started ++ writing [0x20, 1, 0] 5 ++ receiving initRsp 4) :=
  commands_flow (started ++ writing [0x20, 1, 0] 5 ++ receiving initRsp 4) (by decide +kernel)

/-- **A second reset is not sent**, and the stack is blocked. -/
theorem not_commands_flow :
    ¬ ∀ steps : List HalStep, Run.Throughout step Exchanging initial steps →
      Run.Always step Unblocked initial steps := by
  intro h
  have hlast := (h (started ++ writing [0x20, 0, 1, 0] 5) (by decide +kernel)).last
  have hquiet : ((started ++ writing [0x20, 0, 1, 0] 5).foldl step initial).Quiet :=
    ⟨by decide +kernel, by decide +kernel, by decide +kernel, by decide +kernel,
      by decide +kernel, by decide +kernel⟩
  exact absurd (hlast hquiet) (by decide +kernel)

end HalSystem

end ExynosVendor.Nfc
