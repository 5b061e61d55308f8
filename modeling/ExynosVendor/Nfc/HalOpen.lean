import ExynosVendor.Nfc.HalEffects
import ExynosVendor.Nfc.HalSystem

/-!
# The answer to `nfc_hal_open`

The open procedure as the task runs it: the messages of the queue are handled
one after the other by `nfc_hal_open_sm` and `nfc_hal_fw_sm`, and the open is
over when the HAL leaves their states. A response of the controller comes at any
time, of any content.

A failure is reported without an end to the procedure: the next response goes
on from the same state, and a wrong response to the last `CORE_INIT` goes on by
itself.
-/

namespace ExynosVendor.Nfc

open List

/-- An event that ends the procedure. -/
def HalEvent.Ends (e : HalEvent) : Prop := e = .complete ∨ e = .completeFailed

instance (e : HalEvent) : Decidable e.Ends := inferInstanceAs (Decidable (_ ∨ _))

/-- A message of the queue, and whether it is a response of the controller. -/
structure Posted where
  msg : HalMsg
  rsp : Bool

/-- What is reported to the stack, with the NCI responses that were awaited
since the last change of the mode: whether each was the one, and accepted. -/
structure Report where
  event : StackEvent
  status : StackStatus
  awaited : List Bool
  deriving DecidableEq

/-- The open procedure. -/
structure OpenRun where
  info : HalInfo
  queue : List Posted
  /-- A read outside the image has ended the task. -/
  ended : Bool
  awaited : List Bool
  log : List Report

/-- What comes next. -/
inductive OpenStep where
  /-- The read thread posts the header of a response. -/
  | response (oct0 oid len : BitVec 8)
  /-- The task handles a message: it finds so much of the payload, and may find
  memory for a message of its own. -/
  | task (payload : List (BitVec 8)) (ans : HalAnswers) (room : Bool)

/-- `nfc_hal_open_sm` and `nfc_hal_fw_sm` are at work. -/
def HalInfo.Opening (h : HalInfo) : Prop :=
  h.state = .init ∨ h.state = .deinit ∨ h.state = .open ∨ h.state = .fw

instance (h : HalInfo) : Decidable h.Opening := inferInstanceAs (Decidable (_ ∨ _))

/-- A state of the firmware awaits an NCI response. -/
def HalInfo.Awaits (h : HalInfo) : Prop := h.state = .fw ∧ h.fw.state.w4NciRsp = true

instance (h : HalInfo) : Decidable h.Awaits := inferInstanceAs (Decidable (_ ∧ _))

/-- The response a state awaits, with a status it accepts. -/
def HalInfo.Accepts (h : HalInfo) (pkt : NciPkt) : Prop :=
  match h.fw.state with
  | .w4NciPropFwCfg => pkt.answers nciGidProp nciPropFwCfg ∧ fwCfgAccepted pkt.status
  | .w4NciResetRsp | .w4NciResetVtsRsp =>
      pkt.answers nciGidCore nciCoreReset ∧ pkt.status = nciStatusOk
  | .w4NciInitRsp | .w4NciInitVtsRsp =>
      pkt.answers nciGidCore nciCoreInit ∧ pkt.status = nciStatusOk
  | _ => False

instance (h : HalInfo) (pkt : NciPkt) : Decidable (h.Accepts pkt) := by
  unfold HalInfo.Accepts
  split <;> infer_instance

namespace OpenRun

/-- `nfc_hal_open` has posted its message. -/
def started (info : HalInfo) : OpenRun where
  info := { info with state := .open }
  queue := [⟨⟨.open, []⟩, false⟩]
  ended := false
  awaited := []
  log := []

/-- The message with what is read of its payload. -/
def withRead (h : HalInfo) (payload : List (BitVec 8)) (msg : HalMsg) : HalMsg :=
  match h.reads msg.event with
  | none => msg
  | some .nci => HalSystem.withPayload msg (payload.take (msg.byte 2).toNat)
  | some .fw => HalSystem.withPayload msg payload

/-- The effects of a message, one after the other. What is reported is reported
with the responses that were awaited up to the message. -/
def perform (msg : HalMsg) (room : Bool) (seen : List Bool) : List HalEffect → OpenRun → OpenRun
  | [], s => s
  | .fault :: _, s => { s with ended := true }
  | .setMode _ :: rest, s => perform msg room seen rest { s with awaited := [] }
  | .stack event status :: rest, s =>
      perform msg room seen rest { s with log := s.log ++ [⟨event, status, seen⟩] }
  | .stateSwitch event state :: rest, s =>
      perform msg room seen rest
        (if room then
          { s with
            info := { s.info with state := state }
            queue := s.queue ++ [⟨{ msg.copied with event := event }, false⟩] }
        else s)
  | _ :: rest, s => perform msg room seen rest s

/-- The responses that were awaited, with that of a message. -/
def judge (h : HalInfo) (m : Posted) (msg : HalMsg) (awaited : List Bool) : List Bool :=
  if h.Awaits ∧ msg.event = .read then awaited ++ [m.rsp && decide (h.Accepts msg.nciPacket)]
  else awaited

/-- The task handles its first message. -/
def task (s : OpenRun) (payload : List (BitVec 8)) (ans : HalAnswers) (room : Bool) : OpenRun :=
  match s.queue with
  | [] => s
  | m :: queue =>
      if s.ended = true ∨ ¬ s.info.Opening then s
      else
        let msg := withRead s.info payload m.msg
        let seen := judge s.info m msg s.awaited
        perform msg room seen (s.info.handle ans msg).2
          { s with
            info := (s.info.handle ans msg).1
            queue := queue
            awaited := seen }

/-- One step. -/
def step (s : OpenRun) : OpenStep → OpenRun
  | .response oct0 oid len =>
      { s with queue := s.queue ++ [⟨⟨.read, [oct0, oid, len]⟩, true⟩] }
  | .task payload ans room => s.task payload ans room

/-- **The answer to `nfc_hal_open`**: there is one at most; it is a success only
when each response that was awaited since the last change of the mode was the
one, and accepted; and no success follows a failure. -/
structure Truthful (s : OpenRun) : Prop where
  once : (s.log.filter fun e => e.event = .openCplt).length ≤ 1
  accepted : ∀ e ∈ s.log, e.event = .openCplt → e.status = .ok → ∀ b ∈ e.awaited, b = true
  final : s.log.Pairwise fun e e' => e.status ≠ .ok → e'.status ≠ .ok

/-- **The condition**: when the task takes a response, nothing has failed, no
end is posted, and in the states of the firmware each response since the last
change of the mode was the one, and accepted; so is that to the last
`CORE_INIT`, and what answers `FW_CFG` for an old chip is a response at all. -/
def Proper (s : OpenRun) : OpenStep → Prop
  | .response _ _ _ => True
  | .task payload _ _ => ∀ m ∈ s.queue.head?, m.msg.event = .read → s.info.Opening →
      (∀ e ∈ s.log, e.status = .ok) ∧ (∀ m ∈ s.queue, ¬ m.msg.event.Ends) ∧
      (s.info.state = .fw → (∀ b ∈ s.awaited, b = true) ∧
        (s.info.fw.state = .w4NciInitVtsRsp →
          m.rsp = true ∧ s.info.Accepts (withRead s.info payload m.msg).nciPacket) ∧
        (s.info.fw.state = .w4NciPropFwCfg → s.info.fw.bl.product < snfcN7 → m.rsp = true))

instance (s : OpenRun) : (i : OpenStep) → Decidable (s.Proper i)
  | .response _ _ _ => isTrue trivial
  | .task payload _ _ =>
      inferInstanceAs (Decidable (∀ m ∈ s.queue.head?, m.msg.event = .read → s.info.Opening →
        (∀ e ∈ s.log, e.status = .ok) ∧ (∀ m ∈ s.queue, ¬ m.msg.event.Ends) ∧
        (s.info.state = .fw → (∀ b ∈ s.awaited, b = true) ∧
          (s.info.fw.state = .w4NciInitVtsRsp →
            m.rsp = true ∧ s.info.Accepts (withRead s.info payload m.msg).nciPacket) ∧
          (s.info.fw.state = .w4NciPropFwCfg → s.info.fw.bl.product < snfcN7 → m.rsp = true))))

end OpenRun

/-! ## What the state machines report -/

/-- An effect that reports nothing and ends nothing. -/
def HalEffect.Silent : HalEffect → Prop
  | .stack _ _ => False
  | .stateSwitch event _ => event = .read
  | _ => True

/-- **A response leads to one report at most**, of a failure, or to the end of
the procedure, and then to nothing else. -/
def Concludes (ok : Prop) (out : List HalEffect) : Prop :=
  ∃ l t, out = l ++ t ∧ (∀ e ∈ l, e.Silent) ∧
    (t = [] ∨ (∃ event, t = [.stack event .failed]) ∨
      ∃ event state, t = [.stateSwitch event state] ∧ event.Ends ∧ (event = .complete → ok))

section Functions

variable {α β : Type} {m : HalM α} {f : α → HalM β} {r : HalRun} {ok : Prop} (ans : HalAnswers)

theorem Emits.concludes (h : Emits HalEffect.Silent m r) : Does (Concludes ok) m r :=
  Does.mono h fun out hout => ⟨out, [], (append_nil _).symm, hout, .inl rfl⟩

theorem Concludes.behind (h : Emits HalEffect.Silent m r)
    (hf : Does (Concludes ok) (f (m r).1) (m r).2) : Does (Concludes ok) (m >>= f) r := by
  refine Does.bind h hf fun out out' hout hend => ?_
  obtain ⟨l, t, rfl, hl, ht⟩ := hend
  refine ⟨out ++ l, t, (append_assoc ..).symm, fun e he => ?_, ht⟩
  rcases mem_append.mp he with he | he
  · exact hout e he
  · exact hl e he

theorem concludes_failed (event : StackEvent) (r : HalRun) :
    Does (Concludes ok) (nfcStackCback event .failed) r :=
  does_emit ⟨[], _, rfl, fun _ he => absurd he not_mem_nil, .inr (.inl ⟨event, rfl⟩)⟩

theorem concludes_stateSwitch {event : HalEvent} (state : HalState) (hends : event.Ends)
    (hok : event = .complete → ok) (r : HalRun) :
    Does (Concludes ok) (nfcHalStateSwitch event state) r :=
  does_emit ⟨[], _, rfl, fun _ he => absurd he not_mem_nil,
    .inr (.inr ⟨event, state, rfl, hends, hok⟩)⟩

theorem silent_deviceSetMode (mode : DevMode) (r : HalRun) :
    Emits HalEffect.Silent (deviceSetMode mode) r :=
  (emits_emit trivial r).bind (emits_modifyInfo _ _)

theorem silent_sendFrames (sent : Option (FwInfo × List FwPkt)) (r : HalRun) :
    Emits HalEffect.Silent (sendFrames sent) r := by
  cases sent with
  | none => exact emits_emit trivial r
  | some sent =>
    refine (emits_modifyInfo _ _).bind ⟨sent.2.map .frame, rfl, fun e he => ?_⟩
    obtain ⟨pkt, -, rfl⟩ := mem_map.mp he
    trivial

theorem silent_fwSendCmd (cmd : FwBlCmd) (param : List (BitVec 8)) (r : HalRun) :
    Emits HalEffect.Silent (fwSendCmd ans cmd param) r :=
  (emits_getInfo r).bind (silent_sendFrames _ _)

theorem silent_nfcFwGetImage (r : HalRun) : Emits HalEffect.Silent (nfcFwGetImage ans) r := by
  unfold nfcFwGetImage
  split
  · exact (emits_modifyInfo _ _).bind (emits_pure _ _)
  · exact (emits_modifyInfo _ _).bind (emits_pure _ _)

theorem silent_fwForceUpdate (r : HalRun) : Emits HalEffect.Silent (fwForceUpdate ans) r := by
  refine (silent_deviceSetMode _ _).bind ((silent_nfcFwGetImage ans _).bind ?_)
  split
  · refine (emits_getInfo _).bind ((silent_fwSendCmd ans _ _ _).bind ?_)
    exact (emits_modifyInfo _ _).bind ((emits_modifyInfo _ _).bind (emits_modifyInfo _ _))
  · exact emits_pure _ _

theorem silent_halNciSend (pkt : NciPkt) (r : HalRun) :
    Emits HalEffect.Silent (halNciSend pkt) r :=
  emits_halNciSend (fun _ => trivial) trivial r

theorem silent_stateSwitch (state : HalState) (r : HalRun) :
    Emits HalEffect.Silent (nfcHalStateSwitch .read state) r := by
  have hread : HalEffect.Silent (.stateSwitch .read state) := rfl
  exact emits_emit hread r

theorem silent_nfcHalFwSendFwStatus (status : BitVec 8) (r : HalRun) :
    Emits HalEffect.Silent (nfcHalFwSendFwStatus status) r :=
  (emits_modifyInfo _ _).bind (emits_emit trivial _)

/-- **The controller is started** without a report. -/
theorem silent_openStart (r : HalRun) : Emits HalEffect.Silent (openStart ans) r := by
  refine (emits_modifyInfo _ _).bind ((emits_modifyInfo _ _).bind ?_)
  split
  · exact silent_fwForceUpdate ans _
  · refine (silent_deviceSetMode _ _).bind ((emits_getInfo _).bind ?_)
    split
    · exact (silent_halNciSend _ _).bind (emits_emit trivial _)
    · refine (emits_modifyInfo _ _).bind ((emits_modifyInfo _ _).bind ?_)
      refine (emits_modifyInfo _ _).bind ((silent_halNciSend _ _).bind ?_)
      exact emits_emit trivial _

/-- **`nfc_hal_open_sm`, on a response.** -/
theorem concludes_openRead (msg : HalMsg) (r : HalRun) :
    Does (Concludes ok) (openRead ans msg) r := by
  unfold openRead
  split
  · exact concludes_failed _ _
  · refine Concludes.behind (emits_modifyInfo _ _) (Concludes.behind (emits_getInfo _) ?_)
    split
    · refine concludes_stateSwitch .open (.inr rfl) (fun heq => ?_) _
      exact absurd heq (by simp)
    · exact Concludes.behind (emits_modifyInfo _ _) (silent_openStart ans _).concludes

/-- **`nfc_hal_fw_sm`, on a response to `FW_CFG`.** -/
theorem concludes_fwPropFwCfg (pkt : NciPkt)
    (hok : pkt.answers nciGidProp nciPropFwCfg → fwCfgAccepted pkt.status →
      r.info.fw.bl.product < snfcN7 → ok) :
    Does (Concludes ok) (fwPropFwCfg ans .read pkt) r := by
  unfold fwPropFwCfg
  by_cases hanswers : pkt.answers nciGidProp nciPropFwCfg
  · rw [if_neg (not_not.mpr hanswers)]
    by_cases haccepted : fwCfgAccepted pkt.status
    · rw [if_neg (not_not.mpr haccepted)]
      refine Concludes.behind ?_ (Concludes.behind (emits_getInfo _) ?_)
      · split
        · exact silent_nfcHalFwSendFwStatus _ _
        · exact emits_pure _ _
      · have hproduct : ((if pkt.status = nciStatusESyntax then
            nfcHalFwSendFwStatus fwUpdateStatusError else pure () : HalM Unit) r).2.info.fw.bl.product =
              r.info.fw.bl.product := by
          split
          · rfl
          · rfl
        generalize ((if pkt.status = nciStatusESyntax then
          nfcHalFwSendFwStatus fwUpdateStatusError else pure () : HalM Unit) r).2 = r' at hproduct ⊢
        split
        · split
          · exact (Emits.bind (silent_stateSwitch _ _) (silent_fwForceUpdate ans _)).concludes
          · split
            · refine Emits.concludes (Emits.bind (silent_deviceSetMode _ _) ?_)
              refine Emits.bind (silent_deviceSetMode _ _) ?_
              refine Emits.bind (silent_stateSwitch _ _) ?_
              exact Emits.bind (emits_modifyInfo _ _) (silent_halNciSend _ _)
            · refine Emits.concludes (Emits.bind (silent_halNciSend _ _) ?_)
              exact emits_modifyInfo _ _
        · split
          · refine concludes_stateSwitch _ (.inl rfl) (fun _ => hok hanswers haccepted ?_) _
            rw [← hproduct]
            exact Nat.lt_of_not_le ‹_›
          · refine Emits.concludes (Emits.bind (silent_halNciSend _ _) ?_)
            exact emits_modifyInfo _ _
    · rw [if_pos haccepted]
      exact (emits_pure _ _).concludes
  · rw [if_pos hanswers]
    exact (silent_fwForceUpdate ans _).concludes

theorem concludes_fwNciReset (pkt : NciPkt) (r : HalRun) :
    Does (Concludes ok) (fwNciReset pkt) r := by
  unfold fwNciReset
  split
  · exact concludes_failed _ _
  · refine Emits.concludes ((emits_modifyInfo _ _).bind ((emits_getInfo _).bind ?_))
    split
    · exact (emits_modifyInfo _ _).bind (emits_emit trivial _)
    · refine (emits_emit trivial _).bind ((emits_modifyInfo _ _).bind ?_)
      exact (emits_emit trivial _).bind (silent_halNciSend _ _)

theorem concludes_fwNciInit (pkt : NciPkt) (r : HalRun) :
    Does (Concludes ok) (fwNciInit .read pkt) r := by
  unfold fwNciInit
  split
  · exact concludes_failed _ _
  · refine Emits.concludes ((emits_modifyInfo _ _).bind ?_)
    refine Emits.bind (emits_emit trivial _) ((emits_getInfo _).bind ?_)
    split
    · exact emits_modifyInfo _ _
    · exact (emits_modifyInfo _ _).bind ((emits_modifyInfo _ _).bind (silent_stateSwitch _ _))

theorem concludes_fwNciResetVts (pkt : NciPkt) (r : HalRun) :
    Does (Concludes ok) (fwNciResetVts ans pkt) r := by
  unfold fwNciResetVts
  split
  · exact ((silent_deviceSetMode _ _).bind (silent_fwForceUpdate ans _)).concludes
  · split
    · exact concludes_failed _ _
    · refine Emits.concludes ((emits_modifyInfo _ _).bind ?_)
      exact (emits_emit trivial _).bind (silent_halNciSend _ _)

/-- **The last response**, where it is accepted. -/
theorem concludes_fwNciInitVts {pkt : NciPkt}
    (hpkt : pkt.answers nciGidCore nciCoreInit ∧ pkt.status = nciStatusOk) (hok : ok)
    (r : HalRun) : Does (Concludes ok) (fwNciInitVts pkt) r := by
  unfold fwNciInitVts
  rw [if_neg (not_not.mpr hpkt)]
  refine Concludes.behind (emits_pure _ _) ?_
  have hclear (x : HalRun) : Does (fun out => out = []) (clearFlag halFlagClkSet) x :=
    ⟨[], (append_nil _).symm, rfl⟩
  refine Does.bind (concludes_stateSwitch .open (.inl rfl) (fun _ => hok) _) (hclear _)
    fun out out' hout hout' => ?_
  rw [hout', append_nil]
  exact hout

/-- **The download** goes on, or ends with the configuration. -/
theorem silent_fwDownload (r : HalRun) : Emits HalEffect.Silent (fwDownload ans) r := by
  refine (emits_getInfo r).bind (Emits.bind ?_ ?_)
  · split
    · exact silent_nfcHalFwSendFwStatus _ _
    · exact emits_pure _ _
  · generalize ((if (getInfo r).1.fw.state = .w4EnterUpdatemodeRsp then
      nfcHalFwSendFwStatus fwUpdateStatusStart else pure () : HalM Unit) (getInfo r).2).2 = r'
    split
    · refine Emits.bind (emits_modifyInfo _ _) (Emits.bind (silent_deviceSetMode _ _) ?_)
      refine Emits.bind (silent_deviceSetMode _ _) ?_
      exact Emits.bind (silent_halNciSend _ _) (emits_modifyInfo _ _)
    · exact silent_sendFrames _ _

/-- **`nfc_hal_fw_sm`, on a response**, the last of which is accepted. -/
theorem concludes_nfcHalFwSm {msg : HalMsg} (hevent : msg.event = .read)
    (hlast : r.info.fw.state = .w4NciInitVtsRsp → r.info.Accepts msg.nciPacket)
    (hok : r.info.Accepts msg.nciPacket → (r.info.fw.state = .w4NciInitVtsRsp ∨
      (r.info.fw.state = .w4NciPropFwCfg ∧ r.info.fw.bl.product < snfcN7)) → ok) :
    Does (Concludes ok) (nfcHalFwSm ans msg) r := by
  unfold nfcHalFwSm
  rw [if_pos (.inl hevent)]
  have hno : ¬ msg.event = .coreInit := by
    rw [hevent]
    decide
  rw [if_neg hno]
  refine Concludes.behind (emits_pure _ _) (Concludes.behind (emits_emit trivial _) ?_)
  refine Concludes.behind (emits_getInfo _) (Concludes.behind ?_ ?_)
  · split
    · exact emits_emit trivial _
    · exact emits_pure _ _
  · have hinfo (x : HalRun) (hx : x.info = r.info) : Does (Concludes ok)
        (if r.info.fw.state.w4FwRsp ∧ msg.fwCode ≠ fwRetSuccess then do
          nfcFwFreeImage
          nfcHalFwSendFwStatus fwUpdateStatusError
        else fwByState ans msg) x := by
      split
      · exact (Emits.bind (emits_modifyInfo _ _) (silent_nfcHalFwSendFwStatus _ _)).concludes
      · refine Concludes.behind (emits_getInfo x) ?_
        rw [show getInfo x = (x.info, x) from rfl, hx, hevent]
        cases hstate : r.info.fw.state with
        | w4NciPropFwCfg =>
          refine concludes_fwPropFwCfg ans _ fun hanswers haccepted hproduct => ?_
          rw [hx] at hproduct
          refine hok ?_ (.inr ⟨hstate, hproduct⟩)
          unfold HalInfo.Accepts
          rw [hstate]
          exact ⟨hanswers, haccepted⟩
        | w4NciResetRsp => exact concludes_fwNciReset _ x
        | w4NciInitRsp => exact concludes_fwNciInit _ x
        | w4NciResetVtsRsp => exact concludes_fwNciResetVts ans _ x
        | w4NciInitVtsRsp =>
          have haccepts := hlast hstate
          refine concludes_fwNciInitVts ?_ (hok haccepts (.inl hstate)) x
          unfold HalInfo.Accepts at haccepts
          rw [hstate] at haccepts
          exact haccepts
        | none => exact (emits_pure _ x).concludes
        | _ => exact (silent_fwDownload ans x).concludes
    refine hinfo _ ?_
    show ((if r.info.fw.state.w4FwRsp then _ else pure () : HalM Unit) _).2.info = _
    split
    · rfl
    · rfl

end Functions

namespace OpenRun

/-! ## The procedure -/

/-- Neither end is posted. -/
def Endless (queue : List Posted) : Prop :=
  ∀ m ∈ queue, m.msg.event = .open ∨ m.msg.event = .read

/-- **How far the procedure is**: at work with nothing reported; with its end
posted; failed; or over with a success. -/
inductive Phase (s : OpenRun) : Prop
  | working (hlog : s.log = []) (hqueue : Endless s.queue)
  | posted (hlog : s.log = []) (before after : List Posted) (m : Posted)
      (hqueue : s.queue = before ++ m :: after) (hends : m.msg.event.Ends)
      (hbefore : Endless before) (hafter : Endless after)
      (hall : m.msg.event = .complete → ∀ b ∈ s.awaited, b = true)
  | failed (e : Report) (hlog : s.log = [e]) (hstatus : e.status ≠ .ok) (hqueue : Endless s.queue)
  | opened (awaited : List Bool) (hlog : s.log = [⟨.openCplt, .ok, awaited⟩])
      (hall : ∀ b ∈ awaited, b = true) (hover : ¬ s.info.Opening)

variable {s : OpenRun}

variable {queue : List Posted} {msg : HalMsg}

theorem not_ends_of_endless (h : Endless queue) {m : Posted} (hm : m ∈ queue) :
    ¬ m.msg.event.Ends := by
  intro hends
  unfold HalEvent.Ends at hends
  rcases h m hm with hopen | hread
  · rw [hopen] at hends
    exact absurd hends (by decide)
  · rw [hread] at hends
    exact absurd hends (by decide)

theorem Endless.append {queue' : List Posted} (h : Endless queue) (h' : Endless queue') :
    Endless (queue ++ queue') := by
  intro m hm
  rcases mem_append.mp hm with hm | hm
  · exact h m hm
  · exact h' m hm

theorem truthful_of_log (h : s.log = [] ∨ ∃ e, s.log = [e] ∧
    (e.status = .ok → ∀ b ∈ e.awaited, b = true)) : Truthful s := by
  rcases h with hlog | ⟨e, hlog, hall⟩
  · exact ⟨by simp [hlog], by simp [hlog], hlog ▸ .nil⟩
  · refine ⟨?_, fun a ha _ hok => ?_, hlog ▸ pairwise_singleton _ e⟩
    · rw [hlog]
      exact length_filter_le _ [e]
    · rw [hlog] at ha
      obtain rfl := mem_singleton.mp ha
      exact hall hok

/-- **Each phase is truthful.** -/
theorem Phase.truthful (h : Phase s) : Truthful s := by
  refine truthful_of_log ?_
  cases h with
  | working hlog => exact .inl hlog
  | posted hlog => exact .inl hlog
  | failed e hlog hstatus => exact .inr ⟨e, hlog, fun hok => absurd hok hstatus⟩
  | opened awaited hlog hall => exact .inr ⟨_, hlog, fun _ => hall⟩

/-- What silent effects leave: the reports, the messages, and the responses
unless the mode is changed. -/
structure Kept (s s' : OpenRun) : Prop where
  log : s'.log = s.log
  queue : ∃ more, s'.queue = s.queue ++ more ∧ Endless more
  awaited : s'.awaited = s.awaited ∨ s'.awaited = []

theorem Kept.refl (s : OpenRun) : Kept s s :=
  ⟨rfl, ⟨[], (append_nil _).symm, fun _ hm => absurd hm not_mem_nil⟩, .inl rfl⟩

theorem Kept.trans {s s' s'' : OpenRun} (h : Kept s s') (h' : Kept s' s'') : Kept s s'' := by
  obtain ⟨hlog, ⟨more, hqueue, hmore⟩, hawaited⟩ := h
  obtain ⟨hlog', ⟨more', hqueue', hmore'⟩, hawaited'⟩ := h'
  refine ⟨hlog'.trans hlog, ⟨more ++ more', ?_, hmore.append hmore'⟩, ?_⟩
  · rw [hqueue', hqueue, append_assoc]
  · rcases hawaited' with hsame | hnil
    · rw [hsame]
      exact hawaited
    · exact .inr hnil

/-- **Silent effects**, and what comes behind them if nothing has gone wrong. -/
theorem perform_silent (msg : HalMsg) (room : Bool) (seen : List Bool) {l : List HalEffect}
    (hl : ∀ e ∈ l, e.Silent) (t : List HalEffect) (s : OpenRun) :
    ∃ s', Kept s s' ∧ (perform msg room seen (l ++ t) s = s' ∨
      perform msg room seen (l ++ t) s = perform msg room seen t s') := by
  induction l generalizing s with
  | nil => exact ⟨s, Kept.refl s, .inr rfl⟩
  | cons e l ih =>
    have hrest := fun a ha => hl a (mem_cons_of_mem e ha)
    have he := hl e mem_cons_self
    cases e with
    | fault => exact ⟨{ s with ended := true }, ⟨rfl, (Kept.refl s).queue, .inl rfl⟩, .inl rfl⟩
    | stack event status => exact absurd he id
    | setMode mode =>
      obtain ⟨s', hkept, hperform⟩ := ih hrest { s with awaited := [] }
      have hfirst : Kept s { s with awaited := [] } := ⟨rfl, (Kept.refl s).queue, .inr rfl⟩
      exact ⟨s', hfirst.trans hkept, hperform⟩
    | stateSwitch event state =>
      have hread : event = .read := he
      cases room with
      | false =>
        obtain ⟨s', hkept, hperform⟩ := ih hrest s
        exact ⟨s', hkept, hperform⟩
      | true =>
        obtain ⟨s', hkept, hperform⟩ := ih hrest { s with
          info := { s.info with state := state }
          queue := s.queue ++ [⟨{ msg.copied with event := event }, false⟩] }
        have hfirst : Kept s { s with
            info := { s.info with state := state }
            queue := s.queue ++ [⟨{ msg.copied with event := event }, false⟩] } := by
          refine ⟨rfl, ⟨_, rfl, fun m hm => ?_⟩, .inl rfl⟩
          rw [mem_singleton.mp hm]
          exact .inr hread
        exact ⟨s', hfirst.trans hkept, hperform⟩
    | write data => exact ih hrest s
    | frame pkt => exact ih hrest s
    | timerStart timer timeout callback => exact ih hrest s
    | timerStop timer => exact ih hrest s
    | data data => exact ih hrest s
    | deviceClose => exact ih hrest s
    | deviceOpen => exact ih hrest s

theorem withRead_event (h : HalInfo) (payload : List (BitVec 8)) (msg : HalMsg) :
    (withRead h payload msg).event = msg.event := by
  unfold withRead
  split <;> rfl

theorem nfcHalTask_opening {info : HalInfo} (ans : HalAnswers) (msg : HalMsg)
    (hopening : info.Opening) :
    nfcHalTask ans msg ⟨info, []⟩ = nfcHalOpenSm ans msg ⟨info, []⟩ ∨
      (info.state = .fw ∧ nfcHalTask ans msg ⟨info, []⟩ = nfcHalFwSm ans msg ⟨info, []⟩) := by
  rcases hopening with hstate | hstate | hstate | hstate
  · exact .inl (nfcHalTask_open ans msg (.inl hstate))
  · exact .inl (nfcHalTask_open ans msg (.inr (.inl hstate)))
  · exact .inl (nfcHalTask_open ans msg (.inr (.inr hstate)))
  · exact .inr ⟨hstate, nfcHalTask_fw ans msg hstate⟩

/-- `nfc_hal_open_sm` and `nfc_hal_fw_sm` do nothing loud at the opening. -/
theorem silent_open (info : HalInfo) (ans : HalAnswers) (hevent : msg.event = .open)
    (hopening : info.Opening) : ∀ e ∈ (info.handle ans msg).2, e.Silent := by
  refine Does.handle (Q := fun out => ∀ e ∈ out, e.Silent) ?_
  unfold Does
  rcases nfcHalTask_opening ans msg hopening with htask | ⟨-, htask⟩
  · rw [htask]
    unfold nfcHalOpenSm
    rw [hevent]
    exact (silent_deviceSetMode _ _).bind (silent_fwSendCmd ans _ _ _)
  · rw [htask]
    unfold nfcHalFwSm
    rw [hevent]
    exact emits_pure _ _

/-- **A response** leads to one report at most, or to the end. -/
theorem concludes_read (info : HalInfo) (ans : HalAnswers) (hevent : msg.event = .read)
    (hopening : info.Opening)
    (hlast : info.state = .fw → info.fw.state = .w4NciInitVtsRsp → info.Accepts msg.nciPacket) :
    Concludes (info.state = .fw ∧ info.Accepts msg.nciPacket ∧
      (info.fw.state = .w4NciInitVtsRsp ∨
        (info.fw.state = .w4NciPropFwCfg ∧ info.fw.bl.product < snfcN7)))
      (info.handle ans msg).2 := by
  refine Does.handle ?_
  unfold Does
  rcases nfcHalTask_opening ans msg hopening with htask | ⟨hstate, htask⟩
  · rw [htask]
    unfold nfcHalOpenSm
    rw [hevent]
    exact concludes_openRead ans msg _
  · rw [htask]
    exact concludes_nfcHalFwSm ans hevent (hlast hstate) fun haccepts hend => ⟨hstate, haccepts, hend⟩

/-- **An end** is reported in `nfc_hal_open_sm`, and nowhere else. -/
theorem handle_ends (info : HalInfo) (ans : HalAnswers) (hends : msg.event.Ends)
    (hopening : info.Opening) :
    (info.handle ans msg).2 = [] ∨
      (msg.event = .complete ∧ (info.handle ans msg).1.state = .postinit ∧
        (info.handle ans msg).2 = [.setMode .on, .stack .openCplt .ok]) ∨
      (info.handle ans msg).2 = [.setMode .off, .stack .openCplt .failed] := by
  unfold HalInfo.handle
  rcases nfcHalTask_opening ans msg hopening with htask | ⟨-, htask⟩
  · rw [htask]
    unfold nfcHalOpenSm
    rcases hends with hcomplete | hfailed
    · rw [hcomplete]
      exact .inr (.inl ⟨rfl, rfl, rfl⟩)
    · rw [hfailed]
      exact .inr (.inr rfl)
  · refine .inl ?_
    rw [htask]
    unfold nfcHalFwSm
    rcases hends with hcomplete | hfailed
    · rw [hcomplete]
      rfl
    · rw [hfailed]
      rfl

/-- A response arrives. -/
theorem Phase.response (h : Phase s) (oct0 oid len : BitVec 8) :
    Phase (s.step (.response oct0 oid len)) := by
  have hnew : Endless [⟨⟨.read, [oct0, oid, len]⟩, true⟩] := by
    intro m hm
    rw [mem_singleton.mp hm]
    exact .inr rfl
  cases h with
  | working hlog hqueue => exact .working hlog (hqueue.append hnew)
  | posted hlog before after m hqueue hends hbefore hafter hall =>
    refine .posted hlog before (after ++ [_]) m ?_ hends hbefore (hafter.append hnew) hall
    show s.queue ++ [_] = _
    rw [hqueue, append_assoc, cons_append]
  | failed e hlog hstatus hqueue => exact .failed e hlog hstatus (hqueue.append hnew)
  | opened awaited hlog hall hover => exact .opened awaited hlog hall hover

/-- **What is silent** leaves the procedure where it is. -/
theorem Phase.silent (h : Phase s) {m : Posted} (hqueue : s.queue = m :: queue)
    (hends : ¬ m.msg.event.Ends) (hopening : s.info.Opening) (s' : OpenRun) {s'' : OpenRun}
    (hlog : s'.log = s.log) (hqueue' : s'.queue = queue) (hawaited : s'.awaited = s.awaited)
    (hkept : Kept s' s'') : Phase s'' := by
  obtain ⟨hlog', ⟨more, hmore, hendless⟩, hawaited'⟩ := hkept
  rw [hqueue'] at hmore
  cases h with
  | working hnil hall =>
    rw [hqueue] at hall
    refine .working (by rw [hlog', hlog, hnil]) ?_
    rw [hmore]
    exact Endless.append (forall_mem_cons.mp hall).2 hendless
  | posted hnil before after m' hsplit hends' hbefore hafter hall =>
    cases before with
    | nil =>
      rw [hqueue] at hsplit
      rw [(List.cons.inj hsplit).1] at hends
      exact absurd hends' hends
    | cons a before =>
      rw [hqueue] at hsplit
      obtain ⟨rfl, rfl⟩ := List.cons.inj hsplit
      refine .posted (by rw [hlog', hlog, hnil]) before (after ++ more) m' ?_ hends'
        (forall_mem_cons.mp hbefore).2 (hafter.append hendless) fun hcomplete => ?_
      · rw [hmore]
        exact append_assoc ..
      · rcases hawaited' with hsame | hempty
        · rw [hsame, hawaited]
          exact hall hcomplete
        · rw [hempty]
          exact fun _ hb => absurd hb not_mem_nil
  | failed e hone hstatus hall =>
    rw [hqueue] at hall
    refine .failed e (by rw [hlog', hlog, hone]) hstatus ?_
    rw [hmore]
    exact Endless.append (forall_mem_cons.mp hall).2 hendless
  | opened awaited hone hall hover => exact absurd hopening hover

variable {payload : List (BitVec 8)} {ans : HalAnswers} {room : Bool} {m : Posted}

/-- The task handles the first message. -/
theorem task_eq (hqueue : s.queue = m :: queue) (hended : ¬ s.ended = true)
    (hopening : s.info.Opening) (payload : List (BitVec 8)) (ans : HalAnswers) (room : Bool) :
    s.task payload ans room =
      perform (withRead s.info payload m.msg) room
        (judge s.info m (withRead s.info payload m.msg) s.awaited)
        (s.info.handle ans (withRead s.info payload m.msg)).2
        { s with
          info := (s.info.handle ans (withRead s.info payload m.msg)).1
          queue := queue
          awaited := judge s.info m (withRead s.info payload m.msg) s.awaited } := by
  unfold OpenRun.task
  rw [hqueue]
  exact if_neg (not_or.mpr ⟨hended, not_not_intro hopening⟩)

/-- The end is the first of the queue. -/
theorem Phase.task_ends (h : Phase s) (hqueue : s.queue = m :: queue) (hended : ¬ s.ended = true)
    (hopening : s.info.Opening) (hends : m.msg.event.Ends) :
    Phase (s.task payload ans room) := by
  rw [task_eq hqueue hended hopening]
  have hevent := withRead_event s.info payload m.msg
  have hends' : (withRead s.info payload m.msg).event.Ends := hevent ▸ hends
  have hjudge : judge s.info m (withRead s.info payload m.msg) s.awaited = s.awaited := by
    unfold judge
    refine if_neg fun hread => ?_
    rw [hread.2] at hends'
    exact absurd hends' (by decide)
  rw [hjudge]
  cases h with
  | working _ hall =>
    rw [hqueue] at hall
    exact absurd hends (not_ends_of_endless hall mem_cons_self)
  | failed _ _ _ hall =>
    rw [hqueue] at hall
    exact absurd hends (not_ends_of_endless hall mem_cons_self)
  | opened _ _ _ hover => exact absurd hopening hover
  | posted hnil before after m' hsplit hm' hbefore hafter hall =>
    cases before with
    | cons a before =>
      rw [hqueue] at hsplit
      rw [(List.cons.inj hsplit).1] at hends
      exact absurd hends (not_ends_of_endless hbefore mem_cons_self)
    | nil =>
      rw [hqueue] at hsplit
      obtain ⟨rfl, rfl⟩ := List.cons.inj hsplit
      rcases handle_ends s.info ans hends' hopening with hnone | ⟨hcomplete, hstate, hout⟩ | hout
      · rw [hnone]
        exact .working hnil hafter
      · rw [hout]
        refine .opened s.awaited ?_ (hall (hevent.symm.trans hcomplete)) ?_
        · show s.log ++ [_] = _
          rw [hnil]
          rfl
        · show ¬ (s.info.handle ans _).1.Opening
          unfold HalInfo.Opening
          rw [hstate]
          decide
      · rw [hout]
        refine .failed ⟨.openCplt, .failed, s.awaited⟩ ?_ (by simp) hafter
        show s.log ++ [_] = _
        rw [hnil]
        rfl

/-- A response: nothing has been reported, and no end is posted. -/
theorem Phase.task_read (h : Phase s) (hqueue : s.queue = m :: queue) (hended : ¬ s.ended = true)
    (hopening : s.info.Opening) (hread : m.msg.event = .read)
    (hproper : s.Proper (.task payload ans room)) : Phase (s.task payload ans room) := by
  rw [task_eq hqueue hended hopening]
  have hevent := withRead_event s.info payload m.msg
  have hread' : (withRead s.info payload m.msg).event = .read := hevent.trans hread
  have hhead : m ∈ s.queue.head? := by
    rw [hqueue]
    rfl
  obtain ⟨hok, hendless, hfw⟩ := hproper m hhead hread hopening
  have hworking : s.log = [] ∧ Endless queue := by
    cases h with
    | working hnil hall =>
      rw [hqueue] at hall
      exact ⟨hnil, (forall_mem_cons.mp hall).2⟩
    | posted _ before after m' hsplit hm' =>
      refine absurd hm' (hendless m' ?_)
      rw [hsplit]
      exact mem_append_right _ mem_cons_self
    | failed e hone hstatus =>
      refine absurd (hok e ?_) hstatus
      rw [hone]
      exact mem_singleton_self e
    | opened _ _ _ hover => exact absurd hopening hover
  obtain ⟨hnil, hall⟩ := hworking
  obtain ⟨l, t, hout, hl, ht⟩ := concludes_read s.info ans hread' hopening
    fun hstate hvts => ((hfw hstate).2.1 hvts).2
  rw [hout]
  obtain ⟨s', ⟨hlog', ⟨more, hmore, hmoreEndless⟩, hawaited'⟩, hperform⟩ :=
    perform_silent (withRead s.info payload m.msg) room
      (judge s.info m (withRead s.info payload m.msg) s.awaited) hl t
      { s with
        info := (s.info.handle ans (withRead s.info payload m.msg)).1
        queue := queue
        awaited := judge s.info m (withRead s.info payload m.msg) s.awaited }
  have hlog' : s'.log = [] := hlog'.trans hnil
  have hqueue' : Endless s'.queue := by
    rw [hmore]
    exact hall.append hmoreEndless
  rcases hperform with hperform | hperform
  · rw [hperform]
    exact .working hlog' hqueue'
  · rw [hperform]
    rcases ht with rfl | ⟨event, rfl⟩ | ⟨event, state, rfl, hends', hcomplete⟩
    · exact .working hlog' hqueue'
    · refine .failed ⟨event, .failed,
        judge s.info m (withRead s.info payload m.msg) s.awaited⟩ ?_ (by simp) hqueue'
      show s'.log ++ [_] = _
      rw [hlog']
      rfl
    · cases room with
      | false => exact .working hlog' hqueue'
      | true =>
        refine .posted hlog' s'.queue [] _ rfl hends' hqueue'
          (fun _ hm => absurd hm not_mem_nil) fun heq => ?_
        obtain ⟨hstate, haccepts, hlast⟩ := hcomplete heq
        obtain ⟨hawaited, hvts, hcfg⟩ := hfw hstate
        have hrsp : m.rsp = true := by
          rcases hlast with hlast | ⟨hlast, hproduct⟩
          · exact (hvts hlast).1
          · exact hcfg hlast hproduct
        show ∀ b ∈ s'.awaited, b = true
        rcases hawaited' with hsame | hempty
        · rw [hsame]
          show ∀ b ∈ judge s.info m _ s.awaited, b = true
          unfold judge
          rw [hrsp, decide_eq_true haccepts]
          split
          · intro b hb
            rcases mem_append.mp hb with hb | hb
            · exact hawaited b hb
            · exact mem_singleton.mp hb
          · exact hawaited
        · rw [hempty]
          exact fun _ hb => absurd hb not_mem_nil

/-- The opening message. -/
theorem Phase.task_open (h : Phase s) (hqueue : s.queue = m :: queue) (hended : ¬ s.ended = true)
    (hopening : s.info.Opening) (hends : ¬ m.msg.event.Ends) (hread : m.msg.event ≠ .read) :
    Phase (s.task payload ans room) := by
  rw [task_eq hqueue hended hopening]
  have hevent := withRead_event s.info payload m.msg
  have hopen : m.msg.event = .open := by
    have hmem : m ∈ s.queue := by
      rw [hqueue]
      exact mem_cons_self
    cases h with
    | working _ hall => exact (hall m hmem).resolve_right hread
    | failed _ _ _ hall => exact (hall m hmem).resolve_right hread
    | opened _ _ _ hover => exact absurd hopening hover
    | posted _ before after m' hsplit hm' hbefore hafter =>
      rw [hsplit] at hmem
      rcases mem_append.mp hmem with hmem | hmem
      · exact (hbefore m hmem).resolve_right hread
      · rcases mem_cons.mp hmem with rfl | hmem
        · exact absurd hm' hends
        · exact (hafter m hmem).resolve_right hread
  have hjudge : judge s.info m (withRead s.info payload m.msg) s.awaited = s.awaited := by
    unfold judge
    exact if_neg fun hboth => hread (hevent.symm.trans hboth.2)
  rw [hjudge]
  have hsilent := silent_open s.info ans (hevent.trans hopen) hopening
  obtain ⟨s', hkept, hperform⟩ := perform_silent (withRead s.info payload m.msg) room
    s.awaited hsilent []
    { s with
      info := (s.info.handle ans (withRead s.info payload m.msg)).1
      queue := queue }
  rw [append_nil] at hperform
  have hsame := hperform.elim id id
  rw [hsame]
  exact h.silent hqueue hends hopening
    { s with
      info := (s.info.handle ans (withRead s.info payload m.msg)).1
      queue := queue } rfl rfl rfl hkept

/-- **The task handles a message.** -/
theorem Phase.task (h : Phase s) (hproper : s.Proper (.task payload ans room)) :
    Phase (s.task payload ans room) := by
  cases hqueue : s.queue with
  | nil =>
    rw [OpenRun.task, hqueue]
    exact h
  | cons m queue =>
    by_cases hgoes : s.ended = true ∨ ¬ s.info.Opening
    · rw [OpenRun.task, hqueue]
      dsimp only
      rw [if_pos hgoes]
      exact h
    · rw [not_or, not_not] at hgoes
      obtain ⟨hended, hopening⟩ := hgoes
      by_cases hends : m.msg.event.Ends
      · exact h.task_ends hqueue hended hopening hends
      · by_cases hread : m.msg.event = .read
        · exact h.task_read hqueue hended hopening hread hproper
        · exact h.task_open hqueue hended hopening hends hread

/-- **The answer to `nfc_hal_open`** comes once and is true, in every run in
which a response is taken only while nothing has failed or is at its end, and
the last one is the one that is awaited. -/
theorem open_answered (info : HalInfo) (steps : List OpenStep)
    (h : Run.Throughout step Proper (started info) steps) :
    Run.Always step Truthful (started info) steps := by
  have hstart : Phase (started info) := by
    refine .working rfl fun m hm => ?_
    rw [mem_singleton.mp hm]
    exact .inl rfl
  have hstep (s : OpenRun) (i : OpenStep) (hs : Phase s) (hi : s.Proper i) : Phase (s.step i) := by
    cases i with
    | response oct0 oid len => exact hs.response oct0 oid len
    | task payload ans room => exact hs.task hi
  exact (Run.Always.of_invariant hstep hstart h).mono fun _ hs => hs.truthful

/-- A chip that is started without an update, and its responses. -/
def answering (initStatus : BitVec 8) : List OpenStep :=
  [.task [] .plain true,
    .response 0 0 8, .task [0, 0x80, 0, 0, 0, 0, 2, 0, 0x20] .plain true,
    .response 0x4F 0x28 1, .task [0] .plain true,
    .response 0x40 0 3, .task [0, 0x10, 0] .plain true,
    .response 0x40 1 1, .task [initStatus] .plain true,
    .task [] .plain true]

/-- As for a chip that accepts everything. -/
theorem open_answered_ok : Run.Always step Truthful (started HalInfo.zero) (answering 0) :=
  open_answered HalInfo.zero (answering 0) (by decide +kernel)

/-- **A refused `CORE_INIT`** is reported as a failure, and then as a success. -/
theorem not_open_answered :
    ¬ ∀ (info : HalInfo) (steps : List OpenStep),
      Run.Always step Truthful (started info) steps := by
  intro h
  have hlast := (h HalInfo.zero (answering 3)).last
  exact absurd hlast.final (by decide +kernel)

end OpenRun

end ExynosVendor.Nfc
