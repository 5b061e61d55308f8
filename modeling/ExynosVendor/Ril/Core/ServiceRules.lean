import ExynosVendor.Ril.Core.Service

/-!
# Rules for the service's programs

Most of what the service's thread does leaves alone what its invariants
are about: the request in flight, its recorded identifier, the request
queue, and the bytes in the pipe and still to come. An `Invariant` is a
property of these that survives the three things which do not. Then it
survives every override and every handler but `HandleRequest` and
`HandleRequestTimeout`.
-/

namespace ExynosVendor.Ril.Service

open Program (Stable Triple)

/-- The same request in flight, queue and bytes. -/
structure SameCore (s s' : Service) : Prop where
  /-- The request in flight. -/
  cur : s'.pCurReqMsg.map (·.pReqData) = s.pCurReqMsg.map (·.pReqData)
  /-- Its recorded identifier. -/
  reqId : s'.nCurrentReqId = s.nCurrentReqId
  /-- The queue. -/
  queue : s'.requestQueue = s.requestQueue
  /-- The pipe. -/
  pipe : s'.msgPipe = s.msgPipe
  /-- The producers. -/
  producers : s'.producers = s.producers

/-- The program keeps the property. -/
def Keeps {α : Type} (G : Point → Service → Prop) (Q : Service → Prop) (p : ServiceM α) : Prop :=
  Triple Env G Q p fun _ => Q

/-- A property of the request in flight, the queue and the bytes, that
other threads keep. -/
structure CoreProperty (Q : Service → Prop) : Prop where
  /-- Other threads keep it. -/
  stable : Stable Env Q
  /-- It is about the core. -/
  core : ∀ s s', SameCore s s' → Q s → Q s'

/-- **An invariant of the service**, in runs restricted by `G`. -/
structure Invariant (G : Point → Service → Prop) (Q : Service → Prop) : Prop
    extends CoreProperty Q where
  /-- The completion of the current request keeps it. -/
  complete : ∀ result, Keeps G Q (onSyncRequestComplete result)
  /-- Its postponement keeps it. -/
  postpone : ∀ millis, Keeps G Q (postponeRequestMessage millis)
  /-- A message to the service itself keeps it. -/
  send : ∀ m, Keeps G Q (do enQueue m; notifyNewMessage m.nDirection)

namespace Keeps

variable {α β : Type} {G : Point → Service → Prop} {Q : Service → Prop}

theorem pure (hs : Stable Env Q) (a : α) : Keeps G Q (Pure.pure a) :=
  Program.triple_pure hs fun _ h => h

theorem bind {p : ServiceM α} {next : α → ServiceM β} (hp : Keeps G Q p)
    (hnext : ∀ a, Keeps G Q (next a)) : Keeps G Q (p >>= next) :=
  Triple.bind hp hnext

theorem read (hs : Stable Env Q) (f : Service → α) : Keeps G Q (Program.read f) :=
  Program.triple_read hs (fun _ => hs) fun _ h => h

theorem when {c : Prop} [Decidable c] {p : ServiceM Unit} (hs : Stable Env Q)
    (hp : Keeps G Q p) : Keeps G Q (Program.when c p) :=
  Program.triple_when hs (fun _ => hp) fun _ _ h => h

end Keeps

namespace CoreProperty

variable {G : Point → Service → Prop} {Q : Service → Prop}

/-- An action on anything else keeps the property. -/
theorem modify (h : CoreProperty Q) {f : Service → Service} (hf : ∀ s, SameCore s (f s)) :
    Keeps G Q (Program.modify f) :=
  Program.triple_modify h.stable h.stable fun s hs => h.core s (f s) (hf s) hs

theorem modifyGet {α : Type} (h : CoreProperty Q) {f : Service → α × Service}
    (hf : ∀ s, SameCore s (f s).2) : Keeps G Q (Program.modifyGet none f) :=
  Program.triple_modifyGet h.stable (fun _ => h.stable) fun s hs _ => h.core s _ (hf s) hs

theorem modifyCurReqMsg (h : CoreProperty Q) {f : Message → Message}
    (hf : ∀ m, (f m).pReqData = m.pReqData) : Keeps G Q (modifyCurReqMsg f) := by
  refine h.modify fun s => ⟨?_, rfl, rfl, rfl, rfl⟩
  show (s.pCurReqMsg.map f).map (·.pReqData) = s.pCurReqMsg.map (·.pReqData)
  rw [Option.map_map]
  exact congrArg (fun g => s.pCurReqMsg.map g) (funext hf)

theorem modifyAsyncMsg (h : CoreProperty Q) (m : Message) (f : Message → Message) :
    Keeps G Q (modifyAsyncMsg m f) :=
  h.modify fun _ => ⟨rfl, rfl, rfl, rfl, rfl⟩

theorem setAsycMsgReqToken (h : CoreProperty Q) (token : UINT) :
    Keeps G Q (setAsycMsgReqToken token) :=
  h.modify fun _ => ⟨rfl, rfl, rfl, rfl, rfl⟩

theorem contextOnRequestComplete (h : CoreProperty Q) (pRequest : Option RequestData)
    (result : INT) : Keeps G Q (contextOnRequestComplete pRequest result) := by
  cases pRequest with
  | none => exact Keeps.pure h.stable ()
  | some r => exact h.modify fun _ => ⟨rfl, rfl, rfl, rfl, rfl⟩

theorem eraseTimer (h : CoreProperty Q) (m : Message) : Keeps G Q (eraseTimer m) :=
  h.modify fun _ => ⟨rfl, rfl, rfl, rfl, rfl⟩

theorem putTimer (h : CoreProperty Q) (m : Message) (millis : ℕ) : Keeps G Q (putTimer m millis) :=
  h.modify fun _ => ⟨rfl, rfl, rfl, rfl, rfl⟩

theorem removeHistory (h : CoreProperty Q) (token : UINT) : Keeps G Q (removeHistory token) :=
  h.modify fun _ => ⟨rfl, rfl, rfl, rfl, rfl⟩

theorem findHistory (h : CoreProperty Q) (token : UINT) : Keeps G Q (findHistory token) :=
  Keeps.read h.stable _

end CoreProperty

namespace Invariant

variable {G : Point → Service → Prop} {Q : Service → Prop}

/-! ## The interface of the overrides -/

theorem asyncRequestMsg (h : Invariant G Q) (pMsg : Message) :
    Keeps G Q (asyncRequestMsg pMsg) := by
  unfold Service.asyncRequestMsg
  split_ifs
  · refine Keeps.bind (Keeps.when h.stable (h.removeHistory _)) fun _ => ?_
    exact Keeps.pure h.stable _
  · refine Keeps.bind (h.findHistory _) fun pRequestMsg => ?_
    refine Keeps.bind (h.removeHistory _) fun _ => ?_
    exact Keeps.pure h.stable _
  · exact Keeps.pure h.stable _

theorem onAsyncRequestComplete (h : Invariant G Q) (result : INT) (pMsg : Message) :
    Keeps G Q (onAsyncRequestComplete result pMsg) := by
  unfold Service.onAsyncRequestComplete
  refine Keeps.bind (h.asyncRequestMsg pMsg) fun pRequestMsg => ?_
  refine Keeps.bind (h.contextOnRequestComplete _ result) fun _ => ?_
  exact h.modify fun _ => ⟨rfl, rfl, rfl, rfl, rfl⟩

theorem onRequestComplete (h : Invariant G Q) (result : INT) (pMsg : Option Message) :
    Keeps G Q (onRequestComplete result pMsg) := by
  cases pMsg with
  | none => exact h.complete result
  | some m =>
      show Keeps G Q (if m.nAsyncMsgReqStatus = .none then onSyncRequestComplete result
        else Service.onAsyncRequestComplete result m)
      split_ifs
      · exact h.complete result
      · exact h.onAsyncRequestComplete result m

theorem startRequestTimeout (h : Invariant G Q) : Keeps G Q startRequestTimeout := by
  unfold Service.startRequestTimeout
  refine Keeps.bind (h.modifyCurReqMsg ?_) fun _ => ?_
  · intro m
    split_ifs
    · rfl
    · rfl
  · refine Keeps.bind (Keeps.read h.stable _) fun cur => ?_
    cases cur with
    | none => exact Keeps.pure h.stable ()
    | some m => exact Keeps.bind (h.eraseTimer m) fun _ => h.putTimer m _

theorem sendRequest (h : Invariant G Q) (pModemData : ModemData) (nTimeout : UINT) (sent : Bool)
    (pMsg : Option Message) : Keeps G Q (sendRequest pModemData nTimeout sent pMsg) := by
  unfold Service.sendRequest
  cases pMsg with
  | none => exact h.modifyCurReqMsg fun _ => rfl
  | some m =>
      dsimp only
      split_ifs
      · exact h.modifyCurReqMsg fun _ => rfl
      · refine Keeps.bind (h.modifyAsyncMsg m _) fun _ => ?_
        exact Keeps.when h.stable (h.setAsycMsgReqToken _)

theorem asyncMsgReqPreProcessing (h : Invariant G Q) (m : Message) :
    Keeps G Q (asyncMsgReqPreProcessing m) := by
  unfold Service.asyncMsgReqPreProcessing
  split_ifs
  · refine Keeps.bind (h.findHistory _) fun pReqMsg => ?_
    split_ifs
    · refine Keeps.bind ?_ fun _ => Keeps.pure h.stable _
      exact h.modify fun _ => ⟨rfl, rfl, rfl, rfl, rfl⟩
    · exact Keeps.pure h.stable _
  · exact Keeps.pure h.stable _

theorem sendMessage (h : Invariant G Q) (m : Message) : Keeps G Q (sendMessage m) :=
  Keeps.bind (h.asyncMsgReqPreProcessing m) fun m => h.send m

/-- **Every call keeps the invariant.** -/
theorem call (h : Invariant G Q) (c : Call) : Keeps G Q c.run := by
  cases c with
  | onRequestComplete result pMsg => exact h.onRequestComplete result pMsg
  | postponeRequestMessage millis => exact h.postpone millis
  | sendRequest pModemData nTimeout sent pMsg => exact h.sendRequest pModemData nTimeout sent pMsg
  | setRequestTimeout timeout => exact h.modifyCurReqMsg fun _ => rfl
  | resetRequestTimeout timeout =>
      exact Keeps.bind (h.modifyCurReqMsg fun _ => rfl) fun _ => h.startRequestTimeout
  | sendMessage m => exact h.sendMessage m

/-- **Every override keeps the invariant**, by induction on its calls. -/
theorem handler (h : Invariant G Q) (handler : Handler) : Keeps G Q handler.run := by
  induction handler with
  | ret handled => exact Keeps.pure h.stable handled
  | call c k ih =>
      refine Keeps.bind (h.call c) fun _ => ?_
      exact Keeps.bind (Keeps.read h.stable id) fun s => ih s

theorem callback (h : Invariant G Q) (handler : Handler) : Keeps G Q (callback handler) :=
  Keeps.bind (h.handler handler) fun _ => Keeps.pure h.stable ()

/-! ## The handlers of the thread -/

theorem checkCountsForTimeOut (h : Invariant G Q) (overrides : Overrides)
    (pModemData : Option ModemData) : Keeps G Q (checkCountsForTimeOut overrides pModemData) := by
  cases pModemData with
  | none => exact Keeps.pure h.stable ()
  | some data =>
      refine Keeps.bind (h.modifyGet fun _ => ⟨rfl, rfl, rfl, rfl, rfl⟩) fun count => ?_
      refine Keeps.when h.stable ?_
      unfold requestModemDump
      split
      · exact Keeps.pure h.stable ()
      · exact h.sendMessage _

theorem handleSolicitedResponse (h : Invariant G Q) (overrides : Overrides) (msg : Message) :
    Keeps G Q (handleSolicitedResponse overrides msg) := by
  unfold Service.handleSolicitedResponse
  refine Keeps.bind (Keeps.read h.stable _) fun cur => ?_
  split_ifs
  · refine Keeps.bind (h.handler _) fun handled => ?_
    exact Keeps.when h.stable (h.onRequestComplete _ _)
  · exact Keeps.pure h.stable ()

/-- **`HandleResponse` keeps the invariant.** -/
theorem handleResponse (h : Invariant G Q) (overrides : Overrides) :
    Keeps G Q (handleResponse overrides) := by
  unfold Service.handleResponse
  refine Keeps.bind (h.modify fun _ => ⟨rfl, rfl, rfl, rfl, rfl⟩) fun _ => ?_
  refine Keeps.bind (h.modifyGet fun _ => ⟨rfl, rfl, rfl, rfl, rfl⟩) fun msg => ?_
  cases msg with
  | none => exact Keeps.pure h.stable ()
  | some msg =>
      dsimp only
      split
      · exact Keeps.pure h.stable ()
      · unfold handleModemData
        split_ifs
        · exact h.handleSolicitedResponse overrides msg
        · exact Keeps.when h.stable (h.callback _)

theorem setRadioState (h : Invariant G Q) (overrides : Overrides) (radioState : INT) :
    Keeps G Q (setRadioState overrides radioState) := by
  unfold Service.setRadioState
  refine Keeps.bind (h.modifyGet fun _ => ⟨rfl, rfl, rfl, rfl, rfl⟩) fun old => ?_
  have hcallback : ∀ (c : Prop) [Decidable c] (handler : Handler),
      Keeps G Q (Program.when c (Service.callback handler)) :=
    fun c _ handler => Keeps.when h.stable (h.callback handler)
  refine Keeps.bind (hcallback _ _) fun _ => ?_
  refine Keeps.bind (hcallback _ _) fun _ => ?_
  refine Keeps.bind (hcallback _ _) fun _ => ?_
  exact Keeps.bind (hcallback _ _) fun _ => hcallback _ _

theorem radioStateChanged (h : Invariant G Q) (overrides : Overrides) (radioState : INT) :
    Keeps G Q (radioStateChanged overrides radioState) := by
  unfold Service.radioStateChanged
  refine Keeps.bind (h.setRadioState overrides radioState) fun _ => ?_
  refine Keeps.bind (Keeps.read h.stable id) fun s => ?_
  refine Keeps.bind ?_ fun _ => ?_
  · unfold completePending
    split
    · exact Keeps.pure h.stable ()
    · exact Keeps.when h.stable (h.complete _)
  · exact Keeps.bind (Keeps.read h.stable id) fun t => h.callback _

/-- **`HandleInternalMessage` keeps the invariant.** -/
theorem handleInternalMessage (h : Invariant G Q) (overrides : Overrides) :
    Keeps G Q (handleInternalMessage overrides) := by
  unfold Service.handleInternalMessage
  refine Keeps.bind (h.modifyGet fun _ => ⟨rfl, rfl, rfl, rfl, rfl⟩) fun msg => ?_
  cases msg with
  | none => exact Keeps.pure h.stable ()
  | some msg =>
      dsimp only
      split_ifs
      · exact h.radioStateChanged overrides _
      · exact h.callback _

theorem recordAsyncMsg (h : Invariant G Q) : Keeps G Q recordAsyncMsg := by
  unfold Service.recordAsyncMsg
  refine Keeps.bind (Keeps.read h.stable id) fun s => ?_
  refine Keeps.bind ?_ fun _ => h.setAsycMsgReqToken _
  unfold recordIfSent
  split
  · exact Keeps.pure h.stable ()
  · refine Keeps.when h.stable ?_
    refine Keeps.bind (h.modifyAsyncMsg _ _) fun _ => ?_
    refine Keeps.bind (h.modify fun _ => ⟨rfl, rfl, rfl, rfl, rfl⟩) fun _ => ?_
    exact h.modify fun _ => ⟨rfl, rfl, rfl, rfl, rfl⟩

/-- **`HandleAsycMsgRequest` keeps the invariant.** -/
theorem handleAsycMsgRequest (h : Invariant G Q) (overrides : Overrides) :
    Keeps G Q (handleAsycMsgRequest overrides) := by
  unfold Service.handleAsycMsgRequest
  refine Keeps.bind (h.modifyGet fun _ => ⟨rfl, rfl, rfl, rfl, rfl⟩) fun pMsg => ?_
  cases pMsg with
  | none => exact Keeps.pure h.stable ()
  | some pMsg =>
      dsimp only
      split
      · exact Keeps.pure h.stable ()
      · refine Keeps.bind (Keeps.read h.stable _) fun radioState => ?_
        split_ifs
        · exact h.contextOnRequestComplete _ _
        · refine Keeps.bind (h.modifyAsyncMsg _ _) fun _ => ?_
          refine Keeps.bind (h.setAsycMsgReqToken _) fun _ => ?_
          refine Keeps.bind (h.handler _) fun ret => ?_
          split_ifs
          · exact Keeps.bind (h.contextOnRequestComplete _ _) fun _ => h.setAsycMsgReqToken _
          · exact h.recordAsyncMsg

end Invariant

/-! ## Schedules -/

/-- What can happen to an idle service, with nothing in between. -/
inductive Event where
  /-- A producer enqueues a message and announces it. -/
  | produce (m : Message)
  /-- The thread reads a byte. -/
  | turn (h : Overrides)
  /-- A timer is due. -/
  | timeout (h : Overrides)

section Schedule

variable (G : Point → Service → Prop) [∀ l s, Decidable (G l s)]

/-- The service after an event that can happen. -/
def Event.apply : Event → Service → Option Service
  | produce m, s => some { s.push m with msgPipe := s.msgPipe ++ [m.nDirection] }
  | turn h, s =>
      match s.msgPipe with
      | [] => none
      | direction :: rest =>
          if (dispatch h direction).AllowedRun G { s with msgPipe := rest } then
            some ((dispatch h direction).run { s with msgPipe := rest }).2
          else none
  | timeout h, s =>
      if s.msgPipe = [] ∧ s.timerList ≠ [] ∧ (handleRequestTimeout h).AllowedRun G s then
        some ((handleRequestTimeout h).run s).2
      else none

/-- The service after a schedule. -/
def afterEvents (events : List Event) (s : Service) : Option Service :=
  events.foldlM (fun s e => e.apply G s) s

variable {G}

variable {c : Service × Option (ServiceM Unit)}

theorem Event.apply_reaches {s s' : Service} {e : Event} (h : server.Reaches G c (s, none))
    (he : e.apply G s = some s') :
    server.Reaches G c (s', none) := by
  cases e with
  | produce m =>
      have hpush := h.tail (Server.Step.env (t := none) (Env.enQueue s m))
      have hbyte := hpush.tail (Server.Step.env (t := none)
        (Env.notifyNewMessage _ m.nDirection List.mem_cons_self))
      simp only [push_msgPipe, List.erase_cons_head] at hbyte
      rw [← s.push_producers m] at hbyte
      cases he
      exact hbyte
  | turn overrides =>
      cases hpipe : s.msgPipe with
      | nil =>
          simp only [Event.apply, hpipe] at he
          cases he
      | cons direction rest =>
          simp only [Event.apply, hpipe] at he
          split_ifs at he with hallowed
          cases he
          exact Server.reaches_run (h.tail (Server.Step.serve (Serve.read overrides hpipe)))
            hallowed
  | timeout overrides =>
      simp only [Event.apply] at he
      split_ifs at he with hallowed
      cases he
      obtain ⟨hpipe, htimer, hrun⟩ := hallowed
      exact Server.reaches_run (h.tail (Server.Step.serve (Serve.timeout overrides hpipe htimer)))
        hrun

/-- **A schedule is a run.** -/
theorem reaches_schedule {s s' : Service} (events : List Event) (h : server.Reaches G c (s, none))
    (hevents : afterEvents G events s = some s') : server.Reaches G c (s', none) := by
  induction events generalizing s with
  | nil =>
      cases hevents
      exact h
  | cons e events ih =>
      rw [afterEvents, List.foldlM_cons] at hevents
      obtain ⟨t, he, hrest⟩ := Option.bind_eq_some_iff.mp hevents
      exact ih (Event.apply_reaches h he) hrest

end Schedule

/-- A derived service that sends every request to the modem with one
token, completes it with the response, and overrides nothing else. -/
def plainOverrides : Overrides where
  onHandleRequest _ := .call (.sendRequest ⟨7, false, false⟩ 0 true none) fun _ => .ret true
  onHandleSolicitedResponse m := .call (.onRequestComplete 0 (some m)) fun _ => .ret true
  onHandleUnsolicitedResponse _ := .ret false
  onHandleInternalMessage _ := .ret false
  onHandleRequestTimeout _ := .ret false
  onRadioStateChanged _ := .ret false
  onRadioAvailable := .ret false
  onRadioNotAvailable := .ret false
  onRadioOn := .ret false
  onRadioOffOrNotAvailable := .ret false
  isPossibleToPassInRadioOffState _ := true
  isPossibleToPassInRadioUnavailableState _ := true
  currentRadioState := radioStateOff
  modemDump := none

/-- A message from the framework, with or without request data. -/
def requestMessage (ptr : ℕ) (pReqData : Option RequestData) : Message :=
  ⟨ptr, 0, 0, .request, pReqData, none, none, .none⟩

/-- The modem's response. -/
def responseMessage (ptr : ℕ) : Message :=
  ⟨ptr, 0, 0, .response, none, some ⟨7, true, false⟩, none, .none⟩

end ExynosVendor.Ril.Service
