import ExynosVendor.Common.Run
import ExynosVendor.Ril.Core.Service

/-!
# Asynchronous requests

Three parties work on an asynchronous request at the same time: the
service's thread, which sends it, records it and handles its response; the
reader of the modem, which marks the response by looking the request up;
and the signal handler of the request's timer. Each call that takes a lock
is one step, and the steps of the three come in any order. A derived
service keeps its contract: it sends a request with a token of its own,
and completes each message it is given once.

The message pipe is left out: the thread takes a response when there is
one in the queue. So are the requests that are not asynchronous, whose
tokens are others.
-/

namespace ExynosVendor.Ril.Async

/-- Tokens are compared as words. -/
local instance : LawfulBEq UINT := instLawfulBEq

/-- What made a request complete. -/
inductive Cause where
  | response
  | timeout
  deriving DecidableEq

/-- An `OnRequestComplete` to the framework, with the token its request
message was found by. -/
structure Completion where
  token : UINT
  req : RequestData
  cause : Cause
  deriving DecidableEq

/-- Where the service's thread is: in `HandleAsycMsgRequest` behind the
write to the modem, or in `HandleResponse`. -/
inductive Thread where
  | idle
  /-- The modem has the request. -/
  | sent (pMsg : Message)
  /-- It is in the history. -/
  | recorded (pMsg : Message)
  /-- Its timer runs. -/
  | timed (pMsg : Message)
  /-- A response is off the queue. -/
  | taken (msg : Message)
  /-- It has a request: the handler calls `OnRequestComplete`. -/
  | matched (msg : Message)
  /-- There, the history was asked for the request. -/
  | found (msg : Message) (pRequestMsg : Option Message)
  /-- And the request was removed from it. -/
  | removed (msg : Message) (pRequestMsg : Option Message)
  deriving DecidableEq

/-- Where the reader is, with a response of the modem. -/
inductive Reader where
  | idle
  /-- The wait list had its token. -/
  | routed (pMsg : Message)
  /-- `AsyncMsgReqPreProcessing` has marked it. -/
  | marked (pMsg : Message)
  /-- It is to be enqueued. -/
  | ready (pMsg : Message)
  deriving DecidableEq

/-- Where `AsyncMsgReqTimerCallback` is for a token. -/
inductive Callback where
  | idle
  | started
  /-- The timer is deleted. -/
  | deleted
  /-- The history had the request. -/
  | found (pReqMsg : Message)
  /-- `OnHandleRequestTimeout` completes it, and has removed it. -/
  | removed (pReqMsg : Message)
  /-- `OnRequestTimeout` has completed it. -/
  | completed (pReqMsg : Message)
  | ended
  deriving DecidableEq

/-- What the three parties share, and where each of them is. -/
structure System where
  /-- `m_pAsyncMsgHistory`. -/
  history : List (UINT × Message)
  /-- `m_asyncMsgReqTimerMap`. -/
  timerMap : List UINT
  /-- The timers that run, by the tokens they were given. -/
  timers : List UINT
  /-- `m_RequestWaitList`. -/
  waitList : List UINT
  /-- `m_responseQueue`. -/
  responseQueue : List Message
  thread : Thread
  reader : Reader
  callback : UINT → Callback
  completions : List Completion
  /-- The tokens the modem was sent, with what was asked for. -/
  sent : List (UINT × RequestData)
  /-- Those whose response has arrived before the timeout. -/
  early : List UINT
  /-- Those with a response dropped as "No Requested message". -/
  dropped : List UINT

namespace System

/-- The context's `OnRequestComplete`; it does nothing without request
data. -/
def complete (s : System) (token : UINT) (pRequestMsg : Option Message) (cause : Cause) :
    System :=
  match pRequestMsg.bind (·.pReqData) with
  | none => s
  | some req => { s with completions := s.completions ++ [⟨token, req, cause⟩] }

/-- `ClearGarbage`, and what `OnRequestTimeout` does first. -/
def clearGarbage (s : System) (token : UINT) : System :=
  { s with waitList := s.waitList.filter (· ≠ token) }

/-- `m_pAsyncMsgHistory->Remove`. -/
def remove (s : System) (token : UINT) : System :=
  { s with history := AsyncMsgHistory.remove s.history token }

/-- `AsyncMsgReqDeleteTimer`. -/
def deleteTimer (s : System) (token : UINT) : System :=
  if token ∈ s.timerMap then
    { s with
      timerMap := s.timerMap.filter (· ≠ token)
      timers := s.timers.filter (· ≠ token) }
  else s

/-- `OnHandleRequest` sends a request with a fresh token; the wait list has
the token before the modem. -/
def send (s : System) (m : Message) : System :=
  match m.pReqData with
  | none => s
  | some req =>
      if s.thread = .idle ∧ m.nDirection = .asyncRequest ∧ m.getToken ≠ tokenInvalid ∧
          s.sent.lookup m.getToken = none then
        { s with
          waitList := m.getToken :: s.waitList
          sent := (m.getToken, req) :: s.sent
          thread := .sent m }
      else s

/-- The next step of the service's thread. -/
def threadStep (s : System) : System :=
  match s.thread with
  | .idle =>
      match s.responseQueue with
      | [] => s
      | msg :: rest => { s with responseQueue := rest, thread := .taken msg }
  | .sent pMsg =>
      let sent2CP : Message := { pMsg with nAsyncMsgReqStatus := .sent2CP }
      { s with
        history := AsyncMsgHistory.push s.history pMsg.getToken sent2CP
        thread := .recorded pMsg }
  | .recorded pMsg => { s with timers := pMsg.getToken :: s.timers, thread := .timed pMsg }
  | .timed pMsg =>
      { s with
        timerMap := if pMsg.getToken ∈ s.timerMap then s.timerMap
          else pMsg.getToken :: s.timerMap
        thread := .idle }
  | .taken msg =>
      if Service.isReqRspMatched none msg then { s with thread := .matched msg }
      else { s with thread := .idle, dropped := msg.getToken :: s.dropped }
  | .matched msg =>
      { s with thread := .found msg (AsyncMsgHistory.find s.history msg.getToken) }
  | .found msg pRequestMsg =>
      { s.remove msg.getToken with thread := .removed msg pRequestMsg }
  | .removed msg pRequestMsg =>
      { (s.complete msg.getToken pRequestMsg .response).clearGarbage msg.getToken with
        thread := .idle }

/-- A solicited response as it comes from the modem. -/
def IsResponse (m : Message) : Prop :=
  m.nDirection = .response ∧ m.pModemData.any (·.isSolicitedResponse) ∧
    m.nAsyncMsgReqStatus = .none

instance (m : Message) : Decidable (IsResponse m) := inferInstanceAs (Decidable (_ ∧ _))

/-- A response arrives. One whose token the wait list does not have reaches
no service. -/
def arrive (s : System) (m : Message) : System :=
  if s.reader = .idle ∧ IsResponse m ∧ m.getToken ∈ s.waitList then
    { s with
      waitList := s.waitList.filter (· ≠ m.getToken)
      reader := .routed m
      early := if s.callback m.getToken = .idle then m.getToken :: s.early else s.early }
  else s

/-- The next step of the reader. -/
def readerStep (s : System) : System :=
  match s.reader with
  | .idle => s
  | .routed pMsg =>
      if (AsyncMsgHistory.find s.history pMsg.getToken).any (·.nAsyncMsgReqStatus = .sent2CP) then
        { s with reader := .marked { pMsg with nAsyncMsgReqStatus := .response } }
      else { s with reader := .ready pMsg }
  | .marked pMsg => { s.deleteTimer pMsg.getToken with reader := .ready pMsg }
  | .ready pMsg => { s with responseQueue := s.responseQueue ++ [pMsg], reader := .idle }

/-- Another place of a token's callback. -/
def setCallback (s : System) (token : UINT) (c : Callback) : System :=
  { s with callback := Function.update s.callback token c }

/-- A timer expires. -/
def expire (s : System) (token : UINT) : System :=
  if token ∈ s.timers then
    { s.setCallback token .started with timers := s.timers.filter (· ≠ token) }
  else s

/-- The next step of a token's callback. `handled` is what
`OnHandleRequestTimeout` returns: if it is true, it has completed the
request through `OnRequestComplete`, which removes it first. -/
def callbackStep (s : System) (token : UINT) (handled : Bool) : System :=
  match s.callback token with
  | .idle => s
  | .started => (s.deleteTimer token).setCallback token .deleted
  | .deleted =>
      match AsyncMsgHistory.find s.history token with
      | none => s.setCallback token .ended
      | some pReqMsg => s.setCallback token (.found pReqMsg)
  | .found pReqMsg =>
      if pReqMsg.pReqData = none then (s.remove token).setCallback token .ended
      else if handled then (s.remove token).setCallback token (.removed pReqMsg)
      else ((s.clearGarbage token).complete token (some pReqMsg) .timeout).setCallback token
        (.completed pReqMsg)
  | .removed pReqMsg =>
      ((s.complete token (some pReqMsg) .timeout).clearGarbage token).setCallback token .ended
  | .completed _ => (s.remove token).setCallback token .ended
  | .ended => s

/-- Who acts next, and what comes from outside. -/
inductive Input where
  | send (m : Message)
  | thread
  | arrive (m : Message)
  | reader
  | expire (token : UINT)
  | callback (token : UINT) (handled : Bool)

/-- One step. -/
def step (s : System) : Input → System
  | .send m => s.send m
  | .thread => s.threadStep
  | .arrive m => s.arrive m
  | .reader => s.readerStep
  | .expire token => s.expire token
  | .callback token handled => s.callbackStep token handled

/-- Before the first request. -/
def start : System where
  history := []
  timerMap := []
  timers := []
  waitList := []
  responseQueue := []
  thread := .idle
  reader := .idle
  callback := fun _ => .idle
  completions := []
  sent := []
  early := []
  dropped := []

end System

end ExynosVendor.Ril.Async
