import ExynosVendor.Common.Program
import ExynosVendor.Ril.Core.Message

/-!
# The service engine

`Service` of `core/service.cpp`: the queues, the message pipe, and the
handlers its thread runs one after the other (`servicemonitorrunnable.cpp`).
A handler is a program of atomic actions on the service, so that other
threads may act between any two. What a derived service does in its
overrides is a `Handler`, any program over the engine's interface.
-/

namespace ExynosVendor.Ril

def radioStateOff : INT := 0

def radioStateUnavailable : INT := 1

def radioStateOn : INT := 10

def rilERadioNotAvailable : INT := 1

def rilEGenericFailure : INT := 2

def rilEInternalErr : INT := 38

def msgSystemRadioStateChanged : INT := 0x0101

/-- **A service**, the clock it reads, what it has told the framework,
and what the producers of messages have still to write. -/
structure Service where
  /-- `m_pCurReqMsg`, the request in flight. -/
  pCurReqMsg : Option Message
  /-- `m_nCurrentReqId`. -/
  nCurrentReqId : UINT
  /-- `m_nOverallRadioState`. -/
  nOverallRadioState : INT
  /-- `m_nr_count`. -/
  nrCount : UINT
  /-- `m_requestQueue`. -/
  requestQueue : List Message
  /-- `m_responseQueue`. -/
  responseQueue : List Message
  /-- `m_internalQueue`. -/
  internalQueue : List Message
  /-- `m_asyncMsgReqQueue`. -/
  asyncMsgReqQueue : List Message
  /-- The bytes in the message pipe. -/
  msgPipe : List MsgDirection
  /-- `mTimerList`. -/
  timerList : List TimerEvent
  /-- `m_nAsycMsgReqToken`. -/
  nAsycMsgReqToken : UINT
  /-- `m_pAsyncMsgHistory`, a map from tokens. -/
  pAsyncMsgHistory : List (UINT × Message)
  /-- The tokens in `m_asyncMsgReqTimerMap`. -/
  asyncMsgReqTimerMap : List UINT
  /-- The message `HandleAsycMsgRequest` has taken, unless deleted. -/
  pAsyncMsg : Option Message
  /-- `gettimeofday`. -/
  clock : Timeval
  /-- The requests completed to the framework, with their results. -/
  completions : List (RequestData × INT)
  /-- The bytes of the messages pushed by other threads and not yet
  announced. -/
  producers : List MsgDirection
  deriving DecidableEq

/-- The points of the engine a run can be restricted at. -/
inductive Point where
  /-- `HandleRequest` takes a message off the queue. -/
  | reqDeQ
  /-- `OnHandleRequestTimeout` has not handled a timeout. -/
  | timeoutUnhandled

/-- A program of the service's thread. -/
abbrev ServiceM := Program Service Point

namespace AsyncMsgHistory

/-- `Push`: a token that is there keeps its message. -/
def push (history : List (UINT × Message)) (token : UINT) (m : Message) :
    List (UINT × Message) :=
  if token ≠ tokenInvalid ∧ ¬ history.any (·.1 = token) then history ++ [(token, m)] else history

def remove (history : List (UINT × Message)) (token : UINT) : List (UINT × Message) :=
  if token ≠ tokenInvalid then history.filter (·.1 ≠ token) else history

def find (history : List (UINT × Message)) (token : UINT) : Option Message :=
  if token ≠ tokenInvalid then (history.find? (·.1 = token)).map (·.2) else none

def isReqInQueue (history : List (UINT × Message)) (nReqId : UINT) : Bool :=
  history.any fun entry => entry.2.pReqData.any (·.reqId = nReqId)

end AsyncMsgHistory

namespace Service

def isInTransaction (s : Service) (nReqId : UINT) : Bool :=
  (s.nCurrentReqId ≠ 0 && s.nCurrentReqId = nReqId) ||
    AsyncMsgHistory.isReqInQueue s.pAsyncMsgHistory nReqId

/-- `push` to the queue of the message's direction. -/
def push (s : Service) (m : Message) : Service :=
  match m.nDirection with
  | .request => { s with requestQueue := s.requestQueue ++ [m] }
  | .response => { s with responseQueue := s.responseQueue ++ [m] }
  | .internal => { s with internalQueue := s.internalQueue ++ [m] }
  | .asyncRequest => { s with asyncMsgReqQueue := s.asyncMsgReqQueue ++ [m] }

@[simp] theorem push_pCurReqMsg (s : Service) (m : Message) :
    (s.push m).pCurReqMsg = s.pCurReqMsg := by
  unfold push
  split <;> rfl

@[simp] theorem push_nCurrentReqId (s : Service) (m : Message) :
    (s.push m).nCurrentReqId = s.nCurrentReqId := by
  unfold push
  split <;> rfl

@[simp] theorem push_msgPipe (s : Service) (m : Message) : (s.push m).msgPipe = s.msgPipe := by
  unfold push
  split <;> rfl

@[simp] theorem push_producers (s : Service) (m : Message) :
    (s.push m).producers = s.producers := by
  unfold push
  split <;> rfl

theorem push_requestQueue (s : Service) {m : Message} (h : m.nDirection ≠ .request) :
    (s.push m).requestQueue = s.requestQueue := by
  unfold push
  split
  · exact absurd (by assumption) h
  · rfl
  · rfl
  · rfl

def enQueue (m : Message) : ServiceM Unit :=
  Program.modify fun s => s.push m

def reqDeQ : ServiceM (Option Message) :=
  Program.modifyGet (some .reqDeQ) fun s =>
    (s.requestQueue.head?, { s with requestQueue := s.requestQueue.tail })

def respDeQ : ServiceM (Option Message) :=
  Program.modifyGet none fun s =>
    (s.responseQueue.head?, { s with responseQueue := s.responseQueue.tail })

def internalDeQ : ServiceM (Option Message) :=
  Program.modifyGet none fun s =>
    (s.internalQueue.head?, { s with internalQueue := s.internalQueue.tail })

/-- `asycMsgReqDeQ`, into the handler's own variable. -/
def asycMsgReqDeQ : ServiceM (Option Message) :=
  Program.modifyGet none fun s =>
    (s.asyncMsgReqQueue.head?, { s with asyncMsgReqQueue := s.asyncMsgReqQueue.tail
                                        pAsyncMsg := s.asyncMsgReqQueue.head? })

/-- `NotifyNewMessage`: one byte into the pipe. -/
def notifyNewMessage (direction : MsgDirection) : ServiceM Unit :=
  Program.modify fun s => { s with msgPipe := s.msgPipe ++ [direction] }

def setTransaction (nReqId : UINT) : ServiceM Unit :=
  Program.modify fun s => { s with nCurrentReqId := nReqId }

def unsetTransaction : ServiceM Unit :=
  setTransaction 0

/-- `NotifyNextRequestMessage`: the current message is deleted, and the
next one is asked for. -/
def notifyNextRequestMessage : ServiceM Unit := do
  Program.modify fun s => { s with pCurReqMsg := none }
  notifyNewMessage .request

/-- The context's `OnRequestComplete`; it does nothing without request
data. -/
def contextOnRequestComplete (pRequest : Option RequestData) (result : INT) : ServiceM Unit :=
  match pRequest with
  | none => pure ()
  | some r => Program.modify fun s => { s with completions := s.completions ++ [(r, result)] }

/-- The context's `OnRequestTimeout`. -/
def contextOnRequestTimeout (pRequest : Option RequestData) : ServiceM Unit :=
  contextOnRequestComplete pRequest rilEInternalErr

/-- `mTimerList.erase`. -/
def eraseTimer (m : Message) : ServiceM Unit :=
  Program.modify fun s => { s with timerList := TimerList.erase s.timerList m }

/-- `mTimerList.put`. -/
def putTimer (m : Message) (millis : ℕ) : ServiceM Unit :=
  Program.modify fun s => { s with timerList := TimerList.put s.timerList s.clock m millis }

/-- A change of the current message. -/
def modifyCurReqMsg (f : Message → Message) : ServiceM Unit :=
  Program.modify fun s => { s with pCurReqMsg := s.pCurReqMsg.map f }

/-- A change of the message `HandleAsycMsgRequest` holds, when it is the
one meant. -/
def modifyAsyncMsg (m : Message) (f : Message → Message) : ServiceM Unit :=
  Program.modify fun s =>
    { s with pAsyncMsg := s.pAsyncMsg.map fun held => if held.ptr = m.ptr then f held else held }

/-! ## Completion and postponement -/

/-- The current message, if any, is completed. -/
def completeCurrent (result : INT) : Option Message → ServiceM Unit
  | none => pure ()
  | some m => do
      contextOnRequestComplete m.pReqData result
      eraseTimer m

/-- The synchronous branch of `OnRequestComplete`. -/
def onSyncRequestComplete (result : INT) : ServiceM Unit := do
  let cur ← Program.read (·.pCurReqMsg)
  completeCurrent result cur
  unsetTransaction
  notifyNextRequestMessage

/-- `delete pRequestMsg`. -/
def deleteAsyncMsg (pRequestMsg : Option Message) : ServiceM Unit :=
  Program.modify fun s =>
    { s with pAsyncMsg := s.pAsyncMsg.filter fun held => pRequestMsg.all (·.ptr ≠ held.ptr) }

/-- `m_pAsyncMsgHistory->Remove`. -/
def removeHistory (token : UINT) : ServiceM Unit :=
  Program.modify fun s =>
    { s with pAsyncMsgHistory := AsyncMsgHistory.remove s.pAsyncMsgHistory token }

/-- `m_pAsyncMsgHistory->Find`. -/
def findHistory (token : UINT) : ServiceM (Option Message) :=
  Program.read fun s => AsyncMsgHistory.find s.pAsyncMsgHistory token

/-- The asynchronous branch of `OnRequestComplete`, up to the request
message it is about. -/
def asyncRequestMsg (pMsg : Message) : ServiceM (Option Message) :=
  if pMsg.nDirection = .asyncRequest then do
    Program.when (pMsg.nAsyncMsgReqStatus = .sent2CP) (removeHistory pMsg.getToken)
    pure (some pMsg)
  else if pMsg.nAsyncMsgReqStatus = .response then do
    let pRequestMsg ← findHistory pMsg.getToken
    removeHistory pMsg.getToken
    pure pRequestMsg
  else pure none

/-- The asynchronous branch of `OnRequestComplete`. -/
def onAsyncRequestComplete (result : INT) (pMsg : Message) : ServiceM Unit := do
  let pRequestMsg ← asyncRequestMsg pMsg
  contextOnRequestComplete (pRequestMsg.bind (·.pReqData)) result
  deleteAsyncMsg pRequestMsg

def onRequestComplete (result : INT) (pMsg : Option Message) : ServiceM Unit :=
  match pMsg with
  | none => onSyncRequestComplete result
  | some m =>
      if m.nAsyncMsgReqStatus = .none then onSyncRequestComplete result
      else onAsyncRequestComplete result m

/-- The current message, if any, is put into the timer list. -/
def postponeCurrent (millis : ℕ) : Option Message → ServiceM Unit
  | none => pure ()
  | some m => do
      Program.modify fun s => { s with pCurReqMsg := none }
      unsetTransaction
      eraseTimer m
      putTimer { m with pModemData := none, nTimeout := 0 } millis

def postponeRequestMessage (millis : ℕ) : ServiceM Unit := do
  let postponeMsg ← Program.read (·.pCurReqMsg)
  postponeCurrent millis postponeMsg
  notifyNextRequestMessage

/-! ## Timeouts and the modem -/

def startRequestTimeout : ServiceM Unit := do
  modifyCurReqMsg fun m => if m.nTimeout.toInt ≤ 0 then { m with nTimeout := 60000 } else m
  let cur ← Program.read (·.pCurReqMsg)
  match cur with
  | none => pure ()
  | some m => do
      eraseTimer m
      putTimer m m.nTimeout.toNat

def setRequestTimeout (timeout : UINT) : ServiceM Unit :=
  modifyCurReqMsg fun m => { m with nTimeout := timeout }

def resetRequestTimeout (timeout : UINT) : ServiceM Unit := do
  setRequestTimeout timeout
  startRequestTimeout

/-- `m_nAsycMsgReqToken` is set. -/
def setAsycMsgReqToken (token : UINT) : ServiceM Unit :=
  Program.modify fun s => { s with nAsycMsgReqToken := token }

/-- `SendRequest`, of modem data that `Send` may refuse. -/
def sendRequest (pModemData : ModemData) (nTimeout : UINT) (sent : Bool)
    (pMsg : Option Message) : ServiceM Unit :=
  let fill : Message → Message := fun m =>
    { m with pModemData := some pModemData, nTimeout := nTimeout }
  match pMsg with
  | none => modifyCurReqMsg fill
  | some m =>
      if m.nAsyncMsgReqStatus = .none then modifyCurReqMsg fill
      else do
        modifyAsyncMsg m fill
        Program.when sent (setAsycMsgReqToken pModemData.token)

def asyncMsgReqDeleteTimer (token : UINT) : ServiceM Unit :=
  Program.modify fun s => { s with asyncMsgReqTimerMap := s.asyncMsgReqTimerMap.filter (· ≠ token) }

/-- `AsyncMsgReqPreProcessing`: a response to a request that has been sent
is marked. -/
def asyncMsgReqPreProcessing (m : Message) : ServiceM Message :=
  if m.nDirection = .response ∧ m.getToken ≠ tokenInvalid ∧
      m.pModemData.any (·.isSolicitedResponse) then do
    let pReqMsg ← findHistory m.getToken
    if pReqMsg.any (·.nAsyncMsgReqStatus = .sent2CP) then do
      asyncMsgReqDeleteTimer m.getToken
      pure { m with nAsyncMsgReqStatus := .response }
    else pure m
  else pure m

/-- `ServiceMgr::SendMessage`, to this service. -/
def sendMessage (m : Message) : ServiceM Unit := do
  let m ← asyncMsgReqPreProcessing m
  enQueue m
  notifyNewMessage m.nDirection

end Service

/-! ## Derived services -/

/-- What a derived service may call on its engine. -/
inductive Call where
  /-- `OnRequestComplete`. -/
  | onRequestComplete (result : INT) (pMsg : Option Message)
  /-- `PostponeRequestMessage`. -/
  | postponeRequestMessage (millis : ℕ)
  /-- `SendRequest`. -/
  | sendRequest (pModemData : ModemData) (nTimeout : UINT) (sent : Bool) (pMsg : Option Message)
  /-- `SetRequestTimeout`. -/
  | setRequestTimeout (timeout : UINT)
  /-- `ResetRequestTimeout`. -/
  | resetRequestTimeout (timeout : UINT)
  /-- `SendMessage`, to the service itself. -/
  | sendMessage (m : Message)

/-- The engine's side of a call. -/
def Call.run : Call → ServiceM Unit
  | onRequestComplete result pMsg => Service.onRequestComplete result pMsg
  | postponeRequestMessage millis => Service.postponeRequestMessage millis
  | sendRequest pModemData nTimeout sent pMsg =>
      Service.sendRequest pModemData nTimeout sent pMsg
  | setRequestTimeout timeout => Service.setRequestTimeout timeout
  | resetRequestTimeout timeout => Service.resetRequestTimeout timeout
  | sendMessage m => Service.sendMessage m

/-- **An override of a derived service**: calls, each chosen by the
state the service is in, and a result. -/
inductive Handler where
  /-- Return. -/
  | ret (handled : Bool)
  /-- Call the engine and go on. -/
  | call (c : Call) (k : Service → Handler)

/-- The override as a program. -/
def Handler.run : Handler → ServiceM Bool
  | ret handled => pure handled
  | call c k => do
      c.run
      let s ← Program.read id
      (k s).run

/-- **A derived service**, at one turn of the loop: the virtual functions
as they act in the state its own fields are in. -/
structure Overrides where
  /-- `OnHandleRequest`. -/
  onHandleRequest : Message → Handler
  /-- `OnHandleSolicitedResponse`. -/
  onHandleSolicitedResponse : Message → Handler
  /-- `OnHandleUnsolicitedResponse`. -/
  onHandleUnsolicitedResponse : Message → Handler
  /-- `OnHandleInternalMessage`, and the functions for the other system
  messages. -/
  onHandleInternalMessage : Message → Handler
  /-- `OnHandleRequestTimeout`. -/
  onHandleRequestTimeout : Message → Handler
  /-- `OnRadioStateChanged`. -/
  onRadioStateChanged : INT → Handler
  /-- `OnRadioAvailable`. -/
  onRadioAvailable : Handler
  /-- `OnRadioNotAvailable`. -/
  onRadioNotAvailable : Handler
  /-- `OnRadioOn`. -/
  onRadioOn : Handler
  /-- `OnRadioOffOrNotAvailable`. -/
  onRadioOffOrNotAvailable : Handler
  /-- `IsPossibleToPassInRadioOffState`. -/
  isPossibleToPassInRadioOffState : INT → Bool
  /-- `IsPossibleToPassInRadioUnavailableState`. -/
  isPossibleToPassInRadioUnavailableState : INT → Bool
  /-- The radio state the context gives. -/
  currentRadioState : INT
  /-- The request for a modem dump, when this is the service it is sent
  to. -/
  modemDump : Option Message

/-! ## The handlers of the thread -/

namespace Service

/-- A function without a result. -/
def callback (handler : Handler) : ServiceM Unit := do
  let _ ← handler.run
  pure ()

/-- Whether `HandleRequest` may pass the request on in the radio's
state. -/
def isPossibleToPass (h : Overrides) (radioState : INT) (requestId : INT) : Bool :=
  if radioState = radioStateUnavailable then h.isPossibleToPassInRadioUnavailableState requestId
  else if radioState = radioStateOff then
    h.isPossibleToPassInRadioUnavailableState requestId ||
      h.isPossibleToPassInRadioOffState requestId
  else true

/-- `HandleRequest`, on a message and its request data. -/
def serveRequest (h : Overrides) (msg : Message) (pReqData : RequestData) : ServiceM Unit := do
  let radioState ← Program.read (·.nOverallRadioState)
  if ! isPossibleToPass h radioState pReqData.reqId then do
    contextOnRequestComplete (some pReqData) rilERadioNotAvailable
    notifyNextRequestMessage
  else do
    setTransaction pReqData.reqId
    Program.modify fun s => { s with pCurReqMsg := some msg }
    let ret ← (h.onHandleRequest msg).run
    if ! ret then do
      contextOnRequestComplete (some pReqData) rilEGenericFailure
      unsetTransaction
      notifyNextRequestMessage
    else startRequestTimeout

/-- `HandleRequest`. A message without request data is deleted. -/
def handleRequest (h : Overrides) : ServiceM Unit := do
  let cur ← Program.read (·.pCurReqMsg)
  if cur.isSome then pure ()
  else do
    let msg ← reqDeQ
    match msg with
    | none => pure ()
    | some msg =>
        match msg.pReqData with
        | none => pure ()
        | some pReqData => serveRequest h msg pReqData

/-- Whether a solicited response has a request. -/
def isReqRspMatched (cur : Option Message) (msg : Message) : Bool :=
  cur.any (·.getToken = msg.getToken) || msg.nAsyncMsgReqStatus = .response

/-- `HandleResponse`, on a solicited response. One without a request is
dropped. -/
def handleSolicitedResponse (h : Overrides) (msg : Message) : ServiceM Unit := do
  let cur ← Program.read (·.pCurReqMsg)
  if isReqRspMatched cur msg then do
    let handled ← (h.onHandleSolicitedResponse msg).run
    Program.when (! handled) (onRequestComplete rilEGenericFailure (some msg))
  else pure ()

/-- `HandleResponse`, on the modem data of the message. -/
def handleModemData (h : Overrides) (msg : Message) (modemData : ModemData) : ServiceM Unit :=
  if modemData.isSolicitedResponse then handleSolicitedResponse h msg
  else Program.when modemData.isUnsolicitedResponse (callback (h.onHandleUnsolicitedResponse msg))

def handleResponse (h : Overrides) : ServiceM Unit := do
  Program.modify fun s => { s with nrCount := 0 }
  let msg ← respDeQ
  match msg with
  | none => pure ()
  | some msg =>
      match msg.pModemData with
      | none => pure ()
      | some modemData => handleModemData h msg modemData

def maxNrCount : UINT := 3

/-- The modem dump is asked for. -/
def requestModemDump (h : Overrides) : ServiceM Unit :=
  match h.modemDump with
  | none => pure ()
  | some dump => sendMessage dump

def checkCountsForTimeOut (h : Overrides) (pModemData : Option ModemData) : ServiceM Unit :=
  match pModemData with
  | none => pure ()
  | some _ => do
      let count ← Program.modifyGet none fun s =>
        (s.nrCount + 1, { s with nrCount := s.nrCount + 1 })
      Program.when (count > maxNrCount) (requestModemDump h)

/-- `HandleRequestTimeout`, for the current message. -/
def timeoutCurrent (h : Overrides) (cur : Message) (req : RequestData) : ServiceM Unit := do
  let handled ← (h.onHandleRequestTimeout cur).run
  if handled then pure ()
  else do
    Program.mark .timeoutUnhandled
    checkCountsForTimeOut h cur.pModemData
    contextOnRequestTimeout (some req)
    notifyNextRequestMessage

def handleRequestTimeout (h : Overrides) : ServiceM Unit := do
  let te ← Program.modifyGet none fun s =>
    ((TimerList.pop s.timerList).1, { s with timerList := (TimerList.pop s.timerList).2 })
  match te with
  | none => pure ()
  | some te => do
      let cur ← Program.read (·.pCurReqMsg)
      match cur.filter (·.ptr = te.msg.ptr) with
      | some cur =>
          match cur.pReqData with
          | none => pure ()
          | some req => timeoutCurrent h cur req
      | none => do
          enQueue te.msg
          notifyNewMessage .request

/-- `SetRadioState`, with notification. -/
def setRadioState (h : Overrides) (radioState : INT) : ServiceM Unit := do
  let old ← Program.modifyGet none fun s =>
    (s.nOverallRadioState, { s with nOverallRadioState := radioState })
  Program.when (old ≠ radioState) (callback (h.onRadioStateChanged radioState))
  Program.when (radioState ≠ radioStateUnavailable ∧ old = radioStateUnavailable)
    (callback h.onRadioAvailable)
  Program.when (radioState = radioStateUnavailable ∧ old ≠ radioStateUnavailable)
    (callback h.onRadioNotAvailable)
  Program.when (radioState = radioStateOn ∧ old ≠ radioStateOn) (callback h.onRadioOn)
  Program.when ((radioState = radioStateOff ∨ radioState = radioStateOn) ∧
    old = radioStateUnavailable) (callback h.onRadioOffOrNotAvailable)

/-- Whether a pending request may stay in the radio's state. -/
def isPossibleToStay (h : Overrides) (radioState : INT) (requestId : INT) : Bool :=
  if radioState = radioStateOff then h.isPossibleToPassInRadioOffState requestId
  else if radioState = radioStateUnavailable then
    h.isPossibleToPassInRadioUnavailableState requestId
  else true

/-- The pending request is completed unless it may stay. -/
def completePending (h : Overrides) (s : Service) : ServiceM Unit :=
  match s.pCurReqMsg.bind (·.pReqData) with
  | none => pure ()
  | some pRequest =>
      Program.when (! isPossibleToStay h s.nOverallRadioState pRequest.reqId)
        (onRequestComplete rilERadioNotAvailable none)

/-- `HandleInternalMessage`, on `MSG_SYSTEM_RADIO_STATE_CHANGED`. -/
def radioStateChanged (h : Overrides) (radioState : INT) : ServiceM Unit := do
  setRadioState h radioState
  let s ← Program.read id
  completePending h s
  let s ← Program.read id
  callback (h.onRadioStateChanged s.nOverallRadioState)

def handleInternalMessage (h : Overrides) : ServiceM Unit := do
  let msg ← internalDeQ
  match msg with
  | none => pure ()
  | some msg =>
      if msg.nMsgId = msgSystemRadioStateChanged then
        radioStateChanged h (msg.pUserData.getD h.currentRadioState)
      else callback (h.onHandleInternalMessage msg)

/-! ### Asynchronous requests -/

def asyncMsgReqInsertHistory (token : UINT) (m : Message) : ServiceM Unit :=
  Program.modify fun s =>
    { s with pAsyncMsgHistory := AsyncMsgHistory.push s.pAsyncMsgHistory token m }

/-- `AsyncMsgReqStartTimer`, up to the timer map. -/
def asyncMsgReqStartTimer (token : UINT) : ServiceM Unit :=
  Program.modify fun s =>
    { s with asyncMsgReqTimerMap := if token ∈ s.asyncMsgReqTimerMap then s.asyncMsgReqTimerMap
                                    else s.asyncMsgReqTimerMap ++ [token] }

/-- Whether `HandleAsycMsgRequest` may pass the request on. -/
def isPossibleToPassAsync (h : Overrides) (radioState : INT) (requestId : INT) : Bool :=
  if radioState = radioStateOff then h.isPossibleToPassInRadioOffState requestId
  else if radioState = radioStateUnavailable then
    h.isPossibleToPassInRadioUnavailableState requestId
  else true

/-- The request is recorded and its timer started. -/
def recordSent (pMsg : Message) : ServiceM Unit := do
  modifyAsyncMsg pMsg fun m => { m with nAsyncMsgReqStatus := .sent2CP }
  asyncMsgReqInsertHistory pMsg.getToken { pMsg with nAsyncMsgReqStatus := .sent2CP }
  asyncMsgReqStartTimer pMsg.getToken

/-- The request is recorded if it is the one that was sent. -/
def recordIfSent (s : Service) : ServiceM Unit :=
  match s.pAsyncMsg with
  | none => pure ()
  | some pMsg =>
      Program.when (pMsg.getToken ≠ tokenInvalid ∧ s.nAsycMsgReqToken = pMsg.getToken)
        (recordSent pMsg)

/-- `HandleAsycMsgRequest`, after `OnHandleRequest` has accepted the
message. -/
def recordAsyncMsg : ServiceM Unit := do
  let s ← Program.read id
  recordIfSent s
  setAsycMsgReqToken tokenInvalid

def handleAsycMsgRequest (h : Overrides) : ServiceM Unit := do
  let pMsg ← asycMsgReqDeQ
  match pMsg with
  | none => pure ()
  | some pMsg =>
      match pMsg.pReqData with
      | none => pure ()
      | some pReqData => do
          let radioState ← Program.read (·.nOverallRadioState)
          if ! isPossibleToPassAsync h radioState pReqData.reqId then
            contextOnRequestComplete (some pReqData) rilERadioNotAvailable
          else do
            modifyAsyncMsg pMsg fun m => { m with nAsyncMsgReqStatus := .processing }
            setAsycMsgReqToken tokenInvalid
            let ret ← (h.onHandleRequest { pMsg with nAsyncMsgReqStatus := .processing }).run
            if ! ret then do
              contextOnRequestComplete (some pReqData) rilEGenericFailure
              setAsycMsgReqToken tokenInvalid
            else recordAsyncMsg

/-! ## The thread and its environment -/

/-- `ServiceMonitorRunnable::Run`, on a byte. -/
def dispatch (h : Overrides) : MsgDirection → ServiceM Unit
  | .request => handleRequest h
  | .response => handleResponse h
  | .internal => handleInternalMessage h
  | .asyncRequest => handleAsycMsgRequest h

/-- What the other threads do. -/
inductive Env : Service → Service → Prop
  /-- A producer enqueues its message. -/
  | enQueue (s : Service) (m : Message) :
      Env s { s.push m with producers := m.nDirection :: s.producers }
  /-- And writes its byte. -/
  | notifyNewMessage (s : Service) (direction : MsgDirection) : direction ∈ s.producers →
      Env s { s with msgPipe := s.msgPipe ++ [direction]
                     producers := s.producers.erase direction }
  /-- The reader and the timer of the asynchronous requests delete a
  timer. -/
  | deleteTimer (s : Service) (token : UINT) :
      Env s { s with asyncMsgReqTimerMap := s.asyncMsgReqTimerMap.filter (· ≠ token) }
  /-- A timer completes an asynchronous request. -/
  | asyncTimeout (s : Service) (token : UINT) (completions : List (RequestData × INT))
      (nrCount : UINT) :
      Env s { s with pAsyncMsgHistory := AsyncMsgHistory.remove s.pAsyncMsgHistory token
                     completions := s.completions ++ completions
                     nrCount := nrCount }
  /-- Time passes, or is set. -/
  | clock (s : Service) (now : Timeval) : Env s { s with clock := now }

/-- What the service's thread takes up when it is idle. -/
inductive Serve : Service → Service → ServiceM Unit → Prop
  /-- A byte is read from the pipe. -/
  | read {s : Service} {direction : MsgDirection} {rest : List MsgDirection} (h : Overrides) :
      s.msgPipe = direction :: rest →
        Serve s { s with msgPipe := rest } (dispatch h direction)
  /-- The pipe stays empty until the first timer is due. -/
  | timeout {s : Service} (h : Overrides) : s.msgPipe = [] → s.timerList ≠ [] →
      Serve s s (handleRequestTimeout h)

/-- The service's thread among the others. -/
def server : Server Service Point where
  env := Env
  serve := Serve

/-- The service after `Init`. -/
def init (now : Timeval) : Service where
  pCurReqMsg := none
  nCurrentReqId := 0
  nOverallRadioState := radioStateUnavailable
  nrCount := 0
  requestQueue := []
  responseQueue := []
  internalQueue := []
  asyncMsgReqQueue := []
  msgPipe := []
  timerList := []
  nAsycMsgReqToken := tokenInvalid
  pAsyncMsgHistory := []
  asyncMsgReqTimerMap := []
  pAsyncMsg := none
  clock := now
  completions := []
  producers := []

end Service

end ExynosVendor.Ril
