import ExynosVendor.Common.Run
import ExynosVendor.Ril.External.RawSegments
import Mathlib.Data.BitVec

/-!
# The client sessions of the radio external service

A client registers its callbacks and gets a number. The numbers are the bits of
`mAvailableClientFlag`, the callbacks stand in a table by the number, and a counter by the
number is raised whenever the callbacks change. A request keeps the number only, and its
response goes to whoever has the number then.

The service has one binder thread: registering, clearing and sending come one after the
other. Responses and indications come on the vendor's threads. They hold the read lock while
they call the clients, and let go of it when a call fails: `checkReturnStatus` notes the
counter, takes the write lock and takes the client out if the counter has not changed. An
error response goes out on the binder thread without the lock, and `checkReturnStatus` lets
go of a lock that is not held.

The sessions and the list of what was delivered are not in the source: a session is one call
of `setResponseFunctions`, and every request remembers the session that sent it. The
counters do not overflow.
-/

namespace ExynosVendor.Ril.External.Sessions

variable {O : Type}

/-! ## The service -/

def radioExternalClientNum : ℕ := 21

def rilcReqGetAvailableNetworks : ℤ := 39

/-- How far a session is: its number is assigned and its callbacks are not stored yet, it
listens, or it is over. -/
inductive Stage where
  | storing
  | listening
  | over
  deriving DecidableEq

/-- A session: its number and the callback object it registers. -/
structure Session (O : Type) where
  clientId : ℕ
  object : O
  stage : Stage
  deriving DecidableEq

/-- An entry of `s_external_pendingRequests`, and the session that sent it. `known` says that
`convertRilcReqId2RilOemReqId` has an id for the request. -/
structure RequestInfo where
  serial : ℤ
  clientId : ℕ
  rilcReqId : ℤ
  slotId : ℤ
  known : Bool
  sender : ℕ
  deriving DecidableEq

/-- Where a thread is in its calls: before the next one, behind one that failed, waiting for
the write lock with the counter it noted, waiting for the read lock again. -/
inductive Phase where
  | ready
  | failed
  | noted (counter : ℕ)
  | relocking
  deriving DecidableEq

/-- A thread that calls clients: the request it answers, none for an indication, the numbers
it has still to call, and whether its caller took the read lock. -/
structure Thread where
  request : Option RequestInfo
  todo : List ℕ
  locked : Bool
  phase : Phase
  deriving DecidableEq

/-- **The state** of the service. `res` stands for `mOemSlsiRadioExternalRes` and
`mOemSlsiRadioExternalInd`, which are always set and cleared together; `readers` counts the
read locks; `alive` is lost with a call through a null pointer. -/
structure State (O : Type) where
  mAvailableClientFlag : BitVec 32
  res : ℕ → Option O
  counter : ℕ → ℕ
  pending : List RequestInfo
  readers : ℕ
  threads : List Thread
  alive : Bool
  sessions : List (Session O)
  delivered : List (RequestInfo × O)

/-- The service as `registerService` leaves it. -/
def State.initial : State O :=
  ⟨0, fun _ => none, fun _ => 0, [], 0, [], true, [], []⟩

/-- What a thread that calls clients does next. -/
inductive Act where
  | deliver (isOk : Bool)
  | note
  | reset
  | relock
  | finish
  deriving DecidableEq

/-- What can happen next. -/
inductive Event (O : Type) where
  | determineClientId (object : O)
  | storeResponseFunctions
  | clearResponseFunctions (clientId : ℤ)
  | dispatchRaw (session : ℕ) (serial rilcReqId slotId : ℤ) (known : Bool)
  | onRequestComplete (n responseLen : ℕ)
  | onUnsolicitedResponse (datalen : ℕ)
  | thread (n : ℕ) (act : Act)

/-- The number of the first free bit. -/
def firstFree (flag : BitVec 32) : ℕ :=
  ((List.range radioExternalClientNum).find? fun i => !flag.getLsbD i).getD radioExternalClientNum

/-- The calls of one response: the networks come in one call or not at all. -/
def responseCalls (rilcReqId : ℤ) (responseLen : ℕ) : ℕ :=
  if rilcReqId = rilcReqGetAvailableNetworks then
    if responseLen > maxRadioDataSize then 0 else 1
  else if responseLen > maxRadioDataSize then segmentNum responseLen else 1

/-- The clients an indication goes to, segment by segment. -/
def indicationCalls (datalen : ℕ) : List ℕ :=
  (List.replicate (if datalen > maxRadioDataSize then segmentNum datalen else 1)
    (List.range radioExternalClientNum)).flatten

/-- A session of a number that listens is over. -/
def Session.finish (id : ℕ) (x : Session O) : Session O :=
  if x.clientId = id ∧ x.stage = .listening then { x with stage := .over } else x

/-- A session of a number that was to store its callbacks listens. -/
def Session.store (id : ℕ) (x : Session O) : Session O :=
  if x.clientId = id ∧ x.stage = .storing then { x with stage := .listening } else x

namespace State

/-- The binder thread has nothing to do. -/
def Idle (s : State O) : Prop :=
  (∀ x ∈ s.sessions, x.stage ≠ .storing) ∧ ∀ t ∈ s.threads, t.locked = true

instance (s : State O) : Decidable s.Idle := inferInstanceAs (Decidable (_ ∧ _))

/-- What clearing a number does, on either path. -/
def clear (s : State O) (id : ℕ) : State O :=
  { s with
    mAvailableClientFlag := s.mAvailableClientFlag &&& ~~~(1#32 <<< id)
    res := Function.update s.res id none
    counter := Function.update s.counter id (s.counter id + 1)
    sessions := s.sessions.map (Session.finish id) }

/-- `determineClientId`, the first part of `setResponseFunctions`: with all numbers taken the
session is over before it began. -/
def determineClientId (s : State O) (object : O) : State O :=
  let clientId := firstFree s.mAvailableClientFlag
  { s with
    mAvailableClientFlag := s.mAvailableClientFlag ||| (1#32 <<< clientId)
    sessions := s.sessions ++ [⟨clientId, object,
      if clientId < radioExternalClientNum then .storing else .over⟩] }

/-- The second part of `setResponseFunctions`. -/
def storeResponseFunctions (s : State O) : State O :=
  match s.sessions.find? fun x => x.stage = .storing with
  | none => s
  | some x =>
    { s with
      res := Function.update s.res x.clientId (some x.object)
      counter := Function.update s.counter x.clientId (s.counter x.clientId + 1)
      sessions := s.sessions.map (Session.store x.clientId) }

def clearResponseFunctions (s : State O) (clientId : ℤ) : State O :=
  if 0 ≤ clientId ∧ clientId < radioExternalClientNum then s.clear clientId.toNat else s

/-- The numbers a response has to call, if there is a callback at all when it begins. -/
def targets (s : State O) (r : RequestInfo) (calls : ℕ) : List ℕ :=
  if s.res r.clientId = none then [] else List.replicate calls r.clientId

/-- `external_dispatchRaw`: a request without an id is answered at once, without the lock,
and stays in the list. -/
def dispatchRaw (s : State O) (sender : ℕ) (serial rilcReqId slotId : ℤ) (known : Bool) :
    State O :=
  match s.sessions[sender]? with
  | none => s
  | some x =>
    if x.clientId < radioExternalClientNum then
      let r : RequestInfo := ⟨serial, x.clientId, rilcReqId, slotId, known, sender⟩
      let s' := { s with pending := r :: s.pending }
      if known then s'
      else { s' with
        threads := s.threads ++ [⟨some r, s.targets r (responseCalls rilcReqId 0), false, .ready⟩] }
    else s

/-- `RIL_External_onRequestComplete`, for a request the vendor has. -/
def onRequestComplete (s : State O) (n responseLen : ℕ) : State O :=
  match s.pending[n]? with
  | none => s
  | some r =>
    if r.known then
      { s with
        pending := s.pending.eraseIdx n
        readers := s.readers + 1
        threads := s.threads ++
          [⟨some r, s.targets r (responseCalls r.rilcReqId responseLen), true, .ready⟩] }
    else s

def onUnsolicitedResponse (s : State O) (datalen : ℕ) : State O :=
  { s with
    readers := s.readers + 1
    threads := s.threads ++ [⟨none, indicationCalls datalen, true, .ready⟩] }

/-- One call of a client. An indication leaves out a client that is gone; a response does not
look again. -/
def deliver (s : State O) (n : ℕ) (t : Thread) (isOk : Bool) : State O :=
  match t.todo with
  | [] => s
  | id :: rest =>
    match s.res id with
    | none =>
      if t.request = none then { s with threads := s.threads.set n { t with todo := rest } }
      else { s with alive := false }
    | some o =>
      let t' := if isOk then { t with todo := rest } else { t with phase := .failed }
      { s with
        threads := s.threads.set n t'
        delivered := (t.request.map fun r => (r, o)).toList ++ s.delivered }

/-- The first part of `checkReturnStatus`: the counter is noted and the read lock is let go,
held or not. -/
def note (s : State O) (n : ℕ) (t : Thread) : State O :=
  { s with
    readers := s.readers - 1
    threads := s.threads.set n { t with phase := .noted (s.counter (t.todo.headD 0)) } }

/-- The second part, under the write lock. -/
def reset (s : State O) (n : ℕ) (t : Thread) (counter : ℕ) : State O :=
  let id := t.todo.headD 0
  let s' := if counter = s.counter id then s.clear id else s
  { s' with threads := s.threads.set n { t with phase := .relocking } }

/-- The last part: the read lock is taken again and the caller goes on. -/
def relock (s : State O) (n : ℕ) (t : Thread) : State O :=
  { s with
    readers := s.readers + 1
    threads := s.threads.set n { t with todo := t.todo.tail, phase := .ready } }

/-- A thread with nothing left to call gives back the lock its caller took. -/
def finish (s : State O) (n : ℕ) (t : Thread) : State O :=
  { s with
    readers := if t.locked then s.readers - 1 else s.readers
    threads := s.threads.eraseIdx n }

/-- A step of a thread, if the thread is at it. -/
def stepThread (s : State O) (n : ℕ) (t : Thread) : Act → State O
  | .deliver isOk => if t.phase = .ready then s.deliver n t isOk else s
  | .note => if t.phase = .failed then s.note n t else s
  | .reset =>
    match t.phase with
    | .noted counter => if s.readers = 0 then s.reset n t counter else s
    | _ => s
  | .relock => if t.phase = .relocking then s.relock n t else s
  | .finish => if t.phase = .ready ∧ t.todo = [] then s.finish n t else s

/-- **A step.** What needs the write lock waits for the readers, and what needs the binder
thread waits for it. -/
def step (s : State O) (e : Event O) : State O :=
  if s.alive = false then s
  else
    match e with
    | .determineClientId object =>
      if s.Idle ∧ s.readers = 0 then s.determineClientId object else s
    | .storeResponseFunctions => if s.readers = 0 then s.storeResponseFunctions else s
    | .clearResponseFunctions clientId =>
      if s.Idle ∧ s.readers = 0 then s.clearResponseFunctions clientId else s
    | .dispatchRaw sender serial rilcReqId slotId known =>
      if s.Idle then s.dispatchRaw sender serial rilcReqId slotId known else s
    | .onRequestComplete n responseLen => s.onRequestComplete n responseLen
    | .onUnsolicitedResponse datalen => s.onUnsolicitedResponse datalen
    | .thread n act =>
      match s.threads[n]? with
      | none => s
      | some t => s.stepThread n t act

end State

end ExynosVendor.Ril.External.Sessions
