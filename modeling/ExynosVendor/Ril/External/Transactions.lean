import ExynosVendor.Ril.External.Sessions

/-!
# The transactions of a client

`RILC_Send` takes a free record of a table of 255, and the index of the record is the serial
number that goes with the request. The service keeps an entry for the request, hands it to the
vendor with the entry as a token, and sends the response with the serial back. The client
looks up the record by the serial, compares the message id, frees the record and calls the
handler. When the service dies, the client empties the table and calls the handlers of ten
records at most.

Sending is two steps, for the proxy is fetched before the record is taken, and dying and what
the client does about it are four. Requests and responses are oneway calls, and are under way
in between. Payloads and responses have at most `MAX_RADIO_DATA_SIZE` bytes here; the longer
ones go in segments. The service answers the client under the number it got when it connected,
and a response whose call fails is not looked at.

The number of a `RILC_Send` is not in the source, nor what is kept by it: who sent what, which
handlers were called, and whose record a response has completed. `service` numbers the service
processes, and a response is `late` when it comes from one that has died and whose death has
been handled.
-/

namespace ExynosVendor.Ril.External.Transactions

/-! ## The tables -/

def rilcTransactionMax : ℕ := 255

def rilcDeathHandlingRecordMax : ℕ := 10

/-- `sizeof(OEM_OperatorInfo)`: two names, a network number and a state, without padding. -/
def operatorInfoSize : ℕ := 64 + 32 + 6 + 4

/-- `sizeof(char *)`. -/
def pointerSize : ℕ := 8

/-- An id is in one of the ranges. -/
def within (ranges : List (ℕ × ℕ)) (id : ℕ) : Bool := ranges.any fun r => r.1 ≤ id ∧ id ≤ r.2

/-- The message ids of the `switch` of `RILC_Send`. -/
def rilcSendIds : List (ℕ × ℕ) :=
  [(1, 21), (27, 28), (30, 37), (39, 39), (41, 41), (60, 61), (80, 80), (90, 96), (100, 144),
    (151, 153), (200, 225), (300, 305), (310, 316), (401, 401), (451, 452), (501, 502), (550, 560)]

/-- And the ids that come with a length. -/
def rilcSendLengths : List (ℕ × ℕ) :=
  [(3, 1), (4, 1), (10, 4), (12, 4), (14, 4), (16, 4), (18, 4), (19, 8)]

/-- The `switch` of `RILC_Send`. -/
def rilcSendAccepts (msgId length : ℕ) : Bool :=
  within rilcSendIds msgId && rilcSendLengths.all fun r => r.1 ≠ msgId ∨ r.2 = length

/-- The ids for which `convertRilcReqId2RilOemReqId` has one that is not
`RIL_REQUEST_OEM_INVALID`. -/
def rilOemReqIds : List (ℕ × ℕ) :=
  [(1, 28), (30, 41), (60, 61), (80, 80), (90, 148), (151, 153), (200, 225), (300, 305),
    (310, 316), (401, 401), (451, 452), (501, 502), (550, 560), (600, 613), (800, 810)]

/-- Every id that `RILC_Send` lets through has one. -/
theorem within_rilOemReqIds {msgId length : ℕ} (h : rilcSendAccepts msgId length = true) :
    within rilOemReqIds msgId = true := by
  simp only [rilcSendAccepts, within, rilcSendIds, rilOemReqIds, List.any_cons, List.any_nil,
    Bool.and_eq_true, Bool.or_eq_true, Bool.or_false, decide_eq_true_eq] at h ⊢
  omega

/-- `getResponseFunction` returns `getAvailableNtworksResponse`. -/
def availableNetworks (msgId : ℕ) : Bool := (msgId : ℤ) = Sessions.rilcReqGetAvailableNetworks

/-! ## The state -/

/-- What goes with a request and comes back with its response, and the number of the
`RILC_Send` it is of. -/
structure Ticket where
  serial : ℕ
  msgId : ℕ
  slotId : ℕ
  send : ℕ
  deriving DecidableEq

/-- `rilc_record`. -/
structure Record where
  msgId : ℕ
  slotId : ℕ
  /-- Whether there is a handler. -/
  handler : Bool
  send : ℕ
  deriving DecidableEq

/-- A `RILC_Send` that has a proxy and no record yet. -/
structure Sending where
  msgId : ℕ
  channel : ℕ
  handler : Bool
  service : ℕ
  deriving DecidableEq

/-- A request under way to the service. -/
structure Request where
  ticket : Ticket
  clientId : ℤ
  deriving DecidableEq

/-- `RadioExternalRequestInfo`; a `known` one was handed to the vendor. -/
structure RequestInfo where
  ticket : Ticket
  clientId : ℤ
  known : Bool
  deriving DecidableEq

/-- A response under way to the client: the length it is announced with, and the bytes that
come with it. -/
structure Response where
  ticket : Ticket
  error : RadioExternalError
  length : ℕ
  size : ℕ
  late : Bool
  deriving DecidableEq

/-- A `RILC_Send` that returned success. -/
structure Sent where
  msgId : ℕ
  channel : ℕ
  handler : Bool
  deriving DecidableEq

/-- A call of a handler: whose it is, what it is told, and the bytes it is given. -/
structure Called where
  send : ℕ
  msgId : ℕ
  status : RilcStatus
  length : ℕ
  size : ℕ
  slotId : ℕ
  deriving DecidableEq

/-- How far the death of the service is: it lives, it has died, the client has emptied its table
and has handlers to call, the client is done with it. -/
inductive Death where
  | none
  | died
  | calling (wait : List Record)
  | over
  deriving DecidableEq

/-- **The state** of the client and the service. -/
structure State where
  clientId : ℤ
  last : ℕ
  records : ℕ → Option Record
  proxy : Bool
  service : ℕ
  up : Bool
  sending : List Sending
  requests : List Request
  pending : List RequestInfo
  responses : List Response
  death : Death
  sends : List Sent
  called : List Called
  completed : List (ℕ × ℕ)

/-- A client that has just connected. -/
def State.initial (clientId : ℤ) : State :=
  ⟨clientId, 0, fun _ => none, true, 0, true, [], [], [], [], .none, [], [], []⟩

/-- **What can happen**: a `RILC_Send` begins and gets its proxy, if there is a service to connect
to; one takes its record and sends; a request comes to the service, which may be out of memory; the
vendor completes a request; a response comes to the client; the service dies; and the client empties
its table, calls a handler, lets go of the proxy and connects again. -/
inductive Event where
  | rilcSend (msgId length channel : ℕ) (handler : Bool) (service : Option ℤ)
  | allocate (n : ℕ)
  | dispatchRaw (n : ℕ) (allocated : Bool)
  | onRequestComplete (n : ℕ) (e : RilErrno) (response : Bool) (responseLen : ℕ)
  | sendRequestRawResponse (n : ℕ)
  | die
  | serviceDied
  | callback
  | resetRadioExternalProxy
  | connect (clientId : ℤ)

/-! ## The client -/

/-- The loop of `RILC_Send` over the table, with `n` records to go. -/
def findFree (records : ℕ → Option Record) : ℕ → ℕ → Option ℕ
  | 0, _ => none
  | n + 1, last =>
    if records last = none then some last
    else findFree records n ((last + 1) % rilcTransactionMax)

namespace State

/-- `getRadioExternalProxy`, when there is no proxy. -/
def connect (s : State) (clientId : ℤ) : State :=
  { s with clientId := clientId, proxy := true, service := s.service + 1, up := true }

/-- The first part of `RILC_Send`. -/
def rilcSend (s : State) (msgId length channel : ℕ) (handler : Bool) (service : Option ℤ) : State :=
  let s' := if s.proxy then some s else service.map s.connect
  match s' with
  | none => s
  | some s' =>
    if rilcSendAccepts msgId length = true ∧ length ≤ maxRadioDataSize then
      { s' with sending := s'.sending ++ [⟨msgId, channel, handler, s'.service⟩] }
    else s'

/-- The second part. The request is lost if its service is not there any more, and the return value
is success nevertheless. -/
def allocate (s : State) (n : ℕ) (x : Sending) : State :=
  let s' := { s with sending := s.sending.eraseIdx n }
  match findFree s.records rilcTransactionMax s.last with
  | none => s'
  | some transaction =>
    let send := s.sends.length
    { s' with
      last := (transaction + 1) % rilcTransactionMax
      records := Function.update s.records transaction (some ⟨x.msgId, x.channel, x.handler, send⟩)
      sends := s.sends ++ [⟨x.msgId, x.channel, x.handler⟩]
      requests := if x.service = s.service ∧ s.up = true then
          s.requests ++ [⟨⟨transaction, x.msgId, x.channel, send⟩, s.clientId⟩]
        else s.requests }

/-- `OemSlsiRadioExternalResImpl::sendRequestRawResponse`. -/
def answer (s : State) (r : Response) : State :=
  match s.records r.ticket.serial with
  | none => s
  | some x =>
    if x.msgId = r.ticket.msgId then
      { s with
        records := Function.update s.records r.ticket.serial none
        completed := (x.send, r.ticket.send) :: s.completed
        called :=
          if x.handler then
            ⟨x.send, r.ticket.msgId, convertToRilcErrorNo r.error, r.length, r.size,
              r.ticket.slotId⟩ :: s.called
          else s.called }
    else s

/-- The records that are in use, in the order of the table. -/
def used (s : State) : List Record := (List.range rilcTransactionMax).filterMap s.records

/-- The records the client has still to call when the service has died. -/
def waiting (s : State) : List Record :=
  match s.death with
  | .calling wait => wait
  | _ => []

/-- What `processRadioExternalProxyDeath` does under the lock. -/
def emptyTable (s : State) : State :=
  { s with
    last := 0
    records := fun _ => none
    responses := s.responses.map fun r => { r with late := true }
    death := .calling (s.used.take rilcDeathHandlingRecordMax) }

/-- `processRadioExternalProxyDeath` up to its handlers. With the number of no client it does
nothing. -/
def processRadioExternalProxyDeath (s : State) : State :=
  if s.clientId = Sessions.radioExternalClientNum then { s with death := .over } else s.emptyTable

/-- The records in use whose handlers it does not call. -/
def unheard (s : State) : List Record :=
  if s.clientId = Sessions.radioExternalClientNum then s.used
  else s.used.drop rilcDeathHandlingRecordMax

/-- And a handler it calls. -/
def callback (s : State) (r : Record) (rest : List Record) : State :=
  { s with
    death := .calling rest
    called := if r.handler then ⟨r.send, r.msgId, .fail, 0, 0, r.slotId⟩ :: s.called
      else s.called }

/-! ## The service -/

/-- `external_dispatchRaw`: nothing is sent if there is no entry, and a request without an id is
answered and keeps its entry. -/
def dispatchRaw (s : State) (n : ℕ) (r : Request) (allocated : Bool) : State :=
  let s' := { s with requests := s.requests.eraseIdx n }
  if allocated = true ∧ 0 ≤ r.clientId ∧ r.clientId < Sessions.radioExternalClientNum then
    if within rilOemReqIds r.ticket.msgId then
      { s' with pending := ⟨r.ticket, r.clientId, true⟩ :: s.pending }
    else
      { s' with
        pending := ⟨r.ticket, r.clientId, false⟩ :: s.pending
        responses := s.responses ++
          [⟨r.ticket, populateError .invalidArguments, 0, 0, false⟩] }
  else s'

/-- `getAvailableNtworksResponse` has nothing to convert. -/
def noNetworks (response : Bool) (responseLen : ℕ) : Bool :=
  (!response && responseLen ≠ 0) || responseLen % (pointerSize * 4) ≠ 0

/-- The bytes that come with a response. The networks are converted, and the length is not. -/
def responseSize (msgId : ℕ) (response : Bool) (responseLen : ℕ) : ℕ :=
  if availableNetworks msgId then
    if noNetworks response responseLen then 0
    else operatorInfoSize * (responseLen / pointerSize / 4)
  else if response then responseLen else 0

/-- And the error. -/
def responseError (msgId : ℕ) (e : RilErrno) (response : Bool) (responseLen : ℕ) :
    RadioExternalError :=
  if availableNetworks msgId = true ∧ noNetworks response responseLen = true ∧ e ≠ .success then
    .genericFailure
  else populateError e

/-- `RIL_External_onRequestComplete`. Too many networks are not sent. -/
def onRequestComplete (s : State) (n : ℕ) (p : RequestInfo) (e : RilErrno) (response : Bool)
    (responseLen : ℕ) : State :=
  let s' := { s with pending := s.pending.eraseIdx n }
  if responseLen ≤ maxRadioDataSize then
    { s' with responses := s.responses ++
        [⟨p.ticket, responseError p.ticket.msgId e response responseLen, responseLen,
          responseSize p.ticket.msgId response responseLen, false⟩] }
  else if availableNetworks p.ticket.msgId then s'
  else s

/-- **A step.** With the service go its entries and the requests it has not seen. -/
def step (s : State) (e : Event) : State :=
  match e with
  | .rilcSend msgId length channel handler service =>
    s.rilcSend msgId length channel handler service
  | .allocate n =>
    match s.sending[n]? with
    | none => s
    | some x => s.allocate n x
  | .dispatchRaw n allocated =>
    match s.requests[n]? with
    | none => s
    | some r => s.dispatchRaw n r allocated
  | .onRequestComplete n e response responseLen =>
    match s.pending[n]? with
    | none => s
    | some p => if p.known then s.onRequestComplete n p e response responseLen else s
  | .sendRequestRawResponse n =>
    match s.responses[n]? with
    | none => s
    | some r => { s with responses := s.responses.eraseIdx n }.answer r
  | .die =>
    if s.death = .none then
      { s with death := .died, up := false, requests := [], pending := [] }
    else s
  | .serviceDied => if s.death = .died then s.processRadioExternalProxyDeath else s
  | .callback =>
    match s.waiting with
    | [] => s
    | r :: rest => s.callback r rest
  | .resetRadioExternalProxy =>
    if s.death = .calling [] then { s with death := .over, proxy := false } else s
  | .connect clientId => if s.proxy then s else s.connect clientId

/-! ## The law and the condition -/

/-- What is on its way between a record and its answer. -/
def tickets (s : State) : List Ticket :=
  s.requests.map Request.ticket ++ s.pending.map RequestInfo.ticket ++
    (s.responses.filter fun r => !r.late).map Response.ticket

variable (s : State)

/-- **A send is under way**: its handler is one the client has still to call, or its record is in
the table and the death of the service will be handled or its request or response finds the
record. -/
def UnderWay (send : ℕ) : Prop :=
  (∃ r ∈ s.waiting, r.send = send) ∨
    ∃ i r, s.records i = some r ∧ r.send = send ∧
      (s.death = .died ∨ ∃ t ∈ s.tickets, t.serial = i ∧ t.msgId = r.msgId ∧ t.send = send)

/-- **Every send is answered once.** A handler that was called was told the message and the channel
of its send and as many bytes as there were, and neither the record nor the entry of the send is
left; who was not called is under way; and a response completes the record of its own request. -/
structure Lawful : Prop where
  once : (s.called.map Called.send).Nodup
  right : ∀ c ∈ s.called, s.sends[c.send]? = some ⟨c.msgId, c.slotId, true⟩ ∧ c.length = c.size
  settled : ∀ c ∈ s.called, (∀ i r, s.records i = some r → r.send ≠ c.send) ∧
    ∀ p ∈ s.pending, p.ticket.send ≠ c.send
  answered : ∀ send x, s.sends[send]? = some x → x.handler = true →
    send ∈ s.called.map Called.send ∨ s.UnderWay send
  own : ∀ x ∈ s.completed, x.1 = x.2

/-- **The condition** on a step. A record is taken while the service of the proxy lives or its death
is still to be handled; the service has the client's number, memory and an id for the request; a
response has as many bytes as it says; a response that is late finds no record of its message; and
the death of the service passes over no handler. -/
def Meets : Event → Prop
  | .allocate n => ∀ x ∈ s.sending[n]?, (x.service = s.service ∧ s.up = true) ∨ s.death = .died
  | .dispatchRaw n allocated => ∀ r ∈ s.requests[n]?,
    (allocated = true ∧ 0 ≤ r.clientId ∧ r.clientId < Sessions.radioExternalClientNum) ∧
      within rilOemReqIds r.ticket.msgId = true
  | .onRequestComplete n _ response responseLen => ∀ p ∈ s.pending[n]?,
    responseLen = 0 ∨ (response = true ∧ availableNetworks p.ticket.msgId = false)
  | .sendRequestRawResponse n => ∀ r ∈ s.responses[n]?, r.late = true →
    ∀ x ∈ s.records r.ticket.serial, x.msgId ≠ r.ticket.msgId
  | .serviceDied => s.death = .died → ∀ r ∈ s.unheard, r.handler = false
  | _ => True

instance Meets.decidable : (e : Event) → Decidable (s.Meets e)
  | .allocate n => inferInstanceAs (Decidable (∀ x ∈ s.sending[n]?,
      (x.service = s.service ∧ s.up = true) ∨ s.death = .died))
  | .dispatchRaw n allocated => inferInstanceAs (Decidable (∀ r ∈ s.requests[n]?,
      (allocated = true ∧ 0 ≤ r.clientId ∧ r.clientId < Sessions.radioExternalClientNum) ∧
        within rilOemReqIds r.ticket.msgId = true))
  | .onRequestComplete n _ response responseLen => inferInstanceAs (Decidable (∀ p ∈ s.pending[n]?,
      responseLen = 0 ∨ (response = true ∧ availableNetworks p.ticket.msgId = false)))
  | .sendRequestRawResponse n => inferInstanceAs (Decidable (∀ r ∈ s.responses[n]?,
      r.late = true → ∀ x ∈ s.records r.ticket.serial, x.msgId ≠ r.ticket.msgId))
  | .serviceDied => inferInstanceAs (Decidable
      (s.death = .died → ∀ r ∈ s.unheard, r.handler = false))
  | .rilcSend .. | .die | .callback | .resetRadioExternalProxy | .connect _ =>
    inferInstanceAs (Decidable True)

end State

end ExynosVendor.Ril.External.Transactions
