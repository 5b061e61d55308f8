import ExynosVendor.Common.Reassembly

/-!
# Raw messages in segments

A request, a response or an indication with more than `MAX_RADIO_DATA_SIZE` bytes goes over
the binder in segments: `ril_external_service.cpp` and `sitril-client.cpp` have a splitter
and a receiver each way. A client of the service is a process of its own, with its own slots
for the responses and the indications that come to it.

The splitters are loops over the number of segments; the last one is as long as the mask of
the length says. A receiver has five slots, and is done with a message when it has got as
many bytes as the message was announced to have.
-/

namespace ExynosVendor.Ril.External

open Reassembly

def maxRadioDataSize : ℕ := 2 ^ 11

def maxRadioDataMod : ℕ := maxRadioDataSize - 1

def rilcMaxResponsePayloadSize : ℕ := 1024 * 64 + 16

/-- `MAX_NUM_REQ_RAW_SEGMENT`, `MAX_NUM_RSP_MULTIFRAME_RAW_DATA` and
`MAX_NUM_IND_MULTIFRAME_RAW_DATA`. -/
def maxNumRawSegment : ℕ := 5

/-- **A call over the binder** with a segment: whose it is, what comes with it, the length
that is given apart from the bytes, the bytes, and where they go. -/
structure Call (κ τ : Type) where
  key : κ
  tag : τ
  dataLen : ℕ
  data : List UInt8
  segIndex : ℕ
  totalLen : ℕ
deriving DecidableEq

/-- What the receiver goes by. -/
def Call.segment {κ τ : Type} (c : Call κ τ) (data : List UInt8) : Segment κ τ UInt8 :=
  ⟨c.key, c.tag, data, c.segIndex, c.totalLen⟩

/-! ## The splitters -/

/-- How many segments there are. -/
def segmentNum (length : ℕ) : ℕ := (length + maxRadioDataSize - 1) / maxRadioDataSize

/-- How long one is. -/
def segLength (length index : ℕ) : ℕ :=
  if index + 1 = segmentNum length then length &&& maxRadioDataMod else maxRadioDataSize

/-- The loop over the segments, with as many to go; `rest` is what the pointer is at. -/
def segLoop {κ τ : Type} (key : κ) (tag : τ) (length : ℕ) :
    List UInt8 → ℕ → ℕ → List (Call κ τ)
  | _, _, 0 => []
  | rest, index, n + 1 =>
      let len := segLength length index
      ⟨key, tag, len, rest.take len, index, length⟩ ::
        segLoop key tag length (rest.drop len) (index + 1) n

/-- The calls a payload is sent with. -/
def split {κ τ : Type} (key : κ) (tag : τ) (data : List UInt8) : List (Call κ τ) :=
  segLoop key tag data.length data 0 (segmentNum data.length)

/-- What a request is known by. -/
structure RequestKey where
  serial : ℤ
  clientId : ℤ
  rilcReqId : ℤ
  slotId : ℤ
deriving DecidableEq

/-- What a response is known by, at its client. -/
structure ResponseKey where
  serial : ℤ
  rilcMsgId : ℤ
  slotId : ℤ
deriving DecidableEq

/-- And an indication. -/
structure IndicationKey where
  rilcMsgId : ℤ
  slotId : ℤ
deriving DecidableEq

/-- `RIL_Errno`, as far as it is told apart. -/
inductive RilErrno where
  | success
  | invalidArguments
  | missingResource
  | noSuchElement
  | internalErr
  | noMemory
  | noResources
  | cancelled
  | simErr
  | invalidSimState
  | fdnCheckFailure
  | requestNotSupported
  | other (code : ℕ)
deriving DecidableEq

inductive RadioExternalError where
  | none
  | invalidArguments
  | missingResource
  | noSuchElement
  | internalErr
  | noMemory
  | noResources
  | cancelled
  | simError
  | invalidSimStatus
  | fdnCheckFailure
  | requestNotSupported
  | genericFailure
deriving DecidableEq

/-- The status a client is told. -/
inductive RilcStatus where
  | success
  | fail
  | missingResource
  | noSuchElement
  | internalErr
  | noMemory
  | noResources
  | cancelled
  | simErr
  | invalidSimState
  | requestNotSupported
deriving DecidableEq

/-- `populateRadioExternalResponseInfo`: the error that goes with a response. -/
def populateError : RilErrno → RadioExternalError
  | .success => .none
  | .invalidArguments => .invalidArguments
  | .missingResource => .missingResource
  | .noSuchElement => .noSuchElement
  | .internalErr => .internalErr
  | .noMemory => .noMemory
  | .noResources => .noResources
  | .cancelled => .cancelled
  | .simErr => .simError
  | .invalidSimState => .invalidSimStatus
  | .fdnCheckFailure => .fdnCheckFailure
  | .requestNotSupported => .requestNotSupported
  | .other _ => .genericFailure

/-- `convertToRILCErrorNo`: what the client makes of it. -/
def convertToRilcErrorNo : RadioExternalError → RilcStatus
  | .none => .success
  | .missingResource => .missingResource
  | .noSuchElement => .noSuchElement
  | .internalErr => .internalErr
  | .noMemory => .noMemory
  | .noResources => .noResources
  | .cancelled => .cancelled
  | .simError => .simErr
  | .invalidSimStatus => .invalidSimState
  | .requestNotSupported => .requestNotSupported
  | .invalidArguments | .fdnCheckFailure | .genericFailure => .fail

/-- `RILC_Send`, for a request that is too long for one call. -/
def rilcSend (key : RequestKey) (data : List UInt8) : List (Call RequestKey Unit) :=
  split key () data

/-- `radioExternal::sendRequestRawResponseSeg`, for a client that is `registered` or not. -/
def sendRequestRawResponseSeg (registered : Bool) (key : ResponseKey) (e : RilErrno)
    (response : List UInt8) : List (Call ResponseKey RadioExternalError) :=
  if registered then split key (populateError e) response else []

/-- `radioExternal::rilExternalRawIndicationSeg`, as one of the clients sees it. -/
def rilExternalRawIndicationSeg (registered : Bool) (key : IndicationKey)
    (indication : List UInt8) : List (Call IndicationKey Unit) :=
  if registered then split key () indication else []

/-! ## The receiver of requests -/

/-- The slots of a receiver. -/
abbrev SegData (κ τ : Type) := List (Option (Partial κ τ UInt8))

/-- `reset()` of every slot. -/
def resetAll {κ τ : Type} (slots : SegData κ τ) : SegData κ τ := slots.map fun _ => none

/-- `RadioExternalImpl`: the requests that are not complete, those that were handed to
`external_dispatchRaw`, and those that were answered with an error. -/
structure Service where
  reqRawSegData : SegData RequestKey Unit
  dispatched : List (RequestKey × List UInt8)
  refused : List RequestKey

/-- A service without a request. -/
def Service.idle : Service := ⟨List.replicate maxNumRawSegment none, [], []⟩

variable (fill : ℕ → UInt8)

/-- `RadioExternalImpl::sendRequestRawSegment`. The length argument is not looked at; the
vector knows its own. -/
def Service.sendRequestRawSegment (s : Service) (c : Call RequestKey Unit) : Option Service :=
  match accept maxRadioDataSize fill s.reqRawSegData (c.segment c.data) with
  | .full =>
      some { s with
        reqRawSegData := resetAll s.reqRawSegData
        refused := s.refused ++ [c.key] }
  | .notFound => some s
  | .fault => none
  | .partly slots => some { s with reqRawSegData := slots }
  | .complete accData slots =>
      (Block.load accData.buffer 0 accData.got).map fun sendData =>
        { s with reqRawSegData := slots, dispatched := s.dispatched ++ [(c.key, sendData)] }

/-! ## The receivers of a client -/

/-- A record of an outstanding request: `none` in the table stands for
`RILC_TRANSACTION_NONE`, which is no message's id. -/
structure Record where
  msgId : ℤ
  /-- Whether there is a handler. -/
  handler : Bool
deriving DecidableEq

/-- A call of the handler of a record: whose record and which message, the status, the
bytes if there are any, and the slot. -/
structure Answer where
  key : ResponseKey
  status : RilcStatus
  data : Option (List UInt8)
deriving DecidableEq

/-- `rilc_client`, as far as the receivers read it, and the calls of its handlers. -/
structure Client where
  closing : Bool
  unsolicitedHandler : Bool
  records : List (Option Record)
  answers : List Answer
  unsolicited : List (IndicationKey × List UInt8)

/-- The entry of a serial. -/
def Client.record (c : Client) (serial : ℤ) : Option (Option Record) :=
  if 0 ≤ serial then c.records[serial.toNat]? else none

/-- The record of a serial is taken, if it is one of the message. The answer says whether
there is a handler to call; outside of the table there is none. -/
def Client.take (c : Client) (serial rilcMsgId : ℤ) : Option (Client × Option Bool) :=
  (c.record serial).map fun r =>
    match r with
    | none => (c, none)
    | some r =>
        if r.msgId = rilcMsgId then
          ({ c with records := c.records.set serial.toNat none }, some r.handler)
        else (c, none)

def Client.sendErrorResponse (c : Client) (key : ResponseKey) : Option Client :=
  (c.take key.serial key.rilcMsgId).map fun r =>
    match r.2 with
    | some true => { r.1 with answers := r.1.answers ++ [⟨key, .fail, none⟩] }
    | _ => r.1

/-- The process of a client. -/
structure ClientProcess where
  pClient : Option Client
  rspRawSegData : SegData ResponseKey RadioExternalError
  indRawSegData : SegData IndicationKey Unit

/-- The record of a complete response is taken and its handler called. -/
def Client.answer (c : Client) (accData : Partial ResponseKey RadioExternalError UInt8) :
    Option Client :=
  (c.take accData.key.serial accData.key.rilcMsgId).bind fun r =>
    match r.2 with
    | some true =>
        (Block.load accData.buffer 0 accData.total).map fun uData =>
          { r.1 with
            answers := r.1.answers ++
              [⟨accData.key, convertToRilcErrorNo accData.tag,
                if 0 < accData.total then some uData else none⟩] }
    | _ => some r.1

def ClientProcess.sendRequestRawResponseSeg (p : ClientProcess)
    (c : Call ResponseKey RadioExternalError) : Option ClientProcess :=
  match p.pClient with
  | none => some p
  | some client =>
      if rilcMaxResponsePayloadSize < c.totalLen then
        (client.sendErrorResponse c.key).map fun client => { p with pClient := some client }
      else
        match accept maxRadioDataSize fill p.rspRawSegData (c.segment c.data) with
        | .full =>
            -- Every message of a slot is answered with an error, and the new one.
            ((p.rspRawSegData.filterMap fun slot => slot.map fun e => e.key) ++ [c.key]).foldlM
                Client.sendErrorResponse client |>.map fun client =>
              { p with pClient := some client, rspRawSegData := resetAll p.rspRawSegData }
        | .notFound => some p
        | .fault => none
        | .partly slots => some { p with rspRawSegData := slots }
        | .complete accData slots =>
            (client.answer accData).map fun client =>
              { p with pClient := some client, rspRawSegData := slots }

/-- The handler of unsolicited messages is called with a complete indication, unless the
client is closing. -/
def Client.indicate (c : Client) (accData : Partial IndicationKey Unit UInt8) :
    Option Client :=
  if c.closing = false ∧ c.unsolicitedHandler then
    (Block.load accData.buffer 0 accData.total).map fun data =>
      { c with unsolicited := c.unsolicited ++ [(accData.key, data)] }
  else some c

/-- `OemSlsiRadioExternalIndImpl::rilExternalRawIndicationSeg`. Here it is the length argument
that counts, and as many bytes are read from the vector. -/
def ClientProcess.rilExternalRawIndicationSeg (p : ClientProcess) (c : Call IndicationKey Unit) :
    Option ClientProcess :=
  match p.pClient with
  | none => some p
  | some client =>
      let src := Block.load c.data 0 c.dataLen
      match accept maxRadioDataSize fill p.indRawSegData (c.segment (src.getD [])) with
      | .full => some { p with indRawSegData := resetAll p.indRawSegData }
      | .notFound => some p
      | .fault => none
      | .partly slots => src.map fun _ => { p with indRawSegData := slots }
      | .complete accData slots =>
          src.bind fun _ => (client.indicate accData).map fun client =>
            { p with pClient := some client, indRawSegData := slots }

end ExynosVendor.Ril.External
