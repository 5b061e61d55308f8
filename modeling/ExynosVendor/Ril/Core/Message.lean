import ExynosVendor.Ril.Basic
import ExynosVendor.Common.Word

/-!
# Messages and timers

`Message` of `core/message.h` with the request and modem data a service
reads of it, and `TimerList` of `core/timerlist.cpp`, the list a service
keeps its request timeouts and postponed messages in.
-/

namespace ExynosVendor.Ril

/-- `MsgDirection`: the queue a message goes to. -/
inductive MsgDirection where
  | request
  | response
  | internal
  | asyncRequest
  deriving DecidableEq

inductive AsyncMsgReqStatus where
  | none
  | initiated
  | processing
  | sent2CP
  | response
  deriving DecidableEq

def tokenInvalid : UINT := 0xFFFFFFFF

/-- `RequestData`: what the framework asks for, and the token it asks
with. -/
structure RequestData where
  /-- `m_nReq`. -/
  reqId : INT
  /-- `m_tok`, an opaque pointer. -/
  tok : ℕ
  deriving DecidableEq

/-- `ModemData`: the token, and which kind of message it is. -/
structure ModemData where
  /-- `GetToken`. -/
  token : UINT
  /-- `IsSolicitedResponse`. -/
  isSolicitedResponse : Bool
  /-- `IsUnsolicitedResponse`. -/
  isUnsolicitedResponse : Bool
  deriving DecidableEq

/-- `Message`. The data it owns may be absent. -/
structure Message where
  /-- The pointer, by which a timer finds its message again. -/
  ptr : ℕ
  /-- `m_nMsgId`. -/
  nMsgId : INT
  /-- `m_nTimeout`. -/
  nTimeout : INT
  /-- `m_nDirection`. -/
  nDirection : MsgDirection
  /-- `m_pReqData`. -/
  pReqData : Option RequestData
  /-- `m_pModemData`. -/
  pModemData : Option ModemData
  /-- `m_pUserData`, as far as it is the integers' first. -/
  pUserData : Option INT
  /-- `m_nAsyncMsgReqStatus`. -/
  nAsyncMsgReqStatus : AsyncMsgReqStatus
  deriving DecidableEq

namespace Message

def getToken (m : Message) : UINT :=
  match m.pModemData with
  | none => tokenInvalid
  | some modemData => modemData.token

/-- `isAsycMsg` of an optional message. -/
def isAsyncMsg : Option Message → Bool
  | none => false
  | some m => m.nAsyncMsgReqStatus ≠ .none

end Message

/-! ## Timers -/

/-- `struct timeval`. -/
structure Timeval where
  /-- `tv_sec`. -/
  tvSec : ℤ
  /-- `tv_usec`. -/
  tvUsec : ℤ
  deriving DecidableEq

namespace Timeval

/-- `TimerList::compare`. The differences are `long`s, and what is
returned is an `int`. -/
def compare (l r : Timeval) : ℤ :=
  toInt (if l.tvSec = r.tvSec then l.tvUsec - r.tvUsec else l.tvSec - r.tvSec)

/-- `TimerList::add`, of milliseconds. -/
def add (l : Timeval) (millis : ℕ) : Timeval :=
  let usec : ℕ := millis * 1000
  let tvSec := l.tvSec + (usec / 1000000 : ℕ)
  let tvUsec := l.tvUsec + (usec % 1000000 : ℕ)
  if tvUsec > 1000000 then ⟨tvSec + 1, tvUsec - 1000000⟩ else ⟨tvSec, tvUsec⟩

end Timeval

structure TimerEvent where
  /-- When it is due. -/
  timeout : Timeval
  /-- The message it is about. -/
  msg : Message
  deriving DecidableEq

namespace TimerList

/-- `MAX_TIMEOUT`, five minutes. -/
def maxTimeout : ℕ := 5 * 60 * 1000

/-- The place of an event: before the first that is due later. -/
def insert (te : TimerEvent) : List TimerEvent → List TimerEvent
  | [] => [te]
  | cur :: rest =>
      if cur.timeout.compare te.timeout > 0 then te :: cur :: rest else cur :: insert te rest

/-- `put`, at a time of day. -/
def put (list : List TimerEvent) (now : Timeval) (msg : Message) (millis : ℕ) :
    List TimerEvent :=
  let millis := if millis > maxTimeout then maxTimeout else millis
  insert ⟨now.add millis, msg⟩ list

/-- `erase`: the first event of the message. -/
def erase (list : List TimerEvent) (msg : Message) : List TimerEvent :=
  list.eraseP fun te => te.msg.ptr = msg.ptr

def pop : List TimerEvent → Option TimerEvent × List TimerEvent
  | [] => (none, [])
  | te :: rest => (some te, rest)

end TimerList

end ExynosVendor.Ril
