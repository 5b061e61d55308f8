import ExynosVendor.Ril.Util.Hex
import Mathlib.Data.List.DropRight

/-!
# The send path of a BIP channel

`CStkModule::SendData` collects payloads as hex text and sends them when
a command asks for it: `SendOnStore` collects, `SendOnTcp` and
`SendOnUdp` collect and send. Both decode the whole text into a buffer
on the stack; `SendOnUdp` then clears the text, and `SendOnTcp` does not.

The two transports are one queue that differs in what a transmission
leaves in it, `kept`. `transmitsOnce_iff` is the exact condition under
which the wire sees every payload once.
-/

namespace ExynosVendor.Ril

open List

inductive SocketType where
  | sockUdp
  | sockTcp
  | sockLocal
  deriving DecidableEq

def sendOnStore : BYTE := 0

def sendImmediately : BYTE := 1

/-- What `SendData` takes from the TLVs of a command. -/
structure SendDataCommand where
  /-- `pCmdDetail->GetQualifier()`. -/
  nMode : BYTE
  /-- `pChannelData->GetChannelDataString()`. -/
  strChnData : List Char
  /-- `pDevId->GetDestinationID()`. -/
  nDevId : BYTE

/-- One call of `SendSendDataResponse`. -/
structure SendDataResponse where
  /-- `nLen`. -/
  nLen : ℤ
  /-- `nResult`. -/
  nResult : ℕ
  /-- `nAddResult`, negative for none. -/
  nAddResult : ℤ
  /-- `CommandQualifier`. -/
  commandQualifier : BYTE
  deriving DecidableEq

/-- The send side of `CStkModule`. -/
structure SendState where
  /-- `m_tOpenChannelInfo.TransportType`. -/
  transportType : SocketType
  /-- `m_tOpenChannelInfo.nBufferSize`. -/
  nBufferSize : ℤ
  /-- `m_tChannelStatus.nChannelId`. -/
  nChannelId : ℕ
  /-- `m_pStkTcpSocket` is not `NULL`. -/
  pStkTcpSocket : Bool
  /-- `m_pStkUdpSocket` is not `NULL`. -/
  pStkUdpSocket : Bool
  /-- `m_strSendDataBuffer`. -/
  strSendDataBuffer : List Char
  /-- `m_nAccumlatedSendDataLenInBuffer`. -/
  nAccumlatedSendDataLenInBuffer : ℤ

/-- What one command does: the new state, the buffers passed to the
socket, and the response. -/
structure SendOutcome where
  /-- The module afterwards. -/
  state : SendState
  /-- The buffers passed to `CSocket::Send` or `CSocket::Sendto`. -/
  sent : List (List BYTE)
  /-- The terminal response. -/
  response : SendDataResponse

namespace SendState

def calcAvailableChannelBufferLen (s : SendState) (nMode : BYTE) (nLen : ℤ) : SendState × ℤ :=
  let accumulated := s.nAccumlatedSendDataLenInBuffer + nLen
  let accumulated := if nMode = sendImmediately then 0 else accumulated
  let nResult := if s.nBufferSize - accumulated > 255 then 0xFF else s.nBufferSize - accumulated
  ({ s with nAccumlatedSendDataLenInBuffer := accumulated }, nResult)

/-- `m_strSendDataBuffer.append(strData)`. -/
def collect (s : SendState) (strData : List Char) : SendState :=
  { s with strSendDataBuffer := s.strSendDataBuffer ++ strData }

def sendOnStore (s : SendState) (nMode : BYTE) (strData : List Char) : SendOutcome :=
  let nSendLen : ℤ := (strData.length / 2 : ℕ)
  let s := s.collect strData
  let (s, nChnLen) := s.calcAvailableChannelBufferLen nMode nSendLen
  ⟨s, [], ⟨nChnLen, 0x00, -1, 0⟩⟩

/-- The first `buffer_len` bytes of `unsigned char buffer[1600]`, decoded
from the text collected so far. No cell is read before it is written. -/
def decodeSendBuffer (s : SendState) : Option (List BYTE) := do
  let (buffer, bufferLen) ←
    hexString2Value (List.replicate 1600 0) (cString (s.strSendDataBuffer ++ ['\x00']))
  Block.load buffer 0 bufferLen

def sendOnTcp (s : SendState) (nMode : BYTE) (strData : List Char) : Option SendOutcome :=
  if ! s.pStkTcpSocket then some ⟨s, [], ⟨0, 0x30, -1, 1⟩⟩
  else do
    let nDataLen : ℤ := (strData.length / 2 : ℕ)
    let s := s.collect strData
    let buffer ← s.decodeSendBuffer
    let (s, nChnLen) := s.calcAvailableChannelBufferLen nMode nDataLen
    some ⟨s, [buffer], ⟨nChnLen, 0x00, -1, 1⟩⟩

def sendOnUdp (s : SendState) (nMode : BYTE) (strData : List Char) (nDevId : BYTE) :
    Option SendOutcome :=
  if ! s.pStkUdpSocket then some ⟨s, [], ⟨0, 0x30, -1, 1⟩⟩
  else if s.nChannelId ≠ (nDevId &&& 0x0F).toNat then some ⟨s, [], ⟨0, 0x3A, 3, 1⟩⟩
  else do
    let nDataLen : ℤ := (strData.length / 2 : ℕ)
    let s := s.collect strData
    let buffer ← s.decodeSendBuffer
    let (s, nChnLen) := s.calcAvailableChannelBufferLen nMode nDataLen
    some ⟨{ s with strSendDataBuffer := [] }, [buffer], ⟨nChnLen, 0x00, -1, 1⟩⟩

def sendData (s : SendState) (c : SendDataCommand) : Option SendOutcome :=
  match s.transportType with
  | .sockTcp =>
      if c.nMode = Ril.sendOnStore then some (s.sendOnStore c.nMode c.strChnData)
      else s.sendOnTcp c.nMode c.strChnData
  | .sockUdp =>
      if c.nMode = Ril.sendOnStore then some (s.sendOnStore c.nMode c.strChnData)
      else s.sendOnUdp c.nMode c.strChnData c.nDevId
  | .sockLocal => some ⟨s, [], ⟨0, 0x30, -1, 1⟩⟩

/-- The buffers a sequence of commands passes to the socket. -/
def run (s : SendState) : List SendDataCommand → Option (List (List BYTE))
  | [] => some []
  | c :: cs => do
      let outcome ← s.sendData c
      let rest ← run outcome.state cs
      some (outcome.sent ++ rest)

/-- **An open channel**: a TCP or UDP transport whose socket exists, and
a text that earlier commands have collected. -/
structure IsOpen (s : SendState) : Prop where
  /-- The transport is one of the two. -/
  transport : s.transportType = .sockTcp ∧ s.pStkTcpSocket ∨
    s.transportType = .sockUdp ∧ s.pStkUdpSocket
  /-- Only payloads have been collected. -/
  buffer : IsHexString s.strSendDataBuffer

end SendState

/-- **A command on the channel**: it names the channel as its
destination, and its payload is a hex string. -/
structure SendDataCommand.OnChannel (nChannelId : ℕ) (c : SendDataCommand) : Prop where
  /-- The destination. -/
  destination : nChannelId = (c.nDevId &&& 0x0F).toNat
  /-- The payload. -/
  payload : IsHexString c.strChnData

namespace SendQueue

/-! ## The queue under both transports -/

/-- Some command sends. -/
def Immediate (cs : List SendDataCommand) : Prop :=
  ∃ c ∈ cs, c.nMode ≠ sendOnStore

/-- The commands up to and including the last one that sends. -/
def upToLast (cs : List SendDataCommand) : List SendDataCommand :=
  cs.rdropWhile fun c => c.nMode = sendOnStore

/-- **What the wire is meant to see**: the payloads of those commands. -/
def due (cs : List SendDataCommand) : List BYTE :=
  (upToLast cs).flatMap fun c => hexBytes c.strChnData

/-- What a transmission leaves in the text. -/
def kept (t : SocketType) (flushed : List BYTE) : List BYTE :=
  match t with
  | .sockUdp => []
  | _ => flushed

/-- The buffers sent, over a queue that keeps what `kept` says. -/
def buffers (t : SocketType) (pending : List BYTE) : List SendDataCommand → List (List BYTE)
  | [] => []
  | c :: cs =>
      let pending := pending ++ hexBytes c.strChnData
      if c.nMode = sendOnStore then buffers t pending cs
      else pending :: buffers t (kept t pending) cs

/-- Every transmission fits the buffer on the stack. -/
def Fits (t : SocketType) (pending : List BYTE) : List SendDataCommand → Prop
  | [] => True
  | c :: cs =>
      let pending := pending ++ hexBytes c.strChnData
      if c.nMode = sendOnStore then Fits t pending cs
      else pending.length ≤ 1600 ∧ Fits t (kept t pending) cs

/-- No transmission is followed by another one while bytes are kept. -/
def Clear (t : SocketType) (pending : List BYTE) : List SendDataCommand → Prop
  | [] => True
  | c :: cs =>
      let pending := pending ++ hexBytes c.strChnData
      if c.nMode = sendOnStore then Clear t pending cs
      else (Immediate cs → kept t pending = []) ∧ Clear t (kept t pending) cs

theorem not_immediate_nil : ¬ Immediate [] := by
  rintro ⟨c, hc, _⟩
  exact absurd hc not_mem_nil

variable {c : SendDataCommand} {cs : List SendDataCommand}

theorem immediate_cons_of_store (h : c.nMode = sendOnStore) :
    Immediate (c :: cs) ↔ Immediate cs := by
  simp [Immediate, h]

theorem immediate_cons_of_send (h : c.nMode ≠ sendOnStore) : Immediate (c :: cs) :=
  ⟨c, mem_cons_self, h⟩

theorem upToLast_of_not_immediate (h : ¬ Immediate cs) :
    upToLast cs = [] := by
  rw [upToLast, rdropWhile_eq_nil_iff]
  intro c hc
  refine decide_eq_true ?_
  by_contra hne
  exact h ⟨c, hc, hne⟩

/-- A command in front of one that sends, or sending itself, is part of
what is cut off. -/
theorem upToLast_cons (h : Immediate (c :: cs)) : upToLast (c :: cs) = c :: upToLast cs := by
  induction cs using List.reverseRecOn with
  | nil =>
      obtain ⟨d, hd, hsend⟩ := h
      rw [mem_singleton] at hd
      subst hd
      rw [upToLast, rdropWhile_singleton]
      simp [hsend, upToLast]
  | append_singleton cs d ih =>
      rw [upToLast, ← cons_append, upToLast, rdropWhile_concat, rdropWhile_concat]
      by_cases hd : d.nMode = sendOnStore
      · -- a last command that stores is dropped on both sides
        have hrest : Immediate (c :: cs) := by
          obtain ⟨e, he, hsend⟩ := h
          rw [← cons_append, mem_append, mem_singleton] at he
          rcases he with he | he
          · exact ⟨e, he, hsend⟩
          · exact absurd (he ▸ hd) hsend
        rw [if_pos (decide_eq_true hd), if_pos (decide_eq_true hd)]
        exact ih hrest
      · have hkeep : ¬ decide (d.nMode = sendOnStore) = true := by
          rw [decide_eq_true_iff]
          exact hd
        rw [if_neg hkeep, if_neg hkeep, cons_append]

theorem due_of_not_immediate (h : ¬ Immediate cs) : due cs = [] := by
  rw [due, upToLast_of_not_immediate h, flatMap_nil]

theorem due_cons (h : Immediate (c :: cs)) :
    due (c :: cs) = hexBytes c.strChnData ++ due cs := by
  rw [due, upToLast_cons h, flatMap_cons, due]

/-- Without a command that sends nothing is sent. -/
theorem buffers_of_not_immediate (t : SocketType) (pending : List BYTE) (h : ¬ Immediate cs) :
    buffers t pending cs = [] := by
  induction cs generalizing pending with
  | nil => rfl
  | cons c cs ih =>
      have hc : c.nMode = sendOnStore := by
        by_contra hne
        exact h (immediate_cons_of_send hne)
      rw [buffers, if_pos hc]
      exact ih _ (mt (immediate_cons_of_store hc).mpr h)

theorem clear_of_not_immediate (t : SocketType) (pending : List BYTE) (h : ¬ Immediate cs) :
    Clear t pending cs := by
  induction cs generalizing pending with
  | nil => trivial
  | cons c cs ih =>
      have hc : c.nMode = sendOnStore := by
        by_contra hne
        exact h (immediate_cons_of_send hne)
      simp only [Clear, if_pos hc]
      exact ih _ (mt (immediate_cons_of_store hc).mpr h)

theorem clear_udp (pending : List BYTE) (cs : List SendDataCommand) :
    Clear .sockUdp pending cs := by
  induction cs generalizing pending with
  | nil => trivial
  | cons c cs ih =>
      rw [Clear]
      split
      · exact ih _
      · exact ⟨fun _ => rfl, ih _⟩

/-- **The last transmission alone carries all that is due**, behind what
was pending before. -/
theorem due_length_le (t : SocketType) (pending : List BYTE) (h : Immediate cs) :
    pending.length + (due cs).length ≤ (buffers t pending cs).flatten.length := by
  induction cs generalizing pending with
  | nil => exact absurd h not_immediate_nil
  | cons c cs ih =>
      rw [due_cons h, buffers, length_append]
      by_cases hc : c.nMode = sendOnStore
      · have hrest := ih (pending ++ hexBytes c.strChnData) ((immediate_cons_of_store hc).mp h)
        rw [length_append] at hrest
        rw [if_pos hc]
        omega
      · rw [if_neg hc, flatten_cons, length_append, length_append]
        by_cases hcs : Immediate cs
        · have hrest := ih (kept t (pending ++ hexBytes c.strChnData)) hcs
          omega
        · rw [due_of_not_immediate hcs, length_nil]
          omega

/-- **The queue sends each byte once exactly when it is clear**: a kept
byte is sent again by the next transmission. -/
theorem buffers_flatten_iff (t : SocketType) (pending : List BYTE) (h : Immediate cs) :
    (buffers t pending cs).flatten = pending ++ due cs ↔ Clear t pending cs := by
  induction cs generalizing pending with
  | nil => exact absurd h not_immediate_nil
  | cons c cs ih =>
      rw [due_cons h, buffers, Clear, ← append_assoc]
      by_cases hc : c.nMode = sendOnStore
      · simp only [if_pos hc]
        exact ih _ ((immediate_cons_of_store hc).mp h)
      · simp only [if_neg hc, flatten_cons, append_cancel_left_eq]
        by_cases hcs : Immediate cs
        · have hrest := ih (kept t (pending ++ hexBytes c.strChnData)) hcs
          have hlen := due_length_le t (kept t (pending ++ hexBytes c.strChnData)) hcs
          constructor
          · intro heq
            have hkept : kept t (pending ++ hexBytes c.strChnData) = [] := by
              rw [heq] at hlen
              exact eq_nil_of_length_eq_zero (by omega)
            refine ⟨fun _ => hkept, hrest.mp ?_⟩
            rw [heq, hkept, nil_append]
          · rintro ⟨hkept, hclear⟩
            rw [hrest.mpr hclear, hkept hcs, nil_append]
        · rw [buffers_of_not_immediate t _ hcs, due_of_not_immediate hcs]
          have hclear := clear_of_not_immediate t (kept t (pending ++ hexBytes c.strChnData)) hcs
          exact iff_of_true rfl ⟨fun himm => absurd himm hcs, hclear⟩

/-- And what is sent is what is due when, in addition, nothing was
pending. -/
theorem buffers_flatten_eq_due_iff (t : SocketType) (pending : List BYTE)
    (cs : List SendDataCommand) :
    (buffers t pending cs).flatten = due cs ↔
      (Immediate cs → pending = []) ∧ Clear t pending cs := by
  by_cases h : Immediate cs
  · constructor
    · intro heq
      have hlen := due_length_le t pending h
      have hpending : pending = [] := by
        rw [heq] at hlen
        exact eq_nil_of_length_eq_zero (by omega)
      refine ⟨fun _ => hpending, (buffers_flatten_iff t pending h).mp ?_⟩
      rw [heq, hpending, nil_append]
    · rintro ⟨hpending, hclear⟩
      rw [(buffers_flatten_iff t pending h).mpr hclear, hpending h, nil_append]
  · rw [buffers_of_not_immediate t pending h, due_of_not_immediate h]
    exact iff_of_true rfl ⟨fun himm => absurd himm h, clear_of_not_immediate t pending h⟩

end SendQueue

namespace SendState

/-! ## The module against the queue -/

variable {s : SendState} {t : SocketType} {nChannelId : ℕ} {pending : List BYTE}

theorem decodeSendBuffer_eq (h : IsHexString s.strSendDataBuffer) :
    s.decodeSendBuffer =
      if (hexBytes s.strSendDataBuffer).length ≤ 1600 then some (hexBytes s.strSendDataBuffer)
      else none := by
  rw [decodeSendBuffer, cString_append h.ne_nul, hexString2Value_eq, length_replicate]
  by_cases hfit : (hexBytes s.strSendDataBuffer).length ≤ 1600
  · rw [if_pos hfit, if_pos hfit]
    exact Block.load_front _ _
  · rw [if_neg hfit, if_neg hfit]
    rfl

/-- **Where the module stands** in terms of the queue: it is open on its
channel, and its text decodes to what is pending. -/
structure Holds (s : SendState) (t : SocketType) (nChannelId : ℕ) (pending : List BYTE) : Prop where
  /-- The channel is open. -/
  isOpen : s.IsOpen
  /-- The transport does not change. -/
  transport : s.transportType = t
  /-- Nor does the channel. -/
  channel : s.nChannelId = nChannelId
  /-- The text is the queue's. -/
  buffer : hexBytes s.strSendDataBuffer = pending

theorem Holds.collect {strData : List Char} (hs : s.Holds t nChannelId pending)
    (hdata : IsHexString strData) :
    (s.collect strData).Holds t nChannelId (pending ++ hexBytes strData) := by
  refine ⟨⟨hs.isOpen.transport, hs.isOpen.buffer.append hdata⟩, hs.transport, hs.channel, ?_⟩
  rw [SendState.collect, hexBytes_append _ hs.isOpen.buffer.1, hs.buffer]

theorem Holds.calc (hs : s.Holds t nChannelId pending) (nMode : BYTE) (nLen : ℤ) :
    (s.calcAvailableChannelBufferLen nMode nLen).1.Holds t nChannelId pending :=
  ⟨⟨hs.isOpen.transport, hs.isOpen.buffer⟩, hs.transport, hs.channel, hs.buffer⟩

theorem Holds.clear (hs : s.Holds t nChannelId pending) :
    { s with strSendDataBuffer := [] }.Holds t nChannelId [] := by
  refine ⟨⟨hs.isOpen.transport, ?_⟩, hs.transport, hs.channel, rfl⟩
  exact ⟨rfl, fun ch hch => absurd hch not_mem_nil⟩

theorem Holds.decodeSendBuffer (hs : s.Holds t nChannelId pending) :
    s.decodeSendBuffer = if pending.length ≤ 1600 then some pending else none := by
  rw [SendState.decodeSendBuffer, cString_append hs.isOpen.buffer.ne_nul, hexString2Value_eq,
    length_replicate, hs.buffer]
  by_cases hfit : pending.length ≤ 1600
  · rw [if_pos hfit, if_pos hfit]
    exact Block.load_front _ _
  · rw [if_neg hfit, if_neg hfit]
    rfl

/-- A command that stores appends its payload. -/
theorem sendData_store {c : SendDataCommand} (hs : s.Holds t nChannelId pending)
    (hc : c.OnChannel nChannelId) (hmode : c.nMode = Ril.sendOnStore) :
    ∃ s' response, s.sendData c = some ⟨s', [], response⟩ ∧
      s'.Holds t nChannelId (pending ++ hexBytes c.strChnData) := by
  have hcollected := (hs.collect hc.payload).calc c.nMode ((c.strChnData.length / 2 : ℕ) : ℤ)
  refine ⟨_, (s.sendOnStore c.nMode c.strChnData).response, ?_, hcollected⟩
  rcases hs.isOpen.transport with ⟨htcp, _⟩ | ⟨hudp, _⟩
  · simp only [sendData, htcp, if_pos hmode]
    rfl
  · simp only [sendData, hudp, if_pos hmode]
    rfl

/-- **A command that sends** decodes all that has been collected, passes
it on, and keeps what the transport keeps. -/
theorem sendData_send {c : SendDataCommand} (hs : s.Holds t nChannelId pending)
    (hc : c.OnChannel nChannelId) (hmode : c.nMode ≠ Ril.sendOnStore) :
    ∃ s' response,
      s'.Holds t nChannelId (SendQueue.kept t (pending ++ hexBytes c.strChnData)) ∧
      s.sendData c =
        (if (pending ++ hexBytes c.strChnData).length ≤ 1600 then
          some ⟨s', [pending ++ hexBytes c.strChnData], response⟩ else none) := by
  have hcollected := hs.collect hc.payload
  have hdecode := hcollected.decodeSendBuffer
  obtain ⟨after, hafter⟩ : ∃ after, after = (s.collect c.strChnData).calcAvailableChannelBufferLen
      c.nMode ((c.strChnData.length / 2 : ℕ) : ℤ) := ⟨_, rfl⟩
  have hcalc : after.1.Holds t nChannelId (pending ++ hexBytes c.strChnData) := by
    rw [hafter]
    exact hcollected.calc _ _
  have hdest : ¬ s.nChannelId ≠ (c.nDevId &&& 0x0F).toNat := by
    rw [hs.channel]
    exact not_not_intro hc.destination
  rcases hs.isOpen.transport with ⟨htcp, hsocket⟩ | ⟨hudp, hsocket⟩
  · obtain rfl : t = .sockTcp := hs.transport.symm.trans htcp
    refine ⟨after.1, ⟨after.2, 0x00, -1, 1⟩, hcalc, ?_⟩
    simp only [sendData, htcp, if_neg hmode, sendOnTcp, hsocket, Bool.not_true,
      Bool.false_eq_true, if_false, hdecode, hafter]
    split_ifs <;> rfl
  · obtain rfl : t = .sockUdp := hs.transport.symm.trans hudp
    refine ⟨_, ⟨after.2, 0x00, -1, 1⟩, hcalc.clear, ?_⟩
    simp only [sendData, hudp, if_neg hmode, sendOnUdp, hsocket, Bool.not_true,
      Bool.false_eq_true, if_false, if_neg hdest, hdecode, hafter]
    split_ifs <;> rfl

/-- **The module sends what the queue sends**, exactly when every
transmission fits. -/
theorem run_eq_some_iff {cs : List SendDataCommand} {sent : List (List BYTE)}
    (hs : s.Holds t nChannelId pending) (hcs : ∀ c ∈ cs, c.OnChannel nChannelId) :
    s.run cs = some sent ↔
      SendQueue.Fits t pending cs ∧ sent = SendQueue.buffers t pending cs := by
  induction cs generalizing s pending sent with
  | nil => simp [run, SendQueue.Fits, SendQueue.buffers, eq_comm]
  | cons c cs ih =>
      have hc := hcs c mem_cons_self
      have hrest : ∀ d ∈ cs, d.OnChannel nChannelId := fun d hd => hcs d (mem_cons_of_mem _ hd)
      by_cases hmode : c.nMode = Ril.sendOnStore
      · obtain ⟨s', response, hstep, hs'⟩ := sendData_store hs hc hmode
        simp only [run, hstep, Option.bind_eq_bind, Option.bind_some, nil_append,
          SendQueue.Fits, SendQueue.buffers, if_pos hmode, Option.bind_fun_some]
        exact ih hs' hrest
      · obtain ⟨s', response, hs', hstep⟩ := sendData_send hs hc hmode
        simp only [SendQueue.Fits, SendQueue.buffers, if_neg hmode]
        by_cases hfit : (pending ++ hexBytes c.strChnData).length ≤ 1600
        · rw [if_pos hfit] at hstep
          simp only [run, hstep, Option.bind_eq_bind, Option.bind_some, hfit, true_and]
          constructor
          · intro hrun
            obtain ⟨rest, hrun, hsent⟩ := Option.bind_eq_some_iff.mp hrun
            obtain ⟨hfits, rfl⟩ := (ih hs' hrest).mp hrun
            exact ⟨hfits, (Option.some.inj hsent).symm⟩
          · rintro ⟨hfits, rfl⟩
            rw [(ih hs' hrest).mpr ⟨hfits, rfl⟩]
            rfl
        · rw [if_neg hfit] at hstep
          simp only [run, hstep, Option.bind_eq_bind, Option.bind_none, reduceCtorEq, false_iff]
          exact fun h => hfit h.1.1

/-- **The send path transmits each byte once**: the buffers passed to the
socket, one behind the other, are what the wire is meant to see. -/
def TransmitsOnce (s : SendState) (cs : List SendDataCommand) : Prop :=
  ∃ sent, s.run cs = some sent ∧ sent.flatten = SendQueue.due cs

/-- **When each byte is transmitted once.** A sequence with a command that
sends finds no text from before it, every transmission fits the 1600
bytes on the stack, and no transmission over TCP that carries a byte is
followed by another one. -/
theorem transmitsOnce_iff {s : SendState} {cs : List SendDataCommand} (hs : s.IsOpen)
    (hcs : ∀ c ∈ cs, c.OnChannel s.nChannelId) :
    s.TransmitsOnce cs ↔
      (SendQueue.Immediate cs → hexBytes s.strSendDataBuffer = []) ∧
      SendQueue.Fits s.transportType (hexBytes s.strSendDataBuffer) cs ∧
      SendQueue.Clear s.transportType (hexBytes s.strSendDataBuffer) cs := by
  have hholds : s.Holds s.transportType s.nChannelId (hexBytes s.strSendDataBuffer) :=
    ⟨hs, rfl, rfl, rfl⟩
  have hwire : s.TransmitsOnce cs ↔
      SendQueue.Fits s.transportType (hexBytes s.strSendDataBuffer) cs ∧
        (SendQueue.buffers s.transportType (hexBytes s.strSendDataBuffer) cs).flatten =
          SendQueue.due cs := by
    constructor
    · rintro ⟨sent, hrun, hflat⟩
      obtain ⟨hfits, rfl⟩ := (run_eq_some_iff hholds hcs).mp hrun
      exact ⟨hfits, hflat⟩
    · rintro ⟨hfits, hflat⟩
      exact ⟨_, (run_eq_some_iff hholds hcs).mpr ⟨hfits, rfl⟩, hflat⟩
  rw [hwire, SendQueue.buffers_flatten_eq_due_iff]
  exact and_left_comm

/-- A payload stored and sent over UDP, and a second one behind it. -/
theorem transmitsOnce_udp_two_sends :
    TransmitsOnce ⟨.sockUdp, 1400, 1, false, true, [], 0⟩
      [⟨0, ['0', '1'], 0x21⟩, ⟨1, ['0', '2'], 0x21⟩, ⟨1, ['0', '3'], 0x21⟩] := by
  refine (transmitsOnce_iff ⟨Or.inr ⟨rfl, rfl⟩, ?_⟩ ?_).mpr ?_
  · exact ⟨rfl, fun ch hch => absurd hch not_mem_nil⟩
  · intro c hc
    simp only [mem_cons, not_mem_nil, or_false] at hc
    rcases hc with rfl | rfl | rfl
    all_goals
      refine ⟨by decide, rfl, fun ch hch => ?_⟩
      simp only [mem_cons, not_mem_nil, or_false] at hch
      rcases hch with rfl | rfl <;> decide
  · exact ⟨fun _ => rfl, by simp [SendQueue.Fits, SendQueue.kept], SendQueue.clear_udp _ _⟩

/-- **Over TCP the second transmission repeats the first**: two commands
that send the bytes 1 and 2 put 1, 1 and 2 on the wire. -/
theorem not_transmitsOnce_tcp_two_sends :
    ¬ TransmitsOnce ⟨.sockTcp, 1400, 1, true, false, [], 0⟩
      [⟨1, ['0', '1'], 0x21⟩, ⟨1, ['0', '2'], 0x21⟩] := by
  rintro ⟨sent, hrun, hflat⟩
  have hcomputed : run ⟨.sockTcp, 1400, 1, true, false, [], 0⟩
      [⟨1, ['0', '1'], 0x21⟩, ⟨1, ['0', '2'], 0x21⟩] = some [[1], [1, 2]] := by decide +kernel
  rw [hcomputed, Option.some.injEq] at hrun
  rw [← hrun] at hflat
  exact absurd hflat (by decide)

end SendState

end ExynosVendor.Ril
