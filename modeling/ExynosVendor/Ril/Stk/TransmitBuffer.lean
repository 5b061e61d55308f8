import ExynosVendor.Common.Run
import ExynosVendor.Ril.Stk.SendData
import ExynosVendor.Ril.Stk.ReceiveData

/-!
# The transmit buffer of a BIP channel

The backlog of a channel is kept twice, as the hex text
`m_strSendDataBuffer` and as the count `m_nAccumlatedSendDataLenInBuffer`,
and the size of its buffer is in `m_tOpenChannelInfo`. OPEN CHANNEL sets
the size, CLOSE CHANNEL resets it, SEND DATA moves the two others, and
nobody compares the three.

`accountedHistory_iff` is the exact condition, over every history of commands,
under which they agree after each command and the length that is
answered is what is left of the buffer.
-/

namespace ExynosVendor.Ril

/-! ## Opening and closing -/

def defaultChannelId : ℕ := 1

/-- `m_nConnectType`. -/
inductive ConnectType where
  /-- −1. -/
  | none
  /-- `TYPE_MOBILE_DEFAULT`. -/
  | mobileDefault
  /-- `TYPE_MOBILE_CAT`. -/
  | mobileCat
  deriving DecidableEq

def bearerGprs : BYTE := 0x02

def bearerDefault : BYTE := 0x03

def bearerUtran : BYTE := 0x0B

/-- What `HandleCommand` takes from the TLVs of an OPEN CHANNEL command, a
TLV that is not there as `none`, and what the rest of the system answers
while the command is handled. -/
structure OpenChannelCommand where
  /-- `pBearerDesc->GetType()`. -/
  bearerType : Option BYTE
  /-- `pBufferSize->GetBufferSize()`, which `SWAP16` leaves 16 bits. -/
  bufferSize : Option (BitVec 16)
  /-- `pNetAccessName->GetAddress()`. -/
  netAccessName : Option (List Char)
  /-- `pTransPortLevel->GetTransportType()`. -/
  transportType : Option SocketType
  /-- There is a `TAG_ALPHA_IDENTIFIER`. -/
  alphaIdentifier : Bool
  /-- `m_nUserOper == USER_OPERATION_REJECT`. -/
  userReject : Bool
  /-- `CSocket::Create` and `CSocket::Connect` succeed. -/
  created : Bool

/-- `CStkModule` with a BIP channel. -/
structure BipState extends SendState where
  /-- `m_tOpenChannelInfo.BearerType`. -/
  bearerType : BYTE
  /-- `m_tOpenChannelInfo.strNetAccessName`. -/
  strNetAccessName : List Char
  /-- `m_nConnectType`. -/
  nConnectType : ConnectType
  /-- `m_bChannelEstablished`. -/
  bChannelEstablished : Bool
  /-- `m_bDefaultApnConnection`. -/
  bDefaultApnConnection : Bool
  /-- `m_tCmdDet.cType` is `OPEN_CHANNEL`. -/
  openChannelCommand : Bool

namespace BipState

/-- The constructor. -/
def init : BipState where
  transportType := .sockTcp
  nBufferSize := -1
  nChannelId := defaultChannelId
  pStkTcpSocket := false
  pStkUdpSocket := false
  strSendDataBuffer := []
  nAccumlatedSendDataLenInBuffer := 0
  bearerType := 0
  strNetAccessName := []
  nConnectType := .none
  bChannelEstablished := true
  bDefaultApnConnection := false
  openChannelCommand := false

def openChannelInfoInitialization (s : BipState) : BipState :=
  { s with
    bearerType := 0
    nBufferSize := -1
    strNetAccessName := []
    transportType := .sockTcp
    nChannelId := defaultChannelId
    nConnectType := .none }

/-- The loop over the TLVs of an OPEN CHANNEL command. -/
def takeInfo (s : BipState) (c : OpenChannelCommand) : BipState :=
  { s with
    bearerType := c.bearerType.getD s.bearerType
    nBufferSize := (c.bufferSize.map fun size => (size.toNat : ℤ)).getD s.nBufferSize
    strNetAccessName := c.netAccessName.getD s.strNetAccessName
    transportType := c.transportType.getD s.transportType }

/-- `CStkModule::CreateChannelSocket`, and whether it succeeds. A socket
that cannot be created or connected is kept. -/
def createChannelSocket (s : BipState) (created : Bool) : BipState × Bool :=
  match s.transportType with
  | .sockTcp => if s.pStkTcpSocket then (s, true) else ({ s with pStkTcpSocket := true }, created)
  | .sockUdp => if s.pStkUdpSocket then (s, false) else ({ s with pStkUdpSocket := true }, created)
  | .sockLocal => (s, true)

/-- The size of the buffer is cut to `DEFAULT_BUFFER_SIZE`. -/
def clampBufferSize (s : BipState) : BipState :=
  if s.nBufferSize > defaultBufferSize then { s with nBufferSize := defaultBufferSize } else s

def defaultAPNOpenChannel (s : BipState) (created : Bool) : BipState :=
  let (s, ok) := s.createChannelSocket created
  if ok then s.clampBufferSize else s

/-- OPEN CHANNEL, `CStkModule::OpenChannel` behind the loop over the TLVs.
A connection of its own is asked for and is opened later. -/
def openChannel (s : BipState) (c : OpenChannelCommand) : BipState :=
  let s := { s with openChannelCommand := true }.takeInfo c
  if c.alphaIdentifier ∧ c.userReject then s
  else if s.bearerType ≠ bearerGprs ∧ s.bearerType ≠ bearerUtran ∧ s.bearerType ≠ bearerDefault then
    s
  else if s.bearerType = bearerDefault ∨ s.strNetAccessName = [] then
    let s := { s with nConnectType := .mobileDefault }
    if s.bDefaultApnConnection then s.defaultAPNOpenChannel c.created else s
  else s

/-- `CStkModule::OnOpenBipConnectionDone`, with a result that is a success
with data or is not. -/
def onOpenBipConnectionDone (s : BipState) (success created : Bool) : BipState :=
  if ! success then s
  else
    let (s, ok) := s.createChannelSocket created
    if ! ok then s
    else { s.clampBufferSize with bChannelEstablished := true, nConnectType := .mobileCat }

/-- `CStkModule::OnDataCallStateChanged` when the default connection
becomes active. -/
def onDefaultDataCallActive (s : BipState) (created : Bool) : BipState :=
  if s.bDefaultApnConnection then s
  else
    let s :=
      if s.openChannelCommand ∧ (s.bearerType = bearerDefault ∨ s.strNetAccessName = []) then
        s.defaultAPNOpenChannel created
      else s
    { s with bDefaultApnConnection := true }

def closeChannelSocket (s : BipState) : BipState :=
  { s with pStkTcpSocket := false, pStkUdpSocket := false }

/-- CLOSE CHANNEL, `CStkModule::CloseChannel`. A response without additional
result clears `m_bChannelEstablished`. -/
def closeChannel (s : BipState) (nDevId : BYTE) : BipState :=
  let s := { s with openChannelCommand := false }
  if s.nConnectType = .mobileDefault ∧ (nDevId &&& 0x0F).toNat = defaultChannelId then
    { s with bChannelEstablished := false }.openChannelInfoInitialization
  else if s.bChannelEstablished then
    if (nDevId &&& 0x0F).toNat ≠ s.nChannelId then s
    else
      let s := s.closeChannelSocket
      if s.nConnectType = .mobileCat then
        { s with bChannelEstablished := false }.openChannelInfoInitialization
      else s
  else s

/-- The qualifier of SEND DATA. -/
def modeOf (immediate : Bool) : BYTE :=
  if immediate then sendImmediately else sendOnStore

/-- SEND DATA, to store the payload or to send it. The TLV makes the text of
the payload. -/
def sendPayload (s : BipState) (immediate : Bool) (nDevId : BYTE) (payload : List BYTE) :
    Option (BipState × SendDataResponse) := do
  let outcome ← s.toSendState.sendData ⟨modeOf immediate, hexText payload, nDevId⟩
  some ({ s with toSendState := outcome.state, openChannelCommand := false }, outcome.response)

/-! ## Commands -/

/-- What the module handles: the three commands, and the two events that
open a channel later. -/
inductive Command where
  | openChannel (c : OpenChannelCommand)
  | openBipConnectionDone (success created : Bool)
  | defaultDataCallActive (created : Bool)
  | closeChannel (nDevId : BYTE)
  | sendData (immediate : Bool) (nDevId : BYTE) (payload : List BYTE)

/-- A command handled, with the response to SEND DATA. -/
def perform (s : BipState) : Command → Option (BipState × Option SendDataResponse)
  | .openChannel c => some (s.openChannel c, none)
  | .openBipConnectionDone success created => some (s.onOpenBipConnectionDone success created, none)
  | .defaultDataCallActive created => some (s.onDefaultDataCallActive created, none)
  | .closeChannel nDevId => some (s.closeChannel nDevId, none)
  | .sendData immediate nDevId payload => do
      let (s, response) ← s.sendPayload immediate nDevId payload
      some (s, some response)

/-- One command after another; nothing follows a fault. -/
def next (s : BipState) (c : Command) : BipState :=
  (s.perform c).elim s Prod.fst

/-- The number of bytes held in `m_strSendDataBuffer`. -/
def held (s : BipState) : ℕ := s.strSendDataBuffer.length / 2

/-- **The books are right**: the count is what is held, and a channel's
buffer has room for it. −1 is the size where there is no channel. -/
structure Balanced (s : BipState) : Prop where
  count : s.nAccumlatedSendDataLenInBuffer = s.held
  room : 0 ≤ s.nBufferSize → (s.held : ℤ) ≤ s.nBufferSize

/-- **A length that is answered** is what is left of the buffer, and fits
its byte. -/
structure Answered (s : BipState) (r : SendDataResponse) : Prop where
  rest : r.nLen = min 255 (s.nBufferSize - s.held)
  low : 0 ≤ r.nLen
  high : r.nLen ≤ 255

/-- **A command is accounted for**: it decodes inside the buffer on the
stack, leaves the books right, and answers what is left. -/
def Accounted (s : BipState) (c : Command) : Prop :=
  ∃ s' response, s.perform c = some (s', response) ∧ s'.Balanced ∧
    ∀ r, response = some r → r.nResult = 0x00 → s'.Answered r

/-! ## The condition -/

/-- An OPEN CHANNEL command whose channel is opened at once. -/
def OpensAtOnce (s : BipState) (c : OpenChannelCommand) : Prop :=
  ¬ (c.alphaIdentifier ∧ c.userReject) ∧
    ((s.takeInfo c).bearerType = bearerDefault ∨
      ((s.takeInfo c).bearerType = bearerGprs ∨ (s.takeInfo c).bearerType = bearerUtran) ∧
        (s.takeInfo c).strNetAccessName = []) ∧
    s.bDefaultApnConnection ∧ ((s.takeInfo c).createChannelSocket c.created).2

/-- **What SEND DATA has to meet**: what is stored fits what is left; over
TCP nothing is sent, as the text is not cleared; over UDP no more than the
buffer on the stack has room for, on a channel that has a size. -/
structure SendOk (s : BipState) (immediate : Bool) (nDevId : BYTE) (payload : List BYTE) : Prop where
  store : immediate = false → s.transportType ≠ .sockLocal →
    ((s.held + payload.length : ℕ) : ℤ) ≤ s.nBufferSize
  tcp : immediate = true → s.transportType = .sockTcp → s.pStkTcpSocket = true →
    s.held + payload.length = 0 ∧ 0 ≤ s.nBufferSize
  udp : immediate = true → s.transportType = .sockUdp → s.pStkUdpSocket = true →
    s.nChannelId = (nDevId &&& 0x0F).toNat →
      s.held + payload.length ≤ 1600 ∧ 0 ≤ s.nBufferSize

/-- **What a command has to meet**, in the module it finds: a channel is
opened with room for what earlier ones have left. -/
def Meets (s : BipState) : Command → Prop
  | .openChannel c =>
      (0 ≤ (s.takeInfo c).nBufferSize → (s.held : ℤ) ≤ (s.takeInfo c).nBufferSize) ∧
        (s.OpensAtOnce c → 0 ≤ (s.takeInfo c).nBufferSize → (s.held : ℤ) ≤ defaultBufferSize)
  | .openBipConnectionDone success created =>
      success → (s.createChannelSocket created).2 → 0 ≤ s.nBufferSize →
        (s.held : ℤ) ≤ defaultBufferSize
  | .defaultDataCallActive created =>
      ¬ s.bDefaultApnConnection → s.openChannelCommand →
        s.bearerType = bearerDefault ∨ s.strNetAccessName = [] →
          (s.createChannelSocket created).2 → 0 ≤ s.nBufferSize →
            (s.held : ℤ) ≤ defaultBufferSize
  | .closeChannel _ => True
  | .sendData immediate nDevId payload => s.SendOk immediate nDevId payload

/-! ## The books under each command -/

/-- **The books of a module**: the size, the text and the count. -/
def books (s : BipState) : ℤ × List Char × ℤ :=
  (s.nBufferSize, s.strSendDataBuffer, s.nAccumlatedSendDataLenInBuffer)

variable {s : BipState} {c : Command} {nDevId : BYTE} {payload : List BYTE} {o : SendOutcome}

variable {s' : BipState}

/-- Where only the size has changed, only the room has to be looked at. -/
theorem Balanced.of_books {size : ℤ} (hs : s.Balanced)
    (hbooks : s'.books = (size, s.strSendDataBuffer, s.nAccumlatedSendDataLenInBuffer)) :
    s'.Balanced ↔ (0 ≤ size → (s.held : ℤ) ≤ size) := by
  obtain ⟨hsize, hrest⟩ := Prod.mk.inj hbooks
  obtain ⟨htext, hcount⟩ := Prod.mk.inj hrest
  have hheld : s'.held = s.held := by
    unfold held
    rw [htext]
  constructor
  · intro h
    have hroom := h.room
    rwa [hsize, hheld] at hroom
  · intro h
    refine ⟨?_, ?_⟩
    · rw [hcount, hheld]
      exact hs.count
    · rw [hsize, hheld]
      exact h

theorem createChannelSocket_books (s : BipState) (created : Bool) :
    (s.createChannelSocket created).1.books = s.books := by
  unfold createChannelSocket
  split
  · split_ifs <;> rfl
  · split_ifs <;> rfl
  · rfl

theorem clampBufferSize_books (s : BipState) :
    s.clampBufferSize.books = (min s.nBufferSize defaultBufferSize, s.strSendDataBuffer,
      s.nAccumlatedSendDataLenInBuffer) := by
  unfold clampBufferSize
  split_ifs with h
  · rw [min_eq_right (le_of_lt h)]
    rfl
  · rw [min_eq_left (not_lt.mp h)]
    rfl

theorem opened_books (s : BipState) (created : Bool) :
    (s.createChannelSocket created).1.clampBufferSize.books =
      (min s.nBufferSize defaultBufferSize, s.strSendDataBuffer,
        s.nAccumlatedSendDataLenInBuffer) := by
  obtain ⟨hsize, hrest⟩ := Prod.mk.inj (s.createChannelSocket_books created)
  obtain ⟨htext, hcount⟩ := Prod.mk.inj hrest
  rw [clampBufferSize_books, hsize, htext, hcount]

theorem defaultAPNOpenChannel_books (s : BipState) (created : Bool) :
    (s.defaultAPNOpenChannel created).books =
      (if (s.createChannelSocket created).2 then min s.nBufferSize defaultBufferSize
        else s.nBufferSize, s.strSendDataBuffer, s.nAccumlatedSendDataLenInBuffer) := by
  unfold defaultAPNOpenChannel
  dsimp only
  split_ifs with h
  · exact s.opened_books created
  · exact s.createChannelSocket_books created

theorem createChannelSocket_congr (created : Bool) (htransport : s'.transportType = s.transportType)
    (htcp : s'.pStkTcpSocket = s.pStkTcpSocket) (hudp : s'.pStkUdpSocket = s.pStkUdpSocket) :
    (s'.createChannelSocket created).2 = (s.createChannelSocket created).2 := by
  unfold createChannelSocket
  rw [htransport, htcp, hudp]
  cases s.transportType with
  | sockTcp => cases s.pStkTcpSocket <;> rfl
  | sockUdp => cases s.pStkUdpSocket <;> rfl
  | sockLocal => rfl

/-- **A channel that is opened at once** has its size cut, and any other one
has the size of the command. -/
theorem openChannel_books (s : BipState) (c : OpenChannelCommand) :
    ∃ size, (s.openChannel c).books = (size, s.strSendDataBuffer, s.nAccumlatedSendDataLenInBuffer) ∧
      (s.OpensAtOnce c → size = min (s.takeInfo c).nBufferSize defaultBufferSize) ∧
      (¬ s.OpensAtOnce c → size = (s.takeInfo c).nBufferSize) := by
  obtain ⟨t, ht⟩ : ∃ t : BipState, t = { s with openChannelCommand := true }.takeInfo c := ⟨_, rfl⟩
  have htype : t.bearerType = (s.takeInfo c).bearerType := by rw [ht]; rfl
  have hname : t.strNetAccessName = (s.takeInfo c).strNetAccessName := by rw [ht]; rfl
  have hbooks : t.books = ((s.takeInfo c).nBufferSize, s.strSendDataBuffer,
      s.nAccumlatedSendDataLenInBuffer) := by rw [ht]; rfl
  have hactive : t.bDefaultApnConnection = s.bDefaultApnConnection := by rw [ht]; rfl
  unfold openChannel OpensAtOnce
  rw [← ht, ← htype, ← hname]
  dsimp only
  split_ifs with hreject hbearer hdefault hactive'
  · exact ⟨_, hbooks, fun h => absurd hreject h.1, fun _ => rfl⟩
  -- a bearer nobody knows
  · refine ⟨_, hbooks, fun h => ?_, fun _ => rfl⟩
    obtain ⟨hgprs, hutran, hdef⟩ := hbearer
    rcases h.2.1 with hd | ⟨hg | hu, -⟩
    · exact absurd hd hdef
    · exact absurd hg hgprs
    · exact absurd hu hutran
  · -- the default connection is there: the socket is created at once
    have hsame : (({ t with nConnectType := .mobileDefault } : BipState).createChannelSocket
        c.created).2 = ((s.takeInfo c).createChannelSocket c.created).2 := by
      refine createChannelSocket_congr _ ?_ ?_ ?_
      all_goals rw [ht]; rfl
    have hbearers : t.bearerType = bearerDefault ∨
        (t.bearerType = bearerGprs ∨ t.bearerType = bearerUtran) ∧ t.strNetAccessName = [] := by
      by_cases hdef : t.bearerType = bearerDefault
      · exact Or.inl hdef
      · refine Or.inr ⟨?_, hdefault.resolve_left hdef⟩
        by_contra hnone
        exact hbearer ⟨fun h => hnone (Or.inl h), fun h => hnone (Or.inr h), hdef⟩
    have hopened := defaultAPNOpenChannel_books { t with nConnectType := .mobileDefault } c.created
    rw [hsame] at hopened
    by_cases hcreated : ((s.takeInfo c).createChannelSocket c.created).2 = true
    · rw [if_pos hcreated] at hopened
      refine ⟨_, hopened.trans ?_, fun _ => rfl, fun h => ?_⟩
      · rw [ht]
        rfl
      · rw [hactive] at hactive'
        exact absurd ⟨hreject, hbearers, hactive', hcreated⟩ h
    · rw [if_neg hcreated] at hopened
      exact ⟨_, hopened.trans hbooks, fun h => absurd h.2.2.2 hcreated, fun _ => rfl⟩
  · refine ⟨_, hbooks, fun h => ?_, fun _ => rfl⟩
    -- the connection is asked for first
    rw [hactive] at hactive'
    exact absurd h.2.2.1 hactive'
  · refine ⟨_, hbooks, fun h => ?_, fun _ => rfl⟩
    rcases h.2.1 with hd | ⟨-, hn⟩
    · exact absurd (Or.inl hd) hdefault
    · exact absurd (Or.inr hn) hdefault

theorem onOpenBipConnectionDone_books (s : BipState) (success created : Bool) :
    (s.onOpenBipConnectionDone success created).books =
      (if success = true ∧ (s.createChannelSocket created).2 = true then
          min s.nBufferSize defaultBufferSize
        else s.nBufferSize, s.strSendDataBuffer, s.nAccumlatedSendDataLenInBuffer) := by
  unfold onOpenBipConnectionDone
  dsimp only
  cases success with
  | false => rfl
  | true =>
    cases hcreated : (s.createChannelSocket created).2 with
    | false => exact s.createChannelSocket_books created
    | true => exact s.opened_books created

theorem onDefaultDataCallActive_books (s : BipState) (created : Bool) :
    (s.onDefaultDataCallActive created).books =
      (if ¬ s.bDefaultApnConnection = true ∧ (s.openChannelCommand = true ∧
            (s.bearerType = bearerDefault ∨ s.strNetAccessName = [])) ∧
            (s.createChannelSocket created).2 = true then
          min s.nBufferSize defaultBufferSize
        else s.nBufferSize, s.strSendDataBuffer, s.nAccumlatedSendDataLenInBuffer) := by
  unfold onDefaultDataCallActive
  by_cases hactive : s.bDefaultApnConnection = true
  · rw [if_pos hactive, if_neg fun h => h.1 hactive]
    rfl
  rw [if_neg hactive]
  by_cases hpending : s.openChannelCommand = true ∧
      (s.bearerType = bearerDefault ∨ s.strNetAccessName = [])
  · have hopened := s.defaultAPNOpenChannel_books created
    by_cases hcreated : (s.createChannelSocket created).2 = true
    · rw [if_pos hcreated] at hopened
      rw [if_pos hpending, if_pos ⟨hactive, hpending, hcreated⟩]
      exact hopened
    · rw [if_neg hcreated] at hopened
      rw [if_pos hpending, if_neg fun h => hcreated h.2.2]
      exact hopened
  · rw [if_neg hpending, if_neg fun h => hpending h.2.1]
    rfl

theorem closeChannel_books (s : BipState) (nDevId : BYTE) :
    ∃ size, (s.closeChannel nDevId).books =
        (size, s.strSendDataBuffer, s.nAccumlatedSendDataLenInBuffer) ∧
      (size = s.nBufferSize ∨ size = -1) := by
  unfold closeChannel
  dsimp only
  split_ifs
  · exact ⟨-1, rfl, Or.inr rfl⟩
  · exact ⟨_, rfl, Or.inl rfl⟩
  · exact ⟨-1, rfl, Or.inr rfl⟩
  · exact ⟨_, rfl, Or.inl rfl⟩
  · exact ⟨_, rfl, Or.inl rfl⟩

/-! ## The condition of each command -/

/-- **A module whose books are right** and whose text is one of payloads. -/
structure Steady (s : BipState) : Prop where
  balanced : s.Balanced
  text : IsHexString s.strSendDataBuffer

theorem accounted_silent (h : s.perform c = some (s', none)) :
    s.Accounted c ↔ s'.Balanced := by
  constructor
  · rintro ⟨t, response, hperform, hbalanced, -⟩
    obtain ⟨rfl, -⟩ := Prod.mk.inj (Option.some.inj (h.symm.trans hperform))
    exact hbalanced
  · intro hbalanced
    refine ⟨s', none, h, hbalanced, ?_⟩
    intro r hr
    cases hr

theorem openChannel_accounted_iff (hs : s.Steady) (c : OpenChannelCommand) :
    s.Accounted (.openChannel c) ↔ s.Meets (.openChannel c) := by
  obtain ⟨size, hbooks, honce, hlater⟩ := s.openChannel_books c
  rw [accounted_silent rfl, hs.balanced.of_books hbooks]
  unfold Meets defaultBufferSize
  by_cases h : s.OpensAtOnce c
  · rw [honce h, defaultBufferSize]
    constructor
    · intro hroom
      exact ⟨fun _ => by omega, fun _ _ => by omega⟩
    · rintro ⟨hroom, hcut⟩ _
      have hcut := hcut h
      omega
  · rw [hlater h]
    exact ⟨fun hroom => ⟨hroom, fun honce => absurd honce h⟩, And.left⟩

/-- Where a size may be cut, what is held has to fit what it is cut to. -/
theorem Balanced.cut_iff (hs : s.Balanced) {P : Prop} [Decidable P]
    (hbooks : s'.books = (if P then min s.nBufferSize defaultBufferSize else s.nBufferSize,
      s.strSendDataBuffer, s.nAccumlatedSendDataLenInBuffer)) :
    s'.Balanced ↔ (P → 0 ≤ s.nBufferSize → (s.held : ℤ) ≤ defaultBufferSize) := by
  have hroom := hs.room
  rw [hs.of_books hbooks]
  unfold defaultBufferSize
  split_ifs with h
  · constructor
    · intro hcut _ hsize
      have hmin := hcut (by omega)
      omega
    · intro hcut _
      have hmin := hcut h (by omega)
      omega
  · exact iff_of_true hroom fun hp => absurd hp h

theorem openBipConnectionDone_accounted_iff (hs : s.Steady) (success created : Bool) :
    s.Accounted (.openBipConnectionDone success created) ↔
      s.Meets (.openBipConnectionDone success created) := by
  rw [accounted_silent rfl, hs.balanced.cut_iff (s.onOpenBipConnectionDone_books success created)]
  exact and_imp

theorem defaultDataCallActive_accounted_iff (hs : s.Steady) (created : Bool) :
    s.Accounted (.defaultDataCallActive created) ↔ s.Meets (.defaultDataCallActive created) := by
  rw [accounted_silent rfl, hs.balanced.cut_iff (s.onDefaultDataCallActive_books created)]
  unfold Meets
  constructor
  · intro h hactive hopen hdefault hcreated
    exact h ⟨hactive, ⟨hopen, hdefault⟩, hcreated⟩
  · rintro h ⟨hactive, ⟨hopen, hdefault⟩, hcreated⟩
    exact h hactive hopen hdefault hcreated

theorem closeChannel_accounted (hs : s.Steady) (nDevId : BYTE) :
    s.Accounted (.closeChannel nDevId) := by
  obtain ⟨size, hbooks, hsize⟩ := s.closeChannel_books nDevId
  have hroom := hs.balanced.room
  rw [accounted_silent rfl, hs.balanced.of_books hbooks]
  intro hpos
  rcases hsize with rfl | rfl
  · exact hroom hpos
  · omega

theorem held_collect (hs : s.Steady) (payload : List BYTE) :
    (s.strSendDataBuffer ++ hexText payload).length / 2 = s.held + payload.length := by
  have heven := hs.text.1
  unfold held
  rw [List.length_append, hexText_length]
  omega

theorem decodeSendBuffer_collect (hs : s.Steady) (payload : List BYTE) :
    (s.toSendState.collect (hexText payload)).decodeSendBuffer =
      if s.held + payload.length ≤ 1600 then
        some (hexBytes (s.strSendDataBuffer ++ hexText payload))
      else none := by
  have htext : IsHexString (s.toSendState.collect (hexText payload)).strSendDataBuffer :=
    hs.text.append (IsHexString.of_hexText payload)
  have heven : (s.strSendDataBuffer ++ hexText payload).length % 2 = 0 := htext.1
  have hlen : (hexBytes (s.strSendDataBuffer ++ hexText payload)).length =
      s.held + payload.length := by
    rw [hexBytes_length, ← held_collect hs payload]
    omega
  rw [SendState.decodeSendBuffer_eq htext]
  exact congrArg (fun n => if n ≤ 1600 then some _ else none) hlen

/-- **SEND DATA that does nothing**: the state stays, and no length is answered. -/
theorem accounted_refused (hs : s.Steady) {immediate : Bool} {r : SendDataResponse}
    (hr : r.nResult ≠ 0x00)
    (h : s.toSendState.sendData ⟨modeOf immediate, hexText payload, nDevId⟩ =
        some ⟨s.toSendState, [], r⟩) :
    s.Accounted (.sendData immediate nDevId payload) := by
  refine ⟨{ s with openChannelCommand := false }, some r, ?_, ⟨hs.balanced.count, hs.balanced.room⟩,
    ?_⟩
  · simp only [perform, sendPayload, h, Option.bind_eq_bind, Option.bind_some]
  · intro r' hr' hzero
    cases hr'
    exact absurd hzero hr

/-- **A payload that is taken** leaves so many bytes and that count. -/
structure Takes (s : SendState) (o : SendOutcome) (bytes : ℕ) (total : ℤ) : Prop where
  result : o.response.nResult = 0x00
  size : o.state.nBufferSize = s.nBufferSize
  held : o.state.strSendDataBuffer.length / 2 = bytes
  count : o.state.nAccumlatedSendDataLenInBuffer = total
  length : o.response.nLen = min 255 (s.nBufferSize - total)

/-- It is accounted for when the two agree and fit. -/
theorem Takes.accounted_iff {bytes : ℕ} {total : ℤ} (ho : Takes s.toSendState o bytes total)
    (immediate : Bool)
    (h : s.toSendState.sendData ⟨modeOf immediate, hexText payload, nDevId⟩ = some o) :
    s.Accounted (.sendData immediate nDevId payload) ↔
      total = bytes ∧ (bytes : ℤ) ≤ s.nBufferSize := by
  obtain ⟨t, ht⟩ : ∃ t : BipState, t = { s with
      toSendState := o.state
      openChannelCommand := false } := ⟨_, rfl⟩
  have hperform : s.perform (.sendData immediate nDevId payload) = some (t, some o.response) := by
    simp only [perform, sendPayload, h, Option.bind_eq_bind, Option.bind_some, ht]
  have hsize : t.nBufferSize = s.nBufferSize := by
    rw [ht]
    exact ho.size
  have hheld : t.held = bytes := by
    rw [ht]
    exact ho.held
  have hcount : t.nAccumlatedSendDataLenInBuffer = total := by
    rw [ht]
    exact ho.count
  constructor
  · rintro ⟨s', response, hs', hbalanced, hanswered⟩
    rw [hperform] at hs'
    cases hs'
    have hagree := hbalanced.count
    have hlow := (hanswered _ rfl ho.result).low
    rw [hcount, hheld] at hagree
    rw [ho.length] at hlow
    omega
  · rintro ⟨hagree, hfits⟩
    refine ⟨t, some o.response, hperform, ⟨?_, ?_⟩, ?_⟩
    · rw [hcount, hheld, hagree]
    · intro _
      rw [hsize, hheld]
      exact hfits
    · intro r hr _
      cases hr
      refine ⟨?_, ?_, ?_⟩
      · rw [ho.length, hsize, hheld, hagree]
      · rw [ho.length]
        omega
      · rw [ho.length]
        exact min_le_left _ _

theorem not_accounted_fault {immediate : Bool}
    (h : s.toSendState.sendData ⟨modeOf immediate, hexText payload, nDevId⟩ = none) :
    ¬ s.Accounted (.sendData immediate nDevId payload) := by
  rintro ⟨s', response, hs', -⟩
  simp only [perform, sendPayload, h, Option.bind_eq_bind, Option.bind_none, reduceCtorEq] at hs'

theorem available_eq (size count : ℤ) :
    (if size - count > 255 then (0xFF : ℤ) else size - count) = min 255 (size - count) := by
  split_ifs with h
  · exact (min_eq_left (by omega)).symm
  · exact (min_eq_right (by omega)).symm

/-- **To store**: the payload has to fit what is left. -/
theorem store_accounted_iff (hs : s.Steady) (nDevId : BYTE) (payload : List BYTE)
    (htransport : s.transportType ≠ .sockLocal) :
    s.Accounted (.sendData false nDevId payload) ↔
      ((s.held + payload.length : ℕ) : ℤ) ≤ s.nBufferSize := by
  have hlen : (hexText payload).length / 2 = payload.length := by
    rw [hexText_length]
    omega
  have hsend : s.toSendState.sendData ⟨sendOnStore, hexText payload, nDevId⟩ =
      some (s.toSendState.sendOnStore sendOnStore (hexText payload)) := by
    unfold SendState.sendData
    cases ht : s.transportType with
    | sockTcp => exact if_pos rfl
    | sockUdp => exact if_pos rfl
    | sockLocal => exact absurd ht htransport
  have htakes : Takes s.toSendState (s.toSendState.sendOnStore sendOnStore (hexText payload))
      (s.held + payload.length) (s.nAccumlatedSendDataLenInBuffer + payload.length) := by
    refine ⟨rfl, rfl, held_collect hs payload, ?_, ?_⟩
    · rw [← hlen]
      rfl
    · rw [← available_eq, ← hlen]
      rfl
  rw [htakes.accounted_iff false hsend, hs.balanced.count]
  exact and_iff_right (Nat.cast_add _ _).symm

/-- The length bookkeeping of a payload that is sent: the count is zero. -/
theorem takes_calc (s : SendState) (nLen : ℤ) (sent : List (List BYTE)) :
    Takes s ⟨(s.calcAvailableChannelBufferLen sendImmediately nLen).1, sent,
      ⟨(s.calcAvailableChannelBufferLen sendImmediately nLen).2, 0x00, -1, 1⟩⟩
      (s.strSendDataBuffer.length / 2) 0 := by
  refine ⟨rfl, rfl, rfl, rfl, ?_⟩
  rw [← available_eq]
  rfl

theorem Takes.clear {s : SendState} {bytes : ℕ} {total : ℤ} (ho : Takes s o bytes total) :
    Takes s ⟨{ o.state with strSendDataBuffer := [] }, o.sent, o.response⟩ 0 total :=
  ⟨ho.result, ho.size, by simp, ho.count, ho.length⟩

/-- **To send over TCP**: nothing may be held, before or after it. -/
theorem tcp_accounted_iff (hs : s.Steady) (nDevId : BYTE) (payload : List BYTE)
    (htransport : s.transportType = .sockTcp) (hsocket : s.pStkTcpSocket = true) :
    s.Accounted (.sendData true nDevId payload) ↔
      s.held + payload.length = 0 ∧ 0 ≤ s.nBufferSize := by
  have hdecode := decodeSendBuffer_collect hs payload
  have hsend : s.toSendState.sendData ⟨modeOf true, hexText payload, nDevId⟩ =
      s.toSendState.sendOnTcp sendImmediately (hexText payload) := by
    unfold SendState.sendData
    rw [htransport]
    exact if_neg (show ¬ modeOf true = sendOnStore by decide)
  by_cases hfits : s.held + payload.length ≤ 1600
  · rw [if_pos hfits] at hdecode
    have htcp : s.toSendState.sendOnTcp sendImmediately (hexText payload) = some
        ⟨((s.toSendState.collect (hexText payload)).calcAvailableChannelBufferLen sendImmediately
          ((hexText payload).length / 2 : ℕ)).1, [hexBytes (s.strSendDataBuffer ++ hexText payload)],
          ⟨((s.toSendState.collect (hexText payload)).calcAvailableChannelBufferLen sendImmediately
            ((hexText payload).length / 2 : ℕ)).2, 0x00, -1, 1⟩⟩ := by
      simp only [SendState.sendOnTcp, hsocket, Bool.not_true, Bool.false_eq_true, if_false, hdecode,
        Option.bind_eq_bind, Option.bind_some]
    have htakes := takes_calc (s.toSendState.collect (hexText payload))
      ((hexText payload).length / 2 : ℕ) [hexBytes (s.strSendDataBuffer ++ hexText payload)]
    have hheld := held_collect hs payload
    have hagree : Takes s.toSendState _ (s.held + payload.length) 0 :=
      ⟨htakes.result, htakes.size, htakes.held.trans hheld, htakes.count, htakes.length⟩
    rw [hagree.accounted_iff true (hsend.trans htcp)]
    omega
  · rw [if_neg hfits] at hdecode
    refine iff_of_false (not_accounted_fault (hsend.trans ?_)) fun h => by omega
    simp only [SendState.sendOnTcp, hsocket, Bool.not_true, Bool.false_eq_true, if_false, hdecode,
      Option.bind_eq_bind, Option.bind_none]

/-- **To send over UDP**: what is held has to fit the buffer on the stack. -/
theorem udp_accounted_iff (hs : s.Steady) (nDevId : BYTE) (payload : List BYTE)
    (htransport : s.transportType = .sockUdp) (hsocket : s.pStkUdpSocket = true)
    (hdest : s.nChannelId = (nDevId &&& 0x0F).toNat) :
    s.Accounted (.sendData true nDevId payload) ↔
      s.held + payload.length ≤ 1600 ∧ 0 ≤ s.nBufferSize := by
  have hdecode := decodeSendBuffer_collect hs payload
  have hsend : s.toSendState.sendData ⟨modeOf true, hexText payload, nDevId⟩ =
      s.toSendState.sendOnUdp sendImmediately (hexText payload) nDevId := by
    unfold SendState.sendData
    rw [htransport]
    exact if_neg (show ¬ modeOf true = sendOnStore by decide)
  have hsame : ¬ s.nChannelId ≠ (nDevId &&& 0x0F).toNat := not_not_intro hdest
  by_cases hfits : s.held + payload.length ≤ 1600
  · rw [if_pos hfits] at hdecode
    have hudp : s.toSendState.sendOnUdp sendImmediately (hexText payload) nDevId = some
        ⟨{ ((s.toSendState.collect (hexText payload)).calcAvailableChannelBufferLen sendImmediately
          ((hexText payload).length / 2 : ℕ)).1 with strSendDataBuffer := [] },
          [hexBytes (s.strSendDataBuffer ++ hexText payload)],
          ⟨((s.toSendState.collect (hexText payload)).calcAvailableChannelBufferLen sendImmediately
            ((hexText payload).length / 2 : ℕ)).2, 0x00, -1, 1⟩⟩ := by
      simp only [SendState.sendOnUdp, hsocket, Bool.not_true, Bool.false_eq_true, if_false,
        if_neg hsame, hdecode, Option.bind_eq_bind, Option.bind_some]
    have htakes := (takes_calc (s.toSendState.collect (hexText payload))
      ((hexText payload).length / 2 : ℕ) [hexBytes (s.strSendDataBuffer ++ hexText payload)]).clear
    have hcleared : Takes s.toSendState _ 0 0 :=
      ⟨htakes.result, htakes.size, htakes.held, htakes.count, htakes.length⟩
    rw [hcleared.accounted_iff true (hsend.trans hudp)]
    omega
  · rw [if_neg hfits] at hdecode
    refine iff_of_false (not_accounted_fault (hsend.trans ?_)) fun h => hfits h.1
    simp only [SendState.sendOnUdp, hsocket, Bool.not_true, Bool.false_eq_true, if_false,
      if_neg hsame, hdecode, Option.bind_eq_bind, Option.bind_none]

/-- **SEND DATA is accounted for** exactly when it meets its condition: a command that the
transport refuses changes nothing. -/
theorem sendData_accounted_iff (hs : s.Steady) (immediate : Bool) (nDevId : BYTE)
    (payload : List BYTE) :
    s.Accounted (.sendData immediate nDevId payload) ↔
      s.Meets (.sendData immediate nDevId payload) := by
  have himmediate : ¬ modeOf true = sendOnStore := by decide
  cases htransport : s.transportType with
  | sockLocal =>
    have hrefused : s.toSendState.sendData ⟨modeOf immediate, hexText payload, nDevId⟩ =
        some ⟨s.toSendState, [], ⟨0, 0x30, -1, 1⟩⟩ := by
      unfold SendState.sendData
      rw [htransport]
    refine iff_of_true (accounted_refused hs (by decide) hrefused) ⟨?_, ?_, ?_⟩
    · exact fun _ hne => absurd htransport hne
    · exact fun _ htcp => absurd (htransport.symm.trans htcp) (by decide)
    · exact fun _ hudp => absurd (htransport.symm.trans hudp) (by decide)
  | sockTcp =>
    have hnotLocal : s.transportType ≠ .sockLocal := by
      rw [htransport]
      decide
    have hnotUdp : s.transportType ≠ .sockUdp := by
      rw [htransport]
      decide
    cases immediate with
    | false =>
      rw [store_accounted_iff hs nDevId payload hnotLocal]
      exact ⟨fun h => ⟨fun _ _ => h, fun h => absurd h (by decide), fun h => absurd h (by decide)⟩,
        fun h => h.store rfl hnotLocal⟩
    | true =>
      cases hsocket : s.pStkTcpSocket with
      | true =>
        rw [tcp_accounted_iff hs nDevId payload htransport hsocket]
        exact ⟨fun h => ⟨fun h => absurd h (by decide), fun _ _ _ => h,
          fun _ hudp => absurd hudp hnotUdp⟩, fun h => h.tcp rfl htransport hsocket⟩
      -- without a socket an error is answered
      | false =>
        have hrefused : s.toSendState.sendData ⟨modeOf true, hexText payload, nDevId⟩ =
            some ⟨s.toSendState, [], ⟨0, 0x30, -1, 1⟩⟩ := by
          simp only [SendState.sendData, htransport, if_neg himmediate, SendState.sendOnTcp,
            hsocket, Bool.not_false, if_true]
        refine iff_of_true (accounted_refused hs (by decide) hrefused) ⟨?_, ?_, ?_⟩
        · exact fun h => absurd h (by decide)
        · exact fun _ _ hs' => absurd (hsocket.symm.trans hs') (by decide)
        · exact fun _ hudp => absurd hudp hnotUdp
  | sockUdp =>
    have hnotLocal : s.transportType ≠ .sockLocal := by
      rw [htransport]
      decide
    have hnotTcp : s.transportType ≠ .sockTcp := by
      rw [htransport]
      decide
    cases immediate with
    | false =>
      rw [store_accounted_iff hs nDevId payload hnotLocal]
      exact ⟨fun h => ⟨fun _ _ => h, fun h => absurd h (by decide), fun h => absurd h (by decide)⟩,
        fun h => h.store rfl hnotLocal⟩
    | true =>
      by_cases hopen : s.pStkUdpSocket = true ∧ s.nChannelId = (nDevId &&& 0x0F).toNat
      · rw [udp_accounted_iff hs nDevId payload htransport hopen.1 hopen.2]
        exact ⟨fun h => ⟨fun h => absurd h (by decide), fun _ htcp => absurd htcp hnotTcp,
          fun _ _ _ _ => h⟩, fun h => h.udp rfl htransport hopen.1 hopen.2⟩
      · -- without a socket, or for another channel, an error is answered
        have hrefused : ∃ r : SendDataResponse, r.nResult ≠ 0x00 ∧
            s.toSendState.sendData ⟨modeOf true, hexText payload, nDevId⟩ =
              some ⟨s.toSendState, [], r⟩ := by
          cases hsocket : s.pStkUdpSocket with
          | false =>
            refine ⟨⟨0, 0x30, -1, 1⟩, by decide, ?_⟩
            simp only [SendState.sendData, htransport, if_neg himmediate, SendState.sendOnUdp,
              hsocket, Bool.not_false, if_true]
          | true =>
            have hother : s.nChannelId ≠ (nDevId &&& 0x0F).toNat := fun h => hopen ⟨hsocket, h⟩
            refine ⟨⟨0, 0x3A, 3, 1⟩, by decide, ?_⟩
            simp only [SendState.sendData, htransport, if_neg himmediate, SendState.sendOnUdp,
              hsocket, Bool.not_true, Bool.false_eq_true, if_false, if_pos hother]
        obtain ⟨r, hr, hsend⟩ := hrefused
        refine iff_of_true (accounted_refused hs hr hsend) ⟨?_, ?_, ?_⟩
        · exact fun h => absurd h (by decide)
        · exact fun _ htcp => absurd htcp hnotTcp
        · exact fun _ _ hsocket hdest => absurd ⟨hsocket, hdest⟩ hopen

theorem accounted_command_iff (hs : s.Steady) (c : Command) :
    s.Accounted c ↔ s.Meets c := by
  cases c with
  | openChannel c => exact openChannel_accounted_iff hs c
  | openBipConnectionDone success created =>
    exact openBipConnectionDone_accounted_iff hs success created
  | defaultDataCallActive created => exact defaultDataCallActive_accounted_iff hs created
  | closeChannel nDevId => exact iff_of_true (closeChannel_accounted hs nDevId) trivial
  | sendData immediate nDevId payload => exact sendData_accounted_iff hs immediate nDevId payload

/-! ## Histories -/

/-- The text is only ever extended by a payload's, or cleared. -/
theorem sendData_text {s : SendState} (hs : IsHexString s.strSendDataBuffer) {nMode : BYTE}
    (h : s.sendData ⟨nMode, hexText payload, nDevId⟩ = some o) :
    IsHexString o.state.strSendDataBuffer := by
  have happend := hs.append (IsHexString.of_hexText payload)
  have hnil : IsHexString [] := ⟨rfl, fun ch hch => absurd hch List.not_mem_nil⟩
  unfold SendState.sendData at h
  cases ht : s.transportType with
  | sockLocal =>
    simp only [ht] at h
    cases h
    exact hs
  | sockTcp =>
    simp only [ht] at h
    split_ifs at h with hmode
    · cases h
      exact happend
    · unfold SendState.sendOnTcp at h
      split_ifs at h
      · cases h
        exact hs
      · obtain ⟨buffer, -, h⟩ := Option.bind_eq_some_iff.mp h
        cases h
        exact happend
  | sockUdp =>
    simp only [ht] at h
    split_ifs at h with hmode
    · cases h
      exact happend
    · unfold SendState.sendOnUdp at h
      split_ifs at h
      · cases h
        exact hs
      · cases h
        exact hs
      · obtain ⟨buffer, -, h⟩ := Option.bind_eq_some_iff.mp h
        cases h
        exact hnil

theorem text_of_books {size : ℤ} (hs : IsHexString s.strSendDataBuffer)
    (hbooks : s'.books = (size, s.strSendDataBuffer, s.nAccumlatedSendDataLenInBuffer)) :
    IsHexString s'.strSendDataBuffer := by
  obtain ⟨-, hrest⟩ := Prod.mk.inj hbooks
  obtain ⟨htext, -⟩ := Prod.mk.inj hrest
  rw [htext]
  exact hs

theorem perform_text {r : Option SendDataResponse} (hs : IsHexString s.strSendDataBuffer)
    (h : s.perform c = some (s', r)) :
    IsHexString s'.strSendDataBuffer := by
  cases c with
  | openChannel c =>
    cases h
    obtain ⟨size, hbooks, -⟩ := s.openChannel_books c
    exact text_of_books hs hbooks
  | openBipConnectionDone success created =>
    cases h
    exact text_of_books hs (s.onOpenBipConnectionDone_books success created)
  | defaultDataCallActive created =>
    cases h
    exact text_of_books hs (s.onDefaultDataCallActive_books created)
  | closeChannel nDevId =>
    cases h
    obtain ⟨size, hbooks, -⟩ := s.closeChannel_books nDevId
    exact text_of_books hs hbooks
  | sendData immediate nDevId payload =>
    obtain ⟨⟨t, response⟩, hsend, h⟩ := Option.bind_eq_some_iff.mp h
    obtain ⟨o, ho, hsend⟩ := Option.bind_eq_some_iff.mp hsend
    cases hsend
    cases h
    exact sendData_text hs ho

/-- **A command that is accounted for leaves the module steady.** -/
theorem Accounted.steady (hs : s.Steady) (h : s.Accounted c) :
    (s.next c).Steady := by
  obtain ⟨s', response, hperform, hbalanced, -⟩ := h
  have hnext : s.next c = s' := by
    unfold next
    rw [hperform]
    rfl
  rw [hnext]
  exact ⟨hbalanced, perform_text hs.text hperform⟩

theorem steady_init : init.Steady where
  balanced := ⟨rfl, fun h => absurd h (by decide)⟩
  text := ⟨rfl, fun ch hch => absurd hch List.not_mem_nil⟩

/-- **The buffer is accounted for** throughout a history of commands. -/
def AccountedHistory (commands : List Command) : Prop :=
  Run.Throughout next Accounted init commands

/-- **Exactly when**: every command meets its condition, in the module that the commands before it
left. -/
theorem accountedHistory_iff (commands : List Command) :
    AccountedHistory commands ↔ Run.Throughout next Meets init commands :=
  Run.Throughout.iff_of_invariant (P := Steady) (fun _ _ hs h => h.steady hs)
    (fun _ c hs => accounted_command_iff hs c) steady_init

/-- **One byte over TCP stays in the text**: the count is zero, and the byte is held. -/
theorem not_accountedHistory_tcp :
    ¬ AccountedHistory
      [.defaultDataCallActive true,
        .openChannel ⟨some bearerDefault, some 1400, none, some .sockTcp, false, false, true⟩,
        .sendData true 0x21 [0x41]] := by
  rintro ⟨hactive, hopen, hsent, -⟩
  have hsteady := hopen.steady (hactive.steady steady_init)
  have hsend := (accounted_command_iff hsteady _).mp hsent
  have hnothing := (SendOk.tcp hsend rfl rfl rfl).1
  exact absurd hnothing (by decide)

end BipState

end ExynosVendor.Ril
