import Mathlib.Data.BitVec

/-!
# The messages of the HAL

`hal_msg.h`: the packets of the controller and of its bootloader, and the
messages of the HAL task. A message is an event and a union; a bootloader
packet has a length of two bytes in it, so that the union starts at the second
byte of the buffer and ends behind it.
-/

namespace ExynosVendor.Nfc

def nciHdrSize : ℕ := 3

/-- `tNFC_NCI_PKT`. -/
structure NciPkt where
  oct0 : BitVec 8
  oid : BitVec 8
  len : BitVec 8
  payload : List (BitVec 8)
  deriving DecidableEq

def nciMtCmd : BitVec 8 := 0x20

def nciMtRsp : BitVec 8 := 0x40

def nciMtNtf : BitVec 8 := 0x60

def nciGidCore : BitVec 8 := 0x00

def nciGidRfManage : BitVec 8 := 0x01

def nciGidProp : BitVec 8 := 0x0F

def nciCoreReset : BitVec 8 := 0x00

def nciCoreInit : BitVec 8 := 0x01

def nciPropAgain : BitVec 8 := 0x01

def nciPropSetSleepTime : BitVec 8 := 0x1A

def nciPropSetRfreg : BitVec 8 := 0x22

def nciPropGetRfregVer : BitVec 8 := 0x24

def nciPropSetRfregVer : BitVec 8 := 0x25

def nciPropStartRfreg : BitVec 8 := 0x26

def nciPropStopRfreg : BitVec 8 := 0x27

def nciPropFwCfg : BitVec 8 := 0x28

def nciPropGetOptionMetaOid : BitVec 8 := 0x29

def nciPropWrReset : BitVec 8 := 0x2F

def nciStatusOk : BitVec 8 := 0x00

def nciStatusESyntax : BitVec 8 := 0x05

def nciClockStatusSyntaxError : BitVec 8 := 0x01

def nciClockStatusMismatched : BitVec 8 := 0x02

def nciClockStatusFull : BitVec 8 := 0x03

namespace NciPkt

/-- `NCI_MT`. -/
def mt (p : NciPkt) : BitVec 8 := p.oct0 &&& 0xE0

/-- `NCI_GID`. -/
def gid (p : NciPkt) : BitVec 8 := p.oct0 &&& 0x0F

def nciOid (p : NciPkt) : BitVec 8 := p.oid &&& 0x3F

/-- `NCI_STATUS`. -/
def status (p : NciPkt) : BitVec 8 := p.payload.getD 0 0

/-- The packet as it is sent, `NCI_PKT_LEN` bytes. -/
def bytes (p : NciPkt) : List (BitVec 8) :=
  p.oct0 :: p.oid :: p.len :: (List.range p.len.toNat).map (p.payload.getD · 0)

/-- A response to a command with these identifiers. -/
def answers (p : NciPkt) (gid oid : BitVec 8) : Prop :=
  p.mt = nciMtRsp ∧ p.gid = gid ∧ p.nciOid = oid

instance (p : NciPkt) (gid oid : BitVec 8) : Decidable (p.answers gid oid) :=
  inferInstanceAs (Decidable (_ ∧ _ ∧ _))

end NciPkt

/-- `HAL_EVT_…`. -/
inductive HalEvent where
  | open
  | coreInit
  | write
  | read
  | controlGranted
  | terminate
  | powerCycle
  | complete
  | completeFailed
  deriving DecidableEq

/-- `tNFC_HAL_MSG`. -/
structure HalMsg where
  event : HalEvent
  /-- The union, and zeros behind it. -/
  param : List (BitVec 8)
  deriving DecidableEq

/-- So much of the union is inside the buffer. Its next byte is the state of
the buffer. -/
def halMsgRoom : ℕ := 257

namespace HalMsg

/-- A byte of the union. -/
def byte (m : HalMsg) (i : ℕ) : BitVec 8 := m.param.getD i 0

def nciPacket (m : HalMsg) : NciPkt := ⟨m.byte 0, m.byte 1, m.byte 2, m.param.drop 3⟩

/-- `fw_packet.code`. -/
def fwCode (m : HalMsg) : BitVec 8 := m.byte 1

/-- `fw_packet.len`. -/
def fwLen (m : HalMsg) : ℕ := (m.byte 2).toNat + 256 * (m.byte 3).toNat

/-- A byte of `fw_packet.payload`. -/
def fwByte (m : HalMsg) (i : ℕ) : BitVec 8 := m.byte (4 + i)

/-- Two bytes of it, as `FROM_LITTLE_ARRY` reads them. -/
def fwHalf (m : HalMsg) (i : ℕ) : BitVec 16 := m.fwByte (i + 1) ++ m.fwByte i

/-- `memcpy(new_msg, msg, sizeof(HAL_EVT_SIZE))`: four bytes, of which the
second is in front of the union. -/
def copied (m : HalMsg) : HalMsg := ⟨m.event, [m.byte 0, m.byte 1]⟩

end HalMsg

end ExynosVendor.Nfc
