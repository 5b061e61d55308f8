import ExynosVendor.Ril.Util.BitwiseStream

/-!
# CDMA short messages

`CCdmaSmsMessage` of `fw/cdmasmsdata.cpp`, both ways.
`ConstructTransportLayerMsg` packs the framework's record into a
transport layer message on the stack; `ConstructRilCdmaSmsMsg` walks a
message parameter by parameter and fills a record. The two addresses are
bit streams, the rest are bytes.
-/

namespace ExynosVendor.Ril

def maxCdmaSmsMsgSize : ℕ := 348

/-- `RIL_CDMA_SMS_ADDRESS_MAX`. -/
def cdmaSmsAddressMax : ℕ := 36

/-- `RIL_CDMA_SMS_SUBADDRESS_MAX`. -/
def cdmaSmsSubaddressMax : ℕ := 36

/-- `RIL_CDMA_SMS_BEARER_DATA_MAX`. -/
def cdmaSmsBearerDataMax : ℕ := 255

/-- `RIL_CDMA_SMS_DigitMode`. -/
inductive DigitMode where
  | digitMode4Bit
  | digitMode8Bit
  deriving DecidableEq

/-- `RIL_CDMA_SMS_NumberMode`. -/
inductive NumberMode where
  | notDataNetwork
  | dataNetwork
  deriving DecidableEq

namespace DigitMode

/-- The enumerator's value. -/
def toByte : DigitMode → BYTE
  | digitMode4Bit => 0
  | digitMode8Bit => 1

/-- The cast from a bit. -/
def ofByte (b : BYTE) : DigitMode :=
  if b = 1 then digitMode8Bit else digitMode4Bit

/-- The bits a digit takes. -/
def digitBits : DigitMode → ℕ
  | digitMode4Bit => 4
  | digitMode8Bit => 8

end DigitMode

namespace NumberMode

/-- The enumerator's value. -/
def toByte : NumberMode → BYTE
  | notDataNetwork => 0
  | dataNetwork => 1

/-- The cast from a bit. -/
def ofByte (b : BYTE) : NumberMode :=
  if b = 1 then dataNetwork else notDataNetwork

end NumberMode

/-- `RIL_CDMA_SMS_Address`. The type and the plan are enumerators held by
their values. -/
structure CdmaSmsAddress where
  /-- `digit_mode`. -/
  digitMode : DigitMode
  /-- `number_mode`. -/
  numberMode : NumberMode
  /-- `number_type`. -/
  numberType : BYTE
  /-- `number_plan`. -/
  numberPlan : BYTE
  /-- `number_of_digits`. -/
  numberOfDigits : BYTE
  /-- `digits`. -/
  digits : List BYTE

/-- `RIL_CDMA_SMS_Subaddress`. -/
structure CdmaSmsSubaddress where
  /-- `subaddressType`. -/
  subaddressType : BYTE
  /-- `odd`. -/
  odd : BYTE
  /-- `number_of_digits`. -/
  numberOfDigits : BYTE
  /-- `digits`. -/
  digits : List BYTE

/-- `RIL_CDMA_SMS_Message`. -/
structure CdmaSmsMessage where
  /-- `uTeleserviceID`. -/
  uTeleserviceID : INT
  /-- `bIsServicePresent`. -/
  bIsServicePresent : Bool
  /-- `uServicecategory`. -/
  uServicecategory : INT
  /-- `sAddress`. -/
  sAddress : CdmaSmsAddress
  /-- `sSubAddress`. -/
  sSubAddress : CdmaSmsSubaddress
  /-- `uBearerDataLen`. -/
  uBearerDataLen : ℕ
  /-- `aBearerData`. -/
  aBearerData : List BYTE

/-! ## Construction of a transport layer message -/

namespace CdmaSmsAddress

/-- The fields that depend on the modes. -/
def constructModes (a : CdmaSmsAddress) (s : CBitwiseOutputStream) :
    Option CBitwiseOutputStream :=
  if a.digitMode = .digitMode8Bit then do
    let s ← s.write 3 a.numberType
    if a.numberMode = .notDataNetwork then s.write 4 a.numberPlan else some s
  else some s

/-- The bytes of the address parameter: the front of `address`, up to
`GetArrayIndex() + 1`. -/
def construct (a : CdmaSmsAddress) : Option (List BYTE) := do
  let s := CBitwiseOutputStream.ofBuf (List.replicate (cdmaSmsAddressMax + 3) 0)
  let digitLen := min a.numberOfDigits.toNat cdmaSmsAddressMax
  let s ← s.write 1 a.digitMode.toByte
  let s ← s.write 1 a.numberMode.toByte
  let s ← a.constructModes s
  let s ← s.write 8 (BitVec.ofNat 8 digitLen)
  let digits ← Block.load a.digits 0 digitLen
  let s ← s.writeDigits a.digitMode.digitBits digits
  Block.load s.pbBuf 0 (s.getArrayIndex + 1)

end CdmaSmsAddress

namespace CdmaSmsSubaddress

/-- `digitLen` of a subaddress. -/
def digitLen (a : CdmaSmsSubaddress) : ℕ :=
  min a.numberOfDigits.toNat cdmaSmsSubaddressMax

/-- The bytes of the subaddress parameter. -/
def construct (a : CdmaSmsSubaddress) : Option (List BYTE) := do
  let s := CBitwiseOutputStream.ofBuf (List.replicate (cdmaSmsSubaddressMax + 2) 0)
  let s ← s.write 3 a.subaddressType
  let s ← s.write 1 a.odd
  let s ← s.write 8 (BitVec.ofNat 8 a.digitLen)
  let digits ← Block.load a.digits 0 a.digitLen
  let s ← s.writeDigits 8 digits
  Block.load s.pbBuf 0 (s.getArrayIndex + 1)

end CdmaSmsSubaddress

/-- Bytes written to `msg` from `index` on. -/
def emitBytes (w : List BYTE × ℕ) (bytes : List BYTE) : Option (List BYTE × ℕ) := do
  let msg ← Block.store w.1 w.2 bytes
  some (msg, w.2 + bytes.length)

/-- A parameter: its identifier, its length, and its bytes. -/
def emitParameter (w : List BYTE × ℕ) (parameterId : BYTE) (bytes : List BYTE) :
    Option (List BYTE × ℕ) := do
  let w ← emitBytes w [parameterId, BitVec.ofNat 8 bytes.length]
  emitBytes w bytes

/-- The two bytes of `(UINT16) u`, high byte first. -/
def wordBytesOf (u : INT) : List BYTE :=
  let u16 : WORD := u.truncate 16
  [(u16 >>> 8 &&& 0x00FF).truncate 8, (u16 &&& 0x00FF).truncate 8]

/-- `GetSubparameterDataFromBearerData`, on the bearer data from the index
on: the length found, and the first byte it points at. -/
def getSubparameterData (subparam : BYTE) : List BYTE → Option (BYTE × BYTE)
  | subParameterId :: subParameterLen :: data :: rest =>
      if subParameterId = subparam then some (subParameterLen, data)
      else getSubparameterData subparam ((data :: rest).drop subParameterLen.toNat)
  | _ => none
  termination_by bearer => bearer.length
  decreasing_by
    simp only [List.length_drop, List.length_cons]
    omega

namespace CdmaSmsMessage

def bearerLen (m : CdmaSmsMessage) : ℕ :=
  min m.uBearerDataLen cdmaSmsBearerDataMax

def messageTypeDeliver : BYTE := 0x01

def messageTypeSubmit : BYTE := 0x02

/-- `messageType`, from the message identifier in the bearer data. -/
def messageType (m : CdmaSmsMessage) : BYTE :=
  match getSubparameterData 0x00 (m.aBearerData.take m.bearerLen) with
  | none => messageTypeSubmit
  | some (subParamLen, subParam) =>
      if subParamLen = 0 then messageTypeSubmit
      else
        let messageType := subParam >>> 4 &&& 0x0F
        if messageType ≠ messageTypeDeliver ∧ messageType ≠ messageTypeSubmit then
          messageTypeSubmit
        else messageType

/-- The parameter identifier, by the message's direction. -/
def direction (m : CdmaSmsMessage) (destination originating : BYTE) : BYTE :=
  if m.messageType = messageTypeSubmit then destination else originating

/-- The service category, unless it is zero. -/
def emitServiceCategory (m : CdmaSmsMessage) (w : List BYTE × ℕ) : Option (List BYTE × ℕ) :=
  if m.uServicecategory ≠ 0 then emitParameter w 0x01 (wordBytesOf m.uServicecategory)
  else some w

/-- The subaddress, unless it has no digits. -/
def emitSubAddress (m : CdmaSmsMessage) (w : List BYTE × ℕ) : Option (List BYTE × ℕ) :=
  if m.sSubAddress.digitLen ≠ 0 then do
    let subAddress ← m.sSubAddress.construct
    emitParameter w (m.direction 0x05 0x03) subAddress
  else some w

/-- The bearer reply option, unless the property suppresses it. -/
def emitBearerReplyOption (w : List BYTE × ℕ) (noBearerReplyOption : Bool) :
    Option (List BYTE × ℕ) :=
  if ! noBearerReplyOption then emitParameter w 0x06 [0x00] else some w

/-- `ConstructTransportLayerMsg`; `noBearerReplyOption` is the property
`persist.vendor.radio.cdma.no_brr_reply`. -/
def constructTransportLayerMsg (m : CdmaSmsMessage) (noBearerReplyOption : Bool) :
    Option (List BYTE) := do
  let w ← emitBytes (List.replicate maxCdmaSmsMsgSize 0, 0) [0x00]
  let w ← emitParameter w 0x00 (wordBytesOf m.uTeleserviceID)
  let w ← m.emitServiceCategory w
  let address ← m.sAddress.construct
  let w ← emitParameter w (m.direction 0x04 0x02) address
  let w ← m.emitSubAddress w
  let w ← emitBearerReplyOption w noBearerReplyOption
  let bearer ← Block.load m.aBearerData 0 m.bearerLen
  let w ← emitParameter w 0x08 bearer
  Block.load w.1 0 w.2

end CdmaSmsMessage

/-! ## Parsing a transport layer message -/

/-- The integer of two bytes, high byte first. -/
def intOfWordBytes (high low : BYTE) : INT :=
  (high.zeroExtend 32 <<< 8 &&& 0xFF00) ||| low.zeroExtend 32

namespace CdmaSmsAddress

/-- The fields that depend on the modes. -/
def parseModes (a : CdmaSmsAddress) (s : CBitwiseInputStream) :
    Option (CdmaSmsAddress × CBitwiseInputStream) :=
  if a.digitMode = .digitMode8Bit then do
    let (numberType, s) ← s.read 3
    let a := { a with numberType := numberType }
    if a.numberMode = .notDataNetwork then do
      let (numberPlan, s) ← s.read 4
      some ({ a with numberPlan := numberPlan }, s)
    else some (a, s)
  else some (a, s)

/-- The address branch of `ConstructRilCdmaSmsMsg`. -/
def parse (a : CdmaSmsAddress) (value : List BYTE) : Option CdmaSmsAddress := do
  let s := CBitwiseInputStream.ofBuf value
  let (digitMode, s) ← s.read 1
  let (numberMode, s) ← s.read 1
  let a := { a with digitMode := DigitMode.ofByte digitMode
                    numberMode := NumberMode.ofByte numberMode }
  let (a, s) ← a.parseModes s
  let (numberOfDigits, s) ← s.read 8
  let (digits, _) ← s.readDigits a.digitMode.digitBits numberOfDigits.toNat 0 a.digits
  some { a with numberOfDigits := numberOfDigits, digits := digits }

end CdmaSmsAddress

namespace CdmaSmsSubaddress

/-- The subaddress branch of `ConstructRilCdmaSmsMsg`. -/
def parse (a : CdmaSmsSubaddress) (value : List BYTE) : Option CdmaSmsSubaddress := do
  let s := CBitwiseInputStream.ofBuf value
  let (subaddressType, s) ← s.read 3
  let (odd, s) ← s.read 1
  let (numberOfDigits, s) ← s.read 8
  let (digits, _) ← s.readDigits 8 numberOfDigits.toNat 0 a.digits
  some ⟨subaddressType, odd, numberOfDigits, digits⟩

end CdmaSmsSubaddress

namespace CdmaSmsMessage

/-- The switch of `ConstructRilCdmaSmsMsg`, on the message from the value
on. -/
def parseParameter (m : CdmaSmsMessage) (parameterId : BYTE) (rest : List BYTE)
    (parameterLen : ℕ) : Option CdmaSmsMessage :=
  match parameterId with
  | 0x00#8 => do
      let high ← rest[0]?
      let low ← rest[1]?
      some { m with uTeleserviceID := intOfWordBytes high low }
  | 0x01#8 => do
      let high ← rest[0]?
      let low ← rest[1]?
      some { m with bIsServicePresent := true, uServicecategory := intOfWordBytes high low }
  | 0x04#8 | 0x02#8 => do
      let sAddress ← m.sAddress.parse (rest.take parameterLen)
      some { m with sAddress := sAddress }
  | 0x05#8 | 0x03#8 => do
      let sSubAddress ← m.sSubAddress.parse (rest.take parameterLen)
      some { m with sSubAddress := sSubAddress }
  | 0x08#8 => do
      let aBearerData ← Block.store m.aBearerData 0 (rest.take parameterLen)
      some { m with uBearerDataLen := parameterLen, aBearerData := aBearerData }
  | _ => some m

/-- The loop of `ConstructRilCdmaSmsMsg`. -/
def parseLoop (m : CdmaSmsMessage) : List BYTE → Option CdmaSmsMessage
  | parameterId :: parameterLen :: rest =>
      if parameterLen = 0 then parseLoop m rest
      else if rest.length < parameterLen.toNat then some m
      else do
        let m ← m.parseParameter parameterId rest parameterLen.toNat
        parseLoop m (rest.drop parameterLen.toNat)
  | _ => some m
  termination_by msg => msg.length
  decreasing_by
    · simp only [List.length_cons]
      omega
    · simp only [List.length_cons, List.length_drop]
      omega

/-- The record `memset` to zero. -/
def zero : CdmaSmsMessage where
  uTeleserviceID := 0
  bIsServicePresent := false
  uServicecategory := 0
  sAddress := ⟨.digitMode4Bit, .notDataNetwork, 0, 0, 0, List.replicate cdmaSmsAddressMax 0⟩
  sSubAddress := ⟨0, 0, 0, List.replicate cdmaSmsSubaddressMax 0⟩
  uBearerDataLen := 0
  aBearerData := List.replicate cdmaSmsBearerDataMax 0

/-- `ConstructRilCdmaSmsMsg`, on the zeroed record. -/
def constructRilCdmaSmsMsg : List BYTE → Option CdmaSmsMessage
  | [] => none
  | transportType :: rest =>
      if transportType ≠ 0x00 ∧ transportType ≠ 0x01 then some zero else parseLoop zero rest

/-- The constructor from a transport layer message: no record for an empty
one, and no more of a long one than fits. -/
def ofTransportLayerMsg (msg : List BYTE) : Option (Option CdmaSmsMessage) :=
  if msg.length = 0 then some none
  else do
    let m ← constructRilCdmaSmsMsg (msg.take maxCdmaSmsMsgSize)
    some (some m)

end CdmaSmsMessage

end ExynosVendor.Ril
