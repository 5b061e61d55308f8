import ExynosVendor.Ril.Stk.Tlv
import ExynosVendor.Ril.Util.Hex

/-!
# The TLV classes, and how each reads its value

The subclasses of `CTLV` in `stk/tlvparser.cpp`. Each overrides
`Set(const BYTE *, int)` the same way: `CTLV::Set` first, then its own
fields from the value just stored. The first half is `TlvClass.set`; the
second is one reader a class, from the object's length and value to
`TlvFields`.

A reader works on the value's own block, so an access past the block is
a fault, and so is a use of bytes behind the value that nobody wrote.
`read_isSome_iff` says which values a class reads inside the bounds.
-/

namespace ExynosVendor.Ril

open Option

/-- `COMMAND_DETAIL`. -/
structure CommandDetailData where
  /-- The command's number. -/
  cNumber : BYTE
  /-- Its type. -/
  cType : BYTE
  /-- Its qualifier. -/
  cQulaifier : BYTE
  deriving DecidableEq

/-- The two-byte records `DEVICE_ID`, `DURATION` and `ICON_IDENTIFIER`. -/
structure BytePair where
  /-- `cSource`, `cTimeUnit`, `cIconQualifier`. -/
  first : BYTE
  /-- `cDestination`, `cTimeInterval`, `cIconIdentifier`. -/
  second : BYTE
  deriving DecidableEq

structure TransportLevel where
  /-- The protocol. -/
  cTransportType : BYTE
  /-- The port, in host order. -/
  wPort : WORD
  deriving DecidableEq

/-- The fields a class keeps besides the object's own. A pointer into the
value is what it points at, or `none` for `NULL`. -/
inductive TlvFields where
  /-- A plain `CTLV` has none. -/
  | plain
  /-- `m_tCmdDetail`. -/
  | commandDetail (tCmdDetail : CommandDetailData)
  /-- `m_tDeviceId`. -/
  | deviceIdentity (tDeviceId : BytePair)
  /-- `m_tDuration`. -/
  | duration (tDuration : BytePair)
  /-- `m_ptResult` and `m_strAddtionalInfo`. -/
  | result (ptResult : Option (List BYTE)) (strAddtionalInfo : List Char)
  /-- `m_strAlphaIdentifier`. -/
  | alphaIdentifier (strAlphaIdentifier : List BYTE)
  /-- `m_tIconIdentifier`. -/
  | iconIdentifier (tIconIdentifier : BytePair)
  /-- `m_CodingScheme`, `m_nTextStringLength` and `m_pTextString`. -/
  | textString (codingScheme : BYTE) (nTextStringLength : ℕ) (pTextString : Option (List BYTE))
  /-- `m_ptAddress`. -/
  | address (ptAddress : Option (List BYTE))
  /-- `m_ptSubaddress`. -/
  | subaddress (ptSubaddress : Option (List BYTE))
  /-- `m_ptDescription` and `m_strParameter`. -/
  | bearerDescription (ptDescription : Option (List BYTE)) (strParameter : List Char)
  /-- `m_strChannelData`. -/
  | channelData (strChannelData : List Char)
  /-- `m_nChannelDataLength`. -/
  | channelDataLength (nChannelDataLength : BYTE)
  /-- `m_szChannelStatus`. -/
  | channelStatus (szChannelStatus : BytePair)
  /-- `m_nBufferSize`. -/
  | bufferSize (nBufferSize : INT)
  /-- `m_tTransportLevel`. -/
  | transportLevel (tTransportLevel : TransportLevel)
  /-- `m_tOtherAddress`, seventeen bytes. -/
  | otherAddress (tOtherAddress : List BYTE)
  /-- `m_strNetworkAccessName`. -/
  | networkAccessName (strNetworkAccessName : List BYTE)
  /-- `m_nQualifier`. -/
  | measurementQualifier (nQualifier : BYTE)
  /-- `m_strTextFormatting`. -/
  | textAttribute (strTextFormatting : List BYTE)
  /-- `m_nIdentifierOfFrame`. -/
  | frameIdentifier (nIdentifierOfFrame : BYTE)
  /-- `m_ptRemoteEntityAddress`. -/
  | remoteEntityAddress (ptRemoteEntityAddress : Option (List BYTE))
  /-- `m_pEventList`. -/
  | eventList (pEventList : Option (List BYTE))
  deriving DecidableEq

/-- The classes of the factory. -/
inductive TlvClass where
  | ctlv | commandDetail | deviceIdentity | duration | result | alphaIdentifier | iconIdentifier
  | textString | address | subaddress | bearerDescription | channelData | channelDataLength
  | channelStatus | bufferSize | terminalInterfaceTransportLevel | otherAddress
  | networkAccessName | measurementQualifier | textAttribute | frameIdentifier
  | remoteEntityAddress | eventList
  deriving DecidableEq

/-! ### The tags of `COMPREHENSION_TLV_TAG` -/

def tagCommandDetail : BYTE := 0x01
def tagDeviceIdentity : BYTE := 0x02
def tagResult : BYTE := 0x03
def tagDuration : BYTE := 0x04
def tagAlphaIdentifier : BYTE := 0x05
def tagAddress : BYTE := 0x06
def tagSubAddress : BYTE := 0x08
def tagTextString : BYTE := 0x0D
def tagEventList : BYTE := 0x19
def tagIconIdentifier : BYTE := 0x1E
def tagBearerDescription : BYTE := 0x35
def tagChannelData : BYTE := 0x36
def tagChannelDataLength : BYTE := 0x37
def tagChannelStatus : BYTE := 0x38
def tagBufferSize : BYTE := 0x39
def tagUiccTerminalInterfaceTransportLevel : BYTE := 0x3C
def tagOtherAddress : BYTE := 0x3E
def tagNetworkAccessName : BYTE := 0x47
def tagRemoteEntityAddress : BYTE := 0x49
def tagTextAttribute : BYTE := 0x4A
def tagFrameIdentifier : BYTE := 0x68
def tagUtranEutranMeasurementQualifier : BYTE := 0x69
def tagCsgIdList : BYTE := 0x7E

/-- `SWAP16`, on the `int` its argument is promoted to. -/
def swap16 (val : INT) : INT :=
  (val <<< 8 &&& 0xFF00) ||| (val.sshiftRight 8 &&& 0x00FF)

/-- The block a value was copied to, with what lies behind the value. -/
def Platform.valueBlock (P : Platform) (value : List BYTE) : List BYTE :=
  value ++ (P.newBytes value.length).drop value.length

/-! ## The readers -/

/-- The value, under the guard every reader starts with: at least `n`
bytes, and not `NULL`. -/
def CTLV.atLeast (t : CTLV) (n : ℕ) : Option (List BYTE) :=
  t.pValue.filter fun _ => decide (n ≤ t.nLength)

/-- The readers that copy two bytes into a record. -/
def readPair (t : CTLV) : BytePair :=
  match t.atLeast 2 with
  | some (a :: b :: _) => ⟨a, b⟩
  | _ => ⟨0, 0⟩

/-- The readers that keep the first byte. -/
def readByte (t : CTLV) : BYTE :=
  match t.atLeast 1 with
  | some (a :: _) => a
  | _ => 0

/-- The hex text of the bytes, through a dump block of the given size. -/
def dumpHex (P : Platform) (nDump : ℕ) (bytes : List BYTE) : Option (List Char) := do
  let (szDump, nResult) ← value2HexString (P.newChars nDump) bytes
  some (if 0 < nResult then cString szDump else [])

/-- `CommandDetail::Set`. -/
def CommandDetail.read (t : CTLV) : CommandDetailData :=
  match t.atLeast 3 with
  | some (a :: b :: c :: _) => ⟨a, b, c⟩
  | _ => ⟨0, 0, 0⟩

/-- `Result::Set`: the dump block has one character for each byte dumped. -/
def Result.read (P : Platform) (t : CTLV) : Option TlvFields :=
  match t.atLeast 1 with
  | some value =>
      if 1 < t.nLength then do
        let strAddtionalInfo ← dumpHex P (t.nLength - 1) (value.drop 1)
        some (.result (some value) strAddtionalInfo)
      else some (.result (some value) [])
  | none => some (.result none [])

/-- `AlphaIdentifier::Set`: the value up to a terminator. -/
def AlphaIdentifier.read (t : CTLV) : TlvFields :=
  match t.atLeast 1 with
  | some value => .alphaIdentifier (value.takeWhile (fun b => b != 0))
  | none => .alphaIdentifier []

def gsm8Bits : BYTE := 0x04

/-- `TextString::Set`: a copy, terminated when the text is 8-bit. -/
def TextString.read (P : Platform) (t : CTLV) : TlvFields :=
  match t.atLeast 2 with
  | some (cCodingScheme :: acTextString) =>
      let last := if cCodingScheme = gsm8Bits then 0 else P.heapByte acTextString.length
      .textString cCodingScheme (t.nLength - 1) (some (acTextString ++ [last]))
  | _ => .textString gsm8Bits 0 none

/-- `BearerDescription::Set`. -/
def BearerDescription.read (P : Platform) (t : CTLV) : Option TlvFields :=
  match t.atLeast 1 with
  | some value => do
      let strParameter ← dumpHex P ((t.nLength - 1) * 2 + 1) (value.drop 1)
      some (.bearerDescription (some value) strParameter)
  | none => some (.bearerDescription none [])

/-- `ChannelData::Set`. -/
def ChannelData.read (P : Platform) (t : CTLV) : Option TlvFields :=
  match t.atLeast 1 with
  | some value => do
      let strChannelData ← dumpHex P (t.nLength * 2 + 1) value
      some (.channelData strChannelData)
  | none => some (.channelData [])

/-- `ChannelStatus::Set`: the whole value into an array of two. -/
def ChannelStatus.read (t : CTLV) : Option TlvFields :=
  match t.atLeast 2 with
  | some value => do
      let szChannelStatus ← Block.store [0, 0] 0 value
      match szChannelStatus with
      | [a, b] => some (.channelStatus ⟨a, b⟩)
      | _ => none
  | none => some (.channelStatus ⟨0, 0⟩)

/-- `BufferSize::Set`: an `int` read from the value's address. -/
def BufferSize.read (P : Platform) (t : CTLV) : Option TlvFields :=
  match t.atLeast 2 with
  | some value => do
      match ← Block.load (P.valueBlock value) 0 4 with
      | [b0, b1, b2, b3] => some (.bufferSize (swap16 (b3 ++ b2 ++ b1 ++ b0 : INT)))
      | _ => none
  | none => some (.bufferSize 0)

/-- `TerminalInterfaceTransportLevel::Set`. -/
def TerminalInterfaceTransportLevel.read (t : CTLV) : TlvFields :=
  match t.atLeast 3 with
  | some (a :: b :: c :: _) =>
      .transportLevel ⟨a, (swap16 ((c ++ b : WORD).zeroExtend 32)).truncate 16⟩
  | _ => .transportLevel ⟨0, 0⟩

/-- `OtherAddress::Set`: the whole value into the seventeen-byte record. -/
def OtherAddress.read (t : CTLV) : Option TlvFields :=
  match t.atLeast 5 with
  | some value => do
      let tOtherAddress ← Block.store (List.replicate 17 0) 0 value
      some (.otherAddress tOtherAddress)
  | none => some (.otherAddress (List.replicate 17 0))

/-- The label loop of `NetworkAccessNameParser`: the result block and the
index its terminator goes to. -/
def networkAccessNameLoop (value : List BYTE) (len : ℤ) (index strIndex : ℕ)
    (strResult : List BYTE) : Option (List BYTE × ℕ) :=
  if 1 < len then
    match h : value[index]? with
    | none => none
    | some strLen =>
        if (strLen.toNat : ℤ) < len then do
          let label ← strncpy strLen.toNat (value.drop (index + 1))
          let strResult ← Block.store strResult strIndex label
          let strIndex := strIndex + strLen.toNat
          let len := len - (strLen.toNat + 1)
          if 1 < len then do
            let strResult ← Block.put strResult strIndex 0x2E
            networkAccessNameLoop value len (index + 1 + strLen.toNat) (strIndex + 1) strResult
          else some (strResult, strIndex)
        else networkAccessNameLoop value len (index + 1) strIndex strResult
  else some (strResult, strIndex)
termination_by value.length - index
decreasing_by
  all_goals
    obtain ⟨hlt, -⟩ := List.getElem?_eq_some_iff.mp h
    omega

def networkAccessNameParser (P : Platform) (value : List BYTE) : Option (List BYTE) := do
  let (strResult, strIndex) ←
    networkAccessNameLoop value value.length 0 0 (P.newBytes (value.length * 2))
  Block.put strResult strIndex 0

/-- `NetworkAccessName::Set`. -/
def NetworkAccessName.read (P : Platform) (t : CTLV) : Option TlvFields :=
  match t.atLeast 1 with
  | some value => do
      let pszNetAccessName ← networkAccessNameParser P value
      some (.networkAccessName (pszNetAccessName.takeWhile (fun b => b != 0)))
  | none => some (.networkAccessName [])

/-- `TextAttribute::Set`: the value taken for a C string. -/
def TextAttribute.read (t : CTLV) : Option TlvFields :=
  match t.atLeast 1 with
  | some value =>
      if 0 ∈ value then some (.textAttribute (value.takeWhile (fun b => b != 0))) else none
  | none => some (.textAttribute [])

/-- The fields a class reads from an object. -/
def TlvClass.read (P : Platform) (t : CTLV) : TlvClass → Option TlvFields
  | .ctlv => some .plain
  | .commandDetail => some (.commandDetail (CommandDetail.read t))
  | .deviceIdentity => some (.deviceIdentity (readPair t))
  | .duration => some (.duration (readPair t))
  | .result => Result.read P t
  | .alphaIdentifier => some (AlphaIdentifier.read t)
  | .iconIdentifier => some (.iconIdentifier (readPair t))
  | .textString => some (TextString.read P t)
  | .address => some (.address (t.atLeast 3))
  | .subaddress => some (.subaddress (t.atLeast 2))
  | .bearerDescription => BearerDescription.read P t
  | .channelData => ChannelData.read P t
  | .channelDataLength => some (.channelDataLength (readByte t))
  | .channelStatus => ChannelStatus.read t
  | .bufferSize => BufferSize.read P t
  | .terminalInterfaceTransportLevel => some (TerminalInterfaceTransportLevel.read t)
  | .otherAddress => OtherAddress.read t
  | .networkAccessName => NetworkAccessName.read P t
  | .measurementQualifier => some (.measurementQualifier (readByte t))
  | .textAttribute => TextAttribute.read t
  | .frameIdentifier => some (.frameIdentifier (readByte t))
  | .remoteEntityAddress => some (.remoteEntityAddress (t.atLeast 10))
  | .eventList => some (.eventList (t.atLeast 1))

/-- An object of some class, as the program sees it. -/
structure TlvObject where
  /-- The `CTLV` part. -/
  tlv : CTLV
  /-- The class's own fields. -/
  fields : TlvFields
  deriving DecidableEq

/-- **`Set(const BYTE *, int)` of a class**, on a new object. -/
def TlvClass.set (P : Platform) (cls : TlvClass) (pData : List BYTE) :
    Option (TlvObject × Option (List BYTE)) := do
  let (tlv, pRet) ← CTLV.initialized.set P pData
  let fields ← cls.read P tlv
  some (⟨tlv, fields⟩, pRet)

/-! ## Which values a class reads inside the bounds -/

/-- The room a class's reader needs for a value. -/
def TlvClass.InBounds (P : Platform) (value : List BYTE) : TlvClass → Prop
  | .result => 1 < value.length → 2 * (value.length - 1) + 1 ≤ P.heap.usable (value.length - 1)
  | .channelStatus => value.length ≤ 2
  | .bufferSize => 2 ≤ value.length → 4 ≤ P.heap.usable value.length
  | .otherAddress => value.length ≤ 17
  | .networkAccessName => value ≠ [] → (networkAccessNameParser P value).isSome
  | .textAttribute => value ≠ [] → 0 ∈ value
  | _ => True

theorem atLeast_ofValue (cTag : BYTE) (value : List BYTE) (n : ℕ) :
    (CTLV.ofValue cTag value).atLeast n = if n ≤ value.length then some value else none := by
  by_cases h : n ≤ value.length
  · simp [CTLV.atLeast, Option.filter, h]
  · simp [CTLV.atLeast, Option.filter, h]

/-- A hex dump stays inside its block exactly when the block has room for
two digits a byte and a terminator. -/
theorem dumpHex_isSome_iff (P : Platform) (n : ℕ) (bytes : List BYTE) :
    (dumpHex P n bytes).isSome ↔ (bytes ≠ [] → 2 * bytes.length + 1 ≤ P.heap.usable n) := by
  by_cases hnil : bytes = []
  · subst hnil
    simp [dumpHex, value2HexString]
  · by_cases hfit : 2 * bytes.length + 1 ≤ P.heap.usable n
    · have hlen : 2 * bytes.length + 1 ≤ (P.newChars n).length := by simpa using hfit
      simp [dumpHex, value2HexString_eq hnil hlen, hfit]
    · have hlen : (P.newChars n).length < 2 * bytes.length + 1 := by simpa using hfit
      simp [dumpHex, value2HexString_eq_none hnil hlen, hnil, hfit]

/-- What a dump in bounds yields. -/
theorem dumpHex_eq {P : Platform} {n : ℕ} {bytes : List BYTE}
    (h : 2 * bytes.length + 1 ≤ P.heap.usable n) : dumpHex P n bytes = some (hexText bytes) := by
  by_cases hnil : bytes = []
  · subst hnil
    simp [dumpHex, value2HexString]
  · have hlen : 2 * bytes.length + 1 ≤ (P.newChars n).length := by simpa using h
    have hpos : (0 : ℤ) < ((2 * bytes.length : ℕ) : ℤ) := by
      have hne : 0 < bytes.length := List.length_pos_iff.mpr hnil
      omega
    simp only [dumpHex, value2HexString_eq hnil hlen, bind_eq_bind, bind_some,
      if_pos hpos, cString_hexText]

/-- An object that holds no value is read inside the bounds by every
class. -/
theorem read_ofTag (P : Platform) (cls : TlvClass) (cTag : BYTE) :
    (cls.read P (CTLV.ofTag cTag)).isSome := by
  cases cls <;> rfl

theorem isSome_bind_some {α β : Type} (o : Option α) (f : α → β) :
    (o.bind fun x => some (f x)).isSome = o.isSome := by
  cases o <;> rfl

theorem ne_nil_of_one_le {value : List BYTE} (h : 1 ≤ value.length) : value ≠ [] :=
  List.length_pos_iff.mp h

theorem eq_nil_of_not_one_le {value : List BYTE} (h : ¬ 1 ≤ value.length) : value = [] :=
  List.length_eq_zero_iff.mp (by omega)

section Readers

variable (P : Platform) (cTag : BYTE) {value : List BYTE}

/-- `Result` dumps all but the first byte. -/
theorem result_isSome_iff : (Result.read P (CTLV.ofValue cTag value)).isSome ↔
    (1 < value.length → 2 * (value.length - 1) + 1 ≤ P.heap.usable (value.length - 1)) := by
  rw [Result.read, atLeast_ofValue, CTLV.ofValue_nLength]
  by_cases h1 : 1 < value.length
  · have hdrop : value.drop 1 ≠ [] := by
      rw [Ne, List.drop_eq_nil_iff]
      omega
    have hdump := dumpHex_isSome_iff P (value.length - 1) (value.drop 1)
    rw [List.length_drop] at hdump
    rw [if_pos (Nat.le_of_lt h1)]
    simp only [if_pos h1, bind_eq_bind, isSome_bind_some, hdump]
    exact ⟨fun h _ => h hdrop, fun h _ => h h1⟩
  · by_cases h0 : 1 ≤ value.length
    · simp [if_pos h0, h1]
    · simp [if_neg h0, h1]

/-- The dump block of a bearer description fits its parameter. -/
theorem bearerDescription_isSome :
    (BearerDescription.read P (CTLV.ofValue cTag value)).isSome := by
  rw [BearerDescription.read, atLeast_ofValue, CTLV.ofValue_nLength]
  by_cases h0 : 1 ≤ value.length
  · have hle := P.heap.le_usable ((value.length - 1) * 2 + 1)
    have hroom : 2 * (value.drop 1).length + 1 ≤
        P.heap.usable ((value.length - 1) * 2 + 1) := by
      rw [List.length_drop]
      omega
    rw [if_pos h0]
    simp only [dumpHex_eq hroom, bind_eq_bind, bind_some, isSome_some]
  · rw [if_neg h0]
    rfl

theorem channelData_read (h0 : 1 ≤ value.length) :
    ChannelData.read P (CTLV.ofValue cTag value) = some (.channelData (hexText value)) := by
  have hle := P.heap.le_usable (value.length * 2 + 1)
  have hroom : 2 * value.length + 1 ≤ P.heap.usable (value.length * 2 + 1) := by omega
  rw [ChannelData.read, atLeast_ofValue, CTLV.ofValue_nLength, if_pos h0]
  simp only [dumpHex_eq hroom, bind_eq_bind, bind_some]

/-- A channel status of more than two bytes overflows its array. -/
theorem channelStatus_isSome_iff :
    (ChannelStatus.read (CTLV.ofValue cTag value)).isSome ↔ value.length ≤ 2 := by
  rw [ChannelStatus.read, atLeast_ofValue]
  by_cases h2 : 2 ≤ value.length
  · rw [if_pos h2]
    by_cases hfit : value.length ≤ 2
    · obtain ⟨a, b, rfl⟩ : ∃ a b, value = [a, b] := List.length_eq_two.mp (by omega)
      simp [Block.store]
    · have hstore : Block.store [0, 0] 0 value = none :=
        Block.store_eq_none (by simpa using Nat.lt_of_not_le hfit)
      simp only [hstore, bind_eq_bind, bind_none, isSome_none, Bool.false_eq_true, hfit]
  · rw [if_neg h2]
    simp only [isSome_some, true_iff]
    omega

/-- A buffer size is read as four bytes whatever the value's length. -/
theorem bufferSize_isSome_iff : (BufferSize.read P (CTLV.ofValue cTag value)).isSome ↔
    (2 ≤ value.length → 4 ≤ P.heap.usable value.length) := by
  have hle := P.heap.le_usable value.length
  have hlen : (P.valueBlock value).length = P.heap.usable value.length := by
    simp only [Platform.valueBlock, List.length_append, List.length_drop, Platform.newBytes_length]
    omega
  rw [BufferSize.read, atLeast_ofValue]
  by_cases h2 : 2 ≤ value.length
  · rw [if_pos h2]
    by_cases hfit : 4 ≤ P.heap.usable value.length
    · obtain ⟨b0, b1, b2, b3, hb⟩ :
          ∃ b0 b1 b2 b3, ((P.valueBlock value).drop 0).take 4 = [b0, b1, b2, b3] := by
        have h4 : (((P.valueBlock value).drop 0).take 4).length = 4 := by
          rw [List.length_take, List.length_drop, hlen]
          omega
        match h : ((P.valueBlock value).drop 0).take 4, h4 with
        | [b0, b1, b2, b3], _ => exact ⟨b0, b1, b2, b3, rfl⟩
      have hload : Block.load (P.valueBlock value) 0 4 = some [b0, b1, b2, b3] := by
        rw [Block.load_of_le (by rw [hlen]; omega), hb]
      simp only [hload, bind_eq_bind, bind_some, isSome_some, hfit, implies_true]
    · have hload : Block.load (P.valueBlock value) 0 4 = none :=
        Block.load_eq_none (by rw [hlen]; omega)
      simp only [hload, bind_eq_bind, bind_none, isSome_none, Bool.false_eq_true, false_iff]
      exact fun h => hfit (h h2)
  · rw [if_neg h2]
    simp only [isSome_some, true_iff]
    exact fun h => absurd h h2

/-- An address of more than seventeen bytes overflows its record. -/
theorem otherAddress_isSome_iff :
    (OtherAddress.read (CTLV.ofValue cTag value)).isSome ↔ value.length ≤ 17 := by
  rw [OtherAddress.read, atLeast_ofValue]
  by_cases h5 : 5 ≤ value.length
  · have hstore : (Block.store (List.replicate 17 (0 : BYTE)) 0 value).isSome ↔
        0 + value.length ≤ (List.replicate 17 (0 : BYTE)).length := Block.store_isSome_iff
    rw [if_pos h5]
    simp only [bind_eq_bind, isSome_bind_some, hstore, List.length_replicate, Nat.zero_add]
  · rw [if_neg h5]
    simp only [isSome_some, true_iff]
    omega

/-- A network access name is read when its labels end inside the value. -/
theorem networkAccessName_isSome_iff :
    (NetworkAccessName.read P (CTLV.ofValue cTag value)).isSome ↔
      (value ≠ [] → (networkAccessNameParser P value).isSome) := by
  rw [NetworkAccessName.read, atLeast_ofValue]
  by_cases h0 : 1 ≤ value.length
  · rw [if_pos h0]
    simp only [bind_eq_bind, isSome_bind_some]
    exact ⟨fun h _ => h, fun h => h (ne_nil_of_one_le h0)⟩
  · rw [if_neg h0]
    simp only [isSome_some, true_iff]
    exact fun h => absurd (eq_nil_of_not_one_le h0) h

/-- A text attribute is a C string only when it holds a terminator. -/
theorem textAttribute_isSome_iff :
    (TextAttribute.read (CTLV.ofValue cTag value)).isSome ↔ (value ≠ [] → 0 ∈ value) := by
  rw [TextAttribute.read, atLeast_ofValue]
  by_cases h0 : 1 ≤ value.length
  · rw [if_pos h0]
    by_cases hz : (0 : BYTE) ∈ value
    · simp only [if_pos hz, isSome_some, true_iff]
      exact fun _ => hz
    · simp only [if_neg hz, isSome_none, Bool.false_eq_true, false_iff]
      exact fun h => hz (h (ne_nil_of_one_le h0))
  · rw [if_neg h0]
    simp only [isSome_some, true_iff]
    exact fun h => absurd (eq_nil_of_not_one_le h0) h

end Readers

/-- **Which values a class reads inside the bounds.** -/
theorem read_isSome_iff (P : Platform) (cls : TlvClass) (cTag : BYTE) (value : List BYTE) :
    (cls.read P (CTLV.ofValue cTag value)).isSome ↔ cls.InBounds P value := by
  cases cls with
  | result => exact result_isSome_iff P cTag
  | bearerDescription => exact iff_of_true (bearerDescription_isSome P cTag) trivial
  | channelData =>
      refine iff_of_true ?_ trivial
      by_cases h0 : 1 ≤ value.length
      · rw [TlvClass.read, channelData_read P cTag h0]
        rfl
      · rw [TlvClass.read, ChannelData.read, atLeast_ofValue, if_neg h0]
        rfl
  | channelStatus => exact channelStatus_isSome_iff cTag
  | bufferSize => exact bufferSize_isSome_iff P cTag
  | otherAddress => exact otherAddress_isSome_iff cTag
  | networkAccessName => exact networkAccessName_isSome_iff P cTag
  | textAttribute => exact textAttribute_isSome_iff cTag
  | _ => exact iff_of_true rfl trivial

end ExynosVendor.Ril
