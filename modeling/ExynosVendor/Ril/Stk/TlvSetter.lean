import ExynosVendor.Ril.Stk.TlvParser
import Mathlib.Tactic.IntervalCases

/-!
# The TLV setters, and what survives the wire

The field setters of `stk/tlvparser.cpp` that terminal responses and
envelopes are built with: one call of a setter is a `TlvSetting`, `build`
is the object it leaves, and `fields` are the field values the call
means. A setting **survives** when parsing tag, length and value with the
class's own parser yields those fields, on every platform that hands out
exactly the bytes asked for.

`survives_iff` is the exact answer. The conversions of `ChannelData` and
`BearerDescription` are commented out in the source, so their values are
whatever the heap held; `BufferSize` reads four bytes of a two-byte value
and `Result` dumps its text into a block too small for it.
-/

namespace ExynosVendor.Ril

open List Option

/-- The two bytes of a `WORD`, as a store through a `WORD *` leaves them. -/
def wordBytes (w : WORD) : List BYTE :=
  [w.extractLsb' 0 8, w.extractLsb' 8 8]

/-! ## The setters -/

/-- `CommandDetail::Set(BYTE, BYTE, BYTE)`. -/
def CommandDetail.build (bCmdType bQualifier nCommandNumber : BYTE) : TlvObject where
  tlv := CTLV.ofValue (tagCommandDetail ||| 0x80) [nCommandNumber, bCmdType, bQualifier]
  fields := .commandDetail ⟨nCommandNumber, bCmdType, bQualifier⟩

/-- `DeviceIdentity::Set(int, int)`. -/
def DeviceIdentity.build (nSourceDeviceId nDestinationDevieceID : INT) : TlvObject where
  tlv := CTLV.ofValue (tagDeviceIdentity ||| 0x80)
    [nSourceDeviceId.truncate 8, nDestinationDevieceID.truncate 8]
  fields := .deviceIdentity ⟨nSourceDeviceId.truncate 8, nDestinationDevieceID.truncate 8⟩

/-- `Result::Set(int, int, BYTE *)`. -/
def Result.build (P : Platform) (nLength : ℕ) (nGeneralResult : INT)
    (cAdditionalInformation : Option (List BYTE)) : Option TlvObject := do
  let value ← Block.put (List.replicate nLength 0) 0 (nGeneralResult.truncate 8 : BYTE)
  match cAdditionalInformation with
  | none => some ⟨CTLV.ofValue (tagResult ||| 0x80) value, .result (some value) []⟩
  | some info => do
      let bytes ← Block.load info 0 (nLength - 1)
      let value ← Block.store value 1 bytes
      let strAddtionalInfo ← dumpHex P (nLength * 2 - 1) bytes
      some ⟨CTLV.ofValue (tagResult ||| 0x80) value, .result (some value) strAddtionalInfo⟩

/-- `ChannelData::Set(const string &)`: the conversion into the new value
is commented out, so the value is what the heap held. -/
def ChannelData.build (P : Platform) (strChannelData : List Char) : TlvObject where
  tlv := CTLV.ofValue tagChannelData
    ((P.newBytes (strChannelData.length / 2)).take (strChannelData.length / 2))
  fields := .channelData strChannelData

/-- `ChannelDataLength::Set(int)`. -/
def ChannelDataLength.build (nChannelDataLength : INT) : TlvObject where
  tlv := CTLV.ofValue (tagChannelDataLength ||| 0x80) [nChannelDataLength.truncate 8]
  fields := .channelDataLength (nChannelDataLength.truncate 8)

/-- `ChannelStatus::Set(int, Channel_Status, bool, int)`. -/
def ChannelStatus.build (nChannelId channelStatus : INT) (isFurtherInfo : Bool)
    (furtherInfo : INT) : TlvObject :=
  let first : BYTE := ((nChannelId &&& 0x7) ||| ((channelStatus &&& 0x3) <<< 6)).truncate 8
  let second : BYTE := if isFurtherInfo then furtherInfo.truncate 8 else 0
  ⟨CTLV.ofValue tagChannelStatus [first, second], .channelStatus ⟨first, second⟩⟩

/-- `BufferSize::Set(int)`. -/
def BufferSize.build (nBufferSize : INT) : TlvObject where
  tlv := CTLV.ofValue tagBufferSize (wordBytes ((swap16 nBufferSize).truncate 16))
  fields := .bufferSize nBufferSize

/-- `TerminalInterfaceTransportLevel::Set(int, int)`. -/
def TerminalInterfaceTransportLevel.build (nTransportType nPort : INT) : TlvObject :=
  let wPort : WORD := nPort.truncate 16
  ⟨CTLV.ofValue tagUiccTerminalInterfaceTransportLevel
      (nTransportType.truncate 8 :: wordBytes ((swap16 (wPort.zeroExtend 32)).truncate 16)),
    .transportLevel ⟨nTransportType.truncate 8, wPort⟩⟩

/-- The value length `BearerDescription::Set` gives a bearer type. -/
def bearerLength (cBearerType : BYTE) : Option ℕ :=
  if cBearerType = 0x01 then some 4                         -- `CSD`
  else if cBearerType = 0x02 then some 7                    -- `GPRS`
  else if cBearerType = 0x03 then some 1                    -- `DEFAULT_BEARER`
  else if cBearerType = 0x04 ∨ cBearerType = 0x05 ∨ cBearerType = 0x06 ∨
      cBearerType = 0x07 ∨ cBearerType = 0x0A then some 1   -- the links and `I_WLAN`
  else if cBearerType = 0x0B then some 3                    -- `E_UTRAN`
  else if cBearerType = 0x10 then some 1                    -- `USB`
  else none

/-- `BearerDescription::Set(BYTE, const string &)`: the conversion of the
parameter is commented out, and `E_UTRAN` copies two bytes of a ten-byte
record laid over the value. -/
def BearerDescription.build (P : Platform) (cBearerType : BYTE)
    (strBearerParameter : List Char) : Option TlvObject :=
  match bearerLength cBearerType with
  | none => some ⟨CTLV.initialized, .bearerDescription none []⟩
  | some nLength => do
      let pValue ← Block.put (P.newBytes nLength) 0 cBearerType
      let pValue ←
        if cBearerType = 0x0B then do
          let cQCI ← pValue[1]?
          let pValue ← Block.put pValue 1 cQCI
          let cPdnType ← pValue[10]?
          Block.put pValue 2 cPdnType
        else some pValue
      some ⟨CTLV.ofValue tagBearerDescription (pValue.take nLength),
        .bearerDescription (some (pValue.take nLength)) strBearerParameter⟩

/-- `EventList::Set(BYTE)`: its own copy is released again. -/
def EventList.build (cEvent : BYTE) : TlvObject where
  tlv := CTLV.ofValue tagEventList [cEvent]
  fields := .eventList none

/-! ## Settings -/

/-- A call of one of the setters. -/
inductive TlvSetting where
  /-- `CommandDetail::Set`. -/
  | commandDetail (bCmdType bQualifier nCommandNumber : BYTE)
  /-- `DeviceIdentity::Set`. -/
  | deviceIdentity (nSourceDeviceId nDestinationDevieceID : INT)
  /-- `Result::Set`. -/
  | result (nLength : ℕ) (nGeneralResult : INT) (cAdditionalInformation : Option (List BYTE))
  /-- `ChannelData::Set`. -/
  | channelData (strChannelData : List Char)
  /-- `ChannelDataLength::Set`. -/
  | channelDataLength (nChannelDataLength : INT)
  /-- `ChannelStatus::Set`. -/
  | channelStatus (nChannelId channelStatus : INT) (isFurtherInfo : Bool) (furtherInfo : INT)
  /-- `BufferSize::Set`. -/
  | bufferSize (nBufferSize : INT)
  /-- `TerminalInterfaceTransportLevel::Set`. -/
  | transportLevel (nTransportType nPort : INT)
  /-- `BearerDescription::Set`. -/
  | bearerDescription (cBearerType : BYTE) (strBearerParameter : List Char)
  /-- `EventList::Set`. -/
  | eventList (cEvent : BYTE)

namespace TlvSetting

/-- A hex string of whole bytes. -/
def IsHex (s : List Char) : Prop :=
  s.length % 2 = 0 ∧ ∀ c ∈ s, hexChar2Value c ≠ -1

/-- The range of a setter's arguments: what the fields they are stored
in can hold. -/
def InRange : TlvSetting → Prop
  | .deviceIdentity src dst => src.toNat < 256 ∧ dst.toNat < 256
  | .result n g info => 1 ≤ n ∧ g.toNat < 256 ∧ ∀ bytes ∈ info, bytes.length = n - 1
  | .channelData s => IsHex s
  | .channelDataLength n => n.toNat < 256
  | .channelStatus i s _ f => i.toNat < 8 ∧ s.toNat < 4 ∧ f.toNat < 256
  | .bufferSize n => n.toNat < 65536
  | .transportLevel t p => t.toNat < 256 ∧ p.toNat < 65536
  | .bearerDescription ty s => (1 ≤ ty.toNat ∧ ty.toNat ≤ 0x0B ∨ ty = 0x10) ∧ IsHex s
  | _ => True

/-- The class whose setter is called. -/
def cls : TlvSetting → TlvClass
  | .commandDetail .. => .commandDetail
  | .deviceIdentity .. => .deviceIdentity
  | .result .. => .result
  | .channelData .. => .channelData
  | .channelDataLength .. => .channelDataLength
  | .channelStatus .. => .channelStatus
  | .bufferSize .. => .bufferSize
  | .transportLevel .. => .terminalInterfaceTransportLevel
  | .bearerDescription .. => .bearerDescription
  | .eventList .. => .eventList

/-- The object the call leaves. -/
def build (P : Platform) : TlvSetting → Option TlvObject
  | .commandDetail ty q n => some (CommandDetail.build ty q n)
  | .deviceIdentity src dst => some (DeviceIdentity.build src dst)
  | .result n g info => Result.build P n g info
  | .channelData s => some (ChannelData.build P s)
  | .channelDataLength n => some (ChannelDataLength.build n)
  | .channelStatus i s b f => some (ChannelStatus.build i s b f)
  | .bufferSize n => some (BufferSize.build n)
  | .transportLevel t p => some (TerminalInterfaceTransportLevel.build t p)
  | .bearerDescription ty s => BearerDescription.build P ty s
  | .eventList e => some (EventList.build e)

/-- **The fields the call means**: its arguments, in the fields a parser
of the class fills. -/
def fields : TlvSetting → TlvFields
  | .commandDetail ty q n => .commandDetail ⟨n, ty, q⟩
  | .deviceIdentity src dst => .deviceIdentity ⟨BitVec.ofNat 8 src.toNat, BitVec.ofNat 8 dst.toNat⟩
  | .result n g info =>
      .result (some (BitVec.ofNat 8 g.toNat :: info.getD (List.replicate (n - 1) 0)))
        (hexText (info.getD []))
  | .channelData s => .channelData s
  | .channelDataLength n => .channelDataLength (BitVec.ofNat 8 n.toNat)
  | .channelStatus i s b f =>
      .channelStatus ⟨BitVec.ofNat 8 (i.toNat + 64 * s.toNat),
        if b then BitVec.ofNat 8 f.toNat else 0⟩
  | .bufferSize n => .bufferSize n
  | .transportLevel t p => .transportLevel ⟨BitVec.ofNat 8 t.toNat, BitVec.ofNat 16 p.toNat⟩
  | .bearerDescription ty s => .bearerDescription (some (ty :: hexBytes s)) s
  | .eventList e => .eventList (some [e])

/-- **The setting survives the wire**: the setter leaves a value, and
parsing tag, length and value gives back the fields, with every access
inside the blocks, whatever unwritten memory holds. -/
def Survives (s : TlvSetting) : Prop :=
  ∀ heapByte stackByte : ℕ → BYTE,
    ∃ o value, s.build (Platform.strict heapByte stackByte) = some o ∧ o.tlv.pValue = some value ∧
      ∃ t, s.cls.set (Platform.strict heapByte stackByte)
          (o.tlv.cTag :: CTLV.berLength o.tlv.nLength ++ value) = some (⟨t, s.fields⟩, none) ∧
        t.cTag = o.tlv.cTag ∧ t.nLength = o.tlv.nLength

/-- The settings whose value is written, and read inside its bounds. -/
def Survivable : TlvSetting → Prop
  | .result n _ _ => n = 1
  | .channelData s => s = []
  | .bufferSize _ => False
  | .bearerDescription ty s => bearerLength ty = some 1 ∧ s = []
  | _ => True

/-! ## The values that are written -/

section Survival

variable {heapByte stackByte : ℕ → BYTE}

/-- A byte below 256 is kept by the cast to `BYTE`. -/
theorem truncate_eq_ofNat (n : INT) : (n.truncate 8 : BYTE) = BitVec.ofNat 8 n.toNat := by
  apply BitVec.eq_of_toNat_eq
  simp

/-- **A setting survives when its value reads back to its fields.** The
value is short, so the parser finds its length. -/
theorem survives_of_read {s : TlvSetting} (cTag : BYTE) (value : List BYTE) {f : TlvFields}
    (hbuild : ∀ heapByte stackByte,
      s.build (Platform.strict heapByte stackByte) = some ⟨CTLV.ofValue cTag value, f⟩)
    (hne : value ≠ []) (hshort : value.length < 128) (htag : cTag ≠ 0x7F)
    (hread : ∀ heapByte stackByte, s.cls.read (Platform.strict heapByte stackByte)
      (CTLV.ofValue cTag value) = some s.fields) : s.Survives := by
  intro heapByte stackByte
  refine ⟨_, value, hbuild heapByte stackByte, rfl, CTLV.ofValue cTag value, ?_, rfl, rfl⟩
  have hset := CTLV.set_encoded (P := Platform.strict heapByte stackByte) (t := CTLV.initialized)
    cTag value [] (by rw [append_nil]; exact hne)
    (fun h => htag h.2) (CTLV.setLength_of_lt _ _ (by omega) _)
  rw [append_nil] at hset
  simp only [TlvClass.set, CTLV.ofValue_cTag, CTLV.ofValue_nLength, cons_append, hset,
    bind_eq_bind, bind_some, hread heapByte stackByte]
  rfl

/-- **And it does not when a parse of its value yields anything else**:
what is parsed is the value or nothing. -/
theorem read_of_survives {s : TlvSetting} (h : s.Survives) (heapByte stackByte : ℕ → BYTE) :
    ∃ o value, s.build (Platform.strict heapByte stackByte) = some o ∧ o.tlv.pValue = some value ∧
      (value ≠ [] → s.cls.read (Platform.strict heapByte stackByte)
        (CTLV.ofValue o.tlv.cTag value) = some s.fields) := by
  obtain ⟨o, value, hbuild, hvalue, t, hset, -, hlen⟩ := h heapByte stackByte
  refine ⟨o, value, hbuild, hvalue, ?_⟩
  intro hne
  have hnLength : o.tlv.nLength = value.length := by
    rw [o.tlv.nLength_eq, hvalue]
    rfl
  rw [TlvClass.set, hnLength] at hset
  simp only [cons_append, bind_eq_bind, bind_eq_some_iff, some.injEq,
    Prod.mk.injEq, TlvObject.mk.injEq] at hset
  obtain ⟨⟨t', nx⟩, hcut, f, hread, ⟨rfl, rfl⟩, -⟩ := hset
  have ht := CTLV.eq_of_set_encoded hne hcut (by rw [hlen, hnLength])
  rw [← ht]
  exact hread

theorem commandDetail_survives (ty q n : BYTE) : (commandDetail ty q n).Survives :=
  survives_of_read _ _ (fun _ _ => rfl) (by simp) (by simp) (by decide) (fun _ _ => rfl)

theorem deviceIdentity_survives (src dst : INT) : (deviceIdentity src dst).Survives := by
  refine survives_of_read _ _ (fun _ _ => rfl) (by simp) (by simp) (by decide) (fun _ _ => ?_)
  simp only [cls, fields, ← truncate_eq_ofNat]
  rfl

theorem channelDataLength_survives (n : INT) : (channelDataLength n).Survives := by
  refine survives_of_read _ _ (fun _ _ => rfl) (by simp) (by simp) (by decide) (fun _ _ => ?_)
  simp only [cls, fields, ← truncate_eq_ofNat]
  rfl

theorem channelStatus_first {i s : INT} (hi : i.toNat < 8) (hs : s.toNat < 4) :
    (((i &&& 0x7) ||| ((s &&& 0x3) <<< 6)).truncate 8 : BYTE) =
      BitVec.ofNat 8 (i.toNat + 64 * s.toNat) := by
  have hall : ∀ (a : Fin 8) (b : Fin 4),
      (((BitVec.ofNat 32 a &&& 0x7) ||| ((BitVec.ofNat 32 b &&& 0x3) <<< 6)).truncate 8 : BYTE) =
        BitVec.ofNat 8 (a + 64 * b) := by decide
  simpa using hall ⟨i.toNat, hi⟩ ⟨s.toNat, hs⟩

theorem channelStatus_survives {i s f : INT} {b : Bool} (hi : i.toNat < 8) (hs : s.toNat < 4) :
    (channelStatus i s b f).Survives := by
  refine survives_of_read _ _ (fun _ _ => rfl) (by simp) (by simp) (by decide) (fun _ _ => ?_)
  simp only [cls, fields, ← truncate_eq_ofNat, ← channelStatus_first hi hs]
  rfl

/-- `SWAP16` of a `WORD` exchanges its bytes. -/
theorem swap16_word (w : WORD) : ((swap16 (w.zeroExtend 32)).truncate 16 : WORD) =
    (w.extractLsb' 0 8 ++ w.extractLsb' 8 8 : WORD) := by
  apply BitVec.eq_of_getLsbD_eq
  intro i hi
  rw [BitVec.getLsbD_append]
  interval_cases i <;> simp [swap16, BitVec.getElem_sshiftRight]

/-- So a port written swapped and read swapped is the port. -/
theorem swap16_wordBytes (w : WORD) :
    ∃ b c, wordBytes ((swap16 (w.zeroExtend 32)).truncate 16) = [b, c] ∧
      ((swap16 ((c ++ b : WORD).zeroExtend 32)).truncate 16 : WORD) = w := by
  refine ⟨_, _, rfl, ?_⟩
  have hjoin : ∀ u : WORD, (u.extractLsb' 8 8 ++ u.extractLsb' 0 8 : WORD) = u := by
    intro u
    rw [BitVec.extractLsb'_append_extractLsb'_eq_extractLsb' (by rfl)]
    simp
  rw [hjoin, swap16_word, swap16_word]
  have hlow : (w.extractLsb' 0 8 ++ w.extractLsb' 8 8 : WORD).extractLsb' 0 8 = w.extractLsb' 8 8 :=
    BitVec.extractLsb'_append_eq_right
  have hhigh : (w.extractLsb' 0 8 ++ w.extractLsb' 8 8 : WORD).extractLsb' 8 8 = w.extractLsb' 0 8 :=
    BitVec.extractLsb'_append_eq_left
  rw [hlow, hhigh, hjoin]

theorem transportLevel_survives (t p : INT) : (transportLevel t p).Survives := by
  obtain ⟨b, c, hbytes, hport⟩ := swap16_wordBytes (p.truncate 16)
  refine survives_of_read tagUiccTerminalInterfaceTransportLevel [t.truncate 8, b, c]
    (f := .transportLevel ⟨t.truncate 8, p.truncate 16⟩) (fun _ _ => ?_) (by simp) (by simp)
    (by decide) (fun _ _ => ?_)
  · simp only [build, TerminalInterfaceTransportLevel.build, hbytes]
  · have hp : (p.truncate 16 : WORD) = BitVec.ofNat 16 p.toNat := by
      apply BitVec.eq_of_toNat_eq
      simp
    simp only [cls, fields, ← truncate_eq_ofNat, ← hp]
    rw [← hport]
    rfl

theorem eventList_survives (e : BYTE) : (eventList e).Survives :=
  survives_of_read _ _ (fun _ _ => rfl) (by simp) (by simp) (by decide) (fun _ _ => rfl)

/-! ## The values that are not -/

variable {info : Option (List BYTE)}

/-- A result's value is as long as it is told to be. -/
theorem result_build_length {P : Platform} {n : ℕ} {g : INT} {o : TlvObject} {value : List BYTE}
    (h : Result.build P n g info = some o) (hvalue : o.tlv.pValue = some value) :
    o.tlv = CTLV.ofValue (tagResult ||| 0x80) value ∧ value.length = n := by
  simp only [Result.build, bind_eq_bind, bind_eq_some_iff] at h
  obtain ⟨v, hput, h⟩ := h
  have hv : v.length = n := by
    rw [Block.store_length hput, length_replicate]
  cases info with
  | none =>
      simp only [some.injEq] at h
      subst h
      simp only [CTLV.ofValue_pValue, some.injEq] at hvalue
      subst hvalue
      exact ⟨rfl, hv⟩
  | some bytes =>
      simp only [bind_eq_some_iff, some.injEq] at h
      obtain ⟨copied, -, v', hstore, str, -, rfl⟩ := h
      simp only [CTLV.ofValue_pValue, some.injEq] at hvalue
      subst hvalue
      exact ⟨rfl, by rw [Block.store_length hstore, hv]⟩

/-- **A result survives exactly when it is one byte**: the dump of a
longer one does not fit its block. -/
theorem result_survives_iff {n : ℕ} {g : INT} (hn : 1 ≤ n)
    (hinfo : ∀ bytes ∈ info, bytes.length = n - 1) : (result n g info).Survives ↔ n = 1 := by
  constructor
  · intro h
    by_contra hne
    obtain ⟨o, value, hbuild, hvalue, hread⟩ := read_of_survives h (fun _ => 0) (fun _ => 0)
    obtain ⟨ho, hlen⟩ := result_build_length hbuild hvalue
    have hnil : value ≠ [] := ne_nil_of_one_le (by omega)
    have hsome := read_isSome_iff (Platform.strict (fun _ => 0) (fun _ => 0)) .result
      (tagResult ||| 0x80) value
    have hr := hread hnil
    rw [ho, CTLV.ofValue_cTag] at hr
    rw [show (result n g info).cls = TlvClass.result from rfl] at hr
    rw [hr] at hsome
    have hfit := hsome.mp rfl (by omega)
    simp only [Platform.strict_heap, Allocator.exact_usable] at hfit
    omega
  · rintro rfl
    have hget : info.getD [] = [] := by
      cases info with
      | none => rfl
      | some bytes => exact length_eq_zero_iff.mp (hinfo bytes rfl)
    have hget' : info.getD (List.replicate (1 - 1) 0) = [] := by
      cases info with
      | none => rfl
      | some bytes => exact length_eq_zero_iff.mp (hinfo bytes rfl)
    refine survives_of_read (tagResult ||| 0x80) [g.truncate 8]
      (f := .result (some [g.truncate 8]) []) (fun _ _ => ?_) (by simp) (by simp) (by decide)
      (fun _ _ => ?_)
    · cases info with
      | none => rfl
      | some bytes =>
          have hbytes : bytes = [] := length_eq_zero_iff.mp (hinfo bytes rfl)
          subst hbytes
          rfl
    · simp only [cls, fields, hget, hget', ← truncate_eq_ofNat]
      rfl

/-- A buffer size never survives: four bytes are read of two. -/
theorem not_bufferSize_survives (n : INT) : ¬ (bufferSize n).Survives := by
  intro h
  obtain ⟨o, value, hbuild, hvalue, hread⟩ := read_of_survives h (fun _ => 0) (fun _ => 0)
  simp only [build, BufferSize.build, some.injEq] at hbuild
  subst hbuild
  simp only [CTLV.ofValue_pValue, some.injEq] at hvalue
  subst hvalue
  have hsome := read_isSome_iff (Platform.strict (fun _ => 0) (fun _ => 0)) .bufferSize
    tagBufferSize (wordBytes ((swap16 n).truncate 16))
  have hr := hread (by simp [wordBytes])
  rw [CTLV.ofValue_cTag, show (bufferSize n).cls = TlvClass.bufferSize from rfl] at hr
  rw [hr] at hsome
  have hfit := hsome.mp rfl (by simp [wordBytes])
  simp [wordBytes] at hfit

theorem newBytes_strict (n : ℕ) :
    (Platform.strict heapByte stackByte).newBytes n = (List.range n).map heapByte := rfl

/-- **Channel data survives exactly when there is none**: its value is
unwritten, and two heaps disagree about it. -/
theorem channelData_survives_iff {s : List Char} (hs : s.length % 2 = 0) :
    (channelData s).Survives ↔ s = [] := by
  constructor
  · intro h
    by_contra hne
    have hpos : 1 ≤ s.length / 2 := by
      have := length_pos_iff.mpr hne
      omega
    have hread : ∀ b : BYTE, hexBytes s = List.replicate (s.length / 2) b := by
      intro b
      obtain ⟨o, value, hbuild, hvalue, hread⟩ := read_of_survives h (fun _ => b) (fun _ => 0)
      simp only [build, ChannelData.build, some.injEq] at hbuild
      subst hbuild
      simp only [CTLV.ofValue_pValue, some.injEq, newBytes_strict] at hvalue
      have hval : value = List.replicate (s.length / 2) b := by
        rw [← hvalue, take_of_length_le (by simp)]
        simp
      have hnil : 1 ≤ value.length := by rw [hval, length_replicate]; exact hpos
      have hr := hread (ne_nil_of_one_le hnil)
      simp only [cls, TlvClass.read, fields, channelData_read _ _ hnil, some.injEq,
        TlvFields.channelData.injEq] at hr
      have hbytes := congrArg hexBytes hr
      rw [hexBytes_hexText] at hbytes
      rw [← hbytes, hval]
    have h01 := (hread 0).symm.trans (hread 1)
    obtain ⟨k, hk⟩ : ∃ k, s.length / 2 = k + 1 := ⟨s.length / 2 - 1, by omega⟩
    rw [hk] at h01
    simp [replicate_succ] at h01
  · rintro rfl heapByte stackByte
    exact ⟨_, [], rfl, rfl, CTLV.ofTag tagChannelData, rfl, rfl, rfl⟩

theorem one_le_of_bearerLength {ty : BYTE} {k : ℕ} (h : bearerLength ty = some k) : 1 ≤ k := by
  unfold bearerLength at h
  split_ifs at h <;> simp only [some.injEq] at h <;> omega

/-- Behind the type, a bearer's value is what the heap held. -/
theorem bearerDescription_build {ty : BYTE} {s : List Char} {k : ℕ}
    (hk : bearerLength ty = some k) (hty : ty ≠ 0x0B) :
    BearerDescription.build (Platform.strict heapByte stackByte) ty s =
      some ⟨CTLV.ofValue tagBearerDescription (ty :: ((List.range k).map heapByte).drop 1),
        .bearerDescription (some (ty :: ((List.range k).map heapByte).drop 1)) s⟩ := by
  have hpos := one_le_of_bearerLength hk
  have hput : Block.put ((List.range k).map heapByte) 0 ty
      = some (ty :: ((List.range k).map heapByte).drop 1) := by
    have := Block.put_behind (p := []) (r := (List.range k).map heapByte) (x := ty)
      (by rw [length_map, length_range]; exact hpos)
    simpa using this
  have htake : (ty :: ((List.range k).map heapByte).drop 1).take k
      = ty :: ((List.range k).map heapByte).drop 1 := by
    apply take_of_length_le
    simp only [length_cons, length_drop, length_map, length_range]
    omega
  simp only [BearerDescription.build, hk, newBytes_strict, hput, if_neg hty, bind_eq_bind,
    bind_some, htake]

/-- `E_UTRAN` reads its second byte from a record that ends far behind
the value. -/
theorem bearerDescription_build_eutran (s : List Char) :
    BearerDescription.build (Platform.strict heapByte stackByte) 0x0B s = none := rfl

/-- **A bearer survives exactly when its type carries no parameter** and
none was given. -/
theorem bearerDescription_survives_iff (ty : BYTE) (s : List Char) :
    (bearerDescription ty s).Survives ↔ bearerLength ty = some 1 ∧ s = [] := by
  constructor
  · intro h
    cases hk : bearerLength ty with
    | none =>
        obtain ⟨o, value, hbuild, hvalue, -⟩ := read_of_survives h (fun _ => 0) (fun _ => 0)
        simp only [build, BearerDescription.build, hk, some.injEq] at hbuild
        subst hbuild
        cases hvalue
    | some k =>
        have hty : ty ≠ 0x0B := by
          rintro rfl
          obtain ⟨o, value, hbuild, -⟩ := read_of_survives h (fun _ => 0) (fun _ => 0)
          rw [build, bearerDescription_build_eutran] at hbuild
          cases hbuild
        have hparam : ∀ heapByte : ℕ → BYTE, s = hexText (((List.range k).map heapByte).drop 1) := by
          intro heapByte
          obtain ⟨o, value, hbuild, hvalue, hread⟩ := read_of_survives h heapByte (fun _ => 0)
          rw [build, bearerDescription_build hk hty, some.injEq] at hbuild
          subst hbuild
          simp only [CTLV.ofValue_pValue, some.injEq] at hvalue
          subst hvalue
          have hr := hread (by simp)
          have hroom : 2 * (((List.range k).map heapByte).drop 1).length + 1 ≤
              (Platform.strict heapByte (fun _ => 0)).heap.usable
                ((((List.range k).map heapByte).drop 1).length * 2 + 1) := by
            simp only [Platform.strict_heap, Allocator.exact_usable]
            omega
          simp only [cls, TlvClass.read, BearerDescription.read, atLeast_ofValue,
            CTLV.ofValue_nLength, length_cons, Nat.le_add_left, if_true, fields,
            Nat.add_sub_cancel, drop_succ_cons, drop_zero, dumpHex_eq hroom, bind_eq_bind,
            bind_some, some.injEq, TlvFields.bearerDescription.injEq] at hr
          exact hr.2.symm
        have hpos := one_le_of_bearerLength hk
        have hone : k = 1 := by
          by_contra hne
          obtain ⟨m, rfl⟩ : ∃ m, k = m + 2 := ⟨k - 2, by omega⟩
          have h01 := congrArg hexBytes ((hparam (fun _ => 0)).symm.trans (hparam (fun _ => 1)))
          rw [hexBytes_hexText, hexBytes_hexText] at h01
          simp [replicate_succ] at h01
        subst hone
        exact ⟨rfl, hparam (fun _ => 0)⟩
  · rintro ⟨hk, rfl⟩
    have hty : ty ≠ 0x0B := by
      rintro rfl
      exact absurd hk (by decide)
    refine survives_of_read tagBearerDescription [ty]
      (f := .bearerDescription (some [ty]) []) (fun _ _ => ?_) (by simp) (by simp) (by decide)
      (fun _ _ => rfl)
    rw [build, bearerDescription_build hk hty]
    rfl

end Survival

/-- **Which settings survive the wire.** -/
theorem survives_iff (s : TlvSetting) (h : s.InRange) : s.Survives ↔ s.Survivable := by
  cases s with
  | commandDetail ty q n => exact iff_of_true (commandDetail_survives ty q n) trivial
  | deviceIdentity src dst => exact iff_of_true (deviceIdentity_survives src dst) trivial
  | result n g info => exact result_survives_iff h.1 h.2.2
  | channelData s => exact channelData_survives_iff h.1
  | channelDataLength n => exact iff_of_true (channelDataLength_survives n) trivial
  | channelStatus i s b f => exact iff_of_true (channelStatus_survives h.1 h.2.1) trivial
  | bufferSize n => exact iff_of_false (not_bufferSize_survives n) id
  | transportLevel t p => exact iff_of_true (transportLevel_survives t p) trivial
  | bearerDescription ty s => exact bearerDescription_survives_iff ty s
  | eventList e => exact iff_of_true (eventList_survives e) trivial

/-- A two-digit channel data string does not survive. -/
theorem not_survives_channelData :
    (channelData ['0', '1']).InRange ∧ ¬ (channelData ['0', '1']).Survives := by
  have hhex : IsHex ['0', '1'] := by
    refine ⟨by decide, fun c hc => ?_⟩
    simp only [mem_cons, not_mem_nil, or_false] at hc
    rcases hc with rfl | rfl <;> decide
  refine ⟨hhex, ?_⟩
  rw [channelData_survives_iff hhex.1]
  decide

/-- A channel status does: channel 1, established, nothing further. -/
theorem survives_channelStatus : (channelStatus 1 2 false 0).Survives :=
  (survives_iff (channelStatus 1 2 false 0) ⟨by decide, by decide, by decide⟩).mpr trivial

end TlvSetting

end ExynosVendor.Ril
