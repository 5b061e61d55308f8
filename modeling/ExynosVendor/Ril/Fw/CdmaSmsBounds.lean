import ExynosVendor.Ril.Fw.CdmaSmsRoundTrip

/-!
# The bounds of a CDMA short message

What `ConstructTransportLayerMsg` and `ConstructRilCdmaSmsMsg` write, against the arrays they write
to, for any record and for any message.

The record's counts are clamped before they are used, so the addresses stay inside their arrays, and
a message is as long as its clamped record says (`fitsBuffer_iff`): two bytes more than the buffer
at most, the two that the comment beside `MAX_CDMA_SMS_MSG_SIZE` does not count. The other way
nothing is clamped: the number of digits comes from the message, and so does a parameter that is
shorter than what is read of it (`decodesSafely_iff_parametersOk`).
-/

namespace ExynosVendor.Ril

open Option

/-! ## The record's sizes -/

namespace CdmaSmsAddress

/-- The address with the digits that are sent. -/
def clamped (a : CdmaSmsAddress) : CdmaSmsAddress :=
  { a with numberOfDigits := BitVec.ofNat 8 (min a.numberOfDigits.toNat cdmaSmsAddressMax) }

theorem clamped_count (a : CdmaSmsAddress) :
    a.clamped.numberOfDigits.toNat = min a.numberOfDigits.toNat cdmaSmsAddressMax := by
  have hlt := a.numberOfDigits.isLt
  unfold clamped cdmaSmsAddressMax
  rw [BitVec.toNat_ofNat]
  omega

theorem construct_clamped (a : CdmaSmsAddress) : a.clamped.construct = a.construct := by
  have hmin : min a.clamped.numberOfDigits.toNat cdmaSmsAddressMax =
      min a.numberOfDigits.toNat cdmaSmsAddressMax := by
    rw [clamped_count]
    omega
  unfold construct
  rw [hmin]
  rfl

theorem sized_clamped {a : CdmaSmsAddress} (h : a.digits.length = cdmaSmsAddressMax) :
    a.clamped.Sized where
  length := h
  count := by
    rw [clamped_count]
    exact Nat.min_le_right _ _

end CdmaSmsAddress

namespace CdmaSmsSubaddress

/-- The subaddress with the digits that are sent. -/
def clamped (a : CdmaSmsSubaddress) : CdmaSmsSubaddress :=
  { a with numberOfDigits := BitVec.ofNat 8 a.digitLen }

theorem clamped_count (a : CdmaSmsSubaddress) : a.clamped.numberOfDigits.toNat = a.digitLen := by
  have hlt := a.numberOfDigits.isLt
  unfold clamped digitLen cdmaSmsSubaddressMax
  rw [BitVec.toNat_ofNat]
  omega

theorem clamped_digitLen (a : CdmaSmsSubaddress) : a.clamped.digitLen = a.digitLen := by
  unfold digitLen
  rw [clamped_count]
  unfold digitLen
  omega

theorem construct_clamped (a : CdmaSmsSubaddress) : a.clamped.construct = a.construct := by
  unfold construct
  rw [clamped_digitLen]
  rfl

theorem valid_clamped {a : CdmaSmsSubaddress} (h : a.digits.length = cdmaSmsSubaddressMax) :
    a.clamped.Valid where
  length := h
  count := by
    rw [clamped_count]
    exact Nat.min_le_right _ _

end CdmaSmsSubaddress

namespace CdmaSmsMessage

/-! ## Construction -/

/-- **A record**: its arrays have the sizes they are declared with. -/
structure IsRecord (m : CdmaSmsMessage) : Prop where
  address : m.sAddress.digits.length = cdmaSmsAddressMax
  subAddress : m.sSubAddress.digits.length = cdmaSmsSubaddressMax
  bearer : m.aBearerData.length = cdmaSmsBearerDataMax

/-- The record with a `uBearerDataLen` of its type, an `int`. It is used only through a minimum that
is cast to a byte. -/
def withBearerDataLen (m : CdmaSmsMessage) (uBearerDataLen : ℤ) : CdmaSmsMessage :=
  { m with uBearerDataLen := (min uBearerDataLen cdmaSmsBearerDataMax % 256).toNat }

/-- The record with the counts that are used. -/
def clamped (m : CdmaSmsMessage) : CdmaSmsMessage :=
  { m with
    sAddress := m.sAddress.clamped
    sSubAddress := m.sSubAddress.clamped
    uBearerDataLen := m.bearerLen }

/-- **The message fits**: everything is written inside `address`, `subAddress` and `msg`, and it is
no longer than `msg`. -/
def FitsBuffer (m : CdmaSmsMessage) (noBearerReplyOption : Bool) : Prop :=
  ∃ msg, m.constructTransportLayerMsg noBearerReplyOption = some msg ∧
    msg.length ≤ maxCdmaSmsMsgSize

variable {m : CdmaSmsMessage}

theorem IsRecord.withBearerDataLen (h : m.IsRecord) (len : ℤ) :
    (m.withBearerDataLen len).IsRecord := ⟨h.address, h.subAddress, h.bearer⟩

/-- **How long the message is**, whatever the counts say. -/
theorem IsRecord.transportBytes_length (h : m.IsRecord) (noBearerReplyOption : Bool)
    {address subAddress : List BYTE} (haddress : address.length = m.sAddress.clamped.size)
    (hsub : subAddress.length = m.sSubAddress.clamped.size) :
    (m.transportBytes noBearerReplyOption address subAddress).length =
      m.clamped.transportSize noBearerReplyOption := by
  have hbearer : (m.aBearerData.take m.bearerLen).length = m.bearerLen := by
    rw [List.length_take, h.bearer]
    exact Nat.min_eq_left (Nat.min_le_right _ _)
  have hword : ∀ u, (wordBytesOf u).length = 2 := fun _ => rfl
  have hif : ∀ (c : Prop) [Decidable c] (bytes : List BYTE),
      (if c then bytes else []).length = if c then bytes.length else 0 := by
    intro c _ bytes
    split <;> rfl
  have hdigits : m.sSubAddress.digitLen ≠ 0 ↔ m.sSubAddress.clamped.numberOfDigits ≠ 0 := by
    rw [← m.sSubAddress.clamped_count, not_iff_not, BitVec.toNat_eq]
    rfl
  simp only [transportBytes, transportSize, List.length_append, parameter_length, hbearer, hword,
    hif, haddress, hsub, List.length_singleton, hdigits, clamped]
  rfl

/-- **A message fits exactly when its clamped record does.** -/
theorem IsRecord.fitsBuffer_iff (h : m.IsRecord) (noBearerReplyOption : Bool) :
    m.FitsBuffer noBearerReplyOption ↔
      m.clamped.transportSize noBearerReplyOption ≤ maxCdmaSmsMsgSize := by
  obtain ⟨address, haddress, -, haddressLen⟩ :=
    CdmaSmsAddress.construct_eq (CdmaSmsAddress.sized_clamped h.address)
  obtain ⟨subAddress, hsub, -, hsubLen⟩ :=
    CdmaSmsSubaddress.construct_eq (CdmaSmsSubaddress.valid_clamped h.subAddress)
  rw [CdmaSmsAddress.construct_clamped] at haddress
  rw [CdmaSmsSubaddress.construct_clamped] at hsub
  have hbearer : m.bearerLen ≤ m.aBearerData.length := by
    rw [h.bearer]
    exact Nat.min_le_right _ _
  have hlen := h.transportBytes_length noBearerReplyOption haddressLen hsubLen
  unfold FitsBuffer
  rw [constructTransportLayerMsg_eq noBearerReplyOption haddress hsub hbearer, hlen]
  constructor
  · rintro ⟨msg, hmsg, -⟩
    by_contra hlarge
    rw [if_neg hlarge] at hmsg
    cases hmsg
  · intro hfits
    rw [if_pos hfits]
    exact ⟨_, rfl, hlen.trans_le hfits⟩

/-- **Any record's message**, with any bearer length an `int` can be. -/
theorem messageFits_iff {m : CdmaSmsMessage} (h : m.IsRecord) (uBearerDataLen : ℤ)
    (noBearerReplyOption : Bool) :
    (m.withBearerDataLen uBearerDataLen).FitsBuffer noBearerReplyOption ↔
      (m.withBearerDataLen uBearerDataLen).clamped.transportSize noBearerReplyOption ≤
        maxCdmaSmsMsgSize :=
  (h.withBearerDataLen uBearerDataLen).fitsBuffer_iff noBearerReplyOption

theorem largest_isRecord : largest.IsRecord :=
  ⟨largest_valid.address.length, largest_valid.subAddress.length, largest_valid.length⟩

/-- As when all of it is there, but for the bearer reply option. -/
theorem messageFits_largest : (largest.withBearerDataLen 255).FitsBuffer true :=
  (messageFits_iff largest_isRecord 255 true).mpr (by decide)

/-- **With all of it the message is two bytes longer than the buffer.** -/
theorem not_messageFits_largest :
    largest.IsRecord ∧ ¬ (largest.withBearerDataLen 255).FitsBuffer false :=
  ⟨largest_isRecord, fun hfits => absurd
    (((largest_isRecord.withBearerDataLen 255).fitsBuffer_iff false).mp hfits) (by decide)⟩

end CdmaSmsMessage

/-! ## Parsing -/

namespace CBitwiseInputStream

/-- A stream over a whole value, at a position. -/
def at_ (value : List BYTE) (pos : ℕ) : CBitwiseInputStream := ⟨value, pos, 8 * value.length⟩

theorem ofBuf_eq (value : List BYTE) : ofBuf value = at_ value 0 := by
  unfold ofBuf at_
  rw [Nat.shiftLeft_eq]
  congr 1
  omega

variable {value : List BYTE} {bits : ℕ}

theorem read_at {pos : ℕ} (hpos : 1 ≤ bits) (hbits : bits ≤ 8)
    (hroom : pos + bits ≤ 8 * value.length) :
    (at_ value pos).read bits =
      some (BitVec.ofNat 8 (fieldAt value pos bits), at_ value (pos + bits)) := by
  rw [read_eq rfl hpos hbits,
    if_pos (show (at_ value pos).uPos + bits ≤ 8 * (at_ value pos).pbBuf.length from hroom)]
  rfl

theorem read_at_end {pos : ℕ} (hpos : 1 ≤ bits) (hbits : bits ≤ 8)
    (hroom : ¬ pos + bits ≤ 8 * value.length) :
    (at_ value pos).read bits = some (BitVec.ofNat 8 (fieldAt value pos bits), at_ value pos) := by
  rw [read_eq rfl hpos hbits,
    if_neg (show ¬ (at_ value pos).uPos + bits ≤ 8 * (at_ value pos).pbBuf.length from hroom)]
  rfl

theorem fieldAt_end {pos : ℕ} (hroom : ¬ pos + bits ≤ 8 * value.length) :
    fieldAt value pos bits = 0 := if_neg hroom

theorem ofNat_fieldAt (value : List BYTE) (pos : ℕ) (hbits : bits ≤ 8) :
    (BitVec.ofNat 8 (fieldAt value pos bits)).toNat = fieldAt value pos bits := by
  have hlt := fieldAt_lt value pos hbits
  rw [BitVec.toNat_ofNat]
  omega

/-- **A count and its digits**: they are read inside the value, and stay inside the array up to its
size. -/
theorem read_digits (pos : ℕ) (hpos : 1 ≤ bits) (hbits : bits ≤ 8) (digits : List BYTE) :
    ∃ s, (at_ value pos).read 8 = some (BitVec.ofNat 8 (fieldAt value pos 8), s) ∧
      ((s.readDigits bits (BitVec.ofNat 8 (fieldAt value pos 8)).toNat 0 digits).isSome ↔
        fieldAt value pos 8 ≤ digits.length) := by
  have hcount := ofNat_fieldAt value pos (Nat.le_refl 8)
  by_cases hroom : pos + 8 ≤ 8 * value.length
  · refine ⟨_, read_at (by decide) (by decide) hroom, ?_⟩
    rw [readDigits_isSome_iff rfl hpos hbits _ 0 (Nat.zero_le _), hcount, Nat.zero_add]
  · refine ⟨_, read_at_end (by decide) (by decide) hroom, ?_⟩
    rw [readDigits_isSome_iff rfl hpos hbits _ 0 (Nat.zero_le _), hcount, Nat.zero_add]

end CBitwiseInputStream

open CBitwiseInputStream (fieldAt at_ ofBuf_eq read_at read_at_end read_digits ofNat_fieldAt)

namespace CdmaSmsAddress

/-- **The number of digits an address announces**: the byte behind the modes, and behind the type
and the plan they call for. -/
def digitCount (value : List BYTE) : ℕ :=
  if fieldAt value 0 1 = 1 then
    if fieldAt value 1 1 = 1 then fieldAt value 5 8 else fieldAt value 9 8
  else fieldAt value 2 8

theorem ofNat_fieldAt_eq_one (value : List BYTE) (pos : ℕ) :
    BitVec.ofNat 8 (fieldAt value pos 1) = 1 ↔ fieldAt value pos 1 = 1 := by
  rw [BitVec.toNat_eq, ofNat_fieldAt value pos (by decide)]
  rfl

theorem digitMode_ofByte (value : List BYTE) :
    DigitMode.ofByte (BitVec.ofNat 8 (fieldAt value 0 1)) = .digitMode8Bit ↔
      fieldAt value 0 1 = 1 := by
  rw [← ofNat_fieldAt_eq_one]
  unfold DigitMode.ofByte
  split_ifs with h
  · exact iff_of_true rfl h
  · exact iff_of_false (by decide) h

theorem numberMode_ofByte (value : List BYTE) :
    NumberMode.ofByte (BitVec.ofNat 8 (fieldAt value 1 1)) = .notDataNetwork ↔
      fieldAt value 1 1 ≠ 1 := by
  rw [ne_eq, ← ofNat_fieldAt_eq_one]
  unfold NumberMode.ofByte
  split_ifs with h
  · exact iff_of_false (by decide) fun hne => hne h
  · exact iff_of_true rfl h

variable {value : List BYTE}

/-- The fields the modes call for are read, or are missing with the count behind them. -/
theorem parseModes_at (a : CdmaSmsAddress) (hlen : 1 ≤ value.length) :
    ∃ a' pos, a.parseModes (at_ value 2) = some (a', at_ value pos) ∧ a'.digits = a.digits ∧
      fieldAt value pos 8 =
        if a.digitMode = .digitMode8Bit then
          if a.numberMode = .notDataNetwork then fieldAt value 9 8 else fieldAt value 5 8
        else fieldAt value 2 8 := by
  unfold parseModes
  by_cases hdigit : a.digitMode = .digitMode8Bit
  · rw [if_pos hdigit, if_pos hdigit, read_at (by decide) (by decide) (by omega),
      bind_eq_bind, bind_some]
    dsimp only
    by_cases hnumber : a.numberMode = .notDataNetwork
    · rw [if_pos hnumber, if_pos hnumber]
      by_cases hplan : 2 + 3 + 4 ≤ 8 * value.length
      · rw [read_at (by decide) (by decide) hplan, bind_some]
        exact ⟨_, _, rfl, rfl, rfl⟩
      · rw [read_at_end (by decide) (by decide) hplan, bind_some]
        refine ⟨_, _, rfl, rfl, ?_⟩
        rw [CBitwiseInputStream.fieldAt_end (by omega), CBitwiseInputStream.fieldAt_end (by omega)]
    · rw [if_neg hnumber, if_neg hnumber]
      exact ⟨_, _, rfl, rfl, rfl⟩
  · rw [if_neg hdigit, if_neg hdigit]
    exact ⟨a, 2, rfl, rfl, rfl⟩

/-- **An address is parsed inside its array** exactly when it announces no more digits than that
has. -/
theorem parse_isSome_iff {a : CdmaSmsAddress} (hlen : 1 ≤ value.length)
    (ha : a.digits.length = cdmaSmsAddressMax) :
    (a.parse value).isSome ↔ digitCount value ≤ cdmaSmsAddressMax := by
  obtain ⟨a', pos, hmodes, hdigits, hcount⟩ := parseModes_at
    { a with digitMode := DigitMode.ofByte (BitVec.ofNat 8 (fieldAt value 0 1))
             numberMode := NumberMode.ofByte (BitVec.ofNat 8 (fieldAt value 1 1)) } hlen
  have hannounced : fieldAt value pos 8 = digitCount value := by
    unfold digitCount
    rw [hcount]
    simp only [digitMode_ofByte, numberMode_ofByte, ne_eq, ite_not]
  obtain ⟨s, hread, hsome⟩ := @read_digits value _ pos a'.digitMode.digitBits_pos
    a'.digitMode.digitBits_le a'.digits
  have hdigitMode : (at_ value 0).read 1 = some (BitVec.ofNat 8 (fieldAt value 0 1), at_ value 1) :=
    read_at (by decide) (by decide) (by omega)
  have hnumberMode :
      (at_ value 1).read 1 = some (BitVec.ofNat 8 (fieldAt value 1 1), at_ value 2) :=
    read_at (by decide) (by decide) (by omega)
  rw [← hannounced, ← ha, ← hdigits, ← hsome]
  simp only [parse, ofBuf_eq, hdigitMode, hnumberMode, hmodes, hread, bind_eq_bind,
    bind_some, isSome_bind, isSome_some, any_true]

/-- And the array keeps its size. -/
theorem parse_length {a a' : CdmaSmsAddress} (hlen : 1 ≤ value.length)
    (h : a.parse value = some a') :
    a'.digits.length = a.digits.length := by
  obtain ⟨a₁, pos, hmodes, hdigits, -⟩ := parseModes_at
    { a with digitMode := DigitMode.ofByte (BitVec.ofNat 8 (fieldAt value 0 1))
             numberMode := NumberMode.ofByte (BitVec.ofNat 8 (fieldAt value 1 1)) } hlen
  have hdigitMode : (at_ value 0).read 1 = some (BitVec.ofNat 8 (fieldAt value 0 1), at_ value 1) :=
    read_at (by decide) (by decide) (by omega)
  have hnumberMode :
      (at_ value 1).read 1 = some (BitVec.ofNat 8 (fieldAt value 1 1), at_ value 2) :=
    read_at (by decide) (by decide) (by omega)
  simp only [parse, ofBuf_eq, hdigitMode, hnumberMode, hmodes, bind_eq_bind, bind_some] at h
  obtain ⟨⟨count, s⟩, -, h⟩ := bind_eq_some_iff.mp h
  obtain ⟨⟨digits, s'⟩, hread, h⟩ := bind_eq_some_iff.mp h
  cases h
  exact (CBitwiseInputStream.readDigits_length hread).trans (congrArg List.length hdigits)

end CdmaSmsAddress

namespace CdmaSmsSubaddress

/-- **The number of digits a subaddress announces**, the byte behind its type and its odd bit. -/
def digitCount (value : List BYTE) : ℕ := fieldAt value 4 8

/-- **A subaddress is parsed inside its array** exactly when it announces no more digits than that
has. -/
theorem parse_isSome_iff {a : CdmaSmsSubaddress} {value : List BYTE} (hlen : 1 ≤ value.length)
    (ha : a.digits.length = cdmaSmsSubaddressMax) :
    (a.parse value).isSome ↔ digitCount value ≤ cdmaSmsSubaddressMax := by
  obtain ⟨s, hread, hsome⟩ := @read_digits value 8 4 (by decide) (by decide) a.digits
  have htype : (at_ value 0).read 3 = some (BitVec.ofNat 8 (fieldAt value 0 3), at_ value 3) :=
    read_at (by decide) (by decide) (by omega)
  have hodd : (at_ value 3).read 1 = some (BitVec.ofNat 8 (fieldAt value 3 1), at_ value 4) :=
    read_at (by decide) (by decide) (by omega)
  rw [digitCount, ← ha, ← hsome]
  simp only [parse, ofBuf_eq, htype, hodd, hread, bind_eq_bind, bind_some,
    isSome_bind, isSome_some, any_true]

theorem parse_length {a a' : CdmaSmsSubaddress} {value : List BYTE} (h : a.parse value = some a') :
    a'.digits.length = a.digits.length := by
  obtain ⟨⟨subaddressType, s⟩, -, h⟩ := bind_eq_some_iff.mp h
  obtain ⟨⟨odd, s₁⟩, -, h⟩ := bind_eq_some_iff.mp h
  obtain ⟨⟨count, s₂⟩, -, h⟩ := bind_eq_some_iff.mp h
  obtain ⟨⟨digits, s₃⟩, hread, h⟩ := bind_eq_some_iff.mp h
  cases h
  exact CBitwiseInputStream.readDigits_length hread

end CdmaSmsSubaddress

namespace CdmaSmsMessage

/-- **What a parameter has to meet**, of a message from its value on: an identifier or a category is
two bytes, whatever length it has, and an address or a subaddress announces no more digits than its
array has. -/
structure ParameterOk (parameterId : BYTE) (rest : List BYTE) (parameterLen : ℕ) : Prop where
  word : parameterId = 0x00 ∨ parameterId = 0x01 → 2 ≤ rest.length
  address : parameterId = 0x02 ∨ parameterId = 0x04 →
    CdmaSmsAddress.digitCount (rest.take parameterLen) ≤ cdmaSmsAddressMax
  subAddress : parameterId = 0x03 ∨ parameterId = 0x05 →
    CdmaSmsSubaddress.digitCount (rest.take parameterLen) ≤ cdmaSmsSubaddressMax

theorem wordBytes_isSome_iff (rest : List BYTE) (f : BYTE → BYTE → CdmaSmsMessage) :
    (do let high ← rest[0]?
        let low ← rest[1]?
        some (f high low) : Option CdmaSmsMessage).isSome ↔ 2 ≤ rest.length := by
  match rest with
  | [] => exact iff_of_false (by simp) (by simp)
  | [_] => exact iff_of_false (by simp) (by simp)
  | _ :: _ :: _ => exact iff_of_true rfl (by simp)

variable {m : CdmaSmsMessage} {rest : List BYTE} {parameterId : BYTE}

/-- **A parameter is parsed inside the message and the record** exactly then. -/
theorem IsRecord.parseParameter_isSome_iff (hm : m.IsRecord) (parameterId : BYTE) {parameterLen : ℕ}
    (hpos : 1 ≤ parameterLen) (hlen : parameterLen ≤ rest.length) (hbyte : parameterLen < 256) :
    (m.parseParameter parameterId rest parameterLen).isSome ↔
      ParameterOk parameterId rest parameterLen := by
  have hvalue : (rest.take parameterLen).length = parameterLen := by
    rw [List.length_take]
    omega
  have hone : 1 ≤ (rest.take parameterLen).length := by omega
  have haddress (tag : BYTE) (ht : tag = 0x02 ∨ tag = 0x04) :
      ((m.sAddress.parse (rest.take parameterLen)).bind
        fun sAddress => some { m with sAddress := sAddress }).isSome ↔
          ParameterOk tag rest parameterLen := by
    rw [isSome_bind]
    simp only [isSome_some, any_true]
    rw [CdmaSmsAddress.parse_isSome_iff hone hm.address]
    refine ⟨fun h => ⟨?_, fun _ => h, ?_⟩, fun h => h.address ht⟩
    · rcases ht with rfl | rfl <;> exact fun h => absurd h (by decide)
    · rcases ht with rfl | rfl <;> exact fun h => absurd h (by decide)
  have hsub (tag : BYTE) (ht : tag = 0x03 ∨ tag = 0x05) :
      ((m.sSubAddress.parse (rest.take parameterLen)).bind
        fun sSubAddress => some { m with sSubAddress := sSubAddress }).isSome ↔
          ParameterOk tag rest parameterLen := by
    rw [isSome_bind]
    simp only [isSome_some, any_true]
    rw [CdmaSmsSubaddress.parse_isSome_iff hone hm.subAddress]
    refine ⟨fun h => ⟨?_, ?_, fun _ => h⟩, fun h => h.subAddress ht⟩
    · rcases ht with rfl | rfl <;> exact fun h => absurd h (by decide)
    · rcases ht with rfl | rfl <;> exact fun h => absurd h (by decide)
  unfold parseParameter
  split
  · rw [wordBytes_isSome_iff]
    exact ⟨fun h => ⟨fun _ => h, fun h => absurd h (by decide), fun h => absurd h (by decide)⟩,
      fun h => h.word (Or.inl rfl)⟩
  · rw [wordBytes_isSome_iff]
    exact ⟨fun h => ⟨fun _ => h, fun h => absurd h (by decide), fun h => absurd h (by decide)⟩,
      fun h => h.word (Or.inr rfl)⟩
  · exact haddress _ (Or.inr rfl)
  · exact haddress _ (Or.inl rfl)
  · exact hsub _ (Or.inr rfl)
  · exact hsub _ (Or.inl rfl)
  · -- a length is a byte, and the bearer data has room for any
    have hroom : 0 + (rest.take parameterLen).length ≤ m.aBearerData.length := by
      rw [hm.bearer, hvalue]
      unfold cdmaSmsBearerDataMax
      omega
    obtain ⟨bytes, hstore, -⟩ := Block.store_of_le hroom
    rw [hstore]
    exact iff_of_true rfl ⟨fun h => absurd h (by decide), fun h => absurd h (by decide),
      fun h => absurd h (by decide)⟩
  · next h0 h1 h4 h2 h5 h3 _ =>
    refine iff_of_true rfl ⟨?_, ?_, ?_⟩
    · rintro (rfl | rfl)
      · exact absurd rfl h0
      · exact absurd rfl h1
    · rintro (rfl | rfl)
      · exact absurd rfl h2
      · exact absurd rfl h4
    · rintro (rfl | rfl)
      · exact absurd rfl h3
      · exact absurd rfl h5

/-- And the record's arrays keep their sizes. -/
theorem IsRecord.parseParameter {m' : CdmaSmsMessage} (hm : m.IsRecord) {parameterLen : ℕ}
    (hpos : 1 ≤ parameterLen) (hlen : parameterLen ≤ rest.length)
    (h : m.parseParameter parameterId rest parameterLen = some m') : m'.IsRecord := by
  have hone : 1 ≤ (rest.take parameterLen).length := by
    rw [List.length_take]
    omega
  unfold CdmaSmsMessage.parseParameter at h
  split at h
  · obtain ⟨high, -, h⟩ := bind_eq_some_iff.mp h
    obtain ⟨low, -, h⟩ := bind_eq_some_iff.mp h
    cases h
    exact ⟨hm.address, hm.subAddress, hm.bearer⟩
  · obtain ⟨high, -, h⟩ := bind_eq_some_iff.mp h
    obtain ⟨low, -, h⟩ := bind_eq_some_iff.mp h
    cases h
    exact ⟨hm.address, hm.subAddress, hm.bearer⟩
  iterate 2
    · obtain ⟨sAddress, hparse, h⟩ := bind_eq_some_iff.mp h
      cases h
      exact ⟨(CdmaSmsAddress.parse_length hone hparse).trans hm.address, hm.subAddress, hm.bearer⟩
  iterate 2
    · obtain ⟨sSubAddress, hparse, h⟩ := bind_eq_some_iff.mp h
      cases h
      exact ⟨hm.address, (CdmaSmsSubaddress.parse_length hparse).trans hm.subAddress, hm.bearer⟩
  · obtain ⟨aBearerData, hstore, h⟩ := bind_eq_some_iff.mp h
    cases h
    exact ⟨hm.address, hm.subAddress, (Block.store_length hstore).trans hm.bearer⟩
  · cases h
    exact hm

/-- The loop over the parameters of `msg` **comes to** `tail`. -/
inductive Comes : List BYTE → List BYTE → Prop where
  | here (msg : List BYTE) : Comes msg msg
  | skip {parameterId : BYTE} {rest tail : List BYTE} (hcomes : Comes rest tail) :
      Comes (parameterId :: 0 :: rest) tail
  | next {parameterId parameterLen : BYTE} {rest tail : List BYTE} (hne : parameterLen ≠ 0)
      (hinside : parameterLen.toNat ≤ rest.length)
      (hcomes : Comes (rest.drop parameterLen.toNat) tail) :
      Comes (parameterId :: parameterLen :: rest) tail

/-- And it comes there with the record `m'`. -/
inductive ComesWith : CdmaSmsMessage → List BYTE → CdmaSmsMessage → List BYTE → Prop where
  | here (m : CdmaSmsMessage) (msg : List BYTE) : ComesWith m msg m msg
  | skip {m m' : CdmaSmsMessage} {parameterId : BYTE} {rest tail : List BYTE}
      (hcomes : ComesWith m rest m' tail) : ComesWith m (parameterId :: 0 :: rest) m' tail
  | next {m m₁ m' : CdmaSmsMessage} {parameterId parameterLen : BYTE} {rest tail : List BYTE}
      (hne : parameterLen ≠ 0) (hinside : parameterLen.toNat ≤ rest.length)
      (hparse : m.parseParameter parameterId rest parameterLen.toNat = some m₁)
      (hcomes : ComesWith m₁ (rest.drop parameterLen.toNat) m' tail) :
      ComesWith m (parameterId :: parameterLen :: rest) m' tail

/-- **Every parameter** that lies inside the message meets what it has to. -/
def ParametersOk (msg : List BYTE) : Prop :=
  ∀ parameterId parameterLen rest, Comes msg (parameterId :: parameterLen :: rest) →
    parameterLen ≠ 0 → parameterLen.toNat ≤ rest.length →
      ParameterOk parameterId rest parameterLen.toNat

theorem comes_short {msg tail : List BYTE} (hshort : msg.length < 2) (h : Comes msg tail) :
    tail = msg := by
  cases h with
  | here => rfl
  | skip =>
    simp only [List.length_cons] at hshort
    omega
  | next =>
    simp only [List.length_cons] at hshort
    omega

theorem parametersOk_short {msg : List BYTE} (hshort : msg.length < 2) : ParametersOk msg := by
  intro parameterId parameterLen rest hcomes
  have htail := comes_short hshort hcomes
  rw [← htail, List.length_cons, List.length_cons] at hshort
  omega

theorem parametersOk_skip :
    ParametersOk (parameterId :: 0 :: rest) ↔ ParametersOk rest := by
  constructor
  · intro h id len tail hcomes
    exact h id len tail (Comes.skip hcomes)
  · intro h id len tail hcomes hne hinside
    cases hcomes with
    | here => exact absurd rfl hne
    | skip hcomes => exact h id len tail hcomes hne hinside
    | next hne' => exact absurd rfl hne'

theorem parametersOk_past {parameterLen : BYTE} (hne : parameterLen ≠ 0)
    (hpast : rest.length < parameterLen.toNat) :
    ParametersOk (parameterId :: parameterLen :: rest) := by
  intro id len tail hcomes _ hinside
  cases hcomes with
  | here => omega
  | skip => exact absurd rfl hne
  | next _ hinside' => omega

theorem parametersOk_next {parameterLen : BYTE} (hne : parameterLen ≠ 0)
    (hinside : parameterLen.toNat ≤ rest.length) :
    ParametersOk (parameterId :: parameterLen :: rest) ↔
      ParameterOk parameterId rest parameterLen.toNat ∧
        ParametersOk (rest.drop parameterLen.toNat) := by
  constructor
  · intro h
    exact ⟨h _ _ _ (Comes.here _) hne hinside, fun id len tail hcomes =>
      h id len tail (Comes.next hne hinside hcomes)⟩
  · rintro ⟨hok, h⟩ id len tail hcomes hne' hinside'
    cases hcomes with
    | here => exact hok
    | skip => exact absurd rfl hne
    | next _ _ hcomes => exact h id len tail hcomes hne' hinside'

/-- **The loop stays inside** the message and the record as long as each parameter does. -/
theorem IsRecord.parseLoop_isSome_iff (hm : m.IsRecord) (msg : List BYTE) :
    (m.parseLoop msg).isSome ↔ ParametersOk msg := by
  induction m, msg using parseLoop.induct with
  | case1 m parameterId rest ih =>
    rw [parseLoop, if_pos rfl, ih hm, parametersOk_skip]
  -- a parameter that ends behind the message ends the loop
  | case2 m parameterId parameterLen rest hne hpast =>
    rw [parseLoop, if_neg hne, if_pos hpast]
    exact iff_of_true rfl (parametersOk_past hne hpast)
  | case3 m parameterId parameterLen rest hne hinside ih =>
    have hpos : 1 ≤ parameterLen.toNat := by
      have hzero : parameterLen.toNat ≠ 0 := fun h => hne (BitVec.eq_of_toNat_eq h)
      omega
    have hin := Nat.not_lt.mp hinside
    have hstep := hm.parseParameter_isSome_iff parameterId hpos hin parameterLen.isLt
    rw [parseLoop, if_neg hne, if_neg hinside, parametersOk_next hne hin, ← hstep]
    rcases hparse : m.parseParameter parameterId rest parameterLen.toNat with _ | m₁
    · exact iff_of_false (by simp) (by simp)
    · have hm₁ := hm.parseParameter hpos hin hparse
      rw [bind_eq_bind, bind_some, ih m₁ hm₁]
      exact (and_iff_right rfl).symm
  | case4 m msg hshort =>
    have hlen : msg.length < 2 := by
      rcases msg with _ | ⟨id, _ | ⟨len, rest⟩⟩
      · decide
      · exact Nat.lt_succ_self _
      · exact absurd rfl (hshort id len rest)
    have hstop : m.parseLoop msg = some m := by
      rcases msg with _ | ⟨id, _ | ⟨len, rest⟩⟩
      · rw [parseLoop]
        simp
      · rw [parseLoop]
        simp
      · exact absurd rfl (hshort id len rest)
    rw [hstop]
    exact iff_of_true rfl (parametersOk_short hlen)

theorem ComesWith.parseLoop_eq {m' : CdmaSmsMessage} {msg tail : List BYTE}
    (h : ComesWith m msg m' tail) : m.parseLoop msg = m'.parseLoop tail := by
  induction h with
  | here => rfl
  | skip _ ih => rw [parseLoop, if_pos rfl, ih]
  | next hne hinside hparse _ ih =>
    rw [parseLoop, if_neg hne, if_neg (Nat.not_lt.mpr hinside), hparse, bind_eq_bind, bind_some, ih]

/-- **The message is decoded safely**: everything is read inside it and written inside the record's
arrays, and the record is as it was at a parameter whose length runs past the end. -/
def DecodesSafely (transportType : BYTE) (msg : List BYTE) : Prop :=
  ∃ record, constructRilCdmaSmsMsg (transportType :: msg) = some record ∧
    ∀ m parameterId parameterLen rest, transportType = 0x00 ∨ transportType = 0x01 →
      ComesWith zero msg m (parameterId :: parameterLen :: rest) →
        rest.length < parameterLen.toNat → record = m

theorem zero_isRecord : zero.IsRecord :=
  ⟨List.length_replicate, List.length_replicate, List.length_replicate⟩

/-- **Any message**, of any type and length. -/
theorem decodesSafely_iff_parametersOk (transportType : BYTE) (msg : List BYTE) :
    DecodesSafely transportType msg ↔
      (transportType = 0x00 ∨ transportType = 0x01 → ParametersOk msg) := by
  by_cases htype : transportType ≠ 0x00 ∧ transportType ≠ 0x01
  · have hnot : ¬ (transportType = 0x00 ∨ transportType = 0x01) := not_or.mpr htype
    refine iff_of_true ⟨zero, if_pos htype, ?_⟩ fun h => absurd h hnot
    intro m parameterId parameterLen rest h
    exact absurd h hnot
  · have hparse : constructRilCdmaSmsMsg (transportType :: msg) = zero.parseLoop msg :=
      if_neg htype
    have hknown : transportType = 0x00 ∨ transportType = 0x01 := by
      by_contra h
      exact htype (not_or.mp h)
    rw [DecodesSafely, hparse, ← zero_isRecord.parseLoop_isSome_iff]
    constructor
    · rintro ⟨record, hrecord, -⟩ _
      exact isSome_iff_exists.mpr ⟨record, hrecord⟩
    · intro hsome
      obtain ⟨record, hrecord⟩ := isSome_iff_exists.mp (hsome hknown)
      refine ⟨record, hrecord, ?_⟩
      intro m parameterId parameterLen rest _ hcomes hpast
      have hne : parameterLen ≠ 0 := by
        rintro rfl
        exact absurd hpast (by simp)
      have hstop : zero.parseLoop msg = some m := by
        rw [hcomes.parseLoop_eq, parseLoop, if_neg hne, if_pos hpast]
      exact some.inj (hrecord.symm.trans hstop)

/-- **One byte of teleservice identifier at the end**: the one behind the message is read. -/
theorem not_decodesSafely_teleservice : ¬ DecodesSafely 0x00 [0x00, 0x01, 0x10] := by
  rintro ⟨record, hrecord, -⟩
  have hparse : zero.parseLoop [0x00, 0x01, 0x10] = some record := hrecord
  have hok := (zero_isRecord.parseLoop_isSome_iff _).mp (by rw [hparse]; rfl) 0x00 0x01 [0x10]
    (Comes.here _) (by decide) (by decide)
  exact absurd (hok.word (Or.inl rfl)) (by decide)

end CdmaSmsMessage

end ExynosVendor.Ril
