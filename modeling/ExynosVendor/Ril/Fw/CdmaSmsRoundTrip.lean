import ExynosVendor.Ril.Fw.CdmaSmsData

/-!
# The round trip of a CDMA short message

Each address is written as the bits the parser takes off again, and the
message is its parameters one behind the other, so parsing finds them
all. What can go wrong is the size: the largest message is two bytes
longer than the buffer it is put together in. `roundTrips_iff` is the
exact condition.
-/

namespace ExynosVendor.Ril

open BitStream (field Holds)
open List Option

namespace DigitMode

theorem ofByte_toByte (m : DigitMode) : ofByte m.toByte = m := by
  cases m <;> rfl

theorem toByte_lt (m : DigitMode) : m.toByte.toNat < 2 ^ 1 := by
  cases m <;> decide

theorem digitBits_pos (m : DigitMode) : 1 ≤ m.digitBits := by
  cases m <;> decide

theorem digitBits_le (m : DigitMode) : m.digitBits ≤ 8 := by
  cases m <;> decide

end DigitMode

namespace NumberMode

theorem ofByte_toByte (m : NumberMode) : ofByte m.toByte = m := by
  cases m <;> rfl

theorem toByte_lt (m : NumberMode) : m.toByte.toNat < 2 ^ 1 := by
  cases m <;> decide

end NumberMode

/-! ## Addresses -/

namespace CdmaSmsAddress

/-- **A valid address**: an array of 36 digits of which at most that many
are used, and every value in the range of its field. -/
structure Valid (a : CdmaSmsAddress) : Prop where
  /-- The array's size. -/
  length : a.digits.length = cdmaSmsAddressMax
  /-- The digits used. -/
  count : a.numberOfDigits.toNat ≤ cdmaSmsAddressMax
  /-- Each fits its field. -/
  digit : ∀ d ∈ a.digits.take a.numberOfDigits.toNat, d.toNat < 2 ^ a.digitMode.digitBits
  /-- The number type is below 8. -/
  type : a.numberType.toNat < 2 ^ 3
  /-- The number plan is below 16. -/
  plan : a.numberPlan.toNat < 2 ^ 4

/-- The digits in use. -/
def used (a : CdmaSmsAddress) : List BYTE :=
  a.digits.take a.numberOfDigits.toNat

/-- The bits that depend on the modes. -/
def modeBits (a : CdmaSmsAddress) : List Bool :=
  if a.digitMode = .digitMode8Bit then
    field 3 a.numberType ++ if a.numberMode = .notDataNetwork then field 4 a.numberPlan else []
  else []

/-- The bits of an address. -/
def bits (a : CdmaSmsAddress) : List Bool :=
  field 1 a.digitMode.toByte ++ (field 1 a.numberMode.toByte ++ (a.modeBits ++
    (field 8 a.numberOfDigits ++ a.used.flatMap (field a.digitMode.digitBits))))

/-- The bits the modes call for. -/
def modeLength (a : CdmaSmsAddress) : ℕ :=
  if a.digitMode = .digitMode8Bit then if a.numberMode = .notDataNetwork then 7 else 3 else 0

/-- The size of the address parameter in bytes. -/
def size (a : CdmaSmsAddress) : ℕ :=
  (10 + a.modeLength + a.digitMode.digitBits * a.numberOfDigits.toNat) / 8 + 1

theorem modeBits_length (a : CdmaSmsAddress) : a.modeBits.length = a.modeLength := by
  unfold modeBits modeLength
  split_ifs <;> simp

theorem modeLength_le (a : CdmaSmsAddress) : a.modeLength ≤ 7 := by
  unfold modeLength
  split_ifs <;> omega

theorem flatMap_field_length (ds : List BYTE) (n : ℕ) :
    (ds.flatMap (field n)).length = n * ds.length := by
  induction ds with
  | nil => rfl
  | cons d ds ih =>
      rw [flatMap_cons, length_append, ih, BitStream.field_length, length_cons,
        Nat.mul_succ, Nat.add_comm]

/-- **The sizes** a valid address has: of its array, and of what is used of it. -/
structure Sized (a : CdmaSmsAddress) : Prop where
  /-- The array's size. -/
  length : a.digits.length = cdmaSmsAddressMax
  /-- The digits used. -/
  count : a.numberOfDigits.toNat ≤ cdmaSmsAddressMax

variable {a : CdmaSmsAddress}

theorem Valid.sized (h : a.Valid) : a.Sized := ⟨h.length, h.count⟩

theorem Sized.used_length (h : a.Sized) :
    a.used.length = a.numberOfDigits.toNat := by
  rw [used, length_take, h.length]
  exact Nat.min_eq_left h.count

theorem Sized.bits_length (h : a.Sized) :
    a.bits.length = 10 + a.modeLength + a.digitMode.digitBits * a.numberOfDigits.toNat := by
  simp only [bits, length_append, BitStream.field_length, flatMap_field_length,
    modeBits_length, h.used_length]
  omega

theorem Sized.size_eq (h : a.Sized) : a.size = a.bits.length / 8 + 1 := by
  rw [size, h.bits_length]

theorem Sized.bits_length_le (h : a.Sized) : a.bits.length ≤ 305 := by
  have hmode := a.modeLength_le
  have hdigits : a.digitMode.digitBits * a.numberOfDigits.toNat ≤ 8 * 36 :=
    Nat.mul_le_mul a.digitMode.digitBits_le h.count
  rw [h.bits_length]
  omega

/-- The mode fields are appended. -/
theorem constructModes_eq {s : CBitwiseOutputStream} {w : List Bool} (hs : s.Writing w)
    (hroom : w.length + 7 ≤ 8 * s.pbBuf.length) :
    ∃ s', a.constructModes s = some s' ∧ s'.Writing (w ++ a.modeBits) ∧
      s'.pbBuf.length = s.pbBuf.length := by
  by_cases hdigit : a.digitMode = .digitMode8Bit
  · obtain ⟨s₁, hwrite₁, hs₁, hlen₁⟩ := hs.write a.numberType (by decide : 1 ≤ 3) (by decide)
      (by omega)
    by_cases hnumber : a.numberMode = .notDataNetwork
    · obtain ⟨s₂, hwrite₂, hs₂, hlen₂⟩ := hs₁.write a.numberPlan (by decide : 1 ≤ 4) (by decide)
        (by rw [length_append, BitStream.field_length, hlen₁]; omega)
      refine ⟨s₂, ?_, ?_, hlen₂.trans hlen₁⟩
      · simp only [constructModes, if_pos hdigit, hwrite₁, bind_eq_bind, bind_some, if_pos hnumber,
          hwrite₂]
      · rw [modeBits, if_pos hdigit, if_pos hnumber, ← append_assoc]
        exact hs₂
    · refine ⟨s₁, ?_, ?_, hlen₁⟩
      · simp only [constructModes, if_pos hdigit, hwrite₁, bind_eq_bind, bind_some, if_neg hnumber]
      · rw [modeBits, if_pos hdigit, if_neg hnumber, append_nil]
        exact hs₁
  · refine ⟨s, if_neg hdigit, ?_, rfl⟩
    rw [modeBits, if_neg hdigit, append_nil]
    exact hs

/-- **The address parameter holds the bits of the address.** -/
theorem construct_eq (h : a.Sized) :
    ∃ bytes, a.construct = some bytes ∧ Holds bytes a.bits ∧ bytes.length = a.size := by
  have hcount := h.count
  have hmode := a.modeLength_le
  have hmin : min a.numberOfDigits.toNat cdmaSmsAddressMax = a.numberOfDigits.toNat :=
    Nat.min_eq_left hcount
  have hload : 0 + a.numberOfDigits.toNat ≤ a.digits.length := by
    rw [h.length]
    omega
  have hused : (a.digits.drop 0).take a.numberOfDigits.toNat = a.used := rfl
  have hofNat : BitVec.ofNat 8 a.numberOfDigits.toNat = a.numberOfDigits :=
    BitVec.eq_of_toNat_eq (by simp)
  have hbits := h.bits_length_le
  have h₀ := CBitwiseOutputStream.ofBuf_writing (cdmaSmsAddressMax + 3)
  have hlen₀ : (CBitwiseOutputStream.ofBuf
      (List.replicate (cdmaSmsAddressMax + 3) 0)).pbBuf.length = 39 := rfl
  obtain ⟨s₁, hw₁, h₁, hlen₁⟩ := h₀.write a.digitMode.toByte (by decide : 1 ≤ 1) (by decide)
    (by rw [hlen₀]; decide)
  rw [hlen₀] at hlen₁
  obtain ⟨s₂, hw₂, h₂, hlen₂⟩ := h₁.write a.numberMode.toByte (by decide : 1 ≤ 1) (by decide)
    (by rw [hlen₁]; simp)
  rw [hlen₁] at hlen₂
  obtain ⟨s₃, hw₃, h₃, hlen₃⟩ := constructModes_eq (a := a) h₂ (by rw [hlen₂]; simp)
  rw [hlen₂] at hlen₃
  obtain ⟨s₄, hw₄, h₄, hlen₄⟩ := h₃.write a.numberOfDigits (by decide : 1 ≤ 8) (by decide)
    (by
      simp only [length_append, length_nil, BitStream.field_length, modeBits_length, hlen₃]
      omega)
  rw [hlen₃] at hlen₄
  obtain ⟨s₅, hw₅, h₅, hlen₅⟩ := h₄.writeDigits a.used a.digitMode.digitBits_pos
    a.digitMode.digitBits_le (by
      rw [h.bits_length] at hbits
      simp only [length_append, length_nil, BitStream.field_length, modeBits_length,
        h.used_length, hlen₄]
      omega)
  rw [hlen₄] at hlen₅
  have hwritten : s₅.Writing a.bits := by
    simpa only [bits, nil_append, append_assoc] using h₅
  have hindex : s₅.getArrayIndex + 1 = a.size := by
    rw [CBitwiseOutputStream.getArrayIndex, hwritten.pos, Nat.shiftRight_eq_div_pow, h.size_eq]
  have hsize : 0 + a.size ≤ s₅.pbBuf.length := by
    rw [h.size_eq, hlen₅]
    omega
  refine ⟨(s₅.pbBuf.drop 0).take a.size, ?_, ?_, ?_⟩
  · simp only [construct, hmin, hofNat, hw₁, hw₂, hw₃, hw₄, Block.load_of_le hload, hused, hw₅,
      hindex, Block.load_of_le hsize, bind_eq_bind, bind_some]
  · exact hwritten.holds.take (by rw [h.size_eq]; omega)
  · rw [length_take, length_drop]
    omega

/-- **The same address**: the same modes, the type and the plan where the
modes encode them, and the same digits. -/
structure Same (a b : CdmaSmsAddress) : Prop where
  /-- The digit mode. -/
  digitMode : a.digitMode = b.digitMode
  /-- The number mode. -/
  numberMode : a.numberMode = b.numberMode
  /-- The number type, in 8-bit mode. -/
  type : a.digitMode = .digitMode8Bit → a.numberType = b.numberType
  /-- The number plan, in 8-bit mode and outside a data network. -/
  plan : a.digitMode = .digitMode8Bit → a.numberMode = .notDataNetwork →
    a.numberPlan = b.numberPlan
  /-- The digit count. -/
  count : a.numberOfDigits = b.numberOfDigits
  /-- The digits. -/
  used : a.used = b.used

/-- The mode fields are taken off. -/
theorem parseModes_eq {b : CdmaSmsAddress} {s : CBitwiseInputStream} {w : List Bool} (h : a.Valid)
    (hdigitMode : b.digitMode = a.digitMode) (hnumberMode : b.numberMode = a.numberMode)
    (hs : s.Reading (a.modeBits ++ w)) :
    ∃ c s', b.parseModes s = some (c, s') ∧ s'.Reading w ∧
      c.digitMode = a.digitMode ∧ c.numberMode = a.numberMode ∧ c.digits = b.digits ∧
      (a.digitMode = .digitMode8Bit → a.numberType = c.numberType) ∧
      (a.digitMode = .digitMode8Bit → a.numberMode = .notDataNetwork →
        a.numberPlan = c.numberPlan) := by
  by_cases hdigit : a.digitMode = .digitMode8Bit
  · rw [modeBits, if_pos hdigit, append_assoc] at hs
    obtain ⟨s₁, hread₁, hs₁⟩ := hs.read (by decide) (by decide) h.type
    by_cases hnumber : a.numberMode = .notDataNetwork
    · rw [if_pos hnumber] at hs₁
      obtain ⟨s₂, hread₂, hs₂⟩ := hs₁.read (by decide) (by decide) h.plan
      refine ⟨{ b with numberType := a.numberType, numberPlan := a.numberPlan }, s₂, ?_, hs₂,
        hdigitMode, hnumberMode, rfl, fun _ => rfl, fun _ _ => rfl⟩
      simp only [parseModes, hdigitMode, if_pos hdigit, hread₁, bind_eq_bind,
        bind_some, hnumberMode, if_pos hnumber, hread₂]
    · rw [if_neg hnumber, nil_append] at hs₁
      refine ⟨{ b with numberType := a.numberType }, s₁, ?_, hs₁, hdigitMode, hnumberMode, rfl,
        fun _ => rfl, fun _ hyes => absurd hyes hnumber⟩
      simp only [parseModes, hdigitMode, if_pos hdigit, hread₁, bind_eq_bind,
        bind_some, hnumberMode, if_neg hnumber]
  · rw [modeBits, if_neg hdigit, nil_append] at hs
    refine ⟨b, s, ?_, hs, hdigitMode, hnumberMode, rfl, fun hyes => absurd hyes hdigit,
      fun hyes => absurd hyes hdigit⟩
    rw [parseModes, hdigitMode, if_neg hdigit]

/-- **What holds the bits of an address is parsed to the address**, into
any record with room for its digits. -/
theorem parse_eq {b : CdmaSmsAddress} {bytes : List BYTE} (h : a.Valid)
    (hb : b.digits.length = cdmaSmsAddressMax) (hbytes : Holds bytes a.bits)
    (hlen : bytes.length = a.size) : ∃ c, b.parse bytes = some c ∧ a.Same c := by
  have hread := CBitwiseInputStream.ofBuf_reading hbytes (by rw [hlen, h.sized.size_eq]; omega)
  have hcount := h.count
  rw [bits] at hread
  obtain ⟨s₁, hread₁, hs₁⟩ := hread.read (by decide) (by decide) a.digitMode.toByte_lt
  obtain ⟨s₂, hread₂, hs₂⟩ := hs₁.read (by decide) (by decide) a.numberMode.toByte_lt
  obtain ⟨c, s₃, hmodes, hs₃, hdigitMode, hnumberMode, hdigits, htype, hplan⟩ :=
    parseModes_eq (b := { b with digitMode := a.digitMode, numberMode := a.numberMode }) h rfl rfl
      hs₂
  obtain ⟨s₄, hread₄, hs₄⟩ := hs₃.read (by decide) (by decide) a.numberOfDigits.isLt
  rw [← append_nil (a.used.flatMap _)] at hs₄
  obtain ⟨s₅, hread₅, -⟩ := hs₄.readDigits a.digitMode.digitBits_pos a.digitMode.digitBits_le
    h.digit [] c.digits (by rw [h.sized.used_length, hdigits]; simp only [hb]; exact hcount)
  rw [h.sized.used_length, nil_append, nil_append, length_nil] at hread₅
  refine ⟨{ c with numberOfDigits := a.numberOfDigits
                   digits := a.used ++ c.digits.drop a.numberOfDigits.toNat },
    ?_, hdigitMode.symm, hnumberMode.symm, htype, hplan, rfl, ?_⟩
  · simp only [parse, hread₁, hread₂, DigitMode.ofByte_toByte, NumberMode.ofByte_toByte, hmodes,
      hread₄, hdigitMode, hread₅, bind_eq_bind, bind_some]
  · have htake : (a.used ++ c.digits.drop a.numberOfDigits.toNat).take a.numberOfDigits.toNat =
        a.used := take_left' h.sized.used_length
    exact htake.symm

end CdmaSmsAddress

/-! ## Subaddresses -/

/-- A field has only the low bits of its byte. -/
theorem field_and_low (n : ℕ) (b : BYTE) :
    field n (b &&& BitVec.ofNat 8 (2 ^ n - 1)) = field n b := by
  apply map_congr_left
  intro j hj
  have hlt : n - 1 - j < n := by
    rw [mem_range] at hj
    omega
  rw [BitVec.getLsbD_and, BitVec.getLsbD_ofNat, Nat.testBit_two_pow_sub_one, decide_eq_true hlt,
    Bool.and_true]
  by_cases h8 : n - 1 - j < 8
  · simp [h8]
  · rw [BitVec.getLsbD_of_ge _ _ (by omega)]
    rfl

namespace CdmaSmsSubaddress

/-- **A valid subaddress**: an array of 36 digits of which at most that
many are used. -/
structure Valid (a : CdmaSmsSubaddress) : Prop where
  /-- The array's size. -/
  length : a.digits.length = cdmaSmsSubaddressMax
  /-- The digits used. -/
  count : a.numberOfDigits.toNat ≤ cdmaSmsSubaddressMax

/-- The digits in use. -/
def used (a : CdmaSmsSubaddress) : List BYTE :=
  a.digits.take a.numberOfDigits.toNat

/-- The bits of a subaddress. -/
def bits (a : CdmaSmsSubaddress) : List Bool :=
  field 3 a.subaddressType ++ (field 1 a.odd ++ (field 8 a.numberOfDigits ++
    a.used.flatMap (field 8)))

/-- The size of the subaddress parameter in bytes. -/
def size (a : CdmaSmsSubaddress) : ℕ :=
  (12 + 8 * a.numberOfDigits.toNat) / 8 + 1

variable {a : CdmaSmsSubaddress}

theorem Valid.digitLen_eq (h : a.Valid) :
    a.digitLen = a.numberOfDigits.toNat :=
  Nat.min_eq_left h.count

theorem Valid.used_length (h : a.Valid) :
    a.used.length = a.numberOfDigits.toNat := by
  rw [used, length_take, h.length]
  exact Nat.min_eq_left h.count

theorem Valid.bits_length (h : a.Valid) :
    a.bits.length = 12 + 8 * a.numberOfDigits.toNat := by
  simp only [bits, length_append, BitStream.field_length, CdmaSmsAddress.flatMap_field_length,
    h.used_length]
  omega

/-- **The subaddress parameter holds the bits of the subaddress.** -/
theorem construct_eq (h : a.Valid) :
    ∃ bytes, a.construct = some bytes ∧ Holds bytes a.bits ∧ bytes.length = a.size := by
  have hcount := h.count
  have hbits := h.bits_length
  rw [cdmaSmsSubaddressMax] at hcount
  have hload : 0 + a.numberOfDigits.toNat ≤ a.digits.length := by
    rw [h.length, cdmaSmsSubaddressMax]
    omega
  have hused : (a.digits.drop 0).take a.numberOfDigits.toNat = a.used := rfl
  have hofNat : BitVec.ofNat 8 a.numberOfDigits.toNat = a.numberOfDigits :=
    BitVec.eq_of_toNat_eq (by simp)
  have h₀ := CBitwiseOutputStream.ofBuf_writing (cdmaSmsSubaddressMax + 2)
  have hlen₀ : (CBitwiseOutputStream.ofBuf
      (List.replicate (cdmaSmsSubaddressMax + 2) 0)).pbBuf.length = 38 := rfl
  obtain ⟨s₁, hw₁, h₁, hlen₁⟩ := h₀.write a.subaddressType (by decide : 1 ≤ 3) (by decide)
    (by rw [hlen₀]; decide)
  rw [hlen₀] at hlen₁
  obtain ⟨s₂, hw₂, h₂, hlen₂⟩ := h₁.write a.odd (by decide : 1 ≤ 1) (by decide)
    (by rw [hlen₁]; simp)
  rw [hlen₁] at hlen₂
  obtain ⟨s₃, hw₃, h₃, hlen₃⟩ := h₂.write a.numberOfDigits (by decide : 1 ≤ 8) (by decide)
    (by rw [hlen₂]; simp)
  rw [hlen₂] at hlen₃
  obtain ⟨s₄, hw₄, h₄, hlen₄⟩ := h₃.writeDigits a.used (by decide : 1 ≤ 8) (by decide) (by
    simp only [length_append, length_nil, BitStream.field_length, h.used_length, hlen₃]
    omega)
  rw [hlen₃] at hlen₄
  have hwritten : s₄.Writing a.bits := by
    simpa only [bits, nil_append, append_assoc] using h₄
  have hindex : s₄.getArrayIndex + 1 = a.size := by
    rw [CBitwiseOutputStream.getArrayIndex, hwritten.pos, Nat.shiftRight_eq_div_pow, size, hbits]
  have hsize : 0 + a.size ≤ s₄.pbBuf.length := by
    rw [size, hlen₄]
    omega
  refine ⟨(s₄.pbBuf.drop 0).take a.size, ?_, ?_, ?_⟩
  · simp only [construct, h.digitLen_eq, hofNat, hw₁, hw₂, hw₃, Block.load_of_le hload, hused, hw₄,
      hindex, Block.load_of_le hsize, bind_eq_bind, bind_some]
  · exact hwritten.holds.take (by rw [size, hbits]; omega)
  · rw [length_take, length_drop]
    omega

/-- **What holds the bits of a subaddress is parsed to it**, but for the
bits of its type and of its flag that the fields have no room for. -/
theorem parse_eq {b : CdmaSmsSubaddress} {bytes : List BYTE} (h : a.Valid)
    (hb : b.digits.length = cdmaSmsSubaddressMax) (hbytes : Holds bytes a.bits)
    (hlen : bytes.length = a.size) :
    ∃ c, b.parse bytes = some c ∧ c.subaddressType = a.subaddressType &&& 7 ∧
      c.odd = a.odd &&& 1 ∧ c.numberOfDigits = a.numberOfDigits ∧ c.used = a.used := by
  have hread := CBitwiseInputStream.ofBuf_reading hbytes
    (by rw [hlen, size, h.bits_length]; omega)
  have htype : (a.subaddressType &&& 7).toNat < 2 ^ 3 := by
    rw [BitVec.toNat_and]
    exact Nat.lt_succ_of_le Nat.and_le_right
  have hodd : (a.odd &&& 1).toNat < 2 ^ 1 := by
    rw [BitVec.toNat_and]
    exact Nat.lt_succ_of_le Nat.and_le_right
  have hdigits : ∀ d ∈ a.used, d.toNat < 2 ^ 8 := fun d _ => d.isLt
  rw [bits, ← field_and_low 3 a.subaddressType, ← field_and_low 1 a.odd] at hread
  obtain ⟨s₁, hread₁, hs₁⟩ := hread.read (by decide) (by decide) htype
  obtain ⟨s₂, hread₂, hs₂⟩ := hs₁.read (by decide) (by decide) hodd
  obtain ⟨s₃, hread₃, hs₃⟩ := hs₂.read (by decide) (by decide) a.numberOfDigits.isLt
  rw [← append_nil (a.used.flatMap _)] at hs₃
  obtain ⟨s₄, hread₄, -⟩ := hs₃.readDigits (by decide) (by decide) hdigits [] b.digits
    (by rw [h.used_length, hb]; exact h.count)
  rw [h.used_length, nil_append, nil_append, length_nil] at hread₄
  refine ⟨⟨a.subaddressType &&& 7, a.odd &&& 1, a.numberOfDigits,
    a.used ++ b.digits.drop a.numberOfDigits.toNat⟩, ?_, rfl, rfl, rfl, ?_⟩
  · simp only [parse, hread₁, hread₂, hread₃, hread₄, bind_eq_bind, bind_some]
    rfl
  · exact take_left' h.used_length

end CdmaSmsSubaddress

/-! ## The message put together -/

/-- The bytes of a parameter. -/
def parameter (parameterId : BYTE) (bytes : List BYTE) : List BYTE :=
  parameterId :: BitVec.ofNat 8 bytes.length :: bytes

/-- Where `msg` and `index` stand when `p` has been emitted, or nowhere
when it did not fit. -/
def soFar (p : List BYTE) : Option (List BYTE × ℕ) :=
  if p.length ≤ maxCdmaSmsMsgSize then
    some (p ++ List.replicate (maxCdmaSmsMsgSize - p.length) 0, p.length)
  else none

theorem soFar_nil : soFar [] = some (List.replicate maxCdmaSmsMsgSize 0, 0) := by
  simp [soFar]

theorem bind_emitBytes (p bytes : List BYTE) :
    (soFar p).bind (fun w => emitBytes w bytes) = soFar (p ++ bytes) := by
  by_cases hp : p.length ≤ maxCdmaSmsMsgSize
  · rw [soFar, if_pos hp, bind_some, emitBytes]
    by_cases hfit : bytes.length ≤ maxCdmaSmsMsgSize - p.length
    · have hle : (p ++ bytes).length ≤ maxCdmaSmsMsgSize := by
        rw [length_append]
        omega
      have hroom : bytes.length ≤
          (List.replicate (maxCdmaSmsMsgSize - p.length) (0 : BYTE)).length := by
        rw [length_replicate]
        exact hfit
      rw [soFar, if_pos hle, Block.store_behind hroom, bind_eq_bind, bind_some,
        drop_replicate, length_append, Nat.sub_sub]
    · have hlong : ¬ (p ++ bytes).length ≤ maxCdmaSmsMsgSize := by
        rw [length_append]
        omega
      have hover : (p ++ List.replicate (maxCdmaSmsMsgSize - p.length) (0 : BYTE)).length <
          p.length + bytes.length := by
        rw [length_append, length_replicate]
        omega
      rw [soFar, if_neg hlong, Block.store_eq_none hover]
      rfl
  · have hlong : ¬ (p ++ bytes).length ≤ maxCdmaSmsMsgSize := by
      rw [length_append]
      omega
    rw [soFar, if_neg hp, soFar, if_neg hlong]
    rfl

/-- **A parameter is emitted behind what is there.** -/
theorem bind_emitParameter (p : List BYTE) (parameterId : BYTE) (bytes : List BYTE) :
    (soFar p).bind (fun w => emitParameter w parameterId bytes) =
      soFar (p ++ parameter parameterId bytes) := by
  have hsplit : p ++ parameter parameterId bytes =
      p ++ [parameterId, BitVec.ofNat 8 bytes.length] ++ bytes := by
    simp [parameter]
  rw [hsplit, ← bind_emitBytes, ← bind_emitBytes, bind_assoc]
  rfl

theorem bind_step {β : Type} {p q : List BYTE} {g : List BYTE × ℕ → Option (List BYTE × ℕ)}
    (hg : (soFar p).bind g = soFar q) (f : List BYTE × ℕ → Option β) :
    ((soFar p).bind fun w => (g w).bind f) = (soFar q).bind f := by
  rw [← hg, bind_assoc]

theorem bind_optional (p : List BYTE) (c : Prop) [Decidable c] (parameterId : BYTE)
    (bytes : List BYTE) :
    ((soFar p).bind fun w => if c then emitParameter w parameterId bytes else some w) =
      soFar (p ++ if c then parameter parameterId bytes else []) := by
  by_cases hc : c
  · simp only [if_pos hc]
    exact bind_emitParameter p parameterId bytes
  · simp only [if_neg hc, append_nil, bind_fun_some]

theorem bind_load (p : List BYTE) :
    ((soFar p).bind fun w => Block.load w.1 0 w.2) =
      if p.length ≤ maxCdmaSmsMsgSize then some p else none := by
  rw [soFar]
  split
  · exact Block.load_front _ _
  · rfl

namespace CdmaSmsMessage

/-- The bytes of a transport layer message with these addresses. -/
def transportBytes (m : CdmaSmsMessage) (noBearerReplyOption : Bool)
    (address subAddress : List BYTE) : List BYTE :=
  [0x00] ++ parameter 0x00 (wordBytesOf m.uTeleserviceID) ++
    (if m.uServicecategory ≠ 0 then parameter 0x01 (wordBytesOf m.uServicecategory) else []) ++
    parameter (m.direction 0x04 0x02) address ++
    (if m.sSubAddress.digitLen ≠ 0 then parameter (m.direction 0x05 0x03) subAddress else []) ++
    (if ! noBearerReplyOption then parameter 0x06 [0x00] else []) ++
    parameter 0x08 (m.aBearerData.take m.bearerLen)

variable {m : CdmaSmsMessage}

/-- **The message is its parameters one behind the other**, if they fit
the buffer. -/
theorem constructTransportLayerMsg_eq (noBearerReplyOption : Bool) {address subAddress : List BYTE}
    (haddress : m.sAddress.construct = some address)
    (hsub : m.sSubAddress.construct = some subAddress)
    (hbearer : m.bearerLen ≤ m.aBearerData.length) :
    m.constructTransportLayerMsg noBearerReplyOption =
      if (m.transportBytes noBearerReplyOption address subAddress).length ≤ maxCdmaSmsMsgSize then
        some (m.transportBytes noBearerReplyOption address subAddress)
      else none := by
  have hstart : emitBytes (List.replicate maxCdmaSmsMsgSize 0, 0) [0x00] = soFar [0x00] := by
    have hempty := bind_emitBytes [] [0x00]
    rw [soFar_nil, bind_some, nil_append] at hempty
    exact hempty
  have hcategory : ∀ p, ((soFar p).bind fun w => m.emitServiceCategory w) = soFar (p ++
      if m.uServicecategory ≠ 0 then parameter 0x01 (wordBytesOf m.uServicecategory) else []) :=
    fun p => bind_optional p _ _ _
  have hsubAddress : ∀ p, ((soFar p).bind fun w => m.emitSubAddress w) = soFar (p ++
      if m.sSubAddress.digitLen ≠ 0 then parameter (m.direction 0x05 0x03) subAddress else []) := by
    intro p
    simp only [emitSubAddress, hsub, bind_eq_bind, bind_some]
    exact bind_optional p _ _ _
  have hreply : ∀ p, ((soFar p).bind fun w => emitBearerReplyOption w noBearerReplyOption) =
      soFar (p ++ if ! noBearerReplyOption then parameter 0x06 [0x00] else []) :=
    fun p => bind_optional p _ _ _
  have hload : Block.load m.aBearerData 0 m.bearerLen = some (m.aBearerData.take m.bearerLen) := by
    rw [Block.load_of_le (by omega), drop_zero]
  simp only [constructTransportLayerMsg, hstart, haddress, hload, bind_eq_bind, bind_some]
  rw [bind_step (bind_emitParameter _ _ _), bind_step (hcategory _),
    bind_step (bind_emitParameter _ _ _), bind_step (hsubAddress _), bind_step (hreply _),
    bind_step (bind_emitParameter _ _ _), bind_load]
  rfl

/-! ### Parsing it -/

@[simp] theorem parseLoop_nil (m : CdmaSmsMessage) : m.parseLoop [] = some m := by
  simp [parseLoop]

/-- **A parameter is cut off and taken in**, whatever follows it. -/
theorem parseLoop_parameter {m' : CdmaSmsMessage} {parameterId : BYTE} {value rest : List BYTE}
    (hne : value ≠ []) (hlen : value.length < 256)
    (hparse : m.parseParameter parameterId (value ++ rest) value.length = some m') :
    m.parseLoop (parameter parameterId value ++ rest) = m'.parseLoop rest := by
  have hpos := length_pos_iff.mpr hne
  have htoNat : (BitVec.ofNat 8 value.length).toNat = value.length := by
    rw [BitVec.toNat_ofNat, Nat.mod_eq_of_lt hlen]
  have hnonzero : BitVec.ofNat 8 value.length ≠ 0 := by
    intro hzero
    rw [hzero] at htoNat
    simp only [BitVec.ofNat_eq_ofNat, BitVec.toNat_ofNat, Nat.zero_mod] at htoNat
    omega
  have hinside : ¬ (value ++ rest).length < (BitVec.ofNat 8 value.length).toNat := by
    rw [htoNat, length_append]
    omega
  rw [parameter, cons_append, cons_append, parseLoop, if_neg hnonzero, if_neg hinside,
    htoNat, hparse, drop_left]
  rfl

theorem parseLoop_parameter_nil (m : CdmaSmsMessage) (parameterId : BYTE) (rest : List BYTE) :
    m.parseLoop (parameter parameterId [] ++ rest) = m.parseLoop rest := by
  rw [parameter, cons_append, cons_append, parseLoop]
  rfl

/-- Two bytes are read back as the integer they were written for. -/
theorem intOfWordBytes_wordBytesOf {u : INT} (h : u.toNat < 2 ^ 16) :
    ∃ high low, wordBytesOf u = [high, low] ∧ intOfWordBytes high low = u := by
  refine ⟨_, _, rfl, ?_⟩
  have hzero : ∀ i (hi : i < 32), 16 ≤ i → u[i] = false := by
    intro i hi hle
    have hpow : 2 ^ 16 ≤ 2 ^ i := Nat.pow_le_pow_right (by omega) hle
    rw [BitVec.getElem_eq_testBit_toNat]
    exact Nat.testBit_lt_two_pow (by omega)
  apply BitVec.eq_of_getLsbD_eq
  intro i hi
  interval_cases i <;> simp [intOfWordBytes, hzero]

theorem parseLoop_teleservice (m : CdmaSmsMessage) {u : INT} (h : u.toNat < 2 ^ 16)
    (rest : List BYTE) :
    m.parseLoop (parameter 0x00 (wordBytesOf u) ++ rest) =
      { m with uTeleserviceID := u }.parseLoop rest := by
  obtain ⟨high, low, hbytes, hvalue⟩ := intOfWordBytes_wordBytesOf h
  rw [hbytes]
  refine parseLoop_parameter (cons_ne_nil _ _) (by simp) ?_
  simp [parseParameter, hvalue]

/-- The service category is zero unless there is one. -/
theorem parseLoop_serviceCategory {u : INT} (h : u.toNat < 2 ^ 16) (hm : m.uServicecategory = 0)
    (rest : List BYTE) :
    ∃ present, m.parseLoop ((if u ≠ 0 then parameter 0x01 (wordBytesOf u) else []) ++ rest) =
      { m with bIsServicePresent := present, uServicecategory := u }.parseLoop rest := by
  by_cases hu : u ≠ 0
  · obtain ⟨high, low, hbytes, hvalue⟩ := intOfWordBytes_wordBytesOf h
    refine ⟨true, ?_⟩
    rw [if_pos hu, hbytes]
    refine parseLoop_parameter (cons_ne_nil _ _) (by simp) ?_
    simp [parseParameter, hvalue]
  · refine ⟨m.bIsServicePresent, ?_⟩
    rw [if_neg hu, not_not.mp hu, ← hm]
    rfl

theorem direction_eq (m : CdmaSmsMessage) (destination originating : BYTE) :
    m.direction destination originating = destination ∨
      m.direction destination originating = originating := by
  unfold direction
  split
  · exact Or.inl rfl
  · exact Or.inr rfl

variable {n : CdmaSmsMessage}

theorem parseLoop_address {bytes : List BYTE} (h : m.sAddress.Valid)
    (hn : n.sAddress.digits.length = cdmaSmsAddressMax) (hbytes : Holds bytes m.sAddress.bits)
    (hlen : bytes.length = m.sAddress.size) (rest : List BYTE) :
    ∃ a, m.sAddress.Same a ∧
      n.parseLoop (parameter (m.direction 0x04 0x02) bytes ++ rest) =
        { n with sAddress := a }.parseLoop rest := by
  obtain ⟨a, hparse, hsame⟩ := CdmaSmsAddress.parse_eq h hn hbytes hlen
  have hbits := h.sized.bits_length_le
  rw [h.sized.size_eq] at hlen
  refine ⟨a, hsame, parseLoop_parameter ?_ (by omega) ?_⟩
  · rintro rfl
    simp at hlen
  · rcases m.direction_eq 0x04 0x02 with hid | hid
    · rw [hid]
      simp [parseParameter, hparse]
    · rw [hid]
      simp [parseParameter, hparse]

/-- The subaddress is taken in when there is one. -/
theorem parseLoop_subAddress {bytes : List BYTE} (h : m.sSubAddress.Valid)
    (hn : n.sSubAddress.digits.length = cdmaSmsSubaddressMax)
    (hbytes : Holds bytes m.sSubAddress.bits) (hlen : bytes.length = m.sSubAddress.size)
    (rest : List BYTE) :
    ∃ a, (m.sSubAddress.digitLen ≠ 0 → a.subaddressType = m.sSubAddress.subaddressType &&& 7 ∧
        a.odd = m.sSubAddress.odd &&& 1 ∧ a.numberOfDigits = m.sSubAddress.numberOfDigits ∧
        a.used = m.sSubAddress.used) ∧
      n.parseLoop ((if m.sSubAddress.digitLen ≠ 0 then
          parameter (m.direction 0x05 0x03) bytes else []) ++ rest) =
        { n with sSubAddress := a }.parseLoop rest := by
  by_cases hpresent : m.sSubAddress.digitLen ≠ 0
  · obtain ⟨a, hparse, hfields⟩ := CdmaSmsSubaddress.parse_eq h hn hbytes hlen
    have hcount := h.count
    rw [CdmaSmsSubaddress.size] at hlen
    rw [cdmaSmsSubaddressMax] at hcount
    refine ⟨a, fun _ => hfields, ?_⟩
    rw [if_pos hpresent]
    refine parseLoop_parameter ?_ (by omega) ?_
    · rintro rfl
      simp at hlen
    · rcases m.direction_eq 0x05 0x03 with hid | hid
      · rw [hid]
        simp [parseParameter, hparse]
      · rw [hid]
        simp [parseParameter, hparse]
  · refine ⟨n.sSubAddress, fun hyes => absurd hyes hpresent, ?_⟩
    rw [if_neg hpresent]
    rfl

theorem parseLoop_bearerReplyOption (m : CdmaSmsMessage) (noBearerReplyOption : Bool)
    (rest : List BYTE) :
    m.parseLoop ((if ! noBearerReplyOption then parameter 0x06 [0x00] else []) ++ rest) =
      m.parseLoop rest := by
  cases noBearerReplyOption with
  | true => rfl
  | false =>
      refine parseLoop_parameter (cons_ne_nil _ _) (by simp) ?_
      simp [parseParameter]

/-- The bearer data are last, and may be empty. -/
theorem parseLoop_bearer (bearer : List BYTE) (hlen : bearer.length < 256)
    (hm : bearer.length ≤ m.aBearerData.length) (hzero : m.uBearerDataLen = 0) :
    ∃ data, m.parseLoop (parameter 0x08 bearer) =
        some { m with uBearerDataLen := bearer.length, aBearerData := data } ∧
      data.take bearer.length = bearer := by
  by_cases hne : bearer = []
  · subst hne
    refine ⟨m.aBearerData, ?_, rfl⟩
    have hskip := m.parseLoop_parameter_nil 0x08 []
    rw [append_nil] at hskip
    rw [hskip, parseLoop_nil, length_nil, ← hzero]
  · refine ⟨bearer ++ m.aBearerData.drop bearer.length, ?_, take_left' rfl⟩
    have hstore := Block.store_zero hm
    have hstep : m.parseParameter 0x08 (bearer ++ []) bearer.length = some
        { m with uBearerDataLen := bearer.length
                 aBearerData := bearer ++ m.aBearerData.drop bearer.length } := by
      simp [parseParameter, hstore]
    rw [← append_nil (parameter 0x08 bearer), parseLoop_parameter hne hlen hstep, parseLoop_nil]

/-! ## The round trip -/

/-- **A message in the record's range**: identifiers of 16 bits, valid
addresses and at most 255 bytes of bearer data. -/
structure Valid (m : CdmaSmsMessage) : Prop where
  /-- The teleservice identifier. -/
  teleservice : m.uTeleserviceID.toNat < 2 ^ 16
  /-- The service category. -/
  category : m.uServicecategory.toNat < 2 ^ 16
  /-- The address. -/
  address : m.sAddress.Valid
  /-- The subaddress. -/
  subAddress : m.sSubAddress.Valid
  /-- The bearer data. -/
  bearer : m.uBearerDataLen ≤ cdmaSmsBearerDataMax
  /-- Their array. -/
  length : m.aBearerData.length = cdmaSmsBearerDataMax

/-- **The same message**, as far as a transport layer message carries it. -/
structure Same (m n : CdmaSmsMessage) : Prop where
  /-- The teleservice identifier. -/
  teleservice : m.uTeleserviceID = n.uTeleserviceID
  /-- The service category. -/
  category : m.uServicecategory = n.uServicecategory
  /-- The address. -/
  address : m.sAddress.Same n.sAddress
  /-- The subaddress, when present. -/
  subAddress : m.sSubAddress.numberOfDigits ≠ 0 →
    n.sSubAddress.subaddressType = m.sSubAddress.subaddressType ∧
      n.sSubAddress.odd = m.sSubAddress.odd ∧
      n.sSubAddress.numberOfDigits = m.sSubAddress.numberOfDigits ∧
      n.sSubAddress.used = m.sSubAddress.used
  /-- The number of bearer data bytes. -/
  bearerLen : n.uBearerDataLen = m.uBearerDataLen
  /-- The bearer data. -/
  bearer : n.aBearerData.take m.uBearerDataLen = m.aBearerData.take m.uBearerDataLen

/-- **The message survives the round trip** through the transport layer. -/
def RoundTrips (m : CdmaSmsMessage) (noBearerReplyOption : Bool) : Prop :=
  ∃ msg n, m.constructTransportLayerMsg noBearerReplyOption = some msg ∧
    ofTransportLayerMsg msg = some (some n) ∧ m.Same n

/-- The size of the transport layer message. -/
def transportSize (m : CdmaSmsMessage) (noBearerReplyOption : Bool) : ℕ :=
  5 + (if m.uServicecategory ≠ 0 then 4 else 0) + (2 + m.sAddress.size) +
    (if m.sSubAddress.numberOfDigits ≠ 0 then 2 + m.sSubAddress.size else 0) +
    (if ! noBearerReplyOption then 3 else 0) + (2 + m.uBearerDataLen)

/-- **The messages that survive**: the message fits the buffer, and a
subaddress has a type and a flag that fit their fields. -/
structure Transportable (m : CdmaSmsMessage) (noBearerReplyOption : Bool) : Prop where
  /-- The buffer. -/
  fits : m.transportSize noBearerReplyOption ≤ maxCdmaSmsMsgSize
  /-- The subaddress type and flag. -/
  subAddress : m.sSubAddress.numberOfDigits ≠ 0 →
    m.sSubAddress.subaddressType.toNat < 8 ∧ m.sSubAddress.odd.toNat < 2

theorem Valid.digitLen_ne_zero_iff (h : m.Valid) :
    m.sSubAddress.digitLen ≠ 0 ↔ m.sSubAddress.numberOfDigits ≠ 0 := by
  rw [h.subAddress.digitLen_eq, not_iff_not, BitVec.toNat_eq]
  rfl

theorem Valid.bearerLen_eq (h : m.Valid) : m.bearerLen = m.uBearerDataLen :=
  Nat.min_eq_left h.bearer

theorem parameter_length (parameterId : BYTE) (bytes : List BYTE) :
    (parameter parameterId bytes).length = 2 + bytes.length := by
  simp only [parameter, length_cons]
  omega

theorem Valid.transportBytes_length (h : m.Valid) (noBearerReplyOption : Bool)
    {address subAddress : List BYTE} (haddress : address.length = m.sAddress.size)
    (hsub : subAddress.length = m.sSubAddress.size) :
    (m.transportBytes noBearerReplyOption address subAddress).length =
      m.transportSize noBearerReplyOption := by
  have hbearer : (m.aBearerData.take m.bearerLen).length = m.uBearerDataLen := by
    rw [length_take, h.length, h.bearerLen_eq]
    exact Nat.min_eq_left h.bearer
  have hword : ∀ u, (wordBytesOf u).length = 2 := fun _ => rfl
  have hif : ∀ (c : Prop) [Decidable c] (bytes : List BYTE),
      (if c then bytes else []).length = if c then bytes.length else 0 := by
    intro c _ bytes
    split <;> rfl
  simp only [transportBytes, transportSize, length_append, parameter_length, hbearer, hword,
    hif, haddress, hsub, length_singleton, h.digitLen_ne_zero_iff]

/-- The message as the fields of the subaddress carry it. -/
def carried (m : CdmaSmsMessage) : CdmaSmsMessage :=
  { m with sSubAddress := { m.sSubAddress with
      subaddressType := m.sSubAddress.subaddressType &&& 7
      odd := m.sSubAddress.odd &&& 1 } }

/-- A record the parser can start from. -/
structure Blank (n : CdmaSmsMessage) : Prop where
  /-- No service category. -/
  category : n.uServicecategory = 0
  /-- The arrays have their sizes. -/
  address : n.sAddress.digits.length = cdmaSmsAddressMax
  /-- The arrays have their sizes. -/
  subAddress : n.sSubAddress.digits.length = cdmaSmsSubaddressMax
  /-- The arrays have their sizes. -/
  bearer : n.aBearerData.length = cdmaSmsBearerDataMax
  /-- No bearer data. -/
  bearerLen : n.uBearerDataLen = 0

theorem zero_blank : zero.Blank where
  category := rfl
  address := length_replicate
  subAddress := length_replicate
  bearer := length_replicate
  bearerLen := rfl

/-- **The parameters are parsed to what they carry**, one after the
other. -/
theorem parseLoop_transport (h : m.Valid) (hn : n.Blank) (noBearerReplyOption : Bool)
    {address subAddress : List BYTE} (haddress : Holds address m.sAddress.bits)
    (hlen : address.length = m.sAddress.size) (hsub : Holds subAddress m.sSubAddress.bits)
    (hsublen : subAddress.length = m.sSubAddress.size) :
    ∃ n', n.parseLoop ((m.transportBytes noBearerReplyOption address subAddress).drop 1) =
        some n' ∧ m.carried.Same n' := by
  have hbearer : (m.aBearerData.take m.uBearerDataLen).length = m.uBearerDataLen := by
    rw [length_take, h.length]
    exact Nat.min_eq_left h.bearer
  have hmax : m.uBearerDataLen ≤ 255 := h.bearer
  have hsplit : (m.transportBytes noBearerReplyOption address subAddress).drop 1 =
      parameter 0x00 (wordBytesOf m.uTeleserviceID) ++
        ((if m.uServicecategory ≠ 0 then parameter 0x01 (wordBytesOf m.uServicecategory) else []) ++
          (parameter (m.direction 0x04 0x02) address ++
            ((if m.sSubAddress.digitLen ≠ 0 then parameter (m.direction 0x05 0x03) subAddress
              else []) ++
              ((if ! noBearerReplyOption then parameter 0x06 [0x00] else []) ++
                parameter 0x08 (m.aBearerData.take m.uBearerDataLen))))) := by
    simp only [transportBytes, append_assoc, singleton_append, h.bearerLen_eq]
    rfl
  rw [hsplit, parseLoop_teleservice n h.teleservice]
  obtain ⟨n₁, hn₁⟩ : ∃ n₁, n₁ = { n with uTeleserviceID := m.uTeleserviceID } := ⟨_, rfl⟩
  rw [← hn₁]
  obtain ⟨present, hstep₂⟩ := parseLoop_serviceCategory (m := n₁) h.category
    (by rw [hn₁]; exact hn.category) _
  rw [hstep₂]
  obtain ⟨n₂, hn₂⟩ : ∃ n₂, n₂ =
    { n₁ with bIsServicePresent := present, uServicecategory := m.uServicecategory } := ⟨_, rfl⟩
  rw [← hn₂]
  obtain ⟨a, hsame, hstep₃⟩ := parseLoop_address (m := m) (n := n₂) h.address
    (by rw [hn₂, hn₁]; exact hn.address) haddress hlen _
  rw [hstep₃]
  obtain ⟨n₃, hn₃⟩ : ∃ n₃, n₃ = { n₂ with sAddress := a } := ⟨_, rfl⟩
  rw [← hn₃]
  obtain ⟨b, hfields, hstep₄⟩ := parseLoop_subAddress (m := m) (n := n₃) h.subAddress
    (by rw [hn₃, hn₂, hn₁]; exact hn.subAddress) hsub hsublen _
  rw [hstep₄, parseLoop_bearerReplyOption]
  obtain ⟨n₄, hn₄⟩ : ∃ n₄, n₄ = { n₃ with sSubAddress := b } := ⟨_, rfl⟩
  rw [← hn₄]
  obtain ⟨data, hstep₅, htaken⟩ := parseLoop_bearer (m := n₄)
    (m.aBearerData.take m.uBearerDataLen) (by rw [hbearer]; omega)
    (by rw [hbearer, hn₄, hn₃, hn₂, hn₁]; exact h.bearer.trans (Nat.le_of_eq hn.bearer.symm))
    (by rw [hn₄, hn₃, hn₂, hn₁]; exact hn.bearerLen)
  refine ⟨_, hstep₅, ?_⟩
  rw [hbearer] at htaken ⊢
  subst hn₁ hn₂ hn₃ hn₄
  refine ⟨rfl, rfl, hsame, ?_, rfl, htaken⟩
  intro hpresent
  exact hfields (h.digitLen_ne_zero_iff.mpr hpresent)

/-- **What is put together is parsed to what it carries.** -/
theorem ofTransportLayerMsg_eq (h : m.Valid) (noBearerReplyOption : Bool)
    {address subAddress : List BYTE} (haddress : Holds address m.sAddress.bits)
    (hlen : address.length = m.sAddress.size) (hsub : Holds subAddress m.sSubAddress.bits)
    (hsublen : subAddress.length = m.sSubAddress.size)
    (hfits : m.transportSize noBearerReplyOption ≤ maxCdmaSmsMsgSize) :
    ∃ n, ofTransportLayerMsg (m.transportBytes noBearerReplyOption address subAddress) =
        some (some n) ∧ m.carried.Same n := by
  obtain ⟨n, hparse, hsame⟩ :=
    parseLoop_transport h zero_blank noBearerReplyOption haddress hlen hsub hsublen
  refine ⟨n, ?_, hsame⟩
  have hsize := h.transportBytes_length noBearerReplyOption hlen hsublen
  obtain ⟨rest, hbytes⟩ : ∃ rest, m.transportBytes noBearerReplyOption address subAddress =
      0x00 :: rest := ⟨_, rfl⟩
  rw [hbytes] at hparse hsize ⊢
  have hnonempty : ¬ (0x00 :: rest : List BYTE).length = 0 := Nat.succ_ne_zero _
  have htype : ¬ ((0x00 : BYTE) ≠ 0x00 ∧ (0x00 : BYTE) ≠ 0x01) := by decide
  rw [ofTransportLayerMsg, if_neg hnonempty, take_of_length_le (by rw [hsize]; exact hfits),
    constructRilCdmaSmsMsg, if_neg htype, show parseLoop zero rest = some n from hparse]
  rfl

theorem and_low_eq_iff (b : BYTE) :
    (b &&& 7 = b ↔ b.toNat < 8) ∧ (b &&& 1 = b ↔ b.toNat < 2) := by
  revert b
  decide +kernel

/-- The fields of a transportable subaddress carry it whole. -/
theorem carried_eq (h : m.sSubAddress.subaddressType.toNat < 8 ∧ m.sSubAddress.odd.toNat < 2) :
    m.carried = m := by
  rw [carried, (and_low_eq_iff _).1.mpr h.1, (and_low_eq_iff _).2.mpr h.2]

theorem Same.of_carried (h : m.carried.Same n) (habsent : ¬ m.sSubAddress.numberOfDigits ≠ 0) :
    m.Same n where
  teleservice := h.teleservice
  category := h.category
  address := h.address
  subAddress := fun hpresent => absurd hpresent habsent
  bearerLen := h.bearerLen
  bearer := h.bearer

/-- **What is built is the parameters, when they fit**, and what is built
is parsed to what the parameters carry. -/
theorem Valid.constructTransportLayerMsg_spec (h : m.Valid) (noBearerReplyOption : Bool) :
    (maxCdmaSmsMsgSize < m.transportSize noBearerReplyOption →
        m.constructTransportLayerMsg noBearerReplyOption = none) ∧
      (m.transportSize noBearerReplyOption ≤ maxCdmaSmsMsgSize →
        ∃ msg n, m.constructTransportLayerMsg noBearerReplyOption = some msg ∧
          ofTransportLayerMsg msg = some (some n) ∧ m.carried.Same n) := by
  obtain ⟨address, haddress, haddressBits, haddressLen⟩ := CdmaSmsAddress.construct_eq h.address.sized
  obtain ⟨subAddress, hsub, hsubBits, hsubLen⟩ := CdmaSmsSubaddress.construct_eq h.subAddress
  have hbearer : m.bearerLen ≤ m.aBearerData.length := by
    rw [h.bearerLen_eq, h.length]
    exact h.bearer
  have hconstruct := constructTransportLayerMsg_eq noBearerReplyOption haddress hsub hbearer
  rw [h.transportBytes_length noBearerReplyOption haddressLen hsubLen] at hconstruct
  constructor
  · intro hlarge
    rw [hconstruct, if_neg (Nat.not_le.mpr hlarge)]
  · intro hfits
    obtain ⟨n, hparse, hsame⟩ := ofTransportLayerMsg_eq h noBearerReplyOption haddressBits
      haddressLen hsubBits hsubLen hfits
    exact ⟨_, n, by rw [hconstruct, if_pos hfits], hparse, hsame⟩

theorem Valid.not_roundTrips (h : m.Valid) {noBearerReplyOption : Bool}
    (hlarge : maxCdmaSmsMsgSize < m.transportSize noBearerReplyOption) :
    ¬ m.RoundTrips noBearerReplyOption := by
  rintro ⟨msg, n, hmsg, -, -⟩
  rw [(h.constructTransportLayerMsg_spec noBearerReplyOption).1 hlarge] at hmsg
  cases hmsg

/-- **Which messages survive the round trip**: those that fit the buffer
on the stack, if the subaddress fits its fields. -/
theorem roundTrips_iff {m : CdmaSmsMessage} (h : m.Valid) (noBearerReplyOption : Bool) :
    m.RoundTrips noBearerReplyOption ↔ m.Transportable noBearerReplyOption := by
  have hspec := h.constructTransportLayerMsg_spec noBearerReplyOption
  constructor
  · intro hround
    have hfits : m.transportSize noBearerReplyOption ≤ maxCdmaSmsMsgSize := by
      by_contra hlarge
      exact h.not_roundTrips (Nat.not_le.mp hlarge) hround
    obtain ⟨msg, n, hmsg, hparse, hsame⟩ := hround
    obtain ⟨msg', n', hmsg', hparse', hcarried⟩ := hspec.2 hfits
    -- both runs build the same bytes, so both parse to the same record
    have hbytes : msg = msg' := some.inj (hmsg.symm.trans hmsg')
    rw [hbytes] at hparse
    have hrecord : n = n' := some.inj (some.inj (hparse.symm.trans hparse'))
    rw [hrecord] at hsame
    refine ⟨hfits, fun hpresent => ?_⟩
    obtain ⟨htype, hodd, -⟩ := hsame.subAddress hpresent
    obtain ⟨htype', hodd', -⟩ := hcarried.subAddress hpresent
    exact ⟨(and_low_eq_iff _).1.mp (htype'.symm.trans htype),
      (and_low_eq_iff _).2.mp (hodd'.symm.trans hodd)⟩
  · rintro ⟨hfits, hfields⟩
    obtain ⟨msg, n, hmsg, hparse, hcarried⟩ := hspec.2 hfits
    refine ⟨msg, n, hmsg, hparse, ?_⟩
    by_cases hpresent : m.sSubAddress.numberOfDigits ≠ 0
    · rw [carried_eq (hfields hpresent)] at hcarried
      exact hcarried
    · exact hcarried.of_carried hpresent

/-- A message to the number 5551 with one byte of bearer data. -/
def short : CdmaSmsMessage :=
  { zero with
    uTeleserviceID := 0x1002
    sAddress := ⟨.digitMode4Bit, .notDataNetwork, 0, 0, 4,
      [5, 5, 5, 1] ++ List.replicate 32 0⟩
    sSubAddress := ⟨1, 0, 2, [0x50, 0x12] ++ List.replicate 34 0⟩
    uBearerDataLen := 1
    aBearerData := 0x2A :: List.replicate 254 0 }

theorem short_valid : short.Valid where
  teleservice := by decide
  category := by decide
  address := ⟨by decide, by decide, by decide, by decide, by decide⟩
  subAddress := ⟨by decide, by decide⟩
  bearer := by decide
  length := congrArg (· + 1) length_replicate

/-- A short message survives, with the bearer reply option. -/
theorem roundTrips_short : short.Valid ∧ short.RoundTrips false :=
  ⟨short_valid, (roundTrips_iff short_valid false).mpr ⟨by decide, fun _ => by decide⟩⟩

/-- The largest message: a service category, full addresses, and full
bearer data. -/
def largest : CdmaSmsMessage where
  uTeleserviceID := 0x1002
  bIsServicePresent := true
  uServicecategory := 1
  sAddress := ⟨.digitMode8Bit, .notDataNetwork, 1, 1, 36, List.replicate 36 0x31⟩
  sSubAddress := ⟨0, 0, 36, List.replicate 36 0x31⟩
  uBearerDataLen := 255
  aBearerData := List.replicate 255 0

theorem largest_valid : largest.Valid where
  teleservice := by decide
  category := by decide
  address := ⟨by decide, by decide, by decide, by decide, by decide⟩
  subAddress := ⟨by decide, by decide⟩
  bearer := by decide
  length := length_replicate

/-- **The largest message overflows the buffer**: 350 bytes into 348. -/
theorem not_roundTrips_largest : largest.Valid ∧ ¬ largest.RoundTrips false :=
  ⟨largest_valid, largest_valid.not_roundTrips (by decide)⟩

end CdmaSmsMessage

end ExynosVendor.Ril
