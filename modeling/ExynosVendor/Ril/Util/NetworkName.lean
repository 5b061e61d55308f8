import ExynosVendor.Ril.Util.IccUtil
import ExynosVendor.Ril.Util.Gsm7

/-!
# The names in network-name values

What a network-name value says, and which values `networkNameToString`
reads as what they say. The text of a GSM 7-bit name is a row of septets,
the lowest bit first (`septetAt`); `unpacking_gsm7bit` finds them in any
bytes, because any bytes are the packed ones of their own septets
(`map_septetByte_septetAt`). So these names are right as far as they stay
inside.

The text of a UCS2 name is a row of big-endian units. The code copies
them as they are into an array that it reads little-endian, and takes as
many of them as there are bytes, which goes on behind the text until the
destination is full. `Ucs2NameKept` is what is needed for that to come out
right all the same.
-/

namespace ExynosVendor.Ril

open List Option

/-! ## What a value says -/

/-- A bit of a text, the lowest of each byte first. -/
def bitAt (text : List BYTE) (i : ℕ) : Bool :=
  (text.getD (i / 8) 0).getLsbD (i % 8)

/-- Septet `k` of a text, seven bits from bit `7 * k` on. -/
def septetAt (text : List BYTE) (k : ℕ) : BYTE :=
  (BitVec.ofBoolListLE ((List.range 7).map fun b => bitAt text (7 * k + b))).setWidth 8

/-- The septets that a text of so many bytes has when this many bits of
the last one are spare. -/
def announcedSeptets (bytes spare : ℕ) : ℕ :=
  (8 * bytes - spare) / 7

/-- The code units of a text. -/
def codeUnits : List BYTE → List WORD
  | high :: low :: rest => (high ++ low) :: codeUnits rest
  | _ => []

/-- **A value is decoded**: whatever the stack holds, the name stays in
its buffer; with its extension bit set, a GSM 7-bit name is the announced
septets and a UCS2 name the UTF-8 text of its units. -/
def NameDecoded (data : List BYTE) : Prop :=
  ∀ garbage, ∃ name, networkNameToString garbage data = some name ∧
    (data.getD 0 0 &&& 0x80 = 0x80 → data.getD 0 0 >>> 4 &&& 0x7 = 0 →
      name = (List.range (announcedSeptets (data.length - 1) (data.getD 0 0 &&& 7).toNat)).map
        (septetAt (data.drop 1))) ∧
    (data.getD 0 0 &&& 0x80 = 0x80 → data.getD 0 0 >>> 4 &&& 0x7 = 1 →
      name = (codeUnits (data.drop 1)).flatMap Utf8.unit)

/-! ## Septets -/

theorem septetAt_getLsbD (text : List BYTE) (k b : ℕ) :
    (septetAt text k).getLsbD b = (decide (b < 7) && bitAt text (7 * k + b)) := by
  rw [septetAt, BitVec.getLsbD_setWidth, BitVec.getLsbD_ofBoolListLE]
  by_cases hb : b < 7
  · simp [hb, show b < 8 by omega]
  · simp [hb]

theorem septetAt_lt (text : List BYTE) (k : ℕ) : (septetAt text k).toNat < 128 := by
  rw [septetAt, BitVec.toNat_setWidth]
  refine Nat.lt_of_le_of_lt (Nat.mod_le _ _) ?_
  have hlt := (BitVec.ofBoolListLE ((List.range 7).map fun b => bitAt text (7 * k + b))).isLt
  simpa using hlt

/-- **Any bytes are the packed bytes of their septets.** -/
theorem septetByte_septetAt (text : List BYTE) (d : ℕ) :
    septetByte (septetAt text) d = text.getD d 0 := by
  apply BitVec.eq_of_getLsbD_eq
  intro b hb
  have hbit : bitAt text (8 * d + b) = (text.getD d 0).getLsbD b := by
    rw [bitAt, show (8 * d + b) / 8 = d by omega, show (8 * d + b) % 8 = b by omega]
  rw [septetByte, BitVec.getLsbD_or, BitVec.getLsbD_ushiftRight, BitVec.getLsbD_shiftLeft,
    septetAt_getLsbD, septetAt_getLsbD, ← hbit]
  by_cases hlow : b < 7 - d % 7
  · have hindex : 7 * (d + d / 7) + (d % 7 + b) = 8 * d + b := by omega
    simp [hlow, hindex, show d % 7 + b < 7 by omega]
  · -- the bit is one of the septet behind
    have hindex : 7 * (d + d / 7 + 1) + (b - (7 - d % 7)) = 8 * d + b := by omega
    simp [hlow, hb, hindex, show ¬ d % 7 + b < 7 by omega, show b - (7 - d % 7) < 7 by omega]

theorem map_septetByte_septetAt (text : List BYTE) :
    (List.range text.length).map (septetByte (septetAt text)) = text := by
  refine ext_getElem (by simp) fun d hd hd' => ?_
  rw [getElem_map, getElem_range, septetByte_septetAt, getD_eq_getElem _ _ hd']

variable {text : List BYTE}

theorem unpackingGsm7bit_text (h : text.length ≤ 56) :
    unpackingGsm7bit text (List.replicate maxFullNameLen 0) =
      some ((List.range maxFullNameLen).map (unpackedCell (septetAt text) text.length),
        text.length + text.length / 7) := by
  have hroom : text.length = 0 ∨ text.length - 1 + (text.length - 1) / 7 + 1 < maxFullNameLen := by
    rw [maxFullNameLen]
    omega
  have hunpack := unpackingGsm7bit_eq (septetAt_lt text) hroom
  rwa [map_septetByte_septetAt] at hunpack

theorem countSeptets_eq {bytes spare : ℕ} (hspare : spare ≤ 7) (h : bytes = 0 → spare ≠ 7) :
    ((bytes : ℤ) * 8 - spare).tdiv 7 = (announcedSeptets bytes spare : ℕ) := by
  rw [announcedSeptets]
  rcases Nat.eq_zero_or_pos bytes with rfl | hpos
  · have := h rfl
    interval_cases spare <;> first | rfl | contradiction
  · rw [Int.tdiv_eq_ediv_of_nonneg (by omega)]
    omega

/-- **A GSM 7-bit name that stays inside is its septets.** -/
theorem gsm7Name_eq {spare : ℕ} (garbage : ℕ → BYTE) (h : text.length ≤ 56) (hspare : spare ≤ 7)
    (hzero : text.length = 0 → spare ≠ 7) :
    ∃ dst : List BYTE, decodingNetworkNameFromSim garbage 0 text
        (((text.length : ℤ) * 8 - spare).tdiv 7) (List.replicate maxFullNameLen 0) =
          some (dst, (announcedSeptets text.length spare : ℤ)) ∧
      dst.take (announcedSeptets text.length spare) =
        (List.range (announcedSeptets text.length spare)).map (septetAt text) := by
  have hcount : announcedSeptets text.length spare ≤ text.length + text.length / 7 := by
    rw [announcedSeptets]
    omega
  have hfit : text.length + text.length / 7 ≤ maxFullNameLen := by
    rw [maxFullNameLen]
    omega
  have hfront : ((List.range maxFullNameLen).map (unpackedCell (septetAt text) text.length)).take
      (announcedSeptets text.length spare) =
        (List.range (announcedSeptets text.length spare)).map (septetAt text) := by
    refine ext_getElem (by simp; omega) fun k hk hk' => ?_
    have hlt : k < text.length + text.length / 7 := by
      rw [length_map, length_range] at hk'
      omega
    simp [unpackedCell, hlt]
  rw [countSeptets_eq hspare hzero]
  simp only [decodingNetworkNameFromSim, if_true, unpackingGsm7bit_text h]
  by_cases hcut : announcedSeptets text.length spare < text.length + text.length / 7
  · -- the cell behind the last septet is cleared
    have hput := Block.put_eq_set (0 : BYTE)
      (b := (List.range maxFullNameLen).map (unpackedCell (septetAt text) text.length))
      (i := announcedSeptets text.length spare)
      (by rw [length_map, length_range]; omega)
    rw [if_pos (by omega), if_neg (by omega), Int.toNat_natCast, hput]
    refine ⟨_, rfl, ?_⟩
    rw [take_set_of_le (Nat.le_refl _)]
    exact hfront
  · have hall : announcedSeptets text.length spare = text.length + text.length / 7 := by omega
    rw [if_neg (by omega)]
    refine ⟨_, ?_, hfront⟩
    rw [hall]

/-! ## Units -/

/-- The units a UCS2 name is read as, in the order of its bytes. -/
def readUnits (garbage : ℕ → BYTE) (text : List BYTE) : List WORD :=
  (ucs2Units garbage (text.take (min (maxFullNameLen - 1) text.length))).take
    (min (maxFullNameLen - 1) text.length)

/-- What a UCS2 name comes out as. -/
def readName (garbage : ℕ → BYTE) (text : List BYTE) : List BYTE :=
  Utf8.code.encodeAll (Utf8.code.fitting 61 0 (readUnits garbage text))

theorem ucs2Name_eq (garbage : ℕ → BYTE) (text : List BYTE) (countSeptets : ℤ) :
    decodingNetworkNameFromSim garbage 1 text countSeptets (List.replicate maxFullNameLen 0) =
      some (readName garbage text ++
        List.replicate (maxFullNameLen - (readName garbage text).length) 0,
        ((readName garbage text).length : ℤ)) := by
  have hloop := ucs2ToUtf8Loop_fitting (readUnits garbage text) []
    (List.replicate maxFullNameLen 0) (by decide) (by decide)
  simp only [nil_append, length_nil, Nat.zero_add, length_replicate, drop_replicate] at hloop
  rw [show maxFullNameLen - 3 = 61 from rfl, ← readName] at hloop
  have htype : ¬ (1 : BYTE) = 0 := by decide
  simp only [decodingNetworkNameFromSim, if_neg htype, if_true, convertUcs2ToUtf8]
  rw [← readUnits, hloop, map_some]

/-- The code units, by the bytes of the text. -/
theorem codeUnits_getElem? (text : List BYTE) (i : ℕ) :
    (codeUnits text)[i]? = if i < text.length / 2 then
      some (text.getD (2 * i) 0 ++ text.getD (2 * i + 1) 0) else none := by
  induction text using codeUnits.induct generalizing i with
  | case1 high low rest ih =>
      have hhalf : (high :: low :: rest).length / 2 = rest.length / 2 + 1 := by
        simp only [length_cons]
        omega
      cases i with
      | zero => simp [codeUnits]
      | succ i =>
          have hindex : 2 * (i + 1) = 2 * i + 1 + 1 := by omega
          rw [codeUnits, getElem?_cons_succ, ih, hhalf, hindex]
          simp only [Nat.add_lt_add_iff_right, getD_cons_succ]
  | case2 text hshort =>
      have hlen : text.length / 2 = 0 := by
        rcases text with _ | ⟨high, _ | ⟨low, rest⟩⟩
        · rfl
        · rw [length_singleton]
        · exact absurd rfl (hshort high low rest)
      rw [codeUnits, hlen, if_neg (Nat.not_lt_zero i), getElem?_nil]
      exact hshort

theorem length_codeUnits (text : List BYTE) : (codeUnits text).length = text.length / 2 := by
  have hend := codeUnits_getElem? text (codeUnits text).length
  have hlast := codeUnits_getElem? text (text.length / 2)
  rw [getElem?_eq_none (Nat.le_refl _)] at hend
  rw [if_neg (Nat.lt_irrefl _)] at hlast
  have hle := List.getElem?_eq_none_iff.mp hlast
  split at hend
  · contradiction
  · omega

/-- The bytes in the array `Ucs2`. -/
def ucs2Bytes (garbage : ℕ → BYTE) (text : List BYTE) (j : ℕ) : BYTE :=
  if j < min (maxFullNameLen - 1) text.length then text.getD j 0
  else if j < maxFullNameLen then 0
  else garbage (j - maxFullNameLen)

/-- The units read, by those bytes. -/
theorem readUnits_getElem? (garbage : ℕ → BYTE) (text : List BYTE) {i : ℕ}
    (hi : i < min (maxFullNameLen - 1) text.length) :
    (readUnits garbage text)[i]? =
      some (ucs2Bytes garbage text (2 * i + 1) ++ ucs2Bytes garbage text (2 * i)) := by
  have hmem (j : ℕ) (hj : j < 2 * maxFullNameLen) :
      (text.take (min (maxFullNameLen - 1) text.length) ++
        (List.replicate maxFullNameLen 0 ++ (List.range maxFullNameLen).map garbage).drop
          (text.take (min (maxFullNameLen - 1) text.length)).length).getD j 0 =
        ucs2Bytes garbage text j := by
    have hlen : (text.take (min (maxFullNameLen - 1) text.length)).length =
        min (maxFullNameLen - 1) text.length := by
      rw [length_take]
      omega
    rw [getD_eq_getElem?_getD, hlen, ucs2Bytes]
    split_ifs with htext hzero
    · rw [getElem?_append_left (by rw [hlen]; exact htext), getElem?_take_of_lt htext,
        getD_eq_getElem?_getD]
    · rw [getElem?_append_right (by rw [hlen]; omega), hlen, getElem?_drop,
        show min (maxFullNameLen - 1) text.length + (j - min (maxFullNameLen - 1) text.length) = j
          by omega,
        getElem?_append_left (by rw [length_replicate]; exact hzero),
        getElem?_replicate, if_pos hzero]
      rfl
    · rw [getElem?_append_right (by rw [hlen]; omega), hlen, getElem?_drop,
        show min (maxFullNameLen - 1) text.length + (j - min (maxFullNameLen - 1) text.length) = j
          by omega,
        getElem?_append_right (by rw [length_replicate]; omega),
        length_replicate, getElem?_map, getElem?_range (by omega)]
      rfl
  have hi64 : i < maxFullNameLen := by
    rw [maxFullNameLen] at hi ⊢
    omega
  rw [readUnits, getElem?_take_of_lt hi, ucs2Units]
  rw [getElem?_map, getElem?_range hi64, map_some, hmem _ (by omega), hmem _ (by omega)]

theorem unit_bytes_inj {a b c d : BYTE} : (a ++ b : WORD) = c ++ d ↔ a = c ∧ b = d := by
  constructor
  · intro h
    have hhigh := congrArg (BitVec.extractLsb' 8 8) h
    have hlow := congrArg (BitVec.extractLsb' 0 8) h
    rw [BitVec.extractLsb'_append_eq_left, BitVec.extractLsb'_append_eq_left] at hhigh
    rw [BitVec.extractLsb'_append_eq_right, BitVec.extractLsb'_append_eq_right] at hlow
    exact ⟨hhigh, hlow⟩
  · rintro ⟨rfl, rfl⟩
    rfl

/-- **The units that are the same either way round**: those with two equal
bytes, as long as they are read from the text; the lower byte of the
thirty-second is the last that is copied, and the upper one is zero. -/
def UnitsKept (text : List BYTE) : Prop :=
  text.length / 2 ≤ 32 ∧ ∀ i < text.length / 2,
    text.getD (2 * i) 0 = text.getD (2 * i + 1) 0 ∧ (i = 31 → text.getD (2 * i) 0 = 0)

/-- The bytes of the first thirty-two units. -/
theorem readUnits_kept (garbage : ℕ → BYTE) {i : ℕ} (hi : i < text.length / 2) (h32 : i < 32) :
    (readUnits garbage text)[i]? =
      some ((if i = 31 then 0 else text.getD (2 * i + 1) 0) ++ text.getD (2 * i) 0) := by
  have hin : i < min (maxFullNameLen - 1) text.length := by
    rw [maxFullNameLen]
    omega
  have hlow : 2 * i < min (maxFullNameLen - 1) text.length := by
    rw [maxFullNameLen]
    omega
  rw [readUnits_getElem? _ _ hin, ucs2Bytes, ucs2Bytes, if_pos hlow]
  by_cases hlast : i = 31
  · have hcut : ¬ 2 * i + 1 < min (maxFullNameLen - 1) text.length := by
      rw [maxFullNameLen]
      omega
    rw [if_neg hcut, if_pos (by rw [maxFullNameLen]; omega), if_pos hlast]
  · have hcopied : 2 * i + 1 < min (maxFullNameLen - 1) text.length := by
      rw [maxFullNameLen]
      omega
    rw [if_pos hcopied, if_neg hlast]

/-- They are what is read first, whatever the stack holds. -/
theorem codeUnits_prefix_iff (text : List BYTE) :
    (∀ garbage, codeUnits text <+: readUnits garbage text) ↔ UnitsKept text := by
  have hunits (garbage : ℕ → BYTE) : codeUnits text <+: readUnits garbage text ↔
      ∀ i < text.length / 2, (readUnits garbage text)[i]? =
        some (text.getD (2 * i) 0 ++ text.getD (2 * i + 1) 0) := by
    rw [prefix_iff_getElem?]
    constructor
    · intro h i hi
      have hin : i < (codeUnits text).length := by
        rw [length_codeUnits]
        exact hi
      rw [h i hin, ← getElem?_eq_getElem hin, codeUnits_getElem?, if_pos hi]
    · intro h i hin
      have hi := hin
      rw [length_codeUnits] at hi
      rw [h i hi, ← getElem?_eq_getElem hin, codeUnits_getElem?, if_pos hi]
  simp only [hunits]
  constructor
  · intro h
    have hle : text.length / 2 ≤ 32 := by
      by_contra hlong
      -- the thirty-third unit is one nobody has written
      have hi : 32 < min (maxFullNameLen - 1) text.length := by
        rw [maxFullNameLen]
        omega
      have hzeros := h (fun _ => 0) 32 (by omega)
      have hones := h (fun _ => 0xFF) 32 (by omega)
      rw [readUnits_getElem? _ _ hi, some.injEq, unit_bytes_inj] at hzeros hones
      have hlate : ¬ 2 * 32 < min (maxFullNameLen - 1) text.length := by
        rw [maxFullNameLen]
        omega
      have hhigh := hzeros.2.trans hones.2.symm
      rw [ucs2Bytes, ucs2Bytes, if_neg hlate, if_neg (by decide), if_neg hlate,
        if_neg (by decide)] at hhigh
      exact absurd hhigh (by decide)
    refine ⟨hle, fun i hi => ?_⟩
    have hread := h (fun _ => 0) i hi
    rw [readUnits_kept _ hi (by omega), some.injEq, unit_bytes_inj] at hread
    obtain ⟨hhigh, hlow⟩ := hread
    exact ⟨hlow, fun hlast => by rw [← hhigh, if_pos hlast]⟩
  · rintro ⟨hle, hkept⟩ garbage i hi
    obtain ⟨hsame, hlast⟩ := hkept i hi
    rw [readUnits_kept _ hi (by omega), some.injEq, unit_bytes_inj]
    refine ⟨?_, hsame⟩
    split_ifs with h31
    · exact (hlast h31).symm
    · exact hsame.symm

/-- **The UCS2 texts that come out right**: the empty one, and those whose
units are the same either way round and fill the destination, so that
nothing behind them is written. -/
def Ucs2NameKept (text : List BYTE) : Prop :=
  text = [] ∨ UnitsKept text ∧
    ((codeUnits text).dropLast.flatMap Utf8.unit).length < 61 ∧
      61 ≤ ((codeUnits text).flatMap Utf8.unit).length

theorem readName_eq_iff (text : List BYTE) :
    (∀ garbage, readName garbage text = (codeUnits text).flatMap Utf8.unit) ↔
      Ucs2NameKept text := by
  have hinj (garbage : ℕ → BYTE) : readName garbage text = (codeUnits text).flatMap Utf8.unit ↔
      Utf8.code.fitting 61 0 (readUnits garbage text) = codeUnits text :=
    PrefixCode.encodeAll_injective.eq_iff
  simp only [hinj, PrefixCode.fitting_eq_iff, Nat.zero_add]
  constructor
  · intro h
    by_cases hnil : text = []
    · exact Or.inl hnil
    · have hpos := length_pos_iff.mpr hnil
      have hkept := (codeUnits_prefix_iff text).mp fun garbage => (h garbage).1
      obtain ⟨-, hlast, hend⟩ := h fun _ => 0
      rcases hend with hall | hreach
      · -- there are more bytes than units
        have hlen := congrArg List.length hall
        have hle := hkept.1
        rw [length_codeUnits, readUnits, length_take, ucs2Units, length_map,
          length_range, maxFullNameLen] at hlen
        omega
      · refine Or.inr ⟨hkept, hlast ?_, hreach⟩
        rintro hempty
        rw [hempty] at hreach
        exact absurd hreach (by decide)
  · rintro (rfl | ⟨hkept, hlast, hreach⟩) garbage
    · exact ⟨List.nil_prefix, fun h => absurd rfl h, Or.inl rfl⟩
    · exact ⟨(codeUnits_prefix_iff text).mpr hkept garbage, fun _ => hlast, Or.inr hreach⟩

/-! ## The names -/

/-- The values that are decoded, by their scheme: a GSM 7-bit name of at
most 56 bytes, which does not have seven spare bits of none, and a UCS2
name that is kept. -/
def NameDecodable (data : List BYTE) : Prop :=
  data.getD 0 0 &&& 0x80 = 0x80 →
    (data.getD 0 0 >>> 4 &&& 0x7 = 0 →
      data.length ≤ 57 ∧ (data.length = 1 → data.getD 0 0 &&& 7 ≠ 7)) ∧
    (data.getD 0 0 >>> 4 &&& 0x7 = 1 → Ucs2NameKept (data.drop 1))

/-- What a GSM 7-bit value that stays inside comes out as. -/
theorem networkNameToString_gsm7 (garbage : ℕ → BYTE) {data : List BYTE}
    (hcoded : data.getD 0 0 &&& 0x80 = 0x80) (h0 : data.getD 0 0 >>> 4 &&& 0x7 = 0)
    (hle : data.length ≤ 57) (hone : data.length = 1 → data.getD 0 0 &&& 7 ≠ 7) :
    networkNameToString garbage data = some ((List.range (announcedSeptets (data.length - 1)
      (data.getD 0 0 &&& 7).toNat)).map (septetAt (data.drop 1))) := by
  have hpos : 0 < data.length := by
    rw [length_pos_iff]
    rintro rfl
    exact absurd hcoded (by decide)
  have hspare : (data.getD 0 0 &&& 7).toNat ≤ 7 := by
    rw [BitVec.toNat_and]
    exact Nat.and_le_right
  have hlen : (data.drop 1).length = data.length - 1 := length_drop
  have hbytes : ((data.length : ℤ) - 1) = ((data.length - 1 : ℕ) : ℤ) := by omega
  have hzero : (data.drop 1).length = 0 → (data.getD 0 0 &&& 7).toNat ≠ 7 := by
    intro hempty hseven
    exact hone (by omega) (BitVec.eq_of_toNat_eq hseven)
  have hshort : (data.drop 1).length ≤ 56 := by omega
  obtain ⟨dst, hdst, htake⟩ := gsm7Name_eq garbage hshort hspare hzero
  rw [hlen] at hdst htake
  have hnot : ¬ (data.getD 0 0 &&& 0x80 ≠ 0x80 ∨ data.length < 1) := by
    rintro (h' | h')
    · exact h' hcoded
    · omega
  unfold networkNameToString
  dsimp only
  rw [if_neg hnot, if_pos (Or.inl h0), h0, hbytes, hdst, map_some, Int.toNat_natCast, htake]
  split_ifs with hany
  · rfl
  · -- no septets at all
    rw [Int.natCast_pos, Nat.not_lt, Nat.le_zero] at hany
    rw [hany, range_zero, map_nil]

/-- And a UCS2 value. -/
theorem networkNameToString_ucs2 (garbage : ℕ → BYTE) {data : List BYTE}
    (hcoded : data.getD 0 0 &&& 0x80 = 0x80) (h1 : data.getD 0 0 >>> 4 &&& 0x7 = 1) :
    networkNameToString garbage data = some (readName garbage (data.drop 1)) := by
  have hpos : 0 < data.length := by
    rw [length_pos_iff]
    rintro rfl
    exact absurd hcoded (by decide)
  have hnot : ¬ (data.getD 0 0 &&& 0x80 ≠ 0x80 ∨ data.length < 1) := by
    rintro (h' | h')
    · exact h' hcoded
    · omega
  unfold networkNameToString
  dsimp only
  rw [if_neg hnot, if_pos (Or.inr h1), h1, ucs2Name_eq, map_some, Int.toNat_natCast,
    take_left]
  split_ifs with hany
  · rfl
  · rw [Int.natCast_pos, Nat.not_lt, Nat.le_zero, length_eq_zero_iff] at hany
    rw [hany]

/-- **Which values are decoded.** -/
theorem nameDecoded_iff (data : List BYTE) : NameDecoded data ↔ NameDecodable data := by
  constructor
  · intro h hcoded
    refine ⟨fun h0 => ?_, fun h1 => ?_⟩
    · obtain ⟨name, hname, -⟩ := h fun _ => 0
      have hinside : (networkNameToString (fun _ => 0) data).isSome := by
        rw [hname]
        rfl
      exact (networkNameToString_isSome_iff _ _).mp hinside hcoded h0
    · refine (readName_eq_iff _).mp fun garbage => ?_
      obtain ⟨name, hname, -, hucs2⟩ := h garbage
      rw [networkNameToString_ucs2 garbage hcoded h1, some.injEq] at hname
      rw [hname]
      exact hucs2 hcoded h1
  · intro h garbage
    have hfits : NameFits data := fun hcoded h0 => (h hcoded).1 h0
    obtain ⟨name, hname⟩ :=
      isSome_iff_exists.mp ((networkNameToString_isSome_iff garbage data).mpr hfits)
    refine ⟨name, hname, fun hcoded h0 => ?_, fun hcoded h1 => ?_⟩
    · obtain ⟨hle, hone⟩ := hfits hcoded h0
      rw [networkNameToString_gsm7 garbage hcoded h0 hle hone, some.injEq] at hname
      exact hname.symm
    · rw [networkNameToString_ucs2 garbage hcoded h1, some.injEq] at hname
      rw [← hname]
      exact (readName_eq_iff _).mpr ((h hcoded).2 h1) garbage

/-- The UCS2 name `A` is read as the unit `4100`, and the zero behind it. -/
theorem not_nameDecoded_letter : ¬ NameDecoded [0x90, 0x00, 0x41] := by
  intro h
  obtain ⟨name, hname, -, hucs2⟩ := h fun _ => 0
  have hread : networkNameToString (fun _ => 0) [0x90, 0x00, 0x41] = some [0xE4, 0x84, 0x80, 0] := by
    decide +kernel
  rw [hread, some.injEq] at hname
  rw [← hname] at hucs2
  exact absurd (hucs2 (by decide) (by decide)) (by decide)

end ExynosVendor.Ril
