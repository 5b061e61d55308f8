import ExynosVendor.Common.Utf8
import ExynosVendor.Ril.Basic

/-!
# Decoding a USSD message

`DecodingUssd` of `util/util.cpp` turns the bytes of a network message
into text for the framework, by its data coding scheme. The GSM 7-bit
and UCS2 pipelines pass through local arrays of `MAX_USSD_DATA_LEN`
elements; the other schemes write to the destination directly.

What a function emits is the front of the destination, and the number
it returns is how much (`emitted`). `decodesSafely_iff` is the exact
condition under which no access leaves its array and no sequence is cut
off.
-/

namespace ExynosVendor.Ril

open List Option

def maxUssdDataLen : ℕ := 182

inductive DcsType where
  | gsm7bitDa
  | data8bit
  | ucs2
  | reserved
  | eucKr
  | gsm7bitData
  | unspecified
  deriving DecidableEq

/-- Bits 3 and 2 of an octet that names its alphabet there. -/
def dcsAlphabet (octet : BYTE) (bits01 : DcsType) : DcsType :=
  if octet &&& 0x0C = 0x00 then .gsm7bitDa
  else if octet &&& 0x0C = 0x04 then bits01
  else if octet &&& 0x0C = 0x08 then .ucs2
  else .reserved

/-- `GetUssdDcs`, by the coding group bits. -/
def getUssdDcs (octet : BYTE) : DcsType :=
  match octet &&& 0xF0#8 with
  | 0x00#8 | 0x20#8 | 0x30#8 => .gsm7bitDa
  | 0x10#8 =>
      if octet &&& 0x0F = 0x00 then .gsm7bitDa
      else if octet &&& 0x0F = 0x01 then .ucs2
      else .reserved
  | 0x40#8 | 0x50#8 | 0x60#8 | 0x70#8 => dcsAlphabet octet .data8bit
  | 0x90#8 => dcsAlphabet octet .eucKr
  | 0x80#8 | 0xA0#8 | 0xB0#8 | 0xC0#8 => .reserved
  | 0xF0#8 => if octet &&& 0x04 = 0x00 then .gsm7bitData else .data8bit
  | _ => .unspecified

/-! ## Septets -/

/-- The loop of `unpacking_gsm7bit`: a byte completes the septet begun by
the one before it and begins the next, and every seventh byte holds the
whole of the next one. -/
def unpackingLoop : List BYTE → ℕ → ℕ → List BYTE → Option (List BYTE × ℕ)
  | [], _, destIdx, dest => some (dest, destIdx)
  | byte :: rest, srcIdx, destIdx, dest => do
      let shift := srcIdx % 7
      let cell ← dest[destIdx]?
      let dest ← Block.put dest destIdx (cell ||| (byte <<< shift &&& 0x7F))
      let downShiftCount := 7 - shift
      let dest ← Block.put dest (destIdx + 1) (byte >>> downShiftCount)
      let destIdx := if downShiftCount = 1 then destIdx + 1 else destIdx
      unpackingLoop rest (srcIdx + 1) (destIdx + 1) dest

def unpackingGsm7bit (src dest : List BYTE) : Option (List BYTE × ℕ) :=
  unpackingLoop src 0 0 dest

/-! ## The default alphabet -/

/-- `Gsm7bitDefToUcs2`, from `gsm0338_def_map.dat`. -/
def gsm7bitDefToUcs2 : List (BYTE × WORD) :=
  [(0x00, 0x0040), (0x01, 0x00A3), (0x02, 0x0024), (0x03, 0x00A5), (0x04, 0x00E8), (0x05, 0x00E9),
    (0x06, 0x00F9), (0x07, 0x00EC), (0x08, 0x00F2), (0x09, 0x00E7), (0x0A, 0x000A), (0x0B, 0x00D8),
    (0x0C, 0x00F8), (0x0D, 0x000D), (0x0E, 0x00C5), (0x0F, 0x00E5), (0x10, 0x0394), (0x11, 0x005F),
    (0x12, 0x03A6), (0x13, 0x0393), (0x14, 0x039B), (0x15, 0x03A9), (0x16, 0x03A0), (0x17, 0x03A8),
    (0x18, 0x03A3), (0x19, 0x0398), (0x1A, 0x039E), (0x1B, 0x00A0), (0x1C, 0x00C6), (0x1D, 0x00E6),
    (0x1E, 0x00DF), (0x1F, 0x00C9), (0x20, 0x0020), (0x21, 0x0021), (0x22, 0x0022), (0x23, 0x0023),
    (0x24, 0x00A4), (0x25, 0x0025), (0x26, 0x0026), (0x27, 0x0027), (0x28, 0x0028), (0x29, 0x0029),
    (0x2A, 0x002A), (0x2B, 0x002B), (0x2C, 0x002C), (0x2D, 0x002D), (0x2E, 0x002E), (0x2F, 0x002F),
    (0x30, 0x0030), (0x31, 0x0031), (0x32, 0x0032), (0x33, 0x0033), (0x34, 0x0034), (0x35, 0x0035),
    (0x36, 0x0036), (0x37, 0x0037), (0x38, 0x0038), (0x39, 0x0039), (0x3A, 0x003A), (0x3B, 0x003B),
    (0x3C, 0x003C), (0x3D, 0x003D), (0x3E, 0x003E), (0x3F, 0x003F), (0x40, 0x00A1), (0x41, 0x0041),
    (0x42, 0x0042), (0x43, 0x0043), (0x44, 0x0044), (0x45, 0x0045), (0x46, 0x0046), (0x47, 0x0047),
    (0x48, 0x0048), (0x49, 0x0049), (0x4A, 0x004A), (0x4B, 0x004B), (0x4C, 0x004C), (0x4D, 0x004D),
    (0x4E, 0x004E), (0x4F, 0x004F), (0x50, 0x0050), (0x51, 0x0051), (0x52, 0x0052), (0x53, 0x0053),
    (0x54, 0x0054), (0x55, 0x0055), (0x56, 0x0056), (0x57, 0x0057), (0x58, 0x0058), (0x59, 0x0059),
    (0x5A, 0x005A), (0x5B, 0x00C4), (0x5C, 0x00D6), (0x5D, 0x00D1), (0x5E, 0x00DC), (0x5F, 0x00A7),
    (0x60, 0x00BF), (0x61, 0x0061), (0x62, 0x0062), (0x63, 0x0063), (0x64, 0x0064), (0x65, 0x0065),
    (0x66, 0x0066), (0x67, 0x0067), (0x68, 0x0068), (0x69, 0x0069), (0x6A, 0x006A), (0x6B, 0x006B),
    (0x6C, 0x006C), (0x6D, 0x006D), (0x6E, 0x006E), (0x6F, 0x006F), (0x70, 0x0070), (0x71, 0x0071),
    (0x72, 0x0072), (0x73, 0x0073), (0x74, 0x0074), (0x75, 0x0075), (0x76, 0x0076), (0x77, 0x0077),
    (0x78, 0x0078), (0x79, 0x0079), (0x7A, 0x007A), (0x7B, 0x00E4), (0x7C, 0x00F6), (0x7D, 0x00F1),
    (0x7E, 0x00FC), (0x7F, 0x00E0)]

/-- `Gsm7bitExtToUcs2`, from `gsm0338_ext_map.dat`. -/
def gsm7bitExtToUcs2 : List (BYTE × WORD) :=
  [(0x0A, 0x000C), (0x14, 0x005E), (0x28, 0x007B), (0x29, 0x007D), (0x2F, 0x005C), (0x3C, 0x005B),
    (0x3D, 0x007E), (0x3E, 0x005D), (0x40, 0x007C), (0x65, 0x20AC)]

def replacmenteOfInvalidCode : WORD := 0x0020

/-- What the default table makes of a septet. -/
def defaultUcs2 (septet : BYTE) : WORD :=
  (gsm7bitDefToUcs2.lookup septet).getD replacmenteOfInvalidCode

/-- The loop of `ConvertGsm7bitToUcs2`: an escape takes the septet behind
it along when the extension table has it. -/
def gsm7bitToUcs2Loop : List BYTE → ℕ → List WORD → Option (List WORD × ℕ)
  | [], dstIdx, dst => some (dst, dstIdx)
  | [septet], dstIdx, dst => do
      let dst ← Block.put dst dstIdx (defaultUcs2 septet)
      some (dst, dstIdx + 1)
  | septet :: next :: rest, dstIdx, dst =>
      if septet = 0x1B then
        match gsm7bitExtToUcs2.lookup next with
        | some ucs2 => do
            let dst ← Block.put dst dstIdx ucs2
            gsm7bitToUcs2Loop rest (dstIdx + 1) dst
        | none => do
            let dst ← Block.put dst dstIdx 0x0020
            gsm7bitToUcs2Loop (next :: rest) (dstIdx + 1) dst
      else do
        let dst ← Block.put dst dstIdx (defaultUcs2 septet)
        gsm7bitToUcs2Loop (next :: rest) (dstIdx + 1) dst

def convertGsm7bitToUcs2 (src : List BYTE) (dst : List WORD) : Option (List WORD × ℕ) :=
  gsm7bitToUcs2Loop src 0 dst

/-! ## The conversions to the destination -/

def convert8bitdataToUtf8 (src dst : List BYTE) : Option (List BYTE × ℕ) :=
  if src.length = 0 ∨ dst.length = 0 then some (dst, 0)
  else if src.length < dst.length then do
    let dst ← Block.store dst 0 src
    some (dst, src.length)
  else some (dst, 0)

/-- The character `snprintf` prints for a nibble under `%x`. -/
def lowerHexDigit (n : BitVec 4) : BYTE :=
  if n.toNat < 10 then BitVec.ofNat 8 (48 + n.toNat) else BitVec.ofNat 8 (87 + n.toNat)

/-- The text of one byte under `%02x`. -/
def lowerHexPair (b : BYTE) : List BYTE :=
  [lowerHexDigit (b.extractLsb' 4 4), lowerHexDigit (b.extractLsb' 0 4)]

/-- The loop of `ConvertToHexString`. -/
def hexStringLoop : List BYTE → ℕ → List BYTE → Option (List BYTE)
  | [], _, dst => some dst
  | byte :: rest, dstIdx, dst => do
      let dst ← Block.store dst dstIdx (lowerHexPair byte)
      hexStringLoop rest (dstIdx + 2) dst

def convertToHexString (src dst : List BYTE) : Option (List BYTE × ℕ) :=
  let decLen := src.length * 2
  if src.length = 0 ∨ dst.length = 0 then some (dst, 0)
  else if dst.length - 1 ≤ decLen then some (dst, 0)
  else do
    let dst ← hexStringLoop src 0 dst
    some (dst, decLen)

/-- The loop of `BeByteStream2LeUcs2`, which fills a unit by its two
bytes. -/
def beByteStreamLoop : List BYTE → ℕ → List WORD → Option (List WORD)
  | high :: low :: rest, i, dst => do
      let dst ← Block.put dst i (high ++ low)
      beByteStreamLoop rest (i + 1) dst
  | _, _, dst => some dst

def beByteStream2LeUcs2 (src : List BYTE) (dst : List WORD) : Option (List WORD × ℕ) :=
  if src.length = 0 ∨ dst.length = 0 then some (dst, 0)
  else if src.length % 2 ≠ 0 then some (dst, 0)
  else do
    let ucsLen := src.length / 2
    let dst ← beByteStreamLoop src 0 dst
    some (dst, ucsLen)

/-- `dst_size - 3`, as `size_t` has it. -/
def sizeLess3 (dstSize : ℕ) : ℕ :=
  (BitVec.ofNat 64 dstSize - 3).toNat

/-- The loop of `ConvertUcs2ToUtf8`: it stops when a sequence of three
bytes might not fit. -/
def ucs2ToUtf8Loop : List WORD → ℕ → List BYTE → Option (List BYTE × ℕ)
  | [], utfIdx, dst => some (dst, utfIdx)
  | ucs2 :: rest, utfIdx, dst =>
      if sizeLess3 dst.length ≤ utfIdx then some (dst, utfIdx)
      else do
        let dst ← Block.store dst utfIdx (Utf8.unit ucs2)
        ucs2ToUtf8Loop rest (utfIdx + (Utf8.unit ucs2).length) dst

def convertUcs2ToUtf8 (src : List WORD) (dst : List BYTE) : Option (List BYTE × ℕ) :=
  ucs2ToUtf8Loop src 0 dst

/-- The UCS2 branch of `DecodingUssd`. -/
def decodingUcs2 (src dst : List BYTE) : Option (List BYTE × ℕ) := do
  let (ucs2, ucs2Len) ← beByteStream2LeUcs2 src (List.replicate maxUssdDataLen 0)
  let units ← Block.load ucs2 0 ucs2Len
  convertUcs2ToUtf8 units dst

/-- The GSM 7-bit branch of `DecodingUssd`. -/
def decodingGsm7bit (src dst : List BYTE) : Option (List BYTE × ℕ) := do
  let (gsm7, gsm7Len) ← unpackingGsm7bit src (List.replicate maxUssdDataLen 0)
  let septets ← Block.load gsm7 0 gsm7Len
  let (ucs2, ucs2Len) ← convertGsm7bitToUcs2 septets (List.replicate maxUssdDataLen 0)
  let units ← Block.load ucs2 0 ucs2Len
  convertUcs2ToUtf8 units dst

/-- `DecodingUssd`: the destination afterwards and the returned length. -/
def decodingUssd (dcs : BYTE) (src dst : List BYTE) : Option (List BYTE × ℕ) :=
  match getUssdDcs dcs with
  | .eucKr => convertToHexString src dst
  | .data8bit => convert8bitdataToUtf8 src dst
  | .ucs2 => decodingUcs2 src dst
  | .gsm7bitDa | .reserved => decodingGsm7bit src dst
  | .gsm7bitData => convertToHexString src dst
  | .unspecified => some (dst, 0)

/-! ## What the stages do -/

variable {src : List BYTE} {i : ℕ}

/-- A septet loop that stays inside returns the septets it wrote. -/
theorem unpackingLoop_eq_some {dest : List BYTE}
    (h : src = [] ∨ i + src.length + (i + src.length - 1) / 7 + 1 ≤ dest.length) :
    ∃ dest', unpackingLoop src i (i + i / 7) dest =
        some (dest', i + src.length + (i + src.length) / 7) ∧ dest'.length = dest.length := by
  induction src generalizing i dest with
  | nil => exact ⟨dest, rfl, rfl⟩
  | cons byte rest ih =>
      have hfit := h.resolve_left (cons_ne_nil _ _)
      rw [length_cons] at hfit
      have hcell : i + i / 7 < dest.length := by omega
      obtain ⟨dest₁, hput₁, hlen₁⟩ :=
        Block.put_of_lt (dest[i + i / 7] ||| (byte <<< (i % 7) &&& 0x7F)) hcell
      obtain ⟨dest₂, hput₂, hlen₂⟩ := Block.put_of_lt (b := dest₁) (i := i + i / 7 + 1)
        (byte >>> (7 - i % 7)) (by rw [hlen₁]; omega)
      have hnext : (if 7 - i % 7 = 1 then i + i / 7 + 1 else i + i / 7) + 1 =
          i + 1 + (i + 1) / 7 := by
        split <;> omega
      have hrest : rest = [] ∨
          i + 1 + rest.length + (i + 1 + rest.length - 1) / 7 + 1 ≤ dest₂.length := by
        rw [hlen₂, hlen₁]
        exact Or.inr (by omega)
      obtain ⟨dest', hloop, hlen⟩ := ih hrest
      refine ⟨dest', ?_, hlen.trans (hlen₂.trans hlen₁)⟩
      have hget : dest[i + i / 7]? = some dest[i + i / 7] := getElem?_eq_getElem hcell
      simp only [unpackingLoop, hget, bind_eq_bind, bind_some, hput₁,
        hput₂, hnext, hloop, length_cons]
      congr 2
      omega

/-- And one that leaves the array faults. -/
theorem unpackingLoop_eq_none {dest : List BYTE} (hsrc : src ≠ [])
    (h : dest.length < i + src.length + (i + src.length - 1) / 7 + 1) :
    unpackingLoop src i (i + i / 7) dest = none := by
  induction src generalizing i dest with
  | nil => exact absurd rfl hsrc
  | cons byte rest ih =>
      rw [length_cons] at h
      simp only [unpackingLoop, bind_eq_bind, bind_eq_none_iff]
      intro cell _ dest₁ hput₁ dest₂ hput₂
      have hlen₁ := Block.store_length hput₁
      have hlen₂ := Block.store_length hput₂
      have hfit := Block.store_isSome_iff.mp (isSome_iff_exists.mpr ⟨dest₂, hput₂⟩)
      rw [length_singleton, hlen₁] at hfit
      have hnext : (if 7 - i % 7 = 1 then i + i / 7 + 1 else i + i / 7) + 1 =
          i + 1 + (i + 1) / 7 := by
        split <;> omega
      have hrest : rest ≠ [] := by
        rintro rfl
        rw [length_nil] at h
        omega
      rw [hnext]
      refine ih hrest ?_
      rw [hlen₂, hlen₁]
      omega

/-- What is written is the front of the destination, and its length is
returned. -/
def emitted (dst out : List BYTE) : List BYTE × ℕ :=
  (out ++ dst.drop out.length, out.length)

variable {dst : List BYTE}

theorem eq_of_emitted_eq {out out' : List BYTE} (h : emitted dst out = emitted dst out') :
    out = out' := by
  obtain ⟨hblock, hlen⟩ := Prod.mk.inj h
  have htake := congrArg (List.take out.length) hblock
  rw [take_left, hlen, take_left] at htake
  exact htake

@[simp] theorem emitted_nil (dst : List BYTE) : emitted dst [] = (dst, 0) := rfl

/-- The alphabet conversion writes at most one unit a septet. -/
theorem gsm7bitToUcs2Loop_eq_some (src : List BYTE) {dst : List WORD}
    (h : i + src.length ≤ dst.length) :
    ∃ dst' n, gsm7bitToUcs2Loop src i dst = some (dst', n) ∧ n ≤ i + src.length ∧
      dst'.length = dst.length := by
  induction src, i, dst using gsm7bitToUcs2Loop.induct with
  | case1 i dst => exact ⟨dst, i, rfl, Nat.le_refl _, rfl⟩
  | case2 septet i dst =>
      obtain ⟨dst', hput, hlen⟩ := Block.put_of_lt (defaultUcs2 septet) (Nat.lt_of_succ_le h)
      exact ⟨dst', i + 1, by simp [gsm7bitToUcs2Loop, hput], Nat.le_refl _, hlen⟩
  | case3 next rest i dst ucs2 hext ih =>
      -- the escape and the septet behind it make one unit
      simp only [length_cons] at h ⊢
      obtain ⟨dst₁, hput, hlen₁⟩ := Block.put_of_lt ucs2 (b := dst) (i := i) (by omega)
      obtain ⟨dst', n, hloop, hn, hlen⟩ := ih dst₁ (by omega)
      refine ⟨dst', n, ?_, by omega, hlen.trans hlen₁⟩
      simp only [gsm7bitToUcs2Loop, if_true, hext, bind_eq_bind, hput, bind_some, hloop]
  | case4 next rest i dst hext ih =>
      simp only [length_cons] at h ⊢
      obtain ⟨dst₁, hput, hlen₁⟩ := Block.put_of_lt 0x0020 (b := dst) (i := i) (by omega)
      obtain ⟨dst', n, hloop, hn, hlen⟩ := ih dst₁ (by rw [length_cons]; omega)
      rw [length_cons] at hn
      refine ⟨dst', n, ?_, by omega, hlen.trans hlen₁⟩
      simp only [gsm7bitToUcs2Loop, if_true, hext, bind_eq_bind, hput, bind_some, hloop]
  | case5 septet next rest i dst hescape ih =>
      simp only [length_cons] at h ⊢
      obtain ⟨dst₁, hput, hlen₁⟩ :=
        Block.put_of_lt (defaultUcs2 septet) (b := dst) (i := i) (by omega)
      obtain ⟨dst', n, hloop, hn, hlen⟩ := ih dst₁ (by rw [length_cons]; omega)
      rw [length_cons] at hn
      refine ⟨dst', n, ?_, by omega, hlen.trans hlen₁⟩
      simp only [gsm7bitToUcs2Loop, if_neg hescape, bind_eq_bind, hput, bind_some, hloop]

/-- The byte pairs of a UCS2 message fill as many units. -/
theorem beByteStreamLoop_eq_some (src : List BYTE) {dst : List WORD}
    (h : i + src.length / 2 ≤ dst.length) :
    ∃ dst', beByteStreamLoop src i dst = some dst' ∧ dst'.length = dst.length := by
  induction src, i, dst using beByteStreamLoop.induct with
  | case1 high low rest i dst ih =>
      simp only [length_cons] at h
      obtain ⟨dst₁, hput, hlen₁⟩ := Block.put_of_lt (high ++ low) (b := dst) (i := i) (by omega)
      obtain ⟨dst', hloop, hlen⟩ := ih dst₁ (by omega)
      exact ⟨dst', by simp [beByteStreamLoop, hput, hloop], hlen.trans hlen₁⟩
  | case2 src i dst hshort =>
      exact ⟨dst, by rw [beByteStreamLoop]; exact hshort, rfl⟩

/-- For a destination of at least three bytes the subtraction is the
usual one. -/
theorem sizeLess3_eq {n : ℕ} (h : 3 ≤ n) (hn : n < 2 ^ 64) : sizeLess3 n = n - 3 := by
  rw [sizeLess3, BitVec.toNat_sub_of_le, BitVec.toNat_ofNat, Nat.mod_eq_of_lt hn]
  · rfl
  · rw [BitVec.le_def, BitVec.toNat_ofNat, Nat.mod_eq_of_lt hn]
    exact h

/-- **The UTF-8 loop emits whole sequences** behind what it has emitted,
and stops before one that might not fit. -/
theorem ucs2ToUtf8Loop_eq_some (src : List WORD) (p r : List BYTE)
    (hsize : 4 ≤ (p ++ r).length) (hmax : (p ++ r).length < 2 ^ 64) :
    ∃ out, ucs2ToUtf8Loop src p.length (p ++ r) =
        some (p ++ out ++ r.drop out.length, p.length + out.length) ∧
      out.length ≤ r.length ∧ Utf8.Complete out := by
  induction src generalizing p r with
  | nil => exact ⟨[], by simp [ucs2ToUtf8Loop], Nat.zero_le _, trivial⟩
  | cons ucs2 rest ih =>
      have hguard := sizeLess3_eq (by omega : 3 ≤ (p ++ r).length) hmax
      by_cases hstop : sizeLess3 (p ++ r).length ≤ p.length
      · refine ⟨[], ?_, Nat.zero_le _, trivial⟩
        rw [ucs2ToUtf8Loop, if_pos hstop, append_nil]
        rfl
      · have hunit := Utf8.unit_length_le ucs2
        have hroom : (Utf8.unit ucs2).length ≤ r.length := by
          rw [hguard, length_append] at hstop
          omega
        have hstore := Block.store_behind (p := p) hroom
        have hlength : (p ++ Utf8.unit ucs2 ++ r.drop (Utf8.unit ucs2).length).length =
            (p ++ r).length := Block.store_length hstore
        obtain ⟨out, hloop, hle, hcomplete⟩ := ih (p ++ Utf8.unit ucs2)
          (r.drop (Utf8.unit ucs2).length) (by rw [hlength]; exact hsize)
          (by rw [hlength]; exact hmax)
        refine ⟨Utf8.unit ucs2 ++ out, ?_, ?_, (Utf8.complete_unit ucs2).append hcomplete⟩
        · rw [length_append] at hloop
          simp only [ucs2ToUtf8Loop, if_neg hstop, hstore, bind_eq_bind, bind_some, hloop]
          simp only [append_assoc, length_append, drop_drop, Nat.add_assoc]
        · rw [length_drop] at hle
          rw [length_append]
          omega

/-- The UTF-8 loop emits the units that begin three bytes before the end
of the destination at the latest. -/
theorem ucs2ToUtf8Loop_fitting (us : List WORD) (p r : List BYTE) (hsize : 3 ≤ (p ++ r).length)
    (hmax : (p ++ r).length < 2 ^ 64) :
    ucs2ToUtf8Loop us p.length (p ++ r) =
      some (p ++ Utf8.code.encodeAll (Utf8.code.fitting ((p ++ r).length - 3) p.length us) ++
        r.drop (Utf8.code.encodeAll (Utf8.code.fitting ((p ++ r).length - 3) p.length us)).length,
        p.length +
          (Utf8.code.encodeAll (Utf8.code.fitting ((p ++ r).length - 3) p.length us)).length) := by
  induction us generalizing p r with
  | nil => simp [ucs2ToUtf8Loop, PrefixCode.fitting]
  | cons u us ih =>
      have hguard := sizeLess3_eq hsize hmax
      rw [ucs2ToUtf8Loop, PrefixCode.fitting, hguard]
      by_cases hstop : (p ++ r).length - 3 ≤ p.length
      · rw [if_pos hstop, if_pos hstop]
        simp
      · have hunit := Utf8.unit_length_le u
        have hroom : (Utf8.unit u).length ≤ r.length := by
          rw [length_append] at hstop
          omega
        have hstore := Block.store_behind (p := p) hroom
        have hlength : (p ++ Utf8.unit u ++ r.drop (Utf8.unit u).length).length =
            (p ++ r).length := Block.store_length hstore
        have hloop := ih (p ++ Utf8.unit u) (r.drop (Utf8.unit u).length)
          (by rw [hlength]; exact hsize) (by rw [hlength]; exact hmax)
        rw [hlength, length_append] at hloop
        have hcode : Utf8.code.encode u = Utf8.unit u := rfl
        simp only [if_neg hstop, hstore, bind_eq_bind, bind_some, hloop, hcode,
          PrefixCode.encodeAll_cons]
        simp only [append_assoc, length_append, drop_drop, Nat.add_assoc]

theorem convertUcs2ToUtf8_eq_some (src : List WORD) (hsize : 4 ≤ dst.length)
    (hmax : dst.length < 2 ^ 64) :
    ∃ out, convertUcs2ToUtf8 src dst = some (emitted dst out) ∧ out.length ≤ dst.length ∧
      Utf8.Complete out := by
  obtain ⟨out, hloop, hle, hcomplete⟩ := ucs2ToUtf8Loop_eq_some src [] dst hsize hmax
  refine ⟨out, ?_, hle, hcomplete⟩
  simpa [convertUcs2ToUtf8, emitted] using hloop

/-- **A text that does not fit is cut between characters**: what is written is the encoding
of one text only, a front of the source, which is the whole source or leaves at most three
bytes. -/
theorem convertUcs2ToUtf8_cut (src : List WORD) {dst : List BYTE} (hsize : 3 ≤ dst.length)
    (hmax : dst.length < 2 ^ 64) :
    ∃ text, (∀ us, convertUcs2ToUtf8 src dst = some (emitted dst (Utf8.code.encodeAll us)) ↔
        us = text) ∧
      text <+: src ∧ (text = src ∨ dst.length ≤ (Utf8.code.encodeAll text).length + 3) := by
  obtain ⟨hfront, -, hend⟩ :=
    PrefixCode.fitting_eq_iff.mp (rfl : Utf8.code.fitting (dst.length - 3) 0 src = _)
  have hloop := ucs2ToUtf8Loop_fitting src [] dst hsize hmax
  simp only [nil_append, length_nil, Nat.zero_add] at hloop hend
  refine ⟨_, fun us => ⟨fun h => ?_, fun h => h ▸ hloop⟩, hfront, hend.imp_right (by omega)⟩
  -- Another text with the same bytes is the same text.
  have hsame := some.inj (hloop.symm.trans h)
  exact (PrefixCode.encodeAll_injective (eq_of_emitted_eq hsame)).symm

/-- Five bytes have room for an `A` and a euro sign. -/
theorem convertUcs2ToUtf8_euro :
    ∃ text : List WORD, (∀ us, convertUcs2ToUtf8 [0x41, 0x20AC, 0x42] [0, 0, 0, 0, 0] =
        some (emitted [0, 0, 0, 0, 0] (Utf8.code.encodeAll us)) ↔ us = text) ∧
      text <+: [0x41, 0x20AC, 0x42] ∧
      (text = [0x41, 0x20AC, 0x42] ∨ 5 ≤ (Utf8.code.encodeAll text).length + 3) :=
  convertUcs2ToUtf8_cut [0x41, 0x20AC, 0x42] (by decide) (by decide)

theorem announced_lowerHexDigit (n : BitVec 4) : Utf8.announced (lowerHexDigit n) = 0 := by
  revert n
  decide +kernel

/-- The hex loop prints two digits a byte. -/
theorem hexStringLoop_eq_some (src : List BYTE) (p r : List BYTE)
    (h : 2 * src.length ≤ r.length) :
    hexStringLoop src p.length (p ++ r) =
      some (p ++ src.flatMap lowerHexPair ++ r.drop (2 * src.length)) := by
  induction src generalizing p r with
  | nil => simp [hexStringLoop]
  | cons byte rest ih =>
      rw [length_cons] at h
      have hstore := Block.store_behind (p := p) (r := r)
        (by simpa [lowerHexPair] using (by omega : 2 ≤ r.length) :
          (lowerHexPair byte).length ≤ r.length)
      have hnext : p.length + 2 = (p ++ lowerHexPair byte).length := by
        simp [lowerHexPair]
      have hrest : 2 * rest.length ≤ (r.drop (lowerHexPair byte).length).length := by
        simp only [lowerHexPair, length_drop, length_cons, length_nil]
        omega
      have hloop := ih (p ++ lowerHexPair byte) (r.drop (lowerHexPair byte).length) hrest
      have hdouble : (lowerHexPair byte).length + 2 * rest.length = 2 * (rest.length + 1) := by
        simp only [lowerHexPair, length_cons, length_nil]
        omega
      simp only [hexStringLoop, hstore, bind_eq_bind, bind_some]
      rw [hnext, hloop]
      simp only [flatMap_cons, append_assoc, drop_drop, hdouble, length_cons]

/-- The hex conversion emits the text of all bytes, or nothing. -/
theorem convertToHexString_eq_some (src dst : List BYTE) :
    ∃ out, convertToHexString src dst = some (emitted dst out) ∧ out.length ≤ dst.length ∧
      Utf8.Complete out := by
  by_cases hempty : src.length = 0 ∨ dst.length = 0
  · exact ⟨[], by rw [convertToHexString, if_pos hempty, emitted_nil], Nat.zero_le _, trivial⟩
  · by_cases hlong : dst.length - 1 ≤ src.length * 2
    · refine ⟨[], ?_, Nat.zero_le _, trivial⟩
      simp only [convertToHexString, if_neg hempty, if_pos hlong, emitted_nil]
    · have hlen : (src.flatMap lowerHexPair).length = src.length * 2 := by
        simp [lowerHexPair]
      have hloop := hexStringLoop_eq_some src [] dst (by omega)
      refine ⟨src.flatMap lowerHexPair, ?_, by omega, ?_⟩
      · simp only [nil_append, length_nil] at hloop
        simp only [convertToHexString, if_neg hempty, if_neg hlong, hloop, bind_eq_bind,
          bind_some, emitted, hlen]
        rw [Nat.mul_comm]
      · refine Utf8.complete_of_announced_eq_zero ?_
        intro b hb
        obtain ⟨byte, _, hbyte⟩ := mem_flatMap.mp hb
        simp only [lowerHexPair, mem_cons, not_mem_nil, or_false] at hbyte
        rcases hbyte with rfl | rfl <;> exact announced_lowerHexDigit _

/-- 8-bit data are copied as they are, or not at all. -/
theorem convert8bitdataToUtf8_eq (src dst : List BYTE) :
    convert8bitdataToUtf8 src dst =
      some (emitted dst (if src.length < dst.length then src else [])) := by
  by_cases hempty : src.length = 0 ∨ dst.length = 0
  · have hnil : (if src.length < dst.length then src else []) = [] := by
      split
      · next hlt => exact eq_nil_of_length_eq_zero (by omega)
      · rfl
    rw [convert8bitdataToUtf8, if_pos hempty, hnil, emitted_nil]
  · by_cases hfit : src.length < dst.length
    · simp only [convert8bitdataToUtf8, if_neg hempty, if_pos hfit,
        Block.store_zero (Nat.le_of_lt hfit), bind_eq_bind, bind_some, emitted]
    · simp only [convert8bitdataToUtf8, if_neg hempty, if_neg hfit, emitted_nil]

/-- The UCS2 branch emits whole sequences. -/
theorem decodingUcs2_eq_some (hsrc : src.length ≤ maxUssdDataLen) (hsize : 4 ≤ dst.length)
    (hmax : dst.length < 2 ^ 64) :
    ∃ out, decodingUcs2 src dst = some (emitted dst out) ∧ out.length ≤ dst.length ∧
      Utf8.Complete out := by
  obtain ⟨ucs2, n, hstream, hn⟩ : ∃ ucs2 n,
      beByteStream2LeUcs2 src (List.replicate maxUssdDataLen 0) = some (ucs2, n) ∧
        0 + n ≤ ucs2.length := by
    rw [beByteStream2LeUcs2]
    split_ifs with hempty hodd
    · exact ⟨_, 0, rfl, Nat.zero_le _⟩
    · exact ⟨_, 0, rfl, Nat.zero_le _⟩
    · have hroom : 0 + src.length / 2 ≤ (List.replicate maxUssdDataLen (0 : WORD)).length := by
        rw [length_replicate]
        omega
      obtain ⟨ucs2, hloop, hlen⟩ := beByteStreamLoop_eq_some src hroom
      refine ⟨ucs2, src.length / 2, ?_, by rw [hlen]; exact hroom⟩
      simp only [hloop, bind_eq_bind, bind_some]
  obtain ⟨out, hconvert, hout⟩ :=
    convertUcs2ToUtf8_eq_some ((ucs2.drop 0).take n) hsize hmax
  refine ⟨out, ?_, hout⟩
  simp only [decodingUcs2, hstream, Block.load_of_le hn, hconvert, bind_eq_bind, bind_some]

/-- **The GSM 7-bit branch stays inside for up to 159 bytes**: they make
181 septets, and the last byte begins one more cell. -/
theorem decodingGsm7bit_eq_some (hsrc : src.length ≤ 159) (hsize : 4 ≤ dst.length)
    (hmax : dst.length < 2 ^ 64) :
    ∃ out, decodingGsm7bit src dst = some (emitted dst out) ∧ out.length ≤ dst.length ∧
      Utf8.Complete out := by
  have hfit : src = [] ∨ 0 + src.length + (0 + src.length - 1) / 7 + 1 ≤
      (List.replicate maxUssdDataLen (0 : BYTE)).length := by
    by_cases hnil : src = []
    · exact Or.inl hnil
    · have hpos := length_pos_iff.mpr hnil
      rw [length_replicate, maxUssdDataLen]
      exact Or.inr (by omega)
  obtain ⟨gsm7, hunpack, hgsm7⟩ := unpackingLoop_eq_some hfit
  rw [length_replicate, maxUssdDataLen] at hgsm7
  have hload : 0 + (0 + src.length + (0 + src.length) / 7) ≤ gsm7.length := by omega
  have hunits : 0 + ((gsm7.drop 0).take (0 + src.length + (0 + src.length) / 7)).length ≤
      (List.replicate maxUssdDataLen (0 : WORD)).length := by
    rw [length_replicate, maxUssdDataLen, length_take, length_drop]
    omega
  obtain ⟨ucs2, n, halphabet, hn, hucs2⟩ := gsm7bitToUcs2Loop_eq_some _ hunits
  have hload' : 0 + n ≤ ucs2.length := by
    rw [hucs2]
    omega
  obtain ⟨out, hconvert, hout⟩ :=
    convertUcs2ToUtf8_eq_some ((ucs2.drop 0).take n) hsize hmax
  refine ⟨out, ?_, hout⟩
  simp only [decodingGsm7bit, unpackingGsm7bit, hunpack, Block.load_of_le hload,
    convertGsm7bitToUcs2, halphabet, Block.load_of_le hload', hconvert, bind_eq_bind, bind_some]

/-- And writes behind `Gsm7` for more. -/
theorem decodingGsm7bit_eq_none (hsrc : 159 < src.length) :
    decodingGsm7bit src dst = none := by
  have hne : src ≠ [] := by
    rintro rfl
    simp at hsrc
  have hover : (List.replicate maxUssdDataLen (0 : BYTE)).length <
      0 + src.length + (0 + src.length - 1) / 7 + 1 := by
    rw [length_replicate, maxUssdDataLen]
    omega
  have hunpack : unpackingGsm7bit src (List.replicate maxUssdDataLen 0) = none :=
    unpackingLoop_eq_none hne hover
  simp only [decodingGsm7bit, hunpack, bind_eq_bind, bind_none]

/-! ## Safety -/

/-- **A message is decoded safely**: no access leaves its array, what is
written is the front of the destination and its length is returned, and
no UTF-8 sequence in it is cut off. -/
def DecodesSafely (dcs : BYTE) (src dst : List BYTE) : Prop :=
  ∃ out, decodingUssd dcs src dst = some (emitted dst out) ∧ out.length ≤ dst.length ∧
    Utf8.Complete out

/-- The messages decoded safely, by their scheme. A 7-bit message is no
longer than 159 bytes; 8-bit data are copied unconverted, so they are
whole sequences already, if they fit. -/
def Decodable (dcs : BYTE) (src dst : List BYTE) : Prop :=
  match getUssdDcs dcs with
  | .gsm7bitDa | .reserved => src.length ≤ 159
  | .data8bit => src.length < dst.length → Utf8.Complete src
  | _ => True

/-- **Which messages are decoded safely**, among those a network can send
into a destination of at least four bytes. -/
theorem decodesSafely_iff {dcs : BYTE} {src dst : List BYTE} (hsrc : src.length ≤ maxUssdDataLen)
    (hsize : 4 ≤ dst.length) (hmax : dst.length < 2 ^ 64) :
    DecodesSafely dcs src dst ↔ Decodable dcs src dst := by
  have hgsm : (∃ out, decodingGsm7bit src dst = some (emitted dst out) ∧
      out.length ≤ dst.length ∧ Utf8.Complete out) ↔ src.length ≤ 159 := by
    constructor
    · rintro ⟨out, hdecode, -⟩
      by_contra hlong
      rw [decodingGsm7bit_eq_none (by omega)] at hdecode
      exact absurd hdecode (some_ne_none _).symm
    · intro hshort
      exact decodingGsm7bit_eq_some hshort hsize hmax
  unfold DecodesSafely Decodable decodingUssd
  cases getUssdDcs dcs with
  | gsm7bitDa => exact hgsm
  | reserved => exact hgsm
  | data8bit =>
      simp only [convert8bitdataToUtf8_eq, some.injEq]
      constructor
      · rintro ⟨out, heq, -, hcomplete⟩ hfit
        rw [if_pos hfit] at heq
        rw [eq_of_emitted_eq heq]
        exact hcomplete
      · intro hcomplete
        refine ⟨_, rfl, ?_, ?_⟩
        · split
          · next hfit => exact Nat.le_of_lt hfit
          · exact Nat.zero_le _
        · split
          · next hfit => exact hcomplete hfit
          · trivial
  | ucs2 => exact iff_of_true (decodingUcs2_eq_some hsrc hsize hmax) trivial
  | eucKr => exact iff_of_true (convertToHexString_eq_some src dst) trivial
  | gsm7bitData => exact iff_of_true (convertToHexString_eq_some src dst) trivial
  | unspecified => exact iff_of_true ⟨[], rfl, Nat.zero_le _, trivial⟩ trivial

/-- The five bytes of a short GSM 7-bit message. -/
theorem decodesSafely_gsm7bit :
    DecodesSafely 0x0F [0xE8, 0x32, 0x9B, 0xFD, 0x06] (List.replicate 16 0) := by
  refine (decodesSafely_iff (by decide) (by decide) (by decide)).mpr ?_
  have hscheme : getUssdDcs 0x0F = .gsm7bitDa := by decide
  rw [Decodable, hscheme]
  decide

/-- **A GSM 7-bit message of 160 bytes writes behind `Gsm7`**, far below
`MAX_USSD_DATA_LEN`. -/
theorem not_decodesSafely_gsm7bit :
    ¬ DecodesSafely 0x0F (List.replicate 160 0) (List.replicate 768 0) := by
  rintro ⟨out, hdecode, -⟩
  have hscheme : getUssdDcs 0x0F = .gsm7bitDa := by decide
  have hfault : decodingUssd 0x0F (List.replicate 160 0) (List.replicate 768 0) = none := by
    rw [decodingUssd, hscheme]
    exact decodingGsm7bit_eq_none (by rw [length_replicate]; omega)
  rw [hfault] at hdecode
  exact absurd hdecode (some_ne_none _).symm

end ExynosVendor.Ril
