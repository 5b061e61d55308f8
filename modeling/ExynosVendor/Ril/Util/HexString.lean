import ExynosVendor.Ril.Util.Hex

/-!
# The other hex conversions

`util/util.cpp` converts hex text a second time: `ConvertToHexString` is
written beside `Value2HexString`, and two `ConvertToRaw` beside
`HexString2Value`.

`ConvertToHexString` gives each `snprintf` what is left of twice the
length, which for the last byte is two characters: one digit and the
terminator. Its last digit is never there, whichever sign a `char` has
on the platform (`not_hexConversionsAgree`).
-/

namespace ExynosVendor.Ril.HexString

open List

/-! ## The writer -/

/-- What `%02X` prints of a number: two digits, or more when it has
more. -/
def percent02X (v : INT) : List Char :=
  let digits := (List.range 8).map fun k => hexDigit (v.extractLsb' (28 - 4 * k) 4)
  (digits.take 6).dropWhile (fun ch => ch == '0') ++ digits.drop 6

/-- `snprintf` to an offset of a block, with so much room for the text and
its terminator. -/
def snprintf (out : List Char) (offset size : ℕ) (text : List Char) : Option (List Char) :=
  if size = 0 then some out
  else Block.store out offset (text.take (size - 1) ++ ['\x00'])

/-- The loop of `ConvertToHexString`. -/
def convertToHexStringLoop (signedChar : Bool) (buflen : ℕ) :
    List BYTE → ℕ → List Char → Option (List Char)
  | [], _, hex => some hex
  | b :: data, n, hex => do
      let text := percent02X (charInt signedChar b)
      -- the room is a difference of two `size_t`
      let size := (BitVec.ofNat 64 buflen - BitVec.ofNat 64 n).toNat
      let hex ← snprintf hex n size text
      convertToHexStringLoop signedChar buflen data (n + text.length) hex

/-- `ConvertToHexString`: the block it allocates. -/
def convertToHexString (signedChar : Bool) (data : List BYTE) : Option (List Char) :=
  let buflen := data.length * 2
  if buflen + 1 < 2 ^ 31 then
    convertToHexStringLoop signedChar buflen data 0 (List.replicate (buflen + 1) '\x00')
  else none

/-! ## The readers -/

def hexCharToInt (c : Char) : BYTE :=
  if '0' ≤ c ∧ c ≤ '9' then BitVec.ofNat 8 (c.toNat - '0'.toNat)
  else if 'A' ≤ c ∧ c ≤ 'F' then BitVec.ofNat 8 (c.toNat - 'A'.toNat) + 10
  else if 'a' ≤ c ∧ c ≤ 'f' then BitVec.ofNat 8 (c.toNat - 'a'.toNat) + 10
  else 0

/-- The loop of both `ConvertToRaw`: behind an odd last digit the
terminator is read. -/
def convertToRawLoop : List Char → ℕ → List BYTE → Option (List BYTE)
  | [], _, data => some data
  | [c], i, data => Block.put data i (hexCharToInt c <<< 4 ||| hexCharToInt '\x00')
  | c :: d :: rest, i, data => do
      let data ← Block.put data i (hexCharToInt c <<< 4 ||| hexCharToInt d)
      convertToRawLoop rest (i + 1) data

/-- `ConvertToRaw(hexStr, data, len)`: the data and the length. -/
def convertToRaw (hexStr : List Char) (data : List BYTE) : Option (List BYTE × ℕ) := do
  let data ← convertToRawLoop hexStr 0 data
  some (data, hexStr.length / 2)

/-- `ConvertToRaw(hexStr, buf, bufSize)`: the buffer and the length. -/
def convertToRawSized (hexStr : List Char) (buf : List BYTE) (bufSize : ℤ) :
    Option (List BYTE × ℕ) :=
  if hexStr = [] then some (buf, 0)
  else if bufSize ≤ 0 then some (buf, 0)
  else if hexStr.length % 2 ≠ 0 ∨ bufSize < (hexStr.length / 2 : ℕ) then some (buf, 0)
  else do
    let buf ← convertToRawLoop hexStr 0 buf
    some (buf, hexStr.length / 2)

/-- **The conversions agree on a byte string**: its text has two digits a
byte, all three readers give the bytes back from it into any block that
has room, and it is what `Value2HexString` prints. -/
structure HexConversionsAgree (signedChar : Bool) (b : List BYTE) (hex : List Char) : Prop where
  written : convertToHexString signedChar b = some hex
  length : (cString hex).length = 2 * b.length
  digits : ∀ ch ∈ cString hex, hexChar2Value ch ≠ -1
  raw : ∀ data, b.length ≤ data.length →
    convertToRaw (cString hex) data = some (b ++ data.drop b.length, b.length)
  rawSized : ∀ buf (bufSize : ℤ), b.length ≤ bufSize → bufSize ≤ buf.length →
    convertToRawSized (cString hex) buf bufSize = some (b ++ buf.drop b.length, b.length)
  printed : ∀ out, 2 * b.length + 1 ≤ out.length → ∃ out',
    value2HexString out b = some (out', ((2 * b.length : ℕ) : ℤ)) ∧ cString out' = cString hex
  value : ∀ out, b.length ≤ out.length →
    hexString2Value out (cString hex) = some (b ++ out.drop b.length, b.length)

/-! ## The writer's last digit -/

/-- What is left of twice the length, while it has not been passed. -/
theorem room_eq {buflen n : ℕ} (hmax : buflen < 2 ^ 31) (hn : n ≤ buflen) :
    (BitVec.ofNat 64 buflen - BitVec.ofNat 64 n).toNat = buflen - n := by
  rw [BitVec.toNat_sub_of_le]
  · rw [BitVec.toNat_ofNat, BitVec.toNat_ofNat, Nat.mod_eq_of_lt (by omega),
      Nat.mod_eq_of_lt (by omega)]
  · rw [BitVec.le_def, BitVec.toNat_ofNat, BitVec.toNat_ofNat, Nat.mod_eq_of_lt (by omega),
      Nat.mod_eq_of_lt (by omega)]
    exact hn

theorem room_pos {buflen n : ℕ} (hmax : buflen < 2 ^ 31) (hn : buflen < n) (hlt : n < 2 ^ 63) :
    0 < (BitVec.ofNat 64 buflen - BitVec.ofNat 64 n).toNat := by
  rw [BitVec.toNat_sub, BitVec.toNat_ofNat, BitVec.toNat_ofNat, Nat.mod_eq_of_lt (by omega),
    Nat.mod_eq_of_lt (by omega)]
  omega

/-- **No print leaves a digit in the last place**: it ends the text there,
or before it. -/
theorem snprintf_last {hex hex' text : List Char} {buflen n : ℕ} (hmax : buflen < 2 ^ 31)
    (hlen : hex.length = buflen + 1) (hn : n < 2 ^ 63) (hlast : hex[buflen - 1]? = some '\x00')
    (h : snprintf hex n (BitVec.ofNat 64 buflen - BitVec.ofNat 64 n).toNat text = some hex') :
    hex'.length = buflen + 1 ∧ hex'[buflen - 1]? = some '\x00' := by
  rcases Nat.lt_trichotomy n buflen with hlt | rfl | hgt
  · have hsize := room_eq hmax (Nat.le_of_lt hlt)
    rw [snprintf, hsize, if_neg (by omega)] at h
    refine ⟨(Block.store_length h).trans hlen, ?_⟩
    rw [Block.getElem?_store h, length_append, length_take, length_singleton]
    split_ifs with hin
    · -- the terminator is what stands there
      have hend : buflen - 1 - n = (text.take (buflen - n - 1)).length := by
        rw [length_take]
        omega
      rw [hend, getElem?_append_right (Nat.le_refl _), Nat.sub_self]
      rfl
    · exact hlast
  · rw [snprintf, room_eq hmax (Nat.le_refl _), Nat.sub_self, if_pos rfl, Option.some.injEq] at h
    exact ⟨h ▸ hlen, h ▸ hlast⟩
  · -- the print starts behind the block
    have hpos := room_pos hmax hgt hn
    rw [snprintf, if_neg (by omega), Block.store_eq_none] at h
    · contradiction
    · rw [hlen, length_append, length_singleton]
      omega

/-- No number has more than eight digits. -/
theorem length_percent02X_le (v : INT) : (percent02X v).length ≤ 8 := by
  have htake := (dropWhile_sublist (fun ch => ch == '0')
    (l := ((List.range 8).map fun k => hexDigit (v.extractLsb' (28 - 4 * k) 4)).take 6)).length_le
  simp only [length_take, length_map, length_range] at htake
  simp only [percent02X, length_append, length_drop, length_map, length_range]
  omega

/-- So the loop leaves none. -/
theorem convertToHexStringLoop_last {signedChar : Bool} {data : List BYTE} {hex hex' : List Char}
    {buflen n : ℕ} (hmax : buflen < 2 ^ 31) (hlen : hex.length = buflen + 1)
    (hn : n + 8 * data.length < 2 ^ 63) (hlast : hex[buflen - 1]? = some '\x00')
    (h : convertToHexStringLoop signedChar buflen data n hex = some hex') :
    hex'[buflen - 1]? = some '\x00' := by
  induction data generalizing n hex with
  | nil =>
      obtain rfl : hex = hex' := Option.some.inj h
      exact hlast
  | cons b data ih =>
      rw [length_cons] at hn
      obtain ⟨hex₁, hprint, hrest⟩ := Option.bind_eq_some_iff.mp h
      obtain ⟨hlen₁, hlast₁⟩ := snprintf_last hmax hlen (by omega) hlast hprint
      have htext := length_percent02X_le (charInt signedChar b)
      exact ih hlen₁ (by omega) hlast₁ hrest

/-- **The last digit is missing** in whatever `ConvertToHexString`
returns for at least one byte. -/
theorem convertToHexString_last {signedChar : Bool} {b : List BYTE} {hex : List Char} (hb : b ≠ [])
    (h : convertToHexString signedChar b = some hex) : (cString hex).length ≠ 2 * b.length := by
  have hpos := length_pos_iff.mpr hb
  simp only [convertToHexString] at h
  split at h
  · next hint =>
    have hlast := convertToHexStringLoop_last (by omega : b.length * 2 < 2 ^ 31)
      length_replicate (by omega)
      (by rw [getElem?_replicate, if_pos (by omega)]) h
    intro hfull
    have hin : b.length * 2 - 1 < (cString hex).length := by omega
    -- the last character would be a terminator
    have hcell : (cString hex)[b.length * 2 - 1] = '\x00' := by
      obtain ⟨_, hnul⟩ := List.getElem?_eq_some_iff.mp hlast
      have hfront := (List.takeWhile_prefix (fun c => c != '\x00') : cString hex <+: hex)
      exact (hfront.getElem hin).trans hnul
    have hmem := all_eq_true.mp all_takeWhile _ (getElem_mem hin)
    rw [hcell] at hmem
    exact absurd hmem (by decide)
  · contradiction

/-- **The conversions agree on no byte string**: not one of at least one
byte, and on no platform. -/
theorem not_hexConversionsAgree (signedChar : Bool) {b : List BYTE} (hb : b ≠ []) :
    ¬ ∃ hex, HexConversionsAgree signedChar b hex := by
  rintro ⟨hex, hagree⟩
  exact convertToHexString_last hb hagree.written hagree.length

/-- A byte with its upper bit set, where a `char` has a sign. -/
theorem not_hexConversionsAgree_signed : ¬ ∃ hex, HexConversionsAgree true [0xC3] hex :=
  not_hexConversionsAgree true (by decide)

/-- **The byte `5A` is written as `5`.** -/
theorem hexConversions_differ : ¬ ∃ hex, HexConversionsAgree false [0x5A] hex := by
  rintro ⟨hex, hagree⟩
  have hwritten : convertToHexString false [0x5A] = some ['5', '\x00', '\x00'] := by decide
  have hlength := hagree.length
  rw [hagree.written, Option.some.injEq] at hwritten
  rw [hwritten] at hlength
  exact absurd hlength (by decide)

end ExynosVendor.Ril.HexString
