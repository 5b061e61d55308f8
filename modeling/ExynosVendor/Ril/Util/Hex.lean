import ExynosVendor.Ril.Basic

/-!
# Hex text and bytes

`Value2HexString` and `HexString2Value` of `util/util.cpp`, the two
conversions the card and socket paths are built on. Both write through
a pointer into a block the caller sized, so each is stated on that block
and faults with it. What they compute is `hexText` and `hexBytes`; the
two `_eq` theorems connect the loops to them, and every later module
reads the conversions through these.
-/

namespace ExynosVendor.Ril

open List Option

/-- The character `snprintf` prints for a nibble under `%X`. -/
def hexDigit (n : BitVec 4) : Char :=
  if n.toNat < 10 then Char.ofNat (48 + n.toNat) else Char.ofNat (55 + n.toNat)

/-- The text of one byte under `%02X`. -/
def hexPair (b : BYTE) : List Char :=
  [hexDigit (b.extractLsb' 4 4), hexDigit (b.extractLsb' 0 4)]

/-- The loop of `Value2HexString`: each `snprintf` writes two digits and
a terminator, which the next one overwrites. -/
def value2HexLoop : List BYTE → ℕ → List Char → Option (List Char × ℕ)
  | [], nSrcOffset, out => some (out, nSrcOffset)
  | b :: rest, nSrcOffset, out => do
      let out ← Block.store out nSrcOffset (hexPair b ++ ['\x00'])
      value2HexLoop rest (nSrcOffset + 2) out

/-- `Value2HexString`, on the bytes of its source range: the text block
and the returned length. -/
def value2HexString (pszHexStrOut : List Char) (pHexDecIn : List BYTE) :
    Option (List Char × ℤ) :=
  if 0 < pHexDecIn.length then do
    let (out, nSrcOffset) ← value2HexLoop pHexDecIn 0 pszHexStrOut
    let out ← Block.put out nSrcOffset '\x00'
    some (out, nSrcOffset)
  else some (pszHexStrOut, -1)

/-- The C string at the start of a block. -/
def cString (block : List Char) : List Char :=
  block.takeWhile (fun c => c != '\x00')

/-- `HexChar2Value`: a digit's value, or `-1`. -/
def hexChar2Value (ch : Char) : BitVec 32 :=
  if '0' ≤ ch ∧ ch ≤ '9' then BitVec.ofNat 32 (ch.toNat - '0'.toNat)
  else if 'a' ≤ ch ∧ ch ≤ 'f' then BitVec.ofNat 32 (ch.toNat - 'a'.toNat) + 10
  else if 'A' ≤ ch ∧ ch ≤ 'F' then BitVec.ofNat 32 (ch.toNat - 'A'.toNat) + 10
  else -1

/-- What an even index contributes: the upper four bits. -/
def hexHigh (ch : Char) : BYTE :=
  (hexChar2Value ch <<< 4 &&& 0xF0).truncate 8

/-- What an odd index contributes: the lower four bits. -/
def hexLow (ch : Char) : BYTE :=
  (hexChar2Value ch &&& 0x0F).truncate 8

/-- The loop of `HexString2Value`, with its two indices. -/
def hexString2Loop : List Char → ℕ → ℕ → List BYTE → Option (List BYTE × ℕ × ℕ)
  | [], nSrcIdx, nDstIdx, out => some (out, nSrcIdx, nDstIdx)
  | ch :: rest, nSrcIdx, nDstIdx, out =>
      if nSrcIdx % 2 = 0 then do
        let out ← Block.put out nDstIdx (hexHigh ch)
        hexString2Loop rest (nSrcIdx + 1) nDstIdx out
      else do
        let cell ← out[nDstIdx]?
        let out ← Block.put out nDstIdx (cell ||| hexLow ch)
        hexString2Loop rest (nSrcIdx + 1) (nDstIdx + 1) out

/-- `HexString2Value`: the output block and the returned byte count. -/
def hexString2Value (pHexDecOut : List BYTE) (pszHexStrIn : List Char) :
    Option (List BYTE × ℕ) := do
  let (out, nSrcIdx, nDstIdx) ← hexString2Loop pszHexStrIn 0 0 pHexDecOut
  some (out, if nSrcIdx ≠ 0 ∧ nSrcIdx % 2 = 1 then nDstIdx + 1 else nDstIdx)

/-! ## What the two conversions compute -/

/-- The hex text of a byte string. -/
def hexText (bs : List BYTE) : List Char :=
  bs.flatMap hexPair

/-- The bytes a hex text stands for; an odd last digit is an upper half. -/
def hexBytes : List Char → List BYTE
  | [] => []
  | [c] => [hexHigh c]
  | c :: d :: rest => (hexHigh c ||| hexLow d) :: hexBytes rest

@[simp] theorem hexText_nil : hexText [] = [] := rfl

@[simp] theorem hexText_cons (b : BYTE) (bs : List BYTE) :
    hexText (b :: bs) = hexPair b ++ hexText bs := rfl

@[simp] theorem hexText_length (bs : List BYTE) : (hexText bs).length = 2 * bs.length := by
  induction bs with
  | nil => rfl
  | cons b bs ih =>
      simp only [hexText_cons, length_append, ih, length_cons, hexPair, length_nil]
      omega

@[simp] theorem hexBytes_length (s : List Char) : (hexBytes s).length = (s.length + 1) / 2 := by
  induction s using hexBytes.induct with
  | case1 => rfl
  | case2 c => simp [hexBytes]
  | case3 c d rest ih =>
      simp only [hexBytes, length_cons, ih]
      omega

/-- **Decoding distributes over whole bytes.** A text of even length ends
on a byte boundary, so what follows it decodes on its own. -/
theorem hexBytes_append {s : List Char} (t : List Char) (h : s.length % 2 = 0) :
    hexBytes (s ++ t) = hexBytes s ++ hexBytes t := by
  induction s using hexBytes.induct with
  | case1 => rfl
  | case2 c => simp at h
  | case3 c d rest ih =>
      have hrest : rest.length % 2 = 0 := by
        simp only [length_cons] at h
        omega
      simp only [cons_append, hexBytes, ih hrest]

theorem hex_digits_read_back (b : BYTE) :
    hexHigh (hexDigit (b.extractLsb' 4 4)) ||| hexLow (hexDigit (b.extractLsb' 0 4)) = b := by
  revert b
  decide +kernel

/-- **The text of a byte string decodes to the byte string.** -/
@[simp] theorem hexBytes_hexText (bs : List BYTE) : hexBytes (hexText bs) = bs := by
  induction bs with
  | nil => rfl
  | cons b bs ih =>
      simp only [hexText_cons, hexPair, cons_append, nil_append, hexBytes, ih, hex_digits_read_back]

theorem hexDigit_ne_nul (n : BitVec 4) : hexDigit n ≠ '\x00' := by
  revert n
  decide +kernel

/-- A text without a terminator is a C string as it stands: a terminator
behind it ends it, whatever the block holds further on. -/
theorem cString_append {s : List Char} (h : ∀ ch ∈ s, ch ≠ '\x00') (r : List Char) :
    cString (s ++ '\x00' :: r) = s := by
  have hkeep : ∀ ch ∈ s, (ch != '\x00') = true := fun ch hch => bne_iff_ne.mpr (h ch hch)
  rw [cString, takeWhile_append_of_pos hkeep]
  simp

theorem cString_hexText (bs : List BYTE) (r : List Char) :
    cString (hexText bs ++ '\x00' :: r) = hexText bs := by
  refine cString_append ?_ r
  intro ch hch
  simp only [hexText, mem_flatMap, hexPair, mem_cons, not_mem_nil, or_false] at hch
  obtain ⟨b, _, rfl | rfl⟩ := hch
  · exact hexDigit_ne_nul (b.extractLsb' 4 4)
  · exact hexDigit_ne_nul (b.extractLsb' 0 4)

/-- **A hex string**: an even number of digits. -/
def IsHexString (s : List Char) : Prop :=
  s.length % 2 = 0 ∧ ∀ ch ∈ s, hexChar2Value ch ≠ -1

namespace IsHexString

/-- Hex strings are closed under concatenation. -/
theorem append {s t : List Char} (hs : IsHexString s) (ht : IsHexString t) :
    IsHexString (s ++ t) := by
  refine ⟨?_, ?_⟩
  · have hlen := hs.1
    have hlen' := ht.1
    rw [length_append]
    omega
  · intro ch hch
    rcases mem_append.mp hch with hch | hch
    · exact hs.2 ch hch
    · exact ht.2 ch hch

theorem hexChar2Value_hexDigit (n : BitVec 4) : hexChar2Value (hexDigit n) ≠ -1 := by
  revert n
  decide +kernel

theorem of_hexText (bs : List BYTE) : IsHexString (hexText bs) := by
  refine ⟨?_, ?_⟩
  · rw [hexText_length]
    omega
  · intro ch hch
    simp only [hexText, mem_flatMap, hexPair, mem_cons, not_mem_nil, or_false] at hch
    obtain ⟨b, _, rfl | rfl⟩ := hch
    · exact hexChar2Value_hexDigit (b.extractLsb' 4 4)
    · exact hexChar2Value_hexDigit (b.extractLsb' 0 4)

theorem ne_nul {s : List Char} (hs : IsHexString s) : ∀ ch ∈ s, ch ≠ '\x00' := by
  rintro ch hch rfl
  exact hs.2 _ hch (by decide)

end IsHexString

/-! ## The loops compute them -/

/-- The print loop keeps the text so far followed by a terminator, once
it has printed anything. -/
theorem value2HexLoop_eq (bs : List BYTE) (p : List Char) {r : List Char} {z : Char}
    (h : 2 * bs.length ≤ r.length) :
    value2HexLoop bs p.length (p ++ z :: r) =
      some (p ++ hexText bs ++ (if bs = [] then z else '\x00') :: r.drop (2 * bs.length),
        p.length + 2 * bs.length) := by
  induction bs generalizing p r z with
  | nil => simp [value2HexLoop]
  | cons b bs ih =>
      simp only [length_cons] at h
      have hroom : (hexPair b ++ ['\x00']).length ≤ (z :: r).length := by
        simp only [hexPair, length_append, length_cons, length_nil]
        omega
      have hstore : Block.store (p ++ z :: r) p.length (hexPair b ++ ['\x00'])
          = some ((p ++ hexPair b) ++ '\x00' :: r.drop 2) := by
        rw [Block.store_behind hroom]
        simp [hexPair]
      have hlen : p.length + 2 = (p ++ hexPair b).length := by simp [hexPair]
      have hdrop : 2 * bs.length ≤ (r.drop 2).length := by
        rw [length_drop]
        omega
      simp only [value2HexLoop, hstore, bind_eq_bind, bind_some]
      rw [hlen, ih (p ++ hexPair b) hdrop, ← hlen]
      have hmul : 2 * (bs.length + 1) = 2 + 2 * bs.length := by omega
      simp only [ite_self, hexText_cons, append_assoc, drop_drop, length_cons,
        reduceCtorEq, if_false, hmul, Nat.add_assoc]

variable {out : List Char}

/-- **`Value2HexString` prints the hex text** and a terminator, into any
block that has room for both. -/
theorem value2HexString_eq {bs : List BYTE} (hbs : bs ≠ []) (h : 2 * bs.length + 1 ≤ out.length) :
    value2HexString out bs =
      some (hexText bs ++ '\x00' :: out.drop (2 * bs.length + 1), ((2 * bs.length : ℕ) : ℤ)) := by
  have hpos : 0 < bs.length := length_pos_iff.mpr hbs
  cases out with
  | nil => simp at h
  | cons z r =>
      have hloop := value2HexLoop_eq bs [] (r := r) (z := z) (by simpa using h)
      simp only [nil_append, length_nil, Nat.zero_add, if_neg hbs] at hloop
      have hput : Block.put (hexText bs ++ '\x00' :: r.drop (2 * bs.length)) (2 * bs.length) '\x00'
          = some (hexText bs ++ '\x00' :: r.drop (2 * bs.length)) := by
        have hput := Block.put_behind (p := hexText bs) (r := '\x00' :: r.drop (2 * bs.length))
          (x := '\x00') (by simp)
        simpa using hput
      simp only [value2HexString, if_pos hpos, hloop, bind_eq_bind, bind_some, hput, drop_succ_cons]

/-- And faults in a block that has not: the last terminator falls
outside. -/
theorem value2HexLoop_eq_none (bs : List BYTE) {i : ℕ} (hbs : bs ≠ [])
    (h : out.length < i + 2 * bs.length + 1) : value2HexLoop bs i out = none := by
  induction bs generalizing i out with
  | nil => exact absurd rfl hbs
  | cons b bs ih =>
      simp only [length_cons] at h
      simp only [value2HexLoop, bind_eq_bind, bind_eq_none_iff]
      intro out' hout'
      have hlen := Block.store_length hout'
      have hfit := Block.store_isSome_iff.mp (by rw [hout']; rfl)
      simp only [hexPair, length_append, length_cons, length_nil] at hfit
      by_cases hnil : bs = []
      · subst hnil
        simp only [length_nil] at h
        omega
      · exact ih hnil (by omega)

theorem value2HexString_eq_none {bs : List BYTE} (hbs : bs ≠ [])
    (h : out.length < 2 * bs.length + 1) : value2HexString out bs = none := by
  have hpos : 0 < bs.length := length_pos_iff.mpr hbs
  have hloop : value2HexLoop bs 0 out = none := value2HexLoop_eq_none bs hbs (by omega)
  simp only [value2HexString, if_pos hpos, hloop, bind_eq_bind, bind_none]

/-- The decode loop, from an even index: it writes the decoded bytes
behind the prefix, or faults when they do not fit. -/
theorem hexString2Loop_eq (s : List Char) {i : ℕ} (hi : i % 2 = 0) (p r : List BYTE) :
    hexString2Loop s i p.length (p ++ r) =
      if (hexBytes s).length ≤ r.length then
        some (p ++ hexBytes s ++ r.drop (hexBytes s).length, i + s.length,
          p.length + s.length / 2)
      else none := by
  induction s using hexBytes.induct generalizing i p r with
  | case1 => simp [hexString2Loop, hexBytes]
  | case2 c =>
      by_cases hr : 0 < r.length
      · have hle : (hexBytes [c]).length ≤ r.length := by
          simp only [hexBytes, length_cons, length_nil]
          omega
        simp only [hexString2Loop, if_pos hi, Block.put_behind hr, bind_eq_bind,
          bind_some, if_pos hle]
        simp [hexBytes]
      · have hnle : ¬ (hexBytes [c]).length ≤ r.length := by
          simp only [hexBytes, length_cons, length_nil]
          omega
        have hput : Block.put (p ++ r) p.length (hexHigh c) = none :=
          Block.put_eq_none (by rw [length_append]; omega)
        simp only [hexString2Loop, if_pos hi, hput, bind_eq_bind, bind_none, if_neg hnle]
  | case3 c d rest ih =>
      have hodd : ¬ (i + 1) % 2 = 0 := by omega
      have heven : (i + 1 + 1) % 2 = 0 := by omega
      cases r with
      | nil =>
          have hput : Block.put (p ++ []) p.length (hexHigh c) = none :=
            Block.put_eq_none (by simp)
          have hnle : ¬ (hexBytes (c :: d :: rest)).length ≤ ([] : List BYTE).length := by
            simp [hexBytes]
          simp only [hexString2Loop, if_pos hi, hput, bind_eq_bind, bind_none, if_neg hnle]
      | cons x r =>
          have hput : Block.put (p ++ x :: r) p.length (hexHigh c)
              = some (p ++ hexHigh c :: r) := by
            rw [Block.put_behind (by simp)]
            simp
          have hget : (p ++ hexHigh c :: r)[p.length]? = some (hexHigh c) := by simp
          have hput' : Block.put (p ++ hexHigh c :: r) p.length (hexHigh c ||| hexLow d)
              = some ((p ++ [hexHigh c ||| hexLow d]) ++ r) := by
            rw [Block.put_behind (by simp)]
            simp
          have hlen : p.length + 1 = (p ++ [hexHigh c ||| hexLow d]).length := by simp
          simp only [hexString2Loop, if_pos hi, hput, bind_eq_bind, bind_some,
            if_neg hodd, hget, hput']
          rw [hlen, ih heven]
          simp only [hexBytes, length_cons, Nat.succ_le_succ_iff, length_append, length_nil,
            append_assoc, cons_append, nil_append, drop_succ_cons]
          congr 4
          · omega
          · omega

/-- **`HexString2Value` writes the decoded bytes** at the front of the
block and returns their number, or overflows the block. -/
theorem hexString2Value_eq (out : List BYTE) (s : List Char) :
    hexString2Value out s =
      if (hexBytes s).length ≤ out.length then
        some (hexBytes s ++ out.drop (hexBytes s).length, (hexBytes s).length)
      else none := by
  have hloop := hexString2Loop_eq s (i := 0) rfl [] out
  simp only [length_nil, nil_append, Nat.zero_add] at hloop
  have hidx : (if s.length ≠ 0 ∧ s.length % 2 = 1 then s.length / 2 + 1 else s.length / 2)
      = (hexBytes s).length := by
    rw [hexBytes_length]
    split <;> omega
  simp only [hexString2Value, hloop]
  by_cases h : (hexBytes s).length ≤ out.length
  · simp only [if_pos h, bind_eq_bind, bind_some, hidx]
  · simp only [if_neg h, bind_eq_bind, bind_none]

end ExynosVendor.Ril
