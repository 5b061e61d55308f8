import ExynosVendor.Ril.Util.Ussd
import Mathlib.Data.List.DropRight

/-!
# Reading a SIM's files

`SimTlv` and `IccUtil` of `util/iccUtil.cpp`: the TLV objects of a record,
the digits of a PLMN, and a network's name. A name is decoded into a local
array of `MAX_FULL_NAME_LEN` bytes, and `networkNameToString_isSome_iff`
says which names stay inside.
-/

namespace ExynosVendor.Ril

/-! ## TLV objects -/

structure SimTlv where
  /-- `mRecord`, of `mTlvLength` bytes. -/
  record : List BYTE
  /-- `mCurOffset`. -/
  curOffset : ℕ
  /-- `mCurDataOffset`. -/
  curDataOffset : ℕ
  /-- `mCurDataLength`. -/
  curDataLength : ℕ
  /-- `mHasValidTlvObject`. -/
  hasValidTlvObject : Bool

namespace SimTlv

def parseCurrentTlvObject (t : SimTlv) : SimTlv :=
  let invalid := { t with hasValidTlvObject := false }
  match t.record.drop t.curOffset with
  | tag :: len :: rest =>
      if tag = 0 ∨ tag = 0xFF then invalid
      else
        let valid (offset length : ℕ) : SimTlv :=
          { t with curDataLength := length, curDataOffset := offset
                   hasValidTlvObject := decide (length + offset ≤ t.record.length) }
        if len < 0x80 then valid (t.curOffset + 2) len.toNat
        else if len = 0x81 then
          match rest with
          | len :: _ => valid (t.curOffset + 3) len.toNat
          | [] => invalid
        else invalid
  | _ => invalid

/-- The constructor, on a whole record. -/
def ofRecord (record : List BYTE) : SimTlv :=
  if record = [] then ⟨[], 0, 0, 0, false⟩ else parseCurrentTlvObject ⟨record, 0, 0, 0, false⟩

def nextObject (t : SimTlv) : SimTlv :=
  if t.hasValidTlvObject then
    parseCurrentTlvObject { t with curOffset := t.curDataOffset + t.curDataLength }
  else t

def getTag (t : SimTlv) : BYTE :=
  if t.hasValidTlvObject then t.record.getD t.curOffset 0 else 0

def getData (t : SimTlv) : Option (List BYTE) :=
  if ¬ t.hasValidTlvObject then none
  else if t.curDataLength = 0 then none
  else some ((t.record.drop t.curDataOffset).take t.curDataLength)

/-- The data of the current object, if it has this tag. -/
def dataOf (t : SimTlv) (tag : BYTE) : Option (List BYTE) :=
  if t.hasValidTlvObject ∧ t.getTag = tag then t.getData else none

end SimTlv

/-! ## Numbers and PLMNs -/

def maxPlmnLen : ℕ := 6

def hexCharToInt (ch : Char) : ℤ :=
  if '0' ≤ ch ∧ ch ≤ '9' then ch.toNat - 48
  else if 'a' ≤ ch ∧ ch ≤ 'f' then ch.toNat - 97 + 10
  else if 'A' ≤ ch ∧ ch ≤ 'F' then ch.toNat - 65 + 10
  else -1

def hexChars : List Char :=
  ['0', '1', '2', '3', '4', '5', '6', '7', '8', '9', 'A', 'B', 'C', 'D', 'E', 'F']

/-- `bytesToHexString`, which stops at `MAX_PLMN_LEN` characters. -/
def bytesToHexString (data : List BYTE) : List Char :=
  (data.take (maxPlmnLen / 2)).flatMap fun (b : BYTE) =>
    [hexChars.getD (b >>> 4 &&& 0x0F).toNat '0', hexChars.getD (b &&& 0x0F).toNat '0']

/-- `bcdPlmnToString`, at the front of a record. A shorter record gives a
null pointer, and a string cannot be made of that. -/
def bcdPlmnToString : List BYTE → Option (List Char)
  | d0 :: d1 :: d2 :: _ =>
      let trans := [(d0 <<< 4) ||| (d0 >>> 4 &&& 0x0F), (d1 <<< 4) ||| (d2 &&& 0x0F),
        (d2 &&& 0xF0) ||| (d1 >>> 4 &&& 0x0F)]
      some ((bytesToHexString trans).rdropWhile (· = 'F'))
  | _ => none

def bytesToInt (src : List BYTE) (offset length : ℕ) : ℕ :=
  if 4 < length then 0
  else if src.length < offset + length then 0
  else
    let result := ((src.drop offset).take length).foldl (fun result b => result * 256 + b.toNat) 0
    if 2 ^ 31 ≤ result then 0 else result

/-! ## Names -/

def maxFullNameLen : ℕ := 64

/-- The units `memcpy` and the `memset` before it leave in the array
`Ucs2`; half of it nobody has written. -/
def ucs2Units (garbage : ℕ → BYTE) (src : List BYTE) : List WORD :=
  let fill : List BYTE := List.replicate maxFullNameLen 0 ++ (List.range maxFullNameLen).map garbage
  let mem := src ++ fill.drop src.length
  (List.range maxFullNameLen).map fun i => mem.getD (2 * i + 1) 0 ++ mem.getD (2 * i) 0

/-- `DecodingNetworkNameFromSIM`: the destination afterwards and the
returned length. -/
def decodingNetworkNameFromSim (garbage : ℕ → BYTE) (type : BYTE) (src : List BYTE)
    (countSeptets : ℤ) (dst : List BYTE) : Option (List BYTE × ℤ) :=
  if type = 0 then
    match unpackingGsm7bit src dst with
    | none => none
    | some (dst, decLen) =>
        if countSeptets < decLen then
          if countSeptets < 0 then none
          else (Block.put dst countSeptets.toNat 0).map (·, countSeptets)
        else some (dst, decLen)
  else if type = 1 then
    -- as many units as there are bytes
    let ucs2Len := min (maxFullNameLen - 1) src.length
    (convertUcs2ToUtf8 ((ucs2Units garbage (src.take ucs2Len)).take ucs2Len) dst).map
      fun (dst, decLen) => (dst, decLen)
  else some (dst, 0)

/-- `networkNameToString`, of at least one byte. -/
def networkNameToString (garbage : ℕ → BYTE) (data : List BYTE) : Option (List BYTE) :=
  let coding := data.getD 0 0
  if coding &&& 0x80 ≠ 0x80 ∨ data.length < 1 then some []
  else
    let unusedBits := (coding &&& 7).toNat
    let countSeptets : ℤ := (((data.length : ℤ) - 1) * 8 - unusedBits).tdiv 7
    let type := coding >>> 4 &&& 0x7
    if type = 0 ∨ type = 1 then
      (decodingNetworkNameFromSim garbage type (data.drop 1) countSeptets
        (List.replicate maxFullNameLen 0)).map
        fun (dst, decLen) => if 0 < decLen then dst.take decLen.toNat else []
    else some []

/-- **The names that stay inside**: a GSM 7-bit name has at most 56 bytes
behind its coding byte, and one without any does not say that seven bits
of them are unused. -/
def NameFits (data : List BYTE) : Prop :=
  data.getD 0 0 &&& 0x80 = 0x80 → data.getD 0 0 >>> 4 &&& 0x7 = 0 →
    data.length ≤ 57 ∧ (data.length = 1 → data.getD 0 0 &&& 7 ≠ 7)

instance (data : List BYTE) : Decidable (NameFits data) :=
  inferInstanceAs (Decidable (_ → _))

/-- What unpacking makes of a name: it stays inside for 56 bytes. -/
theorem unpackingName (src : List BYTE) :
    (src.length ≤ 56 → ∃ dst, unpackingGsm7bit src (List.replicate maxFullNameLen 0) =
        some (dst, src.length + src.length / 7) ∧ dst.length = maxFullNameLen) ∧
      (56 < src.length → unpackingGsm7bit src (List.replicate maxFullNameLen 0) = none) := by
  have hlen : (List.replicate maxFullNameLen (0 : BYTE)).length = 64 := List.length_replicate
  constructor
  · intro h
    have hfit : src = [] ∨ 0 + src.length + (0 + src.length - 1) / 7 + 1 ≤
        (List.replicate maxFullNameLen (0 : BYTE)).length := by
      rw [hlen]
      exact Or.inr (by omega)
    obtain ⟨dst, hdst, hdl⟩ := unpackingLoop_eq_some hfit
    rw [Nat.zero_add src.length] at hdst
    exact ⟨dst, hdst, hdl.trans hlen⟩
  · intro h
    refine unpackingLoop_eq_none (i := 0) ?_ ?_
    · rintro rfl
      exact absurd h (by decide)
    · rw [hlen]
      omega

/-- The GSM 7-bit branch stays inside for 56 bytes, unless it is to end
the name before its first byte. -/
theorem gsm7bitName_isSome_iff (garbage : ℕ → BYTE) (src : List BYTE) (countSeptets : ℤ) :
    (decodingNetworkNameFromSim garbage 0 src countSeptets
      (List.replicate maxFullNameLen 0)).isSome ↔ src.length ≤ 56 ∧ 0 ≤ countSeptets := by
  obtain ⟨hin, hout⟩ := unpackingName src
  unfold decodingNetworkNameFromSim
  rw [if_pos rfl]
  rcases Nat.lt_or_ge 56 src.length with h | h
  · rw [hout h]
    constructor
    · intro hs
      cases hs
    · rintro ⟨hle, -⟩
      omega
  · obtain ⟨dst, hdst, hlen⟩ := hin h
    rw [hdst]
    dsimp only
    split_ifs with hcut hneg
    · constructor
      · intro hs
        cases hs
      · rintro ⟨-, hnn⟩
        omega
    · -- the septet behind the last one is cleared
      obtain ⟨dst', hput, -⟩ := Block.put_of_lt (b := dst) (i := countSeptets.toNat) (0 : BYTE) (by
        rw [hlen]
        unfold maxFullNameLen
        omega)
      rw [hput]
      constructor
      · intro _
        exact ⟨h, by omega⟩
      · intro _
        rfl
    · constructor
      · intro _
        exact ⟨h, by omega⟩
      · intro _
        rfl

/-- The UCS2 branch stays inside. -/
theorem ucs2Name_isSome (garbage : ℕ → BYTE) (src : List BYTE) (countSeptets : ℤ) :
    (decodingNetworkNameFromSim garbage 1 src countSeptets
      (List.replicate maxFullNameLen 0)).isSome := by
  have hsize : 4 ≤ (List.replicate maxFullNameLen (0 : BYTE)).length := by decide
  obtain ⟨out, hout, -⟩ := convertUcs2ToUtf8_eq_some
    ((ucs2Units garbage (src.take (min (maxFullNameLen - 1) src.length))).take
      (min (maxFullNameLen - 1) src.length)) hsize (by decide)
  unfold decodingNetworkNameFromSim
  rw [if_neg (by decide), if_pos rfl]
  dsimp only
  rw [hout]
  rfl

/-- **Which names stay inside.** -/
theorem networkNameToString_isSome_iff (garbage : ℕ → BYTE) (data : List BYTE) :
    (networkNameToString garbage data).isSome ↔ NameFits data := by
  by_cases hnil : data = []
  · subst hnil
    exact ⟨fun _ hc => absurd hc (by decide), fun _ => rfl⟩
  have hpos : 0 < data.length := List.length_pos_iff.mpr hnil
  unfold networkNameToString NameFits
  generalize data.getD 0 0 = coding
  have hunused : (coding &&& 7).toNat ≤ 7 := by
    rw [BitVec.toNat_and]
    exact Nat.and_le_right
  have hseven : coding &&& 7 = 7 ↔ (coding &&& 7).toNat = 7 := by
    rw [← BitVec.toNat_inj]
    rfl
  dsimp only
  by_cases hcoded : coding &&& 0x80 = 0x80
  · have hnot : ¬ (coding &&& 0x80 ≠ 0x80 ∨ data.length < 1) := by
      rintro (h' | h')
      · exact h' hcoded
      · omega
    rw [if_neg hnot]
    by_cases h0 : coding >>> 4 &&& 0x7 = 0
    · rw [if_pos (Or.inl h0), h0, Option.isSome_map, gsm7bitName_isSome_iff, List.length_drop]
      constructor
      · rintro ⟨hle, hnn⟩ - -
        refine ⟨by omega, ?_⟩
        intro h1 h7
        rw [h1, hseven.mp h7] at hnn
        exact absurd hnn (by decide)
      · intro hfits
        obtain ⟨hle, hone⟩ := hfits hcoded rfl
        refine ⟨by omega, ?_⟩
        rcases Nat.lt_or_ge 1 data.length with hlong | hshort
        · exact Int.tdiv_nonneg (by omega) (by decide)
        · have h1 : data.length = 1 := by omega
          have h7 : (coding &&& 7).toNat ≠ 7 := fun hc => hone h1 (hseven.mpr hc)
          rw [h1]
          have hlt : (coding &&& 7).toNat < 7 := by omega
          interval_cases (coding &&& 7).toNat <;> decide
    · by_cases h1 : coding >>> 4 &&& 0x7 = 1
      · rw [if_pos (Or.inr h1), h1, Option.isSome_map]
        exact ⟨fun _ _ hne => absurd hne (by decide), fun _ => ucs2Name_isSome _ _ _⟩
      · rw [if_neg (by rintro (h' | h') <;> contradiction)]
        exact ⟨fun _ _ hz => absurd hz h0, fun _ => rfl⟩
  · rw [if_pos (Or.inl hcoded)]
    exact ⟨fun _ hc => absurd hc hcoded, fun _ => rfl⟩

end ExynosVendor.Ril
