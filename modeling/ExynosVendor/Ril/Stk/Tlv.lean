import ExynosVendor.Ril.Basic
import Mathlib.Tactic.NormNum

/-!
# CTLV — the TLV object, its encoder and its parser

`CTLV` of `stk/tlv.cpp`: a tag, a length and a value, read from a byte
stream by `set` and written to a fresh block by `getRawData`. The two
were written apart from each other and from `getRawDataLength`, and
`getRawData` sizes its block below the value it is about to copy, so on
the language's own allocator only the one-byte form survives
(`roundTrip_iff`). On a larger block it writes what `rawBytes` says, and
`getRawData_eq` is the exact room it needs.
-/

namespace ExynosVendor.Ril

open List Option

/-- `CTLV`'s fields. A value and its length are set together, and a
length without a value is zero. -/
structure CTLV where
  /-- `m_cTag`, with the comprehension bit. -/
  cTag : BYTE
  /-- `m_nLength`. -/
  nLength : ℕ
  /-- `m_pValue`, the bytes it points at, or `NULL`. -/
  pValue : Option (List BYTE)
  /-- The length is the value's. -/
  nLength_eq : nLength = pValue.elim 0 List.length
  deriving DecidableEq

namespace CTLV

def tlvTagMask : BYTE := 0x7F

/-- `CTLV::Initialize`, and the state of a new object. -/
def initialized : CTLV where
  cTag := 0
  nLength := 0
  pValue := none
  nLength_eq := rfl

/-- A tag alone, the state `Set` leaves when there is no value. -/
def ofTag (cTag : BYTE) : CTLV where
  cTag := cTag
  nLength := 0
  pValue := none
  nLength_eq := rfl

/-- A tag with a value. -/
def ofValue (cTag : BYTE) (value : List BYTE) : CTLV where
  cTag := cTag
  nLength := value.length
  pValue := some value
  nLength_eq := rfl

@[simp] theorem ofValue_cTag (cTag : BYTE) (value : List BYTE) :
    (ofValue cTag value).cTag = cTag := rfl

@[simp] theorem ofValue_nLength (cTag : BYTE) (value : List BYTE) :
    (ofValue cTag value).nLength = value.length := rfl

@[simp] theorem ofValue_pValue (cTag : BYTE) (value : List BYTE) :
    (ofValue cTag value).pValue = some value := rfl

/-- `CTLV::GetTag`: the tag without the comprehension bit. -/
def getTag (t : CTLV) : BYTE :=
  t.cTag &&& tlvTagMask

/-- `CTLV::Set(BYTE, const BYTE *, int)`: nothing is set from an empty
value. -/
def setValue (t : CTLV) (cTag : BYTE) (pValue : List BYTE) : CTLV :=
  if pValue.length = 0 then t else ofValue cTag pValue

/-! ## The encoder -/

/-- Byte `k` of an `int`, as `memcpy` finds it in memory. -/
def intByte (n k : ℕ) : BYTE :=
  BitVec.ofNat 8 (n >>> (8 * k))

/-- The length field, written from offset `nIdx`; the new offset comes
with the block. -/
def putLength (nLength : ℕ) (pData : List BYTE) (nIdx : ℕ) : Option (List BYTE × ℕ) :=
  if nLength < 128 then do
    let pData ← Block.put pData nIdx (BitVec.ofNat 8 nLength)
    some (pData, nIdx + 1)
  else if nLength ≤ 255 then do
    let pData ← Block.put pData nIdx 0x81
    let pData ← Block.put pData (nIdx + 1) (BitVec.ofNat 8 nLength)
    some (pData, nIdx + 2)
  else if nLength ≤ 65535 then do
    let pData ← Block.put pData nIdx 0x82
    let pData ← Block.store pData (nIdx + 1) [intByte nLength 0, intByte nLength 1]
    some (pData, nIdx + 3)
  else do
    let pData ← Block.put pData nIdx 0x83
    let pData ← Block.store pData (nIdx + 1)
      [intByte nLength 0, intByte nLength 1, intByte nLength 2]
    some (pData, nIdx + 4)

/-- `CTLV::GetRawData`. The outer option is the fault, the inner one the
`NULL` it returns for an object it does not encode. -/
def getRawData (P : Platform) (t : CTLV) : Option (Option (List BYTE)) :=
  match t.pValue with
  | none => some none
  | some value =>
      if t.nLength = 0 then some none
      else if t.nLength = 1 then do
        let pData ← Block.put (P.newBytes 3) 0 t.cTag
        let pData ← Block.put pData 1 (BitVec.ofNat 8 t.nLength)
        let first ← value[0]?
        let pData ← Block.put pData 2 first
        some (some pData)
      else if t.nLength = 3 ∧ value[0]? = some 0x7F then some none
      else do
        -- the block is one byte smaller than the value alone
        let pData ← Block.store (P.newBytes (t.nLength - 1)) 0 (List.replicate (t.nLength - 1) 0)
        let pData ← Block.put pData 0 t.cTag
        let (pData, nIdx) ← putLength t.nLength pData 1
        let pData ← Block.store pData nIdx value
        some (some pData)

def getRawDataLength (t : CTLV) : ℕ :=
  if 0 < t.nLength then
    (if t.nLength < 128 then 1
      else if t.nLength ≤ 255 then 2
      else if t.nLength ≤ 65535 then 3
      else 4) + (1 + t.nLength)
  else 0

/-! ## The parser -/

/-- The length field as `Set` reads it: the length, and what follows the
field. `none` is "Wrong Length". -/
def setLength (P : Platform) (nLength : ℕ) : List BYTE → Option (ℤ × List BYTE)
  | [] => none
  | b :: r =>
      if b.toNat < 0x80 then some (b.toNat, r)
      else if b = 0x81 then
        match r with
        | l :: r => some (l.toNat, r)
        | [] => none
      else if b = 0x82 then
        match r with
        | l0 :: l1 :: r => some (shortOfBytes l0 l1, r)
        | _ => none
      else if b = 0x83 then
        -- three bytes are copied into an `int` that nothing has initialised
        match r with
        | l0 :: l1 :: l2 :: r => some (intOfBytes l0 l1 l2 (P.stackByte nLength), r)
        | _ => none
      else none

/-- The pointer `Set` returns: `NULL` when nothing is left. -/
def next (rest : List BYTE) : Option (List BYTE) :=
  if rest = [] then none else some rest

/-- `CTLV::Set(const BYTE *, int)` on the bytes it is given: the object
and the next TLV's bytes. A negative length makes `new` throw. -/
def set (P : Platform) (t : CTLV) (pData : List BYTE) : Option (CTLV × Option (List BYTE)) :=
  match pData with
  | [] => some (t, none)
  | [_] => some (initialized, none)
  | cTag :: b :: r =>
      if pData.length = 3 ∧ cTag = 0x7F then some (initialized, none)
      else
        match setLength P pData.length (b :: r) with
        | none => some (initialized, none)
        | some (nLen, pValue) =>
            if pData.length = 2 then some (ofTag cTag, none)
            else if nLen ≤ pValue.length then
              if nLen < 0 then none
              else some (ofValue cTag (pValue.take nLen.toNat), next (pValue.drop nLen.toNat))
            else some (ofTag cTag, none)

/-! ## What the encoder writes -/

/-- The length field as `GetRawData` writes it: two and three byte
lengths are copied from memory, low byte first. -/
def lengthBytes (nLength : ℕ) : List BYTE :=
  if nLength < 128 then [BitVec.ofNat 8 nLength]
  else if nLength ≤ 255 then [0x81, BitVec.ofNat 8 nLength]
  else if nLength ≤ 65535 then [0x82, intByte nLength 0, intByte nLength 1]
  else [0x83, intByte nLength 0, intByte nLength 1, intByte nLength 2]

/-- The bytes of an object, in the encoder's order. -/
def rawBytes (cTag : BYTE) (value : List BYTE) : List BYTE :=
  cTag :: lengthBytes value.length ++ value

variable {cTag : BYTE} {value : List BYTE} {P : Platform}

/-- **The size computation counts the encoder's bytes.** -/
theorem getRawDataLength_ofValue (h : value ≠ []) :
    (ofValue cTag value).getRawDataLength = (rawBytes cTag value).length := by
  have hpos : 0 < value.length := length_pos_iff.mpr h
  rw [getRawDataLength, ofValue_nLength, if_pos hpos]
  simp only [rawBytes, length_append, length_cons, lengthBytes]
  split
  · simp only [length_cons, length_nil]
    omega
  · split
    · simp only [length_cons, length_nil]
      omega
    · split
      · simp only [length_cons, length_nil]
        omega
      · simp only [length_cons, length_nil]
        omega

/-- The length field is written whole or not at all. -/
theorem putLength_eq (n : ℕ) (b : List BYTE) (i : ℕ) :
    putLength n b i =
      (Block.store b i (lengthBytes n)).map fun b' => (b', i + (lengthBytes n).length) := by
  simp only [putLength, lengthBytes, bind_eq_bind]
  split
  · rw [map_eq_bind]
    rfl
  · split
    · rw [← Block.put_bind_store, map_eq_bind, bind_assoc]
      rfl
    · split
      · rw [← Block.put_bind_store, map_eq_bind, bind_assoc]
        rfl
      · rw [← Block.put_bind_store, map_eq_bind, bind_assoc]
        rfl

/-- The encoder's writes, one after the other, are one write of
`rawBytes`. -/
theorem encode_writes_eq (cTag : BYTE) (value b : List BYTE) :
    (do let pData ← Block.put b 0 cTag
        let (pData, nIdx) ← putLength value.length pData 1
        let pData ← Block.store pData nIdx value
        some (some pData)) = (Block.store b 0 (rawBytes cTag value)).map some := by
  have hvalue := Block.store_bind_store b 0 (cTag :: lengthBytes value.length) value
  have hlength := Block.put_bind_store b 0 cTag (lengthBytes value.length)
  simp only [length_cons, Nat.zero_add] at hvalue hlength
  have hidx : (lengthBytes value.length).length + 1 = 1 + (lengthBytes value.length).length :=
    Nat.add_comm _ _
  rw [rawBytes, ← hvalue, ← hlength]
  simp only [putLength_eq, bind_eq_bind, map_eq_bind, bind_assoc,
    bind_some, Function.comp_def, hidx]

/-- An object with one byte of value is encoded in three. -/
theorem getRawData_single (P : Platform) (cTag x : BYTE) :
    getRawData P (ofValue cTag [x]) = some (some (rawBytes cTag [x] ++ (P.newBytes 3).drop 3)) := by
  have hroom : 3 ≤ (P.newBytes 3).length := by
    rw [Platform.newBytes_length]
    exact P.heap.le_usable 3
  obtain ⟨a, b, c, r, hnew⟩ : ∃ a b c r, P.newBytes 3 = a :: b :: c :: r := by
    match h : P.newBytes 3, hroom with
    | a :: b :: c :: r, _ => exact ⟨a, b, c, r, rfl⟩
  have h0 := Block.put_behind (p := []) (r := a :: b :: c :: r) (x := cTag) (by simp)
  have h1 := Block.put_behind (p := [cTag]) (r := b :: c :: r) (x := BitVec.ofNat 8 1) (by simp)
  have h2 := Block.put_behind (p := [cTag, BitVec.ofNat 8 1]) (r := c :: r) (x := x) (by simp)
  simp only [nil_append, length_nil, length_cons, drop_succ_cons,
    drop_zero, cons_append, Nat.zero_add] at h0 h1 h2
  simp only [getRawData, ofValue, length_cons, length_nil, Nat.zero_add, one_ne_zero,
    if_false, if_true, hnew, h0, h1, h2, bind_eq_bind, bind_some,
    getElem?_cons_zero, drop_succ_cons, drop_zero]
  rfl

/-- The three-byte value that starts with `0x7F` is not encoded. -/
theorem getRawData_three (hlen : value.length = 3) (h7f : value[0]? = some 0x7F) :
    getRawData P (ofValue cTag value) = some none := by
  have h0 : ¬ (ofValue cTag value).nLength = 0 := by
    rw [ofValue_nLength]
    omega
  have h1 : ¬ (ofValue cTag value).nLength = 1 := by
    rw [ofValue_nLength]
    omega
  have h3 : (ofValue cTag value).nLength = 3 ∧ value[0]? = some 0x7F := ⟨hlen, h7f⟩
  simp only [getRawData, ofValue_pValue]
  rw [if_neg h0, if_neg h1, if_pos h3]

/-- **What `getRawData` needs.** Every other object is written whole when
the block handed out for `n - 1` bytes happens to hold all of
`rawBytes`, and overflows it when it does not. -/
theorem getRawData_eq (h2 : 2 ≤ value.length) (h7f : ¬ (value.length = 3 ∧ value[0]? = some 0x7F)) :
    getRawData P (ofValue cTag value) =
      if (rawBytes cTag value).length ≤ P.heap.usable (value.length - 1) then
        some (some (rawBytes cTag value ++
          (List.replicate (value.length - 1) 0 ++ (P.newBytes (value.length - 1)).drop
            (value.length - 1)).drop (rawBytes cTag value).length))
      else none := by
  have hle := P.heap.le_usable (value.length - 1)
  have hmemset : Block.store (P.newBytes (value.length - 1)) 0
      (List.replicate (value.length - 1) (0 : BYTE)) =
        some (List.replicate (value.length - 1) 0 ++
          (P.newBytes (value.length - 1)).drop (value.length - 1)) := by
    have hroom : (List.replicate (value.length - 1) (0 : BYTE)).length ≤
        (P.newBytes (value.length - 1)).length := by
      simpa using hle
    have hstore := Block.store_zero hroom
    rwa [length_replicate] at hstore
  have hlen : (List.replicate (value.length - 1) (0 : BYTE) ++
      (P.newBytes (value.length - 1)).drop (value.length - 1)).length =
        P.heap.usable (value.length - 1) := by
    simp only [length_append, length_replicate, length_drop, Platform.newBytes_length]
    omega
  have h0 : ¬ value.length = 0 := by omega
  have h1 : ¬ value.length = 1 := by omega
  simp only [getRawData, ofValue_pValue, ofValue_nLength, ofValue_cTag, if_neg h0, if_neg h1,
    if_neg h7f, hmemset, bind_eq_bind, bind_some]
  have hwrites := encode_writes_eq cTag value (List.replicate (value.length - 1) 0 ++
    (P.newBytes (value.length - 1)).drop (value.length - 1))
  simp only [bind_eq_bind] at hwrites
  rw [hwrites]
  by_cases hfit : (rawBytes cTag value).length ≤ P.heap.usable (value.length - 1)
  · rw [if_pos hfit, Block.store_zero (by rw [hlen]; exact hfit)]
    rfl
  · rw [if_neg hfit, Block.store_eq_none (by rw [hlen]; omega)]
    rfl

theorem getRawData_empty (P : Platform) (cTag : BYTE) :
    getRawData P (ofTag cTag) = some none := rfl

/-! ## The round trip -/

/-- The length field of the coding rules: the shortest form, high byte
first. -/
def berLength (n : ℕ) : List BYTE :=
  if n < 128 then [BitVec.ofNat 8 n]
  else if n < 256 then [0x81, BitVec.ofNat 8 n]
  else if n < 65536 then [0x82, BitVec.ofNat 8 (n / 256), BitVec.ofNat 8 n]
  else [0x83, BitVec.ofNat 8 (n / 65536), BitVec.ofNat 8 (n / 256), BitVec.ofNat 8 n]

@[simp] theorem berLength_ne_nil (n : ℕ) : berLength n ≠ [] := by
  unfold berLength
  split_ifs <;> simp

theorem berLength_append_cons (n : ℕ) (r : List BYTE) :
    ∃ b r', berLength n ++ r = b :: r' := by
  cases h : berLength n with
  | nil => exact absurd h (berLength_ne_nil n)
  | cons b r' => exact ⟨b, r' ++ r, rfl⟩

/-- The parser finds the end of every length field, though it need not
find the length. -/
theorem setLength_berLength (P : Platform) (k n : ℕ) :
    ∃ nLen, ∀ r, setLength P k (berLength n ++ r) = some (nLen, r) := by
  unfold berLength
  split_ifs with h1 h2 h3
  · refine ⟨n, fun r => ?_⟩
    have hn : (BitVec.ofNat 8 n).toNat = n := by
      rw [BitVec.toNat_ofNat]
      omega
    simp only [cons_append, nil_append, setLength, hn]
    rw [if_pos h1]
  · exact ⟨_, fun r => rfl⟩
  · exact ⟨_, fun r => rfl⟩
  · exact ⟨_, fun r => rfl⟩

/-- Below 256 it finds both. -/
theorem setLength_of_lt (P : Platform) (k : ℕ) {n : ℕ} (h : n < 256) (r : List BYTE) :
    setLength P k (berLength n ++ r) = some ((n : ℤ), r) := by
  have hn : (BitVec.ofNat 8 n).toNat = n := by
    rw [BitVec.toNat_ofNat]
    omega
  unfold berLength
  split_ifs with h1
  · simp only [cons_append, nil_append, setLength, hn]
    rw [if_pos h1]
  · have h81 : ¬ (0x81 : BYTE).toNat < 0x80 := by decide
    simp only [cons_append, nil_append, setLength, hn]
    rw [if_neg h81, if_pos trivial]

/-- **One object at the front of a byte string**, once the length field
is read: the object is cut, or refused when the value is not there. -/
theorem set_of_setLength {t : CTLV} {b : BYTE} {r rest : List BYTE} {nLen : ℤ}
    (hthree : ¬ (r.length = 1 ∧ cTag = 0x7F))
    (hlen : setLength P (r.length + 2) (b :: r) = some (nLen, rest)) :
    t.set P (cTag :: b :: r) =
      if r = [] then some (ofTag cTag, none)
      else if nLen ≤ rest.length then
        if nLen < 0 then none
        else some (ofValue cTag (rest.take nLen.toNat), next (rest.drop nLen.toNat))
      else some (ofTag cTag, none) := by
  have hthree' : ¬ ((cTag :: b :: r).length = 3 ∧ cTag = 0x7F) := by
    rintro ⟨h3, h7f⟩
    simp only [length_cons] at h3
    exact hthree ⟨by omega, h7f⟩
  have htwo : (cTag :: b :: r).length = 2 ↔ r = [] := by
    simp only [length_cons, ← length_eq_zero_iff]
    omega
  rw [set, if_neg hthree']
  simp only [length_cons] at htwo ⊢
  simp only [hlen, htwo]

/-- **An encoded object is cut where it ends**, whatever follows, when
the parser finds its length. -/
theorem set_encoded {t : CTLV} (cTag : BYTE) (value rest : List BYTE) (hne : value ++ rest ≠ [])
    (hthree : ¬ ((berLength value.length).length + (value ++ rest).length = 2 ∧ cTag = 0x7F))
    (hlen : setLength P ((berLength value.length).length + (value ++ rest).length + 1)
      (berLength value.length ++ (value ++ rest)) = some ((value.length : ℤ), value ++ rest)) :
    t.set P (cTag :: (berLength value.length ++ (value ++ rest))) =
      some (ofValue cTag value, next rest) := by
  obtain ⟨b, r, hb⟩ := berLength_append_cons value.length (value ++ rest)
  have hpos : 0 < (value ++ rest).length := length_pos_iff.mpr hne
  have hber : 0 < (berLength value.length).length := length_pos_iff.mpr (berLength_ne_nil _)
  have hlength : (berLength value.length).length + (value ++ rest).length = r.length + 1 := by
    rw [← length_append, hb, length_cons]
  rw [hlength] at hlen hthree
  rw [hb] at hlen
  have hthree' : ¬ (r.length = 1 ∧ cTag = 0x7F) := by
    rintro ⟨h1, h7f⟩
    exact hthree ⟨by omega, h7f⟩
  have hr : r ≠ [] := by
    rw [Ne, ← length_eq_zero_iff]
    omega
  have hle : ((value.length : ℕ) : ℤ) ≤ (value ++ rest).length := by
    rw [length_append]
    omega
  have hnonneg : ¬ ((value.length : ℕ) : ℤ) < 0 := by omega
  rw [hb, set_of_setLength hthree' hlen, if_neg hr, if_pos hle, if_neg hnonneg]
  simp

/-- And a parse of the encoding that reports the object's length has the
object. -/
theorem eq_of_set_encoded {t t' : CTLV} {nx : Option (List BYTE)} (hne : value ≠ [])
    (hset : t.set P (cTag :: (berLength value.length ++ value)) = some (t', nx))
    (hlen : t'.nLength = value.length) : t' = ofValue cTag value := by
  obtain ⟨b, r, hb⟩ := berLength_append_cons value.length value
  have hpos : 0 < value.length := length_pos_iff.mpr hne
  obtain ⟨nLen, hread'⟩ := setLength_berLength P (r.length + 2) value.length
  have hread := hread' value
  rw [hb] at hset hread
  by_cases hthree : (cTag :: b :: r).length = 3 ∧ cTag = 0x7F
  · rw [set, if_pos hthree, some.injEq, Prod.mk.injEq] at hset
    rw [← hset.1] at hlen
    simp only [initialized] at hlen
    omega
  · have hthree' : ¬ (r.length = 1 ∧ cTag = 0x7F) := by
      rintro ⟨h1, h7f⟩
      exact hthree ⟨by simp only [length_cons]; omega, h7f⟩
    rw [set_of_setLength hthree' hread] at hset
    split_ifs at hset with hr hle hneg
    · simp only [some.injEq, Prod.mk.injEq] at hset
      rw [← hset.1] at hlen
      simp only [ofTag] at hlen
      omega
    · simp only [some.injEq, Prod.mk.injEq] at hset
      obtain ⟨rfl, -⟩ := hset
      have hnat : value.length ≤ nLen.toNat := by
        simp only [ofValue_nLength, length_take] at hlen
        omega
      rw [take_of_length_le hnat]
    · simp only [some.injEq, Prod.mk.injEq] at hset
      rw [← hset.1] at hlen
      simp only [ofTag] at hlen
      omega

/-- **The round trip of one object**: it is encoded inside the block
allocated for it, in as many bytes as announced and in the length form
of the coding rules, and parsing those bytes restores it and leaves
nothing. -/
def RoundTrip (P : Platform) (cTag : BYTE) (value : List BYTE) : Prop :=
  ∃ raw, getRawData P (initialized.setValue cTag value) = some (some raw) ∧
    raw.length = (initialized.setValue cTag value).getRawDataLength ∧
    raw = cTag :: berLength value.length ++ value ∧
    ∃ t, initialized.set P raw = some (t, none) ∧
      t.cTag = cTag ∧ t.nLength = value.length ∧ t.pValue = some value

theorem setValue_of_ne_nil {t : CTLV} (h : value ≠ []) :
    t.setValue cTag value = ofValue cTag value := by
  have hne : ¬ value.length = 0 := fun h0 => h (length_eq_zero_iff.mp h0)
  rw [setValue, if_neg hne]

/-- On a strict platform every object of two bytes or more is either
refused or overflows its block. -/
theorem getRawData_strict (heapByte stackByte : ℕ → BYTE) (h : 2 ≤ value.length) (raw : List BYTE) :
    getRawData (Platform.strict heapByte stackByte) (ofValue cTag value) ≠ some (some raw) := by
  intro hraw
  by_cases h7f : value.length = 3 ∧ value[0]? = some 0x7F
  · rw [getRawData_three h7f.1 h7f.2] at hraw
    cases hraw
  · have hover : ¬ (rawBytes cTag value).length ≤
        (Platform.strict heapByte stackByte).heap.usable (value.length - 1) := by
      simp only [Platform.strict_heap, Allocator.exact_usable, rawBytes, length_append, length_cons]
      omega
    rw [getRawData_eq h h7f, if_neg hover] at hraw
    cases hraw

/-- **The object round-trips exactly in its one-byte form**, and there
only under a tag that does not announce the three-byte format. -/
theorem roundTrip_iff (heapByte stackByte : ℕ → BYTE) (cTag : BYTE) (value : List BYTE)
    (hpos : 1 ≤ value.length) (hmax : value.length < 2 ^ 23) :
    RoundTrip (Platform.strict heapByte stackByte) cTag value ↔
      value.length = 1 ∧ cTag ≠ 0x7F := by
  have hne : value ≠ [] := length_pos_iff.mp hpos
  constructor
  · rintro ⟨raw, hraw, -, -, t, hset, htag, -, hvalue⟩
    rw [setValue_of_ne_nil hne] at hraw
    by_cases h2 : 2 ≤ value.length
    · exact absurd hraw (getRawData_strict heapByte stackByte h2 raw)
    · obtain ⟨x, rfl⟩ : ∃ x, value = [x] := length_eq_one_iff.mp (by omega)
      refine ⟨rfl, ?_⟩
      rintro rfl
      rw [getRawData_single] at hraw
      have hslack : ((Platform.strict heapByte stackByte).newBytes 3).drop 3 = [] := by
        rw [drop_eq_nil_iff, Platform.newBytes_length, Platform.strict_heap, Allocator.exact_usable]
      rw [hslack, append_nil, some.injEq, some.injEq] at hraw
      subst hraw
      cases hset
      cases hvalue
  · rintro ⟨hone, htag⟩
    obtain ⟨x, rfl⟩ : ∃ x, value = [x] := length_eq_one_iff.mp hone
    have hslack : ((Platform.strict heapByte stackByte).newBytes 3).drop 3 = [] := by
      rw [drop_eq_nil_iff, Platform.newBytes_length, Platform.strict_heap, Allocator.exact_usable]
    refine ⟨[cTag, 1, x], ?_, rfl, rfl, ofValue cTag [x], ?_, rfl, rfl, rfl⟩
    · rw [setValue_of_ne_nil hne, getRawData_single, hslack]
      rfl
    · have hnot : ¬ ([cTag, 1, x].length = 3 ∧ cTag = 0x7F) := fun h => htag h.2
      rw [set, if_neg hnot]
      rfl

/-- At two bytes: a one-byte block receives a four-byte object. -/
theorem not_roundTrip_two_bytes :
    ¬ RoundTrip (Platform.strict (fun _ => 0) (fun _ => 0)) 0x81 [0x01, 0x02] := by
  rintro ⟨raw, hraw, -⟩
  exact getRawData_strict _ _ (by decide) raw hraw

/-- And the one-byte object under the tag of a command's details. -/
theorem roundTrip_one_byte :
    RoundTrip (Platform.strict (fun _ => 0) (fun _ => 0)) 0x81 [0x2A] :=
  (roundTrip_iff (fun _ => 0) (fun _ => 0) 0x81 [0x2A] (by decide) (by decide)).mpr
    ⟨rfl, by decide⟩

end CTLV

end ExynosVendor.Ril
