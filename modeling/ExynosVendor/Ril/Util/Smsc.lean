import ExynosVendor.Ril.Util.Hex
import Mathlib.Tactic.IntervalCases

/-!
# Service-centre addresses

`util/sms_util.cpp` keeps the number of a service centre as text and as
the bytes of a PDU: their count, a type of address, and the digits two to
a byte, the first in the lower nibble and a free last nibble filled with
ones.

The reader takes its length from the number of bytes, two digits for
each, and subtracts what they are not: one for the type and one for a
filled nibble. The type is a byte, and stands for the sign only in an
international number; in a national one the length stays one too large.
Where a `char` has a sign the reader knows neither a type nor a filled
nibble (`smscRoundTrips_iff`).
-/

namespace ExynosVendor.Ril

open List Option

def maxGsmSmsServiceCenterAddr : ℕ := 12

def rilToaInternational : BYTE := 0x91

def rilToaUnknown : BYTE := 0x81

/-! ## The writer -/

/-- The loop of `ConvertSmscNumberToBcd`: the buffer and both indices. -/
def smscBcdLoop (insertPoint : ℕ) :
    List BYTE → ℕ → ℕ → List BYTE → Option (List BYTE × ℕ × ℕ)
  | [], i, j, buf => some (buf, i, j)
  | c :: rest, i, j, buf =>
      if i % 2 = insertPoint then do
        let buf ← Block.put buf j (c &&& 0x0F#8)
        smscBcdLoop insertPoint rest (i + 1) j buf
      else do
        let cell ← buf[j]?
        let buf ← Block.put buf j (cell ||| (c <<< 4 &&& 0xF0#8))
        smscBcdLoop insertPoint rest (i + 1) (j + 1) buf

/-- The step behind the loop, which fills the free nibble of an odd
number. -/
def smscBcdFill (insertPoint i j : ℕ) (buf : List BYTE) : Option (List BYTE × ℕ) :=
  if insertPoint ≠ 0 ∧ i % 2 = 0 ∨ insertPoint = 0 ∧ i % 2 = 1 then do
    let cell ← buf[j]?
    let buf ← Block.put buf j (cell ||| 0xF0#8)
    some (buf, j + 1)
  else some (buf, j)

/-- `ConvertSmscNumberToBcd`: the PDU and the returned length. -/
def convertSmscNumberToBcd (smsc tpdu : List BYTE) : Option (List BYTE × ℤ) :=
  match smsc with
  | [] => some (tpdu, -1)
  | c :: rest => do
      let buf := List.replicate maxGsmSmsServiceCenterAddr 0
      let insertPoint := if c = 0x2B then 1 else 0
      let buf ← Block.put buf 1 (if c = 0x2B then rilToaInternational else rilToaUnknown)
      let (buf, i, j) ←
        smscBcdLoop insertPoint (if c = 0x2B then rest else c :: rest) insertPoint 2 buf
      let (buf, j) ← smscBcdFill insertPoint i j buf
      let buf ← Block.put buf 0 (BitVec.ofNat 8 (j - 1))
      if tpdu.length < j then some (tpdu, -1)
      else do
        let bytes ← Block.load buf 0 j
        let tpdu ← Block.store tpdu 0 bytes
        some (tpdu, (j : ℤ))

def isSmscLenValid (smsc : List BYTE) : Bool :=
  let maxLen := (maxGsmSmsServiceCenterAddr - 2) * 2
  smsc.length ≤ if smsc.head? = some 0x2B then maxLen + 1 else maxLen

/-! ## The reader -/

/-- The loop of `ConvertSmscBcdToNumber`: the buffer and the length. -/
def smscNumberLoop (signedChar : Bool) :
    List BYTE → ℕ → ℤ → List BYTE → Option (List BYTE × ℤ)
  | [], _, len, buf => some (buf, len)
  | b :: rest, i, len, buf => do
      let buf ← Block.put buf i ((b &&& 0x0F#8) + 0x30)
      let high := (charInt signedChar b).sshiftRight 4
      if high = 0x0F then some (buf, len - 1)
      else do
        let buf ← Block.put buf (i + 1) ((high &&& 0x0F#32).truncate 8 + 0x30)
        smscNumberLoop signedChar rest (i + 2) len buf

/-- The text `ConvertSmscBcdToNumber` makes behind the count, by the type
of address, and its length. -/
def smscText (signedChar : Bool) (toa : BYTE) (digits : List BYTE) : Option (List BYTE × ℤ) :=
  let len : ℤ := (digits.length + 1 : ℕ) * 2
  let buf := List.replicate (maxGsmSmsServiceCenterAddr * 2) 0
  if charInt signedChar toa = rilToaInternational.setWidth 32 then do
    let buf ← Block.put buf 0 0x2B
    smscNumberLoop signedChar digits 1 (len - 1) buf
  else if charInt signedChar toa = rilToaUnknown.setWidth 32 then
    smscNumberLoop signedChar digits 0 (len - 1) buf
  else smscNumberLoop signedChar (toa :: digits) 0 len buf

/-- `ConvertSmscBcdToNumber`: the number and the returned length. -/
def convertSmscBcdToNumber (signedChar : Bool) (tpdu smsc : List BYTE) :
    Option (List BYTE × ℤ) :=
  match tpdu with
  | [] => some (smsc, -1)
  | [_] => none
  | _ :: toa :: digits => do
      let (buf, len) ← smscText signedChar toa digits
      if (smsc.length : ℤ) < len then some (smsc, -1)
      else do
        let text ← strncpy len.toNat buf
        let smsc ← Block.store smsc 0 text
        some (smsc, len)

/-! ## The round trip -/

/-- A decimal digit. -/
def IsDecimal (c : BYTE) : Prop :=
  0x30 ≤ c.toNat ∧ c.toNat ≤ 0x39

/-- A number: a sign or none, and at least one digit. -/
inductive IsSmscNumber : List BYTE → Prop
  | international {ds : List BYTE} : ds ≠ [] → (∀ c ∈ ds, IsDecimal c) → IsSmscNumber (0x2B :: ds)
  | national {ds : List BYTE} : ds ≠ [] → (∀ c ∈ ds, IsDecimal c) → IsSmscNumber ds

/-- **A number survives**: its PDU has no more bytes than the array for
it, the first one counting the rest, and is read as the number. -/
def SmscRoundTrips (signedChar : Bool) (s : List BYTE) : Prop :=
  ∃ pdu : List BYTE, 1 ≤ pdu.length ∧ pdu.length ≤ maxGsmSmsServiceCenterAddr ∧
    pdu.head? = some (BitVec.ofNat 8 (pdu.length - 1)) ∧
    (∀ tpdu, maxGsmSmsServiceCenterAddr ≤ tpdu.length → convertSmscNumberToBcd s tpdu =
      some (pdu ++ tpdu.drop pdu.length, (pdu.length : ℤ))) ∧
    ∀ smsc, maxGsmSmsServiceCenterAddr * 2 ≤ smsc.length →
      convertSmscBcdToNumber signedChar pdu smsc =
        some (s ++ smsc.drop s.length, (s.length : ℤ))

/-! ## The digits -/

/-- The bytes of a row of digits. -/
def bcdBytes : List BYTE → List BYTE
  | [] => []
  | [c] => [c &&& 0x0F#8 ||| 0xF0#8]
  | c :: d :: rest => (c &&& 0x0F#8 ||| d <<< 4 &&& 0xF0#8) :: bcdBytes rest

@[simp] theorem bcdBytes_length (ds : List BYTE) : (bcdBytes ds).length = (ds.length + 1) / 2 := by
  induction ds using bcdBytes.induct with
  | case1 => rfl
  | case2 c => simp [bcdBytes]
  | case3 c d rest ih =>
      simp only [bcdBytes, length_cons, ih]
      omega

/-- The writer's loop and the step behind it write them. -/
theorem smscBcdLoop_fill (ds : List BYTE) {insertPoint i : ℕ} (hpoint : insertPoint ≤ 1)
    (hi : i % 2 = insertPoint) (p r : List BYTE) (h : (ds.length + 1) / 2 ≤ r.length) :
    ((smscBcdLoop insertPoint ds i p.length (p ++ r)).bind fun out =>
      smscBcdFill insertPoint out.2.1 out.2.2 out.1) =
      some (p ++ bcdBytes ds ++ r.drop (bcdBytes ds).length,
        (p ++ bcdBytes ds).length) := by
  induction ds using bcdBytes.induct generalizing i p r with
  | case1 =>
      have heven : ¬ (insertPoint ≠ 0 ∧ i % 2 = 0 ∨ insertPoint = 0 ∧ i % 2 = 1) := by omega
      simp [smscBcdLoop, smscBcdFill, heven, bcdBytes]
  | case2 c =>
      have hodd : insertPoint ≠ 0 ∧ (i + 1) % 2 = 0 ∨ insertPoint = 0 ∧ (i + 1) % 2 = 1 := by
        omega
      obtain ⟨x, r, rfl⟩ := exists_cons_of_length_pos (Nat.lt_of_lt_of_le (by simp) h)
      have hcell : (p ++ (c &&& 0x0F#8) :: r)[p.length]? = some (c &&& 0x0F#8) := by simp
      simp only [smscBcdLoop, if_pos hi, Block.put_at rfl, bind_eq_bind, bind_some,
        smscBcdFill, if_pos hodd, hcell, bcdBytes]
      simp
  | case3 c d rest ih =>
      have hnext : ¬ (i + 1) % 2 = insertPoint := by omega
      simp only [length_cons] at h
      obtain ⟨x, r, rfl⟩ := exists_cons_of_length_pos (by omega : 0 < r.length)
      have hcell : (p ++ (c &&& 0x0F#8) :: r)[p.length]? = some (c &&& 0x0F#8) := by simp
      rw [length_cons] at h
      have hrest := ih (i := i + 1 + 1) (by omega)
        (p ++ [c &&& 0x0F#8 ||| d <<< 4 &&& 0xF0#8]) r (by omega)
      rw [length_append, length_singleton] at hrest
      simp only [smscBcdLoop, if_pos hi, Block.put_at rfl, bind_eq_bind, bind_some,
        if_neg hnext, hcell, bcdBytes]
      rw [append_cons]
      rw [hrest]
      simp

/-! ## Reading them -/

theorem digit_low {c : BYTE} (hc : IsDecimal c) :
    (c &&& 0x0F#8) + 0x30 = c ∧ (c &&& 0x0F#8).setWidth 32 ≠ (0x0F : INT) ∧ c ≠ 0 := by
  have hall : ∀ c : BYTE, 0x30 ≤ c.toNat ∧ c.toNat ≤ 0x39 →
      (c &&& 0x0F#8) + 0x30 = c ∧ (c &&& 0x0F#8).setWidth 32 ≠ (0x0F : INT) ∧ c ≠ 0 := by
    decide +kernel
  exact hall c hc

/-- The lower nibble of a byte of two digits, and the upper one of a
`char` without a sign. -/
theorem nibbles (x y : BYTE) :
    (x &&& 0x0F#8 ||| y <<< 4 &&& 0xF0#8) &&& 0x0F#8 = x &&& 0x0F#8 ∧
      (charInt false (x &&& 0x0F#8 ||| y <<< 4 &&& 0xF0#8)).sshiftRight 4 =
        (y &&& 0x0F#8).setWidth 32 := by
  constructor
  · ext i hi
    interval_cases i <;> simp
  · rw [BitVec.sshiftRight_eq_of_msb_false (by simp [charInt, BitVec.msb_setWidth])]
    ext i hi
    interval_cases i <;> simp [charInt]

variable {ds : List BYTE}

/-- **The reader's loop gives the digits back**, and takes one off the
length for a filled nibble. -/
theorem smscNumberLoop_bcdBytes (hds : ∀ c ∈ ds, IsDecimal c) (len : ℤ) (q r : List BYTE)
    (h : ds.length ≤ r.length) :
    smscNumberLoop false (bcdBytes ds) q.length len (q ++ r) =
      some (q ++ ds ++ r.drop ds.length, len - (ds.length % 2 : ℕ)) := by
  induction ds using bcdBytes.induct generalizing q r with
  | case1 => simp [smscNumberLoop, bcdBytes]
  | case2 c =>
      obtain ⟨hc, -⟩ := forall_mem_cons.mp hds
      obtain ⟨x, r, rfl⟩ := exists_cons_of_length_pos (Nat.lt_of_lt_of_le (by simp) h)
      -- the filled nibble is the one of a character of ones
      obtain ⟨hlow, hhigh⟩ := nibbles c 0xFF#8
      have hfilled : (0xFF#8 <<< 4 &&& 0xF0#8 : BYTE) = 0xF0#8 := by decide
      have hones : ((0xFF#8 &&& 0x0F#8 : BYTE).setWidth 32 : INT) = 0x0F := by decide
      rw [hfilled] at hlow hhigh
      rw [hones] at hhigh
      simp only [bcdBytes, smscNumberLoop, hlow, hhigh, (digit_low hc).1, Block.put_at rfl,
        bind_eq_bind, bind_some, if_true]
      simp
  | case3 c d rest ih =>
      obtain ⟨hc, hd, hrest⟩ := forall_mem_cons.mp hds |>.imp_right forall_mem_cons.mp
      simp only [length_cons] at h
      obtain ⟨x, r, rfl⟩ := exists_cons_of_length_pos (by omega : 0 < r.length)
      rw [length_cons] at h
      obtain ⟨y, r, rfl⟩ := exists_cons_of_length_pos (by omega : 0 < r.length)
      rw [length_cons] at h
      obtain ⟨hlow, hhigh⟩ := nibbles c d
      obtain ⟨hdigit, hfill, -⟩ := digit_low hd
      have htrunc : (((d &&& 0x0F#8).setWidth 32 &&& 0x0F#32 : INT).truncate 8 : BYTE) =
          d &&& 0x0F#8 := by
        ext i hi
        interval_cases i <;> simp
      have hput : Block.put (q ++ c :: y :: r) (q.length + 1) d = some (q ++ c :: d :: r) := by
        have hput := Block.put_at (p := q ++ [c]) (r := r) (x := y) (y := d) rfl
        simpa using hput
      have hloop := ih hrest (q ++ [c, d]) r (by omega)
      have hlen : (q ++ [c, d]).length = q.length + 2 := by simp
      rw [hlen] at hloop
      simp only [bcdBytes, smscNumberLoop, hlow, hhigh, (digit_low hc).1, Block.put_at rfl,
        bind_eq_bind, bind_some, if_neg hfill, htrunc, hdigit, hput]
      rw [show q ++ c :: d :: r = q ++ [c, d] ++ r by simp, hloop]
      simp only [append_assoc, cons_append, nil_append, length_cons,
        drop_succ_cons, Nat.add_mod_right, Nat.add_assoc]

/-- A `char` with a sign has no nibble of ones: the loop leaves the length
as it is. -/
theorem smscNumberLoop_signed {bytes buf buf' : List BYTE} {i : ℕ} {len len' : ℤ}
    (h : smscNumberLoop true bytes i len buf = some (buf', len')) : len' = len := by
  have hnibble : ∀ b : BYTE, (charInt true b).sshiftRight 4 ≠ 0x0F := by decide +kernel
  induction bytes generalizing i buf with
  | nil => exact ((Prod.mk.inj (some.inj h)).2).symm
  | cons b bytes ih =>
      simp only [smscNumberLoop, if_neg (hnibble b), bind_eq_bind, bind_eq_some_iff] at h
      obtain ⟨_, -, _, -, hrest⟩ := h
      exact ih hrest

/-! ## The PDU -/

/-- The PDU of a type of address and digits. -/
def smscPdu (toa : BYTE) (ds : List BYTE) : List BYTE :=
  BitVec.ofNat 8 (1 + (bcdBytes ds).length) :: toa :: bcdBytes ds

@[simp] theorem smscPdu_length (toa : BYTE) (ds : List BYTE) :
    (smscPdu toa ds).length = 2 + (ds.length + 1) / 2 := by
  simp only [smscPdu, length_cons, bcdBytes_length]
  omega

/-- What the writer does behind the type of address. -/
theorem smscPdu_written (toa : BYTE) {insertPoint : ℕ} (hpoint : insertPoint ≤ 1)
    (hlen : ds.length ≤ 20) (tpdu : List BYTE) (htpdu : maxGsmSmsServiceCenterAddr ≤ tpdu.length) :
    (do
      let buf ← Block.put (List.replicate maxGsmSmsServiceCenterAddr 0) 1 toa
      let (buf, i, j) ← smscBcdLoop insertPoint ds insertPoint 2 buf
      let (buf, j) ← smscBcdFill insertPoint i j buf
      let buf ← Block.put buf 0 (BitVec.ofNat 8 (j - 1))
      if tpdu.length < j then some (tpdu, -1)
      else do
        let bytes ← Block.load buf 0 j
        let tpdu ← Block.store tpdu 0 bytes
        some (tpdu, (j : ℤ))) =
      some (smscPdu toa ds ++ tpdu.drop (smscPdu toa ds).length,
        ((smscPdu toa ds).length : ℤ)) := by
  have hbuf : Block.put (List.replicate maxGsmSmsServiceCenterAddr 0) 1 toa =
      some ([0, toa] ++ List.replicate 10 0) := rfl
  have hfill := smscBcdLoop_fill ds hpoint (i := insertPoint) (by omega) [0, toa]
    (List.replicate 10 0) (by rw [length_replicate]; omega)
  obtain ⟨⟨buf, i, j⟩, hloop, hfill⟩ := bind_eq_some_iff.mp hfill
  simp only [length_cons, length_nil, Nat.zero_add, Nat.reduceAdd] at hloop
  have hput (b : BYTE) (r : List BYTE) : Block.put (0 :: r) 0 b = some (b :: r) :=
    Block.put_at (p := []) rfl
  have hfit : ¬ tpdu.length < ([0, toa] ++ bcdBytes ds).length := by
    rw [length_append, bcdBytes_length]
    rw [maxGsmSmsServiceCenterAddr] at htpdu
    simp only [length_cons, length_nil]
    omega
  have hpdu : ([0, toa] ++ bcdBytes ds).length = (smscPdu toa ds).length := by
    simp [smscPdu]
  have hcount : BitVec.ofNat 8 (([0, toa] ++ bcdBytes ds).length - 1) ::
      ([toa] ++ (bcdBytes ds ++ List.drop (bcdBytes ds).length (List.replicate 10 0))) =
        smscPdu toa ds ++ List.drop (bcdBytes ds).length (List.replicate 10 0) := by
    simp [smscPdu, Nat.add_comm]
  simp only [hbuf, hloop, hfill, bind_eq_bind, bind_some, if_neg hfit]
  rw [append_assoc, cons_append, hput, bind_some]
  rw [hcount, hpdu, Block.load_front, bind_some, Block.store_zero, bind_some]
  rw [← hpdu]
  exact Nat.le_of_not_lt hfit

/-- An international number is written behind its type, without the
sign. -/
theorem convertSmscNumberToBcd_international (hlen : ds.length ≤ 20) (tpdu : List BYTE)
    (htpdu : maxGsmSmsServiceCenterAddr ≤ tpdu.length) :
    convertSmscNumberToBcd (0x2B :: ds) tpdu =
      some (smscPdu rilToaInternational ds ++ tpdu.drop (smscPdu rilToaInternational ds).length,
        ((smscPdu rilToaInternational ds).length : ℤ)) :=
  smscPdu_written rilToaInternational le_rfl hlen tpdu htpdu

/-- And a national one behind the other. -/
theorem convertSmscNumberToBcd_national (hne : ds ≠ []) (hds : ∀ c ∈ ds, IsDecimal c)
    (hlen : ds.length ≤ 20) (tpdu : List BYTE) (htpdu : maxGsmSmsServiceCenterAddr ≤ tpdu.length) :
    convertSmscNumberToBcd ds tpdu =
      some (smscPdu rilToaUnknown ds ++ tpdu.drop (smscPdu rilToaUnknown ds).length,
        ((smscPdu rilToaUnknown ds).length : ℤ)) := by
  obtain ⟨c, rest, rfl⟩ := exists_cons_of_ne_nil hne
  have hsign : c ≠ 0x2B := by
    rintro rfl
    have := (hds _ mem_cons_self).1
    simp at this
  have hwritten := smscPdu_written rilToaUnknown (Nat.zero_le 1) hlen tpdu htpdu
  simp only [convertSmscNumberToBcd, if_neg hsign]
  exact hwritten

/-! ## The number -/

/-- The text of an international PDU is the number. -/
theorem smscText_international (hds : ∀ c ∈ ds, IsDecimal c) (hlen : ds.length ≤ 20) :
    smscText false rilToaInternational (bcdBytes ds) =
      some (0x2B :: ds ++ List.replicate (23 - ds.length) 0, ((0x2B :: ds).length : ℤ)) := by
  have htoa : charInt false rilToaInternational = rilToaInternational.setWidth 32 := rfl
  have hbuf : Block.put (List.replicate (maxGsmSmsServiceCenterAddr * 2) 0) 0 (0x2B : BYTE) =
      some ([0x2B] ++ List.replicate 23 0) := rfl
  have hloop := smscNumberLoop_bcdBytes hds (((bcdBytes ds).length + 1 : ℕ) * 2 - 1) [0x2B]
    (List.replicate 23 0) (by rw [length_replicate]; omega)
  rw [length_singleton, drop_replicate] at hloop
  simp only [smscText, if_pos htoa, hbuf, bind_eq_bind, bind_some, hloop]
  rw [some.injEq, Prod.mk.injEq, bcdBytes_length, length_cons]
  refine ⟨rfl, ?_⟩
  omega

/-- And that of a national one too, but the length counts one more. -/
theorem smscText_national (hds : ∀ c ∈ ds, IsDecimal c) (hlen : ds.length ≤ 20) :
    smscText false rilToaUnknown (bcdBytes ds) =
      some (ds ++ List.replicate (24 - ds.length) 0, (ds.length : ℤ) + 1) := by
  have htoa : charInt false rilToaUnknown ≠ rilToaInternational.setWidth 32 := by decide
  have htoa' : charInt false rilToaUnknown = rilToaUnknown.setWidth 32 := rfl
  have hloop := smscNumberLoop_bcdBytes hds (((bcdBytes ds).length + 1 : ℕ) * 2 - 1) []
    (List.replicate 24 0) (by rw [length_replicate]; omega)
  rw [length_nil, drop_replicate, nil_append, nil_append] at hloop
  simp only [smscText, if_neg htoa, if_pos htoa']
  rw [show maxGsmSmsServiceCenterAddr * 2 = 24 from rfl, hloop, some.injEq, Prod.mk.injEq,
    bcdBytes_length]
  refine ⟨rfl, ?_⟩
  omega

/-- Where a `char` has a sign, every PDU is two characters for each byte
behind the count. -/
theorem smscText_signed {toa : BYTE} {digits buf : List BYTE} {len : ℤ}
    (h : smscText true toa digits = some (buf, len)) : len = (digits.length + 1 : ℕ) * 2 := by
  have htoa : ∀ b : BYTE, charInt true b ≠ rilToaInternational.setWidth 32 ∧
      charInt true b ≠ rilToaUnknown.setWidth 32 := by
    decide +kernel
  simp only [smscText, if_neg (htoa toa).1, if_neg (htoa toa).2] at h
  exact smscNumberLoop_signed h

/-- The returned length is the one of the text, or an error. -/
theorem convertSmscBcdToNumber_length {signedChar : Bool} {count toa : BYTE}
    {digits smsc smsc' : List BYTE} {n : ℤ}
    (h : convertSmscBcdToNumber signedChar (count :: toa :: digits) smsc = some (smsc', n)) :
    ∃ buf len, smscText signedChar toa digits = some (buf, len) ∧ (n = len ∨ n = -1) := by
  simp only [convertSmscBcdToNumber] at h
  obtain ⟨⟨buf, len⟩, htext, h⟩ := bind_eq_some_iff.mp h
  refine ⟨buf, len, htext, ?_⟩
  dsimp only at h
  split at h
  · exact Or.inr (Prod.mk.inj (some.inj h)).2.symm
  · obtain ⟨_, -, h⟩ := bind_eq_some_iff.mp h
    obtain ⟨_, -, h⟩ := bind_eq_some_iff.mp h
    exact Or.inl (Prod.mk.inj (some.inj h)).2.symm

/-- `strncpy` of a text that has no terminator and is long enough. -/
theorem strncpy_front {s : List BYTE} (hs : ∀ c ∈ s, c ≠ 0) (r : List BYTE) :
    strncpy s.length (s ++ r) = some s := by
  induction s with
  | nil => rfl
  | cons c s ih =>
      obtain ⟨hc, hs⟩ := forall_mem_cons.mp hs
      simp only [length_cons, cons_append, strncpy, if_neg hc, ih hs, map_some]

/-- What a number that survives is read from, and that the reader's length
is its own. -/
theorem SmscRoundTrips.text {signedChar : Bool} {s : List BYTE} {toa : BYTE}
    (h : SmscRoundTrips signedChar s)
    (hwrite : ∀ tpdu, maxGsmSmsServiceCenterAddr ≤ tpdu.length → convertSmscNumberToBcd s tpdu =
      some (smscPdu toa ds ++ tpdu.drop (smscPdu toa ds).length,
        ((smscPdu toa ds).length : ℤ))) :
    ∃ buf, smscText signedChar toa (bcdBytes ds) = some (buf, (s.length : ℤ)) := by
  obtain ⟨pdu, -, -, -, hpdu, hback⟩ := h
  have htpdu : maxGsmSmsServiceCenterAddr ≤
      (List.replicate maxGsmSmsServiceCenterAddr (0 : BYTE)).length := by
    rw [length_replicate]
  have hsame := (hpdu _ htpdu).symm.trans (hwrite _ htpdu)
  rw [some.injEq, Prod.mk.injEq, Int.natCast_inj] at hsame
  obtain ⟨hblock, hlen⟩ := hsame
  have heq : pdu = smscPdu toa ds := by
    have htake := congrArg (List.take pdu.length) hblock
    rwa [take_left, hlen, take_left] at htake
  subst heq
  have hread := hback (List.replicate (maxGsmSmsServiceCenterAddr * 2) 0)
    (by rw [length_replicate])
  obtain ⟨buf, len, htext, hlen⟩ := convertSmscBcdToNumber_length hread
  refine ⟨buf, ?_⟩
  rw [htext]
  rcases hlen with hlen | hlen
  · rw [hlen]
  · omega

/-- **Which numbers survive**: the international ones, where a `char` has
no sign. -/
theorem smscRoundTrips_iff {signedChar : Bool} {s : List BYTE} (hs : IsSmscNumber s)
    (hvalid : isSmscLenValid s = true) :
    SmscRoundTrips signedChar s ↔ signedChar = false ∧ s.head? = some 0x2B := by
  cases hs with
  | international hne hds =>
      rename_i ds
      have hlen : ds.length ≤ 20 := by
        simp only [isSmscLenValid, head?_cons, if_true, length_cons] at hvalid
        have hle := of_decide_eq_true hvalid
        unfold maxGsmSmsServiceCenterAddr at hle
        omega
      have hwrite := convertSmscNumberToBcd_international hlen
      constructor
      · intro htrip
        refine ⟨?_, rfl⟩
        cases signedChar with
        | false => rfl
        | true =>
            -- the length is even for the bytes, and larger than the number
            obtain ⟨buf, htext⟩ := htrip.text hwrite
            have hsigned := smscText_signed htext
            rw [bcdBytes_length, length_cons] at hsigned
            omega
      · rintro ⟨rfl, -⟩
        refine ⟨smscPdu rilToaInternational ds, ?_, ?_, ?_, hwrite, ?_⟩
        · rw [smscPdu_length]
          omega
        · rw [smscPdu_length, maxGsmSmsServiceCenterAddr]
          omega
        · rw [smscPdu_length, smscPdu, head?_cons, bcdBytes_length]
          congr 2
          omega
        · intro smsc hsmsc
          rw [maxGsmSmsServiceCenterAddr] at hsmsc
          have hfit : ¬ (smsc.length : ℤ) < ((0x2B :: ds).length : ℕ) := by
            rw [length_cons]
            omega
          have hcopy : strncpy (0x2B :: ds).length
              (0x2B :: ds ++ List.replicate (23 - ds.length) 0) = some (0x2B :: ds) :=
            strncpy_front (forall_mem_cons.mpr
              ⟨by decide, fun c hc => (digit_low (hds c hc)).2.2⟩) _
          simp only [convertSmscBcdToNumber, smscPdu, smscText_international hds hlen, if_neg hfit,
            Int.toNat_natCast, hcopy, bind_eq_bind, bind_some]
          rw [Block.store_zero (by rw [length_cons]; omega), bind_some]
  | national hne hds =>
      have hsign : s.head? ≠ some 0x2B := by
        obtain ⟨c, rest, rfl⟩ := exists_cons_of_ne_nil hne
        rw [head?_cons, ne_eq, some.injEq]
        rintro rfl
        have := (hds _ mem_cons_self).1
        simp at this
      have hlen : s.length ≤ 20 := by
        simp only [isSmscLenValid, if_neg hsign] at hvalid
        exact of_decide_eq_true hvalid
      have hwrite := convertSmscNumberToBcd_national hne hds hlen
      refine iff_of_false (fun htrip => ?_) (fun h => hsign h.2)
      obtain ⟨buf, htext⟩ := htrip.text hwrite
      cases signedChar with
      | true =>
          have hsigned := smscText_signed htext
          rw [bcdBytes_length] at hsigned
          omega
      | false =>
          rw [smscText_national hds hlen, some.injEq, Prod.mk.injEq] at htext
          omega

/-- `+15`. -/
theorem smscRoundTrips_international : SmscRoundTrips false [0x2B, 0x31, 0x35] :=
  (smscRoundTrips_iff (.international (by decide) (by unfold IsDecimal; decide)) (by decide)).mpr
    ⟨rfl, rfl⟩

/-- **`15` does not survive**: it is read with a length of three. -/
theorem not_smscRoundTrips_national : ¬ SmscRoundTrips false [0x31, 0x35] := by
  intro htrip
  have hds : ∀ c ∈ [(0x31 : BYTE), 0x35], IsDecimal c := by
    unfold IsDecimal
    decide
  obtain ⟨buf, htext⟩ := htrip.text
    (convertSmscNumberToBcd_national (by decide) hds (by decide))
  rw [smscText_national hds (by decide), some.injEq, Prod.mk.injEq] at htext
  exact absurd htext.2 (by decide)

end ExynosVendor.Ril
