import ExynosVendor.Common.BitStream
import ExynosVendor.Ril.Basic
import Mathlib.Tactic.IntervalCases

/-!
# Bitwise streams

`CBitwiseOutputStream` and `CBitwiseInputStream` of
`util/bitwiseiostream.cpp`. Both shift a field into place in a 16-bit
word and touch one byte of the buffer or two. `Writing` and `Reading` say
what a stream has behind it and ahead of it in bits; `write` extends the
one and `read` consumes the other, and neither ever leaves the buffer.
-/

namespace ExynosVendor.Ril

open BitStream (field bit Holds)
open List Option BitVec

structure CBitwiseOutputStream where
  /-- `m_pbBuf`. -/
  pbBuf : List BYTE
  /-- `m_uPos`. -/
  uPos : ℕ
  /-- `m_uEnd`. -/
  uEnd : ℕ

structure CBitwiseInputStream where
  /-- `m_pbBuf`. -/
  pbBuf : List BYTE
  /-- `m_uPos`. -/
  uPos : ℕ
  /-- `m_uEnd`. -/
  uEnd : ℕ

/-- The low bits of a word, `0xFFFF >> (16 - bits)`. -/
def lowMask (bits : ℕ) : WORD :=
  0xFFFF#16 >>> (16 - bits)

theorem lowMask_getLsbD {bits : ℕ} (hbits : bits ≤ 8) (i : ℕ) :
    (lowMask bits).getLsbD i = decide (i < bits) := by
  have hones : (0xFFFF#16 : WORD) = BitVec.allOnes 16 := rfl
  rw [lowMask, hones, getLsbD_ushiftRight, getLsbD_allOnes, decide_eq_decide]
  omega

/-- A bit of the shifted word is a bit of the field. -/
theorem shifted_getLsbD (data : BYTE) {bits offset i : ℕ} (hbits : bits ≤ 8) (hi : i < 16) :
    ((data.zeroExtend 16 &&& lowMask bits) <<< offset : WORD).getLsbD i =
      (decide (offset ≤ i) && decide (i - offset < bits) && data.getLsbD (i - offset)) := by
  rw [getLsbD_shiftLeft, getLsbD_and, lowMask_getLsbD hbits]
  simp only [truncate_eq_setWidth, getLsbD_setWidth]
  by_cases hle : offset ≤ i
  · have hge : ¬ i < offset := by omega
    have hlt : i - offset < 16 := by omega
    simp [hi, hle, hge, hlt, Bool.and_comm]
  · have hlt : i < offset := by omega
    simp [hi, hle, hlt]

/-- The high byte of a word. -/
theorem highByte_getLsbD (temp : WORD) {i : ℕ} (hi : i < 8) :
    ((temp >>> 8).truncate 8 : BYTE).getLsbD i = temp.getLsbD (i + 8) := by
  rw [truncate_eq_setWidth, getLsbD_setWidth, getLsbD_ushiftRight]
  simp [hi, Nat.add_comm]

theorem lowByte_getLsbD (temp : WORD) {i : ℕ} (hi : i < 8) :
    ((temp &&& 0xFF).truncate 8 : BYTE).getLsbD i = temp.getLsbD i := by
  have hmask : (0xFF : WORD) = lowMask 8 := rfl
  rw [truncate_eq_setWidth, getLsbD_setWidth, getLsbD_and, hmask, lowMask_getLsbD (Nat.le_refl 8)]
  simp [hi]

namespace CBitwiseOutputStream

/-- The constructor, on a whole buffer. -/
def ofBuf (buf : List BYTE) : CBitwiseOutputStream where
  pbBuf := buf
  uPos := 0
  uEnd := buf.length <<< 3

def write (s : CBitwiseOutputStream) (bits : ℕ) (data : BYTE) : Option CBitwiseOutputStream :=
  let temp : WORD := data.zeroExtend 16
  if 8 < bits ∨ s.uEnd < s.uPos + bits then some s
  else
    let temp := temp &&& lowMask bits
    let index := s.uPos >>> 3
    let offset := 16 - (s.uPos &&& 0x07) - bits
    let temp := temp <<< offset
    do
      let cell ← s.pbBuf[index]?
      let pbBuf ← Block.put s.pbBuf index (cell ||| (temp >>> 8).truncate 8)
      let pbBuf ←
        if offset < 8 then do
          let cell ← pbBuf[index + 1]?
          Block.put pbBuf (index + 1) (cell ||| (temp &&& 0xFF).truncate 8)
        else some pbBuf
      some { s with pbBuf := pbBuf, uPos := s.uPos + bits }

def getArrayIndex (s : CBitwiseOutputStream) : ℕ :=
  s.uPos >>> 3

/-- **What a stream has written**: the bits are at the front of its
buffer, up to its position. -/
structure Writing (s : CBitwiseOutputStream) (w : List Bool) : Prop where
  /-- The buffer holds the bits. -/
  holds : Holds s.pbBuf w
  /-- The position is behind them. -/
  pos : s.uPos = w.length
  /-- The end is the buffer's. -/
  last : s.uEnd = 8 * s.pbBuf.length

theorem ofBuf_writing (n : ℕ) : (ofBuf (List.replicate n 0)).Writing [] where
  holds := BitStream.holds_replicate n
  pos := rfl
  last := by
    simp only [ofBuf, Nat.shiftLeft_eq]
    omega

/-- The word as it is shifted for a field of `bits` bits at position `pos`. -/
def fieldWord (pos bits : ℕ) (data : BYTE) : WORD :=
  (data.zeroExtend 16 &&& lowMask bits) <<< (16 - pos % 8 - bits)

variable {bits : ℕ} {s : CBitwiseOutputStream}

/-- **The word holds the field where it belongs**, counted from the byte
the position is in. -/
theorem fieldWord_getLsbD {pos k : ℕ} (data : BYTE) (hbits : bits ≤ 8) (hlow : pos / 8 * 8 ≤ k)
    (hhigh : k < pos / 8 * 8 + 16) :
    (fieldWord pos bits data).getLsbD (15 - (k - pos / 8 * 8)) =
      (decide (pos ≤ k) && decide (k < pos + bits) && data.getLsbD (bits - 1 - (k - pos))) := by
  rw [fieldWord, shifted_getLsbD data hbits (by omega)]
  by_cases hin : pos ≤ k ∧ k < pos + bits
  · have hbit : 15 - (k - pos / 8 * 8) - (16 - pos % 8 - bits) = bits - 1 - (k - pos) := by omega
    rw [hbit, decide_eq_true (by omega), decide_eq_true (by omega), decide_eq_true hin.1,
      decide_eq_true hin.2]
  · have hout : ¬ (16 - pos % 8 - bits ≤ 15 - (k - pos / 8 * 8) ∧
        15 - (k - pos / 8 * 8) - (16 - pos % 8 - bits) < bits) := by omega
    rw [← Bool.decide_and, ← Bool.decide_and, decide_eq_false hin, decide_eq_false hout,
      Bool.false_and, Bool.false_and]

theorem put_or {buf : List BYTE} {i : ℕ} (b : BYTE) (h : i < buf.length) :
    ∃ cell buf', buf[i]? = some cell ∧ Block.put buf i (cell ||| b) = some buf' ∧
      buf'.length = buf.length ∧
      ∀ k, bit buf' k = (bit buf k || (decide (k / 8 = i) && b.getLsbD (7 - k % 8))) :=
  ⟨buf[i], _, List.getElem?_eq_getElem h, Block.put_eq_set _ h, length_set,
    BitStream.bit_set_or b h⟩

/-- **A write sets the bits of its field** and no others. -/
theorem write_bits (data : BYTE) (hlast : s.uEnd = 8 * s.pbBuf.length) (hpos : 1 ≤ bits)
    (hbits : bits ≤ 8) (hroom : s.uPos + bits ≤ s.uEnd) :
    ∃ buf, s.write bits data = some { s with pbBuf := buf, uPos := s.uPos + bits } ∧
      buf.length = s.pbBuf.length ∧
      ∀ k, bit buf k = (bit s.pbBuf k || (decide (s.uPos ≤ k) && decide (k < s.uPos + bits) &&
        data.getLsbD (bits - 1 - (k - s.uPos)))) := by
  have hgo : ¬ (8 < bits ∨ s.uEnd < s.uPos + bits) := by omega
  have hand : s.uPos &&& 0x07 = s.uPos % 8 := Nat.and_two_pow_sub_one_eq_mod s.uPos 3
  have hshift : s.uPos >>> 3 = s.uPos / 8 := Nat.shiftRight_eq_div_pow s.uPos 3
  have hindex : s.uPos / 8 < s.pbBuf.length := by omega
  obtain ⟨cell, buf₁, hcell, hput, hlen, hbit⟩ :=
    put_or ((fieldWord s.uPos bits data >>> 8).truncate 8) hindex
  rw [fieldWord] at hput
  -- the byte the position is in gets the word's high byte
  have hfirst : ∀ k, k / 8 ≠ s.uPos / 8 + 1 ∨ s.uPos + bits ≤ s.uPos / 8 * 8 + 8 →
      bit buf₁ k = (bit s.pbBuf k || (decide (s.uPos ≤ k) && decide (k < s.uPos + bits) &&
        data.getLsbD (bits - 1 - (k - s.uPos)))) := by
    intro k hk
    rw [hbit]
    by_cases hsame : k / 8 = s.uPos / 8
    · have hindex : 7 - k % 8 + 8 = 15 - (k - s.uPos / 8 * 8) := by omega
      rw [decide_eq_true hsame, Bool.true_and, highByte_getLsbD _ (by omega), hindex,
        fieldWord_getLsbD data hbits (by omega) (by omega)]
    · have hout : ¬ (s.uPos ≤ k ∧ k < s.uPos + bits) := by omega
      rw [decide_eq_false hsame, ← Bool.decide_and, decide_eq_false hout, Bool.false_and,
        Bool.false_and]
  by_cases hcross : 16 - s.uPos % 8 - bits < 8
  · -- and the one behind it the low byte
    have hindex₂ : s.uPos / 8 + 1 < buf₁.length := by omega
    obtain ⟨cell₂, buf₂, hcell₂, hput₂, hlen₂, hbit₂⟩ :=
      put_or ((fieldWord s.uPos bits data &&& 0xFF).truncate 8) hindex₂
    rw [fieldWord] at hput₂
    refine ⟨buf₂, ?_, hlen₂.trans hlen, ?_⟩
    · simp only [write, if_neg hgo, hshift, hand, hcell, bind_eq_bind, bind_some,
        hput, if_pos hcross, hcell₂, hput₂]
    · intro k
      rw [hbit₂]
      by_cases hnext : k / 8 = s.uPos / 8 + 1
      · have hindex : 7 - k % 8 = 15 - (k - s.uPos / 8 * 8) := by omega
        have hother : ¬ k / 8 = s.uPos / 8 := by omega
        rw [hbit, decide_eq_false hother, Bool.false_and, Bool.or_false, decide_eq_true hnext,
          Bool.true_and, lowByte_getLsbD _ (by omega), hindex,
          fieldWord_getLsbD data hbits (by omega) (by omega)]
      · rw [hfirst k (Or.inl hnext), decide_eq_false hnext, Bool.false_and, Bool.or_false]
  · refine ⟨buf₁, ?_, hlen, fun k => hfirst k (Or.inr (by omega))⟩
    simp only [write, if_neg hgo, hshift, hand, hcell, bind_eq_bind, bind_some, hput, if_neg hcross]

/-- **So a write appends its field.** -/
theorem Writing.write {w : List Bool} (hs : s.Writing w) (data : BYTE) (hpos : 1 ≤ bits)
    (hbits : bits ≤ 8) (hroom : w.length + bits ≤ 8 * s.pbBuf.length) :
    ∃ s', s.write bits data = some s' ∧ s'.Writing (w ++ field bits data) ∧
      s'.pbBuf.length = s.pbBuf.length := by
  obtain ⟨buf, hwrite, hlen, hbit⟩ := write_bits data hs.last hpos hbits
    (by rw [hs.last, hs.pos]; exact hroom)
  refine ⟨_, hwrite, ⟨?_, ?_, ?_⟩, hlen⟩
  · intro k
    rw [hbit, hs.holds k, hs.pos, BitStream.append_field_getD]
  · rw [length_append, BitStream.field_length, hs.pos]
  · rw [hs.last, hlen]

/-- The digits of an address, one write each. -/
def writeDigits (s : CBitwiseOutputStream) (bits : ℕ) : List BYTE → Option CBitwiseOutputStream
  | [] => some s
  | digit :: rest => do
      let s ← s.write bits digit
      s.writeDigits bits rest

/-- They are appended one behind the other. -/
theorem Writing.writeDigits {w : List Bool} (hs : s.Writing w) (digits : List BYTE)
    (hpos : 1 ≤ bits) (hbits : bits ≤ 8)
    (hroom : w.length + bits * digits.length ≤ 8 * s.pbBuf.length) :
    ∃ s', s.writeDigits bits digits = some s' ∧
      s'.Writing (w ++ digits.flatMap (field bits)) ∧ s'.pbBuf.length = s.pbBuf.length := by
  induction digits generalizing s w with
  | nil => exact ⟨s, rfl, by simpa using hs, rfl⟩
  | cons digit rest ih =>
      rw [length_cons, Nat.mul_succ] at hroom
      obtain ⟨s₁, hwrite, hs₁, hlen₁⟩ := hs.write digit hpos hbits (by omega)
      obtain ⟨s₂, hrest, hs₂, hlen₂⟩ := ih hs₁ (by
        rw [length_append, BitStream.field_length, hlen₁]
        omega)
      refine ⟨s₂, ?_, ?_, hlen₂.trans hlen₁⟩
      · simp only [CBitwiseOutputStream.writeDigits, hwrite, bind_eq_bind, bind_some, hrest]
      · rw [flatMap_cons, ← List.append_assoc]
        exact hs₂

end CBitwiseOutputStream

namespace CBitwiseInputStream

/-- The constructor, on a whole buffer. -/
def ofBuf (buf : List BYTE) : CBitwiseInputStream where
  pbBuf := buf
  uPos := 0
  uEnd := buf.length <<< 3

def read (s : CBitwiseInputStream) (bits : ℕ) : Option (BYTE × CBitwiseInputStream) :=
  let index := s.uPos >>> 3
  let offset := 16 - (s.uPos &&& 0x07) - bits
  if 8 < bits ∨ s.uEnd < s.uPos + bits then some (0, s)
  else do
    let cell ← s.pbBuf[index]?
    let data : WORD := cell.zeroExtend 16 <<< 8
    let data ←
      if offset < 8 then do
        let cell ← s.pbBuf[index + 1]?
        some (data ||| cell.zeroExtend 16)
      else some data
    let data := data >>> offset &&& lowMask bits
    some (data.truncate 8, { s with uPos := s.uPos + bits })

/-- **What a stream has ahead of it**: the next bits of its buffer, all
before its end. -/
structure Reading (s : CBitwiseInputStream) (w : List Bool) : Prop where
  /-- The bits from the position on. -/
  ahead : ∀ k, k < w.length → bit s.pbBuf (s.uPos + k) = w.getD k false
  /-- They lie before the end. -/
  pos : s.uPos + w.length ≤ s.uEnd
  /-- The end is the buffer's. -/
  last : s.uEnd = 8 * s.pbBuf.length

variable {w : List Bool} {bits : ℕ} {s : CBitwiseInputStream}

theorem ofBuf_reading {buf : List BYTE} (h : Holds buf w) (hlen : w.length ≤ 8 * buf.length) :
    (ofBuf buf).Reading w := by
  refine ⟨?_, ?_, ?_⟩
  · intro k _
    simpa [ofBuf] using h k
  · simp only [ofBuf, Nat.shiftLeft_eq]
    omega
  · simp only [ofBuf, Nat.shiftLeft_eq]
    omega

/-- The word of one byte. -/
theorem oneByte_getLsbD (cell : BYTE) {i : ℕ} (hi : i < 16) :
    (cell.zeroExtend 16 <<< 8 : WORD).getLsbD i = (decide (8 ≤ i) && cell.getLsbD (i - 8)) := by
  rw [getLsbD_shiftLeft]
  simp only [truncate_eq_setWidth, getLsbD_setWidth]
  by_cases hlow : i < 8
  · have hge : ¬ 8 ≤ i := by omega
    simp [hi, hlow, hge]
  · have hge : 8 ≤ i := by omega
    have hlt : i - 8 < 16 := by omega
    simp [hi, hlow, hge, hlt]

theorem twoBytes_getLsbD (cell next : BYTE) {i : ℕ} (hi : i < 16) :
    (cell.zeroExtend 16 <<< 8 ||| next.zeroExtend 16 : WORD).getLsbD i =
      if i < 8 then next.getLsbD i else cell.getLsbD (i - 8) := by
  rw [getLsbD_or, oneByte_getLsbD cell hi, zeroExtend_eq_setWidth,
    getLsbD_setWidth, decide_eq_true hi, Bool.true_and]
  by_cases hlow : i < 8
  · rw [if_pos hlow, decide_eq_false (by omega), Bool.false_and, Bool.false_or]
  · have hnext : next.getLsbD i = false := getLsbD_of_ge _ _ (by omega)
    rw [if_neg hlow, decide_eq_true (by omega), Bool.true_and, hnext, Bool.or_false]

/-- A field shifted down and masked is the value written. -/
theorem shifted_down {word : WORD} {data : BYTE} {offset : ℕ} (hbits : bits ≤ 8)
    (hdata : data.toNat < 2 ^ bits)
    (hword : ∀ j, j < bits → word.getLsbD (offset + j) = data.getLsbD j) :
    (word >>> offset &&& lowMask bits).truncate 8 = data := by
  apply eq_of_getLsbD_eq
  intro i hi
  rw [truncate_eq_setWidth, getLsbD_setWidth, getLsbD_and,
    getLsbD_ushiftRight, lowMask_getLsbD hbits, decide_eq_true hi, Bool.true_and]
  by_cases hin : i < bits
  · rw [hword i hin, decide_eq_true hin, Bool.and_true]
  · have hle : 2 ^ bits ≤ 2 ^ i := Nat.pow_le_pow_right (by omega) (by omega)
    have hzero : data.getLsbD i = false := Nat.testBit_lt_two_pow (by omega)
    rw [decide_eq_false hin, Bool.and_false, hzero]

/-- **A read takes its field off the front.** -/
theorem Reading.read {data : BYTE} (hs : s.Reading (field bits data ++ w)) (hpos : 1 ≤ bits)
    (hbits : bits ≤ 8) (hdata : data.toNat < 2 ^ bits) :
    ∃ s', s.read bits = some (data, s') ∧ s'.Reading w := by
  have hend := hs.pos
  rw [length_append, BitStream.field_length] at hend
  have hlast := hs.last
  have hgo : ¬ (8 < bits ∨ s.uEnd < s.uPos + bits) := by omega
  have hand : s.uPos &&& 0x07 = s.uPos % 8 := Nat.and_two_pow_sub_one_eq_mod s.uPos 3
  have hshift : s.uPos >>> 3 = s.uPos / 8 := Nat.shiftRight_eq_div_pow s.uPos 3
  have hindex : s.uPos / 8 < s.pbBuf.length := by omega
  have hrest : { s with uPos := s.uPos + bits }.Reading w := by
    refine ⟨?_, ?_, hlast⟩
    · intro k hk
      have hbit := hs.ahead (bits + k) (by rw [length_append, BitStream.field_length]; omega)
      rw [getD_append_right _ _ _ _ (by rw [BitStream.field_length]; omega),
        BitStream.field_length, Nat.add_sub_cancel_left, ← Nat.add_assoc] at hbit
      exact hbit
    · show s.uPos + bits + w.length ≤ s.uEnd
      omega
  -- the field's bits, in the buffer's own count
  have hfield : ∀ j, j < bits → bit s.pbBuf (s.uPos + (bits - 1 - j)) = data.getLsbD j := by
    intro j hj
    rw [hs.ahead _ (by rw [length_append, BitStream.field_length]; omega),
      getD_append _ _ _ _ (by rw [BitStream.field_length]; omega),
      BitStream.field_getD data (by omega)]
    congr 1
    omega
  have hcell : ∀ i (h : i < s.pbBuf.length) k, k / 8 = i →
      bit s.pbBuf k = s.pbBuf[i].getLsbD (7 - k % 8) := by
    rintro i h k rfl
    rw [bit, getD_eq_getElem _ _ h]
  by_cases hcross : 16 - s.uPos % 8 - bits < 8
  · have hindex₂ : s.uPos / 8 + 1 < s.pbBuf.length := by omega
    refine ⟨_, ?_, hrest⟩
    simp only [CBitwiseInputStream.read, if_neg hgo, hshift, hand,
      List.getElem?_eq_getElem hindex, bind_eq_bind, bind_some, if_pos hcross,
      List.getElem?_eq_getElem hindex₂, some.injEq, Prod.mk.injEq, and_true]
    refine shifted_down hbits hdata ?_
    intro j hj
    rw [twoBytes_getLsbD _ _ (by omega), ← hfield j hj]
    split
    · next hlow =>
      rw [hcell _ hindex₂ _ (by omega)]
      congr 1
      omega
    · next hhigh =>
      rw [hcell _ hindex _ (by omega)]
      congr 1
      omega
  · refine ⟨_, ?_, hrest⟩
    simp only [CBitwiseInputStream.read, if_neg hgo, hshift, hand, List.getElem?_eq_getElem hindex,
      bind_eq_bind, bind_some, if_neg hcross, some.injEq, Prod.mk.injEq, and_true]
    refine shifted_down hbits hdata ?_
    intro j hj
    rw [← hfield j hj, hcell _ hindex _ (by omega), oneByte_getLsbD _ (by omega),
      decide_eq_true (by omega), Bool.true_and]
    congr 1
    omega

/-! ### Reads from any buffer -/

/-- **The field at a position** of a buffer, a number; zero where it would not end inside. -/
def fieldAt (buf : List BYTE) (pos bits : ℕ) : ℕ :=
  if pos + bits ≤ 8 * buf.length then
    ((buf.getD (pos / 8) 0).toNat * 256 + (buf.getD (pos / 8 + 1) 0).toNat) /
      2 ^ (16 - pos % 8 - bits) % 2 ^ bits
  else 0

theorem fieldAt_lt (buf : List BYTE) (pos : ℕ) (hbits : bits ≤ 8) :
    fieldAt buf pos bits < 256 := by
  have hle : 2 ^ bits ≤ 2 ^ 8 := Nat.pow_le_pow_right (by omega) hbits
  have hpos : 0 < 2 ^ bits := Nat.two_pow_pos bits
  unfold fieldAt
  split_ifs
  · exact Nat.lt_of_lt_of_le (Nat.mod_lt _ hpos) hle
  · omega

theorem lowMask_toNat (hbits : bits ≤ 8) : (lowMask bits).toNat = 2 ^ bits - 1 := by
  interval_cases bits <;> rfl

theorem field_toNat (word : WORD) (offset : ℕ) (hbits : bits ≤ 8) :
    ((word >>> offset &&& lowMask bits).truncate 8 : BYTE) =
      BitVec.ofNat 8 (word.toNat / 2 ^ offset % 2 ^ bits) := by
  apply BitVec.eq_of_toNat_eq
  rw [truncate_eq_setWidth, toNat_setWidth, toNat_and, lowMask_toNat hbits, toNat_ushiftRight,
    Nat.shiftRight_eq_div_pow, Nat.and_two_pow_sub_one_eq_mod, toNat_ofNat]

/-- **A read stays inside**: it is the field at the position, which moves on if the field was there.
-/
theorem read_eq (hlast : s.uEnd = 8 * s.pbBuf.length) (hpos : 1 ≤ bits) (hbits : bits ≤ 8) :
    s.read bits = some (BitVec.ofNat 8 (fieldAt s.pbBuf s.uPos bits),
      { s with uPos := if s.uPos + bits ≤ 8 * s.pbBuf.length then s.uPos + bits else s.uPos }) := by
  have hand : s.uPos &&& 0x07 = s.uPos % 8 := Nat.and_two_pow_sub_one_eq_mod s.uPos 3
  have hshift : s.uPos >>> 3 = s.uPos / 8 := Nat.shiftRight_eq_div_pow s.uPos 3
  unfold fieldAt
  by_cases hroom : s.uPos + bits ≤ 8 * s.pbBuf.length
  · have hgo : ¬ (8 < bits ∨ s.uEnd < s.uPos + bits) := by omega
    have hindex : s.uPos / 8 < s.pbBuf.length := by omega
    have hcell : s.pbBuf.getD (s.uPos / 8) 0 = s.pbBuf[s.uPos / 8] :=
      getD_eq_getElem _ _ hindex
    have hhigh := (s.pbBuf[s.uPos / 8]).isLt
    have hword : (s.pbBuf[s.uPos / 8].zeroExtend 16 <<< 8 : WORD).toNat =
        s.pbBuf[s.uPos / 8].toNat * 256 := by
      rw [toNat_shiftLeft, zeroExtend_eq_setWidth, toNat_setWidth, Nat.shiftLeft_eq]
      omega
    rw [if_pos hroom, if_pos hroom, hcell]
    by_cases hcross : 16 - s.uPos % 8 - bits < 8
    · -- the field goes on in the next byte
      have hindex₂ : s.uPos / 8 + 1 < s.pbBuf.length := by omega
      have hcell₂ : s.pbBuf.getD (s.uPos / 8 + 1) 0 = s.pbBuf[s.uPos / 8 + 1] :=
        getD_eq_getElem _ _ hindex₂
      have hlow := (s.pbBuf[s.uPos / 8 + 1]).isLt
      have hboth : (s.pbBuf[s.uPos / 8].zeroExtend 16 <<< 8 |||
          s.pbBuf[s.uPos / 8 + 1].zeroExtend 16 : WORD).toNat =
            s.pbBuf[s.uPos / 8].toNat * 256 + s.pbBuf[s.uPos / 8 + 1].toNat := by
        rw [toNat_or, hword, zeroExtend_eq_setWidth, toNat_setWidth,
          Nat.mod_eq_of_lt (by omega), show s.pbBuf[s.uPos / 8].toNat * 256 =
            s.pbBuf[s.uPos / 8].toNat <<< 8 from (Nat.shiftLeft_eq _ 8).symm,
          Nat.shiftLeft_add_eq_or_of_lt hlow]
      rw [hcell₂, ← hboth, ← field_toNat _ _ hbits]
      simp only [CBitwiseInputStream.read, if_neg hgo, hshift, hand,
        List.getElem?_eq_getElem hindex, bind_eq_bind, bind_some, if_pos hcross,
        List.getElem?_eq_getElem hindex₂]
    · have hfield : (s.pbBuf[s.uPos / 8].toNat * 256 + (s.pbBuf.getD (s.uPos / 8 + 1) 0).toNat) /
          2 ^ (16 - s.uPos % 8 - bits) =
            s.pbBuf[s.uPos / 8].toNat * 256 / 2 ^ (16 - s.uPos % 8 - bits) := by
        have hlow := (s.pbBuf.getD (s.uPos / 8 + 1) 0).isLt
        have hsplit : 16 - s.uPos % 8 - bits = 8 + (8 - s.uPos % 8 - bits) := by omega
        have hbyte : (s.pbBuf[s.uPos / 8].toNat * 256 +
            (s.pbBuf.getD (s.uPos / 8 + 1) 0).toNat) / 2 ^ 8 =
              s.pbBuf[s.uPos / 8].toNat * 256 / 2 ^ 8 := by omega
        rw [hsplit, pow_add, ← Nat.div_div_eq_div_mul, ← Nat.div_div_eq_div_mul, hbyte]
      rw [hfield, ← hword, ← field_toNat _ _ hbits]
      simp only [CBitwiseInputStream.read, if_neg hgo, hshift, hand,
        List.getElem?_eq_getElem hindex, bind_eq_bind, bind_some, if_neg hcross]
  · have hstop : 8 < bits ∨ s.uEnd < s.uPos + bits := by omega
    rw [if_neg hroom, if_neg hroom]
    simp only [CBitwiseInputStream.read, if_pos hstop]
    rfl

/-- The digits of an address, one read each, into an array. -/
def readDigits (s : CBitwiseInputStream) (bits : ℕ) :
    ℕ → ℕ → List BYTE → Option (List BYTE × CBitwiseInputStream)
  | 0, _, digits => some (digits, s)
  | n + 1, i, digits => do
      let (digit, s) ← s.read bits
      let digits ← Block.put digits i digit
      s.readDigits bits n (i + 1) digits

/-- **Digits stay inside** their array as long as there are no more than it has, and leave its size.
-/
theorem readDigits_isSome_iff (hlast : s.uEnd = 8 * s.pbBuf.length) (hpos : 1 ≤ bits)
    (hbits : bits ≤ 8) (n i : ℕ) {digits : List BYTE} (hi : i ≤ digits.length) :
    (s.readDigits bits n i digits).isSome ↔ i + n ≤ digits.length := by
  induction n generalizing s i digits with
  | zero => exact iff_of_true rfl hi
  | succ n ih =>
    rw [readDigits, read_eq hlast hpos hbits, bind_eq_bind, bind_some]
    dsimp only
    by_cases hlt : i < digits.length
    · obtain ⟨digits', hput, hlen⟩ := Block.put_of_lt
        (BitVec.ofNat 8 (fieldAt s.pbBuf s.uPos bits)) hlt
      rw [hput, bind_eq_bind, bind_some]
      refine Iff.trans (ih ?_ (i + 1) ?_) ?_
      · exact hlast
      · omega
      · rw [hlen]
        omega
    · rw [Block.put_eq_none (by omega)]
      refine iff_of_false (by simp) (by omega)

theorem readDigits_length {s' : CBitwiseInputStream} {n i : ℕ} {digits digits' : List BYTE}
    (h : s.readDigits bits n i digits = some (digits', s')) : digits'.length = digits.length := by
  induction n generalizing s i digits with
  | zero =>
    obtain ⟨rfl, -⟩ := Prod.mk.inj (some.inj h)
    rfl
  | succ n ih =>
    obtain ⟨⟨digit, s₁⟩, -, h⟩ := bind_eq_some_iff.mp h
    obtain ⟨digits₁, hput, h⟩ := bind_eq_some_iff.mp h
    exact (ih h).trans (Block.store_length hput)

/-- They are read back one behind the other. -/
theorem Reading.readDigits {ds : List BYTE} (hs : s.Reading (ds.flatMap (field bits) ++ w))
    (hpos : 1 ≤ bits) (hbits : bits ≤ 8) (hdigits : ∀ d ∈ ds, d.toNat < 2 ^ bits) (p r : List BYTE)
    (hroom : ds.length ≤ r.length) :
    ∃ s', s.readDigits bits ds.length p.length (p ++ r) =
        some (p ++ ds ++ r.drop ds.length, s') ∧ s'.Reading w := by
  induction ds generalizing s p r with
  | nil => exact ⟨s, by simp [CBitwiseInputStream.readDigits], by simpa using hs⟩
  | cons d ds ih =>
      rw [flatMap_cons, List.append_assoc] at hs
      rw [length_cons] at hroom
      obtain ⟨s₁, hread, hs₁⟩ := hs.read hpos hbits (hdigits d mem_cons_self)
      have hput := Block.put_behind (p := p) (x := d) (by omega : 0 < r.length)
      obtain ⟨s₂, hrest, hs₂⟩ := ih hs₁ (fun e he => hdigits e (mem_cons_of_mem _ he))
        (p ++ [d]) (r.drop 1) (by rw [length_drop]; omega)
      refine ⟨s₂, ?_, hs₂⟩
      rw [length_append, length_singleton] at hrest
      simp only [CBitwiseInputStream.readDigits, hread, hput, bind_eq_bind,
        bind_some, length_cons, hrest]
      simp only [List.append_assoc, drop_drop, List.cons_append, nil_append, Nat.add_comm]

end CBitwiseInputStream

end ExynosVendor.Ril
