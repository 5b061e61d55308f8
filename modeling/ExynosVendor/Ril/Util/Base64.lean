import ExynosVendor.Ril.Util.Hex
import Mathlib.Tactic.IntervalCases

/-!
# Base64

`Base64_Encode` and `Base64_Decode` of `util/util.cpp`. The encoder's
loop takes a group of three bytes while more than three are left, and
what is left behind it is encoded by its residue modulo three
(`wholeGroups`, `lastGroup`): a last group that is whole has the residue
zero, and nothing encodes it. The decoder takes one character at a time
and gets the length from the padding.

`base64RoundTrips_iff` is what survives. Both functions count in an
`int`, and both fault here where that leaves its range.
-/

namespace ExynosVendor.Ril

open List Option

/-! ## The encoder -/

def base64EncodeTable : List Char :=
  "ABCDEFGHIJKLMNOPQRSTUVWXYZabcdefghijklmnopqrstuvwxyz0123456789+/".toList

/-- The character of six bits. -/
def base64Char (i : BYTE) : Char :=
  base64EncodeTable.getD i.toNat '\x00'

/-- The four characters of a group. -/
def base64Quad (p0 p1 p2 : BYTE) : List Char :=
  [base64Char (p0 >>> 2), base64Char ((p0 &&& 0x03) <<< 4 ||| p1 >>> 4),
    base64Char ((p1 &&& 0x0F) <<< 2 ||| p2 >>> 6), base64Char (p2 &&& 0x3F)]

/-- The main loop of `Base64_Encode`, while `i < nSrcLength - 3`: what is
left of the source, the next index and the text. -/
def base64EncodeLoop : List BYTE → ℕ → List Char → Option (List BYTE × ℕ × List Char)
  | p0 :: p1 :: p2 :: p3 :: rest, nDstIdx, out => do
      let out ← Block.store out nDstIdx (base64Quad p0 p1 p2)
      base64EncodeLoop (p3 :: rest) (nDstIdx + 4) out
  | pSrc, nDstIdx, out => some (pSrc, nDstIdx, out)

/-- The characters of what is left, by the residue of the length. -/
def base64Residue (nSrcLength : ℕ) (pSrc : List BYTE) : Option (List Char) :=
  if nSrcLength % 3 = 1 then do
    let p0 ← pSrc[0]?
    some [base64Char (p0 >>> 2), base64Char ((p0 &&& 0x03) <<< 4)]
  else if nSrcLength % 3 = 2 then do
    let p0 ← pSrc[0]?
    let p1 ← pSrc[1]?
    some [base64Char (p0 >>> 2), base64Char ((p0 &&& 0x03) <<< 4 ||| p1 >>> 4),
      base64Char ((p1 &&& 0x0F) <<< 2)]
  else some []

/-- The padding loop, for so many characters. -/
def base64PadLoop : ℕ → ℕ → List Char → Option (List Char)
  | 0, _, out => some out
  | k + 1, nDstIdx, out => do
      let out ← Block.put out nDstIdx '='
      base64PadLoop k (nDstIdx + 1) out

/-- `Base64_Encode`: the block it returns. -/
def base64Encode (pSource : List BYTE) : Option (List Char) :=
  let nSrcLength := pSource.length
  let nEncodeLength := 4 * (nSrcLength / 3) + (if nSrcLength % 3 ≠ 0 then 4 else 0)
  if nEncodeLength + 1 < 2 ^ 31 then do
    let (pSrc, nDstIdx, out) ←
      base64EncodeLoop pSource 0 (List.replicate (nEncodeLength + 1) '\x00')
    let residue ← base64Residue nSrcLength pSrc
    let out ← Block.store out nDstIdx residue
    let nDstIdx := nDstIdx + residue.length
    let out ← base64PadLoop (nEncodeLength - nDstIdx) nDstIdx out
    Block.put out nEncodeLength '\x00'
  else none

/-! ## The decoder -/

def base64DecodeTable : List INT :=
  List.replicate 0x2B (-1) ++ [62, -1, -1, -1, 63, 52, 53, 54, 55, 56, 57, 58, 59, 60, 61] ++
    List.replicate 7 (-1) ++ [0, 1, 2, 3, 4, 5, 6, 7, 8, 9, 10, 11, 12, 13, 14, 15, 16, 17, 18,
      19, 20, 21, 22, 23, 24, 25] ++
    List.replicate 6 (-1) ++ [26, 27, 28, 29, 30, 31, 32, 33, 34, 35, 36, 37, 38, 39, 40, 41, 42,
      43, 44, 45, 46, 47, 48, 49, 50, 51] ++
    List.replicate 0x85 (-1)

/-- `cCombined`, by the place of the character in its group. -/
def base64Combined (place : ℕ) (nPrevDecode nDecode : INT) : BYTE :=
  if place = 1 then ((nPrevDecode &&& 0x3F) <<< 2 ||| (nDecode &&& 0x30) >>> 4).truncate 8
  else if place = 2 then ((nPrevDecode &&& 0x0F) <<< 4 ||| (nDecode &&& 0x3C) >>> 2).truncate 8
  else ((nPrevDecode &&& 0x03) <<< 6 ||| (nDecode &&& 0x3F)).truncate 8

/-- The loop of `Base64_Decode`. -/
def base64DecodeLoop (nLength : ℤ) :
    List Char → ℕ → ℕ → INT → List BYTE → Option (List BYTE)
  | [], _, _, _, dst => some dst
  | ch :: rest, i, nDstIdx, nPrevDecode, dst => do
      let nDecode ← base64DecodeTable[ch.toNat]?
      if nDecode = -1 then base64DecodeLoop nLength rest (i + 1) nDstIdx nPrevDecode dst
      else if 0 < i % 4 ∧ (nDstIdx : ℤ) < nLength then do
        let dst ← Block.put dst nDstIdx (base64Combined (i % 4) nPrevDecode nDecode)
        base64DecodeLoop nLength rest (i + 1) (nDstIdx + 1) nDecode dst
      else base64DecodeLoop nLength rest (i + 1) nDstIdx nDecode dst

/-- `Base64_Decode`: the block it allocates, and the length. -/
def base64Decode (pBase64 : List Char) : Option (List BYTE × ℤ) :=
  let text := cString pBase64
  let nLength : ℤ := 3 * (text.length / 4 : ℕ) - text.countP (fun ch => ch == '=')
  if nLength + 1 < 0 then none
  else do
    let dst ← base64DecodeLoop nLength text 0 0 0 (List.replicate (nLength + 1).toNat 0)
    -- a length of `-1` is an index before the block
    let dst ← if nLength < 0 then none else Block.put dst nLength.toNat 0
    some (dst, nLength)

/-- **A byte string survives**: its text has four characters for each
group begun, and is decoded to as many bytes and to the same. -/
def Base64RoundTrips (b : List BYTE) : Prop :=
  ∃ text, base64Encode b = some text ∧ (cString text).length = 4 * ((b.length + 2) / 3) ∧
    ∃ dst, base64Decode text = some (dst, (b.length : ℤ)) ∧ dst.take b.length = b

/-! ## Groups -/

/-- The groups the main loop takes. -/
def wholeGroups : List BYTE → List BYTE
  | p0 :: p1 :: p2 :: p3 :: rest => p0 :: p1 :: p2 :: wholeGroups (p3 :: rest)
  | _ => []

/-- What it leaves. -/
def lastGroup : List BYTE → List BYTE
  | _ :: _ :: _ :: p3 :: rest => lastGroup (p3 :: rest)
  | pSrc => pSrc

/-- The text of the groups it takes. -/
def groupText : List BYTE → List Char
  | p0 :: p1 :: p2 :: p3 :: rest => base64Quad p0 p1 p2 ++ groupText (p3 :: rest)
  | _ => []

theorem wholeGroups_append (b : List BYTE) : wholeGroups b ++ lastGroup b = b := by
  induction b using wholeGroups.induct with
  | case1 p0 p1 p2 p3 rest ih => simp only [wholeGroups, lastGroup, cons_append, ih]
  | case2 b hshort => rw [wholeGroups, lastGroup, nil_append] <;> exact hshort

theorem length_groupText (b : List BYTE) :
    3 * (groupText b).length = 4 * (wholeGroups b).length := by
  induction b using wholeGroups.induct with
  | case1 p0 p1 p2 p3 rest ih =>
      simp only [groupText, wholeGroups, base64Quad, length_append, length_cons, length_nil] at ih ⊢
      omega
  | case2 b hshort => rw [groupText, wholeGroups] <;> first | rfl | exact hshort

/-- What the loop leaves is a group at most, and a source is used up only
when it was empty. -/
theorem length_lastGroup (b : List BYTE) :
    (wholeGroups b).length % 3 = 0 ∧ (lastGroup b).length ≤ 3 ∧
      ((lastGroup b).length = 0 → b.length = 0) := by
  induction b using wholeGroups.induct with
  | case1 p0 p1 p2 p3 rest ih =>
      simp only [wholeGroups, lastGroup, length_cons] at ih ⊢
      omega
  | case2 b hshort =>
      have hle : b.length ≤ 3 := by
        rcases b with _ | ⟨p0, _ | ⟨p1, _ | ⟨p2, _ | ⟨p3, rest⟩⟩⟩⟩
        · exact Nat.zero_le _
        · exact Nat.le_of_ble_eq_true rfl
        · exact Nat.le_of_ble_eq_true rfl
        · exact Nat.le_of_ble_eq_true rfl
        · exact absurd rfl (hshort p0 p1 p2 p3 rest)
      rw [wholeGroups, lastGroup] <;> first | exact ⟨rfl, hle, id⟩ | exact hshort

/-- The main loop writes the text of the groups. -/
theorem base64EncodeLoop_eq (b : List BYTE) (p r : List Char)
    (h : (groupText b).length ≤ r.length) :
    base64EncodeLoop b p.length (p ++ r) =
      some (lastGroup b, p.length + (groupText b).length,
        p ++ groupText b ++ r.drop (groupText b).length) := by
  induction b using wholeGroups.induct generalizing p r with
  | case1 p0 p1 p2 p3 rest ih =>
      have hquad : (base64Quad p0 p1 p2).length = 4 := rfl
      rw [groupText, length_append, hquad] at h
      have hstore : Block.store (p ++ r) p.length (base64Quad p0 p1 p2) =
          some (p ++ base64Quad p0 p1 p2 ++ r.drop (base64Quad p0 p1 p2).length) :=
        Block.store_behind (by rw [hquad]; omega)
      have hloop := ih (p ++ base64Quad p0 p1 p2) (r.drop (base64Quad p0 p1 p2).length)
        (by rw [length_drop, hquad]; omega)
      rw [length_append, hquad] at hloop
      rw [hquad] at hstore
      simp only [base64EncodeLoop, hstore, bind_eq_bind, bind_some, hloop, lastGroup,
        groupText, length_append, hquad]
      simp only [drop_drop, append_assoc, Nat.add_assoc]
  | case2 b hshort =>
      have hnil : groupText b = [] := by rw [groupText]; exact hshort
      have hlast : lastGroup b = b := by rw [lastGroup]; exact hshort
      rw [base64EncodeLoop, hnil, hlast]
      · simp
      · exact hshort

theorem base64PadLoop_eq (k : ℕ) (p r : List Char) (h : k ≤ r.length) :
    base64PadLoop k p.length (p ++ r) = some (p ++ List.replicate k '=' ++ r.drop k) := by
  induction k generalizing p r with
  | zero => simp [base64PadLoop]
  | succ k ih =>
      have hloop := ih (p ++ ['=']) (r.drop 1) (by rw [length_drop]; omega)
      rw [length_append, length_singleton] at hloop
      simp only [base64PadLoop, Block.put_behind (by omega : 0 < r.length), bind_eq_bind,
        bind_some, hloop, replicate_succ, drop_drop]
      simp [Nat.add_comm]

theorem nEncodeLength_eq (n : ℕ) :
    4 * (n / 3) + (if n % 3 ≠ 0 then 4 else 0) = 4 * ((n + 2) / 3) := by
  split <;> omega

variable {b q r : List BYTE} {residue : List Char} {nLength : ℤ} {i : ℕ}

/-- **What `Base64_Encode` returns**: the groups, the residue, the padding
and a terminator. -/
theorem base64Encode_eq (hint : 4 * ((b.length + 2) / 3) + 1 < 2 ^ 31)
    (hres : base64Residue b.length (lastGroup b) = some residue)
    (hfit : (groupText b).length + residue.length ≤ 4 * ((b.length + 2) / 3)) :
    base64Encode b =
      some (groupText b ++ residue ++ List.replicate
        (4 * ((b.length + 2) / 3) - ((groupText b).length + residue.length)) '=' ++ ['\x00']) := by
  have hloop := base64EncodeLoop_eq b [] (List.replicate (4 * ((b.length + 2) / 3) + 1) '\x00')
    (by rw [length_replicate]; omega)
  simp only [nil_append, length_nil, Nat.zero_add, drop_replicate] at hloop
  simp only [base64Encode, nEncodeLength_eq, if_pos hint, hloop, hres, bind_eq_bind, bind_some]
  generalize groupText b = g at hfit
  generalize 4 * ((b.length + 2) / 3) = size at hfit
  have hpad := base64PadLoop_eq (size - (g.length + residue.length)) (g ++ residue)
    (List.replicate (size + 1 - g.length - residue.length) '\x00')
    (by rw [length_replicate]; omega)
  rw [length_append] at hpad
  rw [Block.store_behind (by rw [length_replicate]; omega), bind_some,
    drop_replicate, hpad, bind_some, drop_replicate]
  -- one cell is left, for the terminator
  have hone : size + 1 - g.length - residue.length - (size - (g.length + residue.length)) = 1 := by
    omega
  rw [hone]
  exact Block.put_at (by simp only [length_append, length_replicate]; omega)

/-! ## Characters -/

/-- A character of six bits is one of the table, and is neither padding
nor the terminator. -/
theorem base64Char_digit {x : BYTE} (h6 : x.getLsbD 6 = false) (h7 : x.getLsbD 7 = false) :
    base64DecodeTable[(base64Char x).toNat]? = some (x.setWidth 32) ∧
      (x.setWidth 32 : INT) ≠ -1 ∧ base64Char x ≠ '=' ∧ base64Char x ≠ '\x00' := by
  revert x
  decide +kernel

theorem base64DecodeLoop_first {x : BYTE} (h6 : x.getLsbD 6 = false) (h7 : x.getLsbD 7 = false)
    (t : List Char) (hi : i % 4 = 0) (idx : ℕ) (prev : INT) (dst : List BYTE) :
    base64DecodeLoop nLength (base64Char x :: t) i idx prev dst =
      base64DecodeLoop nLength t (i + 1) idx (x.setWidth 32) dst := by
  obtain ⟨htable, hdigit, -, -⟩ := base64Char_digit h6 h7
  have hplace : ¬ (0 < i % 4 ∧ (idx : ℤ) < nLength) := by omega
  simp only [base64DecodeLoop, htable, bind_eq_bind, bind_some, if_neg hdigit, if_neg hplace]

theorem base64DecodeLoop_next {x : BYTE} (h6 : x.getLsbD 6 = false) (h7 : x.getLsbD 7 = false)
    (t : List Char) (hi : 0 < i % 4) (hq : (q.length : ℤ) < nLength) (prev : INT)
    (hr : 0 < r.length) :
    base64DecodeLoop nLength (base64Char x :: t) i q.length prev (q ++ r) =
      base64DecodeLoop nLength t (i + 1) (q.length + 1) (x.setWidth 32)
        (q ++ [base64Combined (i % 4) prev (x.setWidth 32)] ++ r.drop 1) := by
  obtain ⟨htable, hdigit, -, -⟩ := base64Char_digit h6 h7
  simp only [base64DecodeLoop, htable, bind_eq_bind, bind_some, if_neg hdigit,
    if_pos (And.intro hi hq), Block.put_behind hr]

theorem base64DecodeLoop_pad (nLength : ℤ) (k i idx : ℕ) (prev : INT) (dst : List BYTE) :
    base64DecodeLoop nLength (List.replicate k '=') i idx prev dst = some dst := by
  have htable : base64DecodeTable['='.toNat]? = some (-1) := by decide
  induction k generalizing i with
  | zero => rfl
  | succ k ih =>
      simp only [replicate_succ, base64DecodeLoop, htable, bind_eq_bind, bind_some, if_true, ih]

theorem base64Combined_one (p0 p1 : BYTE) :
    base64Combined 1 ((p0 >>> 2).setWidth 32)
      (((p0 &&& 0x03) <<< 4 ||| p1 >>> 4).setWidth 32) = p0 := by
  ext i hi
  interval_cases i <;> simp [base64Combined]

theorem base64Combined_two (p0 p1 p2 : BYTE) :
    base64Combined 2 (((p0 &&& 0x03) <<< 4 ||| p1 >>> 4).setWidth 32)
      (((p1 &&& 0x0F) <<< 2 ||| p2 >>> 6).setWidth 32) = p1 := by
  ext i hi
  interval_cases i <;> simp [base64Combined]

theorem base64Combined_three (p1 p2 : BYTE) :
    base64Combined 3 (((p1 &&& 0x0F) <<< 2 ||| p2 >>> 6).setWidth 32)
      ((p2 &&& 0x3F).setWidth 32) = p2 := by
  ext i hi
  interval_cases i <;> simp [base64Combined]

/-- Two characters give the first byte of a group. -/
theorem base64DecodeLoop_two (p0 p1 : BYTE) (t : List Char) (hi : i % 4 = 0)
    (hq : (q.length : ℤ) < nLength) (prev : INT) (hr : 0 < r.length) :
    base64DecodeLoop nLength
        (base64Char (p0 >>> 2) :: base64Char ((p0 &&& 0x03) <<< 4 ||| p1 >>> 4) :: t) i q.length
        prev (q ++ r) =
      base64DecodeLoop nLength t (i + 2) (q.length + 1)
        (((p0 &&& 0x03) <<< 4 ||| p1 >>> 4).setWidth 32) (q ++ [p0] ++ r.drop 1) := by
  rw [base64DecodeLoop_first (by simp) (by simp) _ hi,
    base64DecodeLoop_next (by simp) (by simp) _ (by omega) hq _ hr,
    show (i + 1) % 4 = 1 by omega, base64Combined_one]

/-- And a third one the second. -/
theorem base64DecodeLoop_three (p0 p1 p2 : BYTE) (t : List Char) (hi : i % 4 = 0)
    (hq : (q.length : ℤ) + 1 < nLength) (prev : INT) (hr : 1 < r.length) :
    base64DecodeLoop nLength
        (base64Char (p0 >>> 2) :: base64Char ((p0 &&& 0x03) <<< 4 ||| p1 >>> 4) ::
          base64Char ((p1 &&& 0x0F) <<< 2 ||| p2 >>> 6) :: t) i q.length prev (q ++ r) =
      base64DecodeLoop nLength t (i + 3) (q.length + 2)
        (((p1 &&& 0x0F) <<< 2 ||| p2 >>> 6).setWidth 32) (q ++ [p0, p1] ++ r.drop 2) := by
  have hlen : q.length + 1 = (q ++ [p0]).length := by simp
  rw [base64DecodeLoop_two p0 p1 _ hi (by omega) prev (by omega), hlen,
    base64DecodeLoop_next (by simp) (by simp) _ (by omega) (by simpa using hq) _
      (by rw [length_drop]; omega),
    show (i + 2) % 4 = 2 by omega, base64Combined_two]
  simp

/-- A whole group gives its three bytes. -/
theorem base64DecodeLoop_quad (p0 p1 p2 : BYTE) (t : List Char) (hi : i % 4 = 0)
    (hq : (q.length : ℤ) + 2 < nLength) (prev : INT) (hr : 2 < r.length) :
    base64DecodeLoop nLength (base64Quad p0 p1 p2 ++ t) i q.length prev (q ++ r) =
      base64DecodeLoop nLength t (i + 4) (q.length + 3) ((p2 &&& 0x3F).setWidth 32)
        (q ++ [p0, p1, p2] ++ r.drop 3) := by
  have hlen : q.length + 2 = (q ++ [p0, p1]).length := by simp
  have hthree := base64DecodeLoop_three p0 p1 p2 (base64Char (p2 &&& 0x3F) :: t) hi
    (by omega : (q.length : ℤ) + 1 < nLength) prev (by omega : 1 < r.length)
  rw [base64Quad, cons_append, cons_append, cons_append, cons_append,
    nil_append, hthree, hlen,
    base64DecodeLoop_next (by simp) (by simp) _ (by omega) (by simpa using hq) _
      (by rw [length_drop]; omega),
    show (i + 3) % 4 = 3 by omega, base64Combined_three]
  simp

/-- So the text of the groups gives the groups. -/
theorem base64DecodeLoop_groupText (nLength : ℤ) (b : List BYTE) (t : List Char) (hi : i % 4 = 0)
    (hq : (q.length : ℤ) + (wholeGroups b).length ≤ nLength)
    (hr : (wholeGroups b).length ≤ r.length) (prev : INT) :
    ∃ prev', base64DecodeLoop nLength (groupText b ++ t) i q.length prev (q ++ r) =
      base64DecodeLoop nLength t (i + (groupText b).length) (q ++ wholeGroups b).length prev'
        (q ++ wholeGroups b ++ r.drop (wholeGroups b).length) := by
  induction b using wholeGroups.induct generalizing i q r prev with
  | case1 p0 p1 p2 p3 rest ih =>
      rw [wholeGroups, length_cons, length_cons, length_cons] at hq hr
      have hlen : q.length + 3 = (q ++ [p0, p1, p2]).length := by simp
      obtain ⟨prev', hrest⟩ := ih (i := i + 4) (by omega) (q := q ++ [p0, p1, p2])
        (r := r.drop 3) (by rw [← hlen]; push_cast at hq ⊢; omega)
        (by rw [length_drop]; omega) ((p2 &&& 0x3F).setWidth 32)
      refine ⟨prev', ?_⟩
      rw [groupText, append_assoc,
        base64DecodeLoop_quad p0 p1 p2 _ hi (by push_cast at hq; omega) prev (by omega), hlen,
        hrest, wholeGroups]
      have hquad : (base64Quad p0 p1 p2).length = 4 := rfl
      simp only [length_append, hquad, append_assoc, cons_append, nil_append,
        length_cons, drop_drop, Nat.add_assoc, Nat.add_comm 3]
  | case2 b hshort =>
      refine ⟨prev, ?_⟩
      have hnil : groupText b = [] := by rw [groupText]; exact hshort
      have hnil' : wholeGroups b = [] := by rw [wholeGroups]; exact hshort
      rw [hnil, hnil']
      simp

/-! ## The round trip -/

/-- The characters of groups and residues are neither padding nor the
terminator. -/
def Plain (text : List Char) : Prop :=
  ∀ ch ∈ text, ch ≠ '=' ∧ ch ≠ '\x00'

theorem plain_groupText (b : List BYTE) : Plain (groupText b) := by
  induction b using wholeGroups.induct with
  | case1 p0 p1 p2 p3 rest ih =>
      intro ch hch
      rw [groupText, mem_append] at hch
      rcases hch with hch | hch
      · simp only [base64Quad, mem_cons, not_mem_nil, or_false] at hch
        rcases hch with rfl | rfl | rfl | rfl <;>
          exact (base64Char_digit (by simp) (by simp)).2.2
      · exact ih ch hch
  | case2 b hshort =>
      have hnil : groupText b = [] := by rw [groupText]; exact hshort
      rw [hnil]
      exact fun ch hch => absurd hch not_mem_nil

/-- What is left for the residue. -/
theorem base64Residue_eq (b : List BYTE) :
    ∃ residue, base64Residue b.length (lastGroup b) = some residue ∧ Plain residue ∧
      residue.length = (if b.length % 3 = 0 then 0 else b.length % 3 + 1) := by
  have hlen := congrArg List.length (wholeGroups_append b)
  rw [length_append] at hlen
  obtain ⟨hwhole, hle, -⟩ := length_lastGroup b
  rw [base64Residue]
  split_ifs with h1 h0 h2 h0
  · omega
  · obtain ⟨p0, hlast⟩ := length_eq_one_iff.mp (by omega : (lastGroup b).length = 1)
    refine ⟨_, by rw [hlast]; rfl, ?_, by simp [h1]⟩
    intro ch hch
    simp only [mem_cons, not_mem_nil, or_false] at hch
    rcases hch with rfl | rfl <;> exact (base64Char_digit (by simp) (by simp)).2.2
  · omega
  · obtain ⟨p0, p1, hlast⟩ := length_eq_two.mp (by omega : (lastGroup b).length = 2)
    refine ⟨_, by rw [hlast]; rfl, ?_, by simp [h2]⟩
    intro ch hch
    simp only [mem_cons, not_mem_nil, or_false] at hch
    rcases hch with rfl | rfl | rfl <;> exact (base64Char_digit (by simp) (by simp)).2.2
  · exact ⟨[], rfl, fun ch hch => absurd hch not_mem_nil, rfl⟩
  · omega

/-- The text up to its terminator, and the padding in it. -/
theorem cString_base64 {front : List Char} (h : Plain front) (k : ℕ) :
    cString (front ++ List.replicate k '=' ++ ['\x00']) = front ++ List.replicate k '=' ∧
      (front ++ List.replicate k '=').countP (fun ch => ch == '=') = k := by
  refine ⟨cString_append ?_ [], ?_⟩
  · intro ch hch
    rcases mem_append.mp hch with hch | hch
    · exact (h ch hch).2
    · rw [eq_of_mem_replicate hch]
      decide
  · have hfront : front.countP (fun ch => ch == '=') = 0 :=
      countP_eq_zero.mpr fun ch hch => by simpa using (h ch hch).1
    rw [countP_append, hfront, countP_replicate]
    simp

/-- The residue gives the last group, if it is not a whole one. -/
theorem base64DecodeLoop_residue (nLength : ℤ)
    (hres : base64Residue b.length (lastGroup b) = some residue)
    (h3 : b.length = 0 ∨ b.length % 3 ≠ 0) (k : ℕ) (hi : i % 4 = 0)
    (hq : (q.length : ℤ) + (lastGroup b).length ≤ nLength) (hr : (lastGroup b).length ≤ r.length)
    (prev : INT) :
    base64DecodeLoop nLength (residue ++ List.replicate k '=') i q.length prev (q ++ r) =
      some (q ++ lastGroup b ++ r.drop (lastGroup b).length) := by
  have hlen := congrArg List.length (wholeGroups_append b)
  rw [length_append] at hlen
  obtain ⟨hwhole, hle, -⟩ := length_lastGroup b
  have hcase : (lastGroup b).length = 0 ∧ b.length % 3 = 0 ∨
      (lastGroup b).length = 1 ∧ b.length % 3 = 1 ∨
        (lastGroup b).length = 2 ∧ b.length % 3 = 2 := by
    omega
  rcases hcase with ⟨hlast, hmod⟩ | ⟨hlast, hmod⟩ | ⟨hlast, hmod⟩
  · rw [base64Residue, if_neg (by omega), if_neg (by omega), some.injEq] at hres
    subst hres
    rw [nil_append, base64DecodeLoop_pad, eq_nil_of_length_eq_zero hlast]
    simp
  · obtain ⟨p0, hp0⟩ := length_eq_one_iff.mp hlast
    rw [hp0] at hq hr hres ⊢
    rw [base64Residue, if_pos hmod] at hres
    obtain rfl := (some.inj hres).symm
    -- the second byte of the group would be zero
    have hzero : (p0 &&& 0x03) <<< 4 = (p0 &&& 0x03) <<< 4 ||| (0 : BYTE) >>> 4 := by simp
    rw [hzero, cons_append, cons_append, nil_append,
      base64DecodeLoop_two p0 0 _ hi (by simp only [length_singleton] at hq; omega) prev hr,
      base64DecodeLoop_pad]
    rfl
  · obtain ⟨p0, p1, hp⟩ := length_eq_two.mp hlast
    rw [hp] at hq hr hres ⊢
    rw [base64Residue, if_neg (by omega), if_pos hmod] at hres
    obtain rfl := (some.inj hres).symm
    have hzero : (p1 &&& 0x0F) <<< 2 = (p1 &&& 0x0F) <<< 2 ||| (0 : BYTE) >>> 6 := by simp
    rw [hzero, cons_append, cons_append, cons_append, nil_append,
      base64DecodeLoop_three p0 p1 0 _ hi
        (by simp only [length_cons, length_nil] at hq; omega) prev hr,
      base64DecodeLoop_pad]
    rfl

/-- **A last group that is not whole is decoded** to the source. -/
theorem base64Decode_eq {k : ℕ} (hplain : Plain residue)
    (hres : base64Residue b.length (lastGroup b) = some residue)
    (h3 : b.length = 0 ∨ b.length % 3 ≠ 0)
    (hsize : (groupText b).length + residue.length + k = 4 * ((b.length + 2) / 3))
    (hk : 3 * ((b.length + 2) / 3) = b.length + k) :
    base64Decode (groupText b ++ residue ++ List.replicate k '=' ++ ['\x00']) =
      some (b ++ [0], (b.length : ℤ)) := by
  have hfront : Plain (groupText b ++ residue) := fun ch hch =>
    (mem_append.mp hch).elim (plain_groupText b ch) (hplain ch)
  obtain ⟨htext, hcount⟩ := cString_base64 hfront k
  have hwhole := congrArg List.length (wholeGroups_append b)
  rw [length_append] at hwhole
  have hlen : (groupText b ++ residue ++ List.replicate k '=').length =
      4 * ((b.length + 2) / 3) := by
    rw [length_append, length_append, length_replicate, hsize]
  have hnLength : 3 * (((groupText b ++ residue ++ List.replicate k '=').length / 4 : ℕ) : ℤ) -
      ((groupText b ++ residue ++ List.replicate k '=').countP (fun ch => ch == '=') : ℕ) =
      (b.length : ℤ) := by
    rw [hlen, hcount]
    omega
  obtain ⟨prev, hgroups⟩ := base64DecodeLoop_groupText b.length b
    (residue ++ List.replicate k '=') (i := 0) rfl (q := []) (r := List.replicate (b.length + 1) 0)
    (by rw [length_nil]; omega) (by rw [length_replicate]; omega) 0
  have hi : (0 + (groupText b).length) % 4 = 0 := by
    have := length_groupText b
    have := (length_lastGroup b).1
    omega
  have hresidue := base64DecodeLoop_residue b.length hres h3 k hi (q := wholeGroups b)
    (r := List.replicate (b.length + 1 - (wholeGroups b).length) 0) (by omega)
    (by rw [length_replicate]; omega) prev
  rw [wholeGroups_append, drop_replicate] at hresidue
  simp only [nil_append, length_nil, drop_replicate] at hgroups
  rw [hresidue, ← append_assoc,
    show b.length + 1 - (wholeGroups b).length - (lastGroup b).length = 1 by omega] at hgroups
  have hneg : ¬ (b.length : ℤ) + 1 < 0 := by omega
  have hneg' : ¬ (b.length : ℤ) < 0 := by omega
  have hroom : ((b.length : ℤ) + 1).toNat = b.length + 1 := by omega
  simp only [base64Decode, htext, hnLength, if_neg hneg, if_neg hneg', hroom, hgroups,
    bind_eq_bind, bind_some, Int.toNat_natCast]
  have hput := Block.put_at (p := b) (r := []) (x := (0 : BYTE)) (y := 0) rfl
  simp only [replicate_one, hput, bind_some]

/-- Whatever is decoded, the length is the one the padding says. -/
theorem base64Decode_length {text : List Char} {dst : List BYTE} {n : ℤ}
    (h : base64Decode text = some (dst, n)) :
    n = 3 * ((cString text).length / 4 : ℕ) - (cString text).countP (fun ch => ch == '=') := by
  simp only [base64Decode] at h
  split at h
  · contradiction
  · obtain ⟨_, -, h⟩ := bind_eq_some_iff.mp h
    split at h
    · contradiction
    · obtain ⟨_, -, h⟩ := bind_eq_some_iff.mp h
      exact (Prod.mk.inj (some.inj h)).2.symm

/-- **Which byte strings survive**: those whose last group is not a whole
one, as long as the text and its terminator are counted by an `int`. -/
theorem base64RoundTrips_iff (b : List BYTE) :
    Base64RoundTrips b ↔ (b.length = 0 ∨ b.length % 3 ≠ 0) ∧
      4 * ((b.length + 2) / 3) + 1 < 2 ^ 31 := by
  obtain ⟨residue, hres, hplain, hlen⟩ := base64Residue_eq b
  obtain ⟨hmod, hle, hempty⟩ := length_lastGroup b
  have hwhole := congrArg List.length (wholeGroups_append b)
  rw [length_append] at hwhole
  have hgroups := length_groupText b
  have hfit : (groupText b).length + residue.length ≤ 4 * ((b.length + 2) / 3) := by
    rw [hlen]
    split_ifs <;> omega
  have hfront : Plain (groupText b ++ residue) := fun ch hch =>
    (mem_append.mp hch).elim (plain_groupText b ch) (hplain ch)
  constructor
  · rintro ⟨text, hencode, -, dst, hdecode, -⟩
    have hint : 4 * ((b.length + 2) / 3) + 1 < 2 ^ 31 := by
      by_contra hlong
      simp only [base64Encode, nEncodeLength_eq, if_neg hlong] at hencode
      contradiction
    refine ⟨?_, hint⟩
    by_contra h3
    push Not at h3
    -- the last group is whole, and its four characters are padding
    rw [base64Encode_eq hint hres hfit, some.injEq] at hencode
    subst hencode
    have hlength := base64Decode_length hdecode
    obtain ⟨htext, hcount⟩ := cString_base64 hfront
      (4 * ((b.length + 2) / 3) - ((groupText b).length + residue.length))
    rw [htext, hcount, length_append, length_append, length_replicate] at hlength
    rw [if_pos h3.2] at hlen
    omega
  · rintro ⟨h3, hint⟩
    have hk : 3 * ((b.length + 2) / 3) = b.length +
        (4 * ((b.length + 2) / 3) - ((groupText b).length + residue.length)) := by
      rw [hlen]
      split_ifs <;> omega
    have hsize : (groupText b).length + residue.length +
        (4 * ((b.length + 2) / 3) - ((groupText b).length + residue.length)) =
        4 * ((b.length + 2) / 3) := by
      omega
    refine ⟨_, base64Encode_eq hint hres hfit, ?_, b ++ [0],
      base64Decode_eq hplain hres h3 hsize hk, take_left⟩
    rw [(cString_base64 hfront _).1, length_append, length_append, length_replicate, hsize]

/-- **Three bytes do not survive**: their text is padding alone, and the
length it says is negative. -/
theorem not_base64RoundTrips_three : ¬ Base64RoundTrips [0x4D, 0x61, 0x6E] := by
  rintro ⟨text, hencode, -, dst, hdecode, -⟩
  have hpadding : base64Encode [0x4D, 0x61, 0x6E] = some ['=', '=', '=', '=', '\x00'] := by decide
  rw [hpadding, some.injEq] at hencode
  subst hencode
  exact absurd (base64Decode_length hdecode) (by decide)

end ExynosVendor.Ril
