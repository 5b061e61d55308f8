import ExynosVendor.Ril.Stk.Tlv

/-!
# CTLV::Set, pointer by pointer

The same `CTLV::Set` as in `Tlv`, with the byte string as memory: a read names its offset and may
miss the string, `new` may be asked for a negative length, and what is returned is an offset.
`safe_iff` says on which bytes nothing goes wrong.

The input comes from the card. Its two-byte and three-byte lengths are copied into signed integers
in memory order, the second into one whose top byte nobody has written, so they are sound only where
the integer happens to be: not negative, and not short enough for a value that is not there.
-/

namespace ExynosVendor.Ril

open List

/-- What stops `CTLV::Set`. -/
inductive SetError where
  /-- A read outside the bytes. -/
  | outside
  /-- `new BYTE[m_nLength]`, which throws. -/
  | badLength (nLength : ℤ)
  deriving DecidableEq

/-- The fields `CTLV::Set` writes, with nothing said of them. -/
structure RawTlv where
  cTag : BYTE
  nLength : ℤ
  pValue : Option (List BYTE)
  deriving DecidableEq

namespace RawTlv

/-- `CTLV::Initialize`. -/
def initialized : RawTlv := ⟨0, 0, none⟩

/-- There is no value. -/
def IsEmpty (t : RawTlv) : Prop := t.nLength = 0 ∧ t.pValue = none

/-- `*(pData + i)`. -/
def readAt (pData : List BYTE) (i : ℕ) : Except SetError BYTE :=
  match pData[i]? with
  | some b => .ok b
  | none => .error .outside

/-- `memcpy` of so many bytes. -/
def copyAt (pData : List BYTE) (i n : ℕ) : Except SetError (List BYTE) :=
  match Block.load pData i n with
  | some bytes => .ok bytes
  | none => .error .outside

/-- The pointer at an offset, unless the bytes end there. -/
def nextAt (pData : List BYTE) (i : ℕ) : Option ℕ := if i < pData.length then some i else none

/-- The length, and the offset of the value; `none` is "Wrong Length". -/
def lengthAt (P : Platform) (pData : List BYTE) : Except SetError (Option (ℤ × ℕ)) := do
  let b ← readAt pData 1
  if 1 < pData.length ∧ b.toNat < 0x80 then return some (b.toNat, 2)
  else if 2 < pData.length ∧ b = 0x81 then do
    let l ← readAt pData 2
    return some (l.toNat, 3)
  else if 3 < pData.length ∧ b = 0x82 then do
    let l0 ← readAt pData 2
    let l1 ← readAt pData 3
    return some (shortOfBytes l0 l1, 4)
  else if 4 < pData.length ∧ b = 0x83 then do
    let l0 ← readAt pData 2
    let l1 ← readAt pData 3
    let l2 ← readAt pData 4
    -- the top byte is what the stack held
    return some (intOfBytes l0 l1 l2 (P.stackByte pData.length), 5)
  else return none

/-- The value at an offset, for a length. -/
def valueAt (cTag : BYTE) (pData : List BYTE) (nLength : ℤ) (pValue : ℕ) :
    Except SetError (RawTlv × Option ℕ) :=
  if pData.length = 2 then .ok (⟨cTag, 0, none⟩, nextAt pData pValue)
  else if nLength ≤ (pData.length : ℤ) - pValue then
    if nLength < 0 then .error (.badLength nLength)
    else do
      let value ← copyAt pData pValue nLength.toNat
      return (⟨cTag, nLength, some value⟩, nextAt pData (pValue + nLength.toNat))
  else .ok (⟨cTag, 0, none⟩, none)

/-- `CTLV::Set(const BYTE *, int)`, with the offset of what it returns. -/
def setAt (P : Platform) (t : RawTlv) (pData : List BYTE) : Except SetError (RawTlv × Option ℕ) :=
  if pData.length = 0 then .ok (t, none)
  else if pData.length = 1 then .ok (initialized, nextAt pData 1)
  else do
    let cTag ← readAt pData 0
    if pData.length = 3 ∧ cTag = 0x7F then return (initialized, nextAt pData 3)
    else do
      match ← lengthAt P pData with
      | none => return (initialized, none)
      | some (nLength, pValue) => valueAt cTag pData nLength pValue

end RawTlv

/-- The fields of an object. -/
def CTLV.raw (t : CTLV) : RawTlv := ⟨t.cTag, t.nLength, t.pValue⟩

namespace RawTlv

/-! ## The length field -/

/-- **The length is read inside the bytes**, behind a tag: as `setLength` has it, with the offset
that what is left begins at. -/
theorem lengthAt_eq (P : Platform) (cTag b : BYTE) (r : List BYTE) :
    lengthAt P (cTag :: b :: r) = .ok ((CTLV.setLength P (r.length + 2) (b :: r)).map
      fun cut => (cut.1, r.length + 2 - cut.2.length)) := by
  have h1 : 1 < r.length + 1 + 1 := by omega
  unfold lengthAt
  simp only [readAt, getElem?_cons_succ, getElem?_cons_zero, length_cons, h1,
    true_and, CTLV.setLength, bind, Except.bind, pure, Except.pure]
  by_cases h80 : b.toNat < 0x80
  · rw [if_pos h80, if_pos h80, Option.map_some]
    simp
  · rw [if_neg h80, if_neg h80]
    by_cases h81 : b = 0x81
    · subst h81
      cases r with
      | nil => rfl
      | cons l r =>
        simp
        omega
    · rw [if_neg (mt And.right h81), if_neg h81]
      by_cases h82 : b = 0x82
      · subst h82
        rcases r with _ | ⟨l0, _ | ⟨l1, r⟩⟩
        · rfl
        · rfl
        · simp
          omega
      · rw [if_neg (mt And.right h82), if_neg h82]
        by_cases h83 : b = 0x83
        · subst h83
          rcases r with _ | ⟨l0, _ | ⟨l1, _ | ⟨l2, r⟩⟩⟩
          · rfl
          · rfl
          · rfl
          · simp
            omega
        · rw [if_neg (mt And.right h83), if_neg h83]
          rfl

variable {P : Platform} {nLen : ℤ} {pData : List BYTE} {cTag : BYTE}

/-- What follows the length field is at the end of the bytes. -/
theorem setLength_suffix {k : ℕ} {bs rest : List BYTE}
    (h : CTLV.setLength P k bs = some (nLen, rest)) : ∃ field, bs = field ++ rest ∧ field ≠ [] := by
  cases bs with
  | nil => cases h
  | cons b r =>
    simp only [CTLV.setLength] at h
    split_ifs at h
    · obtain ⟨-, rfl⟩ := Prod.mk.inj (Option.some.inj h)
      exact ⟨[b], rfl, cons_ne_nil _ _⟩
    · cases r with
      | nil => cases h
      | cons l r =>
        obtain ⟨-, rfl⟩ := Prod.mk.inj (Option.some.inj h)
        exact ⟨[b, l], rfl, cons_ne_nil _ _⟩
    · rcases r with _ | ⟨l0, _ | ⟨l1, r⟩⟩
      · cases h
      · cases h
      · obtain ⟨-, rfl⟩ := Prod.mk.inj (Option.some.inj h)
        exact ⟨[b, l0, l1], rfl, cons_ne_nil _ _⟩
    · rcases r with _ | ⟨l0, _ | ⟨l1, _ | ⟨l2, r⟩⟩⟩
      · cases h
      · cases h
      · cases h
      · obtain ⟨-, rfl⟩ := Prod.mk.inj (Option.some.inj h)
        exact ⟨[b, l0, l1, l2], rfl, cons_ne_nil _ _⟩

/-! ## The call -/

/-- A tag that announces the three-byte format. -/
def ThreeByte (pData : List BYTE) : Prop := pData.length = 3 ∧ pData.head? = some 0x7F

instance (pData : List BYTE) : Decidable (ThreeByte pData) :=
  inferInstanceAs (Decidable (_ ∧ _))

theorem setAt_nil (P : Platform) (t : RawTlv) : setAt P t [] = .ok (t, none) := rfl

theorem setAt_single (P : Platform) (t : RawTlv) (cTag : BYTE) :
    setAt P t [cTag] = .ok (initialized, none) := rfl

theorem setAt_three (h : ThreeByte pData) (P : Platform) (t : RawTlv) :
    setAt P t pData = .ok (initialized, none) := by
  obtain ⟨hlen, htag⟩ := h
  match pData, hlen, htag with
  | [_, _, _], _, rfl => rfl

/-- Behind a tag it goes by the length field. -/
theorem setAt_cons (P : Platform) (t : RawTlv) {b : BYTE} {r : List BYTE}
    (h : ¬ ThreeByte (cTag :: b :: r)) : setAt P t (cTag :: b :: r) =
      match CTLV.setLength P (r.length + 2) (b :: r) with
      | none => .ok (initialized, none)
      | some (nLen, rest) =>
          valueAt cTag (cTag :: b :: r) nLen (r.length + 2 - rest.length) := by
  have h0 : ¬ (cTag :: b :: r).length = 0 := by simp
  have h1 : ¬ (cTag :: b :: r).length = 1 := by simp
  have h3 : ¬ ((cTag :: b :: r).length = 3 ∧ cTag = 0x7F) := fun h3 =>
    h ⟨h3.1, by rw [head?_cons, h3.2]⟩
  unfold setAt
  rw [if_neg h0, if_neg h1]
  simp only [readAt, getElem?_cons_zero, bind, Except.bind, if_neg h3, lengthAt_eq]
  cases CTLV.setLength P (r.length + 2) (b :: r) with
  | none => rfl
  | some cut => rfl

/-- **The value is read inside the bytes**, if its length is not negative. -/
theorem valueAt_eq {field rest : List BYTE} (hdata : pData = field ++ rest)
    (hne : pData.length ≠ 2) :
    valueAt cTag pData nLen (pData.length - rest.length) =
      if nLen ≤ rest.length then
        if nLen < 0 then .error (.badLength nLen)
        else .ok (⟨cTag, nLen, some (rest.take nLen.toNat)⟩,
          nextAt pData (field.length + nLen.toNat))
      else .ok (⟨cTag, 0, none⟩, none) := by
  have hoffset : pData.length - rest.length = field.length := by
    rw [hdata, length_append]
    omega
  have hleft : (pData.length : ℤ) - field.length = rest.length := by
    rw [hdata, length_append]
    omega
  unfold valueAt
  rw [if_neg hne, hoffset, hleft]
  by_cases hle : nLen ≤ rest.length
  · rw [if_pos hle, if_pos hle]
    by_cases hneg : nLen < 0
    · rw [if_pos hneg, if_pos hneg]
    · have hinside : field.length + nLen.toNat ≤ pData.length := by
        rw [hdata, length_append]
        omega
      have hcopy : copyAt pData field.length nLen.toNat = .ok (rest.take nLen.toNat) := by
        unfold copyAt
        rw [Block.load_of_le hinside, hdata, drop_left]
      rw [if_neg hneg, if_neg hneg, hcopy]
      rfl
  · rw [if_neg hle, if_neg hle]

theorem valueAt_two (cTag b : BYTE) (nLen : ℤ) :
    valueAt cTag [cTag, b] nLen 2 = .ok (⟨cTag, 0, none⟩, none) := rfl

/-! ## Safety -/

/-- **The length the coding rules announce**, in the bytes behind a tag, and what follows it: two
and three bytes are a number, high byte first. -/
def announced : List BYTE → Option (ℕ × List BYTE)
  | [] => none
  | b :: r =>
      if b.toNat < 0x80 then some (b.toNat, r)
      else if b = 0x81 then
        match r with
        | l :: r => some (l.toNat, r)
        | [] => none
      else if b = 0x82 then
        match r with
        | l0 :: l1 :: r => some (l0.toNat * 256 + l1.toNat, r)
        | _ => none
      else if b = 0x83 then
        match r with
        | l0 :: l1 :: l2 :: r => some (l0.toNat * 65536 + l1.toNat * 256 + l2.toNat, r)
        | _ => none
      else none

/-- **An object that is not whole**: it announces no length, or one that is not there. -/
def Malformed (pData : List BYTE) : Prop :=
  pData ≠ [] ∧ ∀ cut ∈ announced pData.tail, cut.2.length < cut.1

/-- **What `CTLV::Set` may leave** of the bytes: a length that is not negative, a value that counts
as many bytes and is a copy of bytes of the string, a pointer to a byte behind the first, and
nothing of an object that is not whole. -/
structure Sound (pData : List BYTE) (t : RawTlv) (next : Option ℕ) : Prop where
  length : 0 ≤ t.nLength
  value : ∀ block ∈ t.pValue,
    (block.length : ℤ) = t.nLength ∧ ∃ i, copyAt pData i block.length = .ok block
  pointer : ∀ i ∈ next, 0 < i ∧ i < pData.length
  malformed : Malformed pData → t.IsEmpty ∧ next = none

/-- **`CTLV::Set` is safe** on the bytes: it reads inside them, allocates no negative length, and
leaves what it may. Without any bytes it leaves the object as it is. -/
def Safe (P : Platform) (t : RawTlv) (pData : List BYTE) : Prop :=
  ∃ t' next, setAt P t pData = .ok (t', next) ∧
    if pData = [] then t' = t ∧ next = none else Sound pData t' next

/-- **The lengths that are sound**: a two-byte length in memory order has no sign, nor has a
three-byte length with what the stack held on top, and neither makes a value that is not there look
as if it were. -/
def SoundLength (P : Platform) : List BYTE → Prop
  | _ :: b :: l0 :: l1 :: rest =>
      (b = 0x82 → l1.toNat < 0x80 ∧
        (rest.length < l0.toNat * 256 + l1.toNat → rest.length < l1.toNat * 256 + l0.toNat)) ∧
      (b = 0x83 → ∀ l2 rest', rest = l2 :: rest' →
        (P.stackByte (rest.length + 4)).toNat < 0x80 ∧
          (rest'.length < l0.toNat * 65536 + l1.toNat * 256 + l2.toNat →
            rest'.length < (P.stackByte (rest.length + 4)).toNat * 16777216 +
              l2.toNat * 65536 + l1.toNat * 256 + l0.toNat))
  | _ => True

/-- The sign of a two-byte length, and its value without one. -/
theorem shortOfBytes_eq (l0 l1 : BYTE) : shortOfBytes l0 l1 =
    if l1.toNat < 0x80 then (l1.toNat * 256 + l0.toNat : ℤ)
    else (l1.toNat * 256 + l0.toNat : ℤ) - 65536 := by
  have h0 := l0.isLt
  have h1 := l1.isLt
  have htoNat : (l1 ++ l0 : BitVec 16).toNat = l1.toNat * 256 + l0.toNat := by
    rw [BitVec.toNat_append, ← Nat.shiftLeft_add_eq_or_of_lt h0, Nat.shiftLeft_eq]
  unfold shortOfBytes
  rw [BitVec.toInt_eq_toNat_cond, htoNat]
  split_ifs <;> omega

/-- And of a three-byte length with a byte on top. -/
theorem intOfBytes_eq (l0 l1 l2 l3 : BYTE) : intOfBytes l0 l1 l2 l3 =
    if l3.toNat < 0x80 then
      (l3.toNat * 16777216 + l2.toNat * 65536 + l1.toNat * 256 + l0.toNat : ℤ)
    else (l3.toNat * 16777216 + l2.toNat * 65536 + l1.toNat * 256 + l0.toNat : ℤ) - 4294967296 := by
  have h0 := l0.isLt
  have h1 := l1.isLt
  have h2 := l2.isLt
  have h3 := l3.isLt
  have htoNat : (l3 ++ l2 ++ l1 ++ l0 : BitVec 32).toNat =
      l3.toNat * 16777216 + l2.toNat * 65536 + l1.toNat * 256 + l0.toNat := by
    rw [BitVec.toNat_append, ← Nat.shiftLeft_add_eq_or_of_lt h0, BitVec.toNat_append,
      ← Nat.shiftLeft_add_eq_or_of_lt h1, BitVec.toNat_append, ← Nat.shiftLeft_add_eq_or_of_lt h2]
    simp only [Nat.shiftLeft_eq]
    omega
  unfold intOfBytes
  rw [BitVec.toInt_eq_toNat_cond, htoNat]
  split_ifs <;> omega

theorem soundLength_of_wrong {k : ℕ} {b : BYTE} {r : List BYTE}
    (h : CTLV.setLength P k (b :: r) = none) : SoundLength P (cTag :: b :: r) := by
  rcases r with _ | ⟨l0, _ | ⟨l1, r⟩⟩
  · trivial
  · trivial
  · refine ⟨fun h82 => ?_, fun h83 l2 r' heq => ?_⟩
    · subst h82
      cases h
    · subst h83 heq
      cases h

/-- **The length that is read**, against the one that is announced in front of the same bytes. -/
theorem soundLength_iff {b : BYTE} {r rest : List BYTE}
    (h : CTLV.setLength P (r.length + 2) (b :: r) = some (nLen, rest)) :
    ∃ n, announced (b :: r) = some (n, rest) ∧ (SoundLength P (cTag :: b :: r) ↔
      0 ≤ nLen ∧ (rest.length < n → (rest.length : ℤ) < nLen)) := by
  simp only [CTLV.setLength] at h
  simp only [announced]
  split_ifs at h ⊢ with h80 h81 h82 h83
  · obtain ⟨rfl, rfl⟩ := Prod.mk.inj (Option.some.inj h)
    refine ⟨b.toNat, rfl, iff_of_true ?_ ⟨by omega, by omega⟩⟩
    rcases r with _ | ⟨l0, _ | ⟨l1, r⟩⟩
    · trivial
    · trivial
    · exact ⟨fun h82 => absurd h80 (h82 ▸ by decide), fun h83 => absurd h80 (h83 ▸ by decide)⟩
  · cases r with
    | nil => cases h
    | cons l r =>
      obtain ⟨rfl, rfl⟩ := Prod.mk.inj (Option.some.inj h)
      refine ⟨l.toNat, rfl, iff_of_true ?_ ⟨by omega, by omega⟩⟩
      subst h81
      cases r with
      | nil => trivial
      | cons l1 r => exact ⟨fun h82 => absurd h82 (by decide), fun h83 => absurd h83 (by decide)⟩
  · rcases r with _ | ⟨l0, _ | ⟨l1, r⟩⟩
    · cases h
    · cases h
    · obtain ⟨rfl, rfl⟩ := Prod.mk.inj (Option.some.inj h)
      refine ⟨l0.toNat * 256 + l1.toNat, rfl, ?_⟩
      have h0 := l0.isLt
      have h1 := l1.isLt
      have hsound : SoundLength P (cTag :: b :: l0 :: l1 :: r) ↔ l1.toNat < 0x80 ∧
          (r.length < l0.toNat * 256 + l1.toNat → r.length < l1.toNat * 256 + l0.toNat) :=
        ⟨fun hs => hs.1 h82, fun hs => ⟨fun _ => hs, fun h83 => absurd (h82.symm.trans h83)
          (by decide)⟩⟩
      rw [hsound, shortOfBytes_eq]
      split_ifs <;> omega
  · rcases r with _ | ⟨l0, _ | ⟨l1, _ | ⟨l2, r⟩⟩⟩
    · cases h
    · cases h
    · cases h
    · obtain ⟨rfl, rfl⟩ := Prod.mk.inj (Option.some.inj h)
      refine ⟨l0.toNat * 65536 + l1.toNat * 256 + l2.toNat, rfl, ?_⟩
      have h0 := l0.isLt
      have h1 := l1.isLt
      have h2 := l2.isLt
      have htop : P.stackByte ((l2 :: r).length + 4) =
          P.stackByte ((l0 :: l1 :: l2 :: r).length + 2) := rfl
      have hsound : SoundLength P (cTag :: b :: l0 :: l1 :: l2 :: r) ↔
          (P.stackByte ((l0 :: l1 :: l2 :: r).length + 2)).toNat < 0x80 ∧
            (r.length < l0.toNat * 65536 + l1.toNat * 256 + l2.toNat →
              r.length < (P.stackByte ((l0 :: l1 :: l2 :: r).length + 2)).toNat * 16777216 +
                l2.toNat * 65536 + l1.toNat * 256 + l0.toNat) := by
        constructor
        · intro hs
          exact htop ▸ hs.2 h83 l2 r rfl
        · refine fun hs => ⟨fun h82' => absurd h82' h82, fun _ l2' r' heq => ?_⟩
          obtain ⟨rfl, rfl⟩ := List.cons.inj heq
          exact htop ▸ hs
      rw [hsound, intOfBytes_eq]
      have htopLt := (P.stackByte ((l0 :: l1 :: l2 :: r).length + 2)).isLt
      generalize (P.stackByte ((l0 :: l1 :: l2 :: r).length + 2)).toNat = top at htopLt ⊢
      split_ifs <;> omega

/-- Nothing that is left empty goes wrong. -/
theorem sound_of_empty {t : RawTlv} (h : t.IsEmpty) : Sound pData t none where
  length := h.1.symm ▸ Int.le_refl 0
  value := fun block hblock => by
    rw [h.2] at hblock
    cases hblock
  pointer := nofun
  malformed := fun _ => ⟨h, rfl⟩

/-- Nor does a value that is there. -/
theorem sound_of_value {field rest : List BYTE} (hdata : pData = field ++ rest) (hne : field ≠ [])
    (hle : nLen ≤ rest.length) (hneg : 0 ≤ nLen) (hwhole : ¬ Malformed pData) :
    Sound pData ⟨cTag, nLen, some (rest.take nLen.toNat)⟩
      (nextAt pData (field.length + nLen.toNat)) where
  length := hneg
  value := by
    rintro block ⟨⟩
    have hlen : (rest.take nLen.toNat).length = nLen.toNat := by
      rw [length_take]
      omega
    refine ⟨?_, field.length, ?_⟩
    · rw [hlen]
      exact Int.toNat_of_nonneg hneg
    · have hinside : field.length + nLen.toNat ≤ pData.length := by
        rw [hdata, length_append]
        omega
      unfold copyAt
      rw [hlen, Block.load_of_le hinside, hdata, drop_left]
  pointer := by
    intro i hi
    have hpos := length_pos_iff.mpr hne
    unfold nextAt at hi
    split_ifs at hi with hlt
    · obtain rfl := Option.some.inj hi
      exact ⟨by omega, hlt⟩
    · cases hi
  malformed := fun hm => absurd hm hwhole

/-- **`CTLV::Set` is safe exactly on sound lengths**, whatever the object held. -/
theorem safe_iff (P : Platform) (t : RawTlv) (pData : List BYTE) :
    Safe P t pData ↔ SoundLength P pData := by
  have hsafe {bs : List BYTE} (hne : bs ≠ []) {t' : RawTlv} {nx : Option ℕ}
      (hset : setAt P t bs = .ok (t', nx)) : Safe P t bs ↔ Sound bs t' nx := by
    unfold Safe
    rw [hset]
    simp only [if_neg hne, Except.ok.injEq, Prod.mk.injEq]
    exact ⟨fun ⟨_, _, ⟨h1, h2⟩, h⟩ => h1 ▸ h2 ▸ h, fun h => ⟨_, _, ⟨rfl, rfl⟩, h⟩⟩
  have hempty {bs : List BYTE} (hne : bs ≠ []) {t' : RawTlv} (he : t'.IsEmpty)
      (hset : setAt P t bs = .ok (t', none)) : Safe P t bs :=
    (hsafe hne hset).mpr (sound_of_empty he)
  match pData with
  | [] => exact iff_of_true ⟨t, none, setAt_nil P t, rfl, rfl⟩ trivial
  | [cTag] =>
    exact iff_of_true (hempty (cons_ne_nil _ _) ⟨rfl, rfl⟩ (setAt_single P t cTag)) trivial
  | cTag :: b :: r =>
    have hne : cTag :: b :: r ≠ [] := cons_ne_nil _ _
    by_cases hthree : ThreeByte (cTag :: b :: r)
    · have hr : r.length = 1 := by simpa [ThreeByte] using hthree.1
      obtain ⟨l, rfl⟩ := length_eq_one_iff.mp hr
      exact iff_of_true (hempty hne ⟨rfl, rfl⟩ (setAt_three hthree P t)) trivial
    · have hset := setAt_cons P t hthree
      cases hlen : CTLV.setLength P (r.length + 2) (b :: r) with
      | none =>
        rw [hlen] at hset
        exact iff_of_true (hempty hne ⟨rfl, rfl⟩ hset) (soundLength_of_wrong hlen)
      | some cut =>
        obtain ⟨nLen, rest⟩ := cut
        rw [hlen] at hset
        dsimp only at hset
        obtain ⟨n, hann, hiff⟩ := @soundLength_iff P nLen cTag b r rest hlen
        obtain ⟨field, hfield, hfieldNe⟩ := setLength_suffix hlen
        by_cases htwo : r = []
        · -- a tag and a length alone
          subst htwo
          obtain rfl : rest = [] := by
            have hsize := congrArg List.length hfield
            have hpos := length_pos_iff.mpr hfieldNe
            rw [length_append, length_singleton] at hsize
            exact length_eq_zero_iff.mp (by omega)
          exact iff_of_true (hempty hne ⟨rfl, rfl⟩ (hset.trans (valueAt_two cTag b nLen))) trivial
        · rw [hiff]
          have hdata : cTag :: b :: r = (cTag :: field) ++ rest := by
            rw [cons_append, ← hfield]
          have hlen2 : (cTag :: b :: r).length ≠ 2 := by
            have := length_pos_iff.mpr htwo
            rw [length_cons, length_cons]
            omega
          have hvalue := @valueAt_eq nLen _ cTag (cTag :: field) rest hdata hlen2
          rw [length_cons, length_cons] at hvalue
          rw [hvalue] at hset
          have hmalformed : Malformed (cTag :: b :: r) ↔ rest.length < n := by
            unfold Malformed
            rw [tail_cons, hann]
            simp
          split_ifs at hset with hle hneg
          · -- `new` throws
            refine iff_of_false ?_ (by omega)
            rintro ⟨t', nx, hok, -⟩
            rw [hset] at hok
            cases hok
          -- the value is there
          · rw [hsafe hne hset]
            constructor
            · intro hs
              refine ⟨by omega, fun hlt => ?_⟩
              have hvalue := (hs.malformed (hmalformed.mpr hlt)).1.2
              cases hvalue
            · rintro ⟨-, hn⟩
              exact sound_of_value hdata (cons_ne_nil _ _) hle (by omega)
                fun hm => by
                  have := hn (hmalformed.mp hm)
                  omega
          · exact iff_of_true (hempty hne ⟨rfl, rfl⟩ hset) (by omega)

/-- **A two-byte length with a sign**: `new` is asked for a negative size. -/
theorem not_safe_signed :
    ¬ Safe (Platform.strict (fun _ => 0) (fun _ => 0)) initialized [0x0D, 0x82, 0x00, 0x80] := by
  rintro ⟨t', next, hset, -⟩
  have hfault : setAt (Platform.strict (fun _ => 0) (fun _ => 0)) initialized
      [0x0D, 0x82, 0x00, 0x80] = .error (.badLength (-32768)) := by rfl
  rw [hfault] at hset
  cases hset

end RawTlv

end ExynosVendor.Ril
