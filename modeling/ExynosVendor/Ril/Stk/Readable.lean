import ExynosVendor.Ril.Stk.Comprehension

/-!
# Which byte strings a Comprehension reads

The specification side of `Comprehension::Set`. A COMPREHENSION-TLV is a
tag, the length in its shortest form and the value; its encodings are a
prefix code, so a byte string begins with one in at most one way. A
string is **parsed completely** when the loop ends without a fault, its
objects begin with the encoded TLVs the string begins with, and are
exactly those when it is nothing but encoded TLVs.

`parsesCompletely_iff` characterises that by the string. A TLV at the
front is `Handled` when the factory makes an object for its tag, the
length read low byte first is its length, and reading and re-encoding
its value stay inside their blocks; a tail that begins with no TLV is
`Harmless` when nothing cut from it faults.
-/

namespace ExynosVendor.Ril

open List Option

/-- A COMPREHENSION-TLV. -/
structure ComprehensionTlv where
  /-- The tag byte, with its comprehension bit. -/
  cTag : BYTE
  /-- The value. -/
  value : List BYTE
  /-- The longest a three-byte length field can announce. -/
  length_lt : value.length < 2 ^ 24

namespace ComprehensionTlv

/-- Tag, length and value. -/
def encode (t : ComprehensionTlv) : List BYTE :=
  t.cTag :: (CTLV.berLength t.value.length ++ t.value)

/-- The tag without its comprehension bit, and the value. -/
def content (t : ComprehensionTlv) : BYTE × List BYTE :=
  (t.cTag &&& CTLV.tlvTagMask, t.value)

/-- The coding rules' reading of a length field. -/
def berDecode : List BYTE → Option (ℕ × List BYTE)
  | [] => none
  | b :: r =>
      if b.toNat < 128 then some (b.toNat, r)
      else if b = 0x81 then
        match r with
        | l :: r => some (l.toNat, r)
        | [] => none
      else if b = 0x82 then
        match r with
        | h :: l :: r => some (h.toNat * 256 + l.toNat, r)
        | _ => none
      else
        match r with
        | h :: m :: l :: r => some (h.toNat * 65536 + m.toNat * 256 + l.toNat, r)
        | _ => none

theorem berDecode_berLength {n : ℕ} (h : n < 2 ^ 24) (r : List BYTE) :
    berDecode (CTLV.berLength n ++ r) = some (n, r) := by
  have hn : (BitVec.ofNat 8 n).toNat = n % 256 := BitVec.toNat_ofNat n 8
  have hm : (BitVec.ofNat 8 (n / 256)).toNat = n / 256 % 256 := BitVec.toNat_ofNat _ 8
  have hh : (BitVec.ofNat 8 (n / 65536)).toNat = n / 65536 % 256 := BitVec.toNat_ofNat _ 8
  unfold CTLV.berLength
  split_ifs with h1 h2 h3
  · simp only [cons_append, nil_append, berDecode, hn]
    rw [Nat.mod_eq_of_lt (by omega), if_pos h1]
  · have h81 : ¬ (0x81 : BYTE).toNat < 128 := by decide
    simp only [cons_append, nil_append, berDecode, hn]
    rw [if_neg h81, if_pos trivial, Nat.mod_eq_of_lt h2]
  · have h82 : ¬ (0x82 : BYTE).toNat < 128 := by decide
    have hne : ¬ (0x82 : BYTE) = 0x81 := by decide
    simp only [cons_append, nil_append, berDecode, hn, hm]
    rw [if_neg h82, if_neg hne, if_pos trivial]
    congr 2
    omega
  · have h83 : ¬ (0x83 : BYTE).toNat < 128 := by decide
    have hne1 : ¬ (0x83 : BYTE) = 0x81 := by decide
    have hne2 : ¬ (0x83 : BYTE) = 0x82 := by decide
    simp only [cons_append, nil_append, berDecode, hn, hm, hh]
    rw [if_neg h83, if_neg hne1, if_neg hne2]
    congr 2
    omega

/-- **The encodings are a prefix code.** -/
theorem encode_append_inj {t u : ComprehensionTlv} {r s : List BYTE}
    (h : t.encode ++ r = u.encode ++ s) : t = u ∧ r = s := by
  simp only [encode, cons_append, append_assoc, List.cons.injEq] at h
  obtain ⟨htag, hbody⟩ := h
  have hdecode := congrArg berDecode hbody
  rw [berDecode_berLength t.length_lt, berDecode_berLength u.length_lt, some.injEq,
    Prod.mk.injEq] at hdecode
  obtain ⟨hlen, htail⟩ := hdecode
  obtain ⟨hvalue, hrest⟩ := List.append_inj htail hlen
  refine ⟨?_, hrest⟩
  obtain ⟨tag, value, hlt⟩ := t
  obtain ⟨tag', value', hlt'⟩ := u
  dsimp only at htag hvalue
  subst htag hvalue
  rfl

/-- The code of the TLVs. -/
def code : PrefixCode ComprehensionTlv BYTE where
  encode := encode
  encode_ne_nil t := by simp [encode]
  encode_append_inj := encode_append_inj

end ComprehensionTlv

/-! ## What re-encoding and reading need -/

/-- The block a value is re-encoded into holds its encoding. -/
def CTLV.RawFits (P : Platform) (value : List BYTE) : Prop :=
  value.length ≤ 1 ∨ (value.length = 3 ∧ value[0]? = some 0x7F) ∨
    1 + (CTLV.lengthBytes value.length).length + value.length ≤ P.heap.usable (value.length - 1)

theorem CTLV.getRawData_isSome_iff (P : Platform) (cTag : BYTE) (value : List BYTE) :
    ((CTLV.ofValue cTag value).getRawData P).isSome ↔ CTLV.RawFits P value := by
  by_cases h2 : 2 ≤ value.length
  · have h1 : ¬ value.length ≤ 1 := by omega
    by_cases h7f : value.length = 3 ∧ value[0]? = some 0x7F
    · rw [CTLV.getRawData_three h7f.1 h7f.2]
      exact iff_of_true rfl (Or.inr (Or.inl h7f))
    · have hraw : (CTLV.rawBytes cTag value).length =
          1 + (CTLV.lengthBytes value.length).length + value.length := by
        simp only [CTLV.rawBytes, length_append, length_cons]
        omega
      rw [CTLV.getRawData_eq h2 h7f, hraw]
      simp only [CTLV.RawFits, h1, h7f, false_or]
      split_ifs with hfit
      · exact iff_of_true rfl hfit
      · exact iff_of_false (by simp) hfit
  · refine iff_of_true ?_ (Or.inl (by omega))
    by_cases hnil : value = []
    · subst hnil
      rfl
    · have hpos := length_pos_iff.mpr hnil
      obtain ⟨x, rfl⟩ : ∃ x, value = [x] := length_eq_one_iff.mp (by omega)
      rw [CTLV.getRawData_single]
      rfl

theorem inBounds_nil (P : Platform) (cls : TlvClass) : cls.InBounds P [] := by
  cases cls with
  | result => exact fun h => absurd h (by simp)
  | channelStatus => exact Nat.zero_le 2
  | bufferSize => exact fun h => absurd h (by simp)
  | otherAddress => exact Nat.zero_le 17
  | networkAccessName => exact fun h => absurd rfl h
  | textAttribute => exact fun h => absurd rfl h
  | _ => trivial

/-! ## What is cut off the front -/

namespace CTLV

/-- No value is cut behind the tag `b`: there is no room for one, the
three bytes are taken for the long tag format, the length field is
refused, or the value announced is not there. -/
def NoValue (P : Platform) (b : BYTE) (r : List BYTE) : Prop :=
  r.length ≤ 1 ∨ (r.length = 2 ∧ b = 0x7F) ∨ setLength P (r.length + 1) r = none ∨
    ∃ nLen rest, setLength P (r.length + 1) r = some (nLen, rest) ∧ (rest.length : ℤ) < nLen

variable {P : Platform} {t : CTLV}

theorem set_three {b : BYTE} {r : List BYTE} (hr : r.length = 2) (hb : b = 0x7F) :
    t.set P (b :: r) = some (initialized, none) := by
  obtain ⟨x, y, rfl⟩ : ∃ x y, r = [x, y] := length_eq_two.mp hr
  subst hb
  rfl

theorem set_pair {b x : BYTE} :
    ∃ t', (t' = initialized ∨ t' = ofTag b) ∧ t.set P [b, x] = some (t', none) := by
  cases hlen : setLength P 2 [x] with
  | none =>
      refine ⟨initialized, Or.inl rfl, ?_⟩
      rw [set, if_neg (by simp)]
      simp only [length_cons, length_nil, Nat.zero_add, Nat.reduceAdd, hlen]
  | some cut =>
      refine ⟨ofTag b, Or.inr rfl, ?_⟩
      rw [set, if_neg (by simp)]
      simp only [length_cons, length_nil, Nat.zero_add, Nat.reduceAdd, hlen, if_true]

/-- Then the object holds nothing, and the cutting ends. -/
theorem set_noValue {b : BYTE} {r : List BYTE} (h : NoValue P b r) :
    ∃ t', (t' = initialized ∨ t' = ofTag b) ∧ t.set P (b :: r) = some (t', none) := by
  match r, h with
  | [], _ => exact ⟨initialized, Or.inl rfl, rfl⟩
  | [x], _ => exact set_pair
  | x :: y :: r, h =>
      rcases h with h1 | ⟨h2, hb⟩ | hnone | ⟨nLen, rest, hlen, hshort⟩
      · simp only [length_cons] at h1
        omega
      · exact ⟨initialized, Or.inl rfl, set_three h2 hb⟩
      · refine ⟨initialized, Or.inl rfl, ?_⟩
        by_cases hthree : (b :: x :: y :: r).length = 3 ∧ b = 0x7F
        · rw [set, if_pos hthree]
        · rw [set, if_neg hthree]
          simp only [length_cons] at hnone ⊢
          simp only [hnone]
      · by_cases hthree : (x :: y :: r).length = 2 ∧ b = 0x7F
        · exact ⟨initialized, Or.inl rfl, set_three hthree.1 hthree.2⟩
        · refine ⟨ofTag b, Or.inr rfl, ?_⟩
          have hthree' : ¬ ((y :: r).length = 1 ∧ b = 0x7F) := by
            rintro ⟨h1, hb⟩
            exact hthree ⟨by simpa using h1, hb⟩
          have hle : ¬ nLen ≤ rest.length := by omega
          rw [set_of_setLength hthree' hlen, if_neg (by simp), if_neg hle]

/-- Otherwise the value and what is behind it are the bytes that follow
the length field. -/
theorem set_object {b : BYTE} {r value rest : List BYTE} (h2 : 2 ≤ r.length)
    (hthree : ¬ (r.length = 2 ∧ b = 0x7F))
    (hlen : setLength P (r.length + 1) r = some ((value.length : ℤ), value ++ rest)) :
    t.set P (b :: r) = some (ofValue b value, next rest) := by
  match r, h2 with
  | x :: y :: r, _ =>
      have hthree' : ¬ ((y :: r).length = 1 ∧ b = 0x7F) := by
        rintro ⟨h1, hb⟩
        exact hthree ⟨by simpa using h1, hb⟩
      have hle : ((value.length : ℕ) : ℤ) ≤ (value ++ rest).length := by
        rw [length_append]
        omega
      have hnonneg : ¬ ((value.length : ℕ) : ℤ) < 0 := by omega
      rw [set_of_setLength hthree' hlen, if_neg (by simp), if_pos hle, if_neg hnonneg]
      simp

/-- **The cases of a cut**: no value, an object, or a negative length. -/
theorem set_cases (P : Platform) (t : CTLV) (b : BYTE) (r : List BYTE) :
    NoValue P b r ∨
      (∃ value rest, 2 ≤ r.length ∧ ¬ (r.length = 2 ∧ b = 0x7F) ∧
        setLength P (r.length + 1) r = some ((value.length : ℤ), value ++ rest)) ∨
      t.set P (b :: r) = none := by
  by_cases h1 : r.length ≤ 1
  · exact Or.inl (Or.inl h1)
  by_cases hthree : r.length = 2 ∧ b = 0x7F
  · exact Or.inl (Or.inr (Or.inl hthree))
  cases hlen : setLength P (r.length + 1) r with
  | none => exact Or.inl (Or.inr (Or.inr (Or.inl hlen)))
  | some cut =>
      obtain ⟨nLen, v⟩ := cut
      by_cases hshort : (v.length : ℤ) < nLen
      · exact Or.inl (Or.inr (Or.inr (Or.inr ⟨nLen, v, hlen, hshort⟩)))
      by_cases hneg : nLen < 0
      · refine Or.inr (Or.inr ?_)
        match r, h1 with
        | [], h1 => exact absurd (Nat.zero_le 1) h1
        | x :: r, h1 =>
            have hthree' : ¬ (r.length = 1 ∧ b = 0x7F) := by
              rintro ⟨hr, hb⟩
              exact hthree ⟨by simpa using hr, hb⟩
            have hnil : r ≠ [] := by
              rintro rfl
              exact h1 (by simp)
            have hle : nLen ≤ v.length := by omega
            rw [set_of_setLength hthree' hlen, if_neg hnil, if_pos hle, if_pos hneg]
      · refine Or.inr (Or.inl ⟨v.take nLen.toNat, v.drop nLen.toNat, by omega, hthree, ?_⟩)
        have htake : ((v.take nLen.toNat).length : ℤ) = nLen := by
          rw [length_take]
          omega
        rw [htake, take_append_drop, ← hlen]

end CTLV

namespace Comprehension

open CTLV (tlvTagMask)

theorem parse_next (P : Platform) (rest : List BYTE) :
    parse P (CTLV.next rest) = parse P (some rest) := by
  unfold CTLV.next
  split_ifs with h
  · subst h
    simp [parse]
  · rfl

variable {P : Platform} {cls : TlvClass} {rest : List BYTE} {os : List TlvObject}
variable {t : ComprehensionTlv}

theorem parse_of_set {b : BYTE} {r : List BYTE} {t : CTLV} {nx : Option (List BYTE)}
    (hmade : newTlv (b &&& tlvTagMask) = some (some cls))
    (hset : CTLV.initialized.set P (b :: r) = some (t, nx)) :
    parse P (some (b :: r)) =
      (cls.read P t).bind fun fields =>
        if (t.getRawData P).isSome then (parse P nx).map (⟨t, fields⟩ :: ·) else none := by
  rw [parse_cons, hmade, bind_some]
  simp only [TlvClass.set, hset, bind_eq_bind, bind_some, bind_assoc]

/-- An object without a value is appended, and the loop ends. -/
theorem parse_noValue {b : BYTE} {r : List BYTE}
    (hmade : newTlv (b &&& tlvTagMask) = some (some cls)) (h : CTLV.NoValue P b r) :
    ∃ o, parse P (some (b :: r)) = some [o] ∧ o.tlv.pValue = none ∧
      (r.length = 2 ∧ b = 0x7F → o.tlv = CTLV.initialized) := by
  obtain ⟨t, ht, hset⟩ := CTLV.set_noValue (t := CTLV.initialized) h
  have hread : (cls.read P t).isSome := by
    rcases ht with rfl | rfl
    · exact read_ofTag P cls 0
    · exact read_ofTag P cls b
  have hraw : (t.getRawData P).isSome ∧ t.pValue = none := by
    rcases ht with rfl | rfl
    · exact ⟨rfl, rfl⟩
    · exact ⟨rfl, rfl⟩
  obtain ⟨fields, hfields⟩ := isSome_iff_exists.mp hread
  refine ⟨⟨t, fields⟩, ?_, hraw.2, ?_⟩
  · rw [parse_of_set hmade hset, hfields, bind_some, if_pos hraw.1, parse, map_some]
  · rintro ⟨hr, hb⟩
    rw [CTLV.set_three hr hb, some.injEq, Prod.mk.injEq] at hset
    exact hset.1.symm

/-- **An object with a value** is appended exactly when its value is read
and re-encoded inside the bounds, and the loop goes on behind it. -/
theorem parse_object {b : BYTE} {r value : List BYTE}
    (hmade : newTlv (b &&& tlvTagMask) = some (some cls)) (h2 : 2 ≤ r.length)
    (hthree : ¬ (r.length = 2 ∧ b = 0x7F))
    (hlen : CTLV.setLength P (r.length + 1) r = some ((value.length : ℤ), value ++ rest)) :
    parse P (some (b :: r)) = some os ↔
      cls.InBounds P value ∧ CTLV.RawFits P value ∧
        ∃ fields os', cls.read P (CTLV.ofValue b value) = some fields ∧
          parse P (some rest) = some os' ∧ os = ⟨CTLV.ofValue b value, fields⟩ :: os' := by
  rw [parse_of_set hmade (CTLV.set_object h2 hthree hlen), parse_next]
  rw [← CTLV.getRawData_isSome_iff P b value, ← read_isSome_iff P cls b value]
  constructor
  · intro h
    obtain ⟨fields, hfields, h⟩ := bind_eq_some_iff.mp h
    split_ifs at h with hraw
    obtain ⟨os', hos', rfl⟩ := map_eq_some_iff.mp h
    exact ⟨by rw [hfields]; rfl, hraw, fields, os', hfields, hos', rfl⟩
  · rintro ⟨-, hraw, fields, os', hfields, hos', rfl⟩
    rw [hfields, bind_some, if_pos hraw, hos', map_some]

/-! ## Tails that are no TLV -/

/-- **A harmless tail**: whatever is cut from it has a class, and is read
and re-encoded inside the bounds. -/
inductive Harmless (P : Platform) : List BYTE → Prop
  /-- Nothing is left. -/
  | nil : Harmless P []
  /-- The factory has no object for the tag, and the loop ends. -/
  | noObject {b : BYTE} {r : List BYTE} (hmade : newTlv (b &&& tlvTagMask) = some none) :
      Harmless P (b :: r)
  /-- An object without a value, and the loop ends. -/
  | noValue {b : BYTE} {r : List BYTE} {cls : TlvClass}
      (hmade : newTlv (b &&& tlvTagMask) = some (some cls)) (h : CTLV.NoValue P b r) :
      Harmless P (b :: r)
  /-- An object with a value, and a harmless tail behind it. -/
  | object {b : BYTE} {r value rest : List BYTE} {cls : TlvClass}
      (hmade : newTlv (b &&& tlvTagMask) = some (some cls)) (h2 : 2 ≤ r.length)
      (hthree : ¬ (r.length = 2 ∧ b = 0x7F))
      (hlen : CTLV.setLength P (r.length + 1) r = some ((value.length : ℤ), value ++ rest))
      (hbounds : cls.InBounds P value) (hraw : CTLV.RawFits P value) (hrest : Harmless P rest) :
      Harmless P (b :: r)

/-- A harmless string is parsed without a fault. -/
theorem parse_of_harmless {bs : List BYTE} (h : Harmless P bs) :
    ∃ os, parse P (some bs) = some os := by
  induction h with
  | nil => exact ⟨[], by rw [parse]⟩
  | noObject hmade => exact ⟨[], by rw [parse_cons, hmade]; rfl⟩
  | noValue hmade h =>
      obtain ⟨o, ho, -⟩ := parse_noValue hmade h
      exact ⟨[o], ho⟩
  | @object b r value rest cls hmade h2 hthree hlen hbounds hraw hrest ih =>
      obtain ⟨os', hos'⟩ := ih
      obtain ⟨fields, hfields⟩ :=
        isSome_iff_exists.mp ((read_isSome_iff P cls b value).mpr hbounds)
      exact ⟨_, (parse_object hmade h2 hthree hlen).mpr
        ⟨hbounds, hraw, fields, os', hfields, hos', rfl⟩⟩

/-- And a string parsed without a fault is harmless: each step of the
loop is one of its cases. -/
theorem harmless_of_parse (n : ℕ) : ∀ (bs : List BYTE) (os : List TlvObject),
    bs.length = n → parse P (some bs) = some os → Harmless P bs := by
  induction n using Nat.strongRecOn with
  | ind n ih =>
      intro bs os hn hparse
      cases bs with
      | nil => exact Harmless.nil
      | cons b r =>
          cases hmade : newTlv (b &&& tlvTagMask) with
          | none =>
              rw [parse_cons, hmade] at hparse
              cases hparse
          | some made =>
              cases made with
              | none => exact Harmless.noObject hmade
              | some cls =>
                  rcases CTLV.set_cases P CTLV.initialized b r with
                    hno | ⟨value, rest, h2, hthree, hlen⟩ | hnone
                  · exact Harmless.noValue hmade hno
                  · obtain ⟨hbounds, hraw, fields, os', -, hos', -⟩ :=
                      (parse_object hmade h2 hthree hlen).mp hparse
                    have hlt := CTLV.setLength_lt hlen
                    rw [length_append] at hlt
                    simp only [length_cons] at hn
                    exact Harmless.object hmade h2 hthree hlen hbounds hraw
                      (ih rest.length (by omega) rest os' rfl hos')
                  · rw [parse_cons, hmade] at hparse
                    simp only [bind_some, TlvClass.set, hnone, bind_eq_bind,
                      bind_none, reduceCtorEq] at hparse

/-! ## Heads that are -/

/-- **A TLV handled** in front of `rest`. -/
structure Handled (P : Platform) (t : ComprehensionTlv) (rest : List BYTE) : Prop where
  /-- The factory has a class for the tag, and it reads the value inside
  the bounds. -/
  made : ∃ cls, newTlv (t.cTag &&& tlvTagMask) = some (some cls) ∧ cls.InBounds P t.value
  /-- The last three bytes are not taken for the long tag format. -/
  notThree : ¬ ((t.encode ++ rest).length = 3 ∧ t.cTag = 0x7F)
  /-- The length field, read low byte first, is the value's length. -/
  lengthRead : CTLV.setLength P (t.encode ++ rest).length (CTLV.berLength t.value.length) =
    some ((t.value.length : ℤ), [])
  /-- The value is re-encoded inside its block. -/
  rawFits : CTLV.RawFits P t.value

/-- **The strings read completely**: handled TLVs, then a harmless tail
that begins with no TLV. -/
inductive Readable (P : Platform) : List BYTE → Prop
  /-- No TLV is left at the front. -/
  | tail {bs : List BYTE} (hno : ¬ ComprehensionTlv.code.Starts bs) (h : Harmless P bs) :
      Readable P bs
  /-- A handled TLV at the front. -/
  | tlv {t : ComprehensionTlv} {rest : List BYTE} (h : Handled P t rest)
      (hrest : Readable P rest) : Readable P (t.encode ++ rest)

/-- An object's masked tag and value. -/
def objectContent (o : TlvObject) : BYTE × List BYTE :=
  (o.tlv.getTag, o.tlv.pValue.getD [])

/-- **The objects a byte string stands for**: they begin with the encoded
TLVs the string begins with, and are exactly those when it holds nothing
else. -/
def ParsedAs (bs : List BYTE) (os : List TlvObject) : Prop :=
  (∀ ts rest, bs = ComprehensionTlv.code.encodeAll ts ++ rest →
      (os.take ts.length).map objectContent = ts.map ComprehensionTlv.content) ∧
    ∀ ts, bs = ComprehensionTlv.code.encodeAll ts →
      os.map objectContent = ts.map ComprehensionTlv.content

/-- **`Set` parses the string completely**: the loop ends without a
fault, with the objects the string stands for. -/
def ParsesCompletely (P : Platform) (bs : List BYTE) : Prop :=
  ∃ c, set P bs = some c ∧ ParsedAs bs c.vectorTlvs

theorem parsedAs_of_not_starts {bs : List BYTE} (hno : ¬ ComprehensionTlv.code.Starts bs)
    (hnil : bs = [] → os = []) : ParsedAs bs os := by
  constructor
  · intro ts rest heq
    rw [PrefixCode.eq_nil_of_not_starts rest hno heq]
    rfl
  · intro ts heq
    have hts := PrefixCode.eq_nil_of_not_starts [] hno (by rw [append_nil]; exact heq)
    subst hts
    rw [hnil heq]
    rfl

theorem parsedAs_cons {o : TlvObject} : ParsedAs (t.encode ++ rest) (o :: os) ↔
      objectContent o = t.content ∧ ParsedAs rest os := by
  constructor
  · rintro ⟨hfront, hall⟩
    have hhead := hfront [t] rest (by simp [ComprehensionTlv.code])
    refine ⟨by simpa using hhead, ?_, ?_⟩
    · intro ts r heq
      have h := hfront (t :: ts) r (by
        rw [PrefixCode.encodeAll_cons, append_assoc, ← heq]
        rfl)
      simp only [length_cons, take_succ_cons, map_cons, List.cons.injEq] at h
      exact h.2
    · intro ts heq
      have h := hall (t :: ts) (by rw [PrefixCode.encodeAll_cons, ← heq]; rfl)
      simp only [map_cons, List.cons.injEq] at h
      exact h.2
  · rintro ⟨hhead, hfront, hall⟩
    constructor
    · intro ts r heq
      cases ts with
      | nil => rfl
      | cons u ts =>
          obtain ⟨rfl, hrest⟩ := PrefixCode.encodeAll_eq_cons (C := ComprehensionTlv.code) heq
          simp only [length_cons, take_succ_cons, map_cons, hhead, hfront ts r hrest]
    · intro ts heq
      cases ts with
      | nil => simp [ComprehensionTlv.encode] at heq
      | cons u ts =>
          have heq' : ComprehensionTlv.code.encode t ++ rest =
              ComprehensionTlv.code.encodeAll (u :: ts) ++ [] := by
            rw [append_nil]
            exact heq
          obtain ⟨rfl, hrest⟩ := PrefixCode.encodeAll_eq_cons heq'
          rw [append_nil] at hrest
          simp only [map_cons, hhead, hall ts hrest]

theorem not_parsedAs_nil :
    ¬ ParsedAs (t.encode ++ rest) [] := by
  rintro ⟨hfront, -⟩
  have h := hfront [t] rest (by simp [ComprehensionTlv.code])
  simp at h

theorem encode_append (t : ComprehensionTlv) (rest : List BYTE) :
    t.encode ++ rest = t.cTag :: (CTLV.berLength t.value.length ++ (t.value ++ rest)) := by
  simp [ComprehensionTlv.encode]

/-- The length field at the front, which is read right when it is one byte. -/
theorem setLength_front (P : Platform) (t : ComprehensionTlv) (rest : List BYTE) :
    ∃ nLen, CTLV.setLength P ((CTLV.berLength t.value.length ++ (t.value ++ rest)).length + 1)
        (CTLV.berLength t.value.length ++ (t.value ++ rest)) = some (nLen, t.value ++ rest) ∧
      CTLV.setLength P (t.encode ++ rest).length (CTLV.berLength t.value.length) =
        some (nLen, []) ∧ (t.value.length < 256 → nLen = t.value.length) := by
  obtain ⟨nLen, hread⟩ := CTLV.setLength_berLength P (t.encode ++ rest).length t.value.length
  have hfield := hread (t.value ++ rest)
  rw [encode_append, length_cons] at hfield
  have hfield0 := hread []
  rw [append_nil] at hfield0
  refine ⟨nLen, hfield, hfield0, fun h => ?_⟩
  have hlt := CTLV.setLength_of_lt P (t.encode ++ rest).length h []
  rw [append_nil, hfield0, some.injEq, Prod.mk.injEq] at hlt
  exact hlt.1

/-- A TLV that is parsed as an object without a value has none, and is the last. -/
theorem handled_of_noValue (hmade : newTlv (t.cTag &&& tlvTagMask) = some (some cls))
    (hno : CTLV.NoValue P t.cTag (CTLV.berLength t.value.length ++ (t.value ++ rest)))
    (hparse : parse P (some (t.encode ++ rest)) = some os) (hos : ParsedAs (t.encode ++ rest) os) :
    Handled P t rest ∧ ∃ os, parse P (some rest) = some os ∧ ParsedAs rest os := by
  obtain ⟨nLen, hfield, hfield0, hshort⟩ := setLength_front P t rest
  obtain ⟨o, ho, hvalue, hthree⟩ := parse_noValue hmade hno
  rw [encode_append, ho, some.injEq] at hparse
  subst hparse
  obtain ⟨hcontent, htail⟩ := parsedAs_cons.mp hos
  have hnil : t.value = [] := by
    have h := congrArg Prod.snd hcontent
    rw [objectContent, hvalue] at h
    exact h.symm
  have hn := hshort (by rw [hnil]; decide)
  have hber := length_pos_iff.mpr (CTLV.berLength_ne_nil t.value.length)
  rcases hno with h1 | h3 | hno | ⟨nLen', v, hv, hlt⟩
  · -- only the tag and a zero length are left
    rw [length_append, length_append, hnil, length_nil] at h1
    rw [hnil, length_nil] at hber
    have hrest : rest = [] := length_eq_zero_iff.mp (by omega)
    subst hrest
    refine ⟨⟨⟨cls, hmade, ?_⟩, ?_, ?_, ?_⟩, [], by rw [parse], htail⟩
    · rw [hnil]
      exact inBounds_nil P cls
    · rintro ⟨hlen3, -⟩
      rw [encode_append, length_cons, length_append, length_append, hnil, length_nil]
        at hlen3
      omega
    · rw [hfield0, hn]
    · exact Or.inl (by rw [hnil]; decide)
  · -- the long tag format leaves no tag
    have h := congrArg Prod.fst hcontent
    rw [objectContent, hthree h3, ComprehensionTlv.content, h3.2] at h
    dsimp only at h
    exact absurd h (by decide)
  · rw [hno] at hfield
    cases hfield
  · rw [hv, some.injEq, Prod.mk.injEq] at hfield
    rw [hfield.1, hn, hfield.2, hnil] at hlt
    simp only [length_nil, nil_append] at hlt
    omega

/-- **What is parsed as itself** is handled. -/
theorem handled_of_parse (hparse : parse P (some (t.encode ++ rest)) = some os)
    (hos : ParsedAs (t.encode ++ rest) os) :
    Handled P t rest ∧ ∃ os, parse P (some rest) = some os ∧ ParsedAs rest os := by
  obtain ⟨nLen, hfield, hfield0, -⟩ := setLength_front P t rest
  have hfront := hparse
  rw [encode_append] at hparse
  cases hmade : newTlv (t.cTag &&& tlvTagMask) with
  | none =>
    rw [parse_cons, hmade] at hparse
    cases hparse
  | some made =>
    cases made with
    | none =>
      rw [parse_cons, hmade] at hparse
      cases hparse
      exact absurd hos not_parsedAs_nil
    | some cls =>
      rcases CTLV.set_cases P CTLV.initialized t.cTag
          (CTLV.berLength t.value.length ++ (t.value ++ rest)) with
        hno | ⟨value, rest', h2, hthree, hlen⟩ | hnone
      · exact handled_of_noValue hmade hno hfront hos
      · obtain ⟨hbounds, hraw, fields, os', -, hos', rfl⟩ :=
          (parse_object hmade h2 hthree hlen).mp hparse
        obtain ⟨hcontent, htail⟩ := parsedAs_cons.mp hos
        have hvalue : value = t.value := congrArg Prod.snd hcontent
        subst hvalue
        rw [hlen, some.injEq, Prod.mk.injEq] at hfield
        obtain ⟨hn, happend⟩ := hfield
        have hrest : rest' = rest := append_cancel_left happend
        subst hrest
        refine ⟨⟨⟨cls, hmade, hbounds⟩, ?_, ?_, hraw⟩, os', hos', htail⟩
        · rintro ⟨h3, hb⟩
          rw [encode_append, length_cons] at h3
          exact hthree ⟨by omega, hb⟩
        · rw [hfield0, hn]
      · rw [parse_cons, hmade] at hparse
        simp only [bind_some, TlvClass.set, hnone, bind_eq_bind,
          bind_none, reduceCtorEq] at hparse

/-- **What is handled** is parsed as itself. -/
theorem Handled.parse (h : Handled P t rest) (hos : Comprehension.parse P (some rest) = some os)
    (htail : ParsedAs rest os) :
    ∃ os, Comprehension.parse P (some (t.encode ++ rest)) = some os ∧
      ParsedAs (t.encode ++ rest) os := by
  obtain ⟨⟨cls, hmade, hbounds⟩, hthree, hlen, hraw⟩ := h
  obtain ⟨nLen, hfield, hfield0, -⟩ := setLength_front P t rest
  rw [hfield0, some.injEq, Prod.mk.injEq] at hlen
  rw [hlen.1] at hfield
  rw [encode_append, length_cons] at hthree
  rw [encode_append]
  by_cases h1 : (CTLV.berLength t.value.length ++ (t.value ++ rest)).length ≤ 1
  · have hber := length_pos_iff.mpr (CTLV.berLength_ne_nil t.value.length)
    rw [length_append, length_append] at h1
    have hnil : t.value = [] := length_eq_zero_iff.mp (by omega)
    have hrest : rest = [] := length_eq_zero_iff.mp (by omega)
    subst hrest
    obtain ⟨fields, hfields⟩ := isSome_iff_exists.mp (read_ofTag P cls t.cTag)
    refine ⟨[⟨CTLV.ofTag t.cTag, fields⟩], ?_, ?_⟩
    · have hset : CTLV.initialized.set P
          (t.cTag :: (CTLV.berLength t.value.length ++ (t.value ++ []))) =
            some (CTLV.ofTag t.cTag, none) := by
        rw [hnil]
        rfl
      rw [parse_of_set hmade hset, hfields, bind_some,
        if_pos (by rw [CTLV.getRawData_empty]; rfl), Comprehension.parse, map_some]
    · rw [← encode_append, parsedAs_cons]
      refine ⟨by rw [ComprehensionTlv.content, hnil]; rfl, ?_⟩
      rw [Comprehension.parse, some.injEq] at hos
      rw [hos]
      exact htail
  · have hthree' : ¬ ((CTLV.berLength t.value.length ++ (t.value ++ rest)).length = 2 ∧
        t.cTag = 0x7F) := by
      rintro ⟨h2, hb⟩
      exact hthree ⟨by omega, hb⟩
    obtain ⟨fields, hfields⟩ :=
      isSome_iff_exists.mp ((read_isSome_iff P cls t.cTag t.value).mpr hbounds)
    refine ⟨⟨CTLV.ofValue t.cTag t.value, fields⟩ :: os, ?_, ?_⟩
    · exact (parse_object hmade (by omega) hthree' hfield).mpr
        ⟨hbounds, hraw, fields, os, hfields, hos, rfl⟩
    · rw [← encode_append, parsedAs_cons]
      exact ⟨rfl, htail⟩

/-- **A TLV at the front is parsed as itself exactly when it is handled**,
and the rest of the string is parsed by itself. -/
theorem parse_encode_iff :
    (∃ os, parse P (some (t.encode ++ rest)) = some os ∧ ParsedAs (t.encode ++ rest) os) ↔
      Handled P t rest ∧ ∃ os, parse P (some rest) = some os ∧ ParsedAs rest os :=
  ⟨fun ⟨_, hparse, hos⟩ => handled_of_parse hparse hos,
    fun ⟨h, _, hos, htail⟩ => h.parse hos htail⟩

/-- **Which byte strings `Set` parses completely**, on every platform. -/
theorem parsesCompletely_iff (P : Platform) (bs : List BYTE) :
    ParsesCompletely P bs ↔ Readable P bs := by
  have hset : ParsesCompletely P bs ↔ ∃ os, parse P (some bs) = some os ∧ ParsedAs bs os := by
    rw [← set_eq]
    simp only [ParsesCompletely, map_eq_some_iff]
    constructor
    · rintro ⟨c, hc, hos⟩
      exact ⟨_, ⟨c, hc, rfl⟩, hos⟩
    · rintro ⟨os, ⟨c, hc, rfl⟩, hos⟩
      exact ⟨c, hc, hos⟩
  rw [hset]
  clear hset
  constructor
  · -- the string gets shorter with every TLV taken off its front
    induction hn : bs.length using Nat.strongRecOn generalizing bs with
    | ind n ih =>
        rintro ⟨os, hparse, hos⟩
        by_cases hstarts : ComprehensionTlv.code.Starts bs
        · obtain ⟨t, rest, rfl⟩ := hstarts
          obtain ⟨hhandled, hrest⟩ := parse_encode_iff.mp ⟨os, hparse, hos⟩
          have hlt : rest.length < n := by
            rw [← hn, length_append]
            have := length_pos_iff.mpr (ComprehensionTlv.code.encode_ne_nil t)
            omega
          exact Readable.tlv hhandled (ih rest.length hlt rest rfl hrest)
        · exact Readable.tail hstarts (harmless_of_parse _ bs os rfl hparse)
  · intro h
    induction h with
    | @tail bs hno h =>
        obtain ⟨os, hos⟩ := parse_of_harmless h
        refine ⟨os, hos, parsedAs_of_not_starts hno ?_⟩
        rintro rfl
        rw [parse, some.injEq] at hos
        exact hos.symm
    | tlv h hrest ih => exact parse_encode_iff.mpr ⟨h, ih⟩

/-- A CSG identifier list ends the parsing: the command's details behind
it are lost, on an allocator that hands out more than enough. -/
theorem not_parsesCompletely_csg :
    ¬ ParsesCompletely ⟨⟨fun n => n + 64, fun n => Nat.le_add_right n 64⟩, fun _ => 0, fun _ => 0⟩
      [0xFE, 0x01, 0x00, 0x81, 0x03, 0x01, 0x21, 0x80] := by
  rintro ⟨c, hc, -, hall⟩
  have hset := set_eq ⟨⟨fun n => n + 64, fun n => Nat.le_add_right n 64⟩, fun _ => 0, fun _ => 0⟩
    [0xFE, 0x01, 0x00, 0x81, 0x03, 0x01, 0x21, 0x80]
  have hmade : newTlv ((0xFE : BYTE) &&& tlvTagMask) = some none := by decide
  rw [hc, parse_cons, hmade, bind_some, map_some, some.injEq] at hset
  have h := hall [⟨0xFE, [0x00], by decide⟩, ⟨0x81, [0x01, 0x21, 0x80], by decide⟩] (by decide)
  rw [hset] at h
  exact absurd h (by decide)

end Comprehension

end ExynosVendor.Ril
