import ExynosVendor.Ril.Util.Gsm7

/-!
# Text in the default alphabet

`BuildSendUssd` sends a text as packed septets of the GSM default
alphabet: `convertAsciiToGsm7bitBasicCharSet` of `util/util.cpp` makes
the septets, eight characters of ASCII among them by an escape, and
`packing_gsm7bit` packs them. `DecodingUssd` takes them apart again, with
tables of its own.

The two sides agree on all characters but two, an underscore and a form
feed, which the first passes through as the codes they have in ASCII
(`echo`). `decodingUssd_sent` is what comes back of any text, and
`textSurvives_iff` when it is the text.
-/

namespace ExynosVendor.Ril

open List Option

/-! ## The sender -/

/-- The septets of a character, by the switch of
`convertAsciiToGsm7bitBasicCharSet`. -/
def asciiToGsm7 (ascii : BYTE) : List BYTE :=
  match ascii with
  | 0x40#8 => [0x00]
  | 0x24#8 => [0x02]
  | 0x5E#8 => [0x1B, 0x14]
  | 0x7B#8 => [0x1B, 0x28]
  | 0x7D#8 => [0x1B, 0x29]
  | 0x5C#8 => [0x1B, 0x2F]
  | 0x5B#8 => [0x1B, 0x3C]
  | 0x7E#8 => [0x1B, 0x3D]
  | 0x5D#8 => [0x1B, 0x3E]
  | 0x7C#8 => [0x1B, 0x40]
  | _ => [ascii]

/-- The loop of `convertAsciiToGsm7bitBasicCharSet`. -/
def asciiToGsm7Loop : List BYTE → ℕ → List BYTE → Option (List BYTE × ℕ)
  | [], id, gsm7 => some (gsm7, id)
  | ascii :: rest, id, gsm7 => do
      let gsm7 ← Block.store gsm7 id (asciiToGsm7 ascii)
      asciiToGsm7Loop rest (id + (asciiToGsm7 ascii).length) gsm7

def convertAsciiToGsm7bitBasicCharSet (ascii gsm7 : List BYTE) : Option (List BYTE × ℕ) :=
  asciiToGsm7Loop ascii 0 gsm7

/-- `BuildSendUssd`, as far as the text goes: both arrays are cleared
ones of `MAX_USSD_DATA_LEN` bytes. -/
def buildSendUssd (ussd : List BYTE) : Option (List BYTE) := do
  let (gsm7, gsmlen) ←
    convertAsciiToGsm7bitBasicCharSet ussd (List.replicate maxUssdDataLen 0)
  let (encodedUssd, encodedLen) ← packingGsm7bit gsm7 gsmlen (List.replicate maxUssdDataLen 0)
  Block.load encodedUssd 0 (min encodedLen maxUssdDataLen)

/-- An ASCII character of the default alphabet or of its extension. -/
def InAlphabet (ascii : BYTE) : Prop :=
  ascii.toNat < 128 ∧
    (ascii.setWidth 16 ∈ gsm7bitDefToUcs2.map Prod.snd ∨
      ascii.setWidth 16 ∈ gsm7bitExtToUcs2.map Prod.snd)

instance (ascii : BYTE) : Decidable (InAlphabet ascii) :=
  inferInstanceAs (Decidable (_ ∧ _))

/-- The septets of a text. -/
def septets (s : List BYTE) : List BYTE :=
  s.flatMap asciiToGsm7

/-- The schemes under which a message is in the default alphabet. -/
def IsDefaultAlphabet (dcs : BYTE) : Prop :=
  getUssdDcs dcs = .gsm7bitDa ∨ getUssdDcs dcs = .reserved

/-- **A text survives**: what is sent of it is decoded to the text, under
each scheme of the default alphabet and into each destination that has
room for the text and three bytes more. -/
def TextSurvives (s : List BYTE) : Prop :=
  ∃ encoded, buildSendUssd s = some encoded ∧
    ∀ dcs dst, IsDefaultAlphabet dcs → s.length + 3 ≤ dst.length → dst.length < 2 ^ 64 →
      decodingUssd dcs encoded dst = some (emitted dst s)

/-! ## What is sent -/

/-- The septets fill the front of the array. -/
theorem asciiToGsm7Loop_eq (s p r : List BYTE) (h : (septets s).length ≤ r.length) :
    asciiToGsm7Loop s p.length (p ++ r) =
      some (p ++ septets s ++ r.drop (septets s).length, p.length + (septets s).length) := by
  induction s generalizing p r with
  | nil => simp [asciiToGsm7Loop, septets]
  | cons ascii s ih =>
      have hcons : septets (ascii :: s) = asciiToGsm7 ascii ++ septets s := flatMap_cons
      rw [hcons, length_append] at h
      have hloop := ih (p ++ asciiToGsm7 ascii) (r.drop (asciiToGsm7 ascii).length)
        (by rw [length_drop]; omega)
      rw [length_append] at hloop
      simp only [asciiToGsm7Loop, Block.store_behind (by omega : (asciiToGsm7 ascii).length ≤ r.length),
        bind_eq_bind, bind_some, hloop, hcons]
      simp only [append_assoc, length_append, drop_drop, Nat.add_assoc]

variable {s : List BYTE}

theorem septets_lt (hs : ∀ c ∈ s, InAlphabet c) :
    ∀ x ∈ septets s, x.toNat < 128 := by
  have hcode : ∀ c : BYTE, c.toNat < 128 →
      (asciiToGsm7 c).all (fun x => decide (x.toNat < 128)) = true := by
    decide +kernel
  intro x hx
  obtain ⟨c, hc, hxc⟩ := mem_flatMap.mp hx
  exact of_decide_eq_true (all_eq_true.mp (hcode c (hs c hc).1) x hxc)

theorem length_le_septets (s : List BYTE) : s.length ≤ (septets s).length := by
  have hcode : ∀ c : BYTE, 1 ≤ (asciiToGsm7 c).length := by decide +kernel
  induction s with
  | nil => exact Nat.zero_le _
  | cons c s ih =>
      have hcons : septets (c :: s) = asciiToGsm7 c ++ septets s := flatMap_cons
      have := hcode c
      rw [hcons, length_append, length_cons]
      omega

theorem paddedSeptets_append (s r : List BYTE) :
    paddedSeptets (s ++ r) s.length = paddedSeptets s s.length := by
  funext k
  rw [paddedSeptets, paddedSeptets, septetsOf, septetsOf]
  split_ifs with _ hk
  · rfl
  · exact getD_append _ _ _ _ hk
  · rfl

/-- The packed bytes of a septet string. -/
def packedBytes (t : List BYTE) : List BYTE :=
  (List.range (packedLength t.length)).map (septetByte (paddedSeptets t t.length))

@[simp] theorem packedBytes_length (t : List BYTE) :
    (packedBytes t).length = packedLength t.length := by
  simp [packedBytes]

/-- **What is sent of a text**: the arrays have room for all of it, and
for the byte behind whole groups too. -/
theorem buildSendUssd_eq (hn : (septets s).length ≤ maxUssdDataLen) :
    buildSendUssd s = some (packedBytes (septets s)) := by
  have hconvert := asciiToGsm7Loop_eq s [] (List.replicate maxUssdDataLen 0) (by simpa using hn)
  simp only [nil_append, length_nil, Nat.zero_add, drop_replicate] at hconvert
  generalize septets s = t at hn hconvert
  rw [maxUssdDataLen] at hn
  have hdest : packedLength t.length < (List.replicate maxUssdDataLen (0 : BYTE)).length := by
    rw [length_replicate, packedLength, maxUssdDataLen]
    omega
  obtain ⟨back, hpack⟩ : ∃ back,
      packingGsm7bit (t ++ List.replicate (maxUssdDataLen - t.length) 0) t.length
        (List.replicate maxUssdDataLen 0) = some (packedBytes t ++ back, packedLength t.length) := by
    rw [packedBytes, ← paddedSeptets_append t (List.replicate (maxUssdDataLen - t.length) 0)]
    by_cases h8 : t.length = 0 ∨ t.length % 8 ≠ 0
    · exact ⟨_, packingGsm7bit_eq (by omega) (by simp) h8 (Nat.le_of_lt hdest)⟩
    · push Not at h8
      refine packingGsm7bit_whole (by omega) ?_ h8.1 h8.2 hdest
      rw [length_append, length_replicate, maxUssdDataLen]
      omega
  have hmin : min (packedLength t.length) maxUssdDataLen = (packedBytes t).length := by
    rw [packedBytes_length, packedLength, maxUssdDataLen]
    omega
  simp only [buildSendUssd, convertAsciiToGsm7bitBasicCharSet, hconvert, hpack, hmin,
    bind_eq_bind, bind_some]
  exact Block.load_front _ _

/-! ## What is received -/

/-- The units of a septet string, by the tables. -/
def ucs2Of : List BYTE → List WORD
  | [] => []
  | [septet] => [defaultUcs2 septet]
  | septet :: next :: rest =>
      if septet = 0x1B then
        match gsm7bitExtToUcs2.lookup next with
        | some ucs2 => ucs2 :: ucs2Of rest
        | none => 0x0020 :: ucs2Of (next :: rest)
      else defaultUcs2 septet :: ucs2Of (next :: rest)

/-- The alphabet loop writes them behind what it has written. -/
theorem gsm7bitToUcs2Loop_eq (t : List BYTE) (p r : List WORD) (h : t.length ≤ r.length) :
    gsm7bitToUcs2Loop t p.length (p ++ r) =
      some (p ++ ucs2Of t ++ r.drop (ucs2Of t).length, p.length + (ucs2Of t).length) := by
  have hput (u : WORD) (p r : List WORD) (hr : 0 < r.length) :
      Block.put (p ++ r) p.length u = some ((p ++ [u]) ++ r.drop 1) := Block.put_behind hr
  -- a unit and those behind it
  have hcons (u : WORD) (us p r : List WORD) :
      some (p ++ [u] ++ us ++ (r.drop 1).drop us.length, p.length + 1 + us.length) =
        some (p ++ (u :: us) ++ r.drop (u :: us).length, p.length + (u :: us).length) := by
    rw [length_cons, Nat.add_comm us.length 1, ← Nat.add_assoc, drop_drop]
    simp only [append_assoc, cons_append, nil_append]
  induction t using ucs2Of.induct generalizing p r with
  | case1 => simp [gsm7bitToUcs2Loop, ucs2Of]
  | case2 septet => simp [gsm7bitToUcs2Loop, ucs2Of, hput _ p r h]
  | case3 next rest ucs2 hext ih =>
      simp only [length_cons] at h
      have hloop := ih (p ++ [ucs2]) (r.drop 1) (by rw [length_drop]; omega)
      rw [length_append, length_singleton] at hloop
      simp only [gsm7bitToUcs2Loop, if_true, hext, hput ucs2 p r (by omega), bind_eq_bind,
        bind_some, hloop, ucs2Of]
      exact hcons _ _ p r
  | case4 next rest hext ih =>
      simp only [length_cons] at h
      have hloop := ih (p ++ [0x0020]) (r.drop 1) (by rw [length_drop, length_cons]; omega)
      rw [length_append, length_singleton] at hloop
      simp only [gsm7bitToUcs2Loop, if_true, hext, hput 0x0020 p r (by omega), bind_eq_bind,
        bind_some, hloop, ucs2Of]
      exact hcons _ _ p r
  | case5 septet next rest hescape ih =>
      simp only [length_cons] at h
      have hloop := ih (p ++ [defaultUcs2 septet]) (r.drop 1)
        (by rw [length_drop, length_cons]; omega)
      rw [length_append, length_singleton] at hloop
      simp only [gsm7bitToUcs2Loop, if_neg hescape, hput (defaultUcs2 septet) p r (by omega),
        bind_eq_bind, bind_some, hloop, ucs2Of]
      exact hcons _ _ p r

/-- The UTF-8 loop emits all units when there is room for them and three
bytes more. -/
theorem ucs2ToUtf8Loop_eq (us : List WORD) (p r : List BYTE)
    (h : (us.flatMap Utf8.unit).length + 3 ≤ r.length) (hmax : (p ++ r).length < 2 ^ 64) :
    ucs2ToUtf8Loop us p.length (p ++ r) =
      some (p ++ us.flatMap Utf8.unit ++ r.drop (us.flatMap Utf8.unit).length,
        p.length + (us.flatMap Utf8.unit).length) := by
  have hlen : (p ++ r).length = p.length + r.length := length_append
  have hall : Utf8.code.fitting ((p ++ r).length - 3) p.length us = us := by
    refine PrefixCode.fitting_of_le ?_
    rw [hlen]
    exact Nat.le_sub_of_add_le (by rw [Nat.add_assoc]; exact Nat.add_le_add_left h _)
  have hloop := ucs2ToUtf8Loop_fitting us p r (by rw [hlen]; omega) hmax
  rwa [hall] at hloop

/-! ## Characters -/

/-- The unit a character comes back as. -/
def unitOf (ascii : BYTE) : WORD :=
  if ascii = 0x5F then 0x00A7 else if ascii = 0x0C then 0x00F8 else ascii.setWidth 16

/-- The text it comes back as. -/
def echo (ascii : BYTE) : List BYTE :=
  Utf8.unit (unitOf ascii)

/-- The two characters the sides do not agree on. -/
def isStray (ascii : BYTE) : Bool :=
  ascii == 0x5F || ascii == 0x0C

/-- A septet outside the escape, or an escape the extension has. -/
def IsCodeOf (ucs2 : WORD) : List BYTE → Prop
  | [septet] => septet ≠ 0x1B ∧ defaultUcs2 septet = ucs2
  | [escape, septet] => escape = 0x1B ∧ gsm7bitExtToUcs2.lookup septet = some ucs2
  | _ => False

instance (ucs2 : WORD) : (code : List BYTE) → Decidable (IsCodeOf ucs2 code)
  | [] => inferInstanceAs (Decidable False)
  | [_] => inferInstanceAs (Decidable (_ ∧ _))
  | [_, _] => inferInstanceAs (Decidable (_ ∧ _))
  | _ :: _ :: _ :: _ => inferInstanceAs (Decidable False)

/-- Each character is sent as the code of a unit, which comes back as itself, but for the
strays. -/
theorem character_sent {c : BYTE} (hc : InAlphabet c) :
    IsCodeOf (unitOf c) (asciiToGsm7 c) ∧ (isStray c = false → echo c = [c]) ∧
      (echo c).length = 1 + (isStray c).toNat := by
  revert c
  decide +kernel

/-- Which is read on its own, whatever is behind it. -/
theorem ucs2Of_code {ucs2 : WORD} {code : List BYTE} (h : IsCodeOf ucs2 code) (t : List BYTE) :
    ucs2Of (code ++ t) = ucs2 :: ucs2Of t := by
  rcases code with _ | ⟨septet, _ | ⟨next, _ | ⟨other, rest⟩⟩⟩
  · exact h.elim
  · obtain ⟨hescape, hunit⟩ := h
    cases t with
    | nil => simp only [append_nil, ucs2Of, hunit]
    | cons next t => simp only [singleton_append, ucs2Of, if_neg hescape, hunit]
  · obtain ⟨rfl, hext⟩ := h
    simp only [cons_append, nil_append, ucs2Of, if_true, hext]
  · exact h.elim

theorem ucs2Of_septets (hs : ∀ c ∈ s, InAlphabet c) (t : List BYTE) :
    ucs2Of (septets s ++ t) = s.map unitOf ++ ucs2Of t := by
  induction s with
  | nil => rfl
  | cons c s ih =>
      obtain ⟨hc, hs⟩ := forall_mem_cons.mp hs
      have hcons : septets (c :: s) = asciiToGsm7 c ++ septets s := flatMap_cons
      rw [hcons, append_assoc, ucs2Of_code ((character_sent hc).1), ih hs]
      rfl

/-- A text without strays comes back as itself. -/
theorem flatMap_echo (hs : ∀ c ∈ s, InAlphabet c) (h : ∀ c ∈ s, isStray c = false) :
    s.flatMap echo = s := by
  induction s with
  | nil => rfl
  | cons c s ih =>
      obtain ⟨hc, hs⟩ := forall_mem_cons.mp hs
      obtain ⟨hstray, h⟩ := forall_mem_cons.mp h
      rw [flatMap_cons, (character_sent hc).2.1 hstray, ih hs h, singleton_append]

theorem length_flatMap_echo (hs : ∀ c ∈ s, InAlphabet c) :
    (s.flatMap echo).length = s.length + s.countP isStray := by
  induction s with
  | nil => rfl
  | cons c s ih =>
      obtain ⟨hc, hs⟩ := forall_mem_cons.mp hs
      rw [flatMap_cons, length_append, (character_sent hc).2.2, ih hs, length_cons, countP_cons]
      cases isStray c <;> simp <;> omega

/-! ## What comes back -/

/-- The text that comes back: a carriage return of the padding is read as
a character. -/
def received (s : List BYTE) : List BYTE :=
  s.flatMap echo ++ if (septets s).length % 8 = 7 then [0x0D] else []

/-- **What a text sent comes back as**, when `Gsm7` holds all its septets
and the cell behind them. -/
theorem decodingUssd_sent {dst : List BYTE} {dcs : BYTE} (hs : ∀ c ∈ s, InAlphabet c)
    (hn : (septets s).length < maxUssdDataLen) (hdcs : IsDefaultAlphabet dcs)
    (hroom : (received s).length + 3 ≤ dst.length) (hmax : dst.length < 2 ^ 64) :
    decodingUssd dcs (packedBytes (septets s)) dst = some (emitted dst (received s)) := by
  have hgsm7 : decodingUssd dcs (packedBytes (septets s)) dst =
      decodingGsm7bit (packedBytes (septets s)) dst := by
    unfold decodingUssd
    rcases hdcs with hdcs | hdcs <;> rw [hdcs]
  have hunits : (ucs2Of (withPadding (septets s))).flatMap Utf8.unit = received s := by
    rw [withPadding, ucs2Of_septets hs, flatMap_append, received, flatMap_map]
    congr 1
    split_ifs <;> decide
  have ht := septets_lt hs
  rw [hgsm7]
  generalize septets s = t at hn ht hunits
  rw [maxUssdDataLen] at hn
  have hlen : (withPadding t).length ≤ maxUssdDataLen := by
    rw [length_withPadding, packedLength, maxUssdDataLen]
    omega
  have hcells : packedLength t.length = 0 ∨
      packedLength t.length - 1 + (packedLength t.length - 1) / 7 + 1 < maxUssdDataLen := by
    rw [packedLength, maxUssdDataLen]
    omega
  have hunpack := unpackingGsm7bit_eq (paddedSeptets_lt ht) hcells
  rw [← packedBytes, ← length_withPadding] at hunpack
  have hload := load_unpackedCell (paddedSeptets t t.length)
    (length_withPadding t ▸ hlen :
      packedLength t.length + packedLength t.length / 7 ≤ maxUssdDataLen)
  rw [map_paddedSeptets, ← length_withPadding] at hload
  have halphabet := gsm7bitToUcs2Loop_eq (withPadding t) [] (List.replicate maxUssdDataLen 0)
    (by simpa using hlen)
  simp only [nil_append, length_nil, Nat.zero_add] at halphabet
  have hutf8 := ucs2ToUtf8Loop_eq (ucs2Of (withPadding t)) [] dst (by rw [hunits]; exact hroom)
    (by simpa using hmax)
  simp only [nil_append, length_nil, Nat.zero_add, hunits] at hutf8
  simp only [decodingGsm7bit, hunpack, hload, convertGsm7bitToUcs2, halphabet, Block.load_front,
    convertUcs2ToUtf8, hutf8, bind_eq_bind, bind_some, emitted]

/-- A text of `MAX_USSD_DATA_LEN` septets makes the decoder write behind
`Gsm7`. -/
theorem decodingUssd_sent_eq_none {dst : List BYTE} {dcs : BYTE}
    (hn : (septets s).length = maxUssdDataLen) (hdcs : IsDefaultAlphabet dcs) :
    decodingUssd dcs (packedBytes (septets s)) dst = none := by
  have hlong : 159 < (packedBytes (septets s)).length := by
    rw [packedBytes_length, hn, packedLength, maxUssdDataLen]
    omega
  unfold decodingUssd
  rcases hdcs with hdcs | hdcs <;> rw [hdcs] <;> exact decodingGsm7bit_eq_none hlong

/-- **Which texts survive**: those without an underscore and without a
form feed, whose septets neither leave the last place of a group free nor
fill the whole array. -/
theorem textSurvives_iff {s : List BYTE} (hs : ∀ c ∈ s, InAlphabet c)
    (hn : (septets s).length ≤ maxUssdDataLen) :
    TextSurvives s ↔ (∀ c ∈ s, c ≠ 0x5F ∧ c ≠ 0x0C) ∧ (septets s).length % 8 ≠ 7 ∧
      (septets s).length ≠ maxUssdDataLen := by
  have hstray (c : BYTE) : isStray c = false ↔ c ≠ 0x5F ∧ c ≠ 0x0C := by
    simp [isStray]
  have hscheme : IsDefaultAlphabet 0x0F := Or.inl (by decide)
  simp only [← hstray]
  constructor
  · rintro ⟨encoded, hsent, hback⟩
    rw [buildSendUssd_eq hn, some.injEq] at hsent
    subst hsent
    -- a destination with room for whatever comes back
    have hdst := hback 0x0F (List.replicate 400 0) hscheme
      (by have := length_le_septets s; rw [length_replicate]; rw [maxUssdDataLen] at hn; omega)
      (by rw [length_replicate]; decide)
    have hfull : (septets s).length ≠ maxUssdDataLen := by
      intro hfull
      rw [decodingUssd_sent_eq_none hfull hscheme] at hdst
      exact absurd hdst (some_ne_none _).symm
    have hlen := length_flatMap_echo hs
    have hroom : (received s).length + 3 ≤ (List.replicate 400 (0 : BYTE)).length := by
      have hle := length_le_septets s
      have hcount := countP_le_length (p := isStray) (l := s)
      rw [maxUssdDataLen] at hn
      rw [received, length_append, hlen, length_replicate]
      split_ifs <;> simp only [length_cons, length_nil] <;> omega
    rw [decodingUssd_sent hs (Nat.lt_of_le_of_ne hn hfull) hscheme hroom
      (by rw [length_replicate]; decide), some.injEq] at hdst
    have hsame := congrArg List.length (eq_of_emitted_eq hdst)
    rw [received, length_append, hlen] at hsame
    refine ⟨?_, ?_, hfull⟩
    · have hzero : s.countP isStray = 0 := by omega
      intro c hc
      simpa using countP_eq_zero.mp hzero c hc
    · intro h7
      rw [if_pos h7, length_singleton] at hsame
      omega
  · rintro ⟨hgood, h7, hfull⟩
    refine ⟨_, buildSendUssd_eq hn, fun dcs dst hdcs hroom hmax => ?_⟩
    have htext : received s = s := by
      rw [received, flatMap_echo hs hgood, if_neg h7, append_nil]
    have hsent := decodingUssd_sent hs (Nat.lt_of_le_of_ne hn hfull) hdcs
      (by rw [htext]; exact hroom) hmax
    rwa [htext] at hsent

/-- `*1#[`, with an escape for its bracket. -/
theorem textSurvives_bracket : TextSurvives [0x2A, 0x31, 0x23, 0x5B] :=
  (textSurvives_iff (by decide +kernel) (by decide)).mpr (by decide)

/-- **An underscore does not survive**: it comes back as a section sign. -/
theorem not_textSurvives_underscore : ¬ TextSurvives [0x5F] := by
  rintro ⟨encoded, hsent, hback⟩
  have hs : ∀ c ∈ [(0x5F : BYTE)], InAlphabet c := by decide +kernel
  rw [buildSendUssd_eq (by decide), some.injEq] at hsent
  subst hsent
  have hdst := hback 0x0F (List.replicate 8 0) (Or.inl (by decide)) (by decide) (by decide)
  rw [decodingUssd_sent hs (by decide) (Or.inl (by decide)) (by decide) (by decide),
    some.injEq] at hdst
  exact absurd (eq_of_emitted_eq hdst) (by decide)

end ExynosVendor.Ril
