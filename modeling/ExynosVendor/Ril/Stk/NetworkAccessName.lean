import ExynosVendor.Ril.Stk.TlvParser
import Mathlib.Data.List.TakeWhile

/-!
# The network access name

`NetworkAccessNameParser` makes a dotted name of the labels in the value of a NETWORK ACCESS NAME.
It counts down from the value's length, and only a label that is copied lowers the count: a length
byte that is not below the count is passed over, and from there on the count runs ahead of the
bytes. What the parser needs of a value is `Walks`: the walk over its length bytes ends before the
bytes do.

Labels alone are always walked. They come out joined by dots unless a terminator is among their
bytes, where `strncpy` and the string built from its result stop.
-/

namespace ExynosVendor.Ril.NetworkAccessName

open List Option

/-! ## The walk over the length bytes -/

/-- `strncpy` finds so many bytes, or a terminator before. -/
def Copyable (n : ℕ) (bytes : List BYTE) : Prop := n ≤ bytes.length ∨ 0 ∈ bytes

/-- **The walk ends inside the value**, from a count and the bytes not read yet. -/
inductive Walks : ℕ → List BYTE → Prop
  /-- The count is used up. -/
  | done {len : ℕ} {rest : List BYTE} (hlen : len ≤ 1) : Walks len rest
  /-- A label is copied. -/
  | label {len : ℕ} {strLen : BYTE} {rest : List BYTE} (hlen : 1 < len) (hlt : strLen.toNat < len)
      (hcopy : Copyable strLen.toNat rest)
      (h : Walks (len - (strLen.toNat + 1)) (rest.drop strLen.toNat)) : Walks len (strLen :: rest)
  /-- A length byte is passed over, for the same count. -/
  | skip {len : ℕ} {strLen : BYTE} {rest : List BYTE} (hlen : 1 < len) (hle : len ≤ strLen.toNat)
      (h : Walks len rest) : Walks len (strLen :: rest)

theorem not_walks_nil {len : ℕ} (hlen : 1 < len) : ¬ Walks len [] := by
  intro h
  cases h with
  | done hdone => omega

/-- A length byte below the count is a label's. -/
theorem walks_label_iff {len : ℕ} {strLen : BYTE} {rest : List BYTE} (hlen : 1 < len)
    (hlt : strLen.toNat < len) : Walks len (strLen :: rest) ↔
      Copyable strLen.toNat rest ∧ Walks (len - (strLen.toNat + 1)) (rest.drop strLen.toNat) := by
  constructor
  · intro h
    cases h with
    | done hdone => omega
    | label _ _ hcopy h => exact ⟨hcopy, h⟩
    | skip _ hle _ => omega
  · rintro ⟨hcopy, h⟩
    exact .label hlen hlt hcopy h

theorem walks_skip_iff {len : ℕ} {strLen : BYTE} {rest : List BYTE} (hlen : 1 < len)
    (hle : len ≤ strLen.toNat) : Walks len (strLen :: rest) ↔ Walks len rest := by
  constructor
  · intro h
    cases h with
    | done hdone => omega
    | label _ hlt _ _ => omega
    | skip _ _ h => exact h
  · exact .skip hlen hle

/-! ## The copy -/

variable {label : List BYTE} {labels : List (List BYTE)}

/-- What `strncpy` writes is as long as it was asked for. -/
theorem strncpy_length {n : ℕ} {bytes : List BYTE} (h : strncpy n bytes = some label) :
    label.length = n := by
  induction n generalizing bytes label with
  | zero =>
    obtain rfl := some.inj h
    rfl
  | succ n ih =>
    cases bytes with
    | nil => cases h
    | cons c rest =>
      rw [strncpy] at h
      split_ifs at h with hc
      · obtain rfl := some.inj h
        exact length_replicate
      · obtain ⟨tail, htail, rfl⟩ := map_eq_some_iff.mp h
        rw [length_cons, ih htail]

/-- **`strncpy` stays inside** exactly where the label or a terminator does. -/
theorem strncpy_isSome_iff {n : ℕ} {bytes : List BYTE} :
    (strncpy n bytes).isSome ↔ Copyable n bytes := by
  induction n generalizing bytes with
  | zero => exact iff_of_true rfl (.inl (Nat.zero_le _))
  | succ n ih =>
    cases bytes with
    | nil =>
      refine iff_of_false (by simp [strncpy]) ?_
      rintro (h | h)
      · exact absurd h (Nat.not_succ_le_zero n)
      · exact absurd h not_mem_nil
    | cons c rest =>
      rw [strncpy]
      by_cases hc : c = 0
      · rw [if_pos hc]
        exact iff_of_true rfl (.inr (hc ▸ mem_cons_self))
      · rw [if_neg hc, isSome_map, ih]
        unfold Copyable
        rw [length_cons, mem_cons, Nat.succ_le_succ_iff]
        exact or_congr_right ⟨.inr, fun h => h.resolve_left fun h0 => hc h0.symm⟩

theorem strncpy_append (h : 0 ∉ label) (rest : List BYTE) :
    strncpy label.length (label ++ rest) = some label := by
  induction label with
  | nil => rfl
  | cons c label ih =>
    rw [mem_cons, not_or] at h
    rw [length_cons, cons_append, strncpy, if_neg fun hc => h.1 hc.symm, ih h.2]
    rfl

/-! ## The loop -/

section Loop

variable {value : List BYTE}

/-- The loop's count is spent. -/
theorem loop_done {len : ℕ} (hlen : len ≤ 1) (index strIndex : ℕ) (strResult : List BYTE) :
    networkAccessNameLoop value len index strIndex strResult = some (strResult, strIndex) := by
  rw [networkAccessNameLoop, if_neg (by omega)]

/-- It reads past the value. -/
theorem loop_past {len index : ℕ} (hlen : 1 < len) (hindex : value.length ≤ index) (strIndex : ℕ)
    (strResult : List BYTE) : networkAccessNameLoop value len index strIndex strResult = none := by
  have hnone : value[index]? = none := getElem?_eq_none hindex
  rw [networkAccessNameLoop, if_pos (by omega)]
  split
  · rfl
  · rename_i hsome
    rw [hnone] at hsome
    cases hsome

/-- It takes a label. -/
theorem loop_label {len index : ℕ} {strLen : BYTE} (hlen : 1 < len)
    (hread : value[index]? = some strLen) (hlt : strLen.toNat < len) (strIndex : ℕ)
    (strResult : List BYTE) : networkAccessNameLoop value len index strIndex strResult =
      (strncpy strLen.toNat (value.drop (index + 1))).bind fun label =>
        (Block.store strResult strIndex label).bind fun strResult =>
          if 1 < len - (strLen.toNat + 1) then
            (Block.put strResult (strIndex + strLen.toNat) 0x2E).bind fun strResult =>
              networkAccessNameLoop value (len - (strLen.toNat + 1) : ℕ)
                (index + 1 + strLen.toNat) (strIndex + strLen.toNat + 1) strResult
          else some (strResult, strIndex + strLen.toNat) := by
  have hcast : ((len : ℤ) - ((strLen.toNat : ℤ) + 1)) = ((len - (strLen.toNat + 1) : ℕ) : ℤ) := by
    omega
  rw [networkAccessNameLoop, if_pos (by omega)]
  split
  · rename_i hnone
    rw [hread] at hnone
    cases hnone
  · rename_i strLen' hsome
    obtain rfl := some.inj (hread.symm.trans hsome)
    rw [if_pos (by omega)]
    simp only [bind_eq_bind, hcast, Nat.one_lt_cast]

/-- It passes a length byte over. -/
theorem loop_skip {len index : ℕ} {strLen : BYTE} (hlen : 1 < len)
    (hread : value[index]? = some strLen) (hle : len ≤ strLen.toNat) (strIndex : ℕ)
    (strResult : List BYTE) : networkAccessNameLoop value len index strIndex strResult =
      networkAccessNameLoop value len (index + 1) strIndex strResult := by
  rw [networkAccessNameLoop, if_pos (by omega)]
  split
  · rename_i hnone
    rw [hread] at hnone
    cases hnone
  · rename_i strLen' hsome
    obtain rfl := some.inj (hread.symm.trans hsome)
    rw [if_neg (by omega)]

/-- **The loop and the terminator behind it stay inside** exactly where the walk does: no more is
written than was read, and the block is twice the value. -/
theorem loop_isSome_iff (n : ℕ) : ∀ {len index strIndex : ℕ}
    {strResult : List BYTE}, value.length - index = n → len ≤ value.length → strIndex ≤ index →
      strIndex < value.length * 2 → value.length * 2 ≤ strResult.length →
        (((networkAccessNameLoop value len index strIndex strResult).bind fun end_ =>
          Block.put end_.1 end_.2 0).isSome ↔ Walks len (value.drop index)) := by
  induction n using Nat.strongRecOn with
  | ind n ih =>
    intro len index strIndex strResult hn hlen hle hroom hblock
    by_cases hdone : len ≤ 1
    · -- the terminator is all that is left
      obtain ⟨block, hput, -⟩ := Block.put_of_lt (0 : BYTE) (Nat.lt_of_lt_of_le hroom hblock)
      rw [loop_done hdone, bind_some, hput]
      exact iff_of_true rfl (.done hdone)
    · have hlen1 : 1 < len := by omega
      by_cases hindex : value.length ≤ index
      · rw [loop_past hlen1 hindex, drop_eq_nil_of_le hindex]
        exact iff_of_false (by simp) (not_walks_nil hlen1)
      · have hlt : index < value.length := by omega
        have hread : value[index]? = some value[index] := getElem?_eq_getElem hlt
        rw [drop_eq_getElem_cons hlt]
        by_cases hlabel : value[index].toNat < len
        -- the length byte counts a label
        · rw [loop_label hlen1 hread hlabel, walks_label_iff hlen1 hlabel, drop_drop,
            ← strncpy_isSome_iff]
          cases hcopy : strncpy value[index].toNat (value.drop (index + 1)) with
          | none => simp
          | some label =>
            have hlabelLen := strncpy_length hcopy
            have hfits : strIndex + label.length ≤ strResult.length := by omega
            obtain ⟨block, hstore, hsize⟩ := Block.store_of_le hfits
            rw [bind_some, hstore, bind_some]
            simp only [isSome_some, true_and]
            split_ifs with hmore
            · obtain ⟨block', hput, hsize'⟩ := Block.put_of_lt (b := block)
                (i := strIndex + value[index].toNat) (0x2E : BYTE) (by omega)
              rw [hput, bind_some]
              exact ih (value.length - (index + 1 + value[index].toNat)) (by omega) rfl
                (by omega) (by omega) (by omega) (by omega)
            · obtain ⟨block', hput, -⟩ := Block.put_of_lt (b := block)
                (i := strIndex + value[index].toNat) (0 : BYTE) (by omega)
              rw [bind_some, hput]
              exact iff_of_true rfl (.done (by omega))
        · rw [loop_skip hlen1 hread (by omega), walks_skip_iff hlen1 (by omega)]
          exact ih (value.length - (index + 1)) (by omega) rfl hlen (by omega) hroom hblock

end Loop

/-- **The parser stays inside** on a value, on any platform. -/
theorem parser_isSome_iff (P : Platform) {value : List BYTE} (hne : value ≠ []) :
    (networkAccessNameParser P value).isSome ↔ Walks value.length value := by
  have hpos : 0 < value.length := length_pos_iff.mpr hne
  have hroom : value.length * 2 ≤ (P.newBytes (value.length * 2)).length := by
    rw [Platform.newBytes_length]
    exact P.heap.le_usable _
  have hstart : 0 < value.length * 2 := by omega
  exact loop_isSome_iff (value.length - 0) rfl (Nat.le_refl _) (Nat.zero_le 0) hstart hroom

/-! ## Labels -/

/-- **A label**: its length is a byte, and not zero. -/
def IsLabel (label : List BYTE) : Prop := 1 ≤ label.length ∧ label.length < 256

/-- The value that labels make. -/
def encodeLabels (labels : List (List BYTE)) : List BYTE :=
  labels.flatMap fun label => BitVec.ofNat 8 label.length :: label

/-- The name they stand for. -/
def dotted (labels : List (List BYTE)) : List BYTE := ([0x2E] : List BYTE).intercalate labels

@[simp] theorem encodeLabels_nil : encodeLabels [] = [] := rfl

@[simp] theorem encodeLabels_cons (label : List BYTE) (labels : List (List BYTE)) :
    encodeLabels (label :: labels) =
      BitVec.ofNat 8 label.length :: (label ++ encodeLabels labels) := rfl

@[simp] theorem dotted_nil : dotted [] = [] := rfl

@[simp] theorem dotted_singleton (label : List BYTE) : dotted [label] = label := by
  simp [dotted, List.intercalate]

@[simp] theorem dotted_cons_cons (label next : List BYTE) (labels : List (List BYTE)) :
    dotted (label :: next :: labels) = label ++ 0x2E :: dotted (next :: labels) := by
  simp [dotted, List.intercalate]

theorem toNat_label (h : IsLabel label) :
    (BitVec.ofNat 8 label.length).toNat = label.length := by
  have hlt := h.2
  rw [BitVec.toNat_ofNat]
  omega

/-- The dots take the place of the length bytes behind the first. -/
theorem dotted_length (labels : List (List BYTE)) :
    (dotted labels).length = (encodeLabels labels).length - 1 := by
  induction labels with
  | nil => rfl
  | cons label labels ih =>
    cases labels with
    | nil => simp
    | cons next labels =>
      rw [dotted_cons_cons, encodeLabels_cons, length_append, length_cons,
        length_cons, length_append, ih]
      simp only [encodeLabels_cons, length_cons, length_append]
      omega

/-- A name has a terminator in it where a label has one. -/
theorem mem_dotted_zero :
    0 ∈ dotted labels ↔ ∃ label ∈ labels, 0 ∈ label := by
  induction labels with
  | nil => simp
  | cons label labels ih =>
    cases labels with
    | nil => simp
    | cons next labels =>
      have hdot : (0 : BYTE) ≠ 0x2E := by decide
      rw [dotted_cons_cons, mem_append, mem_cons, or_iff_right hdot, ih]
      simp only [mem_cons, exists_eq_or_imp]

/-- **The loop on labels** writes the name, behind what is there. -/
theorem loop_encodeLabels (h : ∀ label ∈ labels, IsLabel label)
    (hzero : ∀ label ∈ labels, 0 ∉ label) : ∀ (before p r : List BYTE),
      (dotted labels).length ≤ r.length →
        networkAccessNameLoop (before ++ encodeLabels labels) (encodeLabels labels).length
            before.length p.length (p ++ r) =
          some (p ++ dotted labels ++ r.drop (dotted labels).length,
            p.length + (dotted labels).length) := by
  induction labels with
  | nil =>
    intro before p r _
    rw [loop_done (by simp)]
    simp
  | cons label labels ih =>
    intro before p r hroom
    have hlabel := h label mem_cons_self
    have hpos := hlabel.1
    have hlen := toNat_label hlabel
    have hfits : label.length ≤ r.length := by
      have hdotted := dotted_length (label :: labels)
      rw [encodeLabels_cons, length_cons, length_append] at hdotted
      omega
    have hread : (before ++ encodeLabels (label :: labels))[before.length]? =
        some (BitVec.ofNat 8 label.length) := by
      rw [encodeLabels_cons, getElem?_append_right (Nat.le_refl _), Nat.sub_self,
        getElem?_cons_zero]
    have hdrop : (before ++ encodeLabels (label :: labels)).drop (before.length + 1) =
        label ++ encodeLabels labels := by
      rw [encodeLabels_cons, drop_append, drop_eq_nil_of_le (Nat.le_succ _)]
      simp
    have hcount : (encodeLabels (label :: labels)).length - (label.length + 1) =
        (encodeLabels labels).length := by
      rw [encodeLabels_cons, length_cons, length_append]
      omega
    have hlen1 : 1 < (encodeLabels (label :: labels)).length := by
      rw [encodeLabels_cons, length_cons, length_append]
      omega
    have hlt : (BitVec.ofNat 8 label.length).toNat < (encodeLabels (label :: labels)).length := by
      rw [hlen, encodeLabels_cons, length_cons, length_append]
      omega
    rw [loop_label hlen1 hread hlt, hlen, hdrop, hcount, strncpy_append (hzero label mem_cons_self),
      bind_some, Block.store_behind hfits, bind_some]
    cases labels with
    | nil => simp
    | cons next labels =>
      have hnext := h next (mem_cons_of_mem _ mem_cons_self)
      have hmore : 1 < (encodeLabels (next :: labels)).length := by
        have := hnext.1
        rw [encodeLabels_cons, length_cons, length_append]
        omega
      rw [dotted_cons_cons, length_append, length_cons] at hroom
      have hdot : 0 < (r.drop label.length).length := by
        rw [length_drop]
        omega
      -- a dot between the labels
      have hput : Block.put (p ++ label ++ r.drop label.length) (p.length + label.length) 0x2E =
          some (p ++ label ++ [0x2E] ++ (r.drop label.length).drop 1) := by
        rw [← length_append]
        exact Block.put_behind hdot
      have hrest := ih (fun l hl => h l (mem_cons_of_mem _ hl))
        (fun l hl => hzero l (mem_cons_of_mem _ hl))
        (before ++ BitVec.ofNat 8 label.length :: label) (p ++ label ++ [0x2E])
        ((r.drop label.length).drop 1) (by
          rw [length_drop, length_drop]
          omega)
      rw [if_pos hmore, hput, bind_some]
      convert hrest using 2
      · simp
      · simp only [length_append, length_cons]
        omega
      · simp only [length_append, length_cons, length_nil]
      · simp only [dotted_cons_cons, append_assoc, cons_append, nil_append,
          drop_drop, length_append, length_cons, length_nil, Prod.mk.injEq]
        constructor
        · congr 5
          omega
        · omega

/-- And so the parser, whose terminator ends the name. -/
theorem parser_encodeLabels (P : Platform) (hne : labels ≠ []) (h : ∀ label ∈ labels, IsLabel label)
    (hzero : ∀ label ∈ labels, 0 ∉ label) :
    ∃ tail, networkAccessNameParser P (encodeLabels labels) = some (dotted labels ++ 0 :: tail) := by
  have hlen := dotted_length labels
  have hpos : 0 < (encodeLabels labels).length := by
    cases labels with
    | nil => exact absurd rfl hne
    | cons label labels => simp
  have hroom := P.heap.le_usable ((encodeLabels labels).length * 2)
  rw [← Platform.newBytes_length] at hroom
  have hloop := loop_encodeLabels h hzero [] [] (P.newBytes ((encodeLabels labels).length * 2))
    (by omega)
  have hrest : 0 < ((P.newBytes ((encodeLabels labels).length * 2)).drop
      (dotted labels).length).length := by
    rw [length_drop]
    omega
  simp only [nil_append, length_nil, Nat.zero_add] at hloop
  unfold networkAccessNameParser
  rw [hloop, bind_eq_bind, bind_some]
  dsimp only
  rw [Block.put_behind hrest]
  exact ⟨_, by rw [append_assoc, singleton_append]⟩

/-! ## The object's name -/

/-- **A value is parsed**: inside its bytes and inside the result, and into the dotted name if
labels make it. -/
def Parses (P : Platform) (cTag : BYTE) (value : List BYTE) : Prop :=
  ∃ name, NetworkAccessName.read P (CTLV.ofValue cTag value) = some (.networkAccessName name) ∧
    ∀ labels, (∀ label ∈ labels, IsLabel label) → value = encodeLabels labels →
      name = dotted labels

/-- **A value is parsed exactly where it is walked**, and no label in it has a terminator. -/
theorem parses_iff (P : Platform) (cTag : BYTE) (value : List BYTE) :
    Parses P cTag value ↔ Walks value.length value ∧
      ∀ labels, (∀ label ∈ labels, IsLabel label) → value = encodeLabels labels →
        ∀ label ∈ labels, 0 ∉ label := by
  unfold Parses
  rw [NetworkAccessName.read, atLeast_ofValue]
  by_cases hnil : value = []
  · -- an empty value has no labels, and is not parsed
    subst hnil
    have hempty (labels : List (List BYTE)) (heq : [] = encodeLabels labels) : labels = [] := by
      cases labels with
      | nil => rfl
      | cons label labels => exact absurd heq (cons_ne_nil _ _).symm
    refine iff_of_true ⟨[], rfl, fun labels _ heq => ?_⟩ ⟨.done (Nat.zero_le 1), ?_⟩
    · rw [hempty labels heq]
      rfl
    · intro labels _ heq label hmem
      rw [hempty labels heq] at hmem
      exact absurd hmem not_mem_nil
  · have hpos : 1 ≤ value.length := length_pos_iff.mpr hnil
    rw [if_pos hpos, ← parser_isSome_iff P hnil]
    constructor
    · rintro ⟨name, hread, hname⟩
      obtain ⟨psz, hparser, hsome⟩ := bind_eq_some_iff.mp hread
      obtain rfl := TlvFields.networkAccessName.inj (some.inj hsome)
      refine ⟨isSome_of_eq_some hparser, fun labels hlabels heq label hmem hzero => ?_⟩
      -- a C string has no terminator in it
      have hin : 0 ∈ dotted labels := mem_dotted_zero.mpr ⟨label, hmem, hzero⟩
      rw [← hname labels hlabels heq] at hin
      have hkept := mem_takeWhile_imp hin
      exact absurd hkept (by decide)
    · rintro ⟨hsome, hzero⟩
      obtain ⟨psz, hparser⟩ := isSome_iff_exists.mp hsome
      refine ⟨psz.takeWhile fun b => b != 0, ?_, fun labels hlabels heq => ?_⟩
      · dsimp only [bind_eq_bind]
        rw [hparser, bind_some]
      · have hne : labels ≠ [] := by
          rintro rfl
          exact hnil heq
        have hfree := hzero labels hlabels heq
        obtain ⟨tail, htail⟩ := parser_encodeLabels P hne hlabels hfree
        rw [← heq, hparser, some.injEq] at htail
        have hall : ∀ b ∈ dotted labels, (b != 0) = true := fun b hb => by
          rw [bne_iff_ne]
          rintro rfl
          obtain ⟨label, hmem, hin⟩ := mem_dotted_zero.mp hb
          exact hfree label hmem hin
        rw [htail, takeWhile_append_of_pos hall]
        simp

/-- **An access point written without length bytes** is read past its end: no byte of it is below
its length. -/
theorem not_parses_internet : ¬ Parses (Platform.strict (fun _ => 0) (fun _ => 0)) 0x47
    [0x69, 0x6E, 0x74, 0x65, 0x72, 0x6E, 0x65, 0x74] := by
  rintro ⟨name, hread, -⟩
  rw [NetworkAccessName.read, atLeast_ofValue, if_pos (by decide)] at hread
  obtain ⟨psz, hparser, -⟩ := bind_eq_some_iff.mp hread
  have hwalks := (parser_isSome_iff _ (cons_ne_nil _ _)).mp (isSome_of_eq_some hparser)
  iterate 8 rw [walks_skip_iff (by decide) (by decide)] at hwalks
  exact not_walks_nil (by decide) hwalks

end ExynosVendor.Ril.NetworkAccessName
