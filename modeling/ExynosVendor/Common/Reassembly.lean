import ExynosVendor.Common.Block
import Mathlib.Data.List.FinRange
import Mathlib.Data.List.Perm.Subperm
import Mathlib.Algebra.Ring.Int.Defs
import Mathlib.Algebra.Ring.Nat

/-!
# Putting messages together again

Messages come in segments of one size, and a receiver has a few slots to put them
together in. The first segment of a message takes a slot that is free; the others find
theirs by the key of the message. A message is complete when it has as many bytes as it
was announced to have, and its slot is free again.

Whatever the segments of other messages do in between, a message sees only its own: the
slots are as good as one for every key (`run_of_runKey`), as long as there are no more keys
than slots.
-/

namespace ExynosVendor.Reassembly

open List Option

variable {κ τ α : Type} [DecidableEq κ]

/-- A segment of a message. The `tag` is what comes along with it; that of the first segment
stays with the message. -/
structure Segment (κ τ α : Type) where
  key : κ
  tag : τ
  data : List α
  index : ℕ
  total : ℕ

/-- A message of which some segments have come. -/
structure Partial (κ τ α : Type) where
  key : κ
  tag : τ
  buffer : List α
  total : ℕ
  got : ℕ

/-- What comes of a segment. -/
inductive Outcome (κ τ α : Type) where
  /-- There is no slot for a first segment. -/
  | full
  /-- No slot has the key of a later one. -/
  | notFound
  /-- It does not fit into the buffer. -/
  | fault
  | partly (slots : List (Option (Partial κ τ α)))
  | complete (e : Partial κ τ α) (slots : List (Option (Partial κ τ α)))

variable (size : ℕ) (fill : ℕ → α)

/-- A message that is new. -/
def start (seg : Segment κ τ α) : Partial κ τ α :=
  ⟨seg.key, seg.tag, Allocator.exact.alloc fill seg.total, seg.total, 0⟩

/-- A message with a segment more. -/
def Partial.add (e : Partial κ τ α) (seg : Segment κ τ α) : Option (Partial κ τ α) :=
  (Block.store e.buffer (seg.index * size) seg.data).map fun buffer =>
    { e with buffer := buffer, got := e.got + seg.data.length }

/-- A slot with a message of a key. -/
def holds (k : κ) (slot : Option (Partial κ τ α)) : Bool := slot.any fun e => e.key = k

/-- A segment is added to a message in a slot. -/
def addAt (slots : List (Option (Partial κ τ α))) (i : ℕ) (e : Partial κ τ α)
    (seg : Segment κ τ α) : Outcome κ τ α :=
  match e.add size seg with
  | none => .fault
  | some e =>
      if e.total ≤ e.got then .complete e (slots.set i none) else .partly (slots.set i (some e))

/-- **What the receiver does with a segment.** -/
def accept (slots : List (Option (Partial κ τ α))) (seg : Segment κ τ α) : Outcome κ τ α :=
  if seg.index = 0 then
    match slots.findIdx? Option.isNone with
    | none => .full
    | some i => addAt size slots i (start fill seg) seg
  else
    match slots.findIdx? (holds seg.key) with
    | none => .notFound
    | some i =>
        match slots[i]?.join with
        | none => .notFound
        | some e => addAt size slots i e seg

/-- The messages that are completed by some segments, and the slots afterwards. -/
def run : List (Option (Partial κ τ α)) → List (Segment κ τ α) →
    Option (List (Option (Partial κ τ α)) × List (Partial κ τ α))
  | slots, [] => some (slots, [])
  | slots, seg :: segs =>
      match accept size fill slots seg with
      | .partly slots => run slots segs
      | .complete e slots => (run slots segs).map fun r => (r.1, e :: r.2)
      | _ => none

/-! ## One slot for every key -/

/-- What one message does with a segment of its own. -/
def stepKey (o : Option (Partial κ τ α)) (seg : Segment κ τ α) :
    Option (Option (Partial κ τ α) × Option (Partial κ τ α)) :=
  let base :=
    if seg.index = 0 then (if o.isNone then some (start fill seg) else none) else o
  (base.bind fun e => e.add size seg).map fun e =>
    if e.total ≤ e.got then (none, some e) else (some e, none)

/-- And with some. -/
def runKey : Option (Partial κ τ α) → List (Segment κ τ α) →
    Option (Option (Partial κ τ α) × List (Partial κ τ α))
  | o, [] => some (o, [])
  | o, seg :: segs =>
      (stepKey size fill o seg).bind fun r =>
        (runKey r.1 segs).map fun r' => (r'.1, r.2.toList ++ r'.2)

/-- The message of a key. -/
def lookup (k : κ) (slots : List (Option (Partial κ τ α))) : Option (Partial κ τ α) :=
  (slots.find? (holds k)).join

/-- **Slots in order**: no two have one key, and each has a key that is known. -/
structure Tidy (keys : List κ) (slots : List (Option (Partial κ τ α))) : Prop where
  distinct : ∀ (i j : ℕ) (e e' : Partial κ τ α), slots[i]? = some (some e) →
    slots[j]? = some (some e') → e.key = e'.key → i = j
  known : ∀ (i : ℕ) (e : Partial κ τ α), slots[i]? = some (some e) → e.key ∈ keys

variable {size fill} {keys : List κ} {slots : List (Option (Partial κ τ α))} {k : κ} {i : ℕ}
  {e : Partial κ τ α} {seg : Segment κ τ α}

theorem holds_iff {slot : Option (Partial κ τ α)} :
    holds k slot ↔ ∃ e, slot = some e ∧ e.key = k := by
  cases slot with
  | none => simp [holds]
  | some e => simp [holds]

theorem lookup_eq_some_iff (h : Tidy keys slots) :
    lookup k slots = some e ↔ e.key = k ∧ ∃ i : ℕ, slots[i]? = some (some e) := by
  unfold lookup
  cases hfind : slots.find? (holds k) with
  | none =>
    rw [find?_eq_none] at hfind
    refine iff_of_false (fun hn => some_ne_none e hn.symm) ?_
    rintro ⟨hkey, i, hi⟩
    exact hfind (some e) (mem_of_getElem? hi) (holds_iff.mpr ⟨e, rfl, hkey⟩)
  | some slot =>
    obtain ⟨e', rfl, hkey'⟩ := holds_iff.mp (find?_some hfind)
    obtain ⟨j, hj⟩ := getElem?_of_mem (mem_of_find?_eq_some hfind)
    constructor
    · intro heq
      obtain rfl := some.inj heq
      exact ⟨hkey', j, hj⟩
    · rintro ⟨hkey, i, hi⟩
      obtain rfl := h.distinct i j e e' hi hj (hkey.trans hkey'.symm)
      rw [hi] at hj
      exact (some.inj hj).symm

theorem lookup_eq_none_iff :
    lookup k slots = none ↔
      ∀ (i : ℕ) (e : Partial κ τ α), slots[i]? = some (some e) → e.key ≠ k := by
  unfold lookup
  cases hfind : slots.find? (holds k) with
  | none =>
    rw [find?_eq_none] at hfind
    refine iff_of_true rfl fun i e hi hkey => ?_
    exact hfind (some e) (mem_of_getElem? hi) (holds_iff.mpr ⟨e, rfl, hkey⟩)
  | some slot =>
    obtain ⟨e, rfl, hkey⟩ := holds_iff.mp (find?_some hfind)
    obtain ⟨j, hj⟩ := getElem?_of_mem (mem_of_find?_eq_some hfind)
    exact iff_of_false (some_ne_none e) fun hall => hall j e hj hkey

omit [DecidableEq κ] in
theorem tidy_replicate (keys : List κ) (n : ℕ) :
    Tidy keys (List.replicate n (none : Option (Partial κ τ α))) := by
  have hfree (i : ℕ) (e : Partial κ τ α) :
      (List.replicate n (none : Option (Partial κ τ α)))[i]? ≠ some (some e) := by
    intro he
    have hmem := eq_of_mem_replicate (mem_of_getElem? he)
    exact absurd hmem (some_ne_none e)
  exact ⟨fun i j e e' he => absurd he (hfree i e), fun i e he => absurd he (hfree i e)⟩

theorem lookup_replicate (k : κ) (n : ℕ) :
    lookup k (List.replicate n (none : Option (Partial κ τ α))) = none := by
  rw [lookup_eq_none_iff]
  intro i e he
  have hmem := eq_of_mem_replicate (mem_of_getElem? he)
  exact absurd hmem (some_ne_none e)

/-- **Slots are all free** when nothing is found under any key. -/
theorem Tidy.eq_replicate_iff (h : Tidy keys slots) :
    slots = List.replicate slots.length none ↔ ∀ k ∈ keys, lookup k slots = none := by
  constructor
  · intro hfree k _
    rw [hfree]
    exact lookup_replicate k slots.length
  · intro hnone
    refine List.eq_replicate_iff.mpr ⟨rfl, fun slot hslot => ?_⟩
    cases slot with
    | none => rfl
    | some e =>
      obtain ⟨i, hi⟩ := getElem?_of_mem hslot
      have hfound := (lookup_eq_some_iff h).mpr ⟨rfl, i, hi⟩
      exact absurd ((hnone e.key (h.known i e hi)).symm.trans hfound) (by simp)

/-- **Writing a slot** that is free or has the key changes what is found under that key and
under no other. -/
theorem Tidy.set (h : Tidy keys slots) (hk : k ∈ keys) (hi : i < slots.length)
    (hslot : ∀ e : Partial κ τ α, slots[i]? = some (some e) → e.key = k)
    (hother : ∀ (j : ℕ) (e : Partial κ τ α), slots[j]? = some (some e) → e.key = k → j = i)
    {o : Option (Partial κ τ α)} (ho : ∀ e : Partial κ τ α, o = some e → e.key = k) :
    Tidy keys (slots.set i o) ∧ lookup k (slots.set i o) = o ∧
      ∀ k', k' ≠ k → lookup k' (slots.set i o) = lookup k' slots := by
  have hget (j : ℕ) : (slots.set i o)[j]? = if i = j then some o else slots[j]? := by
    rw [getElem?_set]
    by_cases hij : i = j
    · subst hij
      simp [hi]
    · simp [hij]
  have htidy : Tidy keys (slots.set i o) := by
    constructor
    · intro j j' e e' he he' hkey
      rw [hget] at he he'
      by_cases hj : i = j
      · rw [if_pos hj, some.injEq] at he
        by_cases hj' : i = j'
        · omega
        · rw [if_neg hj'] at he'
          have := hother j' e' he' (hkey ▸ ho e he)
          omega
      · rw [if_neg hj] at he
        by_cases hj' : i = j'
        · rw [if_pos hj', some.injEq] at he'
          have := hother j e he (hkey ▸ ho e' he')
          omega
        · rw [if_neg hj'] at he'
          exact h.distinct j j' e e' he he' hkey
    · intro j e he
      rw [hget] at he
      split at he
      · rw [ho e (some.inj he)]
        exact hk
      · exact h.known j e he
  refine ⟨htidy, ?_, fun k' hk' => ?_⟩
  · cases o with
    | none =>
      rw [lookup_eq_none_iff]
      intro j e he hkey
      rw [hget] at he
      split at he
      · exact some_ne_none e (some.inj he).symm
      · rename_i hij
        exact hij (hother j e he hkey).symm
    | some e =>
      rw [lookup_eq_some_iff htidy]
      exact ⟨ho e rfl, i, by rw [hget, if_pos rfl]⟩
  · have hsame (e : Partial κ τ α) : lookup k' (slots.set i o) = some e ↔
        lookup k' slots = some e := by
      rw [lookup_eq_some_iff htidy, lookup_eq_some_iff h]
      refine and_congr_right fun hkey => exists_congr fun j => ?_
      rw [hget]
      split
      · rename_i hij
        subst hij
        constructor
        · intro he
          exact absurd (hkey.symm.trans (ho e (some.inj he))) hk'
        · intro he
          exact absurd (hkey.symm.trans (hslot e he)) hk'
      · rfl
    exact Option.ext hsame

/-- **A new message finds a slot**: each of the slots has a different key, and one of the
keys is in none. -/
theorem Tidy.exists_free (h : Tidy keys slots) (hroom : keys.length ≤ slots.length)
    (hk : k ∈ keys) (hnone : lookup k slots = none) :
    ∃ i, slots.findIdx? Option.isNone = some i := by
  cases hfind : slots.findIdx? Option.isNone with
  | some i => exact ⟨i, rfl⟩
  | none =>
    exfalso
    rw [findIdx?_eq_none_iff] at hfind
    have hsome (i : ℕ) (hi : i < slots.length) : ∃ e, slots[i]? = some (some e) := by
      have hfull := hfind slots[i] (getElem_mem hi)
      rw [isNone_eq_false_iff, isSome_iff_exists] at hfull
      obtain ⟨e, he⟩ := hfull
      exact ⟨e, by rw [getElem?_eq_getElem hi, he]⟩
    let key (i : Fin slots.length) : κ := (hsome i i.2).choose.key
    have hkey (i : Fin slots.length) : key i ∈ keys.erase k := by
      have hspec := (hsome i i.2).choose_spec
      have hne : key i ≠ k := lookup_eq_none_iff.mp hnone i _ hspec
      exact (mem_erase_of_ne hne).mpr (h.known i _ hspec)
    have hinj : Function.Injective key := by
      intro i j hij
      have hspec := (hsome i i.2).choose_spec
      have hspec' := (hsome j j.2).choose_spec
      exact Fin.ext (h.distinct i j _ _ hspec hspec' hij)
    have hnodup : ((List.finRange slots.length).map key).Nodup :=
      (nodup_finRange _).map hinj
    have hsub : (List.finRange slots.length).map key ⊆ keys.erase k := by
      intro x hx
      obtain ⟨i, -, rfl⟩ := List.mem_map.mp hx
      exact hkey i
    have hlen := (subperm_of_subset hnodup hsub).length_le
    rw [length_map, length_finRange, length_erase_of_mem hk] at hlen
    have hpos := length_pos_of_mem hk
    omega

/-- Adding to a message that may be written to a slot. -/
theorem addAt_spec (h : Tidy keys slots) (hk : e.key ∈ keys) (hi : i < slots.length)
    (hslot : ∀ e' : Partial κ τ α, slots[i]? = some (some e') → e'.key = e.key)
    (hother : ∀ (j : ℕ) (e' : Partial κ τ α), slots[j]? = some (some e') → e'.key = e.key →
      j = i)
    {e' : Partial κ τ α} (hadd : e.add size seg = some e') :
    ∃ slots', addAt size slots i e seg =
        (if e'.total ≤ e'.got then .complete e' slots' else .partly slots') ∧
      Tidy keys slots' ∧ slots'.length = slots.length ∧
      lookup e.key slots' = (if e'.total ≤ e'.got then none else some e') ∧
      (∀ k', k' ≠ e.key → lookup k' slots' = lookup k' slots) ∧ e'.key = e.key := by
  have hkey : e'.key = e.key := by
    unfold Partial.add at hadd
    obtain ⟨buffer, -, rfl⟩ := map_eq_some_iff.mp hadd
    rfl
  unfold addAt
  rw [hadd]
  by_cases hdone : e'.total ≤ e'.got
  · have hset := h.set hk hi hslot hother (o := none) fun e hn => absurd hn.symm (by simp)
    refine ⟨slots.set i none, by simp [hdone], hset.1, length_set, ?_, hset.2.2, hkey⟩
    rw [if_pos hdone]
    exact hset.2.1
  · have hset := h.set hk hi hslot hother (o := some e') fun e₁ hn => by
      rw [← some.inj hn, hkey]
    refine ⟨slots.set i (some e'), by simp [hdone], hset.1, length_set, ?_, hset.2.2, hkey⟩
    rw [if_neg hdone]
    exact hset.2.1

/-- What is completed has the key of the segment. -/
theorem accept_key {slots' : List (Option (Partial κ τ α))}
    (h : accept size fill slots seg = .complete e slots') : e.key = seg.key := by
  have haddAt {i : ℕ} {e₁ : Partial κ τ α} (hadd : addAt size slots i e₁ seg =
      .complete e slots') : e.key = e₁.key := by
    unfold addAt at hadd
    cases hseg : e₁.add size seg with
    | none => simp [hseg] at hadd
    | some e₂ =>
      obtain ⟨buffer, -, rfl⟩ := map_eq_some_iff.mp hseg
      simp only [hseg] at hadd
      split at hadd
      · rw [← (Outcome.complete.inj hadd).1]
      · contradiction
  unfold accept at h
  split at h
  · split at h
    · contradiction
    · exact haddAt h
  · split at h
    · contradiction
    · rename_i i hfind
      split at h
      · contradiction
      · rename_i e₁ hjoin
        obtain ⟨hlt, hholds, -⟩ := findIdx?_eq_some_iff_getElem.mp hfind
        obtain ⟨e₂, he₂, hkey⟩ := holds_iff.mp hholds
        rw [getElem?_eq_getElem hlt, he₂] at hjoin
        obtain rfl : e₂ = e₁ := some.inj hjoin
        exact (haddAt h).trans hkey

/-- **A segment is only of its own message's concern.** -/
theorem accept_of_stepKey (h : Tidy keys slots) (hroom : keys.length ≤ slots.length)
    (hk : seg.key ∈ keys) {r : Option (Partial κ τ α) × Option (Partial κ τ α)}
    (hstep : stepKey size fill (lookup seg.key slots) seg = some r) :
    ∃ slots', accept size fill slots seg =
        r.2.elim (.partly slots') (fun e => .complete e slots') ∧
      Tidy keys slots' ∧ slots'.length = slots.length ∧ lookup seg.key slots' = r.1 ∧
      (∀ k', k' ≠ seg.key → lookup k' slots' = lookup k' slots) ∧
      ∀ e, r.2 = some e → e.key = seg.key := by
  -- Where the message is, or goes.
  obtain ⟨i, e, hi, hkey, hslot, hother, haccept, hadd⟩ :
      ∃ i e, i < slots.length ∧ e.key = seg.key ∧
        (∀ e' : Partial κ τ α, slots[i]? = some (some e') → e'.key = seg.key) ∧
        (∀ (j : ℕ) (e' : Partial κ τ α), slots[j]? = some (some e') → e'.key = seg.key →
          j = i) ∧
        accept size fill slots seg = addAt size slots i e seg ∧
        (e.add size seg).map
          (fun e => if e.total ≤ e.got then (none, some e) else (some e, none)) = some r := by
    unfold stepKey at hstep
    by_cases hindex : seg.index = 0
    · cases hlookup : lookup seg.key slots with
      | some e => simp [hindex, hlookup] at hstep
      | none =>
        obtain ⟨i, hi⟩ := h.exists_free hroom hk hlookup
        obtain ⟨hlt, hnone, -⟩ := findIdx?_eq_some_iff_getElem.mp hi
        have hempty : slots[i]? = some none := by
          rw [getElem?_eq_getElem hlt, isNone_iff_eq_none.mp hnone]
        refine ⟨i, start fill seg, hlt, rfl, fun e' he' => ?_, fun j e' he' hkey' => ?_, ?_, ?_⟩
        · rw [hempty] at he'
          exact absurd (some.inj he') (by simp)
        · exact absurd hkey' (lookup_eq_none_iff.mp hlookup j e' he')
        · simp [accept, hindex, hi]
        · simpa [hindex, hlookup] using hstep
    · cases hlookup : lookup seg.key slots with
      | none => simp [hindex, hlookup] at hstep
      | some e =>
        obtain ⟨hkey, j, hj⟩ := (lookup_eq_some_iff h).mp hlookup
        cases hfind : slots.findIdx? (holds seg.key) with
        | none =>
          rw [findIdx?_eq_none_iff] at hfind
          have hholds := hfind (some e) (mem_of_getElem? hj)
          rw [holds_iff.mpr ⟨e, rfl, hkey⟩] at hholds
          exact Bool.noConfusion hholds
        | some i =>
          obtain ⟨hlt, hholds, -⟩ := findIdx?_eq_some_iff_getElem.mp hfind
          obtain ⟨e', he', hkey'⟩ := holds_iff.mp hholds
          have hat : slots[i]? = some (some e') := by
            rw [getElem?_eq_getElem hlt, he']
          obtain rfl := h.distinct i j e' e hat hj (hkey'.trans hkey.symm)
          rw [hat] at hj
          obtain rfl := some.inj (some.inj hj)
          refine ⟨i, e', hlt, hkey, fun e₁ he₁ => ?_, fun j e₁ he₁ hkey₁ => ?_, ?_, ?_⟩
          · rw [hat] at he₁
            rw [← some.inj (some.inj he₁)]
            exact hkey
          · exact h.distinct j i e₁ e' he₁ hat (hkey₁.trans hkey.symm)
          · simp [accept, hindex, hfind, hat]
          · simpa [hindex, hlookup] using hstep
  obtain ⟨e', he', rfl⟩ := map_eq_some_iff.mp hadd
  rw [← hkey] at hslot hother hk
  obtain ⟨slots', hadd', htidy, hlen, hlookup, hsame, hkey'⟩ :=
    addAt_spec h hk hi hslot hother he'
  rw [hkey] at hlookup hsame hkey'
  refine ⟨slots', ?_, htidy, hlen, ?_, hsame, ?_⟩
  · rw [haccept, hadd']
    by_cases hdone : e'.total ≤ e'.got
    · simp [hdone]
    · simp [hdone]
  · rw [hlookup]
    by_cases hdone : e'.total ≤ e'.got
    · simp [hdone]
    · simp [hdone]
  · intro e₁ he₁
    by_cases hdone : e'.total ≤ e'.got
    · simp only [hdone, if_true, some.injEq] at he₁
      rw [← he₁]
      exact hkey'
    · simp [hdone] at he₁

/-- The segments of a key, in their order. -/
def ofKey (k : κ) (segs : List (Segment κ τ α)) : List (Segment κ τ α) :=
  segs.filter fun seg => seg.key = k

/-- **Messages do not disturb each other.** When every message on its own can be put
together from its segments, so can all of them at once, and each comes out as it does on
its own. -/
theorem run_of_runKey {segs : List (Segment κ τ α)} (h : Tidy keys slots)
    (hroom : keys.length ≤ slots.length) (hkeys : ∀ seg ∈ segs, seg.key ∈ keys)
    {ends : κ → Option (Partial κ τ α) × List (Partial κ τ α)}
    (hends : ∀ k ∈ keys, runKey size fill (lookup k slots) (ofKey k segs) = some (ends k)) :
    ∃ r, run size fill slots segs = some r ∧ Tidy keys r.1 ∧ r.1.length = slots.length ∧
      (∀ k ∈ keys, lookup k r.1 = (ends k).1 ∧ r.2.filter (fun e => e.key = k) = (ends k).2) ∧
      ∀ e ∈ r.2, e.key ∈ keys := by
  induction segs generalizing slots ends with
  | nil =>
    refine ⟨(slots, []), rfl, h, rfl, fun k hk => ?_, fun e he => absurd he not_mem_nil⟩
    have hend : (lookup k slots, []) = ends k := some.inj (hends k hk)
    exact ⟨congrArg Prod.fst hend, congrArg Prod.snd hend⟩
  | cons seg segs ih =>
    have hk : seg.key ∈ keys := hkeys seg mem_cons_self
    have hown := hends seg.key hk
    have hcons : ofKey seg.key (seg :: segs) = seg :: ofKey seg.key segs := by
      simp [ofKey]
    rw [hcons, runKey] at hown
    obtain ⟨r, hstep, hrest⟩ := bind_eq_some_iff.mp hown
    obtain ⟨r', hrun, hend⟩ := map_eq_some_iff.mp hrest
    obtain ⟨slots', haccept, htidy, hlen, hlookup, hsame, hkey⟩ :=
      accept_of_stepKey h hroom hk hstep
    -- The other messages go on from where they are, this one from behind the segment.
    have hends' : ∀ k ∈ keys, runKey size fill (lookup k slots') (ofKey k segs) =
        some (if k = seg.key then r' else ends k) := by
      intro k hk'
      by_cases hkk : k = seg.key
      · subst hkk
        rw [if_pos rfl, hlookup, hrun]
      · have hother : ofKey k (seg :: segs) = ofKey k segs := by
          simp [ofKey, Ne.symm hkk]
        rw [if_neg hkk, hsame k hkk, ← hother]
        exact hends k hk'
    obtain ⟨last, hlast, htidy', hlen', hkeysLast, hknown⟩ :=
      ih htidy (by omega) (fun seg' hs => hkeys seg' (mem_cons_of_mem seg hs)) hends'
    refine ⟨(last.1, r.2.toList ++ last.2), ?_, htidy', hlen'.trans hlen, fun k hk' => ?_, ?_⟩
    · rw [run, haccept]
      cases hr : r.2 with
      | none => simp [hlast]
      | some e => simp [hlast]
    · obtain ⟨hfound, hcompleted⟩ := hkeysLast k hk'
      rw [filter_append, hcompleted]
      by_cases hkk : k = seg.key
      · subst hkk
        rw [if_pos rfl] at hfound ⊢
        rw [hfound, ← hend]
        refine ⟨rfl, ?_⟩
        cases hr : r.2 with
        | none => rfl
        | some e => simp [hkey e hr]
      · rw [if_neg hkk] at hfound ⊢
        refine ⟨hfound, ?_⟩
        cases hr : r.2 with
        | none => rfl
        | some e =>
          have hne : e.key ≠ k := by
            rw [hkey e hr]
            exact Ne.symm hkk
          simp [hne]
    · intro e he
      rcases mem_append.mp he with hnew | hold
      · rw [mem_toList] at hnew
        rw [hkey e hnew]
        exact hk
      · exact hknown e hold

/-- **What is complete is handed on**, segment by segment. -/
theorem foldlM_of_run {γ σ ι : Type} (state : List (Option (Partial κ τ α)) → γ → σ)
    {step : σ → ι → Option σ} (deliver : γ → Partial κ τ α → Option γ)
    {segment : ι → Segment κ τ α} {items : List ι}
    (hstep : ∀ i ∈ items, ∀ slots c, step (state slots c) i =
      match accept size fill slots (segment i) with
      | .partly slots' => some (state slots' c)
      | .complete e slots' => (deliver c e).map (state slots')
      | _ => step (state slots c) i)
    {c : γ} {slots slots' : List (Option (Partial κ τ α))} {es : List (Partial κ τ α)}
    (hrun : run size fill slots (items.map segment) = some (slots', es)) :
    items.foldlM step (state slots c) = (es.foldlM deliver c).map (state slots') := by
  induction items generalizing slots c es with
  | nil =>
    obtain ⟨rfl, rfl⟩ := Prod.mk.inj (some.inj hrun)
    rfl
  | cons i items ih =>
    rw [map_cons, run] at hrun
    have hrest := fun i' hi' => hstep i' (mem_cons_of_mem i hi')
    rw [foldlM_cons, hstep i mem_cons_self]
    cases haccept : accept size fill slots (segment i) with
    | full => simp [haccept] at hrun
    | notFound => simp [haccept] at hrun
    | fault => simp [haccept] at hrun
    | partly next =>
      simp only [haccept] at hrun
      exact ih hrest hrun
    | complete e next =>
      simp only [haccept] at hrun
      obtain ⟨r, hnext, hr⟩ := map_eq_some_iff.mp hrun
      obtain ⟨rfl, rfl⟩ := Prod.mk.inj hr
      rw [foldlM_cons]
      cases hdeliver : deliver c e with
      | none => simp [hdeliver]
      | some c' =>
        simp only [hdeliver, map_some]
        exact ih hrest hnext

end ExynosVendor.Reassembly
