import ExynosVendor.Ril.External.RawSplit

/-!
# Raw messages in flight

`Traffic` is what is in flight in one direction: at most as many messages as there are slots,
known by different keys, whose calls come in order for each message and in any order between
messages. Every client is a process of its own, so what comes to one of them is traffic of
its own.

The receiver puts together the payloads that are `Ragged`, those whose last segment has any
bytes, and keeps a slot for each of the others (`Traffic.received`).
-/

namespace ExynosVendor.Ril.External

open Reassembly
open List hiding lookup_replicate

/-- A payload that has to be sent in segments, and that a client may be sent. -/
structure Message (κ σ : Type) where
  key : κ
  tag : σ
  data : List UInt8
  long : maxRadioDataSize < data.length
  short : data.length ≤ rilcMaxResponsePayloadSize

/-- **A payload with a last segment** that has bytes: its length is no multiple of the size
of a segment. -/
def Message.Ragged {κ σ : Type} (m : Message κ σ) : Prop := m.data.length % maxRadioDataSize ≠ 0

instance {κ σ : Type} (m : Message κ σ) : Decidable m.Ragged := inferInstanceAs (Decidable (_ ≠ _))

/-- **Messages in flight**, each with the calls that `send` makes for it. -/
structure Traffic {κ σ τ : Type} [DecidableEq κ] (send : Message κ σ → List (Call κ τ)) where
  messages : List (Message κ σ)
  few : messages.length ≤ maxNumRawSegment
  distinct : (messages.map Message.key).Nodup
  schedule : List (Call κ τ)
  inOrder : ∀ m ∈ messages, schedule.filter (fun c => c.key = m.key) = send m
  known : ∀ c ∈ schedule, c.key ∈ messages.map Message.key

/-! ## What the receivers have in common -/

variable {κ σ τ : Type} [DecidableEq κ]

theorem perm_of_filter_key {β : Type} (key : β → κ) {l l' : List β}
    (h : ∀ k, l.filter (fun x => key x = k) = l'.filter fun x => key x = k) : l.Perm l' := by
  classical
  rw [perm_iff_count]
  intro x
  have hcount (ys : List β) : (ys.filter fun y => key y = key x).count x = ys.count x :=
    count_filter (decide_eq_true rfl)
  rw [← hcount l, h (key x), hcount l']

/-- A list whose keys are different has one element of each. -/
theorem filter_key_of_nodup {β : Type} {key : β → κ} {l : List β} (h : (l.map key).Nodup) {x : β}
    (hx : x ∈ l) : l.filter (fun y => key y = key x) = [x] := by
  induction l with
  | nil => exact absurd hx not_mem_nil
  | cons y l ih =>
    rw [map_cons, nodup_cons] at h
    rcases mem_cons.mp hx with rfl | hrest
    · have hnone : l.filter (fun y => key y = key x) = [] := by
        rw [filter_eq_nil_iff]
        intro z hz hkey
        exact h.1 (mem_map.mpr ⟨z, hz, of_decide_eq_true hkey⟩)
      rw [filter_cons_of_pos (by simp), hnone]
    · have hne : key y ≠ key x := fun hkey =>
        h.1 (mem_map.mpr ⟨x, hrest, hkey.symm⟩)
      rw [filter_cons_of_neg (by simpa using hne)]
      exact ih h.2 hrest

variable {send : Message κ σ → List (Call κ τ)} (conv : σ → τ) (fill : ℕ → UInt8)

/-- A message as the receiver has it in the end. -/
def Message.received (m : Message κ σ) : Partial κ τ UInt8 :=
  whole m.key (conv m.tag) m.data

/-- What the receiver goes by, in the order of the calls. -/
def Traffic.segments (T : Traffic send) : List (Segment κ τ UInt8) :=
  T.schedule.map fun c => c.segment c.data

theorem Traffic.ofKey_segments (T : Traffic send) {m : Message κ σ} (hm : m ∈ T.messages) :
    ofKey m.key T.segments = (send m).map fun c => c.segment c.data := by
  rw [ofKey, Traffic.segments, filter_map, ← T.inOrder m hm]
  rfl

/-- **What comes of the traffic**: the ragged payloads, each once, and a slot is taken for
each of the others. -/
theorem Traffic.received (T : Traffic send)
    (hsend : ∀ m ∈ T.messages, send m = split m.key (conv m.tag) m.data) :
    ∃ slots es,
      Reassembly.run maxRadioDataSize fill (List.replicate maxNumRawSegment none) T.segments =
        some (slots, es) ∧
      es.Perm ((T.messages.filter fun m => m.Ragged).map (Message.received conv)) ∧
      (slots = List.replicate maxNumRawSegment none ↔ ∀ m ∈ T.messages, m.Ragged) := by
  have hpos : 0 < maxRadioDataSize := Nat.two_pow_pos 11
  have hown (k : κ) (hk : k ∈ T.messages.map Message.key) :
      ∃ r, runKey maxRadioDataSize fill (lookup k (List.replicate maxNumRawSegment none))
          (ofKey k T.segments) = some r ∧
        ∀ m ∈ T.messages, m.key = k → r = if m.Ragged then (none, [m.received conv]) else
          (some (part fill m.key (conv m.tag) m.data (m.data.length - maxRadioDataSize)), []) := by
    obtain ⟨m, hm, rfl⟩ := mem_map.mp hk
    have hrun := runKey_split m.key (conv m.tag) fill (show 0 < m.data.length by
      have hlong := m.long
      omega)
    rw [lookup_replicate, T.ofKey_segments hm, hsend m hm, hrun]
    refine ⟨_, rfl, fun m' hm' hkey => ?_⟩
    obtain rfl := inj_on_of_nodup_map T.distinct hm' hm hkey
    by_cases hragged : m'.data.length % maxRadioDataSize = 0
    · have hfull : ¬ m'.Ragged := not_not_intro hragged
      rw [if_pos hragged, if_neg hfull]
    · have hfull : m'.Ragged := hragged
      rw [if_neg hragged, if_pos hfull]
      rfl
  choose! ends hends hshape using hown
  have hkeys : ∀ seg ∈ T.segments, seg.key ∈ T.messages.map Message.key := by
    intro seg hseg
    obtain ⟨c, hc, rfl⟩ := mem_map.mp hseg
    exact T.known c hc
  have hroom : (T.messages.map Message.key).length ≤
      (List.replicate maxNumRawSegment (none : Option (Partial κ τ UInt8))).length := by
    rw [length_map, length_replicate]
    exact T.few
  obtain ⟨⟨slots, es⟩, hrun, htidy, hlen, hall, hknown⟩ :=
    run_of_runKey (tidy_replicate _ maxNumRawSegment) hroom hkeys hends
  rw [length_replicate] at hlen
  refine ⟨slots, es, hrun, perm_of_filter_key Partial.key fun k => ?_, ?_⟩
  · -- Key by key: one payload, or none.
    have hreceived (m : Message κ σ) : (m.received conv).key = m.key := rfl
    rw [filter_map]
    simp only [Function.comp_def, hreceived]
    by_cases hk : k ∈ T.messages.map Message.key
    · obtain ⟨m, hm, rfl⟩ := mem_map.mp hk
      rw [(hall m.key hk).2, hshape m.key hk m hm rfl, filter_comm,
        filter_key_of_nodup T.distinct hm]
      by_cases hragged : m.Ragged
      · simp [hragged]
      · simp [hragged]
    · have hes : es.filter (fun e => e.key = k) = [] := by
        rw [filter_eq_nil_iff]
        intro e he hkey
        exact hk (of_decide_eq_true hkey ▸ hknown e he)
      have hms : (T.messages.filter fun m => m.Ragged).filter (fun m => m.key = k) = [] := by
        rw [filter_eq_nil_iff]
        intro m hm hkey
        exact hk (mem_map.mpr ⟨m, (mem_filter.mp hm).1, of_decide_eq_true hkey⟩)
      rw [hes, hms]
      rfl
  · rw [← hlen, htidy.eq_replicate_iff]
    constructor
    · intro hfree m hm
      have hk := mem_map_of_mem (f := Message.key) hm
      have hnone := (hall m.key hk).1.symm.trans (hfree m.key hk)
      rw [hshape m.key hk m hm rfl] at hnone
      by_contra hragged
      rw [if_neg hragged] at hnone
      exact absurd hnone (by simp)
    · intro hragged k hk
      obtain ⟨m, hm, rfl⟩ := mem_map.mp hk
      rw [(hall m.key hk).1, hshape m.key hk m hm rfl, if_pos (hragged m hm)]

theorem load_all (data : List UInt8) : Block.load data 0 data.length = some data := by
  have hload := Block.load_front data []
  rwa [append_nil] at hload

variable {conv}

omit [DecidableEq κ] in
theorem load_received (m : Message κ σ) :
    Block.load (m.received conv).buffer 0 (m.received conv).total = some m.data :=
  load_all m.data

variable {es : List (Partial κ τ UInt8)}

theorem received_of_perm {T : Traffic send}
    (hes : es.Perm ((T.messages.filter fun m => m.Ragged).map (Message.received conv)))
    {e : Partial κ τ UInt8} (he : e ∈ es) : ∃ m ∈ T.messages, e = m.received conv := by
  obtain ⟨m, hm, rfl⟩ := mem_map.mp (hes.mem_iff.mp he)
  exact ⟨m, (mem_filter.mp hm).1, rfl⟩

theorem perm_of_ragged {T : Traffic send}
    (hes : es.Perm ((T.messages.filter fun m => m.Ragged).map (Message.received conv)))
    (hragged : ∀ m ∈ T.messages, m.Ragged) :
    es.Perm (T.messages.map (Message.received conv)) := by
  have hfilter : (T.messages.filter fun m => m.Ragged) = T.messages :=
    filter_eq_self.mpr fun m hm => decide_eq_true (hragged m hm)
  rwa [hfilter] at hes

theorem Traffic.call_spec (T : Traffic send)
    (hsend : ∀ m ∈ T.messages, send m = split m.key (conv m.tag) m.data) :
    ∀ c ∈ T.schedule, c.totalLen ≤ rilcMaxResponsePayloadSize ∧ c.dataLen = c.data.length := by
  intro c hc
  obtain ⟨m, hm, hkey⟩ := mem_map.mp (T.known c hc)
  have hmem : c ∈ T.schedule.filter fun c => c.key = m.key :=
    mem_filter.mpr ⟨hc, decide_eq_true hkey.symm⟩
  rw [T.inOrder m hm, hsend m hm] at hmem
  obtain ⟨-, -, htotal, hlen⟩ := mem_split hmem
  exact ⟨htotal ▸ m.short, hlen⟩

theorem Traffic.schedule_eq_nil (T : Traffic send) (hsend : ∀ m ∈ T.messages, send m = []) :
    T.schedule = [] := by
  rw [eq_nil_iff_forall_not_mem]
  intro c hc
  obtain ⟨m, hm, hkey⟩ := mem_map.mp (T.known c hc)
  have hmem : c ∈ T.schedule.filter fun c => c.key = m.key :=
    mem_filter.mpr ⟨hc, decide_eq_true hkey.symm⟩
  rw [T.inOrder m hm, hsend m hm] at hmem
  exact not_mem_nil hmem

/-- One message in flight. -/
def Traffic.solo (conv : σ → τ) (m : Message κ σ)
    (hsend : send m = split m.key (conv m.tag) m.data) :
    Traffic send where
  messages := [m]
  few := show 1 ≤ maxNumRawSegment by decide
  distinct := nodup_singleton _
  schedule := send m
  inOrder := by
    intro m' hm'
    obtain rfl := mem_singleton.mp hm'
    rw [filter_eq_self]
    intro c hc
    rw [hsend] at hc
    exact decide_eq_true (mem_split hc).1
  known := by
    intro c hc
    rw [hsend] at hc
    exact mem_singleton.mpr (mem_split hc).1

end ExynosVendor.Ril.External
