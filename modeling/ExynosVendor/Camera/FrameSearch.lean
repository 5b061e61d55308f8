import ExynosVendor.Camera.FrameLinks

/-!
# What the searches find

A search looks for entities in some states, and passes over entities in some states to reach
the next of their chain (`Frame.Sought`). On a frame that is linked every search ends, and
what it returns is sought. Three of the searches look for a state that they also pass over:
they return such an entity only at the end of its chain (`Frame.StopsAt`), so that they may
return `NULL` though one is sought (`Links.search_spec`). Whenever `NULL` is returned the end
of the list has been read through, unless the list was empty: the loop tests for the end only
after it has read.
-/

namespace ExynosVendor.Camera.FrameEntity

open Linked
open List Option

/-! ## The searches -/

/-- The searches. -/
inductive Search where
  | frameDone
  | frameDoneOf (pipeId : ℕ)
  | frameDoneFirst
  | frameDoneFirstOf (pipeId : ℕ)
  | firstNotComplete

/-- What a search does at an entity. -/
def Search.choice : Search → Entity → Choice
  | .frameDone => frameDoneChoice
  | .frameDoneOf pipeId => frameDoneOfChoice pipeId
  | .frameDoneFirst => frameDoneFirstChoice
  | .frameDoneFirstOf pipeId => frameDoneFirstOfChoice pipeId
  | .firstNotComplete => notCompleteChoice

/-- The search itself. -/
def Search.run (s : Search) (f : Frame) : Option Found :=
  match s with
  | .frameDone => f.getFrameDoneEntity
  | .frameDoneOf pipeId => f.getFrameDoneEntityOf pipeId
  | .frameDoneFirst => f.getFrameDoneFirstEntity
  | .frameDoneFirstOf pipeId => f.getFrameDoneFirstEntityOf pipeId
  | .firstNotComplete => f.getFirstEntityNotComplete

theorem Search.run_eq (s : Search) (f : Frame) : s.run f = f.search s.choice := by
  cases s with
  | frameDone => rfl
  | frameDoneOf pipeId => rfl
  | frameDoneFirst => rfl
  | frameDoneFirstOf pipeId => rfl
  | firstNotComplete => rfl

/-- The states a search looks for. -/
def Search.looksFor : Search → List EntityState
  | .frameDone | .frameDoneOf _ => [.frameSkip, .rework, .frameDone]
  | .frameDoneFirst | .frameDoneFirstOf _ => [.rework, .frameDone]
  | .firstNotComplete => [.nop, .ready, .processing, .frameDone, .rework]

/-- The pipe it looks for, if it is for one. -/
def Search.pipe : Search → Option ℕ
  | .frameDoneOf pipeId | .frameDoneFirstOf pipeId => some pipeId
  | .frameDone | .frameDoneFirst | .firstNotComplete => none

/-- The states of the entities it is to pass over. -/
def Search.passesOver : Search → List EntityState
  | .frameDone | .frameDoneOf _ => [.frameSkip, .rework, .frameDone]
  | .frameDoneFirst => [.frameSkip, .rework, .complete]
  | .frameDoneFirstOf _ => [.frameSkip, .rework, .frameDone, .complete]
  | .firstNotComplete => [.frameSkip, .complete]

/-- An entity of this kind is looked for. -/
def Search.Fits (s : Search) (e : Entity) : Prop :=
  e.state ∈ s.looksFor ∧ ∀ pipeId ∈ s.pipe, e.pipeId = pipeId

variable {f : Frame} {chains : List (List ℕ)} {a b : ℕ} {e : Entity} {choice : Entity → Choice}

/-! ## The entity of a pipe -/

theorem Links.searchList_eq {pipeId : ℕ} {ps : List (Option ℕ)} {ls : List (List ℕ)}
    (h : Chains Entity.nextEntity f.heap ps ls) (hne : ∀ l ∈ ls, l ≠ [])
    (hlen : ∀ l ∈ ls, l.length ≤ f.heap.length) :
    f.searchList pipeId ps =
      some (ls.flatten.find? fun a => (f.entity a).any fun e => e.pipeId = pipeId) := by
  induction h with
  | nil => rfl
  | @cons p l ps ls hhead _ ih =>
    have hfind := hhead.find_eq (fun e => e.pipeId = pipeId) (hlen l mem_cons_self)
    have hrest := ih (fun l' hl' => hne l' (mem_cons_of_mem l hl'))
      fun l' hl' => hlen l' (mem_cons_of_mem l hl')
    cases l with
    | nil => exact absurd rfl (hne [] mem_cons_self)
    | cons a l =>
      obtain ⟨rfl, -⟩ := hhead
      rw [Frame.searchList, hfind, flatten_cons, find?_append]
      cases hfound : (a :: l).find? fun b =>
          (read f.heap b).any fun e => decide (e.pipeId = pipeId) with
      | none =>
        simp only [hrest]
        unfold Frame.entity
        rw [hfound]
        rfl
      | some b =>
        unfold Frame.entity
        rw [hfound]
        rfl

/-- **A pipe finds its entity**, wherever it is linked. -/
theorem Links.search_eq (h : Links f chains) (pipeId : ℕ) :
    f.searchEntityByPipeId pipeId =
      some (chains.flatten.find? fun a => (f.entity a).any fun e => e.pipeId = pipeId) := by
  refine Links.searchList_eq h.linked h.nonempty fun l hl => ?_
  have hsub : l.length ≤ chains.flatten.length := (sublist_flatten_of_mem hl).length_le
  exact hsub.trans h.length_le

/-- There is one or none. -/
theorem Links.search_cases (h : Links f chains) (pipeId : ℕ) :
    (f.searchEntityByPipeId pipeId = some none ∧
      ∀ a e, f.entity a = some e → e.pipeId ≠ pipeId) ∨
    ∃ a e, f.searchEntityByPipeId pipeId = some (some a) ∧ f.entity a = some e ∧
      e.pipeId = pipeId := by
  rw [h.search_eq]
  cases hfind : chains.flatten.find? fun a =>
      (f.entity a).any fun e => decide (e.pipeId = pipeId) with
  | none =>
    rw [find?_eq_none] at hfind
    refine Or.inl ⟨rfl, fun a e he hpipe => hfind a (h.all a e he) ?_⟩
    simp [he, hpipe]
  | some a =>
    obtain ⟨e, he⟩ := h.live (mem_of_find?_eq_some hfind)
    have hpipe := find?_some hfind
    rw [he, any_some, decide_eq_true_eq] at hpipe
    exact Or.inr ⟨a, e, rfl, he, hpipe⟩

/-! ## One chain -/

/-- What a search finds in a chain. -/
def Frame.scan (f : Frame) (choice : Entity → Choice) : List ℕ → Option ℕ
  | [] => none
  | a :: l =>
      match f.entity a with
      | none => none
      | some e =>
          match choice e with
          | .take => some a
          | .takeLast => if l = [] then some a else f.scan choice l
          | .skip => f.scan choice l
          | .leave => none

/-- The loop in a chain: it ends with what the chain has, or goes on behind it. -/
theorem searchLoop_chain {r : Option ℕ} {rest : List (Option ℕ)} {k : ℕ} {after : Bool → Found}
    (hrest : ∀ n readsEnd, k ≤ n →
      f.searchLoop choice n rest rest.head?.join readsEnd = some (after readsEnd))
    {l : List ℕ} {p : Option ℕ} {n : ℕ} {readsEnd : Bool}
    (hchain : Chain Entity.nextEntity f.heap l p) (hn : l.length + 1 + k ≤ n) :
    f.searchLoop choice n (r :: rest) p readsEnd =
      some (match f.scan choice l with
        | some b => ⟨some b, readsEnd⟩
        | none => after (readsEnd || rest.isEmpty)) := by
  induction l generalizing p n with
  | nil =>
    obtain rfl : p = none := hchain
    cases n with
    | zero => omega
    | succ n => exact hrest n _ (by simp only [length_nil] at hn; omega)
  | cons a l ih =>
    obtain ⟨rfl, e, he, hnext⟩ := hchain
    rw [length_cons] at hn
    cases n with
    | zero => omega
    | succ n =>
      have hentity : f.entity a = some e := he
      have hadvance := hrest n (readsEnd || rest.isEmpty) (by omega)
      have hgo := ih (n := n) hnext (by omega)
      rw [Frame.searchLoop, Frame.scan, hentity]
      simp only
      cases hchoice : choice e with
      | take => rfl
      | leave => exact hadvance
      | takeLast =>
        cases l with
        | nil =>
          rw [show e.nextEntity = none from hnext]
          rfl
        | cons b l =>
          rw [hnext.1] at hgo ⊢
          exact hgo
      | skip =>
        cases l with
        | nil =>
          rw [show e.nextEntity = none from hnext]
          exact hadvance
        | cons b l =>
          rw [hnext.1] at hgo ⊢
          exact hgo

/-! ## All of them -/

/-- What a search finds in some chains. -/
def Frame.sweep (f : Frame) (choice : Entity → Choice) : List (List ℕ) → Bool → Found
  | [], readsEnd => ⟨none, readsEnd⟩
  | l :: ls, readsEnd =>
      match f.scan choice l with
      | some a => ⟨some a, readsEnd⟩
      | none => f.sweep choice ls (readsEnd || ls.isEmpty)

theorem searchLoop_chains {ps : List (Option ℕ)} {ls : List (List ℕ)}
    (h : Chains Entity.nextEntity f.heap ps ls) {n : ℕ} {readsEnd : Bool}
    (hn : ls.flatten.length + ls.length + 1 ≤ n) :
    f.searchLoop choice n ps ps.head?.join readsEnd = some (f.sweep choice ls readsEnd) := by
  induction h generalizing n readsEnd with
  | nil =>
    cases n with
    | zero => omega
    | succ n => rfl
  | @cons p l ps ls hhead htail ih =>
    rw [flatten_cons, length_append, length_cons] at hn
    have hempty : ps.isEmpty = ls.isEmpty := by
      have hlen := htail.length_eq
      cases ps with
      | nil =>
        obtain rfl := length_eq_zero_iff.mp hlen.symm
        rfl
      | cons p' ps =>
        cases ls with
        | nil => exact absurd hlen (Nat.succ_ne_zero _)
        | cons l' ls => rfl
    rw [Frame.sweep, ← hempty]
    exact searchLoop_chain (fun m fl hm => @ih m fl hm) hhead (by omega)

/-- Nothing is found when no chain has anything. -/
theorem sweep_entity_eq_none (ls : List (List ℕ)) (readsEnd : Bool) :
    (f.sweep choice ls readsEnd).entity = none ↔ ∀ l ∈ ls, f.scan choice l = none := by
  induction ls generalizing readsEnd with
  | nil => simp [Frame.sweep]
  | cons l ls ih =>
    rw [Frame.sweep]
    cases hscan : f.scan choice l with
    | none => simp [ih, hscan]
    | some a => simp [hscan]

/-- And what is found is what a chain has. -/
theorem scan_of_sweep {ls : List (List ℕ)} {readsEnd : Bool}
    (h : (f.sweep choice ls readsEnd).entity = some a) : ∃ l ∈ ls, f.scan choice l = some a := by
  induction ls generalizing readsEnd with
  | nil => exact absurd h.symm (some_ne_none a)
  | cons l ls ih =>
    rw [Frame.sweep] at h
    cases hscan : f.scan choice l with
    | none =>
      rw [hscan] at h
      obtain ⟨l', hl', hfound⟩ := ih h
      exact ⟨l', mem_cons_of_mem l hl', hfound⟩
    | some b =>
      rw [hscan] at h
      exact ⟨l, mem_cons_self, hscan.trans h⟩

/-- **The end is read through** exactly when nothing is found. -/
theorem sweep_readsEnd (ls : List (List ℕ)) (readsEnd : Bool) :
    (f.sweep choice ls readsEnd).readsEnd =
      (readsEnd || (!ls.isEmpty && (f.sweep choice ls readsEnd).entity.isNone)) := by
  induction ls generalizing readsEnd with
  | nil => simp [Frame.sweep]
  | cons l ls ih =>
    rw [Frame.sweep]
    cases hscan : f.scan choice l with
    | none =>
      simp only [ih]
      cases ls with
      | nil => simp [Frame.sweep]
      | cons l' ls => simp
    | some a => simp

/-! ## What a loop returns -/

/-- **The entities that are reached**: the first of each chain, and the next of one that is
reached and passed over. -/
inductive Frame.Reached (f : Frame) (passes : Entity → Prop) : ℕ → Prop where
  | first {a : ℕ} (h : some a ∈ f.linkageList) : Reached f passes a
  | next {a b : ℕ} {e : Entity} (h : Reached f passes a) (he : f.entity a = some e)
      (hpasses : passes e) (hnext : e.nextEntity = some b) : Reached f passes b

theorem Frame.Reached.mono {passes passes' : Entity → Prop} (h : f.Reached passes a)
    (hle : ∀ e, passes e → passes' e) : f.Reached passes' a := by
  induction h with
  | first hp => exact Reached.first hp
  | next _ he hpasses hnext ih => exact ih.next he (hle _ hpasses) hnext

/-- What a `switch` goes on from. -/
def GoesOn (choice : Entity → Choice) (e : Entity) : Prop :=
  choice e = .skip ∨ choice e = .takeLast

/-- What a `switch` returns when it gets there. -/
def Frame.Taken (f : Frame) (choice : Entity → Choice) (a : ℕ) : Prop :=
  f.Reached (GoesOn choice) a ∧ ∃ e, f.entity a = some e ∧
    (choice e = .take ∨ choice e = .takeLast ∧ e.nextEntity = none)

/-- What is reached is in a chain, behind entities that are passed over. -/
theorem Links.reached {passes : Entity → Prop} (h : Links f chains)
    (hreached : f.Reached passes a) :
    ∃ l₁ l₂, l₁ ++ a :: l₂ ∈ chains ∧ ∀ b ∈ l₁, ∃ e, f.entity b = some e ∧ passes e := by
  induction hreached with
  | first hp =>
    obtain ⟨l, hl, hchain⟩ := h.linked.of_pointer hp
    cases l with
    | nil => exact absurd (show some _ = none from hchain) (some_ne_none _)
    | cons b l =>
      obtain ⟨hb, -⟩ := hchain
      obtain rfl := some.inj hb
      exact ⟨[], l, hl, fun b hb => absurd hb not_mem_nil⟩
  | @next a b e _ he hpasses hnext ih =>
    obtain ⟨l₁, l₂, hl, hpassed⟩ := ih
    obtain ⟨p, -, hchain⟩ := h.linked.chain hl
    have hrest := hchain.next he
    rw [hnext] at hrest
    cases l₂ with
    | nil => exact absurd (show some b = none from hrest) (some_ne_none b)
    | cons b' l₂ =>
      obtain ⟨hb, -⟩ := hrest
      obtain rfl := some.inj hb
      refine ⟨l₁ ++ [a], l₂, by simpa using hl, fun c hc => ?_⟩
      rcases mem_append.mp hc with hold | hnew
      · exact hpassed c hold
      · rw [mem_singleton.mp hnew]
        exact ⟨e, he, hpasses⟩

/-- A chain with an entity that is returned, behind entities that are passed over, has
something. -/
theorem scan_ne_none {l₁ l₂ : List ℕ} {p : Option ℕ}
    (hchain : Chain Entity.nextEntity f.heap (l₁ ++ a :: l₂) p)
    (hpassed : ∀ b ∈ l₁, ∃ e, f.entity b = some e ∧ GoesOn choice e)
    (he : f.entity a = some e)
    (htaken : choice e = .take ∨ choice e = .takeLast ∧ e.nextEntity = none) :
    f.scan choice (l₁ ++ a :: l₂) ≠ none := by
  induction l₁ generalizing p with
  | nil =>
    rw [nil_append, Frame.scan, he]
    rcases htaken with htake | ⟨hlast, hnext⟩
    · simp [htake]
    · have hrest : Chain Entity.nextEntity f.heap l₂ e.nextEntity := hchain.next he
      rw [hnext] at hrest
      cases l₂ with
      | nil => simp [hlast]
      | cons b l₂ => exact absurd hrest.1.symm (some_ne_none b)
  | cons b l₁ ih =>
    obtain ⟨-, d, hd, hrest⟩ := hchain
    obtain ⟨d', hd', hchoice⟩ := hpassed b mem_cons_self
    obtain rfl := some.inj (hd'.symm.trans hd)
    have hgo := ih hrest fun c hc => hpassed c (mem_cons_of_mem b hc)
    rw [cons_append, Frame.scan, hd']
    rcases hchoice with hskip | hlast
    · simpa [hskip] using hgo
    · simpa [hlast] using hgo

/-- And what a chain has is reached and returned. -/
theorem Frame.Taken.of_scan {l : List ℕ} {p : Option ℕ}
    (hchain : Chain Entity.nextEntity f.heap l p)
    (hp : ∀ b, p = some b → f.Reached (GoesOn choice) b)
    (hscan : f.scan choice l = some a) : f.Taken choice a := by
  induction l generalizing p with
  | nil => exact absurd hscan.symm (some_ne_none a)
  | cons b l ih =>
    obtain ⟨hb, e, he, hrest⟩ := hchain
    have hreached := hp b hb
    have hentity : f.entity b = some e := he
    rw [Frame.scan, hentity] at hscan
    have hgo (hpasses : GoesOn choice e) (hscan' : f.scan choice l = some a) :
        f.Taken choice a :=
      ih hrest (fun c hc => hreached.next hentity hpasses hc) hscan'
    cases hchoice : choice e with
    | take =>
      simp only [hchoice, some.injEq] at hscan
      exact hscan ▸ ⟨hreached, e, hentity, Or.inl hchoice⟩
    | leave => simp [hchoice] at hscan
    | skip =>
      simp only [hchoice] at hscan
      exact hgo (Or.inl hchoice) hscan
    | takeLast =>
      simp only [hchoice] at hscan
      split at hscan
      · rename_i hnil
        subst hnil
        obtain rfl := some.inj hscan
        exact ⟨hreached, e, hentity, Or.inr ⟨hchoice, hrest⟩⟩
      · exact hgo (Or.inr hchoice) hscan

/-- A loop ends, returns `NULL` exactly when its `switch` returns nothing, and reads through the
end exactly then, unless the list is empty. -/
theorem Links.loop_spec (h : Links f chains) (choice : Entity → Choice) :
    ∃ r, f.search choice = some r ∧ (r.entity = none ↔ ¬ ∃ a, f.Taken choice a) ∧
      (∀ a, r.entity = some a → f.Taken choice a) ∧
      (r.readsEnd = false ↔ f.linkageList = [] ∨ ∃ a, f.Taken choice a) := by
  have hlen : f.linkageList.length = chains.length := h.linked.length_eq
  have hfound (l : List ℕ) (hl : l ∈ chains) (a : ℕ) (hscan : f.scan choice l = some a) :
      f.Taken choice a := by
    obtain ⟨p, hp, hchain⟩ := h.linked.chain hl
    exact Frame.Taken.of_scan hchain (fun b hb => Frame.Reached.first (hb ▸ hp)) hscan
  have hnone (readsEnd : Bool) : (f.sweep choice chains readsEnd).entity = none ↔
      ¬ ∃ a, f.Taken choice a := by
    rw [sweep_entity_eq_none]
    constructor
    · rintro hall ⟨a, hreached, e, he, htaken⟩
      obtain ⟨l₁, l₂, hl, hpassed⟩ := h.reached hreached
      obtain ⟨p, -, hchain⟩ := h.linked.chain hl
      exact scan_ne_none hchain hpassed he htaken (hall _ hl)
    · intro hno l hl
      cases hscan : f.scan choice l with
      | none => rfl
      | some a => exact absurd ⟨a, hfound l hl a hscan⟩ hno
  unfold Frame.search
  by_cases hempty : f.linkageList = []
  · have hchains : chains = [] := by
      rw [hempty] at hlen
      exact length_eq_zero_iff.mp hlen.symm
    have hno : ¬ ∃ a, f.Taken choice a := by
      have hsweep := hnone false
      rw [hchains] at hsweep
      exact hsweep.mp rfl
    rw [if_pos hempty]
    exact ⟨_, rfl, iff_of_true rfl hno, fun a ha => absurd ha.symm (some_ne_none a),
      iff_of_true rfl (Or.inl hempty)⟩
  · rw [if_neg hempty, searchLoop_chains h.linked (by have hle := h.length_le; omega)]
    have hchains : chains.isEmpty = false := by
      cases chains with
      | nil => exact absurd (length_eq_zero_iff.mp hlen) hempty
      | cons l ls => rfl
    refine ⟨_, rfl, hnone false, fun a ha => ?_, ?_⟩
    · obtain ⟨l, hl, hscan⟩ := scan_of_sweep ha
      exact hfound l hl a hscan
    · rw [sweep_readsEnd, hchains]
      simp only [hempty, false_or]
      rw [← not_iff_not, ← hnone false]
      cases (f.sweep choice chains false).entity with
      | none => simp
      | some a => simp

/-! ## What is looked for -/

/-- **An entity that is sought**: it is reached through entities to be passed over, and it is
looked for. -/
def Frame.Sought (f : Frame) (s : Search) (a : ℕ) : Prop :=
  f.Reached (fun e => e.state ∈ s.passesOver) a ∧ ∃ e, f.entity a = some e ∧ s.Fits e

/-- **Where a search stops** at an entity that is sought: `getFrameDoneEntity` only at the end
of a chain, and for a pipe only at one without a child that starts its chain;
`getFrameDoneFirstEntity` at one that is done, or at the end of a chain. -/
def Frame.StopsAt (f : Frame) (s : Search) (a : ℕ) : Prop :=
  ∀ e, f.entity a = some e →
    match s with
    | .frameDone => e.nextEntity = none
    | .frameDoneOf _ => e.nextEntity = none ∧ some a ∈ f.linkageList
    | .frameDoneFirst => e.state = .frameDone ∨ e.nextEntity = none
    | .frameDoneFirstOf _ | .firstNotComplete => True

/-- A `switch` that goes on from what is to be passed over, and returns what fits where the
search stops. -/
theorem taken_iff {s : Search} (hpasses : ∀ e, GoesOn s.choice e ↔ e.state ∈ s.passesOver)
    (htakes : ∀ e, f.entity a = some e →
      ((s.choice e = .take ∨ s.choice e = .takeLast ∧ e.nextEntity = none) ↔
        s.Fits e ∧ f.StopsAt s a)) :
    f.Taken s.choice a ↔ f.Sought s a ∧ f.StopsAt s a := by
  rw [Frame.Taken, Frame.Sought, funext fun e => propext (hpasses e)]
  constructor
  · rintro ⟨hreached, e, he, htaken⟩
    obtain ⟨hfits, hstops⟩ := (htakes e he).mp htaken
    exact ⟨⟨hreached, e, he, hfits⟩, hstops⟩
  · rintro ⟨⟨hreached, e, he, hfits⟩, hstops⟩
    exact ⟨hreached, e, he, (htakes e he).mpr ⟨hfits, hstops⟩⟩

theorem stopsAt_iff (he : f.entity a = some e) (s : Search) :
    f.StopsAt s a ↔
      match s with
      | .frameDone => e.nextEntity = none
      | .frameDoneOf _ => e.nextEntity = none ∧ some a ∈ f.linkageList
      | .frameDoneFirst => e.state = .frameDone ∨ e.nextEntity = none
      | .frameDoneFirstOf _ | .firstNotComplete => True := by
  unfold Frame.StopsAt
  rw [he]
  simp only [some.injEq, forall_eq']

/-- The `switch` for a pipe goes no further than that pipe. -/
theorem frameDoneOfChoice_cases (pipeId : ℕ) (e : Entity) :
    (frameDoneOfChoice pipeId e = .takeLast ∧ (Search.frameDoneOf pipeId).Fits e) ∨
      frameDoneOfChoice pipeId e = .leave ∧ ¬ (Search.frameDoneOf pipeId).Fits e := by
  by_cases hpipe : pipeId = e.pipeId
  · subst hpipe
    cases hstate : e.state <;>
      simp [frameDoneOfChoice, frameDoneChoice, Search.Fits, Search.looksFor, Search.pipe, hstate]
  · refine Or.inr ⟨if_neg hpipe, fun hfits => hpipe ?_⟩
    exact (hfits.2 pipeId rfl).symm

/-- No other entity has the pipe, so that what is returned starts its chain. -/
theorem Links.taken_frameDoneOf_iff (h : Links f chains) (pipeId : ℕ) :
    f.Taken (frameDoneOfChoice pipeId) a ↔
      f.Sought (.frameDoneOf pipeId) a ∧ f.StopsAt (.frameDoneOf pipeId) a := by
  have hfits (e : Entity) (hne : frameDoneOfChoice pipeId e ≠ .leave) :
      (Search.frameDoneOf pipeId).Fits e :=
    ((frameDoneOfChoice_cases pipeId e).resolve_right fun hleave => hne hleave.1).2
  constructor
  · rintro ⟨hreached, e, he, htaken⟩
    obtain ⟨hlast, hfit⟩ | ⟨hleave, -⟩ := frameDoneOfChoice_cases pipeId e
    · have hnext : e.nextEntity = none := by simpa [hlast] using htaken
      cases hreached with
      | first hp =>
        exact ⟨⟨Frame.Reached.first hp, e, he, hfit⟩, (stopsAt_iff he _).mpr ⟨hnext, hp⟩⟩
      | @next b _ d _ hd hgoes hb =>
        have hpipe := (hfits d (by rcases hgoes with hd | hd <;> rw [hd] <;> simp)).2 pipeId rfl
        obtain rfl := h.pipes b a d e hd he (hpipe.trans (hfit.2 pipeId rfl).symm)
        obtain rfl := some.inj (hd.symm.trans he)
        exact absurd (hnext.symm.trans hb) (some_ne_none b).symm
    · simp [hleave] at htaken
  · rintro ⟨⟨-, e, he, hfit⟩, hstops⟩
    obtain ⟨hnext, hp⟩ := (stopsAt_iff he _).mp hstops
    have hlast := ((frameDoneOfChoice_cases pipeId e).resolve_right fun hleave => hleave.2 hfit).1
    exact ⟨Frame.Reached.first hp, e, he, Or.inr ⟨hlast, hnext⟩⟩

/-- The `switch` of the other search for a pipe returns what fits, and else goes on. -/
theorem frameDoneFirstOfChoice_cases (pipeId : ℕ) (e : Entity) :
    (frameDoneFirstOfChoice pipeId e = .take ∧ (Search.frameDoneFirstOf pipeId).Fits e) ∨
      ¬ (Search.frameDoneFirstOf pipeId).Fits e ∧
        (frameDoneFirstOfChoice pipeId e = .skip ∧
            e.state ∈ (Search.frameDoneFirstOf pipeId).passesOver ∨
          frameDoneFirstOfChoice pipeId e = .leave ∧
            e.state ∉ (Search.frameDoneFirstOf pipeId).passesOver) := by
  by_cases hpipe : e.pipeId = pipeId <;> cases hstate : e.state <;>
    simp [frameDoneFirstOfChoice, Search.Fits, Search.looksFor, Search.passesOver, Search.pipe,
      hstate, hpipe]

/-- What is to be passed over is, unless it is returned. -/
theorem reached_or_taken {pipeId : ℕ}
    (h : f.Reached (fun e => e.state ∈ (Search.frameDoneFirstOf pipeId).passesOver) a) :
    f.Reached (GoesOn (frameDoneFirstOfChoice pipeId)) a ∨
      ∃ b, f.Taken (frameDoneFirstOfChoice pipeId) b := by
  induction h with
  | first hp => exact Or.inl (Frame.Reached.first hp)
  | @next b c d _ hd hpasses hc ih =>
    rcases ih with hreached | htaken
    · rcases frameDoneFirstOfChoice_cases pipeId d with ⟨htake, -⟩ | ⟨-, ⟨hskip, -⟩ | ⟨-, hnot⟩⟩
      · exact Or.inr ⟨b, hreached, d, hd, Or.inl htake⟩
      · exact Or.inl (hreached.next hd (Or.inl hskip) hc)
      · exact absurd hpasses hnot
    · exact Or.inr htaken

theorem taken_frameDoneFirstOf_spec (pipeId : ℕ) :
    (f.Taken (frameDoneFirstOfChoice pipeId) a →
      f.Sought (.frameDoneFirstOf pipeId) a ∧ f.StopsAt (.frameDoneFirstOf pipeId) a) ∧
    (f.Sought (.frameDoneFirstOf pipeId) a ∧ f.StopsAt (.frameDoneFirstOf pipeId) a →
      ∃ b, f.Taken (frameDoneFirstOfChoice pipeId) b) := by
  constructor
  · rintro ⟨hreached, e, he, htaken⟩
    have hpasses (d : Entity) (hgoes : GoesOn (frameDoneFirstOfChoice pipeId) d) :
        d.state ∈ (Search.frameDoneFirstOf pipeId).passesOver := by
      rcases frameDoneFirstOfChoice_cases pipeId d with ⟨htake, -⟩ | ⟨-, ⟨-, hmem⟩ | ⟨hleave, -⟩⟩
      · simp [GoesOn, htake] at hgoes
      · exact hmem
      · simp [GoesOn, hleave] at hgoes
    rcases frameDoneFirstOfChoice_cases pipeId e with ⟨-, hfit⟩ | ⟨-, ⟨hskip, -⟩ | ⟨hleave, -⟩⟩
    · exact ⟨⟨hreached.mono hpasses, e, he, hfit⟩, fun _ _ => trivial⟩
    · simp [hskip] at htaken
    · simp [hleave] at htaken
  · rintro ⟨⟨hreached, e, he, hfit⟩, -⟩
    rcases reached_or_taken hreached with hgoes | htaken
    · have htake := ((frameDoneFirstOfChoice_cases pipeId e).resolve_right fun h => h.1 hfit).1
      exact ⟨a, hgoes, e, he, Or.inl htake⟩
    · exact htaken

/-- **What a search returns** is sought and stopped at; and if there is such an entity it
returns one. -/
theorem Links.taken_spec (h : Links f chains) (s : Search) (a : ℕ) :
    (f.Taken s.choice a → f.Sought s a ∧ f.StopsAt s a) ∧
      (f.Sought s a ∧ f.StopsAt s a → ∃ b, f.Taken s.choice b) := by
  have hboth (hiff : f.Taken s.choice a ↔ f.Sought s a ∧ f.StopsAt s a) :
      (f.Taken s.choice a → f.Sought s a ∧ f.StopsAt s a) ∧
        (f.Sought s a ∧ f.StopsAt s a → ∃ b, f.Taken s.choice b) :=
    ⟨hiff.mp, fun hstops => ⟨a, hiff.mpr hstops⟩⟩
  cases s with
  | frameDone =>
    refine hboth (taken_iff (fun e => ?_) fun e he => ?_)
    · cases hstate : e.state <;>
        simp [GoesOn, Search.choice, frameDoneChoice, Search.passesOver, hstate]
    · rw [stopsAt_iff he]
      cases hstate : e.state <;>
        simp [Search.choice, frameDoneChoice, Search.Fits, Search.looksFor, Search.pipe, hstate]
  | frameDoneOf pipeId => exact hboth (h.taken_frameDoneOf_iff pipeId)
  | frameDoneFirst =>
    refine hboth (taken_iff (fun e => ?_) fun e he => ?_)
    · cases hstate : e.state <;>
        simp [GoesOn, Search.choice, frameDoneFirstChoice, Search.passesOver, hstate]
    · rw [stopsAt_iff he]
      cases hstate : e.state <;>
        simp [Search.choice, frameDoneFirstChoice, Search.Fits, Search.looksFor, Search.pipe, hstate]
  | frameDoneFirstOf pipeId => exact taken_frameDoneFirstOf_spec pipeId
  | firstNotComplete =>
    refine hboth (taken_iff (fun e => ?_) fun e he => ?_)
    · cases hstate : e.state <;>
        simp [GoesOn, Search.choice, notCompleteChoice, Search.passesOver, hstate]
    · rw [stopsAt_iff he]
      cases hstate : e.state <;>
        simp [Search.choice, notCompleteChoice, Search.Fits, Search.looksFor, Search.pipe, hstate]

/-- **A search ends**, and returns only what it seeks; it returns `NULL` exactly when it stops
at nothing of that, and reads through the end exactly then, unless the list is empty. -/
theorem Links.search_spec (h : Links f chains) (s : Search) :
    ∃ r, s.run f = some r ∧ (∀ a, r.entity = some a → f.Sought s a) ∧
      (r.entity = none ↔ ¬ ∃ a, f.Sought s a ∧ f.StopsAt s a) ∧
      (r.readsEnd = false ↔ f.linkageList = [] ∨ ∃ a, f.Sought s a ∧ f.StopsAt s a) := by
  obtain ⟨r, hsearch, hnone, hsome, hend⟩ := h.loop_spec s.choice
  have hexists : (∃ a, f.Taken s.choice a) ↔ ∃ a, f.Sought s a ∧ f.StopsAt s a :=
    ⟨fun ⟨a, ha⟩ => ⟨a, (h.taken_spec s a).1 ha⟩, fun ⟨a, ha⟩ => (h.taken_spec s a).2 ha⟩
  rw [hexists] at hnone hend
  exact ⟨r, (s.run_eq f).trans hsearch, fun a ha => ((h.taken_spec s a).1 (hsome a ha)).1, hnone,
    hend⟩

end ExynosVendor.Camera.FrameEntity
