import ExynosVendor.Camera.FrameSearch
import Mathlib.Data.List.Infix

/-!
# When a frame is complete

The frame counts how often an entity becomes complete, not how many are: the count is the
number of complete entities and of those that have been reworked since (`Counting`). So the
frame is complete in time unless an entity is reworked before the last one of the count
(`Built.completesOnTime_iff`).
The searches and the deletion of the entities are those of any linked frame, and every frame
stays linked.
-/

namespace ExynosVendor.Camera.FrameEntity

open Linked

/-- A call of `setEntityState`. -/
abbrev Call := ℕ × EntityState

/-- A frame after some calls. -/
def Frame.run (f : Frame) (calls : List Call) : Option Frame :=
  calls.foldlM (fun f c => (f.setEntityState c.1 c.2).map Prod.fst) f

/-- How many entities are complete. -/
def Frame.completeEntities (f : Frame) : ℕ :=
  f.heap.countP fun cell => cell.any fun e => e.state = .complete

/-- **The frame is complete in time**: at every moment it is complete exactly if, at that
moment or before, as many entities were complete as pipes are requested. -/
def Frame.CompletesOnTime (f : Frame) (calls : List Call) : Prop :=
  ∀ before, before <+: calls → ∃ g, f.run before = some g ∧
    (g.frameState = .complete ↔ ∃ first, first <+: before ∧ ∃ g', f.run first = some g' ∧
      f.numRequestPipe ≤ g'.completeEntities)

/-- An entity becomes complete with the call. -/
def Frame.completes (f : Frame) (c : Call) : Bool :=
  c.2 = .complete && f.heap.any fun cell => cell.any fun e =>
    e.pipeId = c.1 && e.state ≠ .complete

/-- How often an entity becomes complete. -/
def Frame.completions (f : Frame) : List Call → ℕ
  | [] => 0
  | c :: calls =>
      (if f.completes c then 1 else 0) +
        match f.setEntityState c.1 c.2 with
        | none => 0
        | some r => r.1.completions calls

/-- A complete entity is reworked with the call. -/
def Frame.Reworks (f : Frame) (c : Call) : Prop :=
  c.2 = .rework ∧ ∃ a e, f.entity a = some e ∧ e.pipeId = c.1 ∧ e.state = .complete

/-- That happens in the calls before an entity has become complete for the `n`th time. -/
def Frame.ReworkedEarly (f : Frame) (n : ℕ) (calls : List Call) : Prop :=
  ∃ before c after g, calls = before ++ c :: after ∧ f.run before = some g ∧ g.Reworks c ∧
    f.completions before < n

variable {f g : Frame} {chains : List (List ℕ)} {calls : List Call} {a : ℕ} {e : Entity}

theorem run_cons (f : Frame) (c : Call) (calls : List Call) :
    f.run (c :: calls) = ((f.setEntityState c.1 c.2).map Prod.fst).bind fun g => g.run calls := by
  rw [Frame.run, List.foldlM_cons]
  rfl

/-! ## One call -/

/-- **What a call does**: nothing, or the entity of the pipe gets the state, and the frame
counts it if it becomes complete. -/
theorem Links.setEntityState_cases (h : Links f chains) (c : Call) :
    (f.setEntityState c.1 c.2 = some (f, .badValue) ∧
      ∀ a e, f.entity a = some e → e.pipeId ≠ c.1) ∨
    ∃ a e, f.entity a = some e ∧ e.pipeId = c.1 ∧
      ((e.state = .complete ∧ c.2 ≠ .rework ∧ f.setEntityState c.1 c.2 = some (f, .noError)) ∨
        ¬ (e.state = .complete ∧ c.2 ≠ .rework) ∧
        ∃ f', f' = (if c.2 = .complete then (f.updateStatusForResultUpdate c.1).countComplete
            else f) ∧
          f.setEntityState c.1 c.2 =
            some ({ f' with heap := write f'.heap a { e with state := c.2 } }, .noError)) := by
  unfold Frame.setEntityState
  rcases h.search_cases c.1 with ⟨hnone, hall⟩ | ⟨a, e, hsome, he, hpipe⟩
  · rw [hnone, Option.bind_some]
    exact Or.inl ⟨rfl, hall⟩
  · rw [hsome, Option.bind_some]
    simp only [he, Option.map_some]
    refine Or.inr ⟨a, e, he, hpipe, ?_⟩
    by_cases hdone : e.state = .complete ∧ c.2 ≠ .rework
    · rw [if_pos hdone]
      exact Or.inl ⟨hdone.1, hdone.2, rfl⟩
    · rw [if_neg hdone]
      exact Or.inr ⟨hdone, _, rfl, rfl⟩

/-- A frame whose entities are those of another but for the state of one. -/
structure Restated (f g : Frame) (a : ℕ) (e : Entity) (state : EntityState) : Prop where
  heap : g.heap = write f.heap a { e with state := state }
  list : g.linkageList = f.linkageList
  request : g.numRequestPipe = f.numRequestPipe

variable {state : EntityState} {c : Call}

theorem Restated.entity (h : Restated f g a e state) (he : f.entity a = some e) (b : ℕ) :
    g.entity b = if b = a then some { e with state := state } else f.entity b := by
  have hwrite := entity_write he { e with state := state } b
  unfold Frame.entity at hwrite ⊢
  rw [h.heap]
  exact hwrite

/-- **States change no chain.** -/
theorem Restated.links (h : Restated f g a e state) (he : f.entity a = some e)
    (hl : Links f chains) :
    Links g chains := by
  have hwas (b : ℕ) (d : Entity) (hd : g.entity b = some d) :
      ∃ d', f.entity b = some d' ∧ d'.pipeId = d.pipeId := by
    rw [h.entity he] at hd
    split at hd
    · rename_i hb
      subst hb
      obtain rfl := Option.some.inj hd
      exact ⟨e, he, rfl⟩
    · exact ⟨d, hd, rfl⟩
  refine ⟨?_, hl.distinct, fun b d hd => ?_, hl.nonempty, fun b b' d d' hd hd' hsame => ?_⟩
  · rw [h.list]
    refine hl.linked.congr fun b hb d hd => ?_
    by_cases hba : b = a
    · subst hba
      obtain rfl : d = e := Option.some.inj (hd.symm.trans he)
      exact ⟨_, (h.entity he b).trans (if_pos rfl), rfl⟩
    · exact ⟨d, (h.entity he b).trans ((if_neg hba).trans hd), rfl⟩
  · obtain ⟨d', hd', -⟩ := hwas b d hd
    exact hl.all b d' hd'
  · obtain ⟨d₀, hd₀, hpipe₀⟩ := hwas b d hd
    obtain ⟨d₁, hd₁, hpipe₁⟩ := hwas b' d' hd'
    exact hl.pipes b b' d₀ d₁ hd₀ hd₁ (by rw [hpipe₀, hpipe₁, hsame])

/-- The complete entities, when one gets another state. -/
theorem Restated.completeEntities (h : Restated f g a e state) (he : f.entity a = some e) :
    g.completeEntities + (if e.state = .complete then 1 else 0) =
      f.completeEntities + (if state = .complete then 1 else 0) := by
  have hlt : a < f.heap.length := lt_of_read he
  have hcell : f.heap[a] = some e := by
    have hread : f.heap[a]?.join = some e := he
    rw [List.getElem?_eq_getElem hlt] at hread
    exact hread
  have hpos : e.state = .complete →
      0 < f.heap.countP fun cell => cell.any fun e => decide (e.state = .complete) := by
    intro hcomplete
    rw [List.countP_pos_iff]
    refine ⟨some e, hcell ▸ List.getElem_mem hlt, ?_⟩
    simp [hcomplete]
  unfold Frame.completeEntities
  rw [h.heap, write, List.countP_set hlt, hcell]
  simp only [Option.any_some, decide_eq_true_eq]
  split
  · rename_i hcomplete
    have hpos' := hpos hcomplete
    omega
  · omega

/-- **What a call does to the counts.** -/
inductive Effect (f : Frame) (c : Call) (g : Frame) : Prop where
  /-- Neither an entity becomes complete nor is one reworked. -/
  | same (hcompletes : f.completes c = false) (hcount : g.numCompletePipe = f.numCompletePipe)
      (hentities : g.completeEntities = f.completeEntities)
      (hstate : g.frameState = f.frameState) (hno : ¬ f.Reworks c)
  /-- One becomes complete. -/
  | counted (hcompletes : f.completes c = true)
      (hcount : g.numCompletePipe = f.numCompletePipe + 1)
      (hentities : g.completeEntities = f.completeEntities + 1)
      (hstate : g.frameState =
        if f.numRequestPipe ≤ f.numCompletePipe + 1 then .complete else f.frameState)
      (hno : ¬ f.Reworks c)
  /-- A complete one is reworked: the count does not tell. -/
  | reworked (hcompletes : f.completes c = false)
      (hcount : g.numCompletePipe = f.numCompletePipe)
      (hentities : g.completeEntities + 1 = f.completeEntities)
      (hstate : g.frameState = f.frameState) (hyes : f.Reworks c)

theorem completes_iff (f : Frame) (c : Call) :
    f.completes c = true ↔
      c.2 = .complete ∧ ∃ a e, f.entity a = some e ∧ e.pipeId = c.1 ∧ e.state ≠ .complete := by
  simp only [Frame.completes, Bool.and_eq_true, decide_eq_true_eq, List.any_eq_true,
    Option.any_eq_true, and_congr_right_iff]
  refine fun _ => ⟨?_, ?_⟩
  · rintro ⟨cell, hcell, e, rfl, hpipe, hstate⟩
    obtain ⟨a, ha⟩ := List.getElem?_of_mem hcell
    refine ⟨a, e, ?_, hpipe, hstate⟩
    unfold Frame.entity Linked.read
    rw [ha]
    rfl
  · rintro ⟨a, e, he, hpipe, hstate⟩
    have hread : f.heap[a]?.join = some e := he
    rw [Option.join_eq_some_iff] at hread
    exact ⟨some e, List.mem_of_getElem? hread, e, rfl, hpipe, hstate⟩

/-- **A call has an effect**, and leaves the frame linked. -/
theorem Links.step (h : Links f chains) (c : Call) :
    ∃ g, (f.setEntityState c.1 c.2).map Prod.fst = some g ∧ Links g chains ∧
      g.numRequestPipe = f.numRequestPipe ∧ Effect f c g := by
  rcases h.setEntityState_cases c with ⟨heq, hall⟩ | ⟨a, e, he, hpipe, hcases⟩
  · rw [heq]
    refine ⟨f, rfl, h, rfl, Effect.same (Bool.eq_false_iff.mpr ?_) rfl rfl rfl ?_⟩
    · rw [Ne, completes_iff]
      rintro ⟨-, a, e, he, hpipe, -⟩
      exact hall a e he hpipe
    · rintro ⟨-, a, e, he, hpipe, -⟩
      exact hall a e he hpipe
  · -- A call for the pipe of an entity is about that one.
    have hreworks (hr : f.Reworks c) : c.2 = .rework ∧ e.state = .complete := by
      obtain ⟨hrework, b, d, hd, hpipe', hcomplete⟩ := hr
      obtain rfl := h.pipes a b e d he hd (hpipe.trans hpipe'.symm)
      obtain rfl := Option.some.inj (he.symm.trans hd)
      exact ⟨hrework, hcomplete⟩
    have hcompletes : f.completes c = true ↔ c.2 = .complete ∧ e.state ≠ .complete := by
      rw [completes_iff]
      refine and_congr_right fun _ => ⟨?_, fun hstate => ⟨a, e, he, hpipe, hstate⟩⟩
      rintro ⟨b, d, hd, hpipe', hstate⟩
      obtain rfl := h.pipes a b e d he hd (hpipe.trans hpipe'.symm)
      obtain rfl := Option.some.inj (he.symm.trans hd)
      exact hstate
    rcases hcases with ⟨hdone, hne, heq⟩ | ⟨hgo, f', hf', heq⟩
    · rw [heq]
      have hno : f.completes c = false := Bool.eq_false_iff.mpr fun hyes =>
        (hcompletes.mp hyes).2 hdone
      exact ⟨f, rfl, h, rfl, Effect.same hno rfl rfl rfl fun hr => hne (hreworks hr).1⟩
    · rw [heq]
      by_cases hdone : c.2 = .complete
      · have hnot : ¬ e.state = .complete := fun hcomplete =>
          hgo ⟨hcomplete, fun hrework => EntityState.noConfusion (hdone.symm.trans hrework)⟩
        rw [if_pos hdone] at hf'
        subst hf'
        have hrestated : Restated f { (f.updateStatusForResultUpdate c.1).countComplete with
            heap := write f.heap a { e with state := c.2 } } a e c.2 := ⟨rfl, rfl, rfl⟩
        have hentities := hrestated.completeEntities he
        rw [if_neg hnot, if_pos hdone] at hentities
        refine ⟨_, rfl, hrestated.links he h, rfl,
          Effect.counted (hcompletes.mpr ⟨hdone, hnot⟩) rfl hentities rfl fun hr => ?_⟩
        exact EntityState.noConfusion (hdone.symm.trans (hreworks hr).1)
      · rw [if_neg hdone] at hf'
        subst hf'
        have hrestated : Restated f' { f' with
            heap := write f'.heap a { e with state := c.2 } } a e c.2 := ⟨rfl, rfl, rfl⟩
        have hentities := hrestated.completeEntities he
        rw [if_neg hdone] at hentities
        have hno : f'.completes c = false := Bool.eq_false_iff.mpr fun hyes =>
          hdone (hcompletes.mp hyes).1
        refine ⟨_, rfl, hrestated.links he h, rfl, ?_⟩
        by_cases hcomplete : e.state = .complete
        · rw [if_pos hcomplete] at hentities
          have hrework : c.2 = .rework := by
            by_contra hne
            exact hgo ⟨hcomplete, hne⟩
          exact Effect.reworked hno rfl hentities rfl ⟨hrework, a, e, he, hpipe, hcomplete⟩
        · rw [if_neg hcomplete] at hentities
          exact Effect.same hno rfl hentities rfl fun hr => hcomplete (hreworks hr).2

/-! ## Runs -/

/-- **Every run stays linked.** -/
theorem Links.run (h : Links f chains) (calls : List Call) :
    ∃ g, f.run calls = some g ∧ Links g chains ∧ g.numRequestPipe = f.numRequestPipe := by
  induction calls generalizing f with
  | nil => exact ⟨f, rfl, h, rfl⟩
  | cons c calls ih =>
    obtain ⟨f₁, hstep, hl, hrequest, -⟩ := h.step c
    obtain ⟨g, hrun, hg, hrequest'⟩ := ih hl
    exact ⟨g, by rw [run_cons, hstep, Option.bind_some, hrun], hg, hrequest'.trans hrequest⟩

/-- A frame that is complete stays it. -/
theorem Links.run_complete (h : Links f chains) (hcomplete : f.frameState = .complete)
    (calls : List Call) : ∃ g, f.run calls = some g ∧ g.frameState = .complete := by
  induction calls generalizing f with
  | nil => exact ⟨f, rfl, hcomplete⟩
  | cons c calls ih =>
    obtain ⟨f₁, hstep, hl, -, heffect⟩ := h.step c
    have hcomplete₁ : f₁.frameState = .complete := by
      cases heffect with
      | same _ _ _ hstate _ => exact hstate.trans hcomplete
      | counted _ _ _ hstate _ => rw [hstate, hcomplete, ite_self]
      | reworked _ _ _ hstate _ => exact hstate.trans hcomplete
    obtain ⟨g, hrun, hg⟩ := ih hl hcomplete₁
    exact ⟨g, by rw [run_cons, hstep, Option.bind_some, hrun], hg⟩

/-- **What an open frame counts**: the complete entities, and as many more as have been
reworked; fewer than are requested. -/
structure Counting (f : Frame) (reworked : ℕ) : Prop where
  state : f.frameState ≠ .complete
  count : f.numCompletePipe = f.completeEntities + reworked
  few : f.numCompletePipe < f.numRequestPipe

theorem Counting.not_reached {r : ℕ} (h : Counting f r) :
    ¬ f.numRequestPipe ≤ f.completeEntities := by
  have hcount := h.count
  have hfew := h.few
  omega

theorem run_cons_of_step (hstep : (f.setEntityState c.1 c.2).map Prod.fst = some g)
    (calls : List Call) : f.run (c :: calls) = g.run calls := by
  rw [run_cons, hstep, Option.bind_some]

theorem completions_cons (hstep : (f.setEntityState c.1 c.2).map Prod.fst = some g)
    (calls : List Call) :
    f.completions (c :: calls) = (if f.completes c then 1 else 0) + g.completions calls := by
  obtain ⟨r, hr, rfl⟩ := Option.map_eq_some_iff.mp hstep
  rw [Frame.completions, hr]

/-- An early rework is the first call or comes later. -/
theorem reworkedEarly_cons {n : ℕ} (hstep : (f.setEntityState c.1 c.2).map Prod.fst = some g)
    (calls : List Call) :
    f.ReworkedEarly n (c :: calls) ↔
      (0 < n ∧ f.Reworks c) ∨ g.ReworkedEarly (n - if f.completes c then 1 else 0) calls := by
  constructor
  · rintro ⟨before, c', after, k, hcalls, hrun, hreworks, hfew⟩
    cases before with
    | nil =>
      obtain ⟨rfl, -⟩ := List.cons.inj hcalls
      obtain rfl := Option.some.inj hrun
      exact Or.inl ⟨hfew, hreworks⟩
    | cons b before =>
      obtain ⟨rfl, hcalls'⟩ := List.cons.inj hcalls
      rw [run_cons_of_step hstep] at hrun
      rw [completions_cons hstep] at hfew
      exact Or.inr ⟨before, c', after, k, hcalls', hrun, hreworks, by omega⟩
  · rintro (⟨hpos, hreworks⟩ | ⟨before, c', after, k, rfl, hrun, hreworks, hfew⟩)
    · exact ⟨[], c, calls, f, rfl, rfl, hreworks, hpos⟩
    · refine ⟨c :: before, c', after, k, rfl, (run_cons_of_step hstep before).trans hrun,
        hreworks, ?_⟩
      rw [completions_cons hstep]
      omega

/-- **While the frame stays open** the next call is as good as the first. -/
theorem Counting.onTime_cons {r : ℕ} (h : Counting f r)
    (hstep : (f.setEntityState c.1 c.2).map Prod.fst = some g)
    (hrequest : g.numRequestPipe = f.numRequestPipe) :
    f.CompletesOnTime (c :: calls) ↔ g.CompletesOnTime calls := by
  have hfirst (before : List Call) :
      (∃ first, first <+: c :: before ∧ ∃ g', f.run first = some g' ∧
        f.numRequestPipe ≤ g'.completeEntities) ↔
      ∃ first, first <+: before ∧ ∃ g', g.run first = some g' ∧
        g.numRequestPipe ≤ g'.completeEntities := by
    constructor
    · rintro ⟨first, hfirst, g', hrun, hreached⟩
      rcases List.prefix_cons_iff.mp hfirst with rfl | ⟨first', rfl, hfirst'⟩
      · obtain rfl := Option.some.inj hrun
        exact absurd hreached h.not_reached
      · rw [run_cons_of_step hstep] at hrun
        exact ⟨first', hfirst', g', hrun, hrequest ▸ hreached⟩
    · rintro ⟨first, hfirst, g', hrun, hreached⟩
      exact ⟨c :: first, (List.prefix_cons_inj c).mpr hfirst, g',
        (run_cons_of_step hstep first).trans hrun, hrequest ▸ hreached⟩
  constructor
  · intro hall before hbefore
    obtain ⟨k, hrun, hk⟩ := hall (c :: before) ((List.prefix_cons_inj c).mpr hbefore)
    rw [run_cons_of_step hstep] at hrun
    exact ⟨k, hrun, hk.trans (hfirst before)⟩
  · intro hall before hbefore
    rcases List.prefix_cons_iff.mp hbefore with rfl | ⟨before', rfl, hbefore'⟩
    · refine ⟨f, rfl, iff_of_false h.state ?_⟩
      rintro ⟨first, hfirst, g', hrun, hreached⟩
      rw [List.prefix_nil] at hfirst
      subst hfirst
      obtain rfl := Option.some.inj hrun
      exact h.not_reached hreached
    · obtain ⟨k, hrun, hk⟩ := hall before' hbefore'
      exact ⟨k, (run_cons_of_step hstep before').trans hrun, hk.trans (hfirst before').symm⟩

/-- **When the frame closes** it has to have its entities. -/
theorem Counting.onTime_close {r : ℕ} (h : Counting f r)
    (hstep : (f.setEntityState c.1 c.2).map Prod.fst = some g) (hl : Links g chains)
    (hclosed : g.frameState = .complete) :
    f.CompletesOnTime (c :: calls) ↔ f.numRequestPipe ≤ g.completeEntities := by
  constructor
  · intro hall
    obtain ⟨k, hrun, hk⟩ := hall [c] (by simp)
    obtain rfl : g = k := Option.some.inj ((run_cons_of_step hstep []).symm.trans hrun)
    obtain ⟨first, hfirst, g', hrun', hreached⟩ := hk.mp hclosed
    rcases List.prefix_cons_iff.mp hfirst with rfl | ⟨first', rfl, hfirst'⟩
    · obtain rfl := Option.some.inj hrun'
      exact absurd hreached h.not_reached
    · rw [List.prefix_nil] at hfirst'
      subst hfirst'
      rw [run_cons_of_step hstep] at hrun'
      obtain rfl := Option.some.inj hrun'
      exact hreached
  · intro hreached before hbefore
    rcases List.prefix_cons_iff.mp hbefore with rfl | ⟨before', rfl, -⟩
    · refine ⟨f, rfl, iff_of_false h.state ?_⟩
      rintro ⟨first, hfirst, g', hrun, hreached'⟩
      rw [List.prefix_nil] at hfirst
      subst hfirst
      obtain rfl := Option.some.inj hrun
      exact h.not_reached hreached'
    · obtain ⟨k, hrun, hk⟩ := hl.run_complete hclosed before'
      exact ⟨k, (run_cons_of_step hstep before').trans hrun, iff_of_true hk
        ⟨[c], by simp, g, run_cons_of_step hstep [], hreached⟩⟩

/-- **An open frame is complete in time** unless its entities become complete `n` times more,
as often as is left, and one was reworked before, in these calls or earlier. -/
theorem Counting.onTime_iff {r n : ℕ} (h : Counting f r) (hl : Links f chains)
    (hn : f.numCompletePipe + n = f.numRequestPipe) :
    f.CompletesOnTime calls ↔
      ¬ ((0 < r ∨ f.ReworkedEarly n calls) ∧ n ≤ f.completions calls) := by
  have hfew := h.few
  induction calls generalizing f r n with
  | nil =>
    refine iff_of_true (fun before hbefore => ?_) ?_
    · rw [List.prefix_nil] at hbefore
      subst hbefore
      refine ⟨f, rfl, iff_of_false h.state ?_⟩
      rintro ⟨first, hfirst, g', hrun, hreached⟩
      rw [List.prefix_nil] at hfirst
      subst hfirst
      obtain rfl := Option.some.inj hrun
      exact h.not_reached hreached
    · rintro ⟨-, hle⟩
      rw [Frame.completions] at hle
      omega
  | cons c calls ih =>
    obtain ⟨g, hstep, hg, hrequest, heffect⟩ := hl.step c
    have hcount := h.count
    -- A call after which the frame is still open, with `r'` entities reworked so far.
    have hopen {r' n' : ℕ} (h' : Counting g r') (hn' : n' = n - if f.completes c then 1 else 0)
        (hleft : g.numCompletePipe + n' = g.numRequestPipe) (hr : 0 < r' ↔ 0 < r ∨ f.Reworks c) :
        f.CompletesOnTime (c :: calls) ↔
          ¬ ((0 < r ∨ f.ReworkedEarly n (c :: calls)) ∧ n ≤ f.completions (c :: calls)) := by
      have hpos : 0 < n := by omega
      have hle : n ≤ f.completions (c :: calls) ↔ n' ≤ g.completions calls := by
        rw [completions_cons hstep]
        omega
      have hlater : g.CompletesOnTime calls ↔
          ¬ ((0 < r' ∨ g.ReworkedEarly n' calls) ∧ n' ≤ g.completions calls) :=
        ih h' hg hleft h'.few
      rw [h.onTime_cons hstep hrequest, hlater, hle, reworkedEarly_cons hstep, hr, ← hn', or_assoc]
      simp only [hpos, true_and]
    cases heffect with
    | same hcompletes hsame hentities hstate hno =>
      rw [hcompletes] at hopen
      refine @hopen r n ⟨hstate ▸ h.state, ?_, ?_⟩ rfl ?_ ⟨Or.inl, fun hor => ?_⟩
      · omega
      · omega
      · omega
      · exact hor.resolve_right hno
    | reworked hcompletes hsame hentities hstate hyes =>
      rw [hcompletes] at hopen
      refine @hopen (r + 1) n ⟨hstate ▸ h.state, ?_, ?_⟩ rfl ?_ ⟨fun _ => ?_, fun _ => ?_⟩
      · omega
      · omega
      · omega
      · exact Or.inr hyes
      · omega
    | counted hcompletes hsucc hentities hstate hno =>
      by_cases hlast : f.numRequestPipe ≤ f.numCompletePipe + 1
      · -- The frame closes: all of its count are entities, or some are not.
        rw [if_pos hlast] at hstate
        obtain rfl : n = 1 := by omega
        have hnever : ¬ g.ReworkedEarly 0 calls := by
          rintro ⟨_, _, _, _, _, _, _, hlt⟩
          exact absurd hlt (Nat.not_lt_zero _)
        rw [h.onTime_close hstep hg hstate, reworkedEarly_cons hstep, completions_cons hstep,
          hcompletes]
        simp only [hno, hnever, if_true, Nat.sub_self, and_false, or_false, Nat.le_add_right,
          and_true]
        omega
      · rw [if_neg hlast] at hstate
        rw [hcompletes] at hopen
        refine @hopen r (n - 1) ⟨hstate ▸ h.state, ?_, ?_⟩ rfl ?_ ⟨Or.inl, fun hor => ?_⟩
        · omega
        · omega
        · omega
        · exact hor.resolve_right hno

/-- **A frame that is built is complete in time** exactly when pipes are requested, and it is
not both that an entity becomes complete as many times and that a complete one is reworked
before the last of these. -/
theorem Built.completesOnTime_iff (h : Built f) (calls : List Call) :
    f.CompletesOnTime calls ↔
      0 < f.numRequestPipe ∧ ¬ (f.ReworkedEarly f.numRequestPipe calls ∧
        f.numRequestPipe ≤ f.completions calls) := by
  obtain ⟨chains, hl⟩ := h.links
  have hready := h.ready
  have hentities : f.completeEntities = 0 := by
    rw [Frame.completeEntities, List.countP_eq_zero]
    intro cell hcell hcomplete
    obtain ⟨i, hi⟩ := List.getElem?_of_mem hcell
    cases cell with
    | none => exact Bool.noConfusion hcomplete
    | some e =>
      have he : f.entity i = some e := by
        unfold Frame.entity Linked.read
        rw [hi]
        rfl
      rw [Option.any_some, decide_eq_true_eq, hready.entities i e he] at hcomplete
      exact EntityState.noConfusion hcomplete
  have hopen : f.frameState ≠ .complete := fun hcomplete =>
    FrameState.noConfusion (hready.state.symm.trans hcomplete)
  rcases Nat.eq_zero_or_pos f.numRequestPipe with hzero | hpos
  · refine iff_of_false (fun hall => ?_) (fun hand => Nat.lt_irrefl 0 (hzero ▸ hand.1))
    obtain ⟨g, hrun, hg⟩ := hall [] (List.nil_prefix)
    obtain rfl := Option.some.inj hrun
    exact hopen (hg.mpr ⟨[], List.nil_prefix, f, rfl, by omega⟩)
  · have hcounting : Counting f 0 := by
      have hcount := hready.complete
      exact ⟨hopen, by omega, by omega⟩
    have hcount := hready.complete
    rw [hcounting.onTime_iff (n := f.numRequestPipe) hl (by omega)]
    simp [hpos]

/-! ## The end of a frame -/

theorem deleteList_eq {heap : Store Entity} {ps : List (Option ℕ)} {ls : List (List ℕ)}
    (h : Chains Entity.nextEntity heap ps ls) (hdistinct : ls.flatten.Nodup) :
    deleteList heap ps = some (ls.flatten.foldl free heap, ls.flatten) := by
  induction ls generalizing heap ps with
  | nil =>
    obtain rfl := List.forall₂_nil_right_iff.mp h
    rfl
  | cons l ls ih =>
    obtain ⟨p, ps', hhead, htail, rfl⟩ := List.forall₂_cons_right_iff.mp h
    rw [List.flatten_cons] at hdistinct
    obtain ⟨hl, hls, hapart⟩ := List.nodup_append'.mp hdistinct
    have hrest : Chains Entity.nextEntity (l.foldl free heap) ps' ls := by
      refine Chains.congr htail fun a ha e he => ⟨e, ?_, rfl⟩
      have hnot : a ∉ l := fun hal => hapart hal ha
      rw [read_foldl_free, if_neg hnot]
      exact he
    rw [deleteList, hhead.release_eq hl (hhead.length_le hl), Option.bind_some]
    simp only [ih hrest hls, Option.map_some, List.flatten_cons, List.foldl_append]

/-- **The deletion of a frame** deletes every entity once, and leaves none. -/
theorem Links.deinit_spec (h : Links f chains) :
    ∃ g deleted, f.deinit = some (g, deleted) ∧ deleted.Nodup ∧
      (∀ a, a ∈ deleted ↔ ∃ e, f.entity a = some e) ∧ ∀ a, g.entity a = none := by
  have hmem (a : ℕ) : a ∈ chains.flatten ↔ ∃ e, f.entity a = some e := by
    constructor
    · exact h.live
    · rintro ⟨e, he⟩
      exact h.all a e he
  refine ⟨{ f with heap := chains.flatten.foldl free f.heap, linkageList := [] },
    chains.flatten, ?_, h.distinct, hmem, fun a => ?_⟩
  · rw [Frame.deinit, deleteList_eq h.linked h.distinct]
    rfl
  · unfold Frame.entity
    rw [read_foldl_free]
    split
    · rfl
    · rename_i hnot
      cases he : read f.heap a with
      | none => rfl
      | some e => exact absurd ((hmem a).mpr ⟨e, he⟩) hnot

/-! ## Frames as a whole -/

/-- A frame that is built. -/
structure BuiltFrame where
  frame : Frame
  built : Built frame

/-- **Completion, searches and deletion of a frame**, for every frame that is built and every
run of `setEntityState`. It is complete in time exactly when pipes are requested and no
complete entity is reworked before an entity becomes complete for the last requested time.
At every moment of the run each search ends, and returns `NULL` exactly when nothing is sought
unless something is, and nothing of it stops the search; it keeps off the end of the list
exactly when the list is empty or something stops it; and the frame can be deleted with every
entity once. -/
theorem frame_iff (F : BuiltFrame) (calls : List Call) :
    (F.frame.CompletesOnTime calls ↔
      0 < F.frame.numRequestPipe ∧ ¬ (F.frame.ReworkedEarly F.frame.numRequestPipe calls ∧
        F.frame.numRequestPipe ≤ F.frame.completions calls)) ∧
    ∀ before, before <+: calls → ∃ g, F.frame.run before = some g ∧
      (∀ s : Search, ∃ r, s.run g = some r ∧ (∀ a, r.entity = some a → g.Sought s a) ∧
        ((r.entity = none ↔ ¬ ∃ a, g.Sought s a) ↔
          ¬ ((∃ a, g.Sought s a) ∧ ∀ a, g.Sought s a → ¬ g.StopsAt s a)) ∧
        (r.readsEnd = false ↔ g.linkageList = [] ∨ ∃ a, g.Sought s a ∧ g.StopsAt s a)) ∧
      ∃ h deleted, g.deinit = some (h, deleted) ∧ deleted.Nodup ∧
        (∀ a, a ∈ deleted ↔ ∃ e, g.entity a = some e) ∧ ∀ a, h.entity a = none := by
  refine ⟨F.built.completesOnTime_iff calls, fun before _ => ?_⟩
  obtain ⟨chains, hl⟩ := F.built.links
  obtain ⟨g, hrun, hg, -⟩ := hl.run before
  refine ⟨g, hrun, fun s => ?_, hg.deinit_spec⟩
  obtain ⟨r, hsearch, hsome, hnone, hend⟩ := hg.search_spec s
  refine ⟨r, hsearch, hsome, ?_, hend⟩
  rw [hnone]
  constructor
  · rintro hiff ⟨hsought, hpassed⟩
    exact hiff.mp (fun ⟨a, ha, hstops⟩ => hpassed a ha hstops) hsought
  · intro hnot
    refine not_congr ⟨fun ⟨a, ha, _⟩ => ⟨a, ha⟩, fun hsought => ?_⟩
    by_contra hnothing
    exact hnot ⟨hsought, fun a ha hstops => hnothing ⟨a, ha, hstops⟩⟩

/-- Two siblings, with the pipes 1 and 2, and both requested. -/
def twoPipes : Frame :=
  let f := ((Frame.init 100).setNumRequestPipe 2).newEntity 1
  let g := (f.1.addSiblingEntity f.2).newEntity 2
  g.1.addSiblingEntity g.2

theorem built_twoPipes : Built twoPipes := by
  refine Built.sibling 2 (Built.sibling 1 (Built.request 2 (Built.init 100)) ?_) ?_
  · intro a e he
    exact absurd (he.symm.trans (entity_init 100 a)) (Option.some_ne_none e)
  · intro a e he
    have hnew : (((Frame.init 100).setNumRequestPipe 2).newEntity 1).1.entity a = some e := he
    rw [entity_newEntity] at hnew
    split at hnew
    · obtain rfl := Option.some.inj hnew
      decide
    · exact absurd (hnew.symm.trans (entity_init 100 a)) (Option.some_ne_none e)

/-- **A frame of two pipes that is complete with one**: that one becomes complete, is
reworked and becomes complete again. And a search that finds nothing reads through the end
of the list, as soon as the frame is built. -/
theorem not_frame :
    ∃ F : BuiltFrame, ¬ F.frame.CompletesOnTime [(1, .complete), (1, .rework), (1, .complete)] ∧
      ∃ r, F.frame.getFrameDoneEntity = some r ∧ r.readsEnd = true := by
  refine ⟨⟨twoPipes, built_twoPipes⟩, ?_, ⟨none, true⟩, rfl, rfl⟩
  rw [built_twoPipes.completesOnTime_iff]
  rintro ⟨-, hnot⟩
  refine hnot ⟨⟨[(1, .complete)], (1, .rework), [(1, .complete)], _, rfl, rfl, ?_, ?_⟩, ?_⟩
  · exact ⟨rfl, 0, _, rfl, rfl, rfl⟩
  · decide
  · decide

end ExynosVendor.Camera.FrameEntity
