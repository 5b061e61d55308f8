import ExynosVendor.Ril.Core.Message
import ExynosVendor.Common.DeadlineQueue
import ExynosVendor.Common.Run

/-!
# The timer list as a deadline queue

What `TimerList` is for is a `DeadlineQueue` of messages, due at the time
they were put plus the delay, which is cut at five minutes. A run of calls
keeps the list and the queue side by side (`Timers`). Two comparisons can
part them: `add` carries a sum of microseconds only when it is more than a
million, and `compare` returns its difference of seconds as an `int`.
`PutExact` is that a `put` meets neither, and `deadlinesKept_iff` that the
runs that keep the list right are the ones whose puts are exact.
-/

namespace ExynosVendor.Ril

namespace Timeval

/-- Microseconds in all. -/
def micros (tv : Timeval) : ℤ := tv.tvSec * 1000000 + tv.tvUsec

/-- The microseconds are less than a second. -/
def Normalised (tv : Timeval) : Prop := 0 ≤ tv.tvUsec ∧ tv.tvUsec < 1000000

instance (tv : Timeval) : Decidable tv.Normalised := inferInstanceAs (Decidable (_ ∧ _))

@[simp]
theorem micros_add (tv : Timeval) (millis : ℕ) :
    (tv.add millis).micros = tv.micros + 1000 * millis := by
  simp only [add, micros]
  split_ifs <;> dsimp only <;> omega

/-- **The sum is normalised** unless it is a second to the microsecond. -/
theorem normalised_add_iff {tv : Timeval} (h : tv.Normalised) (millis : ℕ) :
    (tv.add millis).Normalised ↔ tv.tvUsec + (millis % 1000 * 1000 : ℕ) ≠ 1000000 := by
  obtain ⟨h0, h1⟩ := h
  have hrest : millis * 1000 % 1000000 = millis % 1000 * 1000 := by omega
  simp only [add, Normalised, hrest]
  split_ifs with hcarry <;> dsimp only <;> omega

theorem tvSec_add_bounds {tv : Timeval} (h : tv.Normalised) (millis : ℕ) :
    tv.tvSec ≤ (tv.add millis).tvSec ∧ (tv.add millis).tvSec ≤ tv.tvSec + (millis / 1000 : ℕ) + 1 := by
  obtain ⟨h0, h1⟩ := h
  simp only [add]
  split_ifs with hcarry <;> dsimp only <;> omega

/-- **The comparison is right** as far as the seconds are not too far
apart for an `int`. -/
theorem compare_pos_iff {l r : Timeval} (hl : l.Normalised) (hr : r.Normalised)
    (hlate : l.tvSec < r.tvSec + 2 ^ 31)
    (hnear : l.tvSec < r.tvSec → (r.tvSec - l.tvSec) % 2 ^ 32 ≤ 2 ^ 31) :
    0 < l.compare r ↔ r.micros < l.micros := by
  obtain ⟨hl0, hl1⟩ := hl
  obtain ⟨hr0, hr1⟩ := hr
  simp only [compare, micros]
  split_ifs with hsec
  · rw [toInt_of_lt (by omega) (by omega)]
    omega
  · rcases Int.lt_or_gt_of_ne hsec with hlt | hgt
    · have hmod := hnear hlt
      have hneg : ¬ 0 < toInt (l.tvSec - r.tvSec) := by
        rw [toInt, Int.bmod_def]
        omega
      omega
    · rw [toInt_of_lt (by omega) (by omega)]
      omega

theorem compare_pos_of_far {l r : Timeval} (hfar : 2 ^ 31 < (r.tvSec - l.tvSec) % 2 ^ 32) :
    0 < l.compare r := by
  have hsec : l.tvSec ≠ r.tvSec := by
    intro heq
    rw [heq] at hfar
    omega
  rw [compare, if_neg hsec, toInt, Int.bmod_def]
  omega

end Timeval

/-! ## Runs of calls -/

/-- A call of the list, with what the clock shows when it is asked. -/
inductive TimerCall where
  | put (now : Timeval) (msg : Message) (millis : ℕ)
  | pop
  | erase (msg : Message)

/-- **The list and the queue** it is meant to be. -/
structure Timers where
  /-- `mList`. -/
  list : List TimerEvent
  /-- What the clock showed last. -/
  now : Timeval
  /-- The queue, by microseconds. -/
  queue : DeadlineQueue ℤ Message

namespace Timers

/-- A new list. -/
def init (now : Timeval) : Timers := ⟨[], now, DeadlineQueue.empty⟩

/-- One call. -/
def step (s : Timers) : TimerCall → Timers
  | .put now msg millis =>
      { list := TimerList.put s.list now msg millis
        now := now
        queue := s.queue.put (now.micros + 1000 * (min millis TimerList.maxTimeout : ℕ)) msg }
  | .pop => { s with list := (TimerList.pop s.list).2, queue := s.queue.pop }
  | .erase msg =>
      { s with
        list := TimerList.erase s.list msg
        queue := s.queue.erase fun m => decide (m.ptr = msg.ptr) }

/-- The clock does not go back, and shows less than a second of
microseconds. -/
def ClockRuns (s : Timers) : TimerCall → Prop
  | .put now _ _ => s.now.micros ≤ now.micros ∧ now.Normalised
  | .pop => True
  | .erase _ => True

instance (s : Timers) (call : TimerCall) : Decidable (s.ClockRuns call) := by
  cases call <;> unfold ClockRuns <;> infer_instance

/-- An event is that of an entry. -/
def Matches (te : TimerEvent) (e : Pending ℤ Message) : Prop :=
  te.timeout.micros = e.due ∧ te.msg = e.item

/-- **The list is right**: its deadlines are normalised and stand in order,
its events are those of the queue, so each is due when it was put plus its
delay, and what `pop` returns is due before all others, or put before those
due with it. -/
structure DeadlinesKept (s : Timers) : Prop where
  normalised : ∀ te ∈ s.list, te.timeout.Normalised
  sorted : s.list.Pairwise fun te te' => te.timeout.micros ≤ te'.timeout.micros
  booked : List.Forall₂ Matches s.list s.queue.entries
  popped : ∀ te, (TimerList.pop s.list).1 = some te →
    ∃ e ∈ s.queue.entries, Matches te e ∧ ∀ f ∈ s.queue.entries, f = e ∨ e.Before f

/-- **A put is exact**: the microseconds of the sum are not a million, and
no deadline in the list is so long past that an `int` shows it as later. -/
def PutExact (s : Timers) : TimerCall → Prop
  | .put now _ millis =>
      now.tvUsec + (min millis TimerList.maxTimeout % 1000 * 1000 : ℕ) ≠ 1000000 ∧
        ∀ te ∈ s.list,
          te.timeout.tvSec < (now.add (min millis TimerList.maxTimeout)).tvSec →
            ((now.add (min millis TimerList.maxTimeout)).tvSec - te.timeout.tvSec) % 2 ^ 32 ≤
              2 ^ 31
  | .pop => True
  | .erase _ => True

instance (s : Timers) (call : TimerCall) : Decidable (s.PutExact call) := by
  cases call <;> unfold PutExact <;> infer_instance

/-- What a run keeps. -/
structure Sound (s : Timers) : Prop where
  clock : s.now.Normalised
  normalised : ∀ te ∈ s.list, te.timeout.Normalised
  near : ∀ te ∈ s.list, te.timeout.tvSec ≤ s.now.tvSec + 301
  booked : List.Forall₂ Matches s.list s.queue.entries

/-! ## A put -/

theorem insert_eq (te : TimerEvent) (list : List TimerEvent) :
    TimerList.insert te list =
      insertBefore (fun cur => decide (0 < cur.timeout.compare te.timeout)) te list := by
  induction list with
  | nil => rfl
  | cons cur rest ih =>
    rw [TimerList.insert, insertBefore, ih]
    simp only [decide_eq_true_eq, gt_iff_lt]

theorem put_eq (list : List TimerEvent) (now : Timeval) (msg : Message) (millis : ℕ) :
    TimerList.put list now msg millis =
      TimerList.insert ⟨now.add (min millis TimerList.maxTimeout), msg⟩ list := by
  have hcut : (if millis > TimerList.maxTimeout then TimerList.maxTimeout else millis) =
      min millis TimerList.maxTimeout := by
    split_ifs <;> omega
  rw [TimerList.put, hcut]

variable {now : Timeval}

theorem tvSec_due (h : now.Normalised) (millis : ℕ) :
    now.tvSec ≤ (now.add (min millis TimerList.maxTimeout)).tvSec ∧
      (now.add (min millis TimerList.maxTimeout)).tvSec ≤ now.tvSec + 301 := by
  have hbounds := Timeval.tvSec_add_bounds h (min millis TimerList.maxTimeout)
  have hcut : min millis TimerList.maxTimeout / 1000 ≤ 300 := by
    rw [TimerList.maxTimeout]
    omega
  omega

theorem tvSec_le_of_micros_le {a b : Timeval} (ha : a.Normalised) (hb : b.Normalised)
    (h : a.micros ≤ b.micros) : a.tvSec ≤ b.tvSec := by
  obtain ⟨ha0, ha1⟩ := ha
  obtain ⟨hb0, hb1⟩ := hb
  simp only [Timeval.micros] at h
  omega

variable {s : Timers}

/-- **A put that is exact** keeps the list right. -/
theorem Sound.put (hs : s.Sound) {msg : Message} {millis : ℕ}
    (hclock : s.ClockRuns (.put now msg millis)) (hexact : s.PutExact (.put now msg millis)) :
    (s.step (.put now msg millis)).Sound := by
  obtain ⟨hlater, hnow⟩ := hclock
  obtain ⟨hcarry, hnear⟩ := hexact
  have hdue := (Timeval.normalised_add_iff hnow _).mpr hcarry
  have hsec := tvSec_due hnow millis
  have hrun := tvSec_le_of_micros_le hs.clock hnow hlater
  have hmem : ∀ te ∈ TimerList.put s.list now msg millis,
      te = ⟨now.add (min millis TimerList.maxTimeout), msg⟩ ∨ te ∈ s.list := by
    intro te hte
    rwa [put_eq, insert_eq, mem_insertBefore] at hte
  refine ⟨hnow, ?_, ?_, ?_⟩
  · intro te hte
    rcases hmem te hte with rfl | hold
    · exact hdue
    · exact hs.normalised te hold
  · intro te hte
    rcases hmem te hte with rfl | hold
    · exact hsec.2
    · have hle := hs.near te hold
      change te.timeout.tvSec ≤ now.tvSec + 301
      omega
  · -- the code's test is the queue's
    change List.Forall₂ Matches (TimerList.put s.list now msg millis) _
    rw [put_eq, insert_eq]
    refine forall₂_insertBefore hs.booked ⟨Timeval.micros_add _ _, rfl⟩ ?_
    intro te hte e hmatch
    have hle := hs.near te hte
    rw [decide_eq_decide, Timeval.compare_pos_iff (hs.normalised te hte) hdue (by omega)
      (hnear te hte), Timeval.micros_add, hmatch.1]

theorem Sound.pop (hs : s.Sound) : (s.step .pop).Sound := by
  have hlist : (s.step .pop).list = s.list.tail := by
    cases h : s.list <;> simp [step, TimerList.pop, h]
  have hmem : ∀ te ∈ (s.step .pop).list, te ∈ s.list := by
    intro te hte
    rw [hlist] at hte
    exact List.mem_of_mem_tail hte
  refine ⟨hs.clock, fun te hte => hs.normalised te (hmem te hte),
    fun te hte => hs.near te (hmem te hte), ?_⟩
  rw [hlist]
  exact forall₂_tail hs.booked

theorem Sound.erase (hs : s.Sound) (msg : Message) : (s.step (.erase msg)).Sound := by
  have hmem : ∀ te ∈ (s.step (.erase msg)).list, te ∈ s.list :=
    fun te hte => List.mem_of_mem_eraseP hte
  refine ⟨hs.clock, fun te hte => hs.normalised te (hmem te hte),
    fun te hte => hs.near te (hmem te hte), ?_⟩
  refine forall₂_eraseP hs.booked fun te e hmatch => ?_
  rw [hmatch.2]

/-- **An exact call keeps the list right.** -/
theorem Sound.step (hs : s.Sound) {call : TimerCall} (hclock : s.ClockRuns call)
    (hexact : s.PutExact call) : (s.step call).Sound := by
  cases call with
  | put now msg millis => exact hs.put hclock hexact
  | pop => exact hs.pop
  | erase msg => exact hs.erase msg

theorem sound_init (h : now.Normalised) : (init now).Sound where
  clock := h
  normalised := fun _ hte => absurd hte List.not_mem_nil
  near := fun _ hte => absurd hte List.not_mem_nil
  booked := List.Forall₂.nil

/-- The order of the queue is that of the deadlines. -/
theorem sorted_of_booked {list : List TimerEvent} {entries : List (Pending ℤ Message)}
    (h : List.Forall₂ Matches list entries) (hordered : entries.Pairwise Pending.Before) :
    list.Pairwise fun te te' => te.timeout.micros ≤ te'.timeout.micros := by
  have hdues : list.map (·.timeout.micros) = entries.map (·.due) := by
    induction h with
    | nil => rfl
    | cons hmatch _ ih => rw [List.map_cons, List.map_cons, hmatch.1, ih hordered.tail]
  have hpairs : (entries.map (·.due)).Pairwise (· ≤ ·) :=
    List.pairwise_map.mpr (hordered.imp Pending.Before.due_le)
  rw [← hdues] at hpairs
  exact List.pairwise_map.mp hpairs

/-- What a run keeps is enough. -/
theorem Sound.deadlinesKept (hs : s.Sound) : s.DeadlinesKept where
  normalised := hs.normalised
  sorted := sorted_of_booked hs.booked s.queue.ordered
  booked := hs.booked
  popped := by
    intro te hte
    have hbooked := hs.booked
    cases hlist : s.list with
    | nil =>
      rw [hlist] at hte
      exact absurd hte (by simp [TimerList.pop])
    | cons first rest =>
      rw [hlist] at hte hbooked
      obtain ⟨e, entries, hmatch, -, hentries⟩ := List.forall₂_cons_left_iff.mp hbooked
      obtain rfl : first = te := Option.some.inj hte
      have hmem : e ∈ s.queue.entries := by
        rw [hentries]
        exact List.mem_cons_self
      have hhead : s.queue.entries.head? = some e := by
        rw [hentries]
        rfl
      refine ⟨e, hmem, hmatch, fun f hf => ?_⟩
      rw [hentries] at hf
      rcases List.mem_cons.mp hf with rfl | htail
      · exact Or.inl rfl
      · refine Or.inr (DeadlineQueue.before_of_head hhead f ?_)
        rw [hentries]
        exact htail

/-- **A put that keeps the list right was exact.** -/
theorem exact_of_deadlinesKept (hs : s.Sound) {call : TimerCall} (hclock : s.ClockRuns call)
    (hkept : (s.step call).DeadlinesKept) : s.PutExact call := by
  cases call with
  | pop => trivial
  | erase msg => trivial
  | put now msg millis =>
    obtain ⟨-, hnow⟩ := hclock
    have hlist : (s.step (.put now msg millis)).list =
        insertBefore (fun cur => decide (0 < cur.timeout.compare
          (now.add (min millis TimerList.maxTimeout)))) ⟨now.add (min millis TimerList.maxTimeout), msg⟩
          s.list := by
      change TimerList.put s.list now msg millis = _
      rw [put_eq, insert_eq]
    refine ⟨?_, fun te hte hearly => ?_⟩
    · refine (Timeval.normalised_add_iff hnow _).mp (hkept.normalised ⟨_, msg⟩ ?_)
      rw [hlist, mem_insertBefore]
      exact Or.inl rfl
    · by_contra hfar
      have hdue : (now.add (min millis TimerList.maxTimeout)).Normalised := by
        refine hkept.normalised ⟨_, msg⟩ ?_
        rw [hlist, mem_insertBefore]
        exact Or.inl rfl
      -- the event is put before one that is due earlier
      have hsorted := hkept.sorted
      rw [hlist] at hsorted
      have hwrong := rel_of_pairwise_insertBefore hsorted hte
        (decide_eq_true (Timeval.compare_pos_of_far (not_le.mp hfar)))
      obtain ⟨hdue0, hdue1⟩ := hdue
      obtain ⟨hte0, hte1⟩ := hs.normalised te hte
      simp only [Timeval.micros] at hwrong
      omega

/-- **The runs that keep the list right** are those whose puts are exact. -/
theorem deadlinesKept_iff {now : Timeval} (hnow : now.Normalised) {calls : List TimerCall}
    (hclock : Run.Throughout step ClockRuns (init now) calls) :
    Run.Always step DeadlinesKept (init now) calls ↔
      Run.Throughout step PutExact (init now) calls :=
  Run.Always.iff_throughout (fun _ hs => hs.deadlinesKept)
    (fun _ _ hs hc hexact => hs.step hc hexact)
    (fun _ _ hs hc hkept => exact_of_deadlinesKept hs hc hkept) (sound_init hnow) hclock

/-- A run of two puts, the second due first. -/
theorem deadlinesKept_two : Run.Always step DeadlinesKept (init ⟨5, 0⟩)
    [.put ⟨5, 999000⟩ ⟨1, 0, 0, .request, none, none, none, .none⟩ 2,
      .put ⟨5, 999500⟩ ⟨2, 0, 0, .request, none, none, none, .none⟩ 1, .pop,
      .erase ⟨1, 0, 0, .request, none, none, none, .none⟩] :=
  (deadlinesKept_iff (by decide) (by decide)).mpr (by decide)

/-- A deadline a second to the microsecond is not normalised. -/
theorem not_deadlinesKept_million :
    Timeval.Normalised ⟨0, 0⟩ ∧
      Run.Throughout step ClockRuns (init ⟨0, 0⟩)
        [.put ⟨0, 999000⟩ ⟨1, 0, 0, .request, none, none, none, .none⟩ 1] ∧
      ¬ Run.Always step DeadlinesKept (init ⟨0, 0⟩)
        [.put ⟨0, 999000⟩ ⟨1, 0, 0, .request, none, none, none, .none⟩ 1] := by
  refine ⟨by decide, by decide, fun h => ?_⟩
  have hnorm := h.last.normalised ⟨⟨0, 1000000⟩, ⟨1, 0, 0, .request, none, none, none, .none⟩⟩
    (by decide)
  exact absurd hnorm (by decide)

end Timers

end ExynosVendor.Ril
