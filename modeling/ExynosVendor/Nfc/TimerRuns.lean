import ExynosVendor.Nfc.OsiTimer

/-!
# What the timers keep

Over every run of the timers and their threads: `usingTimer` is the number of
timers that run, each start is answered by one callback unless it is taken
back, and none comes early. `Sound` is what a run has to spare the code: a
stop whose timer has fired since it was tested, and a tick that ends a
countdown while the clock is in the gaps of the guard.
-/

namespace ExynosVendor.Nfc

open List

/-! ## The sections under the lock -/

/-- A timer that runs counts. -/
def OsiTimer.isRun (t : OsiTimer) : ℕ := if t.state = .run then 1 else 0

namespace OsiTimers

/-- How many timers run. -/
def running (s : OsiTimers) : ℕ := s.timer.countP fun t => t.state = .run

theorem countP_set {timer : List OsiTimer} {i : ℕ} {t u : OsiTimer} (h : timer[i]? = some t) :
    (timer.set i u).countP (fun t => t.state = .run) + t.isRun =
      timer.countP (fun t => t.state = .run) + u.isRun := by
  induction timer generalizing i with
  | nil => exact absurd h (by simp)
  | cons v timer ih =>
    cases i with
    | zero =>
      obtain rfl : v = t := by simpa using h
      rw [set_cons_zero, countP_cons, countP_cons]
      simp only [OsiTimer.isRun, decide_eq_true_eq]
      omega
    | succ i =>
      have hrest := ih (i := i) (by simpa using h)
      rw [set_cons_succ, countP_cons, countP_cons]
      omega

variable {s : OsiTimers} {index : ℕ} {t : OsiTimer}

theorem started_state (timeout : ℕ) (now : ℤ) (callback : Option TimerCallback) (t : OsiTimer) :
    ({ note timeout now callback t with state := .run } : OsiTimer).state = .run := rfl

theorem started_timeout (timeout : ℕ) (now : ℤ) (callback : Option TimerCallback) (t : OsiTimer) :
    ({ note timeout now callback t with state := .run } : OsiTimer).timeout = toInt timeout := by
  simp only [note]

/-- **A start** makes its timer run, and counts it when it did not. -/
theorem start_spec (h : s.timer[index]? = some t) (timeout : ℕ) (now : ℤ)
    (callback : Option TimerCallback) :
    (s.start index timeout now callback).1.timer =
        s.timer.set index { note timeout now callback t with state := .run } ∧
      (s.start index timeout now callback).1.usingTimer = s.usingTimer + 1 - t.isRun ∧
      ((s.start index timeout now callback).2 = true ↔ t.state ≠ .run ∧ s.usingTimer < 1) := by
  unfold start OsiTimer.isRun
  rw [h]
  by_cases hrun : t.state = .run
  · have hsame : { note timeout now callback t with state := .run } = note timeout now callback t := by
      unfold note
      rw [← hrun]
    dsimp only
    rw [if_neg (not_not.mpr hrun), if_pos hrun, hsame]
    exact ⟨rfl, by dsimp only; omega, by simp [hrun]⟩
  · dsimp only
    rw [if_pos hrun, if_neg hrun]
    by_cases hfirst : s.usingTimer < 1
    · rw [if_pos hfirst]
      exact ⟨rfl, by dsimp only; omega, by simp [hrun, hfirst]⟩
    · rw [if_neg hfirst]
      exact ⟨rfl, by dsimp only; omega, by simp [hfirst]⟩

theorem stop_spec (h : s.timer[index]? = some t) :
    (s.stop index).timer = s.timer.set index { t with state := .stop } ∧
      (s.stop index).usingTimer = s.usingTimer - 1 := by
  unfold stop
  rw [h]
  exact ⟨rfl, rfl⟩

theorem free_spec (h : s.timer[index]? = some t) :
    (s.free index).timer =
        s.timer.set index { t with state := .free, name := none, callback := none } ∧
      (s.free index).usingTimer = s.usingTimer - t.isRun := by
  unfold free OsiTimer.isRun
  rw [h]
  refine ⟨rfl, ?_⟩
  dsimp only
  split_ifs <;> omega

/-- What the loop of `OSI_timer_allocate` finds is free. -/
theorem findFree_spec {timerName : String} {timer : List OsiTimer} {i found : ℕ}
    {freeTimer : Option ℕ} (h : findFree timerName timer i freeTimer = some found) :
    freeTimer = some found ∨ ∃ j t, found = i + j ∧ timer[j]? = some t ∧ t.state = .free := by
  induction timer generalizing i freeTimer with
  | nil => exact .inl h
  | cons t timer ih =>
    have hbehind : ∀ j u, found = i + 1 + j → timer[j]? = some u → u.state = .free →
        ∃ j t', found = i + j ∧ (t :: timer)[j]? = some t' ∧ t'.state = .free :=
      fun j u hfound hget hfree => ⟨j + 1, u, by omega, hget, hfree⟩
    unfold findFree at h
    split_ifs at h with hfree hfirst hname
    · rcases ih h with heq | ⟨j, u, hfound, hget, hu⟩
      · obtain rfl := Option.some.inj heq
        exact .inr ⟨0, t, rfl, rfl, hfree⟩
      · exact .inr (hbehind j u hfound hget hu)
    · rcases ih h with heq | ⟨j, u, hfound, hget, hu⟩
      · exact .inl heq
      · exact .inr (hbehind j u hfound hget hu)
    · rcases ih h with heq | ⟨j, u, hfound, hget, hu⟩
      · exact .inl heq
      · exact .inr (hbehind j u hfound hget hu)

/-- **An allocation** takes a timer that is free, and none is counted. -/
theorem allocate_spec (s : OsiTimers) (timerName : String) :
    (s.allocate timerName).1 = s ∨ ∃ index t, s.timer[index]? = some t ∧ t.state = .free ∧
      (s.allocate timerName).1.timer = s.timer.set index
        { t with timeout := 0, name := some timerName, callback := none, state := .allocated } ∧
      (s.allocate timerName).1.usingTimer = s.usingTimer := by
  unfold allocate
  cases hfind : findFree timerName s.timer 0 none with
  | none => exact .inl rfl
  | some index =>
    rcases findFree_spec hfind with hnone | ⟨j, t, hj, hget, hfree⟩
    · exact absurd hnone (by simp)
    · obtain rfl : index = j := by omega
      refine .inr ⟨index, t, hget, hfree, ?_, rfl⟩
      dsimp only
      rw [modify_eq_set_getElem?, hget]
      rfl

end OsiTimers

/-! ## A tick -/

section Tick

variable {t : OsiTimer} {now : ℤ}

/-- **A timer fires** when it runs, its countdown ends, and the clock does not
hold it back. -/
theorem OsiTimer.update_fires (t : OsiTimer) (now : ℤ) :
    (t.update now 1).2 = true ↔ t.state = .run ∧ t.timeout ≤ 1 ∧
      ¬ (t.exactTime ≤ now ∧ now - t.exactTime ≤ t.initTimeout) := by
  unfold OsiTimer.update
  by_cases hrun : t.state = .run
  · by_cases hend : t.timeout - 1 ≤ 0
    · by_cases hclock : now - t.exactTime > t.initTimeout ∨ now < t.exactTime
      · rw [if_pos hrun]
        dsimp only
        rw [if_pos hend, if_pos hclock]
        exact ⟨fun _ => ⟨hrun, by omega, by omega⟩, fun _ => rfl⟩
      · rw [if_pos hrun]
        dsimp only
        rw [if_pos hend, if_neg hclock]
        exact ⟨fun h => absurd h (by simp), fun h => absurd h.2.2 (by omega)⟩
    · rw [if_pos hrun]
      dsimp only
      rw [if_neg hend]
      exact ⟨fun h => absurd h (by simp), fun h => absurd h.2.1 (by omega)⟩
  · rw [if_neg hrun]
    exact ⟨fun h => absurd h (by simp), fun h => absurd h.1 hrun⟩

/-- And what becomes of it. -/
theorem OsiTimer.update_spec (t : OsiTimer) (now : ℤ) :
    ((t.update now 1).2 = true → (t.update now 1).1.state = .stop) ∧
      ((t.update now 1).2 = false → (t.update now 1).1.state = t.state ∧
        (t.state = .run → (t.update now 1).1.exactTime = t.exactTime ∧
          (t.update now 1).1.initTimeout = t.initTimeout ∧
          ((t.update now 1).1.timeout = t.timeout - 1 ∨
            t.exactTime ≤ now ∧ now - t.exactTime ≤ t.initTimeout ∧ t.timeout ≤ 1 ∧
              (t.update now 1).1.timeout = t.initTimeout - (now - t.exactTime)))) := by
  unfold OsiTimer.update
  by_cases hrun : t.state = .run
  · rw [if_pos hrun]
    dsimp only
    by_cases hend : t.timeout - 1 ≤ 0
    · rw [if_pos hend]
      by_cases hclock : now - t.exactTime > t.initTimeout ∨ now < t.exactTime
      · rw [if_pos hclock]
        exact ⟨fun _ => rfl, fun h => absurd h (by simp)⟩
      · rw [if_neg hclock]
        refine ⟨fun h => absurd h (by simp), fun _ => ⟨rfl, fun _ => ⟨rfl, rfl, .inr ?_⟩⟩⟩
        exact ⟨by omega, by omega, by omega, rfl⟩
    · rw [if_neg hend]
      exact ⟨fun h => absurd h (by simp), fun _ => ⟨rfl, fun _ => ⟨rfl, rfl, .inl rfl⟩⟩⟩
  · rw [if_neg hrun]
    exact ⟨fun h => absurd h (by simp), fun _ => ⟨rfl, fun h => absurd h hrun⟩⟩

theorem OsiTimer.isRun_update (t : OsiTimer) (now : ℤ) :
    (t.update now 1).1.isRun + (if (t.update now 1).2 then 1 else 0) = t.isRun := by
  obtain ⟨hfires, hstays⟩ := t.update_spec now
  cases hfired : (t.update now 1).2 with
  | true =>
    have hrun := ((t.update_fires now).mp hfired).1
    simp [OsiTimer.isRun, hfires hfired, hrun]
  | false =>
    simp [OsiTimer.isRun, (hstays hfired).1]

/-- **A tick counts off the timers that fire.** -/
theorem OsiTimers.running_map (timer : List OsiTimer) (now : ℤ) :
    (timer.map fun t => (t.update now 1).1).countP (fun t => t.state = .run) +
      timer.countP (fun t => (t.update now 1).2) = timer.countP fun t => t.state = .run := by
  induction timer with
  | nil => rfl
  | cons t timer ih =>
    have hone := t.isRun_update now
    rw [map_cons, countP_cons, countP_cons, countP_cons]
    simp only [OsiTimer.isRun, decide_eq_true_eq] at hone ⊢
    omega

/-- **Which timers fire** in a tick. -/
theorem OsiTimers.update_fires (s : OsiTimers) (now : ℤ) (index : ℕ) :
    (s.update now 1).2 index = true ↔ 0 < s.usingTimer ∧
      ∃ t, s.timer[index]? = some t ∧ (t.update now 1).2 = true := by
  unfold update
  split_ifs with husing
  · exact ⟨fun h => absurd h (by simp), fun h => absurd h.1 (by omega)⟩
  · dsimp only
    rw [Option.any_eq_true]
    exact ⟨fun h => ⟨by omega, h⟩, fun h => h.2⟩

end Tick

/-! ## What a run keeps -/

/-- **A start is answered once**: until then its timer runs, and then it is
stopped. -/
structure Life.Fits (l : Life) (t : OsiTimer) : Prop where
  answered : l.live = true → t.state = .run ∧ l.fires = 0 ∨ t.state = .stop ∧ l.fires = 1
  once : l.fires ≤ 1
  running : t.state = .run → l.live = true
  noted : t.state = .run → t.exactTime = osiTimerGetCurrentTime l.since ∧
    t.initTimeout = toInt (l.requested - 10)

/-- **A timer that fires** answers its start. -/
theorem Life.Fits.update {l : Life} {t : OsiTimer} (h : l.Fits t) (now : ℤ) :
    (if (t.update now 1).2 then { l with fires := l.fires + 1 } else l).Fits (t.update now 1).1 := by
  obtain ⟨hfires, hstays⟩ := t.update_spec now
  cases hfired : (t.update now 1).2 with
  | true =>
    have hrun := ((t.update_fires now).mp hfired).1
    have hstop := hfires hfired
    have hzero : l.fires = 0 := by
      rcases h.answered (h.running hrun) with ⟨-, hzero⟩ | ⟨hstopped, -⟩
      · exact hzero
      · rw [hrun] at hstopped
        exact absurd hstopped (by decide)
    rw [if_pos rfl]
    refine ⟨fun _ => .inr ⟨hstop, by dsimp only; omega⟩, by dsimp only; omega, fun hrun => ?_,
      fun hrun => ?_⟩
    · rw [hstop] at hrun
      exact absurd hrun (by decide)
    · rw [hstop] at hrun
      exact absurd hrun (by decide)
  | false =>
    obtain ⟨hstate, hnoted⟩ := hstays hfired
    rw [if_neg (by decide)]
    refine ⟨fun hlive => ?_, h.once, fun hrun => ?_, fun hrun => ?_⟩
    · rw [hstate]
      exact h.answered hlive
    · rw [hstate] at hrun
      exact h.running hrun
    · rw [hstate] at hrun
      obtain ⟨hexact, hinit, -⟩ := hnoted hrun
      rw [hexact, hinit]
      exact h.noted hrun

namespace TimerSystem

/-- How much of the day has passed since a timer was started. -/
def elapsed (s : TimerSystem) (index : ℕ) : ℕ := (s.clock - (s.life index).since) % msPerDay

/-- **What a run has to spare the code**: a stop whose timer does not run any
more, and the end of a countdown before the timeout has passed, unless the
clock is at least ten milliseconds short of it and not past midnight. -/
def Sound (s : TimerSystem) : TimerStep → Prop
  | .stop n => ∀ index t, s.stopping[n]? = some index → s.osi.timer[index]? = some t →
      t.state = .run
  | .tick => s.sleeping ≠ 0 → ∀ index t, s.osi.timer[index]? = some t → t.state = .run →
      t.timeout ≤ 1 → (s.life index).requested ≤ s.elapsed index ∨
        t.exactTime ≤ osiTimerGetCurrentTime s.clock ∧
          osiTimerGetCurrentTime s.clock - t.exactTime ≤ t.initTimeout
  | _ => True

/-- **What a run keeps.** -/
structure Inv (s : TimerSystem) : Prop where
  count : s.osi.usingTimer = s.osi.running
  fits : ∀ index t, s.osi.timer[index]? = some t → (s.life index).Fits t
  since : ∀ index, (s.life index).since ≤ s.clock
  threads : 0 < s.osi.usingTimer → 0 < s.looping + s.sleeping
  starting : ∀ p ∈ s.starting, p.1 < s.osi.timer.length
  stopping : ∀ index ∈ s.stopping, index < s.osi.timer.length

section Keep

variable {s s' : TimerSystem} {index : ℕ} {t u : OsiTimer} {l : Life}

/-- **A step on one timer** that counts it rightly. -/
theorem Inv.set (h : Inv s) (hget : s.osi.timer[index]? = some t)
    (htimer : s'.osi.timer = s.osi.timer.set index u)
    (husing : s'.osi.usingTimer = s.osi.usingTimer + u.isRun - t.isRun)
    (hlife : s'.life = Function.update s.life index l) (hfits : l.Fits u)
    (hsince : l.since ≤ s.clock) (hclock : s'.clock = s.clock)
    (hthreads : 0 < s'.osi.usingTimer → 0 < s'.looping + s'.sleeping)
    (hstarting : ∀ p ∈ s'.starting, p ∈ s.starting)
    (hstopping : ∀ i ∈ s'.stopping, i ∈ s.stopping) : Inv s' := by
  refine ⟨?_, fun i v hv => ?_, fun i => ?_, hthreads, fun p hp => ?_, fun i hi => ?_⟩
  · have hcount := h.count
    have hset := OsiTimers.countP_set (u := u) hget
    unfold OsiTimers.running at hcount ⊢
    rw [htimer]
    omega
  · rw [htimer] at hv
    rw [hlife]
    by_cases hi : i = index
    · subst hi
      obtain ⟨hlt, -⟩ := List.getElem?_eq_some_iff.mp hget
      rw [getElem?_set_self hlt] at hv
      obtain rfl := Option.some.inj hv
      rw [Function.update_self]
      exact hfits
    · rw [getElem?_set_ne (Ne.symm hi)] at hv
      rw [Function.update_of_ne hi]
      exact h.fits i v hv
  · rw [hlife, hclock]
    by_cases hi : i = index
    · subst hi
      rw [Function.update_self]
      exact hsince
    · rw [Function.update_of_ne hi]
      exact h.since i
  · rw [htimer, length_set]
    exact h.starting p (hstarting p hp)
  · rw [htimer, length_set]
    exact h.stopping i (hstopping i hi)

theorem Inv.using_pos (h : Inv s) (hget : s.osi.timer[index]? = some t) (hrun : t.state = .run) :
    0 < s.osi.usingTimer := by
  have hcount := h.count
  have hpos : 0 < s.osi.running :=
    countP_pos_iff.mpr ⟨t, mem_of_getElem? hget, by simpa using hrun⟩
  omega

theorem Inv.allocate (h : Inv s) (timerName : String) : Inv (s.step (.allocate timerName)) := by
  rcases s.osi.allocate_spec timerName with hsame | ⟨index, t, hget, hfree, htimer, husing⟩
  · show Inv { s with osi := (s.osi.allocate timerName).1 }
    rw [hsame]
    exact h
  · have hfits := h.fits index t hget
    have hdead : (s.life index).live = false := by
      rw [← Bool.not_eq_true]
      intro hlive
      rcases hfits.answered hlive with ⟨hrun, -⟩ | ⟨hstop, -⟩
      · rw [hfree] at hrun
        exact absurd hrun (by decide)
      · rw [hfree] at hstop
        exact absurd hstop (by decide)
    refine h.set hget htimer ?_ (Function.update_eq_self index s.life).symm
      ⟨fun hlive => ?_, hfits.once, fun hrun => ?_, fun hrun => ?_⟩ (h.since index) rfl ?_
      (fun p hp => hp) fun i hi => hi
    · simp [OsiTimer.isRun, hfree, step, husing]
    · rw [hdead] at hlive
      exact absurd hlive (by decide)
    · exact absurd hrun (by simp)
    · exact absurd hrun (by simp)
    · intro hpos
      refine h.threads ?_
      rw [← husing]
      exact hpos

theorem Inv.stop (h : Inv s) (n : ℕ) (hsound : s.Sound (.stop n)) : Inv (s.step (.stop n)) := by
  cases hn : s.stopping[n]? with
  | none => simpa [step, hn] using h
  | some index =>
    obtain ⟨t, hget⟩ : ∃ t, s.osi.timer[index]? = some t :=
      ⟨_, getElem?_eq_getElem (h.stopping index (mem_of_getElem? hn))⟩
    have hrun := hsound index t hn hget
    obtain ⟨htimer, husing⟩ := OsiTimers.stop_spec hget
    have hfits := h.fits index t hget
    simp only [step, hn]
    refine h.set hget htimer ?_ rfl ⟨fun hlive => absurd hlive (by simp), hfits.once,
      fun hrun => absurd hrun (by simp), fun hrun => absurd hrun (by simp)⟩ (h.since index)
      rfl (fun hpos => h.threads ?_) (fun p hp => hp) fun i hi => mem_of_mem_eraseIdx hi
    · simp [OsiTimer.isRun, hrun, husing]
    · rw [husing] at hpos
      omega

theorem Inv.free (h : Inv s) (index : ℕ) : Inv (s.step (.free index)) := by
  by_cases hlt : index < s.osi.timer.length
  · obtain ⟨t, hget⟩ : ∃ t, s.osi.timer[index]? = some t := ⟨_, getElem?_eq_getElem hlt⟩
    obtain ⟨htimer, husing⟩ := OsiTimers.free_spec hget
    have hfits := h.fits index t hget
    simp only [step, if_pos hlt]
    refine h.set hget htimer ?_ rfl ⟨fun hlive => absurd hlive (by simp), hfits.once,
      fun hrun => absurd hrun (by simp), fun hrun => absurd hrun (by simp)⟩ (h.since index)
      rfl (fun hpos => h.threads ?_) (fun p hp => hp) fun i hi => hi
    · simp [OsiTimer.isRun, husing]
    · rw [husing] at hpos
      omega
  · simpa only [step, if_neg hlt] using h

theorem Inv.start (h : Inv s) (n : ℕ) : Inv (s.step (.start n)) := by
  cases hn : s.starting[n]? with
  | none => simpa [step, hn] using h
  | some p =>
    obtain ⟨index, timeout, callback⟩ := p
    obtain ⟨t, hget⟩ : ∃ t, s.osi.timer[index]? = some t :=
      ⟨_, getElem?_eq_getElem (h.starting _ (mem_of_getElem? hn))⟩
    obtain ⟨htimer, husing, hcreated⟩ := OsiTimers.start_spec hget timeout
      (osiTimerGetCurrentTime s.clock) callback
    simp only [step, hn]
    refine h.set hget htimer ?_ rfl ⟨fun _ => .inl ⟨rfl, rfl⟩, Nat.zero_le _, fun _ => rfl,
      fun _ => ⟨rfl, rfl⟩⟩ (Nat.le_refl _) rfl (fun hpos => ?_)
      (fun p hp => mem_of_mem_eraseIdx hp) fun i hi => hi
    · simp only [husing, OsiTimer.isRun]
      simp
    · dsimp only at hpos ⊢
      by_cases hnew : (s.osi.start index timeout (osiTimerGetCurrentTime s.clock) callback).2 = true
      · rw [if_pos hnew]
        omega
      · rw [if_neg hnew]
        refine h.threads ?_
        by_cases hrun : t.state = .run
        · exact h.using_pos hget hrun
        · by_contra husing
          exact hnew (hcreated.mpr ⟨hrun, by omega⟩)

/-- A step that leaves the timers alone. -/
theorem Inv.same (h : Inv s) (hosi : s'.osi = s.osi) (hlife : s'.life = s.life)
    (hclock : s.clock ≤ s'.clock)
    (hthreads : 0 < s'.osi.usingTimer → 0 < s'.looping + s'.sleeping)
    (hstarting : ∀ p ∈ s'.starting, p.1 < s.osi.timer.length)
    (hstopping : ∀ i ∈ s'.stopping, i < s.osi.timer.length) : Inv s' := by
  refine ⟨?_, fun i t ht => ?_, fun i => ?_, hthreads, ?_, ?_⟩
  · rw [hosi]
    exact h.count
  · rw [hosi] at ht
    rw [hlife]
    exact h.fits i t ht
  · rw [hlife]
    exact Nat.le_trans (h.since i) hclock
  · rw [hosi]
    exact hstarting
  · rw [hosi]
    exact hstopping

theorem Inv.tick (h : Inv s) : Inv (s.step .tick) := by
  by_cases hsleeping : s.sleeping = 0
  · simpa only [step, if_pos hsleeping] using h
  · by_cases husing : s.osi.usingTimer ≤ 0
    · simp only [step, if_neg hsleeping, OsiTimers.update, if_pos husing]
      exact h.same rfl rfl (Nat.le_refl _) (fun _ => by dsimp only; omega) h.starting h.stopping
    · simp only [step, if_neg hsleeping, OsiTimers.update, if_neg husing]
      refine ⟨?_, fun i t' ht' => ?_, fun i => ?_, fun _ => by dsimp only; omega, fun p hp => ?_,
        fun i hi => ?_⟩
      · have hcount := h.count
        have hmap := OsiTimers.running_map s.osi.timer (osiTimerGetCurrentTime s.clock)
        unfold OsiTimers.running at hcount ⊢
        dsimp only at hcount ⊢
        omega
      · dsimp only at ht' ⊢
        rw [getElem?_map] at ht'
        obtain ⟨t, ht, rfl⟩ := Option.map_eq_some_iff.mp ht'
        rw [ht]
        exact (h.fits i t ht).update _
      · have hsince := h.since i
        dsimp only
        split_ifs <;> exact hsince
      · rw [length_map]
        exact h.starting p hp
      · rw [length_map]
        exact h.stopping i hi

/-- **Every step the code is spared nothing by keeps it.** -/
theorem Inv.step (h : Inv s) (c : TimerStep) (hsound : s.Sound c) : Inv (s.step c) := by
  cases c with
  | allocate timerName => exact h.allocate timerName
  | start n => exact h.start n
  | stop n => exact h.stop n hsound
  | free index => exact h.free index
  | tick => exact h.tick
  | pass ms =>
    exact h.same rfl rfl (Nat.le_add_right _ _) h.threads h.starting h.stopping
  | startTest index timeout callback =>
    cases hget : s.osi.timer[index]? with
    | none => simpa only [TimerSystem.step, hget] using h
    | some t =>
      simp only [TimerSystem.step, hget]
      split_ifs with hfree
      · exact h
      · refine h.same rfl rfl (Nat.le_refl _) h.threads (fun p hp => ?_) h.stopping
        rcases mem_append.mp hp with hp | hp
        · exact h.starting p hp
        · obtain rfl := mem_singleton.mp hp
          exact (List.getElem?_eq_some_iff.mp hget).1
  | stopTest index =>
    cases hget : s.osi.timer[index]? with
    | none => simpa only [TimerSystem.step, hget] using h
    | some t =>
      simp only [TimerSystem.step, hget]
      split_ifs with hrun
      · exact h
      · refine h.same rfl rfl (Nat.le_refl _) h.threads h.starting fun i hi => ?_
        rcases mem_append.mp hi with hi | hi
        · exact h.stopping i hi
        · obtain rfl := mem_singleton.mp hi
          exact (List.getElem?_eq_some_iff.mp hget).1
  | loop =>
    simp only [TimerSystem.step]
    split_ifs with hlooping husing
    · exact h
    · exact h.same rfl rfl (Nat.le_refl _) (fun _ => by dsimp only; omega) h.starting h.stopping
    · exact h.same rfl rfl (Nat.le_refl _) (fun hpos => absurd hpos husing) h.starting h.stopping

theorem Inv.initial (clock : ℕ) : Inv (initial clock) := by
  have hfree : ∀ (index : ℕ) (t : OsiTimer),
      (TimerSystem.initial clock).osi.timer[index]? = some t → t.state = .free := by
    intro index t ht
    have hmem : t ∈ List.replicate osiMaxTimer (⟨0, 0, 0, none, none, .free⟩ : OsiTimer) :=
      mem_of_getElem? ht
    rw [eq_of_mem_replicate hmem]
  refine ⟨rfl, fun index t ht => ?_, fun _ => Nat.zero_le _, fun h => absurd h (Int.lt_irrefl 0),
    fun p hp => absurd hp not_mem_nil, fun i hi => absurd hi not_mem_nil⟩
  have hstate := hfree index t ht
  refine ⟨fun hlive => absurd hlive (by simp [TimerSystem.initial]), Nat.zero_le _, fun hrun => ?_,
    fun hrun => ?_⟩
  · rw [hstate] at hrun
    exact absurd hrun (by decide)
  · rw [hstate] at hrun
    exact absurd hrun (by decide)

/-! ## The callback comes -/

/-- A step that takes a start back, or starts the timer anew. -/
def TakesBack (s : TimerSystem) (index : ℕ) : TimerStep → Prop
  | .start n => ∃ timeout callback, s.starting[n]? = some (index, timeout, callback)
  | .stop n => s.stopping[n]? = some index
  | .free i => i = index
  | _ => False

/-- The ticks from some time on. -/
def lateTicks (due : ℕ) : TimerSystem → List TimerStep → ℕ
  | _, [] => 0
  | s, c :: steps =>
      (if c = .tick ∧ s.sleeping ≠ 0 ∧ due ≤ s.clock then 1 else 0) + lateTicks due (s.step c) steps

theorem clock_le_step (s : TimerSystem) (c : TimerStep) : s.clock ≤ (s.step c).clock := by
  cases c with
  | pass ms => exact Nat.le_add_right _ _
  | allocate timerName => exact Nat.le_refl _
  | startTest index timeout callback => simp only [step]; split <;> (try split) <;> exact Nat.le_refl _
  | start n => simp only [step]; split <;> exact Nat.le_refl _
  | stopTest index => simp only [step]; split <;> (try split) <;> exact Nat.le_refl _
  | stop n => simp only [step]; split <;> exact Nat.le_refl _
  | free index => simp only [step]; split <;> exact Nat.le_refl _
  | loop => simp only [step]; split <;> (try split) <;> exact Nat.le_refl _
  | tick => simp only [step]; split <;> exact Nat.le_refl _

theorem clock_le_run (s : TimerSystem) (steps : List TimerStep) :
    s.clock ≤ (steps.foldl step s).clock := by
  induction steps generalizing s with
  | nil => exact Nat.le_refl _
  | cons c steps ih => exact Nat.le_trans (s.clock_le_step c) (ih _)

/-- **Steps on other timers** leave a timer alone. -/
theorem step_frame {c : TimerStep} (hget : s.osi.timer[index]? = some t) (hfree : t.state ≠ .free)
    (htakes : ¬ s.TakesBack index c) (htick : c ≠ .tick) :
    (s.step c).osi.timer[index]? = some t ∧ (s.step c).life index = s.life index := by
  cases c with
  | tick => exact absurd rfl htick
  | pass ms => exact ⟨hget, rfl⟩
  | loop =>
    simp only [step]
    split_ifs <;> exact ⟨hget, rfl⟩
  | startTest i timeout callback =>
    simp only [step]
    split
    · exact ⟨hget, rfl⟩
    · split_ifs <;> exact ⟨hget, rfl⟩
  | stopTest i =>
    simp only [step]
    split
    · exact ⟨hget, rfl⟩
    · split_ifs <;> exact ⟨hget, rfl⟩
  | allocate timerName =>
    refine ⟨?_, rfl⟩
    rcases s.osi.allocate_spec timerName with hsame | ⟨i, u, hi, hu, htimer, -⟩
    · show (s.osi.allocate timerName).1.timer[index]? = some t
      rw [hsame]
      exact hget
    · have hne : i ≠ index := by
        rintro rfl
        rw [hget] at hi
        obtain rfl := Option.some.inj hi
        exact hfree hu
      show (s.osi.allocate timerName).1.timer[index]? = some t
      rw [htimer, getElem?_set_ne hne]
      exact hget
  | start n =>
    cases hn : s.starting[n]? with
    | none =>
      have hsame : s.step (.start n) = s := by simp only [step, hn]
      rw [hsame]
      exact ⟨hget, rfl⟩
    | some p =>
      obtain ⟨i, timeout, callback⟩ := p
      have hne : i ≠ index := by
        rintro rfl
        exact htakes ⟨timeout, callback, hn⟩
      simp only [step, hn]
      refine ⟨?_, Function.update_of_ne (Ne.symm hne) _ _⟩
      cases hi : s.osi.timer[i]? with
      | none => simpa only [OsiTimers.start, hi] using hget
      | some u =>
        rw [(OsiTimers.start_spec hi timeout _ callback).1, getElem?_set_ne hne]
        exact hget
  | stop n =>
    cases hn : s.stopping[n]? with
    | none =>
      have hsame : s.step (.stop n) = s := by simp only [step, hn]
      rw [hsame]
      exact ⟨hget, rfl⟩
    | some i =>
      have hne : i ≠ index := by
        rintro rfl
        exact htakes hn
      simp only [step, hn]
      refine ⟨?_, Function.update_of_ne (Ne.symm hne) _ _⟩
      cases hi : s.osi.timer[i]? with
      | none => simpa only [OsiTimers.stop, hi] using hget
      | some u =>
        rw [(OsiTimers.stop_spec hi).1, getElem?_set_ne hne]
        exact hget
  | free i =>
    have hne : i ≠ index := htakes
    simp only [step]
    split_ifs with hlt
    · refine ⟨?_, Function.update_of_ne (Ne.symm hne) _ _⟩
      cases hi : s.osi.timer[i]? with
      | none => simpa only [OsiTimers.free, hi] using hget
      | some u =>
        rw [(OsiTimers.free_spec hi).1, getElem?_set_ne hne]
        exact hget
    · exact ⟨hget, rfl⟩

/-- **A tick on a timer**, unless no timer thread is at it or no timer is in
use. -/
theorem step_tick (hget : s.osi.timer[index]? = some t) (hsleeping : s.sleeping ≠ 0)
    (husing : 0 < s.osi.usingTimer) :
    (s.step .tick).osi.timer[index]? = some (t.update (osiTimerGetCurrentTime s.clock) 1).1 ∧
      (s.step .tick).life index = if (t.update (osiTimerGetCurrentTime s.clock) 1).2 then
        { s.life index with fires := (s.life index).fires + 1 } else s.life index := by
  have hnot : ¬ s.osi.usingTimer ≤ 0 := by omega
  simp only [step, if_neg hsleeping, OsiTimers.update, if_neg hnot]
  rw [getElem?_map, hget]
  exact ⟨rfl, rfl⟩

theorem step_tick_idle (h : s.sleeping = 0 ∨ s.osi.usingTimer ≤ 0) :
    (s.step .tick).osi = s.osi ∧ (s.step .tick).life = s.life := by
  by_cases hsleeping : s.sleeping = 0
  · simp only [step, if_pos hsleeping, and_self]
  · have husing : s.osi.usingTimer ≤ 0 := by omega
    have hupdate : s.osi.update (osiTimerGetCurrentTime s.clock) 1 = (s.osi, fun _ => false) :=
      if_pos husing
    simp [step, hsleeping, hupdate]

variable {steps : List TimerStep}

/-- A timer that has fired has fired once, until it is started anew. -/
theorem settled (hget : s.osi.timer[index]? = some t) (hstop : t.state = .stop)
    (htakes : Run.Throughout step (fun s c => ¬ s.TakesBack index c) s steps) :
    (steps.foldl step s).life index = s.life index := by
  induction steps generalizing s with
  | nil => rfl
  | cons c steps ih =>
    obtain ⟨hhead, htail⟩ := htakes
    have hone : (s.step c).osi.timer[index]? = some t ∧ (s.step c).life index = s.life index := by
      by_cases htick : c = .tick
      · subst htick
        by_cases hidle : s.sleeping = 0 ∨ s.osi.usingTimer ≤ 0
        · obtain ⟨hosi, hlife⟩ := step_tick_idle hidle
          rw [hosi, hlife]
          exact ⟨hget, rfl⟩
        · have hrun : t.state ≠ .run := by
            rw [hstop]
            decide
          obtain ⟨htimer, hlife⟩ := step_tick hget (by omega) (by omega)
          have hupdate : t.update (osiTimerGetCurrentTime s.clock) 1 = (t, false) := if_neg hrun
          rw [hupdate] at htimer hlife
          exact ⟨htimer, hlife⟩
      · refine step_frame hget ?_ hhead htick
        rw [hstop]
        decide
    rw [foldl_cons, ih hone.1 htail]
    exact hone.2

/-- **The clock holds no timer back** whose timeout has passed within a
day. -/
theorem clock_past (since : ℕ) {clock requested : ℕ} (hlate : since + requested ≤ clock)
    (hday : clock < since + msPerDay) :
    ¬ (osiTimerGetCurrentTime since ≤ osiTimerGetCurrentTime clock ∧
      osiTimerGetCurrentTime clock - osiTimerGetCurrentTime since ≤ (requested : ℤ) - 10) := by
  unfold osiTimerGetCurrentTime
  unfold msPerDay at hday ⊢
  omega

/-- **The callback comes**, by induction on the run. The countdown has at most
`v` ticks to go, which it need not have as long as the timeout has not passed. -/
theorem comes (h : Inv s) (hsound : Run.Throughout step Sound s steps) {v : ℕ}
    (hget : s.osi.timer[index]? = some t) (hrun : t.state = .run) (hv : t.timeout ≤ v)
    (hday : (s.life index).requested < msPerDay)
    (hearly : s.clock < (s.life index).since + (s.life index).requested → (s.life index).requested ≤ v)
    (htakes : Run.Throughout step (fun s c => ¬ s.TakesBack index c) s steps)
    (hend : (steps.foldl step s).clock < (s.life index).since + msPerDay)
    (hticks : max v 1 ≤ lateTicks ((s.life index).since + (s.life index).requested) s steps) :
    ((steps.foldl step s).life index).fires = 1 := by
  induction steps generalizing s t v with
  | nil =>
    have hnone : max v 1 ≤ 0 := hticks
    omega
  | cons c steps ih =>
    obtain ⟨hsoundc, hsoundrest⟩ := hsound
    obtain ⟨htakesc, htakesrest⟩ := htakes
    have hinv := h.step c hsoundc
    have hfits := h.fits index t hget
    have hclock := s.clock_le_step c
    have hclockend := clock_le_run (s.step c) steps
    rw [foldl_cons] at hend ⊢
    by_cases htick : c = .tick ∧ s.sleeping ≠ 0
    · obtain ⟨rfl, hsleeping⟩ := htick
      obtain ⟨htimer, hlife⟩ := step_tick hget hsleeping (h.using_pos hget hrun)
      obtain ⟨hfires, hstays⟩ := t.update_spec (osiTimerGetCurrentTime s.clock)
      have hzero : (s.life index).fires = 0 := by
        rcases hfits.answered (hfits.running hrun) with ⟨-, hzero⟩ | ⟨hstop, -⟩
        · exact hzero
        · rw [hrun] at hstop
          exact absurd hstop (by decide)
      cases hfired : (t.update (osiTimerGetCurrentTime s.clock) 1).2 with
      | true =>
        rw [hfired, if_pos rfl] at hlife
        rw [settled htimer (hfires hfired) htakesrest, hlife]
        dsimp only
        omega
      | false =>
        rw [hfired, if_neg (by decide)] at hlife
        obtain ⟨hstate, hnoted⟩ := hstays hfired
        obtain ⟨-, -, htimeout⟩ := hnoted hrun
        obtain ⟨hexact, hinit⟩ := hfits.noted hrun
        rw [toInt_of_lt (by omega) (by unfold msPerDay at hday; omega)] at hinit
        have hrun' := hstate.trans hrun
        rw [← hlife] at hday hend hticks hearly
        by_cases hlate : (s.life index).since + (s.life index).requested ≤ s.clock
        · -- the clock holds it back no more
          have hguard := clock_past (s.life index).since hlate (by rw [← hlife]; omega)
          rw [← hexact, ← hinit] at hguard
          have hmore : 1 < t.timeout := by
            by_contra hend
            have hfires := (t.update_fires _).mpr ⟨hrun, by omega, hguard⟩
            rw [hfired] at hfires
            exact absurd hfires (by decide)
          have hnext : (t.update (osiTimerGetCurrentTime s.clock) 1).1.timeout = t.timeout - 1 := by
            rcases htimeout with hnext | ⟨hle, hclock, -, -⟩
            · exact hnext
            · exact absurd ⟨hle, hclock⟩ hguard
          rw [lateTicks, if_pos ⟨rfl, hsleeping, by rw [hlife]; exact hlate⟩] at hticks
          refine ih hinv hsoundrest (v := v - 1) htimer hrun' (by omega) hday (fun hclock' => ?_)
            htakesrest hend (by omega)
          rw [hlife] at hclock'
          omega
        · have hnext : (t.update (osiTimerGetCurrentTime s.clock) 1).1.timeout ≤ v := by
            rw [hlife] at hearly
            have hle := hearly (by omega)
            rcases htimeout with hnext | ⟨hle', hclock, -, hnext⟩ <;> omega
          rw [lateTicks, if_neg (fun hcount => hlate (by rw [← hlife]; exact hcount.2.2)),
            Nat.zero_add] at hticks
          refine ih hinv hsoundrest htimer hrun' hnext hday (fun _ => ?_) htakesrest hend hticks
          exact hearly (by rw [hlife]; omega)
    · have hframe : (s.step c).osi.timer[index]? = some t ∧
          (s.step c).life index = s.life index := by
        by_cases hc : c = .tick
        · subst hc
          have hidle : s.sleeping = 0 := by
            by_contra hsleeping
            exact htick ⟨rfl, hsleeping⟩
          obtain ⟨hosi, hlife⟩ := step_tick_idle (.inl hidle)
          rw [hosi, hlife]
          exact ⟨hget, rfl⟩
        · refine step_frame hget ?_ htakesc hc
          rw [hrun]
          decide
      obtain ⟨htimer, hlife⟩ := hframe
      rw [lateTicks, if_neg (fun hcount => htick ⟨hcount.1, hcount.2.1⟩), Nat.zero_add] at hticks
      rw [← hlife] at hday hend hticks hearly
      exact ih hinv hsoundrest htimer hrun hv hday (fun hclock' => hearly (by omega)) htakesrest
        hend hticks

end Keep

/-! ## Every run -/

/-- `usingTimer` is the number of timers that run. -/
def Counted (s : TimerSystem) : Prop := s.osi.usingTimer = s.osi.running

/-- A start that is not taken back waits for its callback, or has had it. -/
def Answered (s : TimerSystem) : Prop :=
  ∀ index t, s.osi.timer[index]? = some t → (s.life index).fires ≤ 1 ∧
    ((s.life index).live = true → t.state = .run ∧ (s.life index).fires = 0 ∨
      t.state = .stop ∧ (s.life index).fires = 1)

/-- As long as a timer is in use, there is a thread to tick. -/
def Attended (s : TimerSystem) : Prop := 0 < s.osi.usingTimer → 0 < s.looping + s.sleeping

/-- **No callback comes early** by the clock of the day. -/
def InTime (s : TimerSystem) (c : TimerStep) : Prop :=
  c = .tick → s.sleeping ≠ 0 → ∀ index,
    (s.osi.update (osiTimerGetCurrentTime s.clock) 1).2 index = true →
      (s.life index).requested ≤ s.elapsed index

/-- **Each callback comes**: a start that is not taken back has had it once the
timers have ticked as often as milliseconds were asked for, with the timeout
past, but not by a day. -/
def Comes (s : TimerSystem) (steps : List TimerStep) : Prop :=
  ∀ pre n post index timeout callback, steps = pre ++ .start n :: post →
    (pre.foldl step s).starting[n]? = some (index, timeout, callback) →
    Run.Throughout step (fun s c => ¬ s.TakesBack index c) ((pre.foldl step s).step (.start n))
      post →
    (steps.foldl step s).clock < (pre.foldl step s).clock + msPerDay →
    max timeout 1 ≤ lateTicks ((pre.foldl step s).clock + timeout)
      ((pre.foldl step s).step (.start n)) post →
    ((steps.foldl step s).life index).fires = 1

/-- **The timers serve a run.** -/
structure Serve (clock : ℕ) (steps : List TimerStep) : Prop where
  counted : Run.Always step Counted (initial clock) steps
  answered : Run.Always step Answered (initial clock) steps
  attended : Run.Always step Attended (initial clock) steps
  inTime : Run.Throughout step InTime (initial clock) steps
  comes : Comes (initial clock) steps

section Runs

variable {s : TimerSystem} {index : ℕ} {t : OsiTimer}

theorem Sound.inTime {c : TimerStep} (hsound : s.Sound c) : s.InTime c := by
  rintro rfl hsleeping index hfires
  obtain ⟨-, t, hget, hfired⟩ := (s.osi.update_fires _ index).mp hfires
  obtain ⟨hrun, hend, hguard⟩ := (t.update_fires _).mp hfired
  rcases hsound hsleeping index t hget hrun hend with hpast | hheld
  · exact hpast
  · exact absurd hheld hguard

/-- **And a step that counts rightly and is in time is sound.** -/
theorem Inv.sound (h : Inv s) {c : TimerStep} (hcounted : Counted (s.step c))
    (htime : s.InTime c) : s.Sound c := by
  cases c with
  | stop n =>
    intro index t hn hget
    obtain ⟨htimer, husing⟩ := OsiTimers.stop_spec hget
    have hset := OsiTimers.countP_set (u := { t with state := .stop }) hget
    have hcount := h.count
    have hstep : s.step (.stop n) = { s with
        osi := s.osi.stop index
        stopping := s.stopping.eraseIdx n
        life := Function.update s.life index { s.life index with live := false } } := by
      simp only [TimerSystem.step, hn]
    -- a timer that did not run would be counted off all the same
    by_contra hrun
    unfold Counted OsiTimers.running at hcounted
    rw [hstep] at hcounted
    dsimp only at hcounted
    rw [htimer, husing] at hcounted
    unfold OsiTimers.running at hcount
    simp only [OsiTimer.isRun, if_neg hrun] at hset
    simp only [reduceCtorEq, if_false] at hset
    omega
  | tick =>
    intro hsleeping index t hget hrun hend
    by_cases hguard : t.exactTime ≤ osiTimerGetCurrentTime s.clock ∧
        osiTimerGetCurrentTime s.clock - t.exactTime ≤ t.initTimeout
    · exact .inr hguard
    · left
      refine htime rfl hsleeping index ((s.osi.update_fires _ index).mpr ⟨?_, t, hget, ?_⟩)
      · exact h.using_pos hget hrun
      · exact (t.update_fires _).mpr ⟨hrun, hend, hguard⟩
  | allocate timerName => trivial
  | startTest index timeout callback => trivial
  | start n => trivial
  | stopTest index => trivial
  | free index => trivial
  | loop => trivial
  | pass ms => trivial

variable {steps : List TimerStep}

theorem due_le_of_lateTicks {due : ℕ} (h : 0 < lateTicks due s steps) :
    due ≤ (steps.foldl step s).clock := by
  induction steps generalizing s with
  | nil => exact absurd h (Nat.lt_irrefl 0)
  | cons c steps ih =>
    rw [foldl_cons]
    by_cases hlate : c = .tick ∧ s.sleeping ≠ 0 ∧ due ≤ s.clock
    · exact Nat.le_trans hlate.2.2 (Nat.le_trans (s.clock_le_step c) (clock_le_run _ _))
    · rw [lateTicks, if_neg hlate, Nat.zero_add] at h
      exact ih h

/-- In a sound run each callback comes. -/
theorem comes_of_sound (h : Inv s) (hsound : Run.Throughout step Sound s steps) :
    s.Comes steps := by
  rintro pre n post index timeout callback rfl hstarting htakes hend hticks
  obtain ⟨hpre, hsoundn, hpost⟩ := hsound.append
  have hinv : Inv (pre.foldl step s) :=
    (Run.Always.of_invariant (fun s c hs hc => hs.step c hc) h hpre).last
  have hinv' := hinv.step (.start n) hsoundn
  have hfold : (pre ++ .start n :: post).foldl step s =
      post.foldl step ((pre.foldl step s).step (.start n)) := by
    rw [foldl_append, foldl_cons]
  rw [hfold] at hend ⊢
  generalize pre.foldl step s = s' at *
  obtain ⟨t, hget⟩ : ∃ t, s'.osi.timer[index]? = some t :=
    ⟨_, getElem?_eq_getElem (hinv.starting _ (mem_of_getElem? hstarting))⟩
  obtain ⟨hlt, -⟩ := List.getElem?_eq_some_iff.mp hget
  obtain ⟨htimer, -, -⟩ := OsiTimers.start_spec hget timeout (osiTimerGetCurrentTime s'.clock) callback
  have hlife : (s'.step (.start n)).life index = ⟨timeout, s'.clock, true, 0⟩ := by
    simp only [step, hstarting]
    exact Function.update_self ..
  have hget' : (s'.step (.start n)).osi.timer[index]? = some
      { OsiTimers.note timeout (osiTimerGetCurrentTime s'.clock) callback t with state := .run } := by
    simp only [step, hstarting]
    rw [htimer, getElem?_set_self hlt]
  have hdue := due_le_of_lateTicks (Nat.lt_of_lt_of_le (by omega) hticks)
  have hday : timeout < msPerDay := by omega
  have hint : toInt (timeout : ℤ) = timeout :=
    toInt_of_lt (by omega) (by unfold msPerDay at hday; omega)
  refine comes hinv' hpost hget' (OsiTimers.started_state ..) (v := timeout) ?_ ?_ (fun _ => ?_)
    htakes ?_ ?_
  · exact Int.le_of_eq (by rw [OsiTimers.started_timeout, hint])
  · rw [hlife]
    exact hday
  · exact Nat.le_of_eq (by rw [hlife])
  · rw [hlife]
    exact hend
  · rw [hlife]
    exact hticks

/-- **The timers serve exactly the sound runs.** -/
theorem serve_iff (clock : ℕ) (steps : List TimerStep) :
    Serve clock steps ↔ Run.Throughout step Sound (initial clock) steps := by
  constructor
  · intro h
    have hcounted := h.counted
    have htime := h.inTime
    clear h
    have hinv := Inv.initial clock
    generalize TimerSystem.initial clock = s at *
    induction steps generalizing s with
    | nil => trivial
    | cons c steps ih =>
      obtain ⟨-, hrest⟩ := hcounted
      obtain ⟨htimec, htimerest⟩ := htime
      have hsound := hinv.sound hrest.head htimec
      exact ⟨hsound, ih _ hrest htimerest (hinv.step c hsound)⟩
  · intro hsound
    have hinv : Run.Always step Inv (TimerSystem.initial clock) steps :=
      Run.Always.of_invariant (fun s c hs hc => hs.step c hc) (Inv.initial clock) hsound
    refine ⟨hinv.mono fun s h => h.count, hinv.mono fun s h index t hget => ?_,
      hinv.mono fun s h => h.threads, hsound.mono fun s c h => h.inTime,
      comes_of_sound (Inv.initial clock) hsound⟩
    exact ⟨(h.fits index t hget).once, (h.fits index t hget).answered⟩

/-- A timer fires between the test of a stop and its section. -/
def lateStop : List TimerStep :=
  [.allocate "nci_timer", .startTest 0 1 (some .fwForceUpdate), .start 0, .loop, .pass 1,
    .stopTest 0, .tick, .stop 0]

/-- A timer is started when the last has fired and its thread has not noticed,
so that two threads tick; and it is three milliseconds before midnight. -/
def midnight : List TimerStep :=
  [.allocate "nci_timer", .startTest 0 1 (some .fwForceUpdate), .start 0, .loop, .pass 1, .tick,
    .startTest 0 20 (some .fwForceUpdate), .start 0] ++
    (List.replicate 10 [.loop, .loop, .pass 1, .tick, .tick]).flatten

/-- **But they do not serve every run**: a stop counts off a timer that has
fired, and past midnight a callback comes when half its timeout has passed. -/
theorem not_serve : ¬ Serve 0 lateStop ∧ ¬ Serve (msPerDay - 3) midnight := by
  constructor
  · intro h
    have hcounted := h.counted.last
    have hcount : (lateStop.foldl step (initial 0)).osi.usingTimer = -1 := by decide +kernel
    unfold Counted at hcounted
    omega
  · intro h
    have hsplit : midnight = midnight.dropLast ++ [.tick] := by decide +kernel
    have htime := h.inTime
    rw [hsplit] at htime
    have hlast := htime.append.2.1 rfl (by decide +kernel) 0 (by decide +kernel)
    exact absurd hlast (by decide +kernel)

end Runs

end TimerSystem

end ExynosVendor.Nfc
