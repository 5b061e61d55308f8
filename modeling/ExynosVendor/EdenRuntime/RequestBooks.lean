import ExynosVendor.EdenRuntime.Buffers

/-!
# The books of the requests

A request is in the maps for the runtime that has it or for one call: one that hands it over,
one that answers it, or one that has deleted it and is about to erase it. It lives for the
runtime or for one call as well. As a request lives once, the equations leave room for one
reason each (`RequestsKept`).
-/

namespace ExynosVendor.EdenRuntime

open Phase State Threads
open Function

/-- **What the maps owe** to the runtime and to the calls. -/
structure RequestsKept (s : State) : Prop where
  cvalue : ∀ r, (s.mapReqCvalue r).isSome.toNat =
    (s.accepted r).toNat + s.calls.countP (carrying r) + s.calls.countP (erasing r)
  pids : ∀ r, (s.mapReqPid r).isSome = (s.mapReqCvalue r).isSome
  live : ∀ r, (s.requests r).toNat =
    (s.accepted r).toNat + s.calls.countP (storing r) + s.calls.countP (carrying r)
  null : s.requests 0 = false

namespace RequestsKept

variable {s s' : State} {n : ℕ} {p : Phase}

theorem initial : RequestsKept State.initial := ⟨fun _ => rfl, fun _ => rfl, fun _ => rfl, rfl⟩

/-- Another part of the state changes, and a call goes on with the same request. -/
theorem frame (h : RequestsKept s) (haccepted : s'.accepted = s.accepted)
    (hcvalue : s'.mapReqCvalue = s.mapReqCvalue)
    (hpids : ∀ r, (s'.mapReqPid r).isSome = (s.mapReqPid r).isSome)
    (hrequests : s'.requests = s.requests)
    (hstoring : ∀ r, s'.calls.countP (storing r) = s.calls.countP (storing r))
    (hcarrying : ∀ r, s'.calls.countP (carrying r) = s.calls.countP (carrying r))
    (herasing : ∀ r, s'.calls.countP (erasing r) = s.calls.countP (erasing r)) :
    RequestsKept s' where
  cvalue := by
    intro r
    rw [hcvalue, haccepted, hcarrying, herasing]
    exact h.cvalue r
  pids := by
    intro r
    rw [hpids, hcvalue]
    exact h.pids r
  live := by
    intro r
    rw [hrequests, haccepted, hstoring, hcarrying]
    exact h.live r
  null := by
    rw [hrequests]
    exact h.null

/-- A call goes on with the same request, and the maps stay. -/
theorem goOn (h : RequestsKept s) (hp : s.calls[n]? = some p) (next : Option Phase)
    (hstoring : ∀ r, next.elim false (storing r) = storing r p)
    (hcarrying : ∀ r, next.elim false (carrying r) = carrying r p)
    (herasing : ∀ r, next.elim false (erasing r) = erasing r p)
    (haccepted : s'.accepted = s.accepted) (hcvalue : s'.mapReqCvalue = s.mapReqCvalue)
    (hpids : ∀ r, (s'.mapReqPid r).isSome = (s.mapReqPid r).isSome)
    (hrequests : s'.requests = s.requests) (hcalls : s'.calls = Threads.move s.calls n next) :
    RequestsKept s' := by
  refine h.frame haccepted hcvalue hpids hrequests ?_ ?_ ?_
  · intro r
    have hcount := count_move hp (storing r) next
    rw [hstoring] at hcount
    rw [hcalls]
    omega
  · intro r
    have hcount := count_move hp (carrying r) next
    rw [hcarrying] at hcount
    rw [hcalls]
    omega
  · intro r
    have hcount := count_move hp (erasing r) next
    rw [herasing] at hcount
    rw [hcalls]
    omega

/-- A call that has nothing to do with requests begins. -/
theorem begin (h : RequestsKept s) (hstoring : ∀ r, storing r p = false)
    (hcarrying : ∀ r, carrying r p = false) (herasing : ∀ r, erasing r p = false)
    (haccepted : s'.accepted = s.accepted) (hcvalue : s'.mapReqCvalue = s.mapReqCvalue)
    (hpids : s'.mapReqPid = s.mapReqPid) (hrequests : s'.requests = s.requests)
    (hcalls : s'.calls = s.calls ++ [p]) : RequestsKept s' := by
  refine h.frame haccepted hcvalue (fun r => by rw [hpids]) hrequests ?_ ?_ ?_
  · intro r
    rw [hcalls, count_begin, hstoring, Bool.toNat_false, Nat.add_zero]
  · intro r
    rw [hcalls, count_begin, hcarrying, Bool.toNat_false, Nat.add_zero]
  · intro r
    rw [hcalls, count_begin, herasing, Bool.toNat_false, Nat.add_zero]

/-! ## The steps that change the maps -/

variable {q : ℕ}

/-- **A new request** is on its way to the maps. -/
theorem executeReq (h : RequestsKept s) (hq : q ≠ 0) (hfree : s.requests q = false)
    (outputAddr : ℕ) (pid : ℤ) :
    RequestsKept ({ s with requests := Function.update s.requests q true }.begin
      (.execStore q outputAddr pid)) where
  cvalue := by
    intro r
    simp only [State.begin, count_begin, carrying, erasing, Bool.toNat_false, Nat.add_zero]
    exact h.cvalue r
  pids := h.pids
  live := by
    intro r
    have hlive := h.live r
    simp only [State.begin, count_begin, storing, carrying, Bool.toNat_false, Nat.add_zero]
    by_cases hr : r = q
    · subst hr
      rw [hfree, Bool.toNat_false] at hlive
      rw [update_self, decide_eq_true rfl, Bool.toNat_true]
      omega
    · rw [update_of_ne hr, decide_eq_false (Ne.symm hr), Bool.toNat_false]
      omega
  null := by
    simp only [State.begin]
    rw [update_of_ne (Ne.symm hq)]
    exact h.null

/-- **The runtime completes a request**, and a call answers it. -/
theorem complete (h : RequestsKept s) (hq : s.accepted q = true) :
    RequestsKept ({ s with accepted := Function.update s.accepted q false }.begin
      (.notifyFind q)) where
  cvalue := by
    intro r
    have hcvalue := h.cvalue r
    simp only [State.begin, count_begin, carrying, erasing, Bool.toNat_false, Nat.add_zero]
    by_cases hr : r = q
    · subst hr
      rw [hq, Bool.toNat_true] at hcvalue
      rw [update_self, decide_eq_true rfl, Bool.toNat_true, Bool.toNat_false]
      omega
    · rw [update_of_ne hr, decide_eq_false (Ne.symm hr), Bool.toNat_false]
      omega
  pids := h.pids
  live := by
    intro r
    have hlive := h.live r
    simp only [State.begin, count_begin, storing, carrying, Bool.toNat_false, Nat.add_zero]
    by_cases hr : r = q
    · subst hr
      rw [hq, Bool.toNat_true] at hlive
      rw [update_self, decide_eq_true rfl, Bool.toNat_true, Bool.toNat_false]
      omega
    · rw [update_of_ne hr, decide_eq_false (Ne.symm hr), Bool.toNat_false]
      omega
  null := h.null

/-- **The request goes into the maps**, which have nothing there: a request that was deleted
at this address has been erased. -/
theorem execStore (h : RequestsKept s) {outputAddr : ℕ} {pid : ℤ}
    (hp : s.calls[n]? = some (.execStore q outputAddr pid))
    (hfree : ∀ p ∈ s.calls, erasing q p = false) :
    RequestsKept ({ s with
      mapReqCvalue := Function.update s.mapReqCvalue q (some outputAddr)
      mapReqPid := Function.update s.mapReqPid q (some pid) }.goOn n (some (.execRun q))) where
  cvalue := by
    intro r
    have hcvalue := h.cvalue r
    have hlive := h.live r
    have hstoring := count_move hp (storing r) (some (.execRun q))
    have hcarrying := count_move hp (carrying r) (some (.execRun q))
    have herasing := count_move hp (erasing r) (some (.execRun q))
    simp only [Option.elim, storing, carrying, erasing, Bool.toNat_false, Nat.add_zero]
      at hstoring hcarrying herasing
    simp only [State.goOn]
    by_cases hr : r = q
    · subst hr
      -- at this address nothing waits to be erased
      have hone := (s.requests r).toNat_le
      have hzero := count_eq_zero hfree
      rw [decide_eq_true rfl, Bool.toNat_true] at hstoring hcarrying
      rw [update_self, Option.isSome_some, Bool.toNat_true]
      omega
    · rw [decide_eq_false (Ne.symm hr), Bool.toNat_false] at hstoring hcarrying
      rw [update_of_ne hr]
      omega
  pids := by
    intro r
    simp only [State.goOn]
    by_cases hr : r = q
    · subst hr
      rw [update_self, update_self]
      rfl
    · rw [update_of_ne hr, update_of_ne hr]
      exact h.pids r
  live := by
    intro r
    have hlive := h.live r
    have hstoring := count_move hp (storing r) (some (.execRun q))
    have hcarrying := count_move hp (carrying r) (some (.execRun q))
    simp only [Option.elim, storing, carrying, Bool.toNat_false, Nat.add_zero]
      at hstoring hcarrying
    simp only [State.goOn]
    omega
  null := h.null

/-- **The runtime accepts a request.** -/
theorem execRun (h : RequestsKept s) (hp : s.calls[n]? = some (.execRun q)) :
    RequestsKept ({ s with accepted := Function.update s.accepted q true }.goOn n none) where
  cvalue := by
    intro r
    have hcvalue := h.cvalue r
    have hcarrying := count_move hp (carrying r) none
    have herasing := count_move hp (erasing r) none
    simp only [Option.elim, carrying, erasing, Bool.toNat_false, Nat.add_zero]
      at hcarrying herasing
    simp only [State.goOn]
    by_cases hr : r = q
    · subst hr
      have hone := (s.mapReqCvalue r).isSome.toNat_le
      rw [decide_eq_true rfl, Bool.toNat_true] at hcarrying
      rw [update_self, Bool.toNat_true]
      omega
    · rw [decide_eq_false (Ne.symm hr), Bool.toNat_false] at hcarrying
      rw [update_of_ne hr]
      omega
  pids := h.pids
  live := by
    intro r
    have hlive := h.live r
    have hstoring := count_move hp (storing r) none
    have hcarrying := count_move hp (carrying r) none
    simp only [Option.elim, storing, carrying, Bool.toNat_false, Nat.add_zero]
      at hstoring hcarrying
    simp only [State.goOn]
    by_cases hr : r = q
    · subst hr
      have hone := (s.requests r).toNat_le
      rw [decide_eq_true rfl, Bool.toNat_true] at hcarrying
      rw [update_self, Bool.toNat_true]
      omega
    · rw [decide_eq_false (Ne.symm hr), Bool.toNat_false] at hcarrying
      rw [update_of_ne hr]
      omega
  null := h.null

/-- A request some call carries lives, and it is in the maps. -/
theorem live_of_carrying (h : RequestsKept s) (hp : s.calls[n]? = some p)
    (hcarry : carrying q p = true) :
    s.requests q = true ∧ (s.mapReqCvalue q).isSome = true ∧ q ≠ 0 := by
  have hpos := count_pos hp hcarry
  have hlive := h.live q
  have hcvalue := h.cvalue q
  have hrequest : s.requests q = true := by
    cases hb : s.requests q with
    | true => rfl
    | false =>
      rw [hb, Bool.toNat_false] at hlive
      omega
  refine ⟨hrequest, ?_, ?_⟩
  · cases hb : (s.mapReqCvalue q).isSome with
    | true => rfl
    | false =>
      rw [hb, Bool.toNat_false] at hcvalue
      omega
  · rintro rfl
    rw [h.null] at hrequest
    exact Bool.false_ne_true hrequest

/-- **The request is deleted** and waits to be erased. -/
theorem notifyRelease (h : RequestsKept s) (hp : s.calls[n]? = some (.notifyRelease q)) :
    RequestsKept ({ s with requests := Function.update s.requests q false }.goOn n
      (some (.notifyErase q))) where
  cvalue := by
    intro r
    have hcvalue := h.cvalue r
    have hcarrying := count_move hp (carrying r) (some (.notifyErase q))
    have herasing := count_move hp (erasing r) (some (.notifyErase q))
    simp only [Option.elim, carrying, erasing, Bool.toNat_false, Nat.add_zero]
      at hcarrying herasing
    simp only [State.goOn]
    omega
  pids := h.pids
  live := by
    intro r
    have hlive := h.live r
    have hstoring := count_move hp (storing r) (some (.notifyErase q))
    have hcarrying := count_move hp (carrying r) (some (.notifyErase q))
    simp only [Option.elim, storing, carrying, Bool.toNat_false, Nat.add_zero]
      at hstoring hcarrying
    simp only [State.goOn]
    by_cases hr : r = q
    · subst hr
      have hone := (s.requests r).toNat_le
      rw [decide_eq_true rfl, Bool.toNat_true] at hcarrying
      rw [update_self, Bool.toNat_false]
      omega
    · rw [decide_eq_false (Ne.symm hr), Bool.toNat_false] at hcarrying
      rw [update_of_ne hr]
      omega
  null := by
    have hne := (h.live_of_carrying (q := q) hp (by simp [carrying])).2.2
    simp only [State.goOn]
    rw [update_of_ne (Ne.symm hne)]
    exact h.null

/-- **It is erased**, and nobody else has it. -/
theorem notifyErase (h : RequestsKept s) (hp : s.calls[n]? = some (.notifyErase q)) :
    RequestsKept ({ s with
      mapReqCvalue := Function.update s.mapReqCvalue q none
      mapReqPid := Function.update s.mapReqPid q none }.goOn n none) where
  cvalue := by
    intro r
    have hcvalue := h.cvalue r
    have hcarrying := count_move hp (carrying r) none
    have herasing := count_move hp (erasing r) none
    simp only [Option.elim, carrying, erasing, Bool.toNat_false, Nat.add_zero]
      at hcarrying herasing
    simp only [State.goOn]
    by_cases hr : r = q
    · subst hr
      -- this call is the one that erases it
      have hone := (s.mapReqCvalue r).isSome.toNat_le
      rw [decide_eq_true rfl, Bool.toNat_true] at herasing
      rw [update_self, Option.isSome_none, Bool.toNat_false]
      omega
    · rw [decide_eq_false (Ne.symm hr), Bool.toNat_false] at herasing
      rw [update_of_ne hr]
      omega
  pids := by
    intro r
    simp only [State.goOn]
    by_cases hr : r = q
    · subst hr
      rw [update_self, update_self]
      rfl
    · rw [update_of_ne hr, update_of_ne hr]
      exact h.pids r
  live := by
    intro r
    have hlive := h.live r
    have hstoring := count_move hp (storing r) none
    have hcarrying := count_move hp (carrying r) none
    simp only [Option.elim, storing, carrying, Bool.toNat_false, Nat.add_zero]
      at hstoring hcarrying
    simp only [State.goOn]
    omega
  null := h.null

end RequestsKept

end ExynosVendor.EdenRuntime
