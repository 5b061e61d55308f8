import ExynosVendor.Ril.Core.ServiceRules

/-!
# The transaction of a service

`m_nCurrentReqId` says by its number which request is in flight, and
other services ask for it through `IsInTransaction`. It is set and
cleared apart from `m_pCurReqMsg`, on every way in and out of a request.
A timeout that the derived service does not handle lets the request go
and forgets the number. `booked_of_reaches` is the invariant of the runs
without one, and `exists_not_booked` a run with one.
-/

namespace ExynosVendor.Ril.Service

open Program (Stable Triple)

/-- **The number is that of the request in flight**, and 0 without. -/
structure Booked (s : Service) : Prop where
  /-- No request is in flight. -/
  idle : s.pCurReqMsg = none → s.nCurrentReqId = 0
  /-- A request is in flight. -/
  serving : ∀ m, s.pCurReqMsg = some m → ∃ r, m.pReqData = some r ∧ s.nCurrentReqId = r.reqId

/-- **The condition**: no timeout of the request in flight is left
unhandled, unless the number of the request is 0. -/
def bookGuard : Point → Service → Prop
  | .reqDeQ, _ => True
  | .timeoutUnhandled, s => ∀ m r, s.pCurReqMsg = some m → m.pReqData = some r → r.reqId = 0

/-- No number is recorded. -/
def Cleared (s : Service) : Prop :=
  s.nCurrentReqId = 0

/-- The request that `IsInTransaction` is asked about is in flight. -/
def Serves (s : Service) (nReqId : UINT) : Prop :=
  ∃ m r, s.pCurReqMsg = some m ∧ m.pReqData = some r ∧ r.reqId = nReqId

/-- Or it is in the history of the asynchronous requests. -/
def InHistory (s : Service) (nReqId : UINT) : Prop :=
  ∃ entry ∈ s.pAsyncMsgHistory, ∃ r, entry.2.pReqData = some r ∧ r.reqId = nReqId

/-- The condition speaks of the data of the request in flight. -/
theorem bookGuard_timeoutUnhandled_iff (s : Service) :
    bookGuard .timeoutUnhandled s ↔ (s.pCurReqMsg.bind (·.pReqData)).all (·.reqId = 0) = true := by
  unfold bookGuard
  constructor
  · intro h
    refine (Option.all_eq_true _ _).mpr fun r hr => ?_
    obtain ⟨m, hcur, hdata⟩ := Option.bind_eq_some_iff.mp hr
    exact decide_eq_true (h m r hcur hdata)
  · intro h m r hcur hdata
    have hr : (s.pCurReqMsg.bind (·.pReqData)) = some r := by rw [hcur]; exact hdata
    exact of_decide_eq_true ((Option.all_eq_true _ _).mp h r hr)

instance : ∀ l s, Decidable (bookGuard l s)
  | .reqDeQ, _ => isTrue trivial
  | .timeoutUnhandled, s => decidable_of_iff _ (bookGuard_timeoutUnhandled_iff s).symm

/-! ## The invariant -/

theorem Env.transaction_eq {s s' : Service} (h : Env s s') :
    s'.pCurReqMsg = s.pCurReqMsg ∧ s'.nCurrentReqId = s.nCurrentReqId := by
  cases h with
  | enQueue m => exact ⟨s.push_pCurReqMsg m, s.push_nCurrentReqId m⟩
  | notifyNewMessage direction hmem => exact ⟨rfl, rfl⟩
  | deleteTimer token => exact ⟨rfl, rfl⟩
  | asyncTimeout token completions nrCount => exact ⟨rfl, rfl⟩
  | clock now => exact ⟨rfl, rfl⟩

/-- A property of the request in flight and its number. -/
def AboutTransaction (Q : Service → Prop) : Prop :=
  ∀ s s', s'.pCurReqMsg = s.pCurReqMsg → s'.nCurrentReqId = s.nCurrentReqId → Q s → Q s'

theorem AboutTransaction.stable {Q : Service → Prop} (h : AboutTransaction Q) : Stable Env Q :=
  fun s s' henv => h s s' henv.transaction_eq.1 henv.transaction_eq.2

theorem about_cleared : AboutTransaction Cleared :=
  fun _ _ _ hreqId h => hreqId.trans h

theorem about_booked : AboutTransaction Booked := by
  intro s s' hcur hreqId h
  constructor
  · intro hnone
    rw [hreqId]
    exact h.idle (hcur ▸ hnone)
  · intro m hm
    rw [hreqId]
    exact h.serving m (hcur ▸ hm)

theorem about_cur (cur : Option Message) : AboutTransaction fun s => s.pCurReqMsg = cur :=
  fun _ _ hcur _ h => hcur.trans h

theorem about_reqId (nReqId : UINT) : AboutTransaction fun s => s.nCurrentReqId = nReqId :=
  fun _ _ _ hreqId h => hreqId.trans h

theorem stable_cleared : Stable Env Cleared :=
  about_cleared.stable

theorem stable_booked : Stable Env Booked :=
  about_booked.stable

section Book

variable {G : Point → Service → Prop}

theorem AboutTransaction.send {Q : Service → Prop} (h : AboutTransaction Q) (m : Message)
    (direction : MsgDirection) : Keeps G Q (do enQueue m; notifyNewMessage direction) := by
  refine Keeps.bind ?_ fun _ => ?_
  · exact Program.triple_modify h.stable h.stable fun s =>
      h s _ (s.push_pCurReqMsg m) (s.push_nCurrentReqId m)
  · exact Program.triple_modify h.stable h.stable fun s => h s _ rfl rfl

variable {P : Service → Prop}

theorem unsetTransaction_cleared :
    Triple Env G P unsetTransaction fun _ => Cleared := by
  refine Triple.weaken (P := fun _ => True) ?_ (fun _ _ => trivial) fun _ _ h => h
  exact Program.triple_modify (fun _ _ _ h => h) stable_cleared fun _ _ => rfl

/-- **After `UnsetTransaction`, `NotifyNextRequestMessage` leaves the
books in order.** -/
theorem notifyNextRequestMessage_booked :
    Triple Env G Cleared notifyNextRequestMessage fun _ => Booked := by
  unfold notifyNextRequestMessage
  have hdelete : Triple Env G Cleared
      (Program.modify fun s => { s with pCurReqMsg := none }) fun _ => Booked := by
    refine Program.triple_modify stable_cleared stable_booked fun s h => ⟨fun _ => h, ?_⟩
    intro m hm
    cases hm
  refine Triple.bind hdelete fun _ => ?_
  exact Program.triple_modify stable_booked stable_booked fun s h => ⟨h.idle, h.serving⟩

theorem onSyncRequestComplete_booked (result : INT) :
    Triple Env G P (onSyncRequestComplete result) fun _ => Booked := by
  unfold onSyncRequestComplete
  refine Triple.bind Program.triple_true fun cur => ?_
  refine Triple.bind Program.triple_true fun _ => ?_
  refine Triple.bind unsetTransaction_cleared fun _ => ?_
  exact notifyNextRequestMessage_booked

theorem core_cleared : CoreProperty Cleared where
  stable := stable_cleared
  core := fun _ _ hsame h => hsame.reqId.trans h

theorem notifyNextRequestMessage_cleared : Keeps G Cleared notifyNextRequestMessage := by
  refine Keeps.bind ?_ fun _ => ?_
  · exact Program.triple_modify stable_cleared stable_cleared fun _ h => h
  · exact Program.triple_modify stable_cleared stable_cleared fun _ h => h

theorem postponeCurrent_cleared (millis : ℕ) (m : Message) :
    Triple Env G P (postponeCurrent millis (some m)) fun _ => Cleared := by
  refine Triple.bind Program.triple_true fun _ => ?_
  refine Triple.bind unsetTransaction_cleared fun _ => ?_
  refine Keeps.bind (core_cleared.eraseTimer m) fun _ => ?_
  exact core_cleared.putTimer _ millis

/-- **That no number is recorded is an invariant of the overrides.** -/
theorem invariant_cleared : Invariant G Cleared where
  toCoreProperty := core_cleared
  complete := by
    intro result
    refine Triple.bind Program.triple_true fun cur => ?_
    refine Triple.bind Program.triple_true fun _ => ?_
    refine Triple.bind unsetTransaction_cleared fun _ => ?_
    exact notifyNextRequestMessage_cleared
  postpone := by
    intro millis
    refine Keeps.bind (Keeps.read stable_cleared _) fun postponeMsg => ?_
    refine Keeps.bind ?_ fun _ => notifyNextRequestMessage_cleared
    cases postponeMsg with
    | none => exact Keeps.pure stable_cleared ()
    | some m => exact postponeCurrent_cleared millis m
  send := fun m => about_cleared.send m _

/-! ### The books -/

theorem core_booked : CoreProperty Booked where
  stable := stable_booked
  core := by
    intro s s' hsame h
    have hmap := hsame.cur
    constructor
    · intro hnone
      rw [hnone] at hmap
      rw [hsame.reqId]
      exact h.idle (Option.map_eq_none_iff.mp hmap.symm)
    · intro m hm
      rw [hm] at hmap
      obtain ⟨m', hm', hdata⟩ := Option.map_eq_some_iff.mp hmap.symm
      obtain ⟨r, hr, hreqId⟩ := h.serving m' hm'
      exact ⟨r, hdata.symm.trans hr, hsame.reqId.trans hreqId⟩

/-- No request in flight, and no number. -/
def Free (s : Service) : Prop :=
  s.pCurReqMsg = none ∧ s.nCurrentReqId = 0

theorem core_free : CoreProperty Free where
  stable := ((about_cur none).stable).and (about_reqId 0).stable
  core := by
    intro s s' hsame h
    have hmap := hsame.cur
    rw [h.1] at hmap
    exact ⟨Option.map_eq_none_iff.mp hmap, hsame.reqId.trans h.2⟩

theorem read_booked : Triple Env G Booked (Program.read (·.pCurReqMsg))
    fun cur s => Booked s ∧ s.pCurReqMsg = cur :=
  Program.triple_read stable_booked (fun cur => stable_booked.and (about_cur cur).stable)
    fun _ h => ⟨h, rfl⟩

/-- **Being booked is an invariant of the overrides.** -/
theorem invariant_booked : Invariant G Booked where
  toCoreProperty := core_booked
  complete := onSyncRequestComplete_booked
  postpone := by
    intro millis
    refine Triple.bind read_booked fun postponeMsg => ?_
    refine Triple.bind (R := fun _ => Cleared) ?_ fun _ => notifyNextRequestMessage_booked
    cases postponeMsg with
    | none => exact Program.triple_pure stable_cleared fun s h => h.1.idle h.2
    | some m => exact postponeCurrent_cleared millis m
  send := fun m => about_booked.send m _

/-! ## The handlers that take a request up or let it go -/

/-- A request is served with its number, and let go with 0. -/
theorem serveRequest_booked (h : Overrides) {msg : Message} {pReqData : RequestData}
    (hdata : msg.pReqData = some pReqData) :
    Triple Env G Free (serveRequest h msg pReqData) fun _ => Booked := by
  have hinv : Invariant G Booked := invariant_booked
  unfold serveRequest
  refine Triple.bind (Keeps.read core_free.stable _) fun radioState => ?_
  split_ifs
  · refine Triple.bind (core_free.contextOnRequestComplete _ _) fun _ => ?_
    exact notifyNextRequestMessage_booked.weaken (fun _ hfree => hfree.2) fun _ _ hbooked => hbooked
  · have hnumber : Stable Env fun s => s.nCurrentReqId = pReqData.reqId :=
      (about_reqId pReqData.reqId).stable
    have hset : Triple Env G Free (setTransaction pReqData.reqId)
        fun _ s => s.nCurrentReqId = pReqData.reqId :=
      Program.triple_modify core_free.stable hnumber fun _ _ => rfl
    refine Triple.bind hset fun _ => ?_
    have htake : Triple Env G (fun s => s.nCurrentReqId = pReqData.reqId)
        (Program.modify fun s => { s with pCurReqMsg := some msg }) fun _ => Booked := by
      refine Program.triple_modify hnumber stable_booked fun s hreqId => ⟨?_, ?_⟩
      · intro hnone
        cases hnone
      · intro m hm
        cases hm
        exact ⟨pReqData, hdata, hreqId⟩
    refine Triple.bind htake fun _ => ?_
    refine Triple.bind (hinv.handler _) fun ret => ?_
    split_ifs
    · refine Triple.bind Program.triple_true fun _ => ?_
      refine Triple.bind unsetTransaction_cleared fun _ => ?_
      exact notifyNextRequestMessage_booked
    · exact hinv.startRequestTimeout

/-- **`HandleRequest` keeps the books.** -/
theorem handleRequest_booked (h : Overrides) : Keeps G Booked (handleRequest h) := by
  unfold handleRequest
  refine Triple.bind read_booked fun cur => ?_
  cases cur with
  | some m => exact Program.triple_pure stable_booked fun s hs => hs.1
  | none =>
      have hdeq : Triple Env G (fun s => Booked s ∧ s.pCurReqMsg = none) reqDeQ fun _ => Free := by
        refine Triple.weaken (P := Free) ?_ (fun s hs => ⟨hs.2, hs.1.idle hs.2⟩) fun _ _ hs => hs
        exact Program.triple_modifyGet core_free.stable (fun _ => core_free.stable)
          fun s hs _ => hs
      refine Triple.bind hdeq fun msg => ?_
      have hbooked : ∀ s, Free s → Booked s := by
        intro s hs
        refine ⟨fun _ => hs.2, fun m hm => ?_⟩
        rw [hs.1] at hm
        cases hm
      cases msg with
      | none => exact Program.triple_pure stable_booked hbooked
      | some msg =>
          dsimp only
          cases hdata : msg.pReqData with
          | none => exact Program.triple_pure stable_booked hbooked
          | some pReqData => exact serveRequest_booked h hdata

end Book

/-- A timeout of the request in flight is handled, or its number is 0. -/
theorem timeoutCurrent_booked (h : Overrides) (cur : Message) (req : RequestData) :
    Keeps bookGuard Booked (timeoutCurrent h cur req) := by
  have hinv : Invariant bookGuard Booked := invariant_booked
  unfold timeoutCurrent
  refine Keeps.bind (hinv.handler _) fun handled => ?_
  split_ifs
  · exact Keeps.pure stable_booked ()
  · have hmark : Triple Env bookGuard Booked (Program.mark .timeoutUnhandled)
        fun _ => Cleared := by
      refine Program.triple_mark stable_booked stable_cleared fun s hs hguard => ?_
      cases hcur : s.pCurReqMsg with
      | none => exact hs.idle hcur
      | some m =>
          obtain ⟨r, hr, hreqId⟩ := hs.serving m hcur
          exact hreqId.trans (hguard m r hcur hr)
    refine Triple.bind hmark fun _ => ?_
    refine Triple.bind (invariant_cleared.checkCountsForTimeOut h _) fun _ => ?_
    refine Triple.bind (core_cleared.contextOnRequestComplete _ _) fun _ => ?_
    exact notifyNextRequestMessage_booked

/-- **`HandleRequestTimeout` keeps the books**, in runs under the
condition. -/
theorem handleRequestTimeout_booked (h : Overrides) :
    Keeps bookGuard Booked (handleRequestTimeout h) := by
  have hinv : Invariant bookGuard Booked := invariant_booked
  unfold handleRequestTimeout
  refine Keeps.bind (hinv.modifyGet fun _ => ⟨rfl, rfl, rfl, rfl, rfl⟩) fun te => ?_
  cases te with
  | none => exact Keeps.pure stable_booked ()
  | some te =>
      refine Keeps.bind (Keeps.read stable_booked _) fun cur => ?_
      split
      · split
        · exact Keeps.pure stable_booked ()
        · exact timeoutCurrent_booked h _ _
      · exact about_booked.send te.msg .request

/-! ## Runs -/

/-- What the thread takes up keeps the books. -/
theorem serve_booked {s s' : Service} {p : ServiceM Unit} (hserve : Serve s s' p) (h : Booked s) :
    p.wp Env bookGuard (fun _ => Booked) s' := by
  have hinv : Invariant bookGuard Booked := invariant_booked
  cases hserve with
  | timeout overrides => exact handleRequestTimeout_booked overrides s h
  | @read direction rest overrides hpipe =>
      have hrest : Booked { s with msgPipe := rest } := ⟨h.idle, h.serving⟩
      cases direction with
      | request => exact handleRequest_booked overrides _ hrest
      | response => exact hinv.handleResponse overrides _ hrest
      | internal => exact hinv.handleInternalMessage overrides _ hrest
      | asyncRequest => exact hinv.handleAsycMsgRequest overrides _ hrest

/-- While the books are in order, `IsInTransaction` answers for the
request in flight and the history. -/
theorem Booked.isInTransaction_iff {s : Service} (h : Booked s) {nReqId : UINT}
    (hne : nReqId ≠ 0) :
    s.isInTransaction nReqId = true ↔ s.Serves nReqId ∨ s.InHistory nReqId := by
  have hhistory : AsyncMsgHistory.isReqInQueue s.pAsyncMsgHistory nReqId = true ↔
      s.InHistory nReqId := by
    simp [AsyncMsgHistory.isReqInQueue, InHistory, Option.any_eq_true]
  have hcurrent : (s.nCurrentReqId ≠ 0 ∧ s.nCurrentReqId = nReqId) ↔ s.Serves nReqId := by
    constructor
    · rintro ⟨hnonzero, heq⟩
      cases hcur : s.pCurReqMsg with
      | none => exact absurd (h.idle hcur) hnonzero
      | some m =>
          obtain ⟨r, hr, hreqId⟩ := h.serving m hcur
          exact ⟨m, r, hcur, hr, hreqId.symm.trans heq⟩
    · rintro ⟨m, r, hcur, hr, heq⟩
      obtain ⟨r', hr', hreqId⟩ := h.serving m hcur
      have hsame : r' = r := Option.some.inj (hr'.symm.trans hr)
      rw [hreqId, hsame, heq]
      exact ⟨hne, rfl⟩
  rw [isInTransaction, Bool.or_eq_true, hhistory, ← hcurrent, Bool.and_eq_true]
  simp

/-- **The books are in order** in a run in which no timeout of the
request in flight is left unhandled: whenever the thread is idle, the
number is that of the request in flight, and `IsInTransaction` is right. -/
theorem booked_of_reaches {now : Timeval} {s : Service}
    (h : server.Reaches bookGuard (init now, none) (s, none)) :
    Booked s ∧ ∀ nReqId : UINT, nReqId ≠ 0 →
      (s.isInTransaction nReqId = true ↔ s.Serves nReqId ∨ s.InHistory nReqId) := by
  have hbooked : Booked s := by
    refine Server.invariant stable_booked (fun _ _ _ hserve => serve_booked hserve) h ?_
    refine ⟨fun _ => rfl, fun m hm => ?_⟩
    cases hm
  exact ⟨hbooked, fun nReqId hne => hbooked.isInTransaction_iff hne⟩

/-- A request is answered, and the next one times out. -/
def answeredThenTimeout : List Event :=
  [.produce (requestMessage 0 (some ⟨5, 0⟩)), .turn plainOverrides,
    .produce (responseMessage 1), .turn plainOverrides, .turn plainOverrides,
    .produce (requestMessage 2 (some ⟨6, 1⟩)), .turn plainOverrides]

/-- The service with the second request in flight. -/
def inFlight : Service :=
  (afterEvents bookGuard answeredThenTimeout (init ⟨0, 0⟩)).getD (init ⟨0, 0⟩)

theorem reaches_inFlight : server.Reaches bookGuard (init ⟨0, 0⟩, none) (inFlight, none) :=
  reaches_schedule answeredThenTimeout Relation.ReflTransGen.refl (by decide)

/-- While it is, its number is recorded. -/
theorem booked_inFlight :
    inFlight.nCurrentReqId = 6 ∧ Booked inFlight ∧
      (inFlight.isInTransaction 5 = true ↔ inFlight.Serves 5 ∨ inFlight.InHistory 5) :=
  ⟨by decide, (booked_of_reaches reaches_inFlight).1,
    (booked_of_reaches reaches_inFlight).2 5 (by decide)⟩

/-- The service after the timeout, which the derived service leaves to
the engine. -/
def timedOut : Service :=
  (afterEvents Server.unrestricted (answeredThenTimeout ++ [.timeout plainOverrides])
    (init ⟨0, 0⟩)).getD (init ⟨0, 0⟩)

/-- **The number of a request that timed out stays recorded**: no request
is in flight, and `IsInTransaction` still says that one is. -/
theorem exists_not_booked :
    ∃ s, server.Reaches Server.unrestricted (init ⟨0, 0⟩, none) (s, none) ∧
      s.pCurReqMsg = none ∧ s.nCurrentReqId = 6 ∧ s.isInTransaction 6 = true ∧ ¬ Booked s := by
  have hcur : timedOut.pCurReqMsg = none := by decide
  refine ⟨timedOut, reaches_schedule (answeredThenTimeout ++ [.timeout plainOverrides])
    Relation.ReflTransGen.refl (by decide), hcur, by decide, by decide, fun h => ?_⟩
  have hreqId : timedOut.nCurrentReqId = 0 := h.idle hcur
  revert hreqId
  decide

end ExynosVendor.Ril.Service
