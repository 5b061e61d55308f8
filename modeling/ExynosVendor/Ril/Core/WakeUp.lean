import ExynosVendor.Ril.Core.ServiceRules

/-!
# No lost wake-up

A byte in the pipe asks the service's thread for one turn, and a turn
asked for while a request is in flight takes no message off the queue.
So the thread is woken up again only because every way out of a request
writes a byte. One does not: a message without request data is deleted,
and nothing asks for the one behind it. `awake_of_reaches` is the
invariant of the runs in which that strands no message, and
`exists_not_awake` a run in which it does.
-/

namespace ExynosVendor.Ril.Service

open Program (Stable Triple)

/-- A turn for the request queue is asked for, or will be. -/
def Announced (s : Service) : Prop :=
  .request ∈ s.msgPipe ∨ .request ∈ s.producers

/-- **No lost wake-up**: with no request in flight, queued requests are
announced. -/
def Awake (s : Service) : Prop :=
  s.pCurReqMsg = none → s.requestQueue ≠ [] → s.Announced

/-- **The condition**: a message without request data is taken off only
if no other is queued, or a turn is announced. -/
def wakeGuard : Point → Service → Prop
  | .reqDeQ, s => ∀ m rest, s.requestQueue = m :: rest → m.pReqData = none →
      rest = [] ∨ s.Announced
  | .timeoutUnhandled, _ => True

instance : DecidablePred Announced :=
  fun s => inferInstanceAs (Decidable (.request ∈ s.msgPipe ∨ .request ∈ s.producers))

instance : DecidablePred Awake :=
  fun s => inferInstanceAs (Decidable (s.pCurReqMsg = none → s.requestQueue ≠ [] → s.Announced))

theorem wakeGuard_reqDeQ_iff (s : Service) :
    wakeGuard .reqDeQ s ↔
      ((s.requestQueue.head?.any (·.pReqData.isNone)) = true →
        s.requestQueue.tail = [] ∨ s.Announced) := by
  cases hqueue : s.requestQueue with
  | nil => simp [wakeGuard, hqueue]
  | cons m rest => simp [wakeGuard, hqueue]

instance : ∀ l s, Decidable (wakeGuard l s)
  | .reqDeQ, s => decidable_of_iff _ (wakeGuard_reqDeQ_iff s).symm
  | .timeoutUnhandled, _ => isTrue trivial

/-! ## The invariant -/

/-- What is announced stays so until a byte is read. -/
theorem stable_announced : Stable Env Announced := by
  intro s s' henv h
  cases henv with
  | enQueue m =>
      rcases h with h | h
      · left
        rw [← s.push_msgPipe m] at h
        exact h
      · exact Or.inr (List.mem_cons_of_mem _ h)
  | notifyNewMessage direction hmem =>
      rcases h with h | h
      · exact Or.inl (List.mem_append_left _ h)
      · by_cases heq : direction = .request
        · left
          rw [heq]
          exact List.mem_append_right _ (List.mem_singleton_self _)
        · exact Or.inr ((List.mem_erase_of_ne (Ne.symm heq)).mpr h)
  | deleteTimer token => exact h
  | asyncTimeout token completions nrCount => exact h
  | clock now => exact h

/-- **Other threads keep the service awake**: who pushes still has to
write its byte. -/
theorem stable_awake : Stable Env Awake := by
  intro s s' henv h hcur hqueue
  by_cases hann : s.Announced
  · exact stable_announced s s' henv hann
  · cases henv with
    | enQueue m =>
        by_cases hm : m.nDirection = .request
        · right
          rw [hm]
          exact List.mem_cons_self
        · have hcur' : s.pCurReqMsg = none := (s.push_pCurReqMsg m).symm.trans hcur
          have hqueue' : s.requestQueue ≠ [] := by
            rw [← s.push_requestQueue hm]
            exact hqueue
          exact absurd (h hcur' hqueue') hann
    | notifyNewMessage direction hmem => exact absurd (h hcur hqueue) hann
    | deleteTimer token => exact absurd (h hcur hqueue) hann
    | asyncTimeout token completions nrCount => exact absurd (h hcur hqueue) hann
    | clock now => exact absurd (h hcur hqueue) hann

theorem Env.cur_eq {s s' : Service} (h : Env s s') : s'.pCurReqMsg = s.pCurReqMsg := by
  cases h with
  | enQueue m => exact s.push_pCurReqMsg m
  | notifyNewMessage direction hmem => rfl
  | deleteTimer token => rfl
  | asyncTimeout token completions nrCount => rfl
  | clock now => rfl

theorem stable_cur (cur : Option Message) : Stable Env fun s => s.pCurReqMsg = cur :=
  fun _ _ henv h => henv.cur_eq.trans h

theorem stable_true : Stable Env fun _ => True :=
  fun _ _ _ _ => trivial

section Wake

variable {G : Point → Service → Prop}

variable {P : Service → Prop}

theorem notifyRequest_awake :
    Triple Env G P (notifyNewMessage .request) fun _ => Awake := by
  refine Triple.weaken (P := fun _ => True) ?_ (fun _ _ => trivial) fun _ _ h => h
  refine Program.triple_modify stable_true stable_awake fun s _ _ _ => Or.inl ?_
  exact List.mem_append_right _ (List.mem_singleton_self _)

/-- **`NotifyNextRequestMessage` wakes the service up**, whatever has
happened before. -/
theorem notifyNextRequestMessage_awake :
    Triple Env G P notifyNextRequestMessage fun _ => Awake :=
  Triple.bind Program.triple_true fun _ => notifyRequest_awake

theorem notifyNewMessage_awake (direction : MsgDirection) :
    Keeps G Awake (notifyNewMessage direction) := by
  refine Program.triple_modify stable_awake stable_awake fun s h hcur hqueue => ?_
  rcases h hcur hqueue with h | h
  · exact Or.inl (List.mem_append_left _ h)
  · exact Or.inr h

theorem send_awake (m : Message) :
    Keeps G Awake (do enQueue m; notifyNewMessage m.nDirection) := by
  by_cases hm : m.nDirection = .request
  · rw [hm]
    exact Triple.bind Program.triple_true fun _ => notifyRequest_awake
  · refine Keeps.bind ?_ fun _ => notifyNewMessage_awake _
    refine Program.triple_modify stable_awake stable_awake fun s h hcur hqueue => ?_
    rw [push_pCurReqMsg] at hcur
    rw [push_requestQueue s hm] at hqueue
    unfold Announced
    rw [push_msgPipe, push_producers]
    exact h hcur hqueue

/-- **Being awake is an invariant of the overrides.** -/
theorem invariant_awake : Invariant G Awake where
  stable := stable_awake
  core := by
    intro s s' hsame h hcur hqueue
    have hnone : s.pCurReqMsg = none := by
      have hmap := hsame.cur
      rw [hcur] at hmap
      exact Option.map_eq_none_iff.mp hmap.symm
    rw [hsame.queue] at hqueue
    unfold Announced
    rw [hsame.pipe, hsame.producers]
    exact h hnone hqueue
  complete := by
    intro result
    unfold onSyncRequestComplete
    refine Triple.bind Program.triple_true fun _ => ?_
    refine Triple.bind Program.triple_true fun _ => ?_
    refine Triple.bind Program.triple_true fun _ => ?_
    exact notifyNextRequestMessage_awake
  postpone := by
    intro millis
    unfold postponeRequestMessage
    refine Triple.bind Program.triple_true fun _ => ?_
    refine Triple.bind Program.triple_true fun _ => ?_
    exact notifyNextRequestMessage_awake
  send := send_awake

/-! ## The handlers that take a request up or let it go -/

/-- A request is served, and the service is awake, however it ends. -/
theorem serveRequest_awake (h : Overrides) (msg : Message) (pReqData : RequestData) :
    Triple Env G P (serveRequest h msg pReqData) fun _ => Awake := by
  have hinv : Invariant G Awake := invariant_awake
  unfold serveRequest
  refine Triple.bind Program.triple_true fun radioState => ?_
  split_ifs
  · exact Triple.bind Program.triple_true fun _ => notifyNextRequestMessage_awake
  · refine Triple.bind Program.triple_true fun _ => ?_
    -- with a request in flight there is nothing to announce
    have htake : Triple Env G (fun _ => True)
        (Program.modify fun s => { s with pCurReqMsg := some msg }) fun _ => Awake := by
      refine Program.triple_modify stable_true stable_awake fun s _ hcur => ?_
      cases hcur
    refine Triple.bind htake fun _ => ?_
    refine Triple.bind (hinv.handler _) fun ret => ?_
    split_ifs
    · refine Triple.bind Program.triple_true fun _ => ?_
      refine Triple.bind Program.triple_true fun _ => ?_
      exact notifyNextRequestMessage_awake
    · exact hinv.startRequestTimeout

/-- The queue is empty, or what is taken off is a request, or the next
turn is announced. -/
theorem reqDeQ_awake : Triple Env wakeGuard (fun _ => True) reqDeQ
    fun msg s => (∀ m, msg = some m → m.pReqData = none) → Awake s := by
  refine Program.triple_modifyGet stable_true ?_ ?_
  · intro msg s s' henv h hnull
    exact stable_awake s s' henv (h hnull)
  · intro s _ hallowed hnull _ hrest
    cases hqueue : s.requestQueue with
    | nil =>
        dsimp only at hrest
        rw [hqueue] at hrest
        exact absurd rfl hrest
    | cons m rest =>
        dsimp only at hrest hnull
        rw [hqueue] at hrest hnull
        rcases hallowed .reqDeQ rfl m rest hqueue (hnull m rfl) with hempty | hann
        · exact absurd hempty hrest
        · exact hann

/-- **`HandleRequest` leaves the service awake**, though it was a byte
that started it. -/
theorem handleRequest_awake (h : Overrides) :
    Triple Env wakeGuard (fun _ => True) (handleRequest h) fun _ => Awake := by
  unfold handleRequest
  have hread : Triple Env wakeGuard (fun _ => True) (Program.read (·.pCurReqMsg))
      fun cur s => s.pCurReqMsg = cur :=
    Program.triple_read stable_true stable_cur fun _ _ => rfl
  refine Triple.bind hread fun cur => ?_
  cases cur with
  | some m =>
      refine Program.triple_pure stable_awake fun s hcur hnone => ?_
      rw [hcur] at hnone
      cases hnone
  | none =>
      refine Triple.bind (reqDeQ_awake.weaken (fun _ _ => trivial) fun _ _ h => h) fun msg => ?_
      cases msg with
      | none => exact Program.triple_pure stable_awake fun s hs => hs fun m hm => by cases hm
      | some msg =>
          dsimp only
          cases hdata : msg.pReqData with
          | none =>
              refine Program.triple_pure stable_awake fun s hs => hs fun m hm => ?_
              cases hm
              exact hdata
          | some pReqData => exact serveRequest_awake h msg pReqData

/-- **`HandleRequestTimeout` keeps the service awake.** -/
theorem handleRequestTimeout_awake (h : Overrides) :
    Keeps G Awake (handleRequestTimeout h) := by
  have hinv : Invariant G Awake := invariant_awake
  unfold handleRequestTimeout
  refine Keeps.bind (hinv.modifyGet fun _ => ⟨rfl, rfl, rfl, rfl, rfl⟩) fun te => ?_
  cases te with
  | none => exact Keeps.pure stable_awake ()
  | some te =>
      refine Keeps.bind (Keeps.read stable_awake _) fun cur => ?_
      split
      · split
        · exact Keeps.pure stable_awake ()
        · unfold timeoutCurrent
          refine Keeps.bind (hinv.handler _) fun handled => ?_
          split_ifs
          · exact Keeps.pure stable_awake ()
          · refine Triple.bind Program.triple_true fun _ => ?_
            refine Triple.bind Program.triple_true fun _ => ?_
            refine Triple.bind Program.triple_true fun _ => ?_
            exact notifyNextRequestMessage_awake
      · exact Triple.bind Program.triple_true fun _ => notifyRequest_awake

end Wake

/-! ## Runs -/

/-- What the thread takes up leaves the service awake again. -/
theorem serve_awake {s s' : Service} {p : ServiceM Unit} (hserve : Serve s s' p) (h : Awake s) :
    p.wp Env wakeGuard (fun _ => Awake) s' := by
  have hinv : Invariant wakeGuard Awake := invariant_awake
  cases hserve with
  | timeout overrides => exact handleRequestTimeout_awake overrides s h
  | @read direction rest overrides hpipe =>
      by_cases hdirection : direction = .request
      · rw [hdirection]
        exact handleRequest_awake overrides _ trivial
      · have hrest : Awake { s with msgPipe := rest } := by
          intro hcur hqueue
          rcases h hcur hqueue with hmem | hmem
          · rw [hpipe, List.mem_cons] at hmem
            rcases hmem with heq | hmem
            · exact absurd heq.symm hdirection
            · exact Or.inl hmem
          · exact Or.inr hmem
        cases direction with
        | request => exact absurd rfl hdirection
        | response => exact hinv.handleResponse overrides _ hrest
        | internal => exact hinv.handleInternalMessage overrides _ hrest
        | asyncRequest => exact hinv.handleAsycMsgRequest overrides _ hrest

/-- **No wake-up is lost** in a run in which no message without request
data is taken off in front of others that nothing announces: whenever
the thread is idle, the service is awake. -/
theorem awake_of_reaches {now : Timeval} {s : Service}
    (h : server.Reaches wakeGuard (init now, none) (s, none)) : Awake s := by
  refine Server.invariant stable_awake (fun _ _ _ hserve => serve_awake hserve) h ?_
  intro _ hqueue
  exact absurd rfl hqueue

/-- A request is sent to the modem and answered. Behind it waits a
message without request data, alone. -/
def answered : List Event :=
  [.produce (requestMessage 0 (some ⟨5, 0⟩)), .turn plainOverrides,
    .produce (requestMessage 1 none), .turn plainOverrides,
    .produce (responseMessage 2), .turn plainOverrides, .turn plainOverrides]

/-- The service after it. -/
def afterAnswered : Service :=
  (afterEvents wakeGuard answered (init ⟨0, 0⟩)).getD (init ⟨0, 0⟩)

theorem reaches_afterAnswered :
    server.Reaches wakeGuard (init ⟨0, 0⟩, none) (afterAnswered, none) :=
  reaches_schedule answered Relation.ReflTransGen.refl (by decide)

/-- After it the service is awake. -/
theorem awake_afterAnswered : afterAnswered.completions = [(⟨5, 0⟩, 0)] ∧ Awake afterAnswered :=
  ⟨by decide, awake_of_reaches reaches_afterAnswered⟩

/-- The same with one more request behind the message without data. The
bytes of both were read while the first request was in flight. -/
def stranded : List Event :=
  [.produce (requestMessage 0 (some ⟨5, 0⟩)), .turn plainOverrides,
    .produce (requestMessage 1 none), .produce (requestMessage 2 (some ⟨6, 1⟩)),
    .turn plainOverrides, .turn plainOverrides,
    .produce (responseMessage 3), .turn plainOverrides, .turn plainOverrides]

/-- The service after it. -/
def afterStranded : Service :=
  (afterEvents Server.unrestricted stranded (init ⟨0, 0⟩)).getD (init ⟨0, 0⟩)

/-- **A wake-up is lost**: the second request stays in the queue, and
nothing announces it. -/
theorem exists_not_awake :
    ∃ s, server.Reaches Server.unrestricted (init ⟨0, 0⟩, none) (s, none) ∧
      s.requestQueue = [requestMessage 2 (some ⟨6, 1⟩)] ∧ ¬ Awake s :=
  ⟨afterStranded, reaches_schedule stranded Relation.ReflTransGen.refl (by decide), by decide,
    by decide⟩

end ExynosVendor.Ril.Service
