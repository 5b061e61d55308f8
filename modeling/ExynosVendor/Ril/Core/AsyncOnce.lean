import ExynosVendor.Ril.Core.AsyncRequest

/-!
# Every asynchronous request is completed once

The right to complete a request passes from the thread that sends it to
the history, and from there to the handler of its response or to the
callback of its timer. `Phase` says who has it, `Answer` where the response
is, and `Apart` is the condition under which the two do not both take the
right, and the response finds the request.
-/

namespace ExynosVendor

open Option

namespace Ril

namespace AsyncMsgHistory

variable {history : List (UINT × Message)} {token t : UINT} {m : Message}

theorem find_push_self (ht : token ≠ tokenInvalid) (h : find history token = none) :
    find (push history token m) token = some m := by
  unfold find at h ⊢
  rw [if_pos ht] at h ⊢
  have hnone : history.find? (fun e => e.1 = token) = none := map_eq_none_iff.mp h
  have hany : ¬ history.any (fun e => e.1 = token) := by
    intro hany
    obtain ⟨e, he, hkey⟩ := List.any_eq_true.mp hany
    exact absurd hkey (by simpa using List.find?_eq_none.mp hnone e he)
  unfold push
  rw [if_pos ⟨ht, hany⟩, List.find?_append, hnone]
  simp

theorem find_push_ne (hne : t ≠ token) : find (push history token m) t = find history t := by
  unfold push
  split
  · have hlast : [(token, m)].find? (fun e => e.1 = t) = none := by simp [Ne.symm hne]
    unfold find
    rw [List.find?_append, hlast, or_none]
  · rfl

theorem find_remove_self : find (remove history token) token = none := by
  unfold find remove
  split
  · rw [map_eq_none_iff, List.find?_eq_none]
    intro e he
    simpa using (List.mem_filter.mp he).2
  · rfl

theorem find_remove_ne (hne : t ≠ token) : find (remove history token) t = find history t := by
  unfold find remove
  by_cases ht : token ≠ tokenInvalid
  · rw [if_pos ht, List.find?_filter]
    have hkeys : ∀ e : UINT × Message, (decide (e.1 ≠ token) = true ∧ decide (e.1 = t) = true) ↔
        e.1 = t := by
      intro e
      constructor
      · exact fun h => of_decide_eq_true h.2
      · rintro rfl
        exact ⟨decide_eq_true hne, decide_eq_true rfl⟩
    simp only [hkeys]
  · rw [if_neg ht]

end AsyncMsgHistory

namespace Async

/-! ## What is to hold -/

/-- The message a thread is at work on. -/
def Thread.msg : Thread → Option Message
  | .idle => none
  | .sent m | .recorded m | .timed m | .taken m | .matched m | .found m _ | .removed m _ => some m

/-- The response it has. -/
def Thread.response : Thread → Option Message
  | .taken m | .matched m | .found m _ | .removed m _ => some m
  | _ => none

/-- The request it has still to record. -/
def Thread.sending : Thread → Option Message
  | .sent m => some m
  | _ => none

/-- The request it has found and is to complete. -/
def Thread.claim : Thread → Option Message
  | .found _ pRequestMsg | .removed _ pRequestMsg => pRequestMsg
  | _ => none

/-- The response a reader has. -/
def Reader.msg : Reader → Option Message
  | .idle => none
  | .routed m | .marked m | .ready m => some m

namespace System

/-- A response with the token is on its way to its handler, or with it. -/
def InFlight (s : System) (t : UINT) : Prop :=
  (∃ m, s.reader.msg = some m ∧ m.getToken = t) ∨ (∃ m ∈ s.responseQueue, m.getToken = t) ∨
    ∃ m, s.thread.response = some m ∧ m.getToken = t

/-- The completions of a request. -/
def completionsOf (s : System) (t : UINT) : List Completion :=
  s.completions.filter (·.token = t)

/-- The request was answered, by the modem in time or by the timer, and
nobody is at work on it. -/
structure Settled (s : System) (t : UINT) : Prop where
  answered : t ∈ s.early ∨ s.callback t = .ended
  flight : ¬ s.InFlight t
  callback : s.callback t = .idle ∨ s.callback t = .ended
  thread : ∀ m, s.thread.sending = some m → m.getToken ≠ t

/-- **What is to hold of a request.** -/
structure Once (s : System) (t : UINT) (req : RequestData) : Prop where
  /-- It is completed at most once, and exactly once in the end. -/
  atMost : (s.completionsOf t).length ≤ 1
  settled : s.Settled t → (s.completionsOf t).length = 1
  own : ∀ c ∈ s.completionsOf t, c.req = req
  /-- A response in time is not dropped, and it is what completes. -/
  early : t ∈ s.early → t ∉ s.dropped ∧ ∀ c ∈ s.completionsOf t, c.cause = .response

/-- **What is to hold of a state.** -/
def ExactlyOnce (s : System) : Prop := ∀ t req, s.sent.lookup t = some req → s.Once t req

/-- **The condition on a step.** The reader does not look a response up
before its request is recorded; the callback does not look at a request
that has been answered in time and is still in the history; and of the
handler and the callback, neither looks a request up while the other has
found it and not removed it. -/
def Apart (s : System) : Input → Prop
  | .reader => ∀ m, s.reader = .routed m → ∀ r, s.thread.sending = some r → r.getToken ≠ m.getToken
  | .callback t _ => s.callback t = .deleted →
      (t ∈ s.early → AsyncMsgHistory.find s.history t = none) ∧
        ∀ m r, s.thread = .found m (some r) → m.getToken ≠ t
  | .thread => ∀ m, s.thread = .matched m →
      ∀ r, s.callback m.getToken ≠ .found r ∧ s.callback m.getToken ≠ .completed r
  | _ => True

end System

/-! ## One request -/

/-- What a system has of one token. -/
structure View where
  req : Option RequestData
  entry : Option Message
  thread : Thread
  reader : Reader
  queued : List Message
  callback : Callback
  completions : List Completion
  timed : Prop
  waiting : Prop
  early : Prop
  dropped : Prop

/-- The thread as it looks to a token. -/
def Thread.of (t : UINT) (thread : Thread) : Thread :=
  if thread.msg.any (·.getToken = t) then thread else .idle

/-- And the reader. -/
def Reader.of (t : UINT) (reader : Reader) : Reader :=
  if reader.msg.any (·.getToken = t) then reader else .idle

/-- **One request's part of a system.** -/
def System.view (s : System) (t : UINT) : View where
  req := s.sent.lookup t
  entry := AsyncMsgHistory.find s.history t
  thread := s.thread.of t
  reader := s.reader.of t
  queued := s.responseQueue.filter (·.getToken = t)
  callback := s.callback t
  completions := s.completionsOf t
  timed := t ∈ s.timers
  waiting := t ∈ s.waitList
  early := t ∈ s.early
  dropped := t ∈ s.dropped

/-- A token that was never sent. -/
def View.blank : View where
  req := none
  entry := none
  thread := .idle
  reader := .idle
  queued := []
  callback := .idle
  completions := []
  timed := False
  waiting := False
  early := False
  dropped := False

section Frame

variable {s : System} {t token : UINT}

variable {thread : Thread} {m : Message} {reader : Reader}

theorem Thread.of_ne (h : thread.msg = some m) (hne : m.getToken ≠ t) : thread.of t = .idle := by
  unfold Thread.of
  rw [h]
  exact if_neg (by simpa using hne)

theorem Thread.of_self (h : thread.msg = some m) (ht : m.getToken = t) : thread.of t = thread := by
  unfold Thread.of
  rw [h]
  exact if_pos (by simpa using ht)

@[simp] theorem Thread.of_idle (t : UINT) : Thread.idle.of t = .idle := rfl

@[simp] theorem Reader.of_idle (t : UINT) : Reader.idle.of t = .idle := rfl

theorem Reader.of_ne (h : reader.msg = some m) (hne : m.getToken ≠ t) : reader.of t = .idle := by
  unfold Reader.of
  rw [h]
  exact if_neg (by simpa using hne)

theorem Reader.of_self (h : reader.msg = some m) (ht : m.getToken = t) : reader.of t = reader := by
  unfold Reader.of
  rw [h]
  exact if_pos (by simpa using ht)

/-! ### The parts of a step -/

@[simp] theorem view_remove_ne (hne : t ≠ token) : (s.remove token).view t = s.view t := by
  simp [System.view, System.remove, System.completionsOf, AsyncMsgHistory.find_remove_ne hne]

@[simp] theorem view_remove_self : (s.remove t).view t = { s.view t with entry := none } := by
  simp [System.view, System.remove, System.completionsOf, AsyncMsgHistory.find_remove_self]

@[simp] theorem view_clearGarbage_ne (hne : t ≠ token) :
    (s.clearGarbage token).view t = s.view t := by
  simp [System.view, System.clearGarbage, System.completionsOf, hne]

@[simp] theorem view_clearGarbage_self :
    (s.clearGarbage t).view t = { s.view t with waiting := False } := by
  simp [System.view, System.clearGarbage, System.completionsOf]

@[simp] theorem view_setCallback_ne (hne : t ≠ token) (c : Callback) :
    (s.setCallback token c).view t = s.view t := by
  simp [System.view, System.setCallback, System.completionsOf, hne]

@[simp] theorem view_setCallback_self (c : Callback) :
    (s.setCallback t c).view t = { s.view t with callback := c } := by
  simp [System.view, System.setCallback, System.completionsOf]

@[simp] theorem view_deleteTimer_ne (hne : t ≠ token) :
    (s.deleteTimer token).view t = s.view t := by
  unfold System.deleteTimer
  split
  · simp [System.view, System.completionsOf, hne]
  · rfl

/-- A timer that is deleted does not run, one that is not in the map may. -/
theorem view_deleteTimer_self : ∃ timed, (timed → (s.view t).timed) ∧
    (s.deleteTimer t).view t = { s.view t with timed := timed } := by
  unfold System.deleteTimer
  split
  · exact ⟨False, False.elim, by simp [System.view, System.completionsOf]⟩
  · exact ⟨(s.view t).timed, id, rfl⟩

@[simp] theorem view_complete_ne (hne : t ≠ token) (q : Option Message) (cause : Cause) :
    (s.complete token q cause).view t = s.view t := by
  unfold System.complete
  split
  · rfl
  · simp [System.view, System.completionsOf, Ne.symm hne]

theorem view_complete_self {q : Option Message} {req : RequestData}
    (hq : q.bind (·.pReqData) = some req) (cause : Cause) :
    (s.complete t q cause).view t =
      { s.view t with completions := (s.view t).completions ++ [⟨t, req, cause⟩] } := by
  unfold System.complete
  rw [hq]
  simp [System.view, System.completionsOf]

/-- Another place of the thread. -/
theorem view_setThread (s : System) (t : UINT) :
    ({ s with thread := thread } : System).view t = { s.view t with thread := thread.of t } := rfl

theorem view_setReader (s : System) (t : UINT) :
    ({ s with reader := reader } : System).view t = { s.view t with reader := reader.of t } := rfl

end Frame

/-! ### The other requests -/

/-- The token a step is about. -/
def System.acts (s : System) : System.Input → Option UINT
  | .send m | .arrive m => some m.getToken
  | .thread => (s.thread.msg.or s.responseQueue.head?).map (·.getToken)
  | .reader => s.reader.msg.map (·.getToken)
  | .expire token | .callback token _ => some token

section Others

variable {s : System} {t : UINT}

variable {m : Message}

theorem view_send_ne (hne : m.getToken ≠ t) : (s.send m).view t = s.view t := by
  unfold System.send
  split
  · rfl
  split
  · next req _ h =>
    have hthread : s.thread.of t = .idle := by rw [h.1]; rfl
    have hsent : (Thread.sent m).of t = .idle := Thread.of_ne rfl hne
    have hbeq : (t == m.getToken) = false := by simpa using Ne.symm hne
    simp [System.view, System.completionsOf, hthread, hsent, List.lookup_cons, hbeq, Ne.symm hne]
  · rfl

theorem view_arrive_ne (hne : m.getToken ≠ t) :
    (s.arrive m).view t = s.view t := by
  unfold System.arrive
  split
  · next h =>
    have hreader : s.reader.of t = .idle := by rw [h.1]; rfl
    have hrouted : (Reader.routed m).of t = .idle := Reader.of_ne rfl hne
    have hearly : t ∈ (if s.callback m.getToken = .idle then m.getToken :: s.early else s.early) ↔
        t ∈ s.early := by
      split
      · simp [Ne.symm hne]
      · rfl
    simp [System.view, System.completionsOf, hreader, hrouted, hearly, Ne.symm hne]
  · rfl

theorem acts_thread (h : s.thread.msg = some m) :
    s.acts .thread = some m.getToken := by
  unfold System.acts
  rw [h]
  rfl

theorem view_threadStep_ne (h : s.acts .thread ≠ some t) : s.threadStep.view t = s.view t := by
  have hother : ∀ {m}, s.thread.msg = some m → m.getToken ≠ t ∧ s.thread.of t = .idle := by
    intro m hm
    have hne : m.getToken ≠ t := fun heq => h (heq ▸ acts_thread hm)
    exact ⟨hne, Thread.of_ne hm hne⟩
  unfold System.threadStep
  cases hthread : s.thread with
  | idle =>
    dsimp only
    cases hqueue : s.responseQueue with
    | nil => rfl
    | cons msg rest =>
      have hne : msg.getToken ≠ t := by
        intro heq
        refine h ?_
        unfold System.acts
        rw [hthread, hqueue, ← heq]
        rfl
      have htaken : (Thread.taken msg).of t = .idle := Thread.of_ne rfl hne
      simp [System.view, System.completionsOf, htaken, hthread, hqueue, hne]
  | sent m =>
    obtain ⟨hne, hidle⟩ := hother (m := m) (by rw [hthread]; rfl)
    have hnext : (Thread.recorded m).of t = .idle := Thread.of_ne rfl hne
    simp [System.view, System.completionsOf, hidle, hnext, AsyncMsgHistory.find_push_ne (Ne.symm hne)]
  | recorded m =>
    obtain ⟨hne, hidle⟩ := hother (m := m) (by rw [hthread]; rfl)
    have hnext : (Thread.timed m).of t = .idle := Thread.of_ne rfl hne
    simp [System.view, System.completionsOf, hidle, hnext, Ne.symm hne]
  | timed m =>
    obtain ⟨hne, hidle⟩ := hother (m := m) (by rw [hthread]; rfl)
    simp [System.view, System.completionsOf, hidle]
  | taken m =>
    obtain ⟨hne, hidle⟩ := hother (m := m) (by rw [hthread]; rfl)
    have hnext : (Thread.matched m).of t = .idle := Thread.of_ne rfl hne
    dsimp only
    split
    · simp [System.view, System.completionsOf, hidle, hnext]
    · simp [System.view, System.completionsOf, hidle, Ne.symm hne]
  | matched m =>
    obtain ⟨hne, hidle⟩ := hother (m := m) (by rw [hthread]; rfl)
    have hnext : ∀ q, (Thread.found m q).of t = .idle := fun q => Thread.of_ne rfl hne
    simp [System.view, System.completionsOf, hidle, hnext]
  | found m q =>
    obtain ⟨hne, hidle⟩ := hother (m := m) (by rw [hthread]; rfl)
    have hnext : (Thread.removed m q).of t = .idle := Thread.of_ne rfl hne
    dsimp only
    rw [view_setThread, view_remove_ne (Ne.symm hne), hnext, ← hidle]
    rfl
  | removed m q =>
    obtain ⟨hne, hidle⟩ := hother (m := m) (by rw [hthread]; rfl)
    dsimp only
    rw [view_setThread, view_clearGarbage_ne (Ne.symm hne), view_complete_ne (Ne.symm hne),
      Thread.of_idle, ← hidle]
    rfl

theorem view_readerStep_ne (h : s.acts .reader ≠ some t) : s.readerStep.view t = s.view t := by
  have hother : ∀ {m}, s.reader.msg = some m → m.getToken ≠ t ∧ s.reader.of t = .idle := by
    intro m hm
    have hne : m.getToken ≠ t := by
      intro heq
      refine h ?_
      unfold System.acts
      rw [hm, ← heq]
      rfl
    exact ⟨hne, Reader.of_ne hm hne⟩
  unfold System.readerStep
  cases hreader : s.reader with
  | idle => rfl
  | routed m =>
    obtain ⟨hne, hidle⟩ := hother (m := m) (by rw [hreader]; rfl)
    have hmarked : (Reader.marked { m with nAsyncMsgReqStatus := .response }).of t = .idle :=
      Reader.of_ne rfl hne
    have hready : (Reader.ready m).of t = .idle := Reader.of_ne rfl hne
    dsimp only
    split
    · rw [view_setReader, hmarked, ← hidle]
      rfl
    · rw [view_setReader, hready, ← hidle]
      rfl
  | marked m =>
    obtain ⟨hne, hidle⟩ := hother (m := m) (by rw [hreader]; rfl)
    have hready : (Reader.ready m).of t = .idle := Reader.of_ne rfl hne
    dsimp only
    rw [view_setReader, view_deleteTimer_ne (Ne.symm hne), hready, ← hidle]
    rfl
  | ready m =>
    obtain ⟨hne, hidle⟩ := hother (m := m) (by rw [hreader]; rfl)
    simp [System.view, System.completionsOf, hidle, hne]

theorem view_callbackStep_ne {token : UINT} (hne : t ≠ token) (handled : Bool) :
    (s.callbackStep token handled).view t = s.view t := by
  unfold System.callbackStep
  split
  · rfl
  · simp [hne]
  · split
    · simp [hne]
    · simp [hne]
  · split
    · simp [hne]
    split
    · simp [hne]
    · simp [hne]
  · simp [hne]
  · simp [hne]
  · rfl

theorem view_expire_ne {token : UINT} (hne : t ≠ token) : (s.expire token).view t = s.view t := by
  unfold System.expire
  split
  · simp [System.view, System.completionsOf, System.setCallback, hne]
  · rfl

/-- **A step leaves the other requests as they are.** -/
theorem view_step_ne {i : System.Input} (h : s.acts i ≠ some t) : (s.step i).view t = s.view t := by
  cases i with
  | send m => exact view_send_ne fun heq => h (congrArg some heq)
  | thread => exact view_threadStep_ne h
  | arrive m => exact view_arrive_ne fun heq => h (congrArg some heq)
  | reader => exact view_readerStep_ne h
  | expire token => exact view_expire_ne fun heq => h (congrArg some heq.symm)
  | callback token handled => exact view_callbackStep_ne (fun heq => h (congrArg some heq.symm)) handled

end Others

/-! ## The invariant of a request -/

/-- The callback has no request in its hand. -/
def Callback.quiet : Callback → Bool
  | .found _ | .removed _ | .completed _ => false
  | _ => true

/-- The thread has still to start the request's timer. -/
def Thread.starting : Thread → Bool
  | .sent _ | .recorded _ => true
  | _ => false

/-- The thread neither sends the request nor has it in its hand. -/
def Thread.plain (thread : Thread) : Prop := thread.sending = none ∧ thread.claim = none

/-- The message holds what was asked for, and nothing was completed. -/
def View.Open (v : View) (q : Message) : Prop :=
  (∃ req, q.pReqData = some req ∧ v.req = some req) ∧ v.completions = []

/-- Nobody has the request in hand: the history keeps it, or it is done. -/
def View.Free (v : View) : Prop :=
  (∃ q, v.entry = some q ∧ v.Open q ∧ q.nAsyncMsgReqStatus = .sent2CP ∧ v.callback ≠ .ended) ∨
    ∃ c, v.entry = none ∧ v.completions = [c] ∧ v.req = some c.req ∧
      (v.waiting → v.callback ≠ .idle) ∧ (v.early → c.cause = .response)

/-- What the callback may do, while the thread has not the right to. -/
def View.Timing (v : View) : Callback → Prop
  | .found q => v.Open q ∧ ¬ v.early
  | .removed q => v.Open q ∧ ¬ v.early ∧ v.entry = none
  | .completed _ => ¬ v.early ∧ ∃ c, v.completions = [c] ∧ v.req = some c.req
  | _ => v.Free

/-- **Who has the right to complete a request**: the thread that sends it,
the handler of its response, the callback of its timer, or the history; or
it was used. -/
def View.Right (v : View) : Thread → Prop
  | .sent m => v.Open m ∧ v.entry = none ∧ v.callback = .idle
  | .found _ (some q) => v.Open q ∧ v.callback.quiet = true
  | .removed _ (some q) => v.Open q ∧ v.entry = none ∧ v.callback.quiet = true
  | _ => v.Timing v.callback

/-- The response is with the thread, and no other is on its way. -/
def View.Handling (v : View) (found : Prop) : Prop :=
  v.reader = .idle ∧ v.queued = [] ∧ ¬ v.waiting ∧ found

/-- Where a response is that is not with the thread. -/
def View.Coming (v : View) (sending : Prop) : Reader → Prop
  | .idle => match v.queued with
    | [] => v.early → ¬ v.waiting ∧ v.entry = none ∧ ¬ sending
    | [m] => ¬ v.waiting ∧ (v.early → m.nAsyncMsgReqStatus = .response ∧ v.entry ≠ none)
    | _ => False
  | .routed _ => v.queued = [] ∧ ¬ v.waiting ∧ (v.early → v.entry ≠ none ∨ sending)
  | .marked m => v.queued = [] ∧ ¬ v.waiting ∧ m.nAsyncMsgReqStatus = .response ∧
      (v.early → v.entry ≠ none)
  | .ready m => v.queued = [] ∧ ¬ v.waiting ∧
      (v.early → m.nAsyncMsgReqStatus = .response ∧ v.entry ≠ none)

/-- **Where the response is**, and that one that came in time is marked and
finds the request. -/
def View.Answer (v : View) : Thread → Prop
  | .taken m => v.Handling (v.early → m.nAsyncMsgReqStatus = .response ∧ v.entry ≠ none)
  | .matched _ => v.Handling (v.early → v.entry ≠ none)
  | .found _ q => v.Handling ((q = none → v.entry = none) ∧ (v.early → q ≠ none))
  | .removed _ q => v.Handling (v.early → q ≠ none)
  | thread => v.Coming (thread.sending ≠ none) v.reader

/-- **The invariant of a request that was sent.** -/
structure Alive (t : UINT) (v : View) : Prop where
  token : t ≠ tokenInvalid
  right : v.Right v.thread
  answer : v.Answer v.thread
  timed : v.timed → v.callback = .idle
  starting : v.thread.starting = true → ¬ v.timed ∧ v.callback = .idle
  dropped : v.dropped → ¬ v.early ∧ ¬ v.waiting

section Alive

variable {v : View} {t : UINT}

variable {thread : Thread} {c : Callback} {m q : Message} {req : RequestData}

theorem Thread.plain_of_response (hresponse : thread.response = none)
    (hsending : thread.sending = none) : thread.plain := by
  refine ⟨hsending, ?_⟩
  cases thread with
  | found | removed => exact absurd hresponse nofun
  | _ => rfl

theorem View.right_plain (h : thread.plain) :
    v.Right thread = v.Timing v.callback := by
  obtain ⟨hsending, hclaim⟩ := h
  cases thread with
  | sent m => exact absurd hsending nofun
  | found m q | removed m q =>
    obtain rfl : q = none := hclaim
    rfl
  | _ => rfl

/-- A callback that has it came before the response. -/
theorem View.Timing.late (h : v.Timing c) (hloud : c.quiet = false) :
    ¬ v.early := by
  cases c with
  | found => exact h.2
  | removed => exact h.2.1
  | completed => exact h.1
  | _ => exact absurd hloud nofun

theorem View.timing_quiet (h : c.quiet = true) : v.Timing c = v.Free := by
  cases c with
  | found | removed | completed => exact absurd h nofun
  | _ => rfl

theorem Alive.answer_of (h : Alive t v) (hthread : v.thread = thread) :
    v.Answer thread := hthread ▸ h.answer

theorem Alive.right_of (h : Alive t v) (hthread : v.thread = thread) :
    v.Right thread := hthread ▸ h.right

/-- A callback with a request in its hand has the right. -/
theorem Alive.timing (h : Alive t v) (hc : v.callback = c) (hloud : c.quiet = false) :
    v.Timing c ∧ v.thread.plain := by
  have hright := h.right
  have hnot : v.callback.quiet ≠ true := by simp [hc, hloud]
  have hplain : v.thread.plain := by
    cases hthread : v.thread with
    | sent m =>
      rw [hthread] at hright
      exact absurd (by rw [hright.2.2]; rfl) hnot
    | found m q | removed m q =>
      rw [hthread] at hright
      cases q with
      | none => exact ⟨rfl, rfl⟩
      | some q => exact absurd (by first | exact hright.2 | exact hright.2.2) hnot
    | _ => exact ⟨rfl, rfl⟩
  rw [View.right_plain hplain, hc] at hright
  exact ⟨hright, hplain⟩

/-! ### The thread's steps -/

/-- The request is recorded. -/
theorem Alive.record (h : Alive t v) (hthread : v.thread = .sent m) :
    Alive t { v with
      entry := some { m with nAsyncMsgReqStatus := .sent2CP }, thread := .recorded m } := by
  obtain ⟨⟨hreq, hnone⟩, hentry, hidle⟩ := h.right_of hthread
  have hstart := h.starting (by rw [hthread]; rfl)
  have hcoming := h.answer_of hthread
  refine ⟨h.token, ?_, ?_, h.timed, fun _ => hstart, h.dropped⟩
  · show View.Timing _ v.callback
    rw [hidle]
    exact .inl ⟨_, rfl, ⟨hreq, hnone⟩, rfl, nofun⟩
  · show View.Coming _ _ v.reader
    unfold View.Answer at hcoming
    cases hreader : v.reader with
    | idle =>
      rw [hreader] at hcoming
      unfold View.Coming at hcoming ⊢
      dsimp only at hcoming ⊢
      split at hcoming
      · exact fun he => absurd (some_ne_none m) (hcoming he).2.2
      · exact ⟨hcoming.1, fun he => ⟨(hcoming.2 he).1, some_ne_none _⟩⟩
      · exact hcoming
    | routed m' =>
      rw [hreader] at hcoming
      exact ⟨hcoming.1, hcoming.2.1, fun _ => .inl (some_ne_none _)⟩
    | marked m' =>
      rw [hreader] at hcoming
      exact ⟨hcoming.1, hcoming.2.1, hcoming.2.2.1, fun _ => some_ne_none _⟩
    | ready m' =>
      rw [hreader] at hcoming
      exact ⟨hcoming.1, hcoming.2.1, fun he => ⟨(hcoming.2.2 he).1, some_ne_none _⟩⟩

/-- Its timer is started, -/
theorem Alive.startTimer (h : Alive t v) (hthread : v.thread = .recorded m) :
    Alive t { v with timed := True, thread := .timed m } :=
  ⟨h.token, h.right_of hthread, h.answer_of hthread,
    fun _ => (h.starting (by rw [hthread]; rfl)).2, fun hs => Bool.noConfusion hs, h.dropped⟩

/-- and put into the map. -/
theorem Alive.listTimer (h : Alive t v) (hthread : v.thread = .timed m) :
    Alive t { v with thread := .idle } :=
  ⟨h.token, h.right_of hthread, h.answer_of hthread, h.timed, fun hs => Bool.noConfusion hs,
    h.dropped⟩

/-- A response is taken off the queue. -/
theorem Alive.take (h : Alive t v) (hidle : v.thread = .idle) {msg : Message}
    {rest : List Message} (hqueue : v.queued = msg :: rest) :
    Alive t { v with queued := rest, thread := .taken msg } := by
  have hcoming : v.Coming _ v.reader := h.answer_of hidle
  have hhandling : View.Handling { v with queued := rest, thread := .taken msg }
      (v.early → msg.nAsyncMsgReqStatus = .response ∧ v.entry ≠ none) := by
    cases hreader : v.reader with
    | idle =>
      rw [hreader, View.Coming, hqueue] at hcoming
      cases rest with
      | nil => exact ⟨rfl, rfl, hcoming⟩
      | cons => exact hcoming.elim
    | routed | marked | ready =>
      rw [hreader] at hcoming
      exact absurd (hqueue.symm.trans hcoming.1) (List.cons_ne_nil _ _)
  exact ⟨h.token, h.right_of hidle, hhandling, h.timed, fun hs => Bool.noConfusion hs, h.dropped⟩

/-- One that is marked goes to the handler, -/
theorem Alive.match (h : Alive t v) (hthread : v.thread = .taken m) :
    Alive t { v with thread := .matched m } := by
  obtain ⟨hreader, hqueued, hwaiting, hearly⟩ := h.answer_of hthread
  exact ⟨h.token, h.right_of hthread, ⟨hreader, hqueued, hwaiting, fun he => (hearly he).2⟩,
    h.timed, fun hs => Bool.noConfusion hs, h.dropped⟩

/-- When the thread is done with a response, none is on its way. -/
theorem View.answer_idle (hreader : v.reader = .idle) (hqueued : v.queued = [])
    (hearly : v.early → ¬ v.waiting ∧ v.entry = none) : v.Answer .idle := by
  show v.Coming _ v.reader
  rw [hreader, View.Coming, hqueued]
  exact fun he => ⟨(hearly he).1, (hearly he).2, fun hne => hne rfl⟩

/-- and one that is not, is one that came too late. -/
theorem Alive.drop (h : Alive t v) (hthread : v.thread = .taken m)
    (hstatus : m.nAsyncMsgReqStatus ≠ .response) :
    Alive t { v with thread := .idle, dropped := True } := by
  obtain ⟨hreader, hqueued, hwaiting, hearly⟩ := h.answer_of hthread
  have hlate : ¬ v.early := fun he => hstatus (hearly he).1
  exact ⟨h.token, h.right_of hthread,
    View.answer_idle hreader hqueued fun he => absurd he hlate, h.timed,
    fun hs => Bool.noConfusion hs, fun _ => ⟨hlate, hwaiting⟩⟩

/-- **The handler looks its request up**, while the callback does not have
it. -/
theorem Alive.find (h : Alive t v) (hthread : v.thread = .matched m)
    (hcallback : ∀ r, v.callback ≠ .found r ∧ v.callback ≠ .completed r) :
    Alive t { v with thread := .found m v.entry } := by
  obtain ⟨hreader, hqueued, hwaiting, hearly⟩ := h.answer_of hthread
  have htiming : v.Timing v.callback := h.right_of hthread
  refine ⟨h.token, ?_, ⟨hreader, hqueued, hwaiting, id, hearly⟩, h.timed,
    fun hs => Bool.noConfusion hs, h.dropped⟩
  show View.Right _ (.found m v.entry)
  by_cases hquiet : v.callback.quiet = true
  · rw [View.timing_quiet hquiet] at htiming
    rcases htiming with ⟨q, hentry, hopen, -⟩ | hdone
    · rw [hentry]
      exact ⟨hopen, hquiet⟩
    · obtain ⟨c, hentry, hrest⟩ := hdone
      rw [hentry]
      exact (View.timing_quiet hquiet).mpr (.inr ⟨c, rfl, hrest⟩)
  · cases hc : v.callback with
    | found r => exact absurd hc (hcallback r).1
    | completed r => exact absurd hc (hcallback r).2
    | removed r =>
      rw [hc] at htiming
      rw [htiming.2.2]
      show View.Timing _ (.removed r)
      exact ⟨htiming.1, htiming.2.1, rfl⟩
    | idle | started | deleted | ended => exact absurd (by rw [hc]; rfl) hquiet

/-- The request it has found is removed. -/
theorem Alive.remove (h : Alive t v) {q : Option Message} (hthread : v.thread = .found m q) :
    Alive t { v with entry := none, thread := .removed m q } := by
  obtain ⟨hreader, hqueued, hwaiting, hnone, hearly⟩ := h.answer_of hthread
  have hright := h.right_of hthread
  refine ⟨h.token, ?_, ⟨hreader, hqueued, hwaiting, hearly⟩, h.timed,
    fun hs => Bool.noConfusion hs, h.dropped⟩
  cases q with
  | none =>
    have hsame : v.entry = none := hnone rfl
    cases v
    subst hsame
    exact hright
  | some q => exact ⟨hright.1, rfl, hright.2⟩

/-- **It is completed**, -/
theorem Alive.complete (h : Alive t v) (hthread : v.thread = .removed m (some q))
    (hq : q.pReqData = some req) :
    Alive t { v with
      completions := v.completions ++ [⟨t, req, .response⟩], waiting := False, thread := .idle } := by
  obtain ⟨hreader, hqueued, -⟩ := h.answer_of hthread
  obtain ⟨⟨⟨req', hq', hreq⟩, hnone⟩, hentry, hquiet⟩ := h.right_of hthread
  obtain rfl := some.inj (hq.symm.trans hq')
  refine ⟨h.token, ?_, View.answer_idle hreader hqueued fun _ => ⟨id, hentry⟩, h.timed,
    fun hs => Bool.noConfusion hs, fun hd => ⟨(h.dropped hd).1, id⟩⟩
  show View.Timing _ v.callback
  rw [View.timing_quiet hquiet, hnone]
  exact .inr ⟨_, hentry, rfl, hreq, False.elim, fun _ => rfl⟩

/-- or, if there was none, nothing is. -/
theorem Alive.finish (h : Alive t v) (hthread : v.thread = .removed m none) :
    Alive t { v with waiting := False, thread := .idle } := by
  obtain ⟨hreader, hqueued, hwaiting, hearly⟩ := h.answer_of hthread
  have hlate : ¬ v.early := fun he => hearly he rfl
  have hsame : v.waiting = False := propext (iff_false_intro hwaiting)
  rw [← hsame]
  exact ⟨h.token, h.right_of hthread, View.answer_idle hreader hqueued fun he => absurd he hlate,
    h.timed, fun hs => Bool.noConfusion hs, h.dropped⟩

/-! ### The reader's steps -/

theorem View.answer_coming (h : thread.response = none) :
    v.Answer thread = v.Coming (thread.sending ≠ none) v.reader := by
  cases thread with
  | taken | matched | found | removed => exact absurd h nofun
  | _ => rfl

theorem Alive.coming (h : Alive t v) (hbusy : v.reader ≠ .idle ∨ v.waiting) :
    v.thread.response = none ∧ v.Coming (v.thread.sending ≠ none) v.reader := by
  have hanswer := h.answer
  cases hthread : v.thread with
  | taken | matched | found | removed =>
    rw [hthread] at hanswer
    exact (hbusy.elim (fun hne => hne hanswer.1) hanswer.2.2.1).elim
  | idle | sent | recorded | timed =>
    rw [hthread] at hanswer
    exact ⟨rfl, hanswer⟩

/-- The first response arrives. -/
theorem Alive.arrive (h : Alive t v) (hwaiting : v.waiting) (m : Message) :
    Alive t { v with
      waiting := False, reader := .routed m, early := v.callback = .idle ∨ v.early } := by
  obtain ⟨hresponse, hcoming⟩ := h.coming (.inr hwaiting)
  have haway : v.queued = [] ∧ ¬ v.early := by
    cases hreader : v.reader with
    | idle =>
      rw [hreader, View.Coming] at hcoming
      split at hcoming
      · next hqueue => exact ⟨hqueue, fun he => (hcoming he).1 hwaiting⟩
      · exact absurd hwaiting hcoming.1
      · exact hcoming.elim
    | routed | marked | ready =>
      rw [hreader] at hcoming
      exact absurd hwaiting hcoming.2.1
  obtain ⟨hqueued, hlate⟩ := haway
  have hstill : v.callback ≠ .idle → ¬ (v.callback = .idle ∨ v.early) := fun hne he =>
    he.elim hne hlate
  have hplain : v.thread.sending = none → v.Timing v.callback := fun hsending =>
    View.right_plain (Thread.plain_of_response hresponse hsending) ▸ h.right
  refine ⟨h.token, ?_, ?_, h.timed, h.starting, fun hd => absurd hwaiting (h.dropped hd).2⟩
  · have hmove : ∀ c, v.callback = c → v.Timing c → View.Timing { v with
        waiting := False, reader := .routed m, early := v.callback = .idle ∨ v.early } c := by
      intro c hc htiming
      cases c with
      | found q => exact ⟨htiming.1, hstill (hc ▸ nofun)⟩
      | removed q => exact ⟨htiming.1, hstill (hc ▸ nofun), htiming.2.2⟩
      | completed q => exact ⟨hstill (hc ▸ nofun), htiming.2⟩
      | idle | started | deleted | ended =>
        rcases htiming with hkept | ⟨c, hentry, hone, hreq, hbusy, -⟩
        · exact .inl hkept
        · exact .inr ⟨c, hentry, hone, hreq, False.elim,
            fun he => absurd he (hstill (hbusy hwaiting))⟩
    have hright := h.right
    show View.Right _ v.thread
    generalize v.thread = thread at hright hresponse ⊢
    cases thread with
    | sent => exact hright
    | idle | recorded | timed => exact hmove _ rfl hright
    | taken | matched | found | removed => exact absurd hresponse nofun
  · rw [View.answer_coming hresponse]
    refine ⟨hqueued, id, fun he => or_iff_not_imp_right.mpr fun hsending => ?_⟩
    have hidle : v.callback = .idle := he.resolve_right hlate
    have hfree := hplain (not_not.mp hsending)
    rw [hidle] at hfree
    rcases hfree with ⟨q, hentry, -⟩ | ⟨c, -, -, -, hne, -⟩
    · exact hentry ▸ some_ne_none q
    · exact absurd hidle (hne hwaiting)

/-- It is marked, -/
theorem Alive.mark (h : Alive t v) (hreader : v.reader = .routed m) (hentry : v.entry ≠ none) :
    Alive t { v with reader := .marked { m with nAsyncMsgReqStatus := .response } } := by
  obtain ⟨hresponse, hcoming⟩ := h.coming (.inl (hreader ▸ nofun))
  rw [hreader] at hcoming
  refine ⟨h.token, h.right, ?_, h.timed, h.starting, h.dropped⟩
  rw [View.answer_coming hresponse]
  exact ⟨hcoming.1, hcoming.2.1, rfl, fun _ => hentry⟩

/-- or passed on as it is, if there is none; then it came too late. -/
theorem Alive.pass (h : Alive t v) (hreader : v.reader = .routed m)
    (hentry : ∀ q, v.entry = some q → q.nAsyncMsgReqStatus ≠ .sent2CP)
    (hsending : v.thread.sending = none) : Alive t { v with reader := .ready m } := by
  obtain ⟨hresponse, hcoming⟩ := h.coming (.inl (hreader ▸ nofun))
  rw [hreader] at hcoming
  obtain ⟨hqueued, hwaiting, hfinds⟩ := hcoming
  have hlate : ¬ v.early := by
    intro he
    have hsome : v.entry ≠ none := (hfinds he).resolve_right fun hne => hne hsending
    have htiming : v.Timing v.callback :=
      View.right_plain (Thread.plain_of_response hresponse hsending) ▸ h.right
    by_cases hquiet : v.callback.quiet = true
    · rw [View.timing_quiet hquiet] at htiming
      rcases htiming with ⟨q, hq, -, hstatus, -⟩ | ⟨c, hnone, -⟩
      · exact hentry q hq hstatus
      · exact hsome hnone
    · exact htiming.late (by simpa using hquiet) he
  refine ⟨h.token, h.right, ?_, h.timed, h.starting, h.dropped⟩
  rw [View.answer_coming hresponse]
  exact ⟨hqueued, hwaiting, fun he => absurd he hlate⟩

theorem Alive.unlist (h : Alive t v) (hreader : v.reader = .marked m) {b : Prop}
    (hb : b → v.timed) :
    Alive t { v with timed := b, reader := .ready m } := by
  obtain ⟨hresponse, hcoming⟩ := h.coming (.inl (hreader ▸ nofun))
  rw [hreader] at hcoming
  obtain ⟨hqueued, hwaiting, hstatus, hfinds⟩ := hcoming
  refine ⟨h.token, h.right, ?_, fun hb' => h.timed (hb hb'),
    fun hs => ⟨mt hb (h.starting hs).1, (h.starting hs).2⟩, h.dropped⟩
  rw [View.answer_coming hresponse]
  exact ⟨hqueued, hwaiting, fun he => ⟨hstatus, hfinds he⟩⟩

theorem Alive.enqueue (h : Alive t v) (hreader : v.reader = .ready m) :
    Alive t { v with queued := v.queued ++ [m], reader := .idle } := by
  obtain ⟨hresponse, hcoming⟩ := h.coming (.inl (hreader ▸ nofun))
  rw [hreader] at hcoming
  obtain ⟨hqueued, hwaiting, hfinds⟩ := hcoming
  refine ⟨h.token, h.right, ?_, h.timed, h.starting, h.dropped⟩
  rw [View.answer_coming hresponse, hqueued]
  exact ⟨hwaiting, hfinds⟩

/-! ### The timer's steps -/

theorem Alive.not_starting (h : Alive t v) (hstarted : v.timed ∨ v.callback ≠ .idle) :
    v.thread.sending = none ∧ v.thread.starting = false := by
  have hno : v.thread.starting ≠ true := fun hs =>
    hstarted.elim (h.starting hs).1 fun hne => hne (h.starting hs).2
  cases hthread : v.thread with
  | sent | recorded => exact absurd (by rw [hthread]; rfl) hno
  | idle | timed | taken | matched | found | removed => exact ⟨rfl, rfl⟩

/-- A callback that goes on without a request. -/
theorem Alive.callback (h : Alive t v) (hstarted : v.timed ∨ v.callback ≠ .idle)
    (hquiet : v.callback.quiet = true) (hquiet' : c.quiet = true) (hidle : c ≠ .idle)
    (hended : c = .ended → v.entry = none) :
    Alive t { v with callback := c, timed := False } := by
  obtain ⟨hsending, hstart⟩ := h.not_starting hstarted
  refine ⟨h.token, ?_, h.answer, False.elim, fun hs => absurd hs (by simp [hstart]), h.dropped⟩
  have hfree : v.Timing v.callback → View.Timing { v with callback := c, timed := False } c := by
    rw [View.timing_quiet hquiet, View.timing_quiet hquiet']
    rintro (⟨q, hentry, hopen, hstatus, -⟩ | ⟨d, hentry, hone, hreq, -, hcause⟩)
    · exact .inl ⟨q, hentry, hopen, hstatus,
        fun hc => absurd (hentry.symm.trans (hended hc)) nofun⟩
    · exact .inr ⟨d, hentry, hone, hreq, fun _ => hidle, hcause⟩
  have hright := h.right
  show View.Right _ v.thread
  generalize v.thread = thread at hright hsending ⊢
  cases thread with
  | sent => exact absurd hsending nofun
  | found m q =>
    cases q with
    | none => exact hfree hright
    | some q => exact ⟨hright.1, hquiet'⟩
  | removed m q =>
    cases q with
    | none => exact hfree hright
    | some q => exact ⟨hright.1, hright.2.1, hquiet'⟩
  | idle | recorded | timed | taken | matched => exact hfree hright

/-- **The callback finds a request** that was not answered in time, while
the handler does not have it. -/
theorem Alive.timeout (h : Alive t v) (hdeleted : v.callback = .deleted) (hentry : v.entry = some q)
    (hlate : ¬ v.early) (hhandler : ∀ m r, v.thread ≠ .found m (some r)) :
    Alive t { v with callback := .found q } := by
  obtain ⟨hsending, hstart⟩ := h.not_starting (.inr (hdeleted ▸ nofun))
  refine ⟨h.token, ?_, h.answer, fun ht => absurd (hdeleted.symm.trans (h.timed ht)) nofun,
    fun hs => absurd hs (by simp [hstart]), h.dropped⟩
  have hfree : v.Timing v.callback → View.Timing { v with callback := .found q } (.found q) := by
    rw [hdeleted]
    rintro (⟨q', hq, hopen, -⟩ | ⟨d, hnone, -⟩)
    · obtain rfl := some.inj (hentry.symm.trans hq)
      exact ⟨hopen, hlate⟩
    · exact absurd (hentry.symm.trans hnone) nofun
  have hright := h.right
  show View.Right _ v.thread
  generalize v.thread = thread at hright hsending hhandler ⊢
  cases thread with
  | sent => exact absurd hsending nofun
  | found m r =>
    cases r with
    | none => exact hfree hright
    | some r => exact absurd rfl (hhandler m r)
  | removed m r =>
    cases r with
    | none => exact hfree hright
    | some r => exact absurd (hentry.symm.trans hright.2.1) nofun
  | idle | recorded | timed | taken | matched => exact hfree hright

/-- What a late request loses, its response does not miss. -/
theorem View.Answer.late (h : v.Answer thread) (hlate : ¬ v.early) {e : Option Message}
    (he : v.entry = none → e = none) {w : Prop} (hw : w → v.waiting) (c : Callback)
    (l : List Completion) :
    View.Answer { v with entry := e, callback := c, completions := l, waiting := w } thread := by
  have hno : ∀ {P : Prop}, v.early → P := fun hearly => absurd hearly hlate
  have hcoming : ∀ {P reader}, v.Coming P reader → View.Coming
      { v with entry := e, callback := c, completions := l, waiting := w } P reader := by
    intro P reader hcoming
    cases reader with
    | idle =>
      unfold View.Coming at hcoming ⊢
      dsimp only at hcoming ⊢
      split at hcoming
      · exact hno
      · exact ⟨mt hw hcoming.1, hno⟩
      · exact hcoming
    | routed => exact ⟨hcoming.1, mt hw hcoming.2.1, hno⟩
    | marked => exact ⟨hcoming.1, mt hw hcoming.2.1, hcoming.2.2.1, hno⟩
    | ready => exact ⟨hcoming.1, mt hw hcoming.2.1, hno⟩
  cases thread with
  | taken | matched | removed => exact ⟨h.1, h.2.1, mt hw h.2.2.1, hno⟩
  | found => exact ⟨h.1, h.2.1, mt hw h.2.2.1, fun hq => he (h.2.2.2.1 hq), hno⟩
  | idle | sent | recorded | timed => exact hcoming h

/-- A callback with a request in its hand goes on with it. -/
theorem Alive.goesOn (h : Alive t v) (hloud : v.callback.quiet = false) {v' : View}
    {e : Option Message} (he : v.entry = none → e = none) {w : Prop} (hw : w → v.waiting)
    {l : List Completion}
    (hv' : v' = { v with entry := e, callback := c, completions := l, waiting := w })
    (htiming : v'.Timing c) : Alive t v' := by
  subst hv'
  obtain ⟨hright, hplain⟩ := h.timing rfl hloud
  have hne : v.callback ≠ .idle := fun hidle => absurd hloud (by simp [hidle, Callback.quiet])
  refine ⟨h.token, (View.right_plain hplain).mpr htiming,
    h.answer.late (hright.late hloud) he hw c l, fun ht => absurd (h.timed ht) hne,
    fun hs => absurd hs (by simp [(h.not_starting (.inr hne)).2]),
    fun hd => ⟨(h.dropped hd).1, mt hw (h.dropped hd).2⟩⟩

/-- `OnHandleRequestTimeout` removes it first, -/
theorem Alive.timeoutRemove (h : Alive t v) (hfound : v.callback = .found q) :
    Alive t { v with entry := none, callback := .removed q } := by
  obtain ⟨⟨hopen, hlate⟩, -⟩ := h.timing hfound rfl
  exact h.goesOn (by rw [hfound]; rfl) (fun _ => rfl) (w := v.waiting) id rfl ⟨hopen, hlate, rfl⟩

/-- and completes it then; -/
theorem Alive.timeoutEnd (h : Alive t v) (hremoved : v.callback = .removed q)
    (hq : q.pReqData = some req) :
    Alive t { v with
      completions := v.completions ++ [⟨t, req, .timeout⟩], waiting := False, callback := .ended } := by
  obtain ⟨⟨⟨⟨req', hq', hreq⟩, hnone⟩, hlate, hentry⟩, -⟩ := h.timing hremoved rfl
  obtain rfl := some.inj (hq.symm.trans hq')
  refine h.goesOn (by rw [hremoved]; rfl) id False.elim rfl (.inr ⟨⟨t, req, .timeout⟩, hentry, ?_,
    hreq, False.elim, fun he => absurd he hlate⟩)
  rw [hnone]
  rfl

/-- `OnRequestTimeout` completes it first, -/
theorem Alive.timeoutComplete (h : Alive t v) (hfound : v.callback = .found q)
    (hq : q.pReqData = some req) :
    Alive t { v with
      completions := v.completions ++ [⟨t, req, .timeout⟩], waiting := False,
      callback := .completed q } := by
  obtain ⟨⟨⟨⟨req', hq', hreq⟩, hnone⟩, hlate⟩, -⟩ := h.timing hfound rfl
  obtain rfl := some.inj (hq.symm.trans hq')
  refine h.goesOn (by rw [hfound]; rfl) id False.elim rfl ⟨hlate, ⟨t, req, .timeout⟩, ?_, hreq⟩
  rw [hnone]
  rfl

/-- and it is removed then. -/
theorem Alive.timeoutForget (h : Alive t v) (hcompleted : v.callback = .completed q) :
    Alive t { v with entry := none, callback := .ended } := by
  obtain ⟨⟨hlate, c, hone, hreq⟩, -⟩ := h.timing hcompleted rfl
  exact h.goesOn (by rw [hcompleted]; rfl) (fun _ => rfl) (w := v.waiting) id rfl
    (.inr ⟨c, rfl, hone, hreq, fun _ => nofun, fun he => absurd he hlate⟩)

end Alive

/-! ## The steps of the system -/

section Own

variable {s : System} {t : UINT}

variable {m : Message}

/-- The thread is at work on the request. -/
theorem view_thread {thread : Thread} (hthread : s.thread = thread) (hmsg : thread.msg = some m)
    (ht : m.getToken = t) : (s.view t).thread = thread := by
  show s.thread.of t = thread
  rw [hthread]
  exact Thread.of_self hmsg ht

theorem view_reader {reader : Reader} (hreader : s.reader = reader) (hmsg : reader.msg = some m)
    (ht : m.getToken = t) : (s.view t).reader = reader := by
  show s.reader.of t = reader
  rw [hreader]
  exact Reader.of_self hmsg ht

/-- A token that was not sent may be. -/
theorem alive_send (ht : m.getToken = t) (h : s.view t = .blank) :
    (s.send m).view t = .blank ∨ Alive t ((s.send m).view t) := by
  unfold System.send
  split
  · exact Or.inl h
  · next req hreq =>
    split
    · next hsend =>
      refine Or.inr ?_
      have hthread : (Thread.sent m).of t = .sent m := Thread.of_self rfl ht
      have hview : ({ s with
            waitList := m.getToken :: s.waitList
            sent := (m.getToken, req) :: s.sent
            thread := .sent m } : System).view t =
          { s.view t with req := some req, waiting := True, thread := .sent m } := by
        simp [System.view, System.completionsOf, hthread, ht]
      rw [hview, h]
      exact ⟨ht ▸ hsend.2.2.1, ⟨⟨⟨req, hreq, rfl⟩, rfl⟩, rfl, rfl⟩, False.elim, False.elim,
        fun _ => ⟨id, rfl⟩, False.elim⟩
    · exact Or.inl h

theorem send_of_lookup {req : RequestData} (h : s.sent.lookup m.getToken = some req) :
    s.send m = s := by
  unfold System.send
  split
  · rfl
  · refine if_neg fun hsend => ?_
    rw [hsend.2.2.2] at h
    exact absurd h (by simp)

theorem Alive.threadStep (h : Alive t (s.view t)) (hacts : s.acts .thread = some t)
    (hapart : s.Apart .thread) : Alive t (s.threadStep.view t) := by
  have hown : ∀ {m}, s.thread.msg = some m → m.getToken = t := fun hm =>
    some.inj ((acts_thread hm).symm.trans hacts)
  unfold System.threadStep
  cases hthread : s.thread with
  | idle =>
    dsimp only
    cases hqueue : s.responseQueue with
    | nil => exact h
    | cons msg rest =>
      have ht : msg.getToken = t := by
        unfold System.acts at hacts
        rw [hthread, hqueue] at hacts
        exact some.inj hacts
      have hidle : (s.view t).thread = .idle := by
        show s.thread.of t = .idle
        rw [hthread]
        rfl
      have hqueued : (s.view t).queued = msg :: rest.filter (·.getToken = t) := by
        show s.responseQueue.filter _ = _
        rw [hqueue]
        simp [ht]
      have htaken : (Thread.taken msg).of t = .taken msg := Thread.of_self rfl ht
      have hview : ({ s with responseQueue := rest, thread := .taken msg } : System).view t =
          { s.view t with
            queued := rest.filter (·.getToken = t), thread := .taken msg } := by
        simp [System.view, System.completionsOf, htaken]
      rw [hview]
      exact h.take hidle hqueued
  | sent m =>
    have ht : m.getToken = t := hown (by rw [hthread]; rfl)
    have hsent := view_thread hthread rfl ht
    have hnone : AsyncMsgHistory.find s.history m.getToken = none := by
      rw [ht]
      exact (h.right_of hsent).2.1
    have hrecorded : (Thread.recorded m).of t = .recorded m := Thread.of_self rfl ht
    have hfind := AsyncMsgHistory.find_push_self (m := { m with nAsyncMsgReqStatus := .sent2CP })
      (ht.symm ▸ h.token) hnone
    have hview : ({ s with
          history := AsyncMsgHistory.push s.history m.getToken
            { m with nAsyncMsgReqStatus := .sent2CP }
          thread := .recorded m } : System).view t =
        { s.view t with
          entry := some { m with nAsyncMsgReqStatus := .sent2CP }, thread := .recorded m } := by
      rw [ht] at hfind
      simp [System.view, System.completionsOf, hrecorded, hfind, ht]
    dsimp only
    rw [hview]
    exact h.record hsent
  | recorded m =>
    have ht : m.getToken = t := hown (by rw [hthread]; rfl)
    have htimed : (Thread.timed m).of t = .timed m := Thread.of_self rfl ht
    have hview : ({ s with timers := m.getToken :: s.timers, thread := .timed m } : System).view t =
        { s.view t with timed := True, thread := .timed m } := by
      simp [System.view, System.completionsOf, htimed, ht]
    dsimp only
    rw [hview]
    exact h.startTimer (view_thread hthread rfl ht)
  | timed m =>
    exact h.listTimer (view_thread hthread rfl (hown (by rw [hthread]; rfl)))
  | taken m =>
    have ht : m.getToken = t := hown (by rw [hthread]; rfl)
    have htaken := view_thread hthread rfl ht
    have hmatched : (Thread.matched m).of t = .matched m := Thread.of_self rfl ht
    dsimp only
    split
    · rw [view_setThread, hmatched]
      exact h.match htaken
    · next hstatus =>
      have hview : ({ s with thread := .idle, dropped := m.getToken :: s.dropped } : System).view t =
          { s.view t with thread := .idle, dropped := True } := by
        simp [System.view, System.completionsOf, ht]
      rw [hview]
      exact h.drop htaken (by simpa [Service.isReqRspMatched] using hstatus)
  | matched m =>
    have ht : m.getToken = t := hown (by rw [hthread]; rfl)
    have hfound : ∀ q, (Thread.found m q).of t = .found m q := fun q => Thread.of_self rfl ht
    have hcallback := hapart m hthread
    rw [ht] at hcallback
    dsimp only
    rw [view_setThread, hfound, ht]
    exact h.find (view_thread hthread rfl ht) hcallback
  | found m q =>
    have ht : m.getToken = t := hown (by rw [hthread]; rfl)
    have hremoved : (Thread.removed m q).of t = .removed m q := Thread.of_self rfl ht
    dsimp only
    rw [view_setThread, hremoved, ht, view_remove_self]
    exact h.remove (view_thread hthread rfl ht)
  | removed m q =>
    have ht : m.getToken = t := hown (by rw [hthread]; rfl)
    have hremoved := view_thread hthread rfl ht
    dsimp only
    rw [view_setThread, ht, view_clearGarbage_self, Thread.of_idle]
    cases q with
    | none => exact h.finish hremoved
    | some q =>
      obtain ⟨⟨⟨req, hq, -⟩, -⟩, -⟩ := h.right_of hremoved
      rw [view_complete_self (q := some q) hq]
      exact h.complete hremoved hq

theorem Alive.arriveStep (h : Alive t (s.view t)) (ht : m.getToken = t) :
    Alive t ((s.arrive m).view t) := by
  unfold System.arrive
  split
  · next harrive =>
    have hrouted : (Reader.routed m).of t = .routed m := Reader.of_self rfl ht
    have hearly : t ∈ (if s.callback t = .idle then t :: s.early else s.early) ↔
        s.callback t = .idle ∨ t ∈ s.early := by
      split
      · next hidle => simp [hidle]
      · next hne => simp [hne]
    have hview : ({ s with
          waitList := s.waitList.filter (· ≠ m.getToken)
          reader := .routed m
          early := if s.callback m.getToken = .idle then m.getToken :: s.early else s.early } :
            System).view t =
        { s.view t with
          waiting := False, reader := .routed m,
          early := (s.view t).callback = .idle ∨ (s.view t).early } := by
      simp [System.view, System.completionsOf, hrouted, hearly, ht]
    have hwaiting : (s.view t).waiting := ht ▸ harrive.2.2
    rw [hview]
    exact h.arrive hwaiting m
  · exact h

theorem Alive.readerStep (h : Alive t (s.view t)) (hacts : s.acts .reader = some t)
    (hapart : s.Apart .reader) : Alive t (s.readerStep.view t) := by
  have hown : ∀ {m}, s.reader.msg = some m → m.getToken = t := by
    intro m hm
    unfold System.acts at hacts
    rw [hm] at hacts
    exact some.inj hacts
  unfold System.readerStep
  cases hreader : s.reader with
  | idle => exact h
  | routed m =>
    have ht : m.getToken = t := hown (by rw [hreader]; rfl)
    have hrouted := view_reader hreader rfl ht
    dsimp only
    split
    · next hfind =>
      have hmarked : (Reader.marked { m with nAsyncMsgReqStatus := .response }).of t =
          .marked { m with nAsyncMsgReqStatus := .response } := Reader.of_self rfl ht
      have hentry : (s.view t).entry ≠ none := by
        intro hnone
        have hnone' : AsyncMsgHistory.find s.history t = none := hnone
        rw [ht, hnone'] at hfind
        exact Bool.false_ne_true hfind
      rw [view_setReader, hmarked]
      exact h.mark hrouted hentry
    · next hfind =>
      have hready : (Reader.ready m).of t = .ready m := Reader.of_self rfl ht
      have hentry : ∀ q, (s.view t).entry = some q → q.nAsyncMsgReqStatus ≠ .sent2CP := by
        intro q hq hstatus
        have hq' : AsyncMsgHistory.find s.history t = some q := hq
        rw [ht, hq'] at hfind
        exact hfind (by simpa using hstatus)
      have hsending : (s.view t).thread.sending = none := by
        show (s.thread.of t).sending = none
        cases hthread : s.thread with
        | sent r =>
          have hne := hapart m hreader r (by rw [hthread]; rfl)
          rw [Thread.of_ne (m := r) rfl (ht ▸ hne)]
          rfl
        | idle | recorded | timed | taken | matched | found | removed =>
          unfold Thread.of
          split <;> rfl
      rw [view_setReader, hready]
      exact h.pass hrouted hentry hsending
  | marked m =>
    have ht : m.getToken = t := hown (by rw [hreader]; rfl)
    have hready : (Reader.ready m).of t = .ready m := Reader.of_self rfl ht
    obtain ⟨b, hb, hview⟩ := view_deleteTimer_self (s := s) (t := t)
    dsimp only
    rw [view_setReader, ht, hview, hready]
    exact h.unlist (view_reader hreader rfl ht) hb
  | ready m =>
    have ht : m.getToken = t := hown (by rw [hreader]; rfl)
    have hview : ({ s with responseQueue := s.responseQueue ++ [m], reader := .idle } :
        System).view t =
        { s.view t with queued := (s.view t).queued ++ [m], reader := .idle } := by
      simp [System.view, System.completionsOf, ht]
    dsimp only
    rw [hview]
    exact h.enqueue (view_reader hreader rfl ht)

theorem Alive.expireStep (h : Alive t (s.view t)) : Alive t ((s.expire t).view t) := by
  unfold System.expire
  split
  · next htimed =>
    have hview : ({ s.setCallback t .started with timers := s.timers.filter (· ≠ t) } :
        System).view t = { s.view t with callback := .started, timed := False } := by
      simp [System.view, System.completionsOf, System.setCallback]
    have hidle : (s.view t).callback = .idle := h.timed htimed
    rw [hview]
    exact h.callback (Or.inl htimed) (by rw [hidle]; rfl) rfl nofun nofun
  · exact h

theorem Alive.callbackStep (h : Alive t (s.view t)) (handled : Bool)
    (hapart : s.Apart (.callback t handled)) : Alive t ((s.callbackStep t handled).view t) := by
  have hstill : (s.view t).callback ≠ .idle → (s.view t).timed = False := fun hne =>
    propext (iff_false_intro fun ht => hne (h.timed ht))
  unfold System.callbackStep
  cases hc : s.callback t with
  | idle => exact h
  | ended => exact h
  | started =>
    have hcallback : (s.view t).callback = .started := hc
    obtain ⟨b, hb, hview⟩ := view_deleteTimer_self (s := s) (t := t)
    have hfalse : b = False := by
      refine propext (iff_false_intro fun hb' => ?_)
      rw [hstill (by simp [hcallback])] at hb
      exact hb hb'
    dsimp only
    rw [view_setCallback_self, hview, hfalse]
    exact h.callback (Or.inr (by simp [hcallback])) (by rw [hcallback]; rfl) rfl nofun nofun
  | deleted =>
    have hcallback : (s.view t).callback = .deleted := hc
    obtain ⟨hearly, hhandler⟩ := hapart hc
    dsimp only
    cases hfind : AsyncMsgHistory.find s.history t with
    | none =>
      have hview : (s.setCallback t .ended).view t =
          { s.view t with callback := .ended, timed := False } := by
        rw [view_setCallback_self, ← hstill (by simp [hcallback])]
      dsimp only
      rw [hview]
      exact h.callback (Or.inr (by simp [hcallback])) (by rw [hcallback]; rfl) rfl nofun
        fun _ => hfind
    | some q =>
      have hlate : ¬ (s.view t).early := fun he => absurd (hfind.symm.trans (hearly he)) nofun
      have hthread : ∀ m r, (s.view t).thread ≠ .found m (some r) := by
        intro m r heq
        have hof : s.thread.of t = .found m (some r) := heq
        unfold Thread.of at hof
        split at hof
        · next hmsg =>
          rw [hof] at hmsg
          exact hhandler m r hof (by simpa [Thread.msg] using hmsg)
        · exact Thread.noConfusion hof
      dsimp only
      rw [view_setCallback_self]
      exact h.timeout hcallback hfind hlate hthread
  | found q =>
    have hcallback : (s.view t).callback = .found q := hc
    obtain ⟨⟨⟨⟨req, hq, -⟩, -⟩, -⟩, -⟩ := h.timing hcallback rfl
    dsimp only
    rw [if_neg (by simp [hq])]
    split
    · rw [view_setCallback_self, view_remove_self]
      exact h.timeoutRemove hcallback
    · rw [view_setCallback_self, view_complete_self (q := some q) hq, view_clearGarbage_self]
      exact h.timeoutComplete hcallback hq
  | removed q =>
    have hcallback : (s.view t).callback = .removed q := hc
    obtain ⟨⟨⟨⟨req, hq, -⟩, -⟩, -⟩, -⟩ := h.timing hcallback rfl
    dsimp only
    rw [view_setCallback_self, view_clearGarbage_self, view_complete_self (q := some q) hq]
    exact h.timeoutEnd hcallback hq
  | completed q =>
    have hcallback : (s.view t).callback = .completed q := hc
    dsimp only
    rw [view_setCallback_self, view_remove_self]
    exact h.timeoutForget hcallback

end Own

/-! ## Every run -/

section Runs

variable {s : System} {t : UINT}

/-- A request that was never sent is not there, and one that was has its
invariant. -/
def System.Inv (s : System) (t : UINT) : Prop := s.view t = .blank ∨ Alive t (s.view t)

/-- Nobody is at work on a token that was never sent. -/
theorem blank_step {i : System.Input} (h : s.view t = .blank) (hacts : s.acts i = some t)
    (hsend : ∀ m, i ≠ .send m) : (s.step i).view t = .blank := by
  have hsame : ∀ {s' : System}, s' = s → s'.view t = .blank := fun heq => heq ▸ h
  cases i with
  | send m => exact absurd rfl (hsend m)
  | thread =>
    have hthread : (s.view t).thread = .idle := congrArg View.thread h
    have hqueued : (s.view t).queued = [] := congrArg View.queued h
    unfold System.acts at hacts
    cases hmsg : s.thread.msg with
    | some m =>
      rw [hmsg] at hacts
      rw [view_thread rfl hmsg (some.inj hacts)] at hthread
      rw [hthread] at hmsg
      exact absurd hmsg (by simp [Thread.msg])
    | none =>
      rw [hmsg] at hacts
      cases hqueue : s.responseQueue with
      | nil =>
        rw [hqueue] at hacts
        exact absurd hacts (by simp)
      | cons m rest =>
        have ht : m.getToken = t := by
          rw [hqueue] at hacts
          exact some.inj hacts
        have hhead : (s.view t).queued = m :: rest.filter (·.getToken = t) := by
          show s.responseQueue.filter _ = _
          rw [hqueue]
          simp [ht]
        rw [hhead] at hqueued
        exact absurd hqueued (List.cons_ne_nil _ _)
  | arrive m =>
    have hwaiting : ¬ (s.view t).waiting := by
      rw [h]
      exact id
    have ht : m.getToken = t := some.inj hacts
    exact hsame (if_neg fun harrive => hwaiting (ht ▸ harrive.2.2))
  | reader =>
    have hreader : (s.view t).reader = .idle := congrArg View.reader h
    unfold System.acts at hacts
    obtain ⟨m, hmsg, ht⟩ := map_eq_some_iff.mp hacts
    rw [view_reader rfl hmsg ht] at hreader
    rw [hreader] at hmsg
    exact absurd hmsg (by simp [Reader.msg])
  | expire token =>
    have htimed : ¬ (s.view t).timed := by
      rw [h]
      exact id
    have ht : token = t := some.inj hacts
    exact hsame (if_neg fun hmem => htimed (ht ▸ hmem))
  | callback token handled =>
    have ht : token = t := some.inj hacts
    have hidle : s.callback token = .idle := by
      rw [ht]
      exact congrArg View.callback h
    refine hsame ?_
    show s.callbackStep token handled = s
    unfold System.callbackStep
    rw [hidle]

/-- A request that was sent is yet to be completed, or was once. -/
theorem Alive.outcome {v : View} (h : Alive t v) : (∃ q, v.Open q) ∨
    ∃ c, v.completions = [c] ∧ v.req = some c.req ∧ (v.early → c.cause = .response) := by
  have htiming : ∀ {c}, v.Timing c → (∃ q, v.Open q) ∨
      ∃ c, v.completions = [c] ∧ v.req = some c.req ∧ (v.early → c.cause = .response) := by
    intro c h
    cases c with
    | found q => exact .inl ⟨q, h.1⟩
    | removed q => exact .inl ⟨q, h.1⟩
    | completed q =>
      obtain ⟨hlate, c, hone, hreq⟩ := h
      exact .inr ⟨c, hone, hreq, fun he => absurd he hlate⟩
    | idle | started | deleted | ended =>
      rcases h with ⟨q, -, hopen, -⟩ | ⟨c, -, hone, hreq, -, hcause⟩
      · exact .inl ⟨q, hopen⟩
      · exact .inr ⟨c, hone, hreq, hcause⟩
  have hright := h.right
  generalize v.thread = thread at hright
  cases thread with
  | sent m => exact .inl ⟨m, hright.1⟩
  | found m q | removed m q =>
    cases q with
    | none => exact htiming hright
    | some q => exact .inl ⟨q, hright.1⟩
  | idle | recorded | timed | taken | matched => exact htiming hright

theorem Alive.req (h : Alive t (s.view t)) : ∃ req, s.sent.lookup t = some req := by
  rcases h.outcome with ⟨q, ⟨req, -, hreq⟩, -⟩ | ⟨c, -, hreq, -⟩
  · exact ⟨req, hreq⟩
  · exact ⟨c.req, hreq⟩

/-- **A step keeps the invariant.** -/
theorem System.Inv.step {i : System.Input} (h : s.Inv t) (hapart : s.Apart i) :
    (s.step i).Inv t := by
  by_cases hacts : s.acts i = some t
  · rcases h with hblank | halive
    · by_cases hsend : ∃ m, i = .send m
      · obtain ⟨m, rfl⟩ := hsend
        exact alive_send (some.inj hacts) hblank
      · exact Or.inl (blank_step hblank hacts fun m heq => hsend ⟨m, heq⟩)
    · refine Or.inr ?_
      cases i with
      | send m =>
        obtain ⟨req, hreq⟩ := halive.req
        have ht : m.getToken = t := some.inj hacts
        have hsame : s.step (.send m) = s := send_of_lookup (ht ▸ hreq)
        rw [hsame]
        exact halive
      | thread => exact halive.threadStep hacts hapart
      | arrive m => exact halive.arriveStep (some.inj hacts)
      | reader => exact halive.readerStep hacts hapart
      | expire token =>
        obtain rfl : token = t := some.inj hacts
        exact halive.expireStep
      | callback token handled =>
        obtain rfl : token = t := some.inj hacts
        exact halive.callbackStep handled hapart
  · unfold System.Inv
    rw [view_step_ne hacts]
    exact h

theorem System.Inv.start : System.start.Inv t := by
  refine Or.inl ?_
  simp [System.view, System.start, System.completionsOf, View.blank, AsyncMsgHistory.find]

/-! ### What the invariant gives -/

/-- Nothing in flight is nothing in the request's part. -/
theorem view_flight (h : ¬ s.InFlight t) :
    (s.view t).reader = .idle ∧ (s.view t).queued = [] ∧ (s.view t).thread.response = none := by
  refine ⟨?_, ?_, ?_⟩
  · show s.reader.of t = .idle
    unfold Reader.of
    split
    · next hany =>
      cases hmsg : s.reader.msg with
      | none => exact absurd hany (by simp [hmsg])
      | some m =>
        have ht : m.getToken = t := by simpa [hmsg] using hany
        exact absurd (Or.inl ⟨m, hmsg, ht⟩) h
    · rfl
  · show s.responseQueue.filter _ = []
    rw [List.filter_eq_nil_iff]
    intro m hm ht
    exact h (Or.inr (Or.inl ⟨m, hm, of_decide_eq_true ht⟩))
  · show (s.thread.of t).response = none
    unfold Thread.of
    split
    · next hany =>
      cases hthread : s.thread with
      | idle | sent m | recorded m | timed m => rfl
      | taken m | matched m | found m q | removed m q =>
        rw [hthread] at hany
        have ht : m.getToken = t := by simpa [Thread.msg] using hany
        exact absurd (Or.inr (Or.inr ⟨m, by rw [hthread]; rfl, ht⟩)) h
    · rfl

/-- A thread that does not send the request is not sending it. -/
theorem view_sending (h : ∀ m, s.thread.sending = some m → m.getToken ≠ t) :
    (s.view t).thread.sending = none := by
  show (s.thread.of t).sending = none
  unfold Thread.of
  split
  · next hany =>
    cases hthread : s.thread with
    | sent m =>
      rw [hthread] at hany
      have ht : m.getToken = t := by simpa [Thread.msg] using hany
      exact absurd ht (h m (by rw [hthread]; rfl))
    | idle | recorded | timed | taken | matched | found | removed => rfl
  · rfl

/-- **A request that is settled was completed.** -/
theorem Alive.settled (h : Alive t (s.view t)) (hsettled : s.Settled t) :
    (s.completionsOf t).length = 1 := by
  obtain ⟨hreader, hqueued, hresponse⟩ := view_flight hsettled.flight
  have hplain := Thread.plain_of_response hresponse (view_sending hsettled.thread)
  have hquiet : (s.view t).callback.quiet = true := by
    show (s.callback t).quiet = true
    rcases hsettled.callback with hc | hc
    · rw [hc]
      rfl
    · rw [hc]
      rfl
  have hfree : (s.view t).Free := by
    rw [← View.timing_quiet hquiet, ← View.right_plain hplain]
    exact h.right
  rcases hfree with ⟨q, hentry, -, -, hended⟩ | ⟨c, -, hone, -⟩
  · -- the timer has not ended, so the response came, and it found the request
    have hearly : (s.view t).early := hsettled.answered.resolve_right hended
    have hcoming := h.answer
    rw [View.answer_coming hresponse, hreader, View.Coming, hqueued] at hcoming
    exact absurd (hentry.symm.trans (hcoming hearly).2.1) nofun
  · have hone' : s.completionsOf t = [c] := hone
    rw [hone']
    rfl

/-- **The invariant is enough.** -/
theorem Alive.once {req : RequestData} (h : Alive t (s.view t))
    (hreq : s.sent.lookup t = some req) : s.Once t req := by
  have hcompletions : s.completionsOf t = [] ∨ ∃ c, s.completionsOf t = [c] ∧
      s.sent.lookup t = some c.req ∧ (t ∈ s.early → c.cause = .response) :=
    h.outcome.imp_left fun ⟨_, hopen⟩ => hopen.2
  refine ⟨?_, h.settled, ?_, fun hearly => ⟨fun hd => (h.dropped hd).1 hearly, ?_⟩⟩
  · rcases hcompletions with hnone | ⟨c, hc, -⟩
    · simp [hnone]
    · simp [hc]
  · intro c hmem
    rcases hcompletions with hnone | ⟨c', hc, hreq', -⟩
    · exact absurd hmem (by simp [hnone])
    · rw [hc, List.mem_singleton] at hmem
      rw [hmem]
      exact some.inj (hreq'.symm.trans hreq)
  · intro c hmem
    rcases hcompletions with hnone | ⟨c', hc, -, hcause⟩
    · exact absurd hmem (by simp [hnone])
    · rw [hc, List.mem_singleton] at hmem
      rw [hmem]
      exact hcause hearly

/-- **Every request is completed once**, in every run whose steps keep
apart. -/
theorem exactlyOnce (inputs : List System.Input)
    (h : Run.Throughout System.step System.Apart System.start inputs) :
    Run.Always System.step System.ExactlyOnce System.start inputs := by
  have hinv : Run.Always System.step (fun s => ∀ t, s.Inv t) System.start inputs :=
    Run.Always.of_invariant (fun s i hs hapart t => (hs t).step hapart)
      (fun t => System.Inv.start) h
  refine hinv.mono fun s hs t req hreq => ?_
  rcases hs t with hblank | halive
  · have hnone : s.sent.lookup t = none := congrArg View.req hblank
    rw [hnone] at hreq
    exact absurd hreq (by simp)
  · exact halive.once hreq

end Runs

section Examples

/-- A thread that sends nothing keeps out of the reader's way. -/
theorem apart_reader {s : System} (h : s.thread.sending = none) : s.Apart .reader := by
  intro m _ r hr
  rw [h] at hr
  exact absurd hr (by simp)

theorem apart_thread {s : System} (h : ∀ m, s.thread = .matched m → s.callback m.getToken = .idle) :
    s.Apart .thread := by
  intro m hm r
  rw [h m hm]
  exact ⟨nofun, nofun⟩

/-- A request with the token 7, -/
def request : Message where
  ptr := 0
  nMsgId := 5
  nTimeout := 30000
  nDirection := .asyncRequest
  pReqData := some ⟨5, 0⟩
  pModemData := some ⟨7, false, false⟩
  pUserData := none
  nAsyncMsgReqStatus := .processing

/-- and the modem's response. -/
def response : Message where
  ptr := 1
  nMsgId := 5
  nTimeout := 0
  nDirection := .response
  pReqData := none
  pModemData := some ⟨7, true, false⟩
  pUserData := none
  nAsyncMsgReqStatus := .none

/-- The response comes when the request's timer runs. -/
def inTime : List System.Input :=
  [.send request, .thread, .thread, .thread, .arrive response, .reader, .reader, .reader,
    .thread, .thread, .thread, .thread, .thread]

/-- The request is completed, by the response. -/
theorem exactlyOnce_inTime :
    Run.Always System.step System.ExactlyOnce System.start inTime ∧
      (inTime.foldl System.step System.start).completions = [⟨7, ⟨5, 0⟩, .response⟩] := by
  refine ⟨exactlyOnce inTime ?_, by decide⟩
  exact ⟨trivial, apart_thread fun _ _ => rfl, apart_thread fun _ _ => rfl,
    apart_thread fun _ _ => rfl, trivial, apart_reader rfl, apart_reader rfl, apart_reader rfl,
    apart_thread fun _ _ => rfl, apart_thread fun _ _ => rfl, apart_thread fun _ _ => rfl,
    apart_thread fun _ _ => rfl, apart_thread fun _ _ => rfl, trivial⟩

/-- The response comes, and the reader looks the request up, before the
thread has recorded it. -/
def tooSoon : List System.Input :=
  [.send request, .arrive response, .reader, .thread, .thread, .thread, .reader, .thread, .thread]

/-- The timer expires, and the callback looks the request up, when the
response is in the queue. -/
def crossed : List System.Input :=
  [.send request, .thread, .thread, .thread, .arrive response, .expire 7, .reader,
    .callback 7 false, .reader, .reader, .callback 7 false, .thread, .thread, .thread,
    .callback 7 false, .thread, .thread, .callback 7 false]

/-- **A response in time is dropped**, and a request is completed twice. -/
theorem not_exactlyOnce :
    (7 ∈ (tooSoon.foldl System.step System.start).early ∧
      7 ∈ (tooSoon.foldl System.step System.start).dropped ∧
      ¬ (tooSoon.foldl System.step System.start).ExactlyOnce) ∧
    (crossed.foldl System.step System.start).completions =
      [⟨7, ⟨5, 0⟩, .timeout⟩, ⟨7, ⟨5, 0⟩, .response⟩] ∧
    ¬ (crossed.foldl System.step System.start).ExactlyOnce := by
  refine ⟨⟨by decide, by decide, fun h => ?_⟩, by decide, fun h => ?_⟩
  · exact ((h 7 ⟨5, 0⟩ (by decide)).early (by decide)).1 (by decide)
  · exact absurd (h 7 ⟨5, 0⟩ (by decide)).atMost (by decide)

end Examples

end Async

end Ril

end ExynosVendor
