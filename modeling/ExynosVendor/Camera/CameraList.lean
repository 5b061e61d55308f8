import ExynosVendor.Common.Run

/-!
# The list of a pipe

`ExynosCameraList`. A list has its producers and its consumers, who wait at a
condition, or a thread that a push starts. A step is one section under the
mutex of the list: a call of `waitAndPopProcessQ` is two where it waits, and
`wakeupAll` and `release` set the exception before they take the mutex.

A consumer at the condition is blocked until it is woken, by a signal or
without one, and takes the mutex again when it goes on.
-/

namespace ExynosVendor.Camera

open List

/-- The exceptions of a list, `status_t`. -/
inductive ListStatus where
  | noError
  | timedOut
  deriving DecidableEq

/-- Why a consumer is woken: `waitRelative` comes back with `OK` for the first
two. -/
inductive WakeBy where
  | signal
  | spurious
  | timedOut
  | failed
  deriving DecidableEq

/-- A consumer, in `waitAndPopProcessQ`. -/
inductive Consumer where
  | out
  | blocked
  | woken (why : WakeBy)
  deriving DecidableEq

/-- `m_thread`: NULL, or in one of its states; `isRunning` of all but the
first two. -/
inductive RunThread where
  | absent
  | stopped
  | running
  /-- It has found the queue empty. -/
  | exiting
  deriving DecidableEq

/-- What `Thread::run` says. -/
inductive RunResult where
  | ok
  | invalidOperation
  | unknownError
  deriving DecidableEq

/-- What a pop says. -/
inductive PopResult (α : Type) where
  | ok (buf : α)
  | timedOut
  | failed
  | exception (status : ListStatus)
  | invalidOperation
  deriving DecidableEq

/-- What a pop returns. -/
def PopResult.elem {α : Type} : PopResult α → Option α
  | .ok buf => some buf
  | _ => none

/-- A list with its consumers. -/
structure CameraList (α : Type) where
  /-- `m_processQ`. -/
  processQ : List α
  /-- `m_waitProcessQ`. -/
  waitProcessQ : Bool
  /-- `m_statusException`. -/
  statusException : ListStatus
  /-- `m_processQMargin`. -/
  processQMargin : ℕ
  /-- `m_thread`. -/
  thread : RunThread
  consumers : List Consumer
  /-- How many are in `wakeupAll` and `release`, in front of the mutex. -/
  waking : ℕ
  releasing : ℕ
  /-- What was pushed, what `release` has cleared, and what the pops said, to
  whom: to a consumer, or to the thread. -/
  pushed : List α
  cleared : List α
  results : List (Option ℕ × PopResult α)

namespace CameraList

variable {α : Type}

/-- A new list, with so many consumers or with a thread. -/
def initial (processQMargin : ℕ) (thread : Bool) (consumers : ℕ) : CameraList α where
  processQ := []
  waitProcessQ := false
  statusException := .noError
  processQMargin := processQMargin
  thread := if thread then .stopped else .absent
  consumers := List.replicate consumers .out
  waking := 0
  releasing := 0
  pushed := []
  cleared := []
  results := []

/-- The consumers at the condition. -/
def blocked (l : CameraList α) : List ℕ :=
  (List.range l.consumers.length).filter fun c => l.consumers[c]? = some .blocked

/-- `m_processQCondition.signal`: one of those at the condition is woken. -/
def signal (l : CameraList α) (choice : ℕ) : CameraList α :=
  match l.blocked[choice % l.blocked.length]? with
  | none => l
  | some c => { l with consumers := l.consumers.set c (.woken .signal) }

/-- The loop around `m_thread->run`, with so many retries left. -/
def run : ℕ → List RunResult → Bool
  | _, [] => false
  | _, .ok :: _ => true
  | _, .invalidOperation :: _ => false
  | 0, .unknownError :: _ => false
  | retryCount + 1, .unknownError :: runs => run retryCount runs

def pushProcessQ (l : CameraList α) (buf : α) (choice : ℕ) (runs : List RunResult) :
    CameraList α :=
  let l := { l with processQ := l.processQ ++ [buf], pushed := l.pushed ++ [buf] }
  if l.waitProcessQ ∧ l.processQ.length ≥ l.processQMargin then l.signal choice
  else if l.thread = .stopped ∧ l.processQ.length ≥ l.processQMargin then
    { l with thread := if run 3 runs then .running else .stopped }
  else l

/-- A pop says so. -/
def answer (l : CameraList α) (who : Option ℕ) (result : PopResult α) : CameraList α :=
  { l with results := l.results ++ [(who, result)] }

/-- The end of `waitAndPopProcessQ`. -/
def popFront (l : CameraList α) (c : ℕ) : CameraList α :=
  match l.processQ with
  | [] => l.answer (some c) .invalidOperation
  | buf :: rest => { l with processQ := rest }.answer (some c) (.ok buf)

/-- `waitAndPopProcessQ`, up to the condition. -/
def waitAndPopProcessQ (l : CameraList α) (c : ℕ) : CameraList α :=
  if l.processQ.length < l.processQMargin then
    { l with
      waitProcessQ := true
      statusException := .noError
      consumers := l.consumers.set c .blocked }
  else l.popFront c

/-- And behind it. -/
def resume (l : CameraList α) (c : ℕ) (why : WakeBy) : CameraList α :=
  let l := { l with waitProcessQ := false, consumers := l.consumers.set c .out }
  match why with
  | .timedOut => l.answer (some c) .timedOut
  | .failed => l.answer (some c) .failed
  | .signal | .spurious =>
      if l.statusException ≠ .noError then l.answer (some c) (.exception l.statusException)
      else l.popFront c

/-- `wakeupAll`, under the mutex. -/
def wakeupAll (l : CameraList α) (choice : ℕ) : CameraList α :=
  if l.waitProcessQ then l.signal choice else l

/-- `release`, under the mutex. -/
def release (l : CameraList α) (choice : ℕ) : CameraList α :=
  { (if l.waitProcessQ then l.signal choice else l) with
    processQ := []
    cleared := l.cleared ++ l.processQ }

/-- `popProcessQ`, of the thread, which exits when there is nothing. -/
def threadLoop (l : CameraList α) : CameraList α :=
  match l.processQ with
  | [] => { l with thread := .exiting }.answer none .timedOut
  | buf :: rest => { l with processQ := rest }.answer none (.ok buf)

end CameraList

/-- A step of somebody. -/
inductive ListStep (α : Type) where
  /-- A push, with the waiter a signal wakes and the answers of `run`. -/
  | push (buf : α) (choice : ℕ) (runs : List RunResult)
  /-- A consumer calls `waitAndPopProcessQ`. -/
  | call (c : ℕ)
  /-- It is woken without a signal, and it goes on. -/
  | wake (c : ℕ) (why : WakeBy)
  | resume (c : ℕ)
  /-- `setStatusException`, of the two functions, and the rest of them. -/
  | wakeupAll
  | wakeupAllLocked (choice : ℕ)
  | release
  | releaseLocked (choice : ℕ)
  /-- The thread goes round, and comes to its end. -/
  | threadLoop
  | threadExit

namespace CameraList

variable {α : Type}

/-- One step. -/
def step (l : CameraList α) : ListStep α → CameraList α
  | .push buf choice runs => l.pushProcessQ buf choice runs
  | .call c => if l.consumers[c]? = some .out then l.waitAndPopProcessQ c else l
  | .wake c why =>
      if l.consumers[c]? = some .blocked ∧ why ≠ .signal then
        { l with consumers := l.consumers.set c (.woken why) }
      else l
  | .resume c =>
      match l.consumers[c]? with
      | some (.woken why) => l.resume c why
      | _ => l
  | .wakeupAll => { l with statusException := .timedOut, waking := l.waking + 1 }
  | .wakeupAllLocked choice =>
      if l.waking = 0 then l else { l.wakeupAll choice with waking := l.waking - 1 }
  | .release => { l with statusException := .timedOut, releasing := l.releasing + 1 }
  | .releaseLocked choice =>
      if l.releasing = 0 then l else { l.release choice with releasing := l.releasing - 1 }
  | .threadLoop => if l.thread = .running then l.threadLoop else l
  | .threadExit => if l.thread = .exiting then { l with thread := .stopped } else l

/-- What the pops have returned, in their order. -/
def returned (l : CameraList α) : List α := l.results.filterMap fun r => r.2.elem

/-- **No element is lost or returned twice**: those returned and those left are
in the order of their pushes, and with those that `release` cleared they are
all that were pushed, each once. -/
structure Ordered (l : CameraList α) : Prop where
  sublist : (l.returned ++ l.processQ).Sublist l.pushed
  perm : (l.returned ++ l.processQ ++ l.cleared).Perm l.pushed

/-- **No wake-up is lost**: when there is something in the queue, a signal is
pending for one of the consumers at the condition, and the thread is not
stopped. -/
structure Served (l : CameraList α) : Prop where
  signalled : l.processQ ≠ [] → l.blocked ≠ [] → .woken .signal ∈ l.consumers
  started : l.processQ ≠ [] → l.thread ≠ .stopped

/-- A list has consumers that wait, or a thread. -/
def InMode (l : CameraList α) : ListStep α → Prop
  | .call _ => l.thread = .absent
  | _ => True

instance (l : CameraList α) : (i : ListStep α) → Decidable (l.InMode i)
  | .call _ => inferInstanceAs (Decidable (l.thread = .absent))
  | .push _ _ _ | .wake _ _ | .resume _ | .wakeupAll | .wakeupAllLocked _ | .release
  | .releaseLocked _ | .threadLoop | .threadExit => isTrue trivial

/-- **The condition**: a consumer goes on when no other is at the condition;
the thread comes to its end when nothing has been pushed since it found the
queue empty; and it can be started. -/
def Lively (l : CameraList α) : ListStep α → Prop
  | .push _ _ runs => l.thread = .stopped → run 3 runs = true
  | .resume _ => l.blocked = []
  | .threadExit => l.thread = .exiting → l.processQ = []
  | _ => True

instance [DecidableEq α] (l : CameraList α) : (i : ListStep α) → Decidable (l.Lively i)
  | .push _ _ runs => inferInstanceAs (Decidable (l.thread = .stopped → run 3 runs = true))
  | .resume _ => inferInstanceAs (Decidable (l.blocked = []))
  | .threadExit => inferInstanceAs (Decidable (l.thread = .exiting → l.processQ = []))
  | .call _ | .wake _ _ | .wakeupAll | .wakeupAllLocked _ | .release | .releaseLocked _
  | .threadLoop => isTrue trivial

/-! ## The order -/

variable {l : CameraList α}

theorem signal_same (l : CameraList α) (choice : ℕ) :
    (l.signal choice).processQ = l.processQ ∧ (l.signal choice).results = l.results ∧
      (l.signal choice).pushed = l.pushed ∧ (l.signal choice).thread = l.thread ∧
      (l.signal choice).waitProcessQ = l.waitProcessQ := by
  unfold signal
  split
  · exact ⟨rfl, rfl, rfl, rfl, rfl⟩
  · exact ⟨rfl, rfl, rfl, rfl, rfl⟩

theorem signal_cleared (l : CameraList α) (choice : ℕ) :
    (l.signal choice).cleared = l.cleared := by
  unfold signal
  split <;> rfl

variable {l' : CameraList α} {c : ℕ}

theorem Ordered.of_same (h : l.Ordered) (hreturned : l'.returned = l.returned)
    (hpushed : l'.pushed = l.pushed) (hqueue : l'.processQ = l.processQ)
    (hcleared : l'.cleared = l.cleared) : l'.Ordered := by
  constructor
  · rw [hreturned, hpushed, hqueue]
    exact h.sublist
  · rw [hreturned, hpushed, hqueue, hcleared]
    exact h.perm

/-- **What is cleared** is what was left. -/
theorem Ordered.clear (h : l.Ordered) (hreturned : l'.returned = l.returned)
    (hpushed : l'.pushed = l.pushed) (hqueue : l'.processQ = [])
    (hcleared : l'.cleared = l.cleared ++ l.processQ) : l'.Ordered := by
  constructor
  · rw [hreturned, hpushed, hqueue]
    exact ((List.Sublist.refl _).append (nil_sublist _)).trans h.sublist
  · rw [hreturned, hpushed, hqueue, hcleared, append_nil]
    refine List.Perm.trans ?_ h.perm
    rw [append_assoc]
    exact perm_append_comm.append_left _

theorem returned_answer (l : CameraList α) (who : Option ℕ) {result : PopResult α}
    (hnone : result.elem = none) : (l.answer who result).returned = l.returned := by
  unfold returned answer
  rw [filterMap_append, filterMap_cons, hnone]
  exact append_nil _

/-- **A pop takes the first.** -/
theorem Ordered.pop (h : l.Ordered) {buf : α} {rest : List α} (hqueue : l.processQ = buf :: rest)
    (who : Option ℕ) : ({ l with processQ := rest }.answer who (.ok buf)).Ordered := by
  have hreturned : ({ l with processQ := rest }.answer who (.ok buf)).returned ++ rest =
      l.returned ++ l.processQ := by
    show List.filterMap _ (l.results ++ [(who, PopResult.ok buf)]) ++ rest = _
    rw [hqueue, filterMap_append, append_assoc]
    rfl
  constructor
  · show (_ ++ rest).Sublist l.pushed
    rw [hreturned]
    exact h.sublist
  · show (_ ++ rest ++ l.cleared).Perm l.pushed
    rw [hreturned]
    exact h.perm

theorem Ordered.popFront (h : l.Ordered) (c : ℕ) : (l.popFront c).Ordered := by
  unfold CameraList.popFront
  split
  · exact h.of_same (returned_answer _ _ rfl) rfl rfl rfl
  · rename_i buf rest hqueue
    exact h.pop hqueue _

theorem Ordered.signal (h : l.Ordered) (choice : ℕ) : (l.signal choice).Ordered := by
  obtain ⟨hqueue, hresults, hpushed, -, -⟩ := signal_same l choice
  refine h.of_same ?_ hpushed hqueue (signal_cleared l choice)
  unfold returned
  rw [hresults]

/-- **A push is behind the others.** -/
theorem Ordered.push (h : l.Ordered) (buf : α) (choice : ℕ) (runs : List RunResult) :
    (l.pushProcessQ buf choice runs).Ordered := by
  have hpushed :
      ({ l with processQ := l.processQ ++ [buf], pushed := l.pushed ++ [buf] } :
        CameraList α).Ordered := by
    constructor
    · show (l.returned ++ (l.processQ ++ [buf])).Sublist (l.pushed ++ [buf])
      rw [← append_assoc]
      exact h.sublist.append (List.Sublist.refl _)
    · show (l.returned ++ (l.processQ ++ [buf]) ++ l.cleared).Perm (l.pushed ++ [buf])
      rw [← append_assoc, append_assoc]
      refine (perm_append_comm.append_left _).trans ?_
      rw [← append_assoc]
      exact h.perm.append_right _
  unfold pushProcessQ
  dsimp only
  split
  · exact hpushed.signal choice
  · split
    · exact hpushed.of_same rfl rfl rfl rfl
    · exact hpushed

theorem Ordered.resume (h : l.Ordered) (c : ℕ) (why : WakeBy) : (l.resume c why).Ordered := by
  have hout : ({ l with waitProcessQ := false, consumers := l.consumers.set c .out } :
      CameraList α).Ordered := h.of_same rfl rfl rfl rfl
  have hwoken : (if l.statusException ≠ .noError then
      ({ l with waitProcessQ := false, consumers := l.consumers.set c .out } : CameraList α).answer
        (some c) (.exception l.statusException)
      else ({ l with waitProcessQ := false, consumers := l.consumers.set c .out } :
        CameraList α).popFront c).Ordered := by
    split
    · exact hout.of_same (returned_answer _ _ rfl) rfl rfl rfl
    · exact hout.popFront c
  cases why with
  | timedOut => exact hout.of_same (returned_answer _ _ rfl) rfl rfl rfl
  | failed => exact hout.of_same (returned_answer _ _ rfl) rfl rfl rfl
  | signal => exact hwoken
  | spurious => exact hwoken

/-- **Every step keeps the order.** -/
theorem Ordered.step (h : l.Ordered) (i : ListStep α) : (l.step i).Ordered := by
  cases i with
  | push buf choice runs => exact h.push buf choice runs
  | call c =>
    show Ordered (if _ then (if _ then _ else _) else l)
    split
    · split
      · exact h.of_same rfl rfl rfl rfl
      · exact h.popFront c
    · exact h
  | wake c why =>
    show Ordered (if _ then _ else l)
    split
    · exact h.of_same rfl rfl rfl rfl
    · exact h
  | resume c =>
    show Ordered (match l.consumers[c]? with
      | some (.woken why) => l.resume c why
      | _ => l)
    split
    · exact h.resume c _
    · exact h
  | wakeupAll => exact h.of_same rfl rfl rfl rfl
  | release => exact h.of_same rfl rfl rfl rfl
  | wakeupAllLocked choice =>
    show Ordered (if _ then l else { l.wakeupAll choice with waking := _ })
    unfold CameraList.wakeupAll
    split
    · exact h
    · split
      · exact (h.signal choice).of_same rfl rfl rfl rfl
      · exact h.of_same rfl rfl rfl rfl
  | releaseLocked choice =>
    show Ordered (if _ then l else { l.release choice with releasing := _ })
    unfold CameraList.release
    split
    · exact h
    · split
      · obtain ⟨hqueue, -⟩ := signal_same l choice
        exact (h.signal choice).clear rfl rfl rfl
          (congrArg₂ _ (signal_cleared l choice).symm hqueue.symm)
      · exact h.clear rfl rfl rfl rfl
  | threadLoop =>
    show Ordered (if _ then l.threadLoop else l)
    unfold CameraList.threadLoop
    split
    · split
      · exact h.of_same (returned_answer _ _ rfl) rfl rfl rfl
      · rename_i buf rest hqueue
        exact h.pop hqueue _
    · exact h
  | threadExit =>
    show Ordered (if _ then _ else l)
    split
    · exact h.of_same rfl rfl rfl rfl
    · exact h

/-! ## The signals -/

theorem mem_blocked : c ∈ l.blocked ↔ l.consumers[c]? = some .blocked := by
  unfold blocked
  rw [mem_filter, mem_range, decide_eq_true_iff]
  refine ⟨fun h => h.2, fun h => ⟨?_, h⟩⟩
  exact (List.getElem?_eq_some_iff.mp h).1

/-- **A signal wakes one** of those at the condition, if there are any. -/
theorem signal_woken (choice : ℕ) (h : l.blocked ≠ []) :
    .woken .signal ∈ (l.signal choice).consumers := by
  have hlt : choice % l.blocked.length < l.blocked.length :=
    Nat.mod_lt _ (length_pos_iff.mpr h)
  unfold signal
  rw [getElem?_eq_getElem hlt]
  have hmem : l.blocked[choice % l.blocked.length] ∈ l.blocked := getElem_mem hlt
  have hc := (List.getElem?_eq_some_iff.mp (mem_blocked.mp hmem)).1
  exact mem_iff_getElem?.mpr ⟨_, getElem?_set_self hc⟩

/-- A consumer that is blocked behind a signal was so before. -/
theorem blocked_signal {choice : ℕ} (h : c ∈ (l.signal choice).blocked) : c ∈ l.blocked := by
  unfold signal at h
  split at h
  · exact h
  · rename_i c' _
    rw [mem_blocked] at h ⊢
    by_cases hc : c' = c
    · subst hc
      have hget : (l.consumers.set c' (.woken .signal))[c']? = some .blocked := h
      rw [getElem?_set] at hget
      rw [if_pos rfl] at hget
      split at hget
      · exact absurd hget (by simp)
      · exact absurd hget (by simp)
    · have hget : (l.consumers.set c' (.woken .signal))[c]? = some .blocked := h
      rw [getElem?_set_ne hc] at hget
      exact hget

/-- What keeps the wake-ups. -/
structure Attended (l : CameraList α) : Prop where
  margin : l.processQMargin ≤ 1
  flag : l.blocked ≠ [] → l.waitProcessQ = true
  signalled : l.processQ ≠ [] → l.blocked ≠ [] → .woken .signal ∈ l.consumers
  started : l.processQ ≠ [] → l.thread ≠ .stopped
  /-- A list with a thread has no consumers that wait. -/
  mode : l.thread ≠ .absent → l.waitProcessQ = false

theorem Attended.served (h : l.Attended) : l.Served := ⟨h.signalled, h.started⟩

/-- **The consumers and the flag are left alone**, and the queue has nothing
new. -/
theorem Attended.frame (h : l.Attended) (hmargin : l'.processQMargin = l.processQMargin)
    (hconsumers : l'.consumers = l.consumers) (hflag : l'.waitProcessQ = l.waitProcessQ)
    (hqueue : l'.processQ ≠ [] → l.processQ ≠ []) (hthread : l'.thread = l.thread) :
    l'.Attended := by
  have hblocked : l'.blocked = l.blocked := by
    unfold blocked
    rw [hconsumers]
  refine ⟨hmargin ▸ h.margin, ?_, ?_, ?_, ?_⟩
  · rw [hblocked, hflag]
    exact h.flag
  · rw [hblocked, hconsumers]
    exact fun hne => h.signalled (hqueue hne)
  · rw [hthread]
    exact fun hne => h.started (hqueue hne)
  · rw [hthread, hflag]
    exact h.mode

theorem Attended.answer (h : l.Attended) (who : Option ℕ) (result : PopResult α) :
    (l.answer who result).Attended :=
  h.frame rfl rfl rfl id rfl

theorem Attended.popFront (h : l.Attended) (c : ℕ) : (l.popFront c).Attended := by
  unfold CameraList.popFront
  split
  · exact h.answer _ _
  · rename_i buf rest hqueue
    refine h.frame rfl rfl rfl (fun _ => ?_) rfl
    rw [hqueue]
    exact cons_ne_nil _ _

/-- **A signal** leaves one pending, if it leaves anybody at the condition. -/
theorem Attended.signal (h : l.Attended) (choice : ℕ) : (l.signal choice).Attended := by
  obtain ⟨hqueue, -, -, hthread, hflag⟩ := signal_same l choice
  have hmargin : (l.signal choice).processQMargin = l.processQMargin := by
    unfold CameraList.signal
    split <;> rfl
  have hblocked (hne : (l.signal choice).blocked ≠ []) : l.blocked ≠ [] := by
    obtain ⟨c, hc⟩ := exists_mem_of_ne_nil _ hne
    exact ne_nil_of_mem (blocked_signal hc)
  refine ⟨hmargin ▸ h.margin, fun hne => ?_, fun _ hne => signal_woken choice (hblocked hne), ?_, ?_⟩
  · rw [hflag]
    exact h.flag (hblocked hne)
  · rw [hqueue, hthread]
    exact h.started
  · rw [hthread, hflag]
    exact h.mode

/-- **A push** signals when somebody is at the condition, and starts the thread
when it is stopped. -/
theorem Attended.push (h : l.Attended) {buf : α} {choice : ℕ} {runs : List RunResult}
    (hlively : l.Lively (.push buf choice runs)) : (l.pushProcessQ buf choice runs).Attended := by
  have hlen : l.processQMargin ≤ (l.processQ ++ [buf]).length := by
    have := h.margin
    rw [length_append, length_singleton]
    omega
  unfold pushProcessQ
  dsimp only
  by_cases hflag : l.waitProcessQ = true
  · rw [if_pos ⟨hflag, hlen⟩]
    have habsent : l.thread = .absent := by
      by_contra hthread
      rw [h.mode hthread] at hflag
      exact absurd hflag (by decide)
    obtain ⟨hqueue, -, -, hthread, hflag'⟩ := signal_same
      { l with processQ := l.processQ ++ [buf], pushed := l.pushed ++ [buf] } choice
    have hblocked (hne : (CameraList.signal
        { l with processQ := l.processQ ++ [buf], pushed := l.pushed ++ [buf] } choice).blocked ≠
          []) : l.blocked ≠ [] := by
      obtain ⟨c, hc⟩ := exists_mem_of_ne_nil _ hne
      have hold : c ∈ l.blocked := blocked_signal
        (l := { l with processQ := l.processQ ++ [buf], pushed := l.pushed ++ [buf] }) hc
      exact ne_nil_of_mem hold
    refine ⟨?_, fun _ => hflag'.trans hflag, fun _ hb => signal_woken choice (hblocked hb), ?_, ?_⟩
    · unfold CameraList.signal
      split <;> exact h.margin
    · rw [hthread, habsent]
      exact fun _ => by decide
    · rw [hthread]
      exact fun hthread => absurd habsent hthread
  · rw [if_neg fun hboth => hflag hboth.1]
    have hnone : l.blocked = [] := by
      by_contra hb
      exact hflag (h.flag hb)
    by_cases hthread : l.thread = .stopped
    · rw [if_pos ⟨hthread, hlen⟩, if_pos (hlively hthread)]
      exact ⟨h.margin, fun hb => absurd hnone hb, fun _ hb => absurd hnone hb, fun _ => by simp,
        fun _ => h.mode (by rw [hthread]; decide)⟩
    · rw [if_neg fun hboth => hthread hboth.1]
      exact ⟨h.margin, fun hb => absurd hnone hb, fun _ hb => absurd hnone hb, fun _ => hthread,
        h.mode⟩

/-- **A consumer comes to the condition** only when the queue is empty. -/
theorem Attended.call (h : l.Attended) (hmode : l.thread = .absent) :
    (l.waitAndPopProcessQ c).Attended := by
  unfold waitAndPopProcessQ
  split
  · rename_i hshort
    have hempty : l.processQ = [] := by
      have := h.margin
      exact eq_nil_of_length_eq_zero (by omega)
    exact ⟨h.margin, fun _ => rfl, fun hne => absurd hempty hne, fun hne => absurd hempty hne,
      fun hthread => absurd hmode hthread⟩
  · exact h.popFront c

/-- A consumer that leaves the condition. -/
theorem Attended.leave (h : l.Attended) {why : WakeBy} (hc : l.consumers[c]? = some .blocked) :
    ({ l with consumers := l.consumers.set c (.woken why) } : CameraList α).Attended := by
  have hblocked (x : ℕ) (hx : x ∈ ({ l with consumers := l.consumers.set c (.woken why) } :
      CameraList α).blocked) : x ∈ l.blocked := by
    rw [mem_blocked] at hx ⊢
    by_cases hxc : c = x
    · subst hxc
      exact hc
    · have hget : (l.consumers.set c (.woken why))[x]? = some .blocked := hx
      rw [getElem?_set_ne hxc] at hget
      exact hget
  have hany (hne : ({ l with consumers := l.consumers.set c (.woken why) } :
      CameraList α).blocked ≠ []) : l.blocked ≠ [] := by
    obtain ⟨x, hx⟩ := exists_mem_of_ne_nil _ hne
    exact ne_nil_of_mem (hblocked x hx)
  refine ⟨h.margin, fun hne => h.flag (hany hne), fun hqueue hne => ?_, h.started, h.mode⟩
  have hmem := h.signalled hqueue (hany hne)
  obtain ⟨n, hn⟩ := mem_iff_getElem?.mp hmem
  have hnc : c ≠ n := by
    rintro rfl
    rw [hc] at hn
    exact absurd hn (by simp)
  refine mem_iff_getElem?.mpr ⟨n, ?_⟩
  show (l.consumers.set c (.woken why))[n]? = _
  rw [getElem?_set_ne hnc]
  exact hn

/-- **A consumer goes on**, and nobody is left at the condition. -/
theorem Attended.resume (h : l.Attended) {why : WakeBy} (hc : l.consumers[c]? = some (.woken why))
    (hlively : l.blocked = []) :
    (l.resume c why).Attended := by
  have hnone : ({ l with waitProcessQ := false, consumers := l.consumers.set c .out } :
      CameraList α).blocked = [] := by
    refine eq_nil_iff_forall_not_mem.mpr fun x hx => ?_
    rw [mem_blocked] at hx
    have hget : (l.consumers.set c .out)[x]? = some .blocked := hx
    by_cases hxc : c = x
    · subst hxc
      rw [getElem?_set_self (List.getElem?_eq_some_iff.mp hc).1] at hget
      exact absurd hget (by simp)
    · rw [getElem?_set_ne hxc] at hget
      have hmem := mem_blocked.mpr hget
      rw [hlively] at hmem
      exact absurd hmem not_mem_nil
  have hout : ({ l with waitProcessQ := false, consumers := l.consumers.set c .out } :
      CameraList α).Attended :=
    ⟨h.margin, fun hb => absurd hnone hb, fun _ hb => absurd hnone hb, h.started, fun _ => rfl⟩
  have hwoken : (if l.statusException ≠ .noError then
      ({ l with waitProcessQ := false, consumers := l.consumers.set c .out } : CameraList α).answer
        (some c) (.exception l.statusException)
      else ({ l with waitProcessQ := false, consumers := l.consumers.set c .out } :
        CameraList α).popFront c).Attended := by
    split
    · exact hout.answer _ _
    · exact hout.popFront c
  cases why with
  | timedOut => exact hout.answer _ _
  | failed => exact hout.answer _ _
  | signal => exact hwoken
  | spurious => exact hwoken

/-- **Every step.** -/
theorem Attended.step (h : l.Attended) (i : ListStep α) (hmode : l.InMode i)
    (hlively : l.Lively i) : (l.step i).Attended := by
  cases i with
  | push buf choice runs => exact h.push hlively
  | call c =>
    show Attended (if _ then _ else l)
    split
    · exact h.call hmode
    · exact h
  | wake c why =>
    show Attended (if _ then _ else l)
    split
    · rename_i hboth
      exact h.leave hboth.1
    · exact h
  | resume c =>
    show Attended (match l.consumers[c]? with
      | some (.woken why) => l.resume c why
      | _ => l)
    split
    · rename_i why hget
      exact h.resume hget hlively
    · exact h
  | wakeupAll => exact h.frame rfl rfl rfl id rfl
  | release => exact h.frame rfl rfl rfl id rfl
  | wakeupAllLocked choice =>
    show Attended (if _ then l else { l.wakeupAll choice with waking := _ })
    unfold CameraList.wakeupAll
    split
    · exact h
    · split
      · exact (h.signal choice).frame rfl rfl rfl id rfl
      · exact h.frame rfl rfl rfl id rfl
  | releaseLocked choice =>
    show Attended (if _ then l else { l.release choice with releasing := _ })
    unfold CameraList.release
    split
    · exact h
    · split
      · exact (h.signal choice).frame rfl rfl rfl (fun hne => absurd rfl hne) rfl
      · exact h.frame rfl rfl rfl (fun hne => absurd rfl hne) rfl
  | threadLoop =>
    show Attended (if _ then l.threadLoop else l)
    split
    · rename_i hrunning
      have hflag := h.mode (by rw [hrunning]; decide)
      unfold CameraList.threadLoop
      split
      · rename_i hempty
        exact ⟨h.margin, h.flag, fun hne => absurd hempty hne, fun hne => absurd hempty hne,
          fun _ => hflag⟩
      · rename_i buf rest hqueue
        refine h.frame rfl rfl rfl (fun _ => ?_) rfl
        rw [hqueue]
        exact cons_ne_nil _ _
    · exact h
  | threadExit =>
    show Attended (if _ then _ else l)
    split
    · rename_i hexiting
      have hempty := hlively hexiting
      exact ⟨h.margin, h.flag, fun hne => absurd hempty hne, fun hne => absurd hempty hne,
        fun _ => h.mode (by rw [hexiting]; decide)⟩
    · exact h

/-- **No element and no wake-up is lost**, by a list that does not wait for more
than one element, in every run in which a consumer goes on when no other is at
the condition, and the thread can be started and ends with the queue empty. -/
theorem pipe_served {processQMargin : ℕ} (hmargin : processQMargin ≤ 1) (thread : Bool)
    (consumers : ℕ) (steps : List (ListStep α))
    (h : Run.Throughout step (fun l i => l.InMode i ∧ l.Lively i)
      (initial processQMargin thread consumers) steps) :
    Run.Always step (fun l => l.Ordered ∧ l.Served)
      (initial processQMargin thread consumers) steps := by
  have hstart : (initial processQMargin thread consumers : CameraList α).Attended := by
    have hnone : (initial processQMargin thread consumers : CameraList α).blocked = [] := by
      refine eq_nil_iff_forall_not_mem.mpr fun c hc => ?_
      have hget : (List.replicate consumers Consumer.out)[c]? = some .blocked := mem_blocked.mp hc
      rw [getElem?_replicate] at hget
      split at hget
      · exact absurd hget (by simp)
      · exact absurd hget (by simp)
    exact ⟨hmargin, fun hne => absurd hnone hne, fun hne => absurd rfl hne,
      fun hne => absurd rfl hne, fun _ => rfl⟩
  have hinv : Run.Always step (fun l : CameraList α => l.Ordered ∧ l.Attended)
      (initial processQMargin thread consumers) steps :=
    Run.Always.of_invariant (fun _ i hl hi => ⟨hl.1.step i, hl.2.step i hi.1 hi.2⟩)
      ⟨⟨List.Sublist.refl _, List.Perm.refl _⟩, hstart⟩ h
  exact hinv.mono fun _ hl => ⟨hl.1, hl.2.served⟩

/-- As with one consumer, who is woken for the element. -/
theorem pipe_served_one :
    Run.Always step (fun l => l.Ordered ∧ l.Served) (initial 1 false 1)
      [.call 0, .push 7 0 [], .resume 0, .push 8 0 []] :=
  pipe_served (α := ℕ) (by decide) false 1 [.call 0, .push 7 0 [], .resume 0, .push 8 0 []]
    (by decide +kernel)

/-- **The flag is the first consumer's**, who takes it down for the second; and
the thread does not see what is pushed behind its back. -/
theorem not_pipe_served :
    (¬ ∀ (consumers : ℕ) (steps : List (ListStep ℕ)),
      Run.Throughout step InMode (initial 1 false consumers) steps →
        Run.Always step (fun l => l.Ordered ∧ l.Served) (initial 1 false consumers) steps) ∧
    ¬ ∀ steps : List (ListStep ℕ), Run.Throughout step InMode (initial 1 true 0) steps →
        Run.Always step (fun l => l.Ordered ∧ l.Served) (initial 1 true 0) steps := by
  constructor
  · intro h
    have hlast := (h 2 [.call 0, .call 1, .push 7 0 [], .resume 0, .push 8 0 []]
      (by decide +kernel)).last
    have hsignal := hlast.2.signalled (by decide +kernel) (by decide +kernel)
    exact absurd hsignal (by decide +kernel)
  · intro h
    have hlast := (h [.push 7 0 [.ok], .threadLoop, .threadLoop, .push 8 0 [], .threadExit]
      (by decide +kernel)).last
    have hstarted := hlast.2.started (by decide +kernel)
    exact absurd hstarted (by decide +kernel)

end CameraList

end ExynosVendor.Camera
