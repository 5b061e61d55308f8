import ExynosVendor.Common.Ring

/-!
# The OSI queue

`OSI_queue_allocate`, `OSI_queue_put` and `OSI_queue_get` of
`osi/osi_memory.cc`: a ring of pointers whose tail is the entry taken
last, so that it lags one behind. A queue from which nothing has been
taken has its tail behind the array, where it stops neither a put that
meets the first element nor a get that takes the meeting for emptiness.
`meets_iff` says how far a queue serves.
-/

namespace ExynosVendor.Nfc

open List

def osiQueueSize : ℕ := 10

/-- A pointer. -/
abbrev Ptr := BitVec 64

/-- `OSI_STATE`, of a queue. -/
inductive OsiState where
  | free
  | allocated
  deriving DecidableEq

/-- `sOSI_QUEUE`. -/
structure OsiQueue where
  /-- `queue`. -/
  queue : List Ptr
  /-- It is an array of that many pointers. -/
  size : queue.length = osiQueueSize
  /-- `head`. -/
  head : ℕ
  /-- `tail`. -/
  tail : ℕ
  /-- `name`. -/
  name : Option String
  /-- `state`. -/
  state : OsiState
  deriving DecidableEq

namespace OsiQueue

/-- `memset(free_que->queue, 0, OSI_QUEUE_SIZE)`: ten bytes, which are
the first pointer and two bytes of the second. -/
def clear (queue : List Ptr) : List Ptr :=
  match queue with
  | [] => []
  | [_] => [0]
  | _ :: second :: rest => 0 :: (second &&& ~~~0xFFFF) :: rest

theorem clear_length (queue : List Ptr) : (clear queue).length = queue.length := by
  unfold clear
  split
  · rfl
  · rfl
  · rfl

/-- A queue as `OSI_init` leaves it. -/
def fresh : OsiQueue where
  queue := List.replicate osiQueueSize 0
  size := length_replicate
  head := 0
  tail := osiQueueSize
  name := none
  state := .free

/-- The loop of `OSI_queue_allocate`: the first free queue, unless an
allocated one has the name. -/
def findFree (queName : String) : List OsiQueue → ℕ → Option ℕ → Option ℕ
  | [], _, freeQue => freeQue
  | q :: rest, index, freeQue =>
      if q.state = .free then
        findFree queName rest (index + 1) (if freeQue = none then some index else freeQue)
      else if q.name = some queName then none
      else findFree queName rest (index + 1) freeQue

/-- A queue as it is allocated. -/
def initialized (q : OsiQueue) (queName : String) : OsiQueue where
  queue := clear q.queue
  size := (clear_length q.queue).trans q.size
  head := 0
  tail := osiQueueSize
  name := some queName
  state := .allocated

/-- `OSI_queue_allocate`, on the table of queues. -/
def osiQueueAllocate (queues : List OsiQueue) (queName : String) : Option OsiQueue := do
  let index ← findFree queName queues 0 none
  let q ← queues[index]?
  some (q.initialized queName)

def osiQueuePut (q : OsiQueue) (p : Ptr) : OsiQueue × ℤ :=
  if q.state ≠ .allocated then (q, -1)
  else
    let q :=
      if q.head = q.tail then q
      else
        let head := q.head + 1
        { q with queue := q.queue.set q.head p
                 size := (length_set ..).trans q.size
                 head := if head ≥ osiQueueSize then 0 else head }
    let ret : ℤ := q.head - q.tail
    (q, if ret < 0 then ret + osiQueueSize else ret)

/-- Whether `queue_get` finds the queue empty. -/
def isEmpty (q : OsiQueue) : Prop :=
  if q.tail + 1 ≥ osiQueueSize then q.head = 0 else q.tail + 1 = q.head

instance (q : OsiQueue) : Decidable q.isEmpty := by
  unfold isEmpty
  infer_instance

/-- `queue_get`. The null pointer is 0. -/
def queueGet (q : OsiQueue) : OsiQueue × Ptr :=
  if q.state ≠ .allocated then (q, 0)
  else if q.isEmpty then (q, 0)
  else
    let tail := q.tail + 1
    let tail := if tail ≥ osiQueueSize then 0 else tail
    ({ q with tail := tail }, q.queue.getD tail 0)

/-- What is done under the lock: a put, or the get that
`OSI_queue_get` is, and `OSI_queue_get_wait` before and after it waits. -/
inductive Op where
  /-- `OSI_queue_put`. -/
  | put (p : Ptr)
  /-- `OSI_queue_get`. -/
  | get
  /-- `OSI_queue_get_wait`, up to the wait. -/
  | getWait
  /-- `OSI_queue_get_wait`, woken up. -/
  | getWoken

/-- What comes of it. -/
inductive Event where
  /-- A put, whether it was accepted, and what it returned. -/
  | put (p : Ptr) (accepted : Bool) (ret : ℤ)
  /-- What a get returned. -/
  | got (p : Ptr)
  deriving DecidableEq

/-- One operation. -/
def step (q : OsiQueue) : Op → OsiQueue × Event
  | .put p => ((q.osiQueuePut p).1, .put p (q.head ≠ q.tail) (q.osiQueuePut p).2)
  | .get | .getWait | .getWoken => (q.queueGet.1, .got q.queueGet.2)

/-- A run of operations. -/
def run (q : OsiQueue) : List Op → List Event
  | [] => []
  | op :: ops => (q.step op).2 :: (q.step op).1.run ops

end OsiQueue

/-! ## What a queue is for -/

/-- **First in, first out**: with the elements stored so far, each get
returns the oldest, or null when there is none, and a put is refused
only when so many are stored. No element is null. -/
def Fifo (capacity : ℕ) : List Ptr → List OsiQueue.Event → Prop
  | _, [] => True
  | stored, .put p accepted _ :: events =>
      (accepted = false → stored.length = capacity) ∧
        Fifo capacity (if accepted then stored ++ [p] else stored) events
  | [], .got p :: events => p = 0 ∧ Fifo capacity [] events
  | a :: stored, .got p :: events => p = a ∧ Fifo capacity stored events

/-- Each put returns the number of elements stored. -/
def Counts : List Ptr → List OsiQueue.Event → Prop
  | _, [] => True
  | stored, .put p accepted ret :: events =>
      ret = ((if accepted then stored ++ [p] else stored).length : ℤ) ∧
        Counts (if accepted then stored ++ [p] else stored) events
  | stored, .got _ :: events => Counts stored.tail events

/-- **A run meets the queue's purpose.** -/
def Meets (capacity : ℕ) (events : List OsiQueue.Event) : Prop :=
  Fifo capacity [] events ∧ Counts [] events

namespace OsiQueue

/-- **The condition**: every put comes before the first element is taken
and behind fewer than nine others. The arguments are the number of
elements stored, and whether one has been taken. -/
def WithinFirstNine : ℕ → Bool → List Op → Prop
  | _, _, [] => True
  | stored, taken, .put _ :: ops =>
      (taken = false ∧ stored + 1 < osiQueueSize) ∧ WithinFirstNine (stored + 1) taken ops
  | stored, taken, .get :: ops | stored, taken, .getWait :: ops
  | stored, taken, .getWoken :: ops => WithinFirstNine (stored - 1) (taken || stored ≠ 0) ops

/-- What it takes for first in, first out alone: no put comes behind nine
others before the first element is taken. -/
def NoTenthFirst : ℕ → Bool → List Op → Prop
  | _, _, [] => True
  | stored, taken, .put _ :: ops =>
      (taken = false → stored + 1 < osiQueueSize) ∧
        NoTenthFirst (if stored + 1 < osiQueueSize then stored + 1 else stored) taken ops
  | stored, taken, .get :: ops | stored, taken, .getWait :: ops
  | stored, taken, .getWoken :: ops => NoTenthFirst (stored - 1) (taken || stored ≠ 0) ops

/-! ## The representation -/

/-- **What a queue holds**: the elements from its start on, where the
start is behind the tail, or the array's when nothing has been taken. -/
structure Represents (q : OsiQueue) (stored : List Ptr) (taken : Bool) : Prop where
  /-- The queue is allocated. -/
  state : q.state = .allocated
  /-- One slot stays free. -/
  room : stored.length < osiQueueSize
  /-- The tail is the entry taken last. -/
  tail : if taken then q.tail < osiQueueSize else q.tail = osiQueueSize
  /-- The head is behind the last element. -/
  head : q.head = ((if taken then q.tail + 1 else 0) + stored.length) % osiQueueSize
  /-- The elements. -/
  stored : stored = Ring.contents q.queue (if taken then q.tail + 1 else 0) stored.length

theorem represents_initialized (q : OsiQueue) (queName : String) :
    Represents (q.initialized queName) [] false where
  state := rfl
  room := by decide
  tail := rfl
  head := rfl
  stored := rfl

variable {q : OsiQueue} {stored : List Ptr} {taken : Bool}

theorem Represents.head_lt (h : Represents q stored taken) : q.head < osiQueueSize := by
  rw [h.head]
  exact Nat.mod_lt _ (by decide)

/-- A put that is not refused, in its parts. -/
theorem osiQueuePut_eq (hstate : q.state = .allocated) (hne : q.head ≠ q.tail) (p : Ptr) :
    ∃ q', (q.osiQueuePut p).1 = q' ∧ q'.queue = q.queue.set q.head p ∧
      q'.head = (if q.head + 1 ≥ osiQueueSize then 0 else q.head + 1) ∧ q'.tail = q.tail ∧
      q'.state = q.state ∧
      (q.osiQueuePut p).2 = (if (q'.head : ℤ) - q'.tail < 0 then
        (q'.head : ℤ) - q'.tail + osiQueueSize else (q'.head : ℤ) - q'.tail) := by
  have hallocated : ¬ q.state ≠ .allocated := not_not.mpr hstate
  refine ⟨_, rfl, ?_⟩
  simp only [osiQueuePut, if_neg hallocated, if_neg hne, and_self]

/-- Where the elements start. -/
def start (q : OsiQueue) (taken : Bool) : ℕ :=
  if taken then q.tail + 1 else 0

/-- **A put into a queue with room** stores its element behind the
others. -/
theorem Represents.put (h : Represents q stored taken) (hroom : stored.length + 1 < osiQueueSize)
    (p : Ptr) : q.head ≠ q.tail ∧ Represents (q.osiQueuePut p).1 (stored ++ [p]) taken := by
  have hhead := h.head
  have htail := h.tail
  have hlt := h.head_lt
  have hset := Ring.contents_set q.queue (q.start taken) (n := stored.length)
    (by rw [q.size]; exact h.room) p
  have hstored : Ring.contents q.queue (q.start taken) stored.length = stored := h.stored.symm
  have hplace : (q.start taken + stored.length) % osiQueueSize = q.head := hhead.symm
  rw [q.size, hplace, hstored] at hset
  unfold osiQueueSize at hhead htail hlt hroom
  have hne : q.head ≠ q.tail := by
    cases taken with
    | false =>
        simp only [Bool.false_eq_true, if_false] at htail
        omega
    | true =>
        simp only [if_true] at hhead htail
        omega
  refine ⟨hne, ?_⟩
  obtain ⟨q', hput, hqueue, hhead', htail', hstate', -⟩ := osiQueuePut_eq h.state hne p
  rw [hput]
  have hlength : (stored ++ [p]).length = stored.length + 1 := length_append
  refine ⟨hstate'.trans h.state, ?_, ?_, ?_, ?_⟩
  · rw [hlength]
    exact hroom
  · rw [htail']
    exact h.tail
  · rw [hhead', hlength, htail']
    unfold osiQueueSize
    split_ifs at hhead ⊢ <;> omega
  · rw [hlength, hqueue, htail']
    exact hset.symm

/-- **What such a put returns**: the number of elements before anything
has been taken, and one more or nothing of it afterwards. -/
theorem Represents.put_ret (h : Represents q stored taken)
    (hroom : stored.length + 1 < osiQueueSize) (p : Ptr) :
    (q.osiQueuePut p).2 = (if taken then ((stored.length + 2) % osiQueueSize : ℕ)
      else (stored.length + 1 : ℕ) : ℤ) := by
  obtain ⟨hne, hput⟩ := h.put hroom p
  obtain ⟨q', hq', -, -, -, -, hret⟩ := osiQueuePut_eq h.state hne p
  rw [hq'] at hput
  have hhead := hput.head
  have htail := hput.tail
  rw [length_append, length_singleton] at hhead
  rw [hret]
  unfold osiQueueSize at *
  cases taken with
  | false =>
      simp only [Bool.false_eq_true, if_false] at hhead htail ⊢
      split_ifs <;> omega
  | true =>
      simp only [if_true] at hhead htail ⊢
      split_ifs <;> omega

/-- Behind nine elements a put is refused, once one has been taken. -/
theorem Represents.put_full (h : Represents q stored true)
    (hfull : stored.length + 1 = osiQueueSize) (p : Ptr) :
    q.head = q.tail ∧ q.osiQueuePut p = (q, 0) := by
  have hhead := h.head
  have htail := h.tail
  unfold osiQueueSize at hhead htail hfull
  simp only [if_true] at hhead htail
  have heq : q.head = q.tail := by omega
  refine ⟨heq, ?_⟩
  have hallocated : ¬ q.state ≠ .allocated := not_not.mpr h.state
  simp only [osiQueuePut, if_neg hallocated, if_pos heq]
  rw [heq]
  simp

/-- And the tenth put before one has been taken is accepted, and returns
0. -/
theorem Represents.put_tenth (h : Represents q stored false)
    (hfull : stored.length + 1 = osiQueueSize) (p : Ptr) :
    q.head ≠ q.tail ∧ (q.osiQueuePut p).2 = 0 := by
  have hhead := h.head
  have htail := h.tail
  unfold osiQueueSize at hhead htail hfull
  simp only [Bool.false_eq_true, if_false] at hhead htail
  have hne : q.head ≠ q.tail := by omega
  refine ⟨hne, ?_⟩
  obtain ⟨q', -, -, hhead', htail', -, hret⟩ := osiQueuePut_eq h.state hne p
  rw [hret]
  unfold osiQueueSize at hhead' ⊢
  split_ifs at hhead' ⊢ <;> omega

/-- **Which loses all ten**: the queue is as empty as before. -/
theorem Represents.put_tenth_lost (h : Represents q stored false)
    (hfull : stored.length + 1 = osiQueueSize) (p : Ptr) :
    Represents (q.osiQueuePut p).1 [] false := by
  have hhead := h.head
  have htail := h.tail
  obtain ⟨hne, -⟩ := h.put_tenth hfull p
  obtain ⟨q', hput, -, hhead', htail', hstate', -⟩ := osiQueuePut_eq h.state hne p
  rw [hput]
  refine ⟨hstate'.trans h.state, by decide, htail'.trans htail, ?_, rfl⟩
  rw [hhead']
  unfold osiQueueSize at *
  simp only [Bool.false_eq_true, if_false, length_nil] at hhead ⊢
  split_ifs <;> omega

/-! ### Taking -/

/-- A queue is found empty exactly when nothing is stored. -/
theorem Represents.isEmpty_iff (h : Represents q stored taken) : q.isEmpty ↔ stored = [] := by
  have hhead := h.head
  have htail := h.tail
  have hroom := h.room
  rw [← length_eq_zero_iff]
  unfold isEmpty
  unfold osiQueueSize at *
  cases taken with
  | false =>
      simp only [Bool.false_eq_true, if_false] at hhead htail
      rw [if_pos (by omega)]
      omega
  | true =>
      simp only [if_true] at hhead htail
      split_ifs <;> omega

/-- **A get** returns null from an empty queue, and leaves it. -/
theorem Represents.get_nil (h : Represents q [] taken) : q.queueGet = (q, 0) := by
  have hallocated : ¬ q.state ≠ .allocated := not_not.mpr h.state
  unfold queueGet
  rw [if_neg hallocated, if_pos (h.isEmpty_iff.mpr rfl)]

/-- **A get** returns the oldest element, and leaves the others. -/
theorem Represents.get_cons {a : Ptr} (h : Represents q (a :: stored) taken) :
    ∃ q', q.queueGet = (q', a) ∧ Represents q' stored true := by
  have hallocated : ¬ q.state ≠ .allocated := not_not.mpr h.state
  have hempty : ¬ q.isEmpty := fun hempty => by cases h.isEmpty_iff.mp hempty
  obtain ⟨tail, htaildef⟩ : ∃ tail, tail = (if q.tail + 1 ≥ osiQueueSize then 0 else q.tail + 1) :=
    ⟨_, rfl⟩
  have hget : q.queueGet = ({ q with tail := tail }, q.queue.getD tail 0) := by
    unfold queueGet
    rw [if_neg hallocated, if_neg hempty, htaildef]
  have htail := h.tail
  have hhead := h.head
  have hroom := h.room
  have hstored := h.stored
  rw [length_cons] at hhead hroom hstored
  rw [Ring.contents_succ, q.size] at hstored
  obtain ⟨hfirst, hrest⟩ := List.cons.inj hstored
  -- the new tail is where the elements started
  have hplace : q.start taken % osiQueueSize = tail := by
    unfold start osiQueueSize at *
    rw [htaildef]
    split_ifs at htail ⊢ <;> omega
  have hlt : tail < osiQueueSize := by
    rw [← hplace]
    exact Nat.mod_lt _ (by decide)
  refine ⟨{ q with tail := tail }, ?_, h.state, by omega, hlt, ?_, ?_⟩
  · rw [hget]
    refine Prod.ext rfl ?_
    show q.queue.getD tail 0 = a
    rw [hfirst, ← hplace]
    rfl
  · show q.head = (tail + 1 + stored.length) % osiQueueSize
    rw [hhead, ← hplace]
    show (q.start taken + (stored.length + 1)) % osiQueueSize = _
    unfold osiQueueSize
    omega
  · show stored = Ring.contents q.queue (tail + 1) stored.length
    rw [← hplace, ← Ring.contents_mod, q.size, Nat.mod_add_mod, ← q.size, Ring.contents_mod]
    exact hrest

/-- All gets are one operation. -/
theorem Represents.step_get (h : Represents q stored taken) {op : Op}
    (hop : ∀ p, op ≠ .put p) :
    ∃ q', q.step op = (q', .got (stored.headD 0)) ∧
      Represents q' stored.tail (taken || stored.length ≠ 0) := by
  have hstep : q.step op = (q.queueGet.1, .got q.queueGet.2) := by
    cases op with
    | put p => exact absurd rfl (hop p)
    | get => rfl
    | getWait => rfl
    | getWoken => rfl
  cases stored with
  | nil =>
      refine ⟨q, ?_, ?_⟩
      · rw [hstep, h.get_nil]
        rfl
      · simpa using h
  | cons a stored =>
      obtain ⟨q', hget, hq'⟩ := h.get_cons
      refine ⟨q', ?_, ?_⟩
      · rw [hstep, hget]
        rfl
      · simpa using hq'

theorem fifo_got (capacity : ℕ) (events : List Event) :
    Fifo capacity stored (.got (stored.headD 0) :: events) ↔ Fifo capacity stored.tail events := by
  cases stored with
  | nil => exact and_iff_right rfl
  | cons a stored => exact and_iff_right rfl

theorem withinFirstNine_put (n : ℕ) (p : Ptr) (ops : List Op) :
    WithinFirstNine n taken (.put p :: ops) ↔
      (taken = false ∧ n + 1 < osiQueueSize) ∧ WithinFirstNine (n + 1) taken ops := by
  rw [WithinFirstNine]

/-- An accepted put, in what a run is to meet. -/
theorem run_put_accepted (stored : List Ptr) (hne : q.head ≠ q.tail) (p : Ptr) (ops : List Op) (capacity : ℕ) :
    (Fifo capacity stored (q.run (.put p :: ops)) ↔
        Fifo capacity (stored ++ [p]) ((q.osiQueuePut p).1.run ops)) ∧
      (Counts stored (q.run (.put p :: ops)) ↔
        (q.osiQueuePut p).2 = ((stored ++ [p]).length : ℤ) ∧
          Counts (stored ++ [p]) ((q.osiQueuePut p).1.run ops)) := by
  have hrun : q.run (.put p :: ops) =
      .put p true (q.osiQueuePut p).2 :: (q.osiQueuePut p).1.run ops := by
    rw [← decide_eq_true hne]
    rfl
  rw [hrun]
  constructor
  · rw [Fifo, if_pos rfl]
    exact and_iff_right fun hrefused => by cases hrefused
  · rw [Counts, if_pos rfl]

theorem condition_get (n : ℕ) {op : Op} (hop : ∀ p, op ≠ .put p) (ops : List Op) :
    (WithinFirstNine n taken (op :: ops) ↔ WithinFirstNine (n - 1) (taken || n ≠ 0) ops) ∧
      (NoTenthFirst n taken (op :: ops) ↔ NoTenthFirst (n - 1) (taken || n ≠ 0) ops) := by
  cases op with
  | put p => exact absurd rfl (hop p)
  | get => exact ⟨by rw [WithinFirstNine], by rw [NoTenthFirst]⟩
  | getWait => exact ⟨by rw [WithinFirstNine], by rw [NoTenthFirst]⟩
  | getWoken => exact ⟨by rw [WithinFirstNine], by rw [NoTenthFirst]⟩

/-- **A put outside the condition** is already miscounted. -/
theorem Represents.put_miscounts (h : Represents q stored taken)
    (hout : ¬ (taken = false ∧ stored.length + 1 < osiQueueSize)) (p : Ptr) (events : List Event) :
    ¬ Counts stored (.put p (q.head ≠ q.tail) (q.osiQueuePut p).2 :: events) := by
  have hroom := h.room
  rintro ⟨hret, -⟩
  by_cases hlast : stored.length + 1 < osiQueueSize
  · have htaken : taken = true := by
      cases taken with
      | false => exact absurd ⟨rfl, hlast⟩ hout
      | true => rfl
    rw [h.put_ret hlast p, htaken, if_pos rfl, decide_eq_true (h.put hlast p).1, if_pos rfl,
      length_append, length_singleton] at hret
    unfold osiQueueSize at *
    omega
  · have hfull : stored.length + 1 = osiQueueSize := by omega
    cases taken with
    | false =>
        obtain ⟨hne, hzero⟩ := h.put_tenth hfull p
        rw [hzero, decide_eq_true hne, if_pos rfl, length_append, length_singleton] at hret
        omega
    | true =>
        obtain ⟨heq, hput⟩ := h.put_full hfull p
        have hrefused : decide (q.head ≠ q.tail) = false := decide_eq_false (not_not.mpr heq)
        rw [hput, hrefused, if_neg Bool.false_ne_true] at hret
        unfold osiQueueSize at *
        dsimp only at hret
        omega

/-- **What a run of a queue meets**, from any queue on that represents
its elements. -/
theorem Represents.serves_all_iff (capacity : ℕ) (ops : List Op) {q : OsiQueue} {stored : List Ptr}
    {taken : Bool} (h : Represents q stored taken) :
    (Fifo capacity stored (q.run ops) ∧ Counts stored (q.run ops)) ↔
      WithinFirstNine stored.length taken ops := by
  induction ops generalizing q stored taken with
  | nil => simp [run, Fifo, Counts, WithinFirstNine]
  | cons op ops ih =>
      by_cases hop : ∀ p, op ≠ .put p
      · obtain ⟨q', hstep, hq'⟩ := h.step_get hop
        rw [run, hstep, fifo_got, Counts, (condition_get _ hop ops).1, ← length_tail]
        exact ih hq'
      · push Not at hop
        obtain ⟨p, rfl⟩ := hop
        rw [withinFirstNine_put]
        by_cases hin : taken = false ∧ stored.length + 1 < osiQueueSize
        · obtain ⟨htaken, hroom⟩ := hin
          obtain ⟨hne, hq'⟩ := h.put hroom p
          have hrest := ih hq'
          have hret : (q.osiQueuePut p).2 = ((stored ++ [p]).length : ℤ) := by
            rw [h.put_ret hroom p, htaken, if_neg Bool.false_ne_true, length_append]
            rfl
          rw [length_append, length_singleton] at hrest
          obtain ⟨hfifo, hcounts⟩ := run_put_accepted stored hne p ops capacity
          rw [hfifo, hcounts, and_iff_right hret, hrest, and_iff_right]
          exact ⟨htaken, hroom⟩
        · refine iff_of_false (fun hmeets => ?_) fun hcond => hin hcond.1
          exact h.put_miscounts hin p _ hmeets.2

/-- **First in, first out** with room for nine, as long as no tenth
element is put before the first is taken. -/
theorem Represents.fifo (ops : List Op) {q : OsiQueue} {stored : List Ptr} {taken : Bool}
    (h : Represents q stored taken) (hops : NoTenthFirst stored.length taken ops) :
    Fifo (osiQueueSize - 1) stored (q.run ops) := by
  induction ops generalizing q stored taken with
  | nil => simp [run, Fifo]
  | cons op ops ih =>
      by_cases hop : ∀ p, op ≠ .put p
      · obtain ⟨q', hstep, hq'⟩ := h.step_get hop
        rw [run, hstep, fifo_got]
        rw [(condition_get _ hop ops).2, ← length_tail] at hops
        exact ih hq' hops
      · push Not at hop
        obtain ⟨p, rfl⟩ := hop
        rw [NoTenthFirst] at hops
        obtain ⟨htenth, hrest⟩ := hops
        by_cases hroom : stored.length + 1 < osiQueueSize
        · obtain ⟨hne, hq'⟩ := h.put hroom p
          rw [if_pos hroom] at hrest
          rw [(run_put_accepted stored hne p ops _).1]
          refine ih hq' ?_
          rw [length_append, length_singleton]
          exact hrest
        · have hfull : stored.length + 1 = osiQueueSize := by
            have hlt := h.room
            omega
          have htaken : taken = true := by
            cases taken with
            | false => exact absurd (htenth rfl) hroom
            | true => rfl
          rw [htaken] at h hrest
          obtain ⟨heq, hput⟩ := h.put_full hfull p
          have hrefused : decide (q.head ≠ q.tail) = false := decide_eq_false (not_not.mpr heq)
          rw [if_neg hroom] at hrest
          have hrun : q.run (.put p :: ops) = .put p false (q.osiQueuePut p).2 :: q.run ops := by
            have hstay : (q.osiQueuePut p).1 = q := congrArg Prod.fst hput
            rw [run, step, hrefused, hstay]
          rw [hrun, Fifo, if_neg Bool.false_ne_true]
          exact ⟨fun _ => by omega, ih h hrest⟩

theorem osiQueueAllocate_eq {queues : List OsiQueue} {queName : String} {q : OsiQueue}
    (h : osiQueueAllocate queues queName = some q) : ∃ old, q = initialized old queName := by
  unfold osiQueueAllocate at h
  obtain ⟨index, -, hrest⟩ := Option.bind_eq_some_iff.mp h
  obtain ⟨old, -, hq⟩ := Option.bind_eq_some_iff.mp hrest
  exact ⟨old, (Option.some.inj hq).symm⟩

/-- **What an allocated queue serves for**: a run is first in, first out
with its counts right exactly when at most nine elements are put, all
before the first is taken. The order alone is right, with room for nine,
unless ten are put before the first is taken. -/
theorem meets_iff {queues : List OsiQueue} {queName : String} {q : OsiQueue}
    (h : osiQueueAllocate queues queName = some q) (ops : List Op) :
    (∀ capacity, Meets capacity (q.run ops) ↔ WithinFirstNine 0 false ops) ∧
      (NoTenthFirst 0 false ops → Fifo (osiQueueSize - 1) [] (q.run ops)) := by
  obtain ⟨old, rfl⟩ := osiQueueAllocate_eq h
  have hinit := represents_initialized old queName
  exact ⟨fun capacity => hinit.serves_all_iff capacity ops, fun hops => hinit.fifo ops hops⟩

/-- A queue nobody has. -/
def unused : OsiQueue where
  queue := List.replicate osiQueueSize 0
  size := length_replicate
  head := 0
  tail := 0
  name := none
  state := .free

/-- Two elements come back in their order. -/
theorem meets_two :
    ∃ q, osiQueueAllocate [unused] "msg_q" = some q ∧
      Meets osiQueueSize (q.run [.put 1, .put 2, .get, .getWait, .get]) ∧
      Fifo (osiQueueSize - 1) [] (q.run [.put 1, .getWait, .put 2, .get]) := by
  have hqueue : osiQueueAllocate [unused] "msg_q" = some (initialized unused "msg_q") := rfl
  refine ⟨initialized unused "msg_q", hqueue, ?_, ?_⟩
  · refine ((meets_iff hqueue _).1 _).mpr ?_
    simp [WithinFirstNine, osiQueueSize]
  · refine (meets_iff hqueue _).2 ?_
    simp [NoTenthFirst, osiQueueSize]

/-- Ten puts and a get. -/
def tenPutsAndGet : List Op :=
  [.put 1, .put 2, .put 3, .put 4, .put 5, .put 6, .put 7, .put 8, .put 9, .put 10, .get]

/-- **Ten elements put before the first get are lost to it**: it returns
null, and no capacity explains that. -/
theorem not_meets_tenPutsAndGet :
    ∃ q, osiQueueAllocate [unused] "msg_q" = some q ∧
      (q.run tenPutsAndGet).getLast? = some (.got 0) ∧
      ∀ capacity, ¬ Meets capacity (q.run tenPutsAndGet) := by
  refine ⟨initialized unused "msg_q", rfl, by decide, fun capacity hmeets => ?_⟩
  have hrun : (initialized unused "msg_q").run tenPutsAndGet =
      [.put 1 true 1, .put 2 true 2, .put 3 true 3, .put 4 true 4, .put 5 true 5, .put 6 true 6,
        .put 7 true 7, .put 8 true 8, .put 9 true 9, .put 10 true 0, .got 0] := by decide
  rw [Meets, hrun] at hmeets
  simp [Fifo] at hmeets

/-! ## What it holds, from the queue alone -/

/-- **The elements of a queue**, from where it will take the next on. -/
def contents (q : OsiQueue) : List Ptr :=
  Ring.contents q.queue (q.start (q.tail < osiQueueSize))
    ((q.head + osiQueueSize - q.start (q.tail < osiQueueSize) % osiQueueSize) % osiQueueSize)

/-- A queue that is allocated. -/
structure Shaped (q : OsiQueue) : Prop where
  state : q.state = .allocated
  head : q.head < osiQueueSize
  tail : q.tail ≤ osiQueueSize

theorem Represents.shaped (h : Represents q stored taken) : q.Shaped where
  state := h.state
  head := h.head_lt
  tail := by
    have htail := h.tail
    split_ifs at htail <;> omega

theorem Represents.taken_eq (h : Represents q stored taken) :
    taken = decide (q.tail < osiQueueSize) := by
  have htail := h.tail
  cases taken with
  | false =>
    rw [if_neg Bool.false_ne_true] at htail
    exact (decide_eq_false (by omega)).symm
  | true =>
    rw [if_pos rfl] at htail
    exact (decide_eq_true htail).symm

theorem Represents.contents_eq (h : Represents q stored taken) : q.contents = stored := by
  have hroom := h.room
  have hhead := h.head
  obtain rfl := h.taken_eq
  have hlength : (q.head + osiQueueSize -
      q.start (decide (q.tail < osiQueueSize)) % osiQueueSize) % osiQueueSize = stored.length := by
    unfold start osiQueueSize at *
    omega
  unfold contents
  rw [hlength]
  exact h.stored.symm

/-- **A queue that is allocated** represents its elements. -/
theorem Shaped.represents (h : q.Shaped) :
    Represents q q.contents (decide (q.tail < osiQueueSize)) := by
  have hhead := h.head
  have htail := h.tail
  have hlength : q.contents.length = (q.head + osiQueueSize -
      q.start (decide (q.tail < osiQueueSize)) % osiQueueSize) % osiQueueSize :=
    Ring.contents_length _ _ _
  refine ⟨h.state, ?_, ?_, ?_, ?_⟩
  · rw [hlength]
    exact Nat.mod_lt _ (by decide)
  · by_cases hlt : q.tail < osiQueueSize
    · rw [if_pos (decide_eq_true hlt)]
      exact hlt
    · rw [if_neg (by rw [decide_eq_true_eq]; exact hlt)]
      omega
  · rw [hlength]
    unfold start osiQueueSize at *
    split_ifs <;> omega
  · rw [hlength]
    rfl

/-- **A put** adds its element behind the others while there is room. -/
theorem Shaped.put (h : q.Shaped) (p : Ptr) :
    (q.osiQueuePut p).1.Shaped ∧
      (q.contents.length + 1 < osiQueueSize →
        (q.osiQueuePut p).1.contents = q.contents ++ [p]) ∧
      (¬ q.contents.length + 1 < osiQueueSize →
        (q.osiQueuePut p).1.contents = q.contents ∨ (q.osiQueuePut p).1.contents = []) := by
  have hrep := h.represents
  by_cases hroom : q.contents.length + 1 < osiQueueSize
  · have hput := (hrep.put hroom p).2
    exact ⟨hput.shaped, fun _ => hput.contents_eq, fun hno => absurd hroom hno⟩
  · have hfull : q.contents.length + 1 = osiQueueSize := by
      have := hrep.room
      omega
    by_cases htaken : q.tail < osiQueueSize
    · rw [decide_eq_true htaken] at hrep
      rw [(hrep.put_full hfull p).2]
      exact ⟨h, fun hyes => absurd hyes hroom, fun _ => .inl rfl⟩
    · rw [decide_eq_false htaken] at hrep
      have hput : Represents (q.osiQueuePut p).1 [] false := hrep.put_tenth_lost hfull p
      exact ⟨hput.shaped, fun hyes => absurd hyes hroom, fun _ => .inr hput.contents_eq⟩

/-- **A get** takes the first. -/
theorem Shaped.get (h : q.Shaped) :
    q.queueGet.1.Shaped ∧ q.queueGet.1.contents = q.contents.tail ∧
      q.queueGet.2 = q.contents.headD 0 := by
  have hrep := h.represents
  cases hcontents : q.contents with
  | nil =>
    rw [hcontents] at hrep
    rw [hrep.get_nil]
    exact ⟨h, hcontents, rfl⟩
  | cons a rest =>
    rw [hcontents] at hrep
    obtain ⟨q', hget, hq'⟩ := hrep.get_cons
    rw [hget]
    exact ⟨hq'.shaped, hq'.contents_eq, rfl⟩

end OsiQueue

end ExynosVendor.Nfc
