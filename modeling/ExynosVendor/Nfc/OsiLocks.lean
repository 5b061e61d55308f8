import ExynosVendor.Common.LockDiscipline
import ExynosVendor.Nfc.HalInfo
import ExynosVendor.Nfc.OsiMemory
import ExynosVendor.Nfc.OsiQueue

/-!
# The OSI lock

The functions of `osi/` as programs that take `osi_info.mutex` and release
it. Between two actions the other threads may have changed anything, so that
an action is one test or one stretch of code, and finds any state.

`OSI_queue_put` and `OSI_queue_get_wait` return under the lock when they are
given no allocated queue, and `OSI_timer_update` calls its callbacks under it,
of which `nci_init_timeout` starts a timer and so takes the lock once more.
`osiCalls_disciplined_iff` says that there is nothing else.
-/

namespace ExynosVendor.Nfc

/-- `OSI_STATE`, of a task. -/
inductive TaskState where
  | free
  | allocated
  | run
  deriving DecidableEq

/-- `sOSI_TASK`. -/
structure OsiTask where
  name : Option String
  state : TaskState
  deriving DecidableEq

/-- `tOSI_INFO`, and what the timer callbacks use. -/
structure OsiInfo where
  task : List OsiTask
  mem : OsiMem
  queue : List OsiQueue
  timers : OsiTimers
  /-- The clock, in milliseconds. -/
  clock : ℕ
  /-- Whether `pthread_create` succeeds. -/
  creates : Bool
  /-- `nfc_hal_info.flag`. -/
  flag : BitVec 32
  /-- `nfc_hal_info.sleep_timer`. -/
  sleepTimer : Option ℕ
  /-- `nfc_hal_info.cfg.sleep_timeout`. -/
  sleepTimeout : ℕ
  /-- `nfc_hal_info.cfg.override_timeout`. -/
  overrideTimeout : ℕ
  /-- Whether `nfc_fw_get_image` has an image. -/
  image : Bool

/-- What happens to the lock, and the tests that decide of it. -/
inductive OsiLabel where
  /-- `osi_lock`. -/
  | lock
  /-- `osi_unlock`. -/
  | unlock
  /-- The test of a queue by `OSI_queue_put` or `OSI_queue_get_wait`. -/
  | queueTest (queue : Option ℕ)
  /-- The test of a timer by `OSI_timer_start`. -/
  | startTest (timer : ℕ)
  /-- A null pointer is dereferenced, and the thread goes no further. -/
  | fault
  deriving DecidableEq

/-- A thread in OSI functions. -/
abbrev OsiProgram := Program OsiInfo OsiLabel

def osiLock : OsiProgram Unit := Program.mark .lock

def osiUnlock : OsiProgram Unit := Program.mark .unlock

/-- What is done in one section under the lock. -/
def locked {α : Type} (f : OsiInfo → α × OsiInfo) : OsiProgram α := do
  osiLock
  let a ← Program.modifyGet none f
  osiUnlock
  return a

def osiMaxTask : ℕ := 3

def osiMaxQueue : ℕ := 2

def osiInit : OsiProgram Unit :=
  Program.modify fun s =>
    { s with
      task := List.replicate osiMaxTask ⟨none, .free⟩
      mem := OsiMem.init
      queue := List.replicate osiMaxQueue OsiQueue.fresh
      timers := OsiTimers.init }

/-! ## Tasks -/

section Task

/-- The loop of `OSI_task_allocate`. -/
def findFreeTask (taskName : String) : List OsiTask → ℕ → Option ℕ → Option ℕ
  | [], _, freeTask => freeTask
  | t :: rest, index, freeTask =>
      if t.state = .free then
        findFreeTask taskName rest (index + 1) (if freeTask = none then some index else freeTask)
      else if t.name = some taskName then none
      else findFreeTask taskName rest (index + 1) freeTask

def osiTaskAllocate (taskName : String) : OsiProgram (Option ℕ) :=
  locked fun s =>
    match findFreeTask taskName s.task 0 none with
    | none => (none, s)
    | some index => (some index, { s with task := s.task.set index ⟨some taskName, .allocated⟩ })

/-- What is done with a task by its handle. -/
def OsiInfo.setTask (s : OsiInfo) (task : ℕ) (f : OsiTask → OsiTask) : OsiInfo :=
  { s with task := s.task.modify task f }

/-- The state of a task. -/
def OsiInfo.taskState (s : OsiInfo) (task : ℕ) : Option TaskState := (s.task[task]?).map (·.state)

def osiTaskRun (task : Option ℕ) : OsiProgram Bool :=
  locked fun s =>
    match task with
    | none => (false, s)
    | some task =>
        if s.taskState task ≠ some .allocated then (false, s)
        else if s.creates then (true, s.setTask task fun t => { t with state := .run })
        else (false, s)

def osiTaskIsRun (task : Option ℕ) : OsiProgram Bool :=
  locked fun s => (task.any fun task => s.taskState task = some .run, s)

/-- `pthread_join`: the other threads go on. -/
def pthreadJoin : OsiProgram Unit := Program.modify id

/-- The section of `OSI_task_stop`, and of `OSI_task_kill`: a task that runs
is waited for, without the lock. -/
def osiTaskEnd (task : ℕ) (f : OsiTask → OsiTask) : OsiProgram Unit := do
  osiLock
  let runs ← Program.read fun s => decide (s.taskState task = some .run)
  Program.when runs do
    osiUnlock
    pthreadJoin
    osiLock
  Program.modify fun s => s.setTask task f
  osiUnlock

def osiTaskStop : Option ℕ → OsiProgram Unit
  | none => return
  | some task => osiTaskEnd task fun t => { t with state := .allocated }

/-- `OSI_task_free`. There is no test of the handle. -/
def osiTaskFree (task : Option ℕ) : OsiProgram Unit := do
  osiTaskStop task
  osiLock
  match task with
  | none => Program.mark .fault
  | some task => do
      Program.modify fun s => s.setTask task fun _ => ⟨none, .free⟩
      osiUnlock

def osiTaskKill : Option ℕ → OsiProgram Unit
  | none => return
  | some task => osiTaskEnd task fun _ => ⟨none, .free⟩

def osiTaskGetHandler : Option String → OsiProgram (Option ℕ)
  | none => return none
  | some name => locked fun s => (s.task.findIdx? fun t => t.name = some name, s)

end Task

/-! ## Memory -/

/-- `OSI_mem_get`, with so many attempts behind this one. -/
def osiMemRetry : ℕ → OsiProgram (Option ℕ)
  | 0 => locked fun s => ((OsiMem.get s.mem).1, { s with mem := (OsiMem.get s.mem).2 })
  | errCnt + 1 => do
      let freeMem ← locked fun s => ((OsiMem.get s.mem).1, { s with mem := (OsiMem.get s.mem).2 })
      match freeMem with
      | none => osiMemRetry errCnt
      | some mem => return some mem

def osiMemGet (size : ℕ) : OsiProgram (Option ℕ) :=
  if size > osiMemPoolSize then return none else osiMemRetry 2

def osiMemFree : Option ℕ → OsiProgram Unit
  | none => return
  | some target => locked fun s => ((), { s with mem := OsiMem.free s.mem target })

/-! ## Queues -/

section Queue

def osiQueueAllocate (queName : String) : OsiProgram (Option ℕ) :=
  locked fun s =>
    match OsiQueue.findFree queName s.queue 0 none with
    | none => (none, s)
    | some index => (some index, { s with queue := s.queue.modify index (·.initialized queName) })

/-- `!queue || queue->state != OSI_ALLOCATED`, the other way. -/
def OsiInfo.hasQueue (s : OsiInfo) : Option ℕ → Bool
  | none => false
  | some queue => (s.queue[queue]?).any fun q => q.state = .allocated

def queueGet (queue : Option ℕ) (s : OsiInfo) : Ptr × OsiInfo :=
  match queue.bind (s.queue[·]?), queue with
  | some q, some index => (q.queueGet.2, { s with queue := s.queue.set index q.queueGet.1 })
  | _, _ => (0, s)

def osiQueuePut (queue : Option ℕ) (p : Ptr) : OsiProgram ℤ := do
  osiLock
  let allocated ← Program.modifyGet (some (.queueTest queue)) fun s => (s.hasQueue queue, s)
  if allocated then do
    let ret ← Program.modifyGet none fun s =>
      match queue.bind (s.queue[·]?), queue with
      | some q, some index =>
          ((q.osiQueuePut p).2, { s with queue := s.queue.set index (q.osiQueuePut p).1 })
      | _, _ => (-1, s)
    osiUnlock
    return ret
  -- The lock is kept.
  else return -1

def osiQueueGet (queue : Option ℕ) : OsiProgram Ptr := locked (queueGet queue)

/-- `pthread_cond_wait`: the lock is released for as long. -/
def pthreadCondWait : OsiProgram Unit := do
  osiUnlock
  Program.modify id
  osiLock

def osiQueueGetWait (queue : Option ℕ) : OsiProgram Ptr := do
  osiLock
  let allocated ← Program.modifyGet (some (.queueTest queue)) fun s => (s.hasQueue queue, s)
  if allocated then do
    let ret ← Program.modifyGet none (queueGet queue)
    let ret ← (if ret = 0 then do
      pthreadCondWait
      Program.modifyGet none (queueGet queue)
    else return ret)
    osiUnlock
    return ret
  -- And here.
  else return 0

/-- `OSI_queue_free`, which does not take the lock. -/
def osiQueueFree : Option ℕ → OsiProgram Unit
  | none => return
  | some queue => Program.modify fun s =>
      { s with queue := s.queue.modify queue fun q => { q with name := none, state := .free } }

def osiQueueGetHandler : Option String → OsiProgram (Option ℕ)
  | none => return none
  | some name => locked fun s => (s.queue.findIdx? fun q => q.name = some name, s)

end Queue

/-! ## Timers -/

section Timer

def osiTimerAllocate (timerName : String) : OsiProgram (Option ℕ) :=
  locked fun s =>
    let (timers, freeTimer) := s.timers.allocate timerName
    (freeTimer, { s with timers := timers })

/-- Whether a timer is free. -/
def OsiInfo.timerFree (s : OsiInfo) (timer : ℕ) : Bool :=
  (s.timers.timer[timer]?).any fun t => t.state = .free

def osiTimerStart (timer : Option ℕ) (timeout : ℕ) (callback : Option TimerCallback) :
    OsiProgram ℤ :=
  match timer with
  | none => return 0
  | some timer => do
      let free ← Program.modifyGet (some (.startTest timer)) fun s => (s.timerFree timer, s)
      if free then return 0
      else
        locked fun s =>
          (toInt timeout, { s with
            timers := (s.timers.start timer timeout (osiTimerGetCurrentTime s.clock) callback).1 })

def osiTimerStop : Option ℕ → OsiProgram Unit
  | none => return
  | some timer => do
      let runs ← Program.read fun s => (s.timers.timer[timer]?).any fun t => t.state = .run
      if runs then do
        osiLock
        let last ← Program.modifyGet none fun s =>
          (decide ((s.timers.stop timer).usingTimer ≤ 0), { s with timers := s.timers.stop timer })
        if last then do
          osiUnlock
          pthreadJoin
        else osiUnlock
      else return

def osiTimerFree : Option ℕ → OsiProgram Unit
  | none => return
  | some timer => locked fun s => ((), { s with timers := s.timers.free timer })

def osiTimerGetHandler : Option String → OsiProgram (Option ℕ)
  | none => return none
  | some name => locked fun s => (s.timers.timer.findIdx? fun t => t.name = some name, s)

namespace Callback

def halUpdateSleepTimer : OsiProgram Unit := do
  let usingTimer ← Program.read fun s => decide (s.flag &&& halFlagMaskUsingTimer ≠ 0)
  if usingTimer then return
  else do
    let (timer, timeout) ← Program.read fun s =>
      (s.sleepTimer,
        if s.flag &&& halFlagPropOneTimer ≠ 0 then s.overrideTimeout else s.sleepTimeout)
    let _ ← osiTimerStart timer timeout (some .halSleep)
    return

/-- `nci_init_timeout`: the packet goes through `__send_to_device`. -/
def nciInitTimeout : OsiProgram Unit := halUpdateSleepTimer

/-- `fw_force_update`: the frame goes to `device_write` at once. -/
def fwForceUpdate : OsiProgram Unit :=
  Program.modify fun s => if s.image then { s with flag := s.flag ||| halFlagForceFwUpdate } else s

/-- `nfc_hal_fw_timeout`: a packet for the stack. -/
def nfcHalFwTimeout : OsiProgram Unit := return

def halSleep : OsiProgram Unit :=
  Program.modify fun s => { s with flag := s.flag &&& ~~~halFlagPropOneTimer, overrideTimeout := 0 }

end Callback

/-- A callback. -/
def TimerCallback.program : TimerCallback → OsiProgram Unit
  | .nciInitTimeout => Callback.nciInitTimeout
  | .fwForceUpdate => Callback.fwForceUpdate
  | .nfcHalFwTimeout => Callback.nfcHalFwTimeout
  | .halSleep => Callback.halSleep

/-- The timers behind the body of the loop of `OSI_timer_update`, and the
callback that is called. -/
def OsiTimers.tick (s : OsiTimers) (index : ℕ) (now tick : ℤ) :
    Option TimerCallback × OsiTimers :=
  match s.timer[index]? with
  | none => (none, s)
  | some t =>
      let (t', fires) := t.update now tick
      (if fires then t.callback else none,
        { s with
          timer := s.timer.set index t'
          usingTimer := if fires then s.usingTimer - 1 else s.usingTimer })

/-- The loop of `OSI_timer_update`. -/
def updateTimers (tick : ℤ) : List ℕ → OsiProgram Unit
  | [] => return
  | index :: rest => do
      let callback ← Program.modifyGet none fun s =>
        ((s.timers.tick index (osiTimerGetCurrentTime s.clock) tick).1,
          { s with timers := (s.timers.tick index (osiTimerGetCurrentTime s.clock) tick).2 })
      (match callback with
      | none => return
      | some callback => callback.program)
      updateTimers tick rest

def osiTimerUpdate (tick : ℤ) : OsiProgram Unit := do
  osiLock
  let unused ← Program.read fun s => decide (s.timers.usingTimer ≤ 0)
  if unused then osiUnlock
  else do
    updateTimers tick (List.range osiMaxTimer)
    osiUnlock

def osiDeinit : OsiProgram Unit := do
  osiTimerFree (some 0)
  osiTimerFree (some 1)
  Program.modify fun s => { s with timers := { s.timers with usingTimer := 0 } }

end Timer
/-! ## The discipline -/

/-- **The lock**, and what each test has to find: an allocated queue, and
under the lock a timer that is free. -/
def osiDiscipline : LockDiscipline OsiInfo OsiLabel where
  op
    | .lock => some .lock
    | .unlock => some .unlock
    | _ => none
  condition
    | _, .queueTest queue, s => s.hasQueue queue
    | held, .startTest timer, s => held → s.timerFree timer
    | _, .fault, _ => False
    | _, _, _ => True

/-- A function of `osi/`, with its arguments. -/
inductive OsiCall where
  | init
  | deinit
  | taskAllocate (taskName : String)
  | taskRun (task : Option ℕ)
  | taskIsRun (task : Option ℕ)
  | taskStop (task : Option ℕ)
  | taskFree (task : Option ℕ)
  | taskKill (task : Option ℕ)
  | taskGetHandler (name : Option String)
  | memGet (size : ℕ)
  | memFree (target : Option ℕ)
  | queueAllocate (queName : String)
  | queuePut (queue : Option ℕ) (p : Ptr)
  | queueGet (queue : Option ℕ)
  | queueGetWait (queue : Option ℕ)
  | queueFree (queue : Option ℕ)
  | queueGetHandler (name : Option String)
  | timerAllocate (timerName : String)
  | timerStart (timer : Option ℕ) (timeout : ℕ) (callback : Option TimerCallback)
  | timerStop (timer : Option ℕ)
  | timerFree (timer : Option ℕ)
  | timerGetHandler (name : Option String)
  | timerUpdate (tick : ℤ)

/-- The call, without what it returns. -/
def OsiCall.program : OsiCall → OsiProgram Unit
  | .init => osiInit
  | .deinit => osiDeinit
  | .taskAllocate taskName => do let _ ← osiTaskAllocate taskName
  | .taskRun task => do let _ ← osiTaskRun task
  | .taskIsRun task => do let _ ← osiTaskIsRun task
  | .taskStop task => osiTaskStop task
  | .taskFree task => osiTaskFree task
  | .taskKill task => osiTaskKill task
  | .taskGetHandler name => do let _ ← osiTaskGetHandler name
  | .memGet size => do let _ ← osiMemGet size
  | .memFree target => osiMemFree target
  | .queueAllocate queName => do let _ ← osiQueueAllocate queName
  | .queuePut queue p => do let _ ← osiQueuePut queue p
  | .queueGet queue => do let _ ← osiQueueGet queue
  | .queueGetWait queue => do let _ ← osiQueueGetWait queue
  | .queueFree queue => osiQueueFree queue
  | .queueGetHandler name => do let _ ← osiQueueGetHandler name
  | .timerAllocate timerName => do let _ ← osiTimerAllocate timerName
  | .timerStart timer timeout callback => do let _ ← osiTimerStart timer timeout callback
  | .timerStop timer => osiTimerStop timer
  | .timerFree timer => osiTimerFree timer
  | .timerGetHandler name => do let _ ← osiTimerGetHandler name
  | .timerUpdate tick => osiTimerUpdate tick

/-- A thread that calls one after the other. -/
def osiCalls : List OsiCall → OsiProgram Unit
  | [] => return
  | call :: rest => do
      call.program
      osiCalls rest

section Rules

open LockDiscipline

variable {α : Type}

theorem exact_locked (f : OsiInfo → α × OsiInfo) : osiDiscipline.Exact (locked f) := by
  refine Closing.exact rfl ((inside_modifyGet f).closing fun a => ?_)
  exact (closing_unlock rfl).bind fun _ => exact_pure a

theorem exact_unit {p : OsiProgram α} (h : osiDiscipline.Exact p) :
    osiDiscipline.Exact (do let _ ← p) :=
  h.bind fun _ => exact_pure ()

theorem exact_modify (f : OsiInfo → OsiInfo) :
    osiDiscipline.Exact (Program.modify f : OsiProgram Unit) :=
  exact_modifyGet fun s => ((), f s)

theorem inside_modify (f : OsiInfo → OsiInfo) :
    osiDiscipline.Inside (Program.modify f : OsiProgram Unit) :=
  inside_modifyGet fun s => ((), f s)

theorem inside_read (f : OsiInfo → α) : osiDiscipline.Inside (Program.read f : OsiProgram α) :=
  inside_modifyGet fun s => (f s, s)

theorem exact_read (f : OsiInfo → α) : osiDiscipline.Exact (Program.read f : OsiProgram α) :=
  exact_modifyGet fun s => (f s, s)

theorem inside_waiting :
    osiDiscipline.Inside (do osiUnlock; Program.modify id; osiLock : OsiProgram Unit) :=
  inside_released rfl rfl fun _ => rfl

/-- **The end of a task.** -/
theorem exact_osiTaskEnd (task : ℕ) (f : OsiTask → OsiTask) :
    osiDiscipline.Exact (osiTaskEnd task f) := by
  refine Closing.exact rfl ((inside_read _).closing fun runs => ?_)
  have hwait : osiDiscipline.Inside
      (Program.when runs (do osiUnlock; pthreadJoin; osiLock) : OsiProgram Unit) := by
    unfold Program.when
    split
    · exact inside_waiting
    · exact inside_pure ()
  exact hwait.closing fun _ => (inside_modify _).closing fun _ => closing_unlock rfl

theorem exact_osiTaskStop (task : Option ℕ) : osiDiscipline.Exact (osiTaskStop task) := by
  cases task with
  | none => exact exact_pure ()
  | some task => exact exact_osiTaskEnd task _

theorem exact_osiTaskKill (task : Option ℕ) : osiDiscipline.Exact (osiTaskKill task) := by
  cases task with
  | none => exact exact_pure ()
  | some task => exact exact_osiTaskEnd task _

theorem exact_osiTaskFree (task : Option ℕ) : osiDiscipline.Exact (osiTaskFree task) := by
  refine (exact_osiTaskStop task).bind fun _ => Closing.exact rfl ?_
  cases task with
  | none => exact closing_fault rfl fun _ => id
  | some task => exact (inside_modify _).closing fun _ => closing_unlock rfl

theorem exact_osiMemRetry (errCnt : ℕ) : osiDiscipline.Exact (osiMemRetry errCnt) := by
  induction errCnt with
  | zero => exact exact_locked _
  | succ errCnt ih =>
    refine (exact_locked _).bind fun freeMem => ?_
    cases freeMem with
    | none => exact ih
    | some mem => exact exact_pure _

theorem exact_osiMemGet (size : ℕ) : osiDiscipline.Exact (osiMemGet size) := by
  unfold osiMemGet
  split
  · exact exact_pure _
  · exact exact_osiMemRetry 2

/-- **A put** keeps the lock unless it finds an allocated queue. -/
theorem exact_osiQueuePut (queue : Option ℕ) (p : Ptr) :
    osiDiscipline.Exact (osiQueuePut queue p) := by
  refine Closing.exact rfl (closing_test rfl (fun s hcond => ?_) fun s hcond => ?_)
  · have hcond : s.hasQueue queue = true := hcond
    rw [hcond]
    refine (inside_modifyGet _).closing fun ret => ?_
    exact (closing_unlock rfl).bind fun _ => exact_pure ret
  · exact ⟨-1, if_neg hcond⟩

/-- **And so does a get that waits.** -/
theorem exact_osiQueueGetWait (queue : Option ℕ) :
    osiDiscipline.Exact (osiQueueGetWait queue) := by
  refine Closing.exact rfl (closing_test rfl (fun s hcond => ?_) fun s hcond => ?_)
  · have hcond : s.hasQueue queue = true := hcond
    rw [hcond]
    refine (inside_modifyGet _).closing fun ret => ?_
    have hwait : osiDiscipline.Inside
        (if ret = 0 then do
          pthreadCondWait
          Program.modifyGet none (queueGet queue)
        else return ret : OsiProgram Ptr) := by
      split
      · exact inside_waiting.bind fun _ => inside_modifyGet _
      · exact inside_pure ret
    exact hwait.closing fun ret => (closing_unlock rfl).bind fun _ => exact_pure ret
  · exact ⟨0, if_neg hcond⟩

/-- **A start** takes the lock in one section. -/
theorem exact_osiTimerStart (timer : Option ℕ) (timeout : ℕ) (callback : Option TimerCallback) :
    osiDiscipline.Exact (osiTimerStart timer timeout callback) := by
  cases timer with
  | none => exact exact_pure _
  | some timer =>
    refine exact_test rfl (fun s hheld => absurd hheld (by decide)) fun free => ?_
    cases free with
    | true => exact exact_pure _
    | false => exact exact_locked _

/-- **And under the lock** it is stuck unless its timer is free. -/
theorem inside_osiTimerStart (timer : Option ℕ) (timeout : ℕ) (callback : Option TimerCallback) :
    osiDiscipline.Inside (osiTimerStart timer timeout callback) := by
  cases timer with
  | none => exact inside_pure _
  | some timer =>
    refine inside_test rfl (fun s hcond => ?_) fun s hcond found => ?_
    · have hfree : s.timerFree timer = true := hcond rfl
      rw [hfree]
      exact inside_pure _
    · have hfree : ¬ s.timerFree timer = true := fun hfree => hcond fun _ => hfree
      rw [if_neg hfree]
      exact run_lock rfl found

theorem exact_osiTimerStop (timer : Option ℕ) : osiDiscipline.Exact (osiTimerStop timer) := by
  cases timer with
  | none => exact exact_pure _
  | some timer =>
    refine (exact_read _).bind fun runs => ?_
    cases runs with
    | false => exact exact_pure _
    | true =>
      refine Closing.exact rfl ((inside_modifyGet _).closing fun last => ?_)
      cases last with
      | false => exact closing_unlock rfl
      | true => exact (closing_unlock rfl).bind fun _ => exact_modify _

theorem exact_osiTimerFree (timer : Option ℕ) : osiDiscipline.Exact (osiTimerFree timer) := by
  cases timer with
  | none => exact exact_pure _
  | some timer => exact exact_locked _

/-! ## Callbacks -/

theorem inside_halUpdateSleepTimer : osiDiscipline.Inside Callback.halUpdateSleepTimer := by
  refine (inside_read _).bind fun usingTimer => ?_
  cases usingTimer with
  | true => exact inside_pure _
  | false =>
    refine (inside_read _).bind fun sleep => ?_
    exact (inside_osiTimerStart _ _ _).bind fun _ => inside_pure _

theorem inside_callback (callback : TimerCallback) :
    osiDiscipline.Inside callback.program := by
  cases callback with
  | nciInitTimeout => exact inside_halUpdateSleepTimer
  | fwForceUpdate => exact inside_modify _
  | nfcHalFwTimeout => exact inside_pure _
  | halSleep => exact inside_modify _

theorem inside_updateTimers (tick : ℤ) (indices : List ℕ) :
    osiDiscipline.Inside (updateTimers tick indices) := by
  induction indices with
  | nil => exact inside_pure _
  | cons index rest ih =>
    refine (inside_modifyGet _).bind fun callback => ?_
    cases callback with
    | none => exact (inside_pure _).bind fun _ => ih
    | some callback => exact (inside_callback callback).bind fun _ => ih

theorem exact_osiTimerUpdate (tick : ℤ) : osiDiscipline.Exact (osiTimerUpdate tick) := by
  refine Closing.exact rfl ((inside_read _).closing fun unused => ?_)
  cases unused with
  | true => exact closing_unlock rfl
  | false => exact (inside_updateTimers tick _).closing fun _ => closing_unlock rfl

theorem exact_getHandler (name : Option String) (f : String → OsiInfo → Option ℕ × OsiInfo) :
    osiDiscipline.Exact (match name with
      | none => return none
      | some name => locked (f name) : OsiProgram (Option ℕ)) := by
  cases name with
  | none => exact exact_pure _
  | some name => exact exact_locked _

/-- **Every function of `osi/`.** -/
theorem OsiCall.exact (call : OsiCall) : osiDiscipline.Exact call.program := by
  cases call with
  | init => exact exact_modify _
  | deinit =>
    refine (exact_osiTimerFree _).bind fun _ => ?_
    exact (exact_osiTimerFree _).bind fun _ => exact_modify _
  | taskAllocate taskName => exact exact_unit (exact_locked _)
  | taskRun task => exact exact_unit (exact_locked _)
  | taskIsRun task => exact exact_unit (exact_locked _)
  | taskStop task => exact exact_osiTaskStop task
  | taskFree task => exact exact_osiTaskFree task
  | taskKill task => exact exact_osiTaskKill task
  | taskGetHandler name => exact exact_unit (exact_getHandler name _)
  | memGet size => exact exact_unit (exact_osiMemGet size)
  | memFree target =>
    cases target with
    | none => exact exact_pure _
    | some target => exact exact_locked _
  | queueAllocate queName => exact exact_unit (exact_locked _)
  | queuePut queue p => exact exact_unit (exact_osiQueuePut queue p)
  | queueGet queue => exact exact_unit (exact_locked _)
  | queueGetWait queue => exact exact_unit (exact_osiQueueGetWait queue)
  | queueFree queue =>
    cases queue with
    | none => exact exact_pure _
    | some queue => exact exact_modify _
  | queueGetHandler name => exact exact_unit (exact_getHandler name _)
  | timerAllocate timerName => exact exact_unit (exact_locked _)
  | timerStart timer timeout callback => exact exact_unit (exact_osiTimerStart timer timeout callback)
  | timerStop timer => exact exact_osiTimerStop timer
  | timerFree timer => exact exact_osiTimerFree timer
  | timerGetHandler name => exact exact_unit (exact_getHandler name _)
  | timerUpdate tick => exact exact_osiTimerUpdate tick

theorem exact_osiCalls (calls : List OsiCall) : osiDiscipline.Exact (osiCalls calls) := by
  induction calls with
  | nil => exact exact_pure _
  | cons call rest ih => exact call.exact.bind fun _ => ih

end Rules

/-- **The lock discipline of `osi/`.** Whatever the other threads do in
between, a thread releases the lock as often as it takes it, and never takes
it while it has it, in just the runs in which each `OSI_queue_put` and each
`OSI_queue_get_wait` finds an allocated queue, no timer callback gets to start
a timer that is not free, and no null task is freed. -/
theorem osiCalls_disciplined_iff (calls : List OsiCall) (found : ℕ → OsiInfo) :
    osiDiscipline.Disciplined ((osiCalls calls).trace found) ↔
      osiDiscipline.Sound false ((osiCalls calls).trace found) :=
  (exact_osiCalls calls).disciplined found

/-- `nci_init_timeout` fires in a system whose sleep timer is allocated. -/
def OsiInfo.firing : OsiInfo where
  task := []
  mem := OsiMem.init
  queue := List.replicate osiMaxQueue OsiQueue.fresh
  timers :=
    { timer := [⟨0, 990, 1, some "nci_timer", some .nciInitTimeout, .run⟩,
        ⟨0, 0, 0, some "sleep_timer", none, .allocated⟩]
      usingTimer := 1
      detach := true }
  clock := 1000
  creates := true
  flag := 0
  sleepTimer := some 1
  sleepTimeout := 5000
  overrideTimeout := 0
  image := false

/-- **Neither holds of every call**: a put into no queue keeps the lock, and
the tick that fires `nci_init_timeout` takes it twice. -/
theorem osiCalls_not_disciplined :
    osiDiscipline.run false
        ((osiCalls [.queuePut none 0]).trace fun _ => OsiInfo.firing) = some true ∧
      osiDiscipline.run false
        ((osiCalls [.timerUpdate 1]).trace fun _ => OsiInfo.firing) = none := by
  decide +kernel

end ExynosVendor.Nfc
