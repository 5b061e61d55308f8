import ExynosVendor.Common.Run
import ExynosVendor.Common.Word

/-!
# The OSI timers

`osi/osi_timer.cc`. A timer that runs is counted in `usingTimer`, and the
timer threads tick as long as any is counted. A tick counts down each timer
that runs; one whose countdown is over fires, unless the clock says that its
timeout has not passed.

The sections under the lock are functions here, and `TimerSystem` interleaves
them. A stop tests the state of its timer in front of the lock, so that the
timer may have fired by the time it is stopped, and is then counted off twice.
The clock is asked with ten milliseconds to spare, and past midnight it is not
asked at all.
-/

namespace ExynosVendor.Nfc

/-- `OSI_STATE`, of a timer. -/
inductive TimerState where
  | free
  | allocated
  | run
  | stop
  deriving DecidableEq

/-- `tOSI_TIMER_CALLBACK`: those that are used. -/
inductive TimerCallback where
  | nciInitTimeout
  | fwForceUpdate
  | nfcHalFwTimeout
  | halSleep
  deriving DecidableEq

/-- `sOSI_TIMER`. -/
structure OsiTimer where
  /-- `exact_time`. -/
  exactTime : ℤ
  /-- `init_timeout`. -/
  initTimeout : ℤ
  /-- `timeout`. -/
  timeout : ℤ
  /-- `name`. -/
  name : Option String
  /-- `callback`. -/
  callback : Option TimerCallback
  /-- `state`. -/
  state : TimerState
  deriving DecidableEq

/-- Of `tOSI_INFO`, what is about timers. -/
structure OsiTimers where
  /-- `timer`. -/
  timer : List OsiTimer
  /-- `usingTimer`. -/
  usingTimer : ℤ
  /-- `OSI_TIMER_THREAD_FLAG_DETACH`, of `timer_thread_flag`. -/
  detach : Bool
  deriving DecidableEq

def osiMaxTimer : ℕ := 2

/-- The milliseconds of a day. -/
def msPerDay : ℕ := 24 * 3600 * 1000

/-- `OSI_timer_get_current_time`: the millisecond of the day. -/
def osiTimerGetCurrentTime (clock : ℕ) : ℤ := (clock % msPerDay : ℕ)

namespace OsiTimers

/-- `OSI_init`, of the timers. -/
def init : OsiTimers :=
  ⟨List.replicate osiMaxTimer ⟨0, 0, 0, none, none, .free⟩, 0, false⟩

/-- The loop of `OSI_timer_allocate`. -/
def findFree (timerName : String) : List OsiTimer → ℕ → Option ℕ → Option ℕ
  | [], _, freeTimer => freeTimer
  | t :: rest, index, freeTimer =>
      if t.state = .free then
        findFree timerName rest (index + 1) (if freeTimer = none then some index else freeTimer)
      else if t.name = some timerName then none
      else findFree timerName rest (index + 1) freeTimer

/-- `OSI_timer_allocate`. -/
def allocate (s : OsiTimers) (timerName : String) : OsiTimers × Option ℕ :=
  match findFree timerName s.timer 0 none with
  | none => (s, none)
  | some index =>
      ({ s with timer := s.timer.modify index fun t =>
          { t with timeout := 0, name := some timerName, callback := none, state := .allocated } },
        some index)

/-- What `OSI_timer_start` notes of a timer. -/
def note (timeout : ℕ) (now : ℤ) (callback : Option TimerCallback) (t : OsiTimer) : OsiTimer :=
  { t with
    timeout := toInt timeout
    exactTime := now
    initTimeout := toInt (timeout - 10)
    callback := callback }

/-- `OSI_timer_start`, under the lock, and whether a timer thread is
created. -/
def start (s : OsiTimers) (index timeout : ℕ) (now : ℤ) (callback : Option TimerCallback) :
    OsiTimers × Bool :=
  match s.timer[index]? with
  | none => (s, false)
  | some t =>
      let t' := note timeout now callback t
      if t.state ≠ .run then
        let timer := s.timer.set index { t' with state := .run }
        if s.usingTimer < 1 then
          ({ timer := timer, usingTimer := s.usingTimer + 1, detach := true }, true)
        else ({ s with timer := timer, usingTimer := s.usingTimer + 1 }, false)
      else ({ s with timer := s.timer.set index t' }, false)

/-- `OSI_timer_stop`, under the lock. Where no timer is left in use, the
timer thread is waited for. -/
def stop (s : OsiTimers) (index : ℕ) : OsiTimers :=
  match s.timer[index]? with
  | none => s
  | some t =>
      { timer := s.timer.set index { t with state := .stop }
        usingTimer := s.usingTimer - 1
        detach := if s.usingTimer - 1 ≤ 0 then false else s.detach }

/-- `OSI_timer_free`. -/
def free (s : OsiTimers) (index : ℕ) : OsiTimers :=
  match s.timer[index]? with
  | none => s
  | some t =>
      { s with
        timer := s.timer.set index { t with state := .free, name := none, callback := none }
        usingTimer := if t.state = .run then s.usingTimer - 1 else s.usingTimer }

end OsiTimers

/-- The body of the loop of `OSI_timer_update`, and whether the timer
fires. -/
def OsiTimer.update (now tick : ℤ) (t : OsiTimer) : OsiTimer × Bool :=
  if t.state = .run then
    let t := { t with timeout := t.timeout - tick }
    if t.timeout ≤ 0 then
      if now - t.exactTime > t.initTimeout ∨ now < t.exactTime then
        ({ t with state := .stop }, true)
      else ({ t with timeout := t.initTimeout - (now - t.exactTime) }, false)
    else (t, false)
  else (t, false)

/-- `OSI_timer_update`, and which timers fire. No callback acts on a timer
and returns. -/
def OsiTimers.update (s : OsiTimers) (now tick : ℤ) : OsiTimers × (ℕ → Bool) :=
  if s.usingTimer ≤ 0 then (s, fun _ => false)
  else
    ({ s with
        timer := s.timer.map fun t => (t.update now tick).1
        usingTimer := s.usingTimer - s.timer.countP fun t => (t.update now tick).2 },
      fun index => (s.timer[index]?).any fun t => (t.update now tick).2)

/-! ## The threads -/

/-- What is known of a timer since its last start. -/
structure Life where
  /-- The timeout that was asked for. -/
  requested : ℕ
  /-- When it was started. -/
  since : ℕ
  /-- It was neither stopped nor freed. -/
  live : Bool
  /-- How often it fired. -/
  fires : ℕ
  deriving DecidableEq

/-- The timers and the threads that use them. -/
structure TimerSystem where
  osi : OsiTimers
  /-- The clock, in milliseconds. -/
  clock : ℕ
  /-- The starts that have tested the state of their timer. -/
  starting : List (ℕ × ℕ × Option TimerCallback)
  /-- The stops that have. -/
  stopping : List ℕ
  /-- The timer threads at the test of their loop. -/
  looping : ℕ
  /-- The timer threads in front of their tick. -/
  sleeping : ℕ
  /-- What is known of each timer. -/
  life : ℕ → Life

/-- A step of a thread, or of time. -/
inductive TimerStep where
  | allocate (timerName : String)
  /-- `OSI_timer_start`, in front of the lock, and of the so-manieth under it. -/
  | startTest (index timeout : ℕ) (callback : Option TimerCallback)
  | start (n : ℕ)
  /-- `OSI_timer_stop`, the same way. -/
  | stopTest (index : ℕ)
  | stop (n : ℕ)
  | free (index : ℕ)
  /-- The test of the loop of `timer_thread`, and its tick. -/
  | loop
  | tick
  /-- Time passes. -/
  | pass (ms : ℕ)
  deriving DecidableEq

namespace TimerSystem

/-- One step. -/
def step (s : TimerSystem) : TimerStep → TimerSystem
  | .allocate timerName => { s with osi := (s.osi.allocate timerName).1 }
  | .startTest index timeout callback =>
      match s.osi.timer[index]? with
      | none => s
      | some t =>
          if t.state = .free then s
          else { s with starting := s.starting ++ [(index, timeout, callback)] }
  | .start n =>
      match s.starting[n]? with
      | none => s
      | some (index, timeout, callback) =>
          let (osi, created) :=
            s.osi.start index timeout (osiTimerGetCurrentTime s.clock) callback
          { s with
            osi := osi
            starting := s.starting.eraseIdx n
            looping := if created then s.looping + 1 else s.looping
            life := Function.update s.life index ⟨timeout, s.clock, true, 0⟩ }
  | .stopTest index =>
      match s.osi.timer[index]? with
      | none => s
      | some t => if t.state ≠ .run then s else { s with stopping := s.stopping ++ [index] }
  | .stop n =>
      match s.stopping[n]? with
      | none => s
      | some index =>
          { s with
            osi := s.osi.stop index
            stopping := s.stopping.eraseIdx n
            life := Function.update s.life index { s.life index with live := false } }
  | .free index =>
      if index < s.osi.timer.length then
        { s with
          osi := s.osi.free index
          life := Function.update s.life index { s.life index with live := false } }
      else s
  | .loop =>
      if s.looping = 0 then s
      else if s.osi.usingTimer > 0 then
        { s with looping := s.looping - 1, sleeping := s.sleeping + 1 }
      else { s with looping := s.looping - 1 }
  | .tick =>
      if s.sleeping = 0 then s
      else
        let (osi, fired) := s.osi.update (osiTimerGetCurrentTime s.clock) 1
        { s with
          osi := osi
          sleeping := s.sleeping - 1
          looping := s.looping + 1
          life := fun index => if fired index then
            { s.life index with fires := (s.life index).fires + 1 } else s.life index }
  | .pass ms => { s with clock := s.clock + ms }

/-- The timers after `OSI_init`, at some time. -/
def initial (clock : ℕ) : TimerSystem where
  osi := .init
  clock := clock
  starting := []
  stopping := []
  looping := 0
  sleeping := 0
  life := fun _ => ⟨0, 0, false, 0⟩

end TimerSystem

end ExynosVendor.Nfc
