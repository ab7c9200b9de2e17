import EffectLoop.Time.Handle
import EffectLoop.Time.Gate

/-!
# The task clock

A clock on which schedules are tasks of their own.  Tasks that are ready run first come, first
served, and the clock moves only when none is ready: to the next alarm, never past one.  Alarms
ring on whole milliseconds.

Cancelling a task that is not running removes it.  A task that cancels itself is only marked, and
goes away at its next stop.
-/

namespace EffectLoop

/-- A clock with tasks of type `τ`. -/
structure TaskClock (τ : Type) where
  now : Duration
  issued : UInt64
  /-- The schedules that can be cancelled, with their tasks. -/
  active : List (TimerHandle × Nat)
  nextTask : Nat
  tasks : List (Nat × τ)
  ready : List Nat
  alarms : List (Duration × Waiter)
  running : Option Nat
  /-- The running task has cancelled itself. -/
  doomed : Bool

namespace TaskClock

variable {τ : Type}

/-- A clock at time zero with nothing to do. -/
def initial : TaskClock τ := ⟨.zero, 0, [], 0, [], [], [], none, false⟩

/-- Thirty years, after which a sleep without a proper end is over. -/
def farAhead : Nat := 946080000 * Duration.second

/-- Moments are below this bound: `2 ^ 63` seconds. -/
def momentLimit : Nat := 9223372036854775808 * Duration.second

/-- The moment that lies `delay` ahead, if there is one. -/
def moment? (clock : TaskClock τ) (delay : Duration) : Option Duration :=
  if clock.now.nanos + delay.nanos < momentLimit then
    Duration.ofNanos? (clock.now.nanos + delay.nanos)
  else none

/-- The moment that lies `delay` ahead, or one that is far ahead. -/
def moment (clock : TaskClock τ) (delay : Duration) : Duration :=
  (clock.moment? delay).getD ((Duration.ofNanos? (clock.now.nanos + farAhead)).getD clock.now)

/-- How late a firing may be for the next one to keep to the schedule: five milliseconds. -/
def tolerance : Nat := 5 * Duration.millisecond

/-- When an interval that was due at `due` is due next, if it fires now. -/
def nextDue (clock : TaskClock τ) (period due : Duration) : Duration :=
  if due.nanos + tolerance < clock.now.nanos then clock.moment period
  else (due.add? period).getD (clock.moment period)

/-- Put a task at the end of the queue, unless it is there. -/
def enqueue (clock : TaskClock τ) (task : Nat) : TaskClock τ :=
  if clock.ready.contains task || !clock.tasks.any (·.1 = task) && clock.running ≠ some task then
    clock
  else { clock with ready := clock.ready ++ [task] }

/-- Start a task; it is ready at once. -/
def spawn (clock : TaskClock τ) (task : τ) : Nat × TaskClock τ :=
  (clock.nextTask,
    { clock with
      nextTask := clock.nextTask + 1
      tasks := clock.tasks ++ [(clock.nextTask, task)]
      ready := clock.ready ++ [clock.nextTask] })

/-- Cancel a task. -/
def abort (clock : TaskClock τ) (task : Nat) : TaskClock τ :=
  if clock.running = some task then { clock with doomed := true }
  else
    { clock with
      tasks := clock.tasks.filter (·.1 ≠ task)
      ready := clock.ready.filter (· ≠ task) }

/-- Take a fresh handle. -/
def issue (clock : TaskClock τ) : TimerHandle × TaskClock τ :=
  (⟨clock.issued + 1⟩, { clock with issued := clock.issued + 1 })

/-- Register the task of a schedule. -/
def register (clock : TaskClock τ) (handle : TimerHandle) (task : Nat) : TaskClock τ :=
  { clock with active := clock.active ++ [(handle, task)] }

/-- Forget a schedule. -/
def forget (clock : TaskClock τ) (handle : TimerHandle) : TaskClock τ :=
  { clock with active := clock.active.filter (·.1 ≠ handle) }

/-- Cancel a schedule; the answer says whether there was one. -/
def clear (clock : TaskClock τ) (handle : TimerHandle) : Bool × TaskClock τ :=
  match clock.active.find? (·.1 = handle) with
  | none => (false, clock)
  | some (_, task) => (true, (clock.forget handle).abort task)

/-- Ring for a waiter at a moment, if there is such a moment on a whole millisecond. -/
def setAlarm (clock : TaskClock τ) (moment : Duration) (waiter : Waiter) : TaskClock τ :=
  { clock with alarms := clock.alarms ++ (moment.ceilMillis?.map (·, waiter)).toList }

/-- The first alarm up to `target`. -/
def nextAlarm? (clock : TaskClock τ) (target : Duration) : Option Duration :=
  clock.alarms.foldl (fun found alarm =>
    if alarm.1 ≤ target then
      match found with
      | none => some alarm.1
      | some first => if alarm.1 < first then some alarm.1 else found
    else found) none

/-- Move the clock; the answer is whom the alarms up to that moment wake. -/
def moveTo (clock : TaskClock τ) (moment : Duration) : List Waiter × TaskClock τ :=
  ((clock.alarms.filter (·.1 ≤ moment)).map (·.2),
    { clock with now := moment, alarms := clock.alarms.filter (!·.1 ≤ moment) })

/-- Take the first ready task out of the queue and mark it as running. -/
def takeReady (clock : TaskClock τ) : Option (Nat × τ) × TaskClock τ :=
  match clock.ready with
  | [] => (none, clock)
  | task :: rest =>
      let taken := { clock with ready := rest }
      match clock.tasks.find? (·.1 = task) with
      | none => (none, taken)
      | some (_, body) =>
          (some (task, body),
            { taken with
              tasks := clock.tasks.filter (·.1 ≠ task), running := some task, doomed := false })

/-- Put a task back that has stopped; one that has cancelled itself goes away. -/
def putBack (clock : TaskClock τ) (task : Nat) (body : τ) : TaskClock τ :=
  let stopped := { clock with running := none, doomed := false }
  if clock.doomed then { stopped with ready := clock.ready.filter (· ≠ task) }
  else { stopped with tasks := clock.tasks ++ [(task, body)] }

/-- A task is over. -/
def retire (clock : TaskClock τ) (task : Nat) : TaskClock τ :=
  { clock with running := none, doomed := false, ready := clock.ready.filter (· ≠ task) }

end TaskClock

end EffectLoop
