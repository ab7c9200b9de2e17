import EffectLoop.Time.Duration
import EffectLoop.Time.Handle

/-!
# The virtual clock

A clock that moves only when it is advanced.  Schedules fire in the order of their due times, ties
broken by handle; spawned work is queued.  This module holds the state and its atomic steps:
advancing repeats `takeSpawned` and `takeDue`, and runs what they yield in between.

A sum that is no duration refuses the step that needs it.  Registering a schedule then has already
used up a handle, and re-arming a repeating schedule has already moved the clock.
-/

namespace EffectLoop

/-- A registered schedule. -/
structure Timer (τ : Type) where
  handle : TimerHandle
  due : Duration
  /-- The time between firings, for a repeating schedule. -/
  period : Option Duration
  task : τ

/-- Does the first schedule fire before the second? -/
def Timer.before {τ : Type} (left right : Timer τ) : Bool :=
  left.due < right.due || (left.due = right.due && left.handle.id < right.handle.id)

/-- A clock with schedules and spawned work of type `τ`.  Schedules are kept in order of their
handles. -/
structure VirtualClock (τ : Type) where
  now : Duration
  issued : UInt64
  timers : List (Timer τ)
  spawned : List τ

namespace VirtualClock

variable {τ : Type}

/-- A clock at time zero with nothing to do. -/
def initial : VirtualClock τ := ⟨.zero, 0, [], []⟩

/-- Register a schedule.  The handle is used up even if the due time is no duration. -/
def schedule (clock : VirtualClock τ) (delay : Duration) (repeating : Bool) (task : τ) :
    Option TimerHandle × VirtualClock τ :=
  let handle : TimerHandle := ⟨clock.issued + 1⟩
  let counted := { clock with issued := clock.issued + 1 }
  let period := if repeating then some (repeatPeriod delay) else none
  match clock.now.add? (period.getD delay) with
  | none => (none, counted)
  | some due =>
      (some handle, { counted with timers := clock.timers ++ [⟨handle, due, period, task⟩] })

/-- Cancel a schedule; the answer says whether there was one. -/
def clear (clock : VirtualClock τ) (handle : TimerHandle) : Bool × VirtualClock τ :=
  (clock.timers.any (·.handle = handle),
    { clock with timers := clock.timers.filter (·.handle ≠ handle) })

/-- Queue work. -/
def spawn (clock : VirtualClock τ) (task : τ) : VirtualClock τ :=
  { clock with spawned := clock.spawned ++ [task] }

/-- Take all queued work. -/
def takeSpawned (clock : VirtualClock τ) : List τ × VirtualClock τ :=
  (clock.spawned, { clock with spawned := [] })

/-- The schedule that fires first. -/
def earliest? : List (Timer τ) → Option (Timer τ)
  | [] => none
  | timer :: rest =>
      match earliest? rest with
      | none => some timer
      | some other => some (if other.before timer then other else timer)

/-- The schedule that fires first among those due up to `target`. -/
def due? (clock : VirtualClock τ) (target : Duration) : Option (Timer τ) :=
  earliest? (clock.timers.filter (·.due ≤ target))

/-- The result of looking for a schedule to fire. -/
inductive Due (τ : Type) where
  /-- Nothing is due. -/
  | nothing
  /-- A task to run. -/
  | task (task : τ)
  /-- The next due time of a repeating schedule is no duration. -/
  | overflow

/-- Move the clock to the schedule that fires first among those due up to `target`, and take its
task. A one-shot schedule is removed, a repeating one is due again a period later. -/
def takeDue (clock : VirtualClock τ) (target : Duration) : Due τ × VirtualClock τ :=
  match clock.due? target with
  | none => (.nothing, clock)
  | some timer =>
      let moved := { clock with now := timer.due }
      match timer.period with
      | none =>
          (.task timer.task,
            { moved with timers := clock.timers.filter (·.handle ≠ timer.handle) })
      | some period =>
          match timer.due.add? period with
          | none => (.overflow, moved)
          | some due =>
              (.task timer.task,
                { moved with
                  timers := clock.timers.map fun other =>
                    if other.handle = timer.handle then { other with due } else other })

/-- End an advance: the clock stands at its target. -/
def arrive (clock : VirtualClock τ) (target : Duration) : VirtualClock τ :=
  { clock with now := target }

/-- The number of registered schedules. -/
def pending (clock : VirtualClock τ) : Nat := clock.timers.length

/-- The number of queued pieces of work. -/
def queued (clock : VirtualClock τ) : Nat := clock.spawned.length

@[simp] theorem takeSpawned_fst (clock : VirtualClock τ) :
    clock.takeSpawned.1 = clock.spawned := rfl

@[simp] theorem spawn_spawned (clock : VirtualClock τ) (task : τ) :
    (clock.spawn task).spawned = clock.spawned ++ [task] := rfl

@[simp] theorem arrive_now (clock : VirtualClock τ) (target : Duration) :
    (clock.arrive target).now = target := rfl

end VirtualClock

end EffectLoop
