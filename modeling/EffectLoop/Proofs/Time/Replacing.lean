import Mathlib.Data.List.Basic
import EffectLoop.Time.VirtualClock
import EffectLoop.Time.TaskClock

/-!
# Clocks with other tasks

A clock does not look into its tasks: if each task is replaced by its image, every step of the clock
does the same, and answers with the images.
-/

namespace EffectLoop

variable {τ σ : Type}

/-- Replacing each value by itself changes nothing. -/
theorem map_eq_self {same : τ → τ} {values : List τ} (unchanged : ∀ value ∈ values, same value = value) :
    values.map same = values :=
  (List.map_congr_left unchanged).trans (List.map_id values)

/-- The same schedule with another task. -/
def Timer.map (image : τ → σ) (timer : Timer τ) : Timer σ := { timer with task := image timer.task }

namespace VirtualClock

variable (image : τ → σ)

/-- The same clock with other tasks. -/
def map (clock : VirtualClock τ) : VirtualClock σ :=
  { clock with timers := clock.timers.map (·.map image), spawned := clock.spawned.map image }

/-- What is to be run next, with another task. -/
def Due.map : Due τ → Due σ
  | .nothing => .nothing
  | .task body => .task (image body)
  | .overflow => .overflow

variable (clock : VirtualClock τ)

theorem map_of_same {same : τ → τ} (timers : ∀ timer ∈ clock.timers, same timer.task = timer.task)
    (spawned : ∀ task ∈ clock.spawned, same task = task) : clock.map same = clock := by
  have timersSame : clock.timers.map (·.map same) = clock.timers := by
    apply map_eq_self
    intro timer within
    rw [Timer.map, timers timer within]
  rw [map, timersSame, map_eq_self spawned]

theorem map_map {ρ : Type} (next : σ → ρ) : (clock.map image).map next = clock.map (next ∘ image) := by
  simp only [map, List.map_map]
  rfl

theorem map_schedule (delay : Duration) (repeating : Bool) (task : τ) :
    (clock.map image).schedule delay repeating (image task) =
      ((clock.schedule delay repeating task).1,
        (clock.schedule delay repeating task).2.map image) := by
  have same : (clock.map image).now = clock.now := rfl
  simp only [schedule, same]
  cases clock.now.add? _ with
  | none => rfl
  | some due =>
      simp only [map, List.map_append]
      rfl

theorem map_clear (handle : TimerHandle) :
    (clock.map image).clear handle =
      ((clock.clear handle).1, (clock.clear handle).2.map image) := by
  simp only [clear, map, List.any_map, List.filter_map, Function.comp_def]
  rfl

theorem map_spawn (task : τ) : (clock.map image).spawn (image task) = (clock.spawn task).map image := by
  simp only [spawn, map, List.map_append]
  rfl

theorem earliest?_map (timers : List (Timer τ)) :
    earliest? (timers.map (·.map image)) = (earliest? timers).map (·.map image) := by
  induction timers with
  | nil => rfl
  | cons timer rest ih =>
      rw [List.map_cons, earliest?, earliest?, ih]
      cases earliest? rest with
      | none => rfl
      | some other =>
          have same : (other.map image).before (timer.map image) = other.before timer := rfl
          simp only [Option.map_some, same]
          split
          · rfl
          · rfl

theorem map_due? (target : Duration) :
    (clock.map image).due? target = (clock.due? target).map (·.map image) := by
  rw [due?, due?, ← earliest?_map]
  simp only [map, List.filter_map, Function.comp_def]
  rfl

theorem map_takeDue (target : Duration) :
    (clock.map image).takeDue target =
      ((clock.takeDue target).1.map image, (clock.takeDue target).2.map image) := by
  rw [takeDue, takeDue, map_due?]
  cases clock.due? target with
  | none => rfl
  | some timer =>
      cases repeats : timer.period with
      | none =>
          simp only [Option.map_some, Timer.map, repeats, map, List.filter_map, Function.comp_def]
          rfl
      | some period =>
          simp only [Option.map_some, Timer.map, repeats]
          cases timer.due.add? period with
          | none => rfl
          | some due =>
              simp only [Due.map, map, List.map_map, Function.comp_def, Prod.mk.injEq, true_and,
                VirtualClock.mk.injEq, and_true]
              apply List.map_congr_left
              intro other _
              by_cases same : other.handle = timer.handle <;>
                simp only [Timer.map, same, if_true, if_false]

end VirtualClock

namespace TaskClock

variable (image : τ → σ)

/-- The same clock with other tasks. -/
def map (clock : TaskClock τ) : TaskClock σ :=
  { clock with tasks := clock.tasks.map fun entry => (entry.1, image entry.2) }

variable (clock : TaskClock τ)

theorem map_of_same {same : τ → τ} (tasks : ∀ entry ∈ clock.tasks, same entry.2 = entry.2) :
    clock.map same = clock := by
  have tasksSame : clock.tasks.map (fun entry => (entry.1, same entry.2)) = clock.tasks := by
    apply map_eq_self
    intro entry within
    rw [tasks entry within]
  rw [map, tasksSame]

theorem map_map {ρ : Type} (next : σ → ρ) : (clock.map image).map next = clock.map (next ∘ image) := by
  simp only [map, List.map_map]
  rfl

theorem map_enqueue (task : Nat) : (clock.map image).enqueue task = (clock.enqueue task).map image := by
  have known : (clock.map image).tasks.any (·.1 = task) = clock.tasks.any (·.1 = task) := by
    simp only [map, List.any_map, Function.comp_def]
  unfold enqueue
  rw [known]
  change (if clock.ready.contains task || !clock.tasks.any (·.1 = task) && clock.running ≠ some task
    then _ else _) = _
  split
  · rfl
  · rfl

theorem map_spawn (body : τ) :
    (clock.map image).spawn (image body) =
      ((clock.spawn body).1, (clock.spawn body).2.map image) := by
  simp only [spawn, map, List.map_append]
  rfl

theorem map_abort (task : Nat) : (clock.map image).abort task = (clock.abort task).map image := by
  unfold abort
  change (if clock.running = some task then _ else _) = _
  split
  · rfl
  · simp only [map, List.filter_map, Function.comp_def]

theorem map_clear (handle : TimerHandle) :
    (clock.map image).clear handle = ((clock.clear handle).1, (clock.clear handle).2.map image) := by
  have active : (clock.map image).active = clock.active := rfl
  rw [clear, clear, active]
  cases clock.active.find? (·.1 = handle) with
  | none => rfl
  | some entry =>
      change (true, ((clock.forget handle).map image).abort entry.2) = _
      rw [map_abort]

theorem map_takeReady :
    (clock.map image).takeReady =
      (clock.takeReady.1.map fun entry => (entry.1, image entry.2), clock.takeReady.2.map image) := by
  have ready : (clock.map image).ready = clock.ready := rfl
  rw [takeReady, takeReady, ready]
  cases clock.ready with
  | nil => rfl
  | cons task rest =>
      have found : (clock.map image).tasks.find? (·.1 = task) =
          (clock.tasks.find? (·.1 = task)).map fun entry => (entry.1, image entry.2) := by
        simp only [map, List.find?_map, Function.comp_def]
      dsimp only
      rw [found]
      cases clock.tasks.find? (·.1 = task) with
      | none => rfl
      | some entry =>
          simp only [Option.map_some, map, List.filter_map, Function.comp_def]

theorem map_retire (task : Nat) : (clock.map image).retire task = (clock.retire task).map image := rfl

theorem map_putBack (task : Nat) (body : τ) :
    (clock.map image).putBack task (image body) = (clock.putBack task body).map image := by
  unfold putBack
  change (if clock.doomed then _ else _) = _
  split
  · rfl
  · simp only [map, List.map_append]
    rfl

end TaskClock

end EffectLoop
