import Mathlib.Data.List.Nodup
import EffectLoop.Time.TaskClock

/-!
# Tasks and the schedules that they belong to

On a task clock a schedule is a task that can still fire it, and an entry that says so.  In an orderly
clock every task that can fire a schedule is entered under the handle of that schedule.  So whoever
cancels a schedule, and is not its own task, removes the only task that can fire it.  The running task
is not among the tasks; if it cancels its own schedule, it is doomed and does not come back.
-/

namespace EffectLoop

namespace TaskClock

variable {τ : Type}

/-- The schedule can be cancelled. -/
def Active (clock : TaskClock τ) (handle : TimerHandle) : Prop :=
  ∃ task, (handle, task) ∈ clock.active

/-- Tasks are either quiet, and fire nothing, or they fire the schedule that they are entered for. -/
structure Orderly (quiet : τ → Prop) (fires : TimerHandle → τ → Prop) (issued : List TimerHandle)
    (clock : TaskClock τ) : Prop where
  issued : ∀ entry ∈ clock.active, entry.1 ∈ issued
  handles : (clock.active.map Prod.fst).Nodup
  numbered : ∀ entry ∈ clock.tasks, entry.1 < clock.nextTask
  apart : ∀ task, clock.running = some task →
    task < clock.nextTask ∧ ∀ entry ∈ clock.tasks, entry.1 ≠ task
  owned : ∀ entry ∈ clock.tasks,
    quiet entry.2 ∨ ∃ handle, fires handle entry.2 ∧ (handle, entry.1) ∈ clock.active

/-- What a running task keeps, whatever it does.  One that is loyal does not forget its own schedule. -/
structure Passes (loyal : Prop) (clock moved : TaskClock τ) : Prop where
  running : moved.running = clock.running
  doomed : clock.doomed = true → moved.doomed = true
  /-- The running task is entered as before, unless it is doomed. -/
  kept : loyal → ∀ task handle, clock.running = some task → (handle, task) ∈ clock.active →
    (handle, task) ∈ moved.active ∨ moved.doomed = true

variable {quiet : τ → Prop} {fires : TimerHandle → τ → Prop} {issued : List TimerHandle}
variable {clock moved last : TaskClock τ} {loyal : Prop}

theorem initial_orderly : (initial : TaskClock τ).Orderly quiet fires [] where
  issued := by simp [initial]
  handles := by simp [initial]
  numbered := by simp [initial]
  apart := by simp [initial]
  owned := by simp [initial]

theorem Orderly.task_unique (orderly : clock.Orderly quiet fires issued) {handle : TimerHandle}
    {task other : Nat} (first : (handle, task) ∈ clock.active)
    (second : (handle, other) ∈ clock.active) : task = other := by
  have same := List.inj_on_of_nodup_map orderly.handles first second rfl
  exact congrArg Prod.snd same

namespace Passes

theorem refl (clock : TaskClock τ) : Passes loyal clock clock :=
  ⟨rfl, id, fun _ _ _ _ entered => .inl entered⟩

theorem trans (first : Passes loyal clock moved) (second : Passes loyal moved last) :
    Passes loyal clock last where
  running := second.running.trans first.running
  doomed was := second.doomed (first.doomed was)
  kept isLoyal task handle running entered := by
    cases first.kept isLoyal task handle running entered with
    | inl still => exact second.kept isLoyal task handle (first.running.trans running) still
    | inr doomed => exact .inr (second.doomed doomed)

theorem mono {weak : Prop} (passes : Passes loyal clock moved) (implies : weak → loyal) :
    Passes weak clock moved :=
  ⟨passes.running, passes.doomed, fun isWeak => passes.kept (implies isWeak)⟩

end Passes

/-! ## Changes that concern no schedule -/

/-- The clocks have the same schedules and tasks. -/
structure SameTasks (clock moved : TaskClock τ) : Prop where
  active : moved.active = clock.active
  tasks : moved.tasks = clock.tasks
  nextTask : moved.nextTask = clock.nextTask
  running : moved.running = clock.running
  doomed : moved.doomed = clock.doomed

namespace SameTasks

theorem orderly (same : SameTasks clock moved) (orderly : clock.Orderly quiet fires issued) :
    moved.Orderly quiet fires issued := by
  obtain ⟨issued, handles, numbered, apart, owned⟩ := orderly
  constructor
  · rwa [same.active]
  · rwa [same.active]
  · rwa [same.tasks, same.nextTask]
  · rwa [same.running, same.nextTask, same.tasks]
  · rwa [same.tasks, same.active]

theorem passes (same : SameTasks clock moved) : Passes loyal clock moved := by
  constructor
  · exact same.running
  · rw [same.doomed]
    exact id
  · intro _ task handle _ entered
    rw [same.active]
    exact .inl entered

end SameTasks

theorem enqueue_same (clock : TaskClock τ) (task : Nat) : SameTasks clock (clock.enqueue task) := by
  unfold enqueue
  split <;> exact ⟨rfl, rfl, rfl, rfl, rfl⟩

theorem setAlarm_same (clock : TaskClock τ) (moment : Duration) (waiter : Waiter) :
    SameTasks clock (clock.setAlarm moment waiter) := ⟨rfl, rfl, rfl, rfl, rfl⟩

theorem moveTo_same (clock : TaskClock τ) (moment : Duration) :
    SameTasks clock (clock.moveTo moment).2 := ⟨rfl, rfl, rfl, rfl, rfl⟩

/-! ## Tasks come and go -/

theorem Orderly.spawn (orderly : clock.Orderly quiet fires issued) {task : τ} (isQuiet : quiet task) :
    (clock.spawn task).2.Orderly quiet fires issued where
  issued := orderly.issued
  handles := orderly.handles
  numbered := by
    intro entry within
    cases List.mem_append.1 within with
    | inl old => exact Nat.lt_succ_of_lt (orderly.numbered entry old)
    | inr new =>
        cases List.mem_singleton.1 new
        exact Nat.lt_succ_self _
  apart := by
    intro running same
    obtain ⟨below, apart⟩ := orderly.apart running same
    refine ⟨Nat.lt_succ_of_lt below, ?_⟩
    intro entry within
    cases List.mem_append.1 within with
    | inl old => exact apart entry old
    | inr new =>
        cases List.mem_singleton.1 new
        exact Nat.ne_of_gt below
  owned := by
    intro entry within
    cases List.mem_append.1 within with
    | inl old => exact orderly.owned entry old
    | inr new =>
        cases List.mem_singleton.1 new
        exact .inl isQuiet

theorem spawn_passes (clock : TaskClock τ) (task : τ) : Passes loyal clock (clock.spawn task).2 :=
  ⟨rfl, id, fun _ _ _ _ entered => .inl entered⟩

/-- A schedule is entered with the task that fires it. -/
theorem Orderly.enter (orderly : clock.Orderly quiet fires issued) {handle : TimerHandle}
    (fresh : handle ∉ issued) {task : τ} (owned : quiet task ∨ fires handle task) :
    ((clock.spawn task).2.register handle clock.nextTask).Orderly quiet fires (handle :: issued) where
  issued := by
    intro entry within
    cases List.mem_append.1 within with
    | inl old => exact List.mem_cons_of_mem _ (orderly.issued entry old)
    | inr new =>
        cases List.mem_singleton.1 new
        exact List.mem_cons_self
  handles := by
    have apart : ∀ entry ∈ clock.active, entry.1 ≠ handle := by
      intro entry within same
      exact fresh (same ▸ orderly.issued entry within)
    simp only [register, List.map_append, List.map_cons, List.map_nil]
    rw [List.nodup_append]
    refine ⟨orderly.handles, List.nodup_singleton handle, ?_⟩
    intro known within other new
    obtain ⟨entry, old, rfl⟩ := List.mem_map.1 within
    rw [List.mem_singleton.1 new]
    exact apart entry old
  numbered := by
    intro entry within
    cases List.mem_append.1 within with
    | inl old => exact Nat.lt_succ_of_lt (orderly.numbered entry old)
    | inr new =>
        cases List.mem_singleton.1 new
        exact Nat.lt_succ_self _
  apart := by
    intro running same
    obtain ⟨below, apart⟩ := orderly.apart running same
    refine ⟨Nat.lt_succ_of_lt below, ?_⟩
    intro entry within
    cases List.mem_append.1 within with
    | inl old => exact apart entry old
    | inr new =>
        cases List.mem_singleton.1 new
        exact Nat.ne_of_gt below
  owned := by
    intro entry within
    cases List.mem_append.1 within with
    | inl old =>
        cases orderly.owned entry old with
        | inl isQuiet => exact .inl isQuiet
        | inr owner =>
            obtain ⟨other, firing, entered⟩ := owner
            exact .inr ⟨other, firing, List.mem_append_left _ entered⟩
    | inr new =>
        cases List.mem_singleton.1 new
        cases owned with
        | inl isQuiet => exact .inl isQuiet
        | inr firing => exact .inr ⟨handle, firing, List.mem_append_right _ (List.mem_singleton_self _)⟩

theorem enter_passes (clock : TaskClock τ) (handle : TimerHandle) (task : τ) :
    Passes loyal clock ((clock.spawn task).2.register handle clock.nextTask) :=
  ⟨rfl, id, fun _ _ _ _ entered => .inl (List.mem_append_left _ entered)⟩

theorem Active.of_enter {handle other : TimerHandle} {task : τ}
    (active : ((clock.spawn task).2.register handle clock.nextTask).Active other) :
    clock.Active other ∨ other = handle := by
  obtain ⟨owner, within⟩ := active
  cases List.mem_append.1 within with
  | inl old => exact .inl ⟨owner, old⟩
  | inr new =>
      cases List.mem_singleton.1 new
      exact .inr rfl

/-! ## Cancelling -/

/-- Cancelling leaves all other schedules as they are.  The task of the schedule goes away, unless it
is the one that is running: that one is doomed. -/
theorem clear_cases (clock : TaskClock τ) (handle : TimerHandle) :
    ((clock.clear handle).1 = false ∧ ¬clock.Active handle ∧ (clock.clear handle).2 = clock) ∨
      ∃ task, (handle, task) ∈ clock.active ∧ (clock.clear handle).1 = true ∧
        (clock.clear handle).2 = (clock.forget handle).abort task := by
  unfold clear
  cases found : clock.active.find? (·.1 = handle) with
  | none =>
      refine .inl ⟨rfl, ?_, rfl⟩
      intro active
      obtain ⟨task, within⟩ := active
      have other := List.find?_eq_none.1 found (handle, task) within
      simp at other
  | some entry =>
      obtain ⟨known, task⟩ := entry
      have same : known = handle := by simpa using List.find?_some found
      subst same
      exact .inr ⟨task, List.mem_of_find?_eq_some found, rfl, rfl⟩

theorem forget_inactive (clock : TaskClock τ) (handle : TimerHandle) :
    ¬(clock.forget handle).Active handle := by
  intro active
  obtain ⟨task, within⟩ := active
  simp [forget] at within

theorem Active.of_forget {handle other : TimerHandle} (active : (clock.forget handle).Active other) :
    clock.Active other := by
  obtain ⟨task, within⟩ := active
  exact ⟨task, List.mem_of_mem_filter within⟩

theorem abort_active (clock : TaskClock τ) (task : Nat) :
    (clock.abort task).active = clock.active := by
  unfold abort
  split <;> rfl

theorem abort_running (clock : TaskClock τ) (task : Nat) :
    (clock.abort task).running = clock.running := by
  unfold abort
  split <;> rfl

theorem abort_nextTask (clock : TaskClock τ) (task : Nat) :
    (clock.abort task).nextTask = clock.nextTask := by
  unfold abort
  split <;> rfl

/-- What is left of the tasks when one is cancelled: the others. -/
theorem Orderly.mem_abort_tasks (orderly : clock.Orderly quiet fires issued) {task : Nat}
    {entry : Nat × τ} (within : entry ∈ (clock.abort task).tasks) :
    entry ∈ clock.tasks ∧ entry.1 ≠ task := by
  unfold abort at within
  split at within
  next runs => exact ⟨within, (orderly.apart task runs).2 entry within⟩
  next => simpa using within

theorem Orderly.abort (orderly : clock.Orderly quiet fires issued) (task : Nat) :
    (clock.abort task).Orderly quiet fires issued where
  issued := by
    rw [abort_active]
    exact orderly.issued
  handles := by
    rw [abort_active]
    exact orderly.handles
  numbered := by
    rw [abort_nextTask]
    intro entry within
    exact orderly.numbered entry (orderly.mem_abort_tasks within).1
  apart := by
    rw [abort_running, abort_nextTask]
    intro running runs
    obtain ⟨below, apart⟩ := orderly.apart running runs
    exact ⟨below, fun entry within => apart entry (orderly.mem_abort_tasks within).1⟩
  owned := by
    rw [abort_active]
    intro entry within
    exact orderly.owned entry (orderly.mem_abort_tasks within).1

theorem abort_passes (clock : TaskClock τ) (task : Nat) : Passes loyal clock (clock.abort task) := by
  constructor
  · exact abort_running clock task
  · intro doomed
    unfold abort
    split
    · rfl
    · exact doomed
  · intro _ running handle _ entered
    rw [abort_active]
    exact .inl entered

/-- A schedule may be forgotten once its task is not among the tasks. -/
theorem Orderly.forget (orderly : clock.Orderly quiet fires issued) {handle : TimerHandle} {task : Nat}
    (entered : (handle, task) ∈ clock.active) (gone : ∀ entry ∈ clock.tasks, entry.1 ≠ task) :
    (clock.forget handle).Orderly quiet fires issued where
  issued := fun entry within => orderly.issued entry (List.mem_of_mem_filter within)
  handles := orderly.handles.sublist (List.filter_sublist.map _)
  numbered := orderly.numbered
  apart := orderly.apart
  owned := by
    intro entry within
    cases orderly.owned entry within with
    | inl isQuiet => exact .inl isQuiet
    | inr owner =>
        obtain ⟨other, firing, known⟩ := owner
        have different : other ≠ handle := by
          intro same
          subst same
          exact gone entry within (orderly.task_unique known entered)
        exact .inr ⟨other, firing, List.mem_filter.2 ⟨known, by simpa using different⟩⟩

theorem clear_inactive (clock : TaskClock τ) (handle : TimerHandle) :
    ¬(clock.clear handle).2.Active handle := by
  cases clock.clear_cases handle with
  | inl absent =>
      rw [absent.2.2]
      exact absent.2.1
  | inr present =>
      obtain ⟨task, _, _, same⟩ := present
      rw [same, Active, abort_active]
      exact clock.forget_inactive handle

theorem abort_forget (clock : TaskClock τ) (handle : TimerHandle) (task : Nat) :
    (clock.forget handle).abort task = (clock.abort task).forget handle := by
  by_cases runs : clock.running = some task <;> simp [abort, forget, runs]

/-- An orderly clock stays so when a schedule is cancelled. -/
theorem Orderly.clear (orderly : clock.Orderly quiet fires issued) (handle : TimerHandle) :
    (clock.clear handle).2.Orderly quiet fires issued := by
  cases clock.clear_cases handle with
  | inl absent =>
      rw [absent.2.2]
      exact orderly
  | inr present =>
      obtain ⟨task, entered, _, same⟩ := present
      rw [same, abort_forget]
      apply (orderly.abort task).forget
      · rw [abort_active]
        exact entered
      · intro entry within
        exact (orderly.mem_abort_tasks within).2

theorem Active.of_clear {handle other : TimerHandle}
    (active : (clock.clear handle).2.Active other) : clock.Active other := by
  cases clock.clear_cases handle with
  | inl absent => rwa [absent.2.2] at active
  | inr present =>
      obtain ⟨task, _, _, same⟩ := present
      rw [same, Active, abort_active] at active
      exact Active.of_forget active

theorem Orderly.clear_passes (orderly : clock.Orderly quiet fires issued) (handle : TimerHandle) :
    Passes loyal clock (clock.clear handle).2 := by
  cases clock.clear_cases handle with
  | inl absent =>
      rw [absent.2.2]
      exact .refl clock
  | inr present =>
      obtain ⟨task, entered, _, same⟩ := present
      have aborted : Passes loyal (clock.forget handle) _ := (clock.forget handle).abort_passes task
      rw [same]
      constructor
      · exact aborted.running
      · exact aborted.doomed
      · intro _ running other runs known
        by_cases same : other = handle
        · subst same
          have owner := orderly.task_unique known entered
          right
          unfold TaskClock.abort
          rw [if_pos (owner ▸ runs)]
        · left
          rw [abort_active]
          exact List.mem_filter.2 ⟨known, by simpa using same⟩

theorem forget_passes (clock : TaskClock τ) (handle : TimerHandle) :
    Passes False clock (clock.forget handle) :=
  ⟨rfl, id, False.elim⟩

/-! ## Tasks run and stop -/

/-- If no task runs next, the queue is empty or begins with a task that is gone. -/
theorem takeReady_none_eq {taken : TaskClock τ} (ready : clock.takeReady = (none, taken)) :
    ∃ queue, taken = { clock with ready := queue } ∧
      ∀ task ∈ clock.ready, task ∈ clock.tasks.map Prod.fst → task ∈ queue := by
  unfold takeReady at ready
  split at ready
  next =>
    cases ready
    exact ⟨clock.ready, rfl, fun _ queued _ => queued⟩
  next first rest queue =>
    dsimp only at ready
    split at ready
    next missing =>
      cases ready
      refine ⟨rest, rfl, ?_⟩
      intro task queued listed
      rw [queue] at queued
      cases List.mem_cons.1 queued with
      | inl same =>
          subst same
          obtain ⟨entry, within, same⟩ := List.mem_map.1 listed
          exact absurd (by simpa using same) (List.find?_eq_none.1 missing entry within)
      | inr others => exact others
    next => cases ready

theorem takeReady_none_same {taken : TaskClock τ} (ready : clock.takeReady = (none, taken)) :
    SameTasks clock taken := by
  obtain ⟨queue, rfl, -⟩ := takeReady_none_eq ready
  exact ⟨rfl, rfl, rfl, rfl, rfl⟩

/-- The task that runs next is the first of the queue, and one of the tasks. -/
theorem takeReady_eq {taken : TaskClock τ} {task : Nat} {body : τ}
    (ready : clock.takeReady = (some (task, body), taken)) :
    (task, body) ∈ clock.tasks ∧ ∃ rest, clock.ready = task :: rest ∧
      taken = { clock with
        ready := rest
        tasks := clock.tasks.filter (·.1 ≠ task)
        running := some task
        doomed := false } := by
  unfold takeReady at ready
  split at ready
  next => cases ready
  next first rest queue =>
    dsimp only at ready
    split at ready
    next => cases ready
    next number found task_found =>
      cases ready
      have same : number = task := by simpa using List.find?_some task_found
      subst same
      exact ⟨List.mem_of_find?_eq_some task_found, rest, queue, rfl⟩

theorem Orderly.takeReady {taken : TaskClock τ} {task : Nat} {body : τ}
    (orderly : clock.Orderly quiet fires issued)
    (ready : clock.takeReady = (some (task, body), taken)) :
    taken.Orderly quiet fires issued ∧ taken.running = some task ∧ taken.doomed = false ∧
      taken.active = clock.active ∧
        (quiet body ∨ ∃ handle, fires handle body ∧ (handle, task) ∈ clock.active) := by
  obtain ⟨within, rest, -, rfl⟩ := takeReady_eq ready
  refine ⟨?_, rfl, rfl, rfl, orderly.owned _ within⟩
  constructor
  · exact orderly.issued
  · exact orderly.handles
  · intro entry left
    exact orderly.numbered entry (List.mem_of_mem_filter left)
  · intro running runs
    cases runs
    refine ⟨orderly.numbered _ within, ?_⟩
    intro entry left
    simpa using (List.mem_filter.1 left).2
  · intro entry left
    exact orderly.owned entry (List.mem_of_mem_filter left)

theorem retire_orderly (orderly : clock.Orderly quiet fires issued) (task : Nat) :
    (clock.retire task).Orderly quiet fires issued where
  issued := orderly.issued
  handles := orderly.handles
  numbered := orderly.numbered
  apart := by simp [retire]
  owned := orderly.owned

theorem putBack_orderly (orderly : clock.Orderly quiet fires issued) {task : Nat} {body : τ}
    (runs : clock.running = some task)
    (owned : quiet body ∨
      ∃ handle, fires handle body ∧ ((handle, task) ∈ clock.active ∨ clock.doomed = true)) :
    (clock.putBack task body).Orderly quiet fires issued := by
  unfold putBack
  split
  next =>
    constructor
    · exact orderly.issued
    · exact orderly.handles
    · exact orderly.numbered
    · intro running still
      cases still
    · exact orderly.owned
  next goesOn =>
    constructor
    · exact orderly.issued
    · exact orderly.handles
    · intro entry within
      cases List.mem_append.1 within with
      | inl old => exact orderly.numbered entry old
      | inr new =>
          cases List.mem_singleton.1 new
          exact (orderly.apart task runs).1
    · intro running still
      cases still
    · intro entry within
      cases List.mem_append.1 within with
      | inl old => exact orderly.owned entry old
      | inr new =>
          cases List.mem_singleton.1 new
          cases owned with
          | inl isQuiet => exact .inl isQuiet
          | inr owner =>
              obtain ⟨handle, firing, known⟩ := owner
              cases known with
              | inl entered => exact .inr ⟨handle, firing, entered⟩
              | inr doomed => exact (goesOn doomed).elim

theorem putBack_active (clock : TaskClock τ) (task : Nat) (body : τ) :
    (clock.putBack task body).active = clock.active := by
  unfold putBack
  split <;> rfl

theorem putBack_running (clock : TaskClock τ) (task : Nat) (body : τ) :
    (clock.putBack task body).running = none := by
  unfold putBack
  split <;> rfl

end TaskClock

end EffectLoop
