import EffectLoop.Proofs.Time.Entries

/-!
# The roster of a task clock

If nothing but schedules have tasks on a task clock, and each has one as long as it can be
cancelled, then the entries of the clock are a roster that says which task serves which schedule.
-/

namespace EffectLoop

namespace TaskClock

variable {τ : Type} {clock moved : TaskClock τ} {handle other : TimerHandle} {task number : Nat}
variable {body : τ}

/-- The task, with that body, serves the schedule. -/
def Posts (clock : TaskClock τ) (handle : TimerHandle) (task : Nat) (body : τ) : Prop :=
  (handle, task) ∈ clock.active ∧ (task, body) ∈ clock.tasks

/-- Each schedule has a task of its own, and there are no other tasks. -/
structure Staffed (clock : TaskClock τ) : Prop where
  handles : (clock.active.map Prod.fst).Nodup
  owners : (clock.active.map Prod.snd).Nodup
  numbers : (clock.tasks.map Prod.fst).Nodup
  numbered : ∀ task ∈ clock.tasks.map Prod.fst, task < clock.nextTask
  same : ∀ task, task ∈ clock.active.map Prod.snd ↔ task ∈ clock.tasks.map Prod.fst

/-- The task of the schedule is gone, and the schedule with it. -/
structure Concludes (clock : TaskClock τ) (handle : TimerHandle) (task : Nat)
    (moved : TaskClock τ) : Prop where
  now : moved.now = clock.now
  nextTask : moved.nextTask = clock.nextTask
  active : moved.active = clock.active.filter (·.1 ≠ handle)
  tasks : moved.tasks = clock.tasks.filter (·.1 ≠ task)
  ready : ∀ other ∈ clock.ready, other ≠ task → other ∈ moved.ready
  alarms : clock.alarms ⊆ moved.alarms

/-- The task goes on with a new body, and waits for an alarm. -/
structure Rebooks (clock : TaskClock τ) (task : Nat) (body : τ) (moment : Duration)
    (moved : TaskClock τ) : Prop where
  now : moved.now = clock.now
  nextTask : moved.nextTask = clock.nextTask
  active : moved.active = clock.active
  tasks : moved.tasks = clock.tasks.filter (·.1 ≠ task) ++ [(task, body)]
  ready : ∀ other ∈ clock.ready, other ≠ task → other ∈ moved.ready
  alarms : clock.alarms ⊆ moved.alarms
  alarmed : (moment, ⟨task, []⟩) ∈ moved.alarms

theorem setAlarm_of_whole {moment : Duration} (whole : moment.ceilMillis? = some moment)
    (waiter : Waiter) :
    clock.setAlarm moment waiter = { clock with alarms := clock.alarms ++ [(moment, waiter)] } := by
  rw [setAlarm, whole]
  rfl

section Running

variable {taken : TaskClock τ} (ready : clock.takeReady = (some (task, body), taken))
variable {queue : List Nat} (kept : taken.ready ⊆ queue)
include ready kept

/-- A task that is put back, and has an alarm, is rebooked. -/
theorem Rebooks.of_putBack {new : τ} {moment : Duration}
    (whole : moment.ceilMillis? = some moment) : clock.Rebooks task new moment
      ((setAlarm { taken with ready := queue } moment ⟨task, []⟩).putBack task new) := by
  obtain ⟨-, rest, queued, rfl⟩ := takeReady_eq ready
  rw [setAlarm_of_whole whole]
  constructor
  · rfl
  · rfl
  · rfl
  · rfl
  · intro other within apart
    rw [queued] at within
    exact kept ((List.mem_cons.1 within).resolve_left apart)
  · exact List.subset_append_left _ _
  · exact List.mem_append_right _ (List.mem_singleton_self _)

/-- A task that has forgotten its schedule, and is over, concludes it. -/
theorem Concludes.of_retire (handle : TimerHandle) : clock.Concludes handle task
    (retire { taken.forget handle with ready := queue } task) := by
  obtain ⟨-, rest, queued, rfl⟩ := takeReady_eq ready
  constructor
  · rfl
  · rfl
  · rfl
  · rfl
  · intro other within apart
    rw [queued] at within
    have still : other ∈ queue := kept ((List.mem_cons.1 within).resolve_left apart)
    exact List.mem_filter.2 ⟨still, by simpa using apart⟩
  · exact List.Subset.refl _

end Running

/-- While no task is running, a cancellation removes the task. -/
theorem Concludes.of_clear (stands : clock.running = none) (handle : TimerHandle) (task : Nat) :
    clock.Concludes handle task ((clock.forget handle).abort task) := by
  have removes : (clock.forget handle).abort task = { clock.forget handle with
      tasks := clock.tasks.filter (·.1 ≠ task)
      ready := clock.ready.filter (· ≠ task) } := by
    have other : (clock.forget handle).running ≠ some task := by
      change clock.running ≠ some task
      rw [stands]
      exact nofun
    rw [abort, if_neg other]
    rfl
  rw [removes]
  constructor
  · rfl
  · rfl
  · rfl
  · rfl
  · intro other within apart
    exact List.mem_filter.2 ⟨within, by simpa using apart⟩
  · exact List.Subset.refl _

namespace Staffed

variable (staffed : clock.Staffed)
include staffed

theorem exists_posts_of_active (entered : (handle, task) ∈ clock.active) :
    ∃ body, clock.Posts handle task body := by
  obtain ⟨⟨number, body⟩, listed, rfl⟩ :=
    List.mem_map.1 ((staffed.same task).1 (List.mem_map_of_mem entered))
  exact ⟨body, entered, listed⟩

theorem exists_posts_of_task (listed : (task, body) ∈ clock.tasks) :
    ∃ handle, clock.Posts handle task body := by
  obtain ⟨⟨handle, number⟩, entered, rfl⟩ :=
    List.mem_map.1 ((staffed.same task).2 (List.mem_map_of_mem listed))
  exact ⟨handle, entered, listed⟩

theorem task_lt (posts : clock.Posts handle task body) : task < clock.nextTask :=
  staffed.numbered task (List.mem_map_of_mem posts.2)

/-- A schedule has one task only, and a task one schedule. -/
theorem task_eq {rest : τ} (posts : clock.Posts handle task body)
    (also : clock.Posts handle number rest) : task = number :=
  congrArg Prod.snd (List.inj_on_of_nodup_map staffed.handles posts.1 also.1 rfl)

theorem handle_eq {rest : τ} (posts : clock.Posts handle task body)
    (also : clock.Posts other task rest) : handle = other :=
  congrArg Prod.fst (List.inj_on_of_nodup_map staffed.owners posts.1 also.1 rfl)

/-! ### Changes of the roster -/

theorem posts_enter {rest new : τ} :
    Posts ((clock.issue.2.spawn new).2.register ⟨clock.issued + 1⟩ clock.nextTask) handle task
        rest ↔
      clock.Posts handle task rest ∨
        handle = ⟨clock.issued + 1⟩ ∧ task = clock.nextTask ∧ rest = new := by
  change (handle, task) ∈ clock.active ++ [(⟨clock.issued + 1⟩, clock.nextTask)] ∧
    (task, rest) ∈ clock.tasks ++ [(clock.nextTask, new)] ↔ _
  simp only [List.mem_append, List.mem_singleton, Prod.mk.injEq]
  constructor
  · rintro ⟨entered | ⟨rfl, next⟩, listed | ⟨last, rfl⟩⟩
    · exact .inl ⟨entered, listed⟩
    · obtain ⟨body, posts⟩ := staffed.exists_posts_of_active entered
      exact absurd last (Nat.ne_of_lt (staffed.task_lt posts))
    · obtain ⟨handle, posts⟩ := staffed.exists_posts_of_task listed
      exact absurd next (Nat.ne_of_lt (staffed.task_lt posts))
    · exact .inr ⟨rfl, next, rfl⟩
  · rintro (⟨entered, listed⟩ | ⟨rfl, rfl, rfl⟩)
    · exact ⟨.inl entered, .inl listed⟩
    · exact ⟨.inr ⟨rfl, rfl⟩, .inr ⟨rfl, rfl⟩⟩

theorem enter (fresh : ¬clock.Active ⟨clock.issued + 1⟩) (new : τ) :
    ((clock.issue.2.spawn new).2.register ⟨clock.issued + 1⟩ clock.nextTask).Staffed where
  handles := by
    change ((clock.active ++ [_]).map Prod.fst).Nodup
    rw [List.map_append, List.nodup_append]
    refine ⟨staffed.handles, List.nodup_singleton _, ?_⟩
    intro old known new made same
    cases List.mem_singleton.1 made
    rw [same] at known
    exact fresh (active_iff.2 known)
  owners := by
    change ((clock.active ++ [_]).map Prod.snd).Nodup
    rw [List.map_append, List.nodup_append]
    refine ⟨staffed.owners, List.nodup_singleton _, ?_⟩
    intro old known new made
    cases List.mem_singleton.1 made
    exact Nat.ne_of_lt (staffed.numbered old ((staffed.same old).1 known))
  numbers := by
    change ((clock.tasks ++ [_]).map Prod.fst).Nodup
    rw [List.map_append, List.nodup_append]
    refine ⟨staffed.numbers, List.nodup_singleton _, ?_⟩
    intro old known new made
    cases List.mem_singleton.1 made
    exact Nat.ne_of_lt (staffed.numbered old known)
  numbered := by
    intro task known
    change task ∈ (clock.tasks ++ [_]).map Prod.fst at known
    change task < clock.nextTask + 1
    rw [List.map_append] at known
    cases List.mem_append.1 known with
    | inl old => exact Nat.lt_succ_of_lt (staffed.numbered task old)
    | inr made =>
        cases List.mem_singleton.1 made
        exact Nat.lt_succ_self _
  same := by
    intro task
    change task ∈ (clock.active ++ [_]).map Prod.snd ↔ task ∈ (clock.tasks ++ [_]).map Prod.fst
    rw [List.map_append, List.map_append, List.mem_append, List.mem_append, staffed.same]
    rfl

theorem posts_concludes {rest : τ} (posts : clock.Posts handle task body)
    (concludes : clock.Concludes handle task moved) :
    moved.Posts other number rest ↔ clock.Posts other number rest ∧ other ≠ handle := by
  rw [Posts, concludes.active, concludes.tasks]
  simp only [List.mem_filter, decide_eq_true_eq]
  constructor
  · rintro ⟨⟨entered, different⟩, ⟨listed, -⟩⟩
    exact ⟨⟨entered, listed⟩, different⟩
  · rintro ⟨also, different⟩
    refine ⟨⟨also.1, different⟩, also.2, ?_⟩
    rintro rfl
    exact different (staffed.handle_eq also posts)

theorem concludes (posts : clock.Posts handle task body)
    (concludes : clock.Concludes handle task moved) : moved.Staffed where
  handles := by
    rw [concludes.active]
    exact staffed.handles.sublist (List.filter_sublist.map _)
  owners := by
    rw [concludes.active]
    exact staffed.owners.sublist (List.filter_sublist.map _)
  numbers := by
    rw [concludes.tasks]
    exact staffed.numbers.sublist (List.filter_sublist.map _)
  numbered := by
    rw [concludes.tasks, concludes.nextTask]
    intro number known
    exact staffed.numbered number ((List.filter_sublist.map _).subset known)
  same := by
    intro number
    constructor
    · intro known
      obtain ⟨⟨other, _⟩, entered, rfl⟩ := List.mem_map.1 known
      rw [concludes.active] at entered
      obtain ⟨old, different⟩ := List.mem_filter.1 entered
      obtain ⟨rest, also⟩ := staffed.exists_posts_of_active old
      have kept := (staffed.posts_concludes posts concludes).2 ⟨also, by simpa using different⟩
      exact List.mem_map_of_mem kept.2
    · intro known
      obtain ⟨⟨_, rest⟩, listed, rfl⟩ := List.mem_map.1 known
      rw [concludes.tasks] at listed
      obtain ⟨old, different⟩ := List.mem_filter.1 listed
      obtain ⟨other, also⟩ := staffed.exists_posts_of_task old
      have apart : other ≠ handle := by
        rintro rfl
        simp [staffed.task_eq also posts] at different
      have kept := (staffed.posts_concludes posts concludes).2 ⟨also, apart⟩
      exact List.mem_map_of_mem kept.1

theorem posts_rebooks {rest : τ} {new : τ} {moment : Duration}
    (posts : clock.Posts handle task body) (rebooks : clock.Rebooks task new moment moved) :
    moved.Posts other number rest ↔ clock.Posts other number rest ∧ other ≠ handle ∨
      other = handle ∧ number = task ∧ rest = new := by
  rw [Posts, rebooks.active, rebooks.tasks]
  simp only [List.mem_append, List.mem_filter, decide_eq_true_eq, List.mem_singleton,
    Prod.mk.injEq]
  constructor
  · rintro ⟨entered, ⟨listed, different⟩ | ⟨rfl, rfl⟩⟩
    · refine .inl ⟨⟨entered, listed⟩, ?_⟩
      rintro rfl
      exact different (staffed.task_eq ⟨entered, listed⟩ posts)
    · have same : other = handle := congrArg Prod.fst
        (List.inj_on_of_nodup_map staffed.owners entered posts.1 rfl)
      exact .inr ⟨same, rfl, rfl⟩
  · rintro (⟨⟨entered, listed⟩, different⟩ | ⟨rfl, rfl, rfl⟩)
    · refine ⟨entered, .inl ⟨listed, ?_⟩⟩
      rintro rfl
      exact different (staffed.handle_eq ⟨entered, listed⟩ posts)
    · exact ⟨posts.1, .inr ⟨rfl, rfl⟩⟩

theorem rebooks {new : τ} {moment : Duration} (posts : clock.Posts handle task body)
    (rebooks : clock.Rebooks task new moment moved) : moved.Staffed where
  handles := by
    rw [rebooks.active]
    exact staffed.handles
  owners := by
    rw [rebooks.active]
    exact staffed.owners
  numbers := by
    rw [rebooks.tasks, List.map_append, List.nodup_append]
    refine ⟨staffed.numbers.sublist (List.filter_sublist.map _), List.nodup_singleton _, ?_⟩
    rintro old known again made rfl
    cases List.mem_singleton.1 made
    obtain ⟨entry, listed, same⟩ := List.mem_map.1 known
    simp [same] at listed
  numbered := by
    rw [rebooks.tasks, rebooks.nextTask, List.map_append]
    intro number known
    cases List.mem_append.1 known with
    | inl old => exact staffed.numbered number ((List.filter_sublist.map _).subset old)
    | inr same =>
        cases List.mem_singleton.1 same
        exact staffed.task_lt posts
  same := by
    intro number
    rw [rebooks.active, rebooks.tasks, staffed.same, List.map_append, List.mem_append]
    constructor
    · intro known
      by_cases same : number = task
      · exact .inr (List.mem_singleton.2 same)
      · obtain ⟨entry, listed, rfl⟩ := List.mem_map.1 known
        exact .inl (List.mem_map_of_mem (List.mem_filter.2 ⟨listed, by simpa using same⟩))
    · rintro (old | same)
      · exact (List.filter_sublist.map _).subset old
      · rw [List.mem_singleton.1 same]
        exact List.mem_map.2 ⟨_, posts.2, rfl⟩

end Staffed

end TaskClock

end EffectLoop
