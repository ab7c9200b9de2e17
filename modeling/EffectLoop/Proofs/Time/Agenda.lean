import EffectLoop.Proofs.Time.Chronicle
import EffectLoop.Proofs.Time.Roster

/-!
# The agenda of a task clock

What is set for the schedules of a task clock can be read off the tasks that serve them.  The clock
is attentive if every task that is not ready waits for an alarm.  Then no time that is set is
missed: the clock does not move while a task is ready, and does not pass an alarm.  So whatever a
task does for its schedule is done at the time that is set.
-/

namespace EffectLoop

/-! ## What is set -/

/-- How tasks serve schedules. -/
structure Service (τ : Type) where
  /-- What is set for the schedule of the task, at the given time. -/
  sets : Duration → τ → Option Appointment
  /-- The task is as it should be for the schedule, at the given time. -/
  fits : Duration → TimerHandle → τ → Prop
  /-- The task waits for a moment. -/
  waits : Duration → τ → Prop
  sets_of_fits : ∀ {now handle body}, fits now handle body →
    ∃ appointment, sets now body = some appointment ∧ appointment.handle = handle
  due_of_waits : ∀ {moment now body appointment}, waits moment body →
    sets now body = some appointment → appointment.due = moment.nanos
  sets_of_waits : ∀ {moment body} (now later : Duration), waits moment body →
    sets now body = sets later body
  fits_of_waits : ∀ {moment handle body} {now : Duration} (later : Duration), waits moment body →
    fits now handle body → fits later handle body

namespace TaskClock

variable {τ : Type} {clock moved : TaskClock τ} {handle other : TimerHandle} {task number : Nat}
variable {service : Service τ} {body new : τ} {moment : Duration}

/-- What is set for the schedules of a clock. -/
def agenda (service : Service τ) (clock : TaskClock τ) : Set Appointment :=
  {appointment | ∃ task body, clock.Posts appointment.handle task body ∧
    service.sets clock.now body = some appointment}

/-- Every task serves its schedule as it should, and is ready or waits for an alarm. -/
structure Attentive (service : Service τ) (clock : TaskClock τ) : Prop extends clock.Staffed where
  fits : ∀ handle task body, clock.Posts handle task body → service.fits clock.now handle body
  awake : ∀ handle task body, clock.Posts handle task body → task ∈ clock.ready ∨
    ∃ moment, service.waits moment body ∧ (moment, ⟨task, []⟩) ∈ clock.alarms

/-- The clock moves to a moment, and whatever waits for an alarm up to it is woken. -/
structure Rings (clock : TaskClock τ) (moment : Duration) (moved : TaskClock τ) : Prop where
  now : moved.now = moment
  nextTask : moved.nextTask = clock.nextTask
  active : moved.active = clock.active
  tasks : moved.tasks = clock.tasks
  woken : ∀ due task body, (task, body) ∈ clock.tasks → (due, ⟨task, []⟩) ∈ clock.alarms →
    due ≤ moment → task ∈ moved.ready
  alarms : ∀ alarm ∈ clock.alarms, ¬alarm.1 ≤ moment → alarm ∈ moved.alarms

/-- What a task has done for its schedule when it has run: whether it has fired it, what is set now,
and that it waits for that. -/
inductive Serves (service : Service τ) (clock : TaskClock τ) (handle : TimerHandle) (task : Nat)
    (appointment : Appointment) (moved : TaskClock τ) : (fired : List TimerHandle) → Prop where
  /-- It was not due. -/
  | waits {new : τ} {moment : Duration} : clock.Rebooks task new moment moved →
      service.sets clock.now new = some appointment → service.fits clock.now handle new →
      service.waits moment new → Serves service clock handle task appointment moved []
  | ends : appointment.due ≤ clock.now.nanos → appointment.period = none →
      clock.Concludes handle task moved →
      Serves service clock handle task appointment moved [handle]
  | recurs {new : τ} {moment : Duration} {next : Appointment} :
      appointment.due ≤ clock.now.nanos → appointment.next? = some next →
      clock.Rebooks task new moment moved → service.sets clock.now new = some next →
      service.fits clock.now handle new → service.waits moment new →
      Serves service clock handle task appointment moved [handle]

/-- No alarm of a task that still exists is passed. -/
def Reaches (clock : TaskClock τ) (moment : Duration) : Prop :=
  ∀ alarm ∈ clock.alarms, alarm.2.root ∈ clock.tasks.map Prod.fst → moment ≤ alarm.1

instance : Decidable (clock.Reaches moment) :=
  inferInstanceAs (Decidable (∀ alarm ∈ clock.alarms, _ → _))

theorem initial_attentive : (initial : TaskClock τ).Attentive service where
  handles := .nil
  owners := .nil
  numbers := .nil
  numbered _ within := (List.not_mem_nil within).elim
  same _ := .rfl
  fits _ _ _ posts := (List.not_mem_nil posts.1).elim
  awake _ _ _ posts := (List.not_mem_nil posts.1).elim

theorem initial_agenda : (initial : TaskClock τ).agenda service = ∅ := by
  ext appointment
  simp [agenda, Posts, initial]

theorem Rings.posts (rings : clock.Rings moment moved) :
    moved.Posts handle task body ↔ clock.Posts handle task body := by
  rw [Posts, rings.active, rings.tasks]
  rfl

namespace Attentive

variable (attentive : clock.Attentive service)
include attentive

/-- Whatever can be cancelled is on the agenda. -/
theorem exists_appointment (posts : clock.Posts handle task body) :
    ∃ appointment, service.sets clock.now body = some appointment ∧ appointment.handle = handle ∧
      appointment ∈ clock.agenda service := by
  obtain ⟨appointment, sets, named⟩ := service.sets_of_fits (attentive.fits _ _ _ posts)
  exact ⟨appointment, sets, named, task, body, named ▸ posts, sets⟩

/-! ### Calls -/

theorem agenda_enter {first : Appointment} (handle : first.handle = ⟨clock.issued + 1⟩)
    (sets : service.sets clock.now new = some first) :
    ((clock.issue.2.spawn new).2.register ⟨clock.issued + 1⟩ clock.nextTask).agenda service =
      {other | other ∈ clock.agenda service ∨ other = first} := by
  ext other
  change (∃ task body, _ ∧ service.sets clock.now body = some other) ↔ _
  simp only [attentive.posts_enter]
  constructor
  · rintro ⟨task, body, old | ⟨-, -, rfl⟩, shown⟩
    · exact .inl ⟨task, body, old, shown⟩
    · rw [sets] at shown
      cases shown
      exact .inr rfl
  · rintro (⟨task, body, old, shown⟩ | rfl)
    · exact ⟨task, body, .inl old, shown⟩
    · exact ⟨_, _, .inr ⟨handle, rfl, rfl⟩, sets⟩

theorem enter (fresh : ¬clock.Active ⟨clock.issued + 1⟩)
    (fits : service.fits clock.now ⟨clock.issued + 1⟩ new) :
    ((clock.issue.2.spawn new).2.register ⟨clock.issued + 1⟩ clock.nextTask).Attentive service where
  toStaffed := attentive.toStaffed.enter fresh new
  fits := by
    intro handle task body posts
    cases attentive.posts_enter.1 posts with
    | inl old => exact attentive.fits handle task body old
    | inr same =>
        obtain ⟨rfl, -, rfl⟩ := same
        exact fits
  awake := by
    intro handle task body posts
    change task ∈ clock.ready ++ [clock.nextTask] ∨ ∃ moment, _ ∧ _ ∈ clock.alarms
    cases attentive.posts_enter.1 posts with
    | inl old => exact (attentive.awake handle task body old).imp_left (List.mem_append_left _)
    | inr same =>
        obtain ⟨-, rfl, -⟩ := same
        exact .inl (List.mem_append_right _ (List.mem_singleton_self _))

/-! ### Tasks -/

/-- It does not matter what else is ready. -/
theorem requeue {queue : List Nat}
    (kept : ∀ task ∈ clock.ready, task ∈ clock.tasks.map Prod.fst → task ∈ queue) :
    ({ clock with ready := queue } : TaskClock τ).Attentive service where
  handles := attentive.handles
  owners := attentive.owners
  numbers := attentive.numbers
  numbered := attentive.numbered
  same := attentive.same
  fits := attentive.fits
  awake := by
    intro handle task body posts
    apply (attentive.awake handle task body posts).imp_left
    intro ready
    exact kept task ready (List.mem_map_of_mem posts.2)

theorem agenda_concludes (posts : clock.Posts handle task body)
    (concludes : clock.Concludes handle task moved) :
    moved.agenda service = {other | other ∈ clock.agenda service ∧ other.handle ≠ handle} := by
  ext other
  simp only [agenda, attentive.posts_concludes posts concludes, concludes.now, Set.mem_ofPred_eq]
  constructor
  · rintro ⟨task, body, ⟨old, different⟩, shown⟩
    exact ⟨⟨task, body, old, shown⟩, different⟩
  · rintro ⟨⟨task, body, old, shown⟩, different⟩
    exact ⟨task, body, ⟨old, different⟩, shown⟩

theorem concludes (posts : clock.Posts handle task body)
    (concludes : clock.Concludes handle task moved) : moved.Attentive service where
  toStaffed := attentive.toStaffed.concludes posts concludes
  fits := by
    intro other number rest kept
    rw [concludes.now]
    exact attentive.fits other number rest
      ((attentive.posts_concludes posts concludes).1 kept).1
  awake := by
    intro other number rest kept
    obtain ⟨old, different⟩ := (attentive.posts_concludes posts concludes).1 kept
    have apart : number ≠ task := by
      rintro rfl
      exact different (attentive.handle_eq old posts)
    cases attentive.awake other number rest old with
    | inl ready => exact .inl (concludes.ready number ready apart)
    | inr waiting =>
        obtain ⟨moment, waits, alarm⟩ := waiting
        exact .inr ⟨moment, waits, concludes.alarms alarm⟩

theorem agenda_rebooks (posts : clock.Posts handle task body)
    (rebooks : clock.Rebooks task new moment moved) {next : Appointment}
    (named : next.handle = handle) (sets : service.sets clock.now new = some next) :
    moved.agenda service = {other | other ∈ clock.agenda service ∧ other.handle ≠ handle ∨
      other = next} := by
  ext other
  simp only [agenda, attentive.posts_rebooks posts rebooks, rebooks.now, Set.mem_ofPred_eq]
  constructor
  · rintro ⟨task, body, ⟨old, different⟩ | ⟨-, -, rfl⟩, shown⟩
    · exact .inl ⟨⟨task, body, old, shown⟩, different⟩
    · rw [sets] at shown
      cases shown
      exact .inr rfl
  · rintro (⟨⟨task, body, old, shown⟩, different⟩ | rfl)
    · exact ⟨task, body, .inl ⟨old, different⟩, shown⟩
    · exact ⟨_, _, .inr ⟨named, rfl, rfl⟩, sets⟩

theorem rebooks (posts : clock.Posts handle task body)
    (rebooks : clock.Rebooks task new moment moved) (fits : service.fits clock.now handle new)
    (waits : service.waits moment new) : moved.Attentive service where
  toStaffed := attentive.toStaffed.rebooks posts rebooks
  fits := by
    intro other number rest kept
    rw [rebooks.now]
    cases (attentive.posts_rebooks posts rebooks).1 kept with
    | inl old => exact attentive.fits other number rest old.1
    | inr same =>
        obtain ⟨rfl, -, rfl⟩ := same
        exact fits
  awake := by
    intro other number rest kept
    cases (attentive.posts_rebooks posts rebooks).1 kept with
    | inl old =>
        have apart : number ≠ task := by
          rintro rfl
          exact old.2 (attentive.handle_eq old.1 posts)
        cases attentive.awake other number rest old.1 with
        | inl ready => exact .inl (rebooks.ready number ready apart)
        | inr waiting =>
            obtain ⟨due, waits, alarm⟩ := waiting
            exact .inr ⟨due, waits, rebooks.alarms alarm⟩
    | inr same =>
        obtain ⟨-, rfl, rfl⟩ := same
        exact .inr ⟨moment, waits, rebooks.alarmed⟩

/-- If what was set before was observed, so is what is set once the task has run. -/
theorem serves {chronicle : Chronicle} {appointment : Appointment} {fired : List TimerHandle}
    (punctual : Punctual chronicle clock.now.nanos (clock.agenda service))
    (posts : clock.Posts handle task body) (sets : service.sets clock.now body = some appointment)
    (named : appointment.handle = handle)
    (serves : clock.Serves service handle task appointment moved fired) :
    moved.Attentive service ∧ moved.now = clock.now ∧
      Punctual (fired.map (⟨clock.now.nanos, .fired ·⟩) ++ chronicle) clock.now.nanos
        (moved.agenda service) := by
  have within : appointment ∈ clock.agenda service := ⟨task, body, named ▸ posts, sets⟩
  have accounted := punctual.accounted
  have timely := accounted.timely appointment within
  cases serves with
  | waits rebooks sets fits waits =>
      refine ⟨attentive.rebooks posts rebooks fits waits, rebooks.now, ?_⟩
      have same : moved.agenda service = clock.agenda service := by
        rw [attentive.agenda_rebooks posts rebooks named sets]
        ext other
        constructor
        · rintro (old | rfl)
          · exact old.1
          · exact within
        · intro old
          by_cases also : other.handle = handle
          · exact .inr (accounted.unique other old appointment within (also.trans named.symm))
          · exact .inl ⟨old, also⟩
      rw [same]
      exact punctual
  | ends due single concludes =>
      refine ⟨attentive.concludes posts concludes, concludes.now, ?_⟩
      have last : appointment.next? = none := by rw [Appointment.next?, single, Option.map_none]
      have fires := punctual.fired within (due.antisymm timely)
      rw [attentive.agenda_concludes posts concludes]
      simp only [last, named, reduceCtorEq, or_false] at fires
      exact fires
  | @recurs _ _ next due again rebooks sets fits waits =>
      refine ⟨attentive.rebooks posts rebooks fits waits, rebooks.now, ?_⟩
      have fires := punctual.fired within (due.antisymm timely)
      have follows : next.handle = handle := by
        obtain ⟨period, -, rfl⟩ := Appointment.next?_eq_some_iff.1 again
        exact named
      rw [attentive.agenda_rebooks posts rebooks follows sets]
      simp only [again, named, Option.some.injEq, @eq_comm _ next] at fires
      exact fires

/-! ### The clock moves -/

/-- If no task is ready, every task waits for an alarm. -/
theorem waits_of_idle (idle : clock.ready = []) (posts : clock.Posts handle task body) :
    ∃ moment, service.waits moment body ∧ (moment, ⟨task, []⟩) ∈ clock.alarms := by
  cases attentive.awake handle task body posts with
  | inl ready =>
      rw [idle] at ready
      cases ready
  | inr waiting => exact waiting

/-- The clock passes nothing that is set. -/
theorem le_due_of_reaches (idle : clock.ready = []) (reaches : clock.Reaches moment) :
    ∀ appointment ∈ clock.agenda service, moment.nanos ≤ appointment.due := by
  rintro appointment ⟨task, body, posts, sets⟩
  obtain ⟨due, waits, alarm⟩ := attentive.waits_of_idle idle posts
  rw [service.due_of_waits waits sets]
  exact reaches _ alarm (List.mem_map.2 ⟨_, posts.2, rfl⟩)

theorem agenda_rings (idle : clock.ready = []) (rings : clock.Rings moment moved) :
    moved.agenda service = clock.agenda service := by
  ext other
  simp only [agenda, rings.posts, Set.mem_ofPred_eq]
  constructor
  · rintro ⟨task, body, posts, sets⟩
    obtain ⟨due, waits, -⟩ := attentive.waits_of_idle idle posts
    exact ⟨task, body, posts, (service.sets_of_waits _ _ waits).trans sets⟩
  · rintro ⟨task, body, posts, sets⟩
    obtain ⟨due, waits, -⟩ := attentive.waits_of_idle idle posts
    exact ⟨task, body, posts, (service.sets_of_waits _ _ waits).trans sets⟩

theorem rings (idle : clock.ready = []) (rings : clock.Rings moment moved) :
    moved.Attentive service where
  handles := by
    rw [rings.active]
    exact attentive.handles
  owners := by
    rw [rings.active]
    exact attentive.owners
  numbers := by
    rw [rings.tasks]
    exact attentive.numbers
  numbered := by
    rw [rings.tasks, rings.nextTask]
    exact attentive.numbered
  same := by
    rw [rings.active, rings.tasks]
    exact attentive.same
  fits := by
    intro handle task body posts
    have old := rings.posts.1 posts
    obtain ⟨due, waits, -⟩ := attentive.waits_of_idle idle old
    exact service.fits_of_waits _ waits (attentive.fits handle task body old)
  awake := by
    intro handle task body posts
    have old := rings.posts.1 posts
    obtain ⟨due, waits, alarm⟩ := attentive.waits_of_idle idle old
    by_cases come : due ≤ moment
    · exact .inl (rings.woken due task body old.2 alarm come)
    · exact .inr ⟨due, waits, rings.alarms _ alarm come⟩

end Attentive

end TaskClock

end EffectLoop
