import EffectLoop.Proofs.Time.Agenda
import EffectLoop.Proofs.World.Allowance
import EffectLoop.Proofs.World.Families
import EffectLoop.Proofs.World.Registration

/-!
# The tasks of schedules at work

The task of a schedule sleeps until its due time, or recurs over and over, and otherwise waits.  If
the work of the schedule is over in one poll and leaves the scheduler alone, then a poll of the task
either waits on, or fires the schedule once and is over, or fires it once and waits for a period.
-/

namespace EffectLoop

variable {S ι : Type} {Action : ι → Type} {A : Type} {alphabet : ι}

/-- The schedule that an event says has fired. -/
def Event.fired? : Event S A → Option TimerHandle
  | log (.timeoutFired handle) | log (.intervalFired handle) => some handle
  | _ => none

/-- The schedules that a trace says have fired, the latest first. -/
def fired (trace : List (Event S A)) : List TimerHandle := trace.filterMap Event.fired?

@[simp] theorem fired_append (recent older : List (Event S A)) :
    fired (recent ++ older) = fired recent ++ fired older :=
  List.filterMap_append

/-! ## Shapes of tasks -/

namespace Pending

/-- A schedule that fires once, waiting for its moment. -/
abbrev expectant (handle : TimerHandle) (moment : Duration) (work : Pending S Action A .finished) :
    Pending S Action A .finished :=
  .resumeAt moment (.call (.forget handle) fun _ => .logging (.timeoutFired handle) work)

/-- A schedule that fires over and over, waiting for its next moment. -/
abbrev recurrent (handle : TimerHandle) (period due : Duration)
    (work : Pending S Action A .finished) : Pending S Action A .finished :=
  .interval handle period due work fun nothing : Fin 0 => nothing.elim0

/-- What is set for the schedule of a task. -/
def appointment? (now : Duration) : Pending S Action A .finished → Option Appointment
  | .call (.deadline delay) next =>
      (next .zero).expiring?.map fun handle => ⟨handle, now.nanos + delay.nanos, none⟩
  | .resumeAt moment next => next.expiring?.map fun handle => ⟨handle, moment.nanos, none⟩
  | .interval handle period due _ _ => some ⟨handle, due.nanos, some period.nanos⟩
  | _ => none

/-- The moment for which a task waits. -/
def awaited? : Pending S Action A .finished → Option Duration
  | .resumeAt moment _ => some moment
  | .interval _ _ due _ _ => some due
  | _ => none

/-- A task as it should be for a schedule that is due on a whole millisecond. -/
inductive Fits (now : Duration) (handle : TimerHandle) : Pending S Action A .finished → Prop where
  | sleeps {delay : Duration} (work : Pending S Action A .finished) :
      Duration.millisecond ∣ now.nanos + delay.nanos →
      now.nanos + delay.nanos < TaskClock.momentLimit →
      Fits now handle (Run.oneShot handle delay work)
  | waits {moment : Duration} (work : Pending S Action A .finished) :
      Duration.millisecond ∣ moment.nanos → Fits now handle (expectant handle moment work)
  | recurs {period due : Duration} (work : Pending S Action A .finished) :
      Duration.millisecond ∣ due.nanos → Duration.millisecond ∣ period.nanos → 0 < period.nanos →
      period.nanos < TaskClock.momentLimit →
      Fits now handle (recurrent handle period due work)

end Pending

namespace LocalTask

/-- What is set for the schedule of a task. -/
def appointment? (now : Duration) : LocalTask S Action A → Option Appointment
  | background body => body.appointment? now
  | root _ _ => none

/-- The moment for which a task waits. -/
def awaited? : LocalTask S Action A → Option Duration
  | background body => body.awaited?
  | root _ _ => none

/-- A task as it should be for a schedule. -/
inductive Fits (now : Duration) (handle : TimerHandle) : LocalTask S Action A → Prop where
  | background {body : Pending S Action A .finished} : body.Fits now handle →
      Fits now handle (background body)

end LocalTask

/-- The tasks of schedules. -/
def Service.timers : Service (LocalTask S Action A) where
  sets := LocalTask.appointment?
  fits := LocalTask.Fits
  waits moment task := task.awaited? = some moment
  sets_of_fits := by
    rintro now handle _ ⟨fits⟩
    cases fits with
    | sleeps | waits | recurs => exact ⟨_, rfl, rfl⟩
  due_of_waits := by
    rintro moment now (body | _) appointment waits sets
    · cases body with
      | resumeAt =>
          cases waits
          obtain ⟨handle, -, rfl⟩ := Option.map_eq_some_iff.1 sets
          rfl
      | interval =>
          cases waits
          cases sets
          rfl
      | _ => cases waits
    · cases waits
  sets_of_waits := by
    rintro moment (body | _) now later waits
    · cases body with
      | resumeAt | interval => rfl
      | _ => cases waits
    · cases waits
  fits_of_waits := by
    rintro moment handle _ now later waits ⟨fits⟩
    cases fits with
    | sleeps => cases waits
    | waits work whole => exact ⟨.waits work whole⟩
    | recurs work whole wholePeriod positive early =>
        exact ⟨.recurs work whole wholePeriod positive early⟩

/-! ## Work -/

namespace Pending

/-- A poll of the task calls the work once the moment has come, after what the task does first. -/
inductive Calls (clock : TaskClock (LocalTask S Action A)) : Pending S Action A .finished →
    Duration → Run S Action A Unit → Pending S Action A .finished → Prop where
  | once {handle moment body work} : Defers clock handle work moment body →
      Calls clock body moment (Run.expire handle) work
  | repeatedly {handle period due work} : Calls clock (recurrent handle period due work) due
      (Run.emit (.log (.intervalFired handle))) work

/-- A schedule that fires once calls its own work. -/
theorem Calls.of_oneShot {clock : TaskClock (LocalTask S Action A)} {handle : TimerHandle}
    {delay moment : Duration} {first : Run S Action A Unit}
    {work called : Pending S Action A .finished}
    (calls : (Run.oneShot handle delay work).Calls clock moment first called) :
    first = Run.expire handle ∧ called = work := by
  generalize same : Run.oneShot handle delay work = body at calls
  cases calls with
  | once defers =>
      cases defers with
      | sleeps other =>
          injection same with _ effects nexts
          cases effects
          injection congrFun nexts Duration.zero with _ _ forgets
          injection forgets with _ handles rest
          cases handles
          injection congrFun rest () with _ _ works
          exact ⟨rfl, (congrFun works ()).symm⟩
      | waits => cases same
  | repeatedly => cases same

/-- The work is over in one poll, and does not call the scheduler; it may wake tasks. -/
inductive BriefIn (engine : Engine S Action A) (waiter : Waiter) (world : World S Action A)
    (work : Pending S Action A .finished) : Prop where
  | intro {clock : TaskClock (LocalTask S Action A)} {after : World S Action A}
      {recent : List (Event S A)} {queue : List Nat} : world.keeper = .tasks clock →
      work.poll engine waiter world = (.ok (.done ()), after) →
      after.keeper = .tasks { clock with ready := queue } → clock.ready ⊆ queue →
      after.trace = recent ++ world.trace → fired recent = [] → BriefIn engine waiter world work

end Pending

/-! ## Polls -/

theorem Duration.ceilMillis?_of_dvd {value : Duration} (whole : millisecond ∣ value.nanos) :
    value.ceilMillis? = some value := by
  obtain ⟨count, same⟩ := whole
  rw [ceilMillis?, ofMillis?, ofNanos?_eq_some_iff, same]
  simp only [millisecond]
  omega

namespace TaskClock

variable {τ : Type} {clock : TaskClock τ} {delay period due : Duration}

theorem moment?_eq_some_iff {moment : Duration} : clock.moment? delay = some moment ↔
    moment.nanos = clock.now.nanos + delay.nanos ∧
      clock.now.nanos + delay.nanos < momentLimit := by
  unfold moment?
  split
  next early => rw [Duration.ofNanos?_eq_some_iff, and_iff_left early]
  next late => simp [late]

theorem moment_nanos (early : clock.now.nanos + delay.nanos < momentLimit) :
    (clock.moment delay).nanos = clock.now.nanos + delay.nanos := by
  have below : clock.now.nanos + delay.nanos < Duration.limit := early.trans (by decide)
  have found : clock.moment? delay = some ⟨clock.now.nanos + delay.nanos, below⟩ :=
    moment?_eq_some_iff.2 ⟨rfl, early⟩
  rw [moment, found]
  rfl

/-- An interval that fires on time is due next a period later. -/
theorem nextDue_nanos (onTime : clock.now = due) (early : due.nanos < momentLimit)
    (short : period.nanos < momentLimit) :
    (clock.nextDue period due).nanos = due.nanos + period.nanos := by
  have below : due.nanos + period.nanos < Duration.limit := by
    have twice : momentLimit + momentLimit = Duration.limit := by decide
    omega
  have sum : due.add? period = some ⟨due.nanos + period.nanos, below⟩ :=
    Duration.add?_eq_some_iff.2 rfl
  have prompt : ¬due.nanos + tolerance < clock.now.nanos := by
    rw [onTime]
    omega
  rw [nextDue, if_neg prompt, sum]
  rfl

end TaskClock

section Polls

variable {world after : World S Action A} {clock : TaskClock (LocalTask S Action A)}
variable {engine : Engine S Action A} {waiter : Waiter} {handle : TimerHandle}
variable {work body : Pending S Action A .finished} {moment : Duration}

/-- Until its moment has come a schedule that fires once waits. -/
theorem Pending.Defers.poll_early (defers : Defers clock handle work moment body)
    (keeper : world.keeper = .tasks clock) (early : ¬moment ≤ clock.now) :
    body.poll engine waiter world = (.ok (expectant handle moment work),
      { world with keeper := .tasks (clock.setAlarm moment waiter) }) := by
  have waits : (expectant handle moment work).poll engine waiter world =
      (.ok (expectant handle moment work),
        { world with keeper := .tasks (clock.setAlarm moment waiter) }) := by
    rw [Pending.resumeAt_poll keeper, if_neg early]
  cases defers with
  | sleeps delay =>
      rw [Run.oneShot_poll keeper]
      exact waits
  | waits => exact waits

variable {period due : Duration}

/-- An interval fires if it is due, and waits otherwise. -/
theorem Pending.interval_poll (keeper : world.keeper = .tasks clock) :
    (recurrent handle period due work).poll engine waiter world =
      if due ≤ clock.now then
        engine.poll waiter
          (.interval handle period (clock.nextDue period due) work fun _ : Fin 1 => work)
          (world.emit (.log (.intervalFired handle)))
      else (.ok (recurrent handle period due work),
        { world with keeper := .tasks (clock.setAlarm due waiter) }) := by
  have looked : (get : Run S Action A (World S Action A)) world = (.ok world, world) := rfl
  rw [Pending.poll, Run.bind_of_ok (Engine.pollJoin_none engine waiter none _ _)]
  simp only [results?_nil, Run.bind_of_ok looked, keeper]
  split <;> rfl

/-- Once the work of a firing is over, the interval waits for the next. -/
theorem Pending.interval_poll_over {middle : World S Action A}
    (polled : work.poll engine waiter world = (.ok (.done ()), middle))
    (keeper : middle.keeper = .tasks clock) (early : ¬due ≤ clock.now) :
    Pending.poll engine waiter (.interval handle period due work fun _ : Fin 1 => work) world =
      (.ok (recurrent handle period due work),
        { middle with keeper := .tasks (clock.setAlarm due waiter) }) := by
  have looked : (get : Run S Action A (World S Action A)) middle = (.ok middle, middle) := rfl
  rw [Pending.poll, Run.bind_of_ok (Engine.pollJoin_single engine waiter none _ polled)]
  simp only [results?_single, Run.bind_of_ok looked, keeper, if_neg early]
  rfl

end Polls

/-! ## Runs of tasks -/

namespace Session

variable {session : Session S Action alphabet} {task : Nat} {handle : TimerHandle}
variable {clock taken moved : TaskClock (LocalTask S Action (Action alphabet))}
variable {body left : Pending S Action (Action alphabet) .finished}
variable {after : World S Action (Action alphabet)}

theorem runTask_stopping
    (polled : body.poll session.engine ⟨task, []⟩ (session.entering taken) = (.ok left, after))
    (goesOn : left.result? = none) (keeper : after.keeper = .tasks moved) :
    session.runTask taken task (.background body) = { session with
      world := { after with keeper := .tasks (moved.putBack task (.background left)) } } := by
  rw [runTask_background, polled]
  dsimp only
  rw [stopped_eq keeper, goesOn]
  rfl

theorem runTask_ending
    (polled : body.poll session.engine ⟨task, []⟩ (session.entering taken) =
      (.ok (.done ()), after)) (keeper : after.keeper = .tasks moved) :
    session.runTask taken task (.background body) =
      { session with world := { after with keeper := .tasks (moved.retire task) } } := by
  rw [runTask_background, polled]
  dsimp only
  rw [stopped_eq keeper]
  rfl

/-- When the session runs that task, the work that it calls is over in that poll, and does not call
the scheduler. -/
def Brief (session : Session S Action alphabet)
    (taken : TaskClock (LocalTask S Action (Action alphabet))) (task : Nat)
    (body : Pending S Action (Action alphabet) .finished) : Prop :=
  ∀ moment first work, body.Calls taken moment first work → moment ≤ taken.now →
    work.BriefIn (session.host.engine (session.allowance - 1)) ⟨task, []⟩
      (first (session.entering taken)).2

/-- What a run of a task has done. -/
def Performs (session : Session S Action alphabet)
    (clock : TaskClock (LocalTask S Action (Action alphabet))) (handle : TimerHandle) (task : Nat)
    (appointment : Appointment) (after : World S Action (Action alphabet)) : Prop :=
  ∃ moved recent, after.keeper = .tasks moved ∧ after.trace = recent ++ session.world.trace ∧
    moved.running = none ∧ moved.issued = clock.issued ∧
    clock.Serves Service.timers handle task appointment moved (fired recent)

/-- A task that waits for a moment, once it has run. -/
theorem performs_stopping {appointment : Appointment} {moment : Duration} {queue : List Nat}
    {recent : List (Event S (Action alphabet))}
    (ready : clock.takeReady = (some (task, .background body), taken))
    (polled : body.poll session.engine ⟨task, []⟩ (session.entering taken) = (.ok left, after))
    (goesOn : left.result? = none)
    (keeper : after.keeper = .tasks (TaskClock.setAlarm { taken with ready := queue } moment
      ⟨task, []⟩))
    (woken : taken.ready ⊆ queue) (whole : Duration.millisecond ∣ moment.nanos)
    (trace : after.trace = recent ++ session.world.trace)
    (serves : ∀ moved, clock.Rebooks task (.background left) moment moved →
      clock.Serves .timers handle task appointment moved (fired recent)) :
    session.Performs clock handle task appointment
      (session.runTask taken task (.background body)).world := by
  obtain ⟨-, rest, -, same⟩ := TaskClock.takeReady_eq ready
  have issued : taken.issued = clock.issued := by rw [same]
  rw [runTask_stopping polled goesOn keeper]
  refine ⟨_, recent, rfl, trace, TaskClock.putBack_running _ _ _, ?_, ?_⟩
  · exact (TaskClock.putBack_issued _ _ _).trans issued
  · exact serves _ (.of_putBack ready woken (Duration.ceilMillis?_of_dvd whole))

/-- The task of a schedule that fires once. -/
theorem runTask_defers (ready : clock.takeReady = (some (task, .background body), taken))
    {work : Pending S Action (Action alphabet) .finished} {moment : Duration}
    (defers : Pending.Defers taken handle work moment body)
    (whole : Duration.millisecond ∣ moment.nanos) (brief : session.Brief taken task body) :
    session.Performs clock handle task ⟨handle, moment.nanos, none⟩
      (session.runTask taken task (.background body)).world := by
  obtain ⟨-, rest, -, same⟩ := TaskClock.takeReady_eq ready
  have now : taken.now = clock.now := by rw [same]
  have issued : taken.issued = clock.issued := by rw [same]
  by_cases due : moment ≤ taken.now
  · have fires : body.poll session.engine ⟨task, []⟩ (session.entering taken) =
        work.poll session.engine ⟨task, []⟩ (Run.expire handle (session.entering taken)).2 :=
      defers.poll_due rfl due
    obtain @⟨known, after, recent, queue, same, polled, keeper, woken, trace, silent⟩ :=
      brief moment _ work (.once defers) due
    cases same
    have refines := session.host.engine_refines (Nat.sub_le session.allowance 1)
    have large := (Pending.poll_refines refines ⟨task, []⟩ work).of_ok polled
    rw [runTask_ending (fires.trans large) keeper]
    refine ⟨_, recent ++ [.log (.timeoutFired handle)], rfl, ?_, rfl, issued, ?_⟩
    · rw [List.append_assoc]
      exact trace
    · rw [fired_append, silent]
      exact .ends (now ▸ due) rfl (.of_retire ready woken handle)
  · apply performs_stopping ready (defers.poll_early rfl due) rfl rfl (List.Subset.refl _) whole
      (List.nil_append _).symm
    intro moved rebooks
    exact .waits rebooks rfl (.background (.waits work whole)) rfl

/-- The task of a schedule that fires over and over. -/
theorem runTask_recurs {work : Pending S Action (Action alphabet) .finished}
    {period due : Duration}
    (ready : clock.takeReady =
      (some (task, .background (.recurrent handle period due work)), taken))
    (enough : session.allowance ≠ 0) (whole : Duration.millisecond ∣ due.nanos)
    (wholePeriod : Duration.millisecond ∣ period.nanos) (positive : 0 < period.nanos)
    (short : period.nanos < TaskClock.momentLimit) (early : clock.now.nanos < TaskClock.momentLimit)
    (timely : clock.now ≤ due)
    (brief : session.Brief taken task (.recurrent handle period due work)) :
    session.Performs clock handle task ⟨handle, due.nanos, some period.nanos⟩
      (session.runTask taken task (.background (.recurrent handle period due work))).world := by
  obtain ⟨-, rest, -, same⟩ := TaskClock.takeReady_eq ready
  have now : taken.now = clock.now := by rw [same]
  by_cases shown : due ≤ taken.now
  · obtain ⟨depth, allowance⟩ := Nat.exists_eq_succ_of_ne_zero enough
    have engine : session.engine = session.host.engine (depth + 1) := by
      rw [Session.engine, allowance]
    obtain @⟨known, after, recent, queue, same, polled, keeper, woken, trace, silent⟩ :=
      brief due _ work .repeatedly shown
    cases same
    rw [allowance] at polled
    have onTime : clock.now = due := Duration.ext (Nat.le_antisymm timely (now ▸ shown))
    have sum : (taken.nextDue period due).nanos = due.nanos + period.nanos :=
      TaskClock.nextDue_nanos (now.trans onTime) (onTime ▸ early) short
    have wholeNext : Duration.millisecond ∣ (taken.nextDue period due).nanos := by
      rw [sum]
      exact Nat.dvd_add whole wholePeriod
    have later : ¬taken.nextDue period due ≤ taken.now := by
      rw [Duration.le_iff, sum, now, onTime]
      omega
    have fires : (Pending.recurrent handle period due work).poll session.engine ⟨task, []⟩
        (session.entering taken) = (.ok (.recurrent handle period (taken.nextDue period due) work),
          { after with keeper := .tasks (TaskClock.setAlarm { taken with ready := queue }
              (taken.nextDue period due) ⟨task, []⟩) }) := by
      rw [Pending.interval_poll rfl, if_pos shown, engine]
      exact Pending.interval_poll_over polled keeper later
    have again : Appointment.next? ⟨handle, due.nanos, some period.nanos⟩ =
        some ⟨handle, (taken.nextDue period due).nanos, some period.nanos⟩ := by
      rw [sum]
      rfl
    apply performs_stopping ready fires rfl rfl woken wholeNext
    · exact trace.trans (List.append_assoc recent [.log (.intervalFired handle)] _).symm
    · intro moved rebooks
      rw [fired_append, silent]
      exact .recurs (now ▸ shown) again rebooks rfl
        (.background (.recurs work wholeNext wholePeriod positive short)) rfl
  · have waits : (Pending.recurrent handle period due work).poll session.engine ⟨task, []⟩
        (session.entering taken) = _ :=
      (Pending.interval_poll rfl).trans (if_neg shown)
    apply performs_stopping ready waits rfl rfl (List.Subset.refl _) whole (List.nil_append _).symm
    intro moved rebooks
    exact .waits rebooks rfl (.background (.recurs work whole wholePeriod positive short)) rfl

/-- The task of a schedule waits on, or fires the schedule at the time that is set for it. -/
theorem runTask_serves {appointment : Appointment}
    (ready : clock.takeReady = (some (task, .background body), taken))
    (enough : session.allowance ≠ 0) (fits : body.Fits clock.now handle)
    (sets : body.appointment? clock.now = some appointment)
    (early : clock.now.nanos < TaskClock.momentLimit)
    (timely : clock.now.nanos ≤ appointment.due) (brief : session.Brief taken task body) :
    session.Performs clock handle task appointment
      (session.runTask taken task (.background body)).world := by
  cases fits with
  | sleeps work whole below =>
      obtain ⟨-, rest, -, same⟩ := TaskClock.takeReady_eq ready
      have now : taken.now = clock.now := by rw [same]
      cases sets
      rw [← now] at whole below ⊢
      have moment := TaskClock.moment_nanos below
      rw [← moment] at whole ⊢
      exact runTask_defers ready (.sleeps _) whole brief
  | waits work whole =>
      cases sets
      exact runTask_defers ready (.waits _) whole brief
  | recurs work whole wholePeriod positive short =>
      cases sets
      exact runTask_recurs ready enough whole wholePeriod positive short early timely brief

end Session

end EffectLoop
