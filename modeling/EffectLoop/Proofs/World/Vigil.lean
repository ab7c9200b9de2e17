import EffectLoop.Proofs.World.Conformity
import EffectLoop.Proofs.World.Scheduling
import EffectLoop.Proofs.Time.Tasks

/-!
# Schedules of a task clock that are over

A task clock logs when a schedule is registered, when it fires, and when it is cancelled.  Programs that
do not meddle with these entries, nor with the booking behind them, fire nothing themselves: only the
task that a schedule was registered with fires it.  As long as no handle is used up twice, a schedule
that is over stays so, and nothing fires it any more.
-/

namespace EffectLoop

variable {S ι : Type} {Action : ι → Type} {A α : Type} {alphabet : ι} {answer : Answer ι}

/-! ## What a task clock logs -/

/-- Does the entry say that the schedule fires? -/
def LogEntry.Fires (handle : TimerHandle) : LogEntry → Prop
  | timeoutFired other | intervalFired other => other = handle
  | _ => False

/-- Does the entry say that the schedule is over? -/
def LogEntry.Ends (handle : TimerHandle) : LogEntry → Prop
  | timeoutFired other | timerCleared other => other = handle
  | _ => False

/-- Is the entry one that a task clock makes about a schedule? -/
def LogEntry.IsBooking : LogEntry → Prop
  | timerScheduled _ _ _ | timeoutFired _ | intervalFired _ | timerCleared _ => True
  | _ => False

namespace Event

def IsBooking : Event S A → Prop
  | log entry => entry.IsBooking
  | _ => False

/-- The handle that was used up. -/
def issued? : Event S A → Option TimerHandle
  | log (.timerScheduled handle _ _) => some handle
  | _ => none

end Event

/-- The handles that were used up, the latest first. -/
def issuedBy (trace : List (Event S A)) : List TimerHandle := trace.filterMap Event.issued?

theorem issuedBy_append (recent older : List (Event S A)) :
    issuedBy (recent ++ older) = issuedBy recent ++ issuedBy older :=
  List.filterMap_append

theorem issuedBy_of_benign {event : Event S A} (benign : ¬event.IsBooking)
    (older : List (Event S A)) : issuedBy (event :: older) = issuedBy older := by
  have silent : event.issued? = none := by
    cases event with
    | log entry =>
        cases entry with
        | timerScheduled => exact (benign trivial).elim
        | _ => rfl
    | _ => rfl
  exact List.filterMap_cons_none silent

/-- Anything that leaves the booking of schedules to the task clock. -/
def Rules.honest : Rules where
  effect
    | .log entry => ¬entry.IsBooking
    | .forget _ => False
    | _ => True
  advance := True
  interval := False

/-! ## Tasks -/

/-- The program of a task that can still fire a schedule. -/
inductive Pending.Ticks (handle : TimerHandle) : Pending S Action A .finished → Prop where
  /-- It has not been polled yet. -/
  | sleeps {delay task} : Pending.Within .honest task → Ticks handle (Run.oneShot handle delay task)
  /-- It waits for its due time. -/
  | waits {moment task} : Pending.Within .honest task →
      Ticks handle (.resumeAt moment
        (.call (.forget handle) fun _ => .logging (.timeoutFired handle) task))
  | recurs {period due task count} {running : Fin count → Pending S Action A .finished} :
      task.Within .honest → (∀ index, (running index).Within .honest) →
      Ticks handle (.interval handle period due task running)

namespace LocalTask

/-- The task leaves the booking to the clock. -/
def Quiet : LocalTask S Action A → Prop
  | background body => body.Within .honest
  | root _ body => body.Within .honest

/-- The task can still fire the schedule. -/
def Fires (handle : TimerHandle) : LocalTask S Action A → Prop
  | background body => body.Ticks handle
  | root _ _ => False

end LocalTask

/-- The clock of the world is orderly. -/
abbrev World.Orderly (world : World S Action A) (clock : TaskClock (LocalTask S Action A)) : Prop :=
  clock.Orderly LocalTask.Quiet LocalTask.Fires (issuedBy world.trace)

/-! ## Lapses -/

/-- What may become of the schedules of a world, and what is logged about them meanwhile. -/
structure World.Lapse (before after : World S Action A) (recent : List (Event S A))
    (clock moved : TaskClock (LocalTask S Action A)) : Prop where
  /-- A schedule that is over stays so. -/
  inactive : ∀ handle ∈ issuedBy before.trace, ¬clock.Active handle → ¬moved.Active handle
  ended : ∀ handle entry, .log entry ∈ recent → entry.Ends handle →
    ¬moved.Active handle ∧ handle ∈ issuedBy after.trace
  /-- A schedule that is over does not end again. -/
  silent : ∀ handle ∈ issuedBy before.trace, ¬clock.Active handle →
    ∀ entry, .log entry ∈ recent → ¬entry.Ends handle
  /-- A schedule that fires for the only time is not cancelled. -/
  apart : ∀ handle, .log (.timeoutFired handle) ∈ recent → .log (.timerCleared handle) ∉ recent

/-- Time passes in a world with a task clock: firings of the schedules that may fire are logged, and as
long as no handle is used up twice, schedules that are over stay so. -/
def World.Elapses (link : TaskClock (LocalTask S Action A) → TaskClock (LocalTask S Action A) → Prop)
    (may : TimerHandle → Prop) (before after : World S Action A) : Prop :=
  ∃ recent, after.trace = recent ++ before.trace ∧
    (∀ handle entry, .log entry ∈ recent → entry.Fires handle → may handle) ∧
    ((issuedBy after.trace).Nodup → ∀ clock, before.keeper = .tasks clock →
      ∃ moved, after.keeper = .tasks moved ∧ link clock moved ∧ Lapse before after recent clock moved)

namespace World

variable {link : TaskClock (LocalTask S Action A) → TaskClock (LocalTask S Action A) → Prop}
variable {may : TimerHandle → Prop} {first second third : World S Action A}

/-- Nothing is logged, and the same schedules can be cancelled. -/
theorem Lapse.same {before after : World S Action A} {clock moved : TaskClock (LocalTask S Action A)}
    (active : moved.active = clock.active) : Lapse before after [] clock moved where
  inactive handle _ inactive := by rwa [TaskClock.Active, active]
  ended := by simp
  silent := by simp
  apart := by simp

theorem Lapse.trans {early late : List (Event S A)}
    {clock middle moved : TaskClock (LocalTask S Action A)}
    (left : Lapse first second early clock middle) (right : Lapse second third late middle moved)
    (grown : ∀ handle ∈ issuedBy first.trace, handle ∈ issuedBy second.trace)
    (known : ∀ handle ∈ issuedBy second.trace, handle ∈ issuedBy third.trace) :
    Lapse first third (late ++ early) clock moved where
  inactive handle issued inactive :=
    right.inactive handle (grown handle issued) (left.inactive handle issued inactive)
  ended handle entry within ends := by
    cases List.mem_append.1 within with
    | inl new => exact right.ended handle entry new ends
    | inr old =>
        obtain ⟨inactive, issued⟩ := left.ended handle entry old ends
        exact ⟨right.inactive handle issued inactive, known handle issued⟩
  silent handle issued inactive entry within := by
    cases List.mem_append.1 within with
    | inl new =>
        exact right.silent handle (grown handle issued) (left.inactive handle issued inactive) entry new
    | inr old => exact left.silent handle issued inactive entry old
  apart handle fired cancelled := by
    cases List.mem_append.1 fired with
    | inl firedLate =>
        cases List.mem_append.1 cancelled with
        | inl cancelledLate => exact right.apart handle firedLate cancelledLate
        | inr cancelledEarly =>
            obtain ⟨inactive, issued⟩ := left.ended handle _ cancelledEarly rfl
            exact right.silent handle issued inactive _ firedLate rfl
    | inr firedEarly =>
        cases List.mem_append.1 cancelled with
        | inl cancelledLate =>
            obtain ⟨inactive, issued⟩ := left.ended handle _ firedEarly rfl
            exact right.silent handle issued inactive _ cancelledLate rfl
        | inr cancelledEarly => exact left.apart handle firedEarly cancelledEarly

namespace Elapses

theorem same {before after : World S Action A} {clock moved : TaskClock (LocalTask S Action A)}
    (keeper : before.keeper = .tasks clock) (keeperAfter : after.keeper = .tasks moved)
    (trace : after.trace = before.trace) (linked : link clock moved)
    (active : moved.active = clock.active) : Elapses link may before after := by
  refine ⟨[], trace, by simp, ?_⟩
  intro _ other other_keeper
  rw [keeper] at other_keeper
  cases other_keeper
  exact ⟨moved, keeperAfter, linked, .same active⟩

theorem refl (linked : ∀ clock, link clock clock) (world : World S Action A) :
    Elapses link may world world := by
  refine ⟨[], rfl, by simp, ?_⟩
  intro _ clock keeper
  exact ⟨clock, keeper, linked clock, .same rfl⟩

theorem trans (linked : ∀ {clock middle moved}, link clock middle → link middle moved → link clock moved)
    (left : Elapses link may first second) (right : Elapses link may second third) :
    Elapses link may first third := by
  obtain ⟨early, trace, fires, lapse⟩ := left
  obtain ⟨late, further, firesLate, lapseLate⟩ := right
  have known (handle) (issued : handle ∈ issuedBy second.trace) : handle ∈ issuedBy third.trace := by
    rw [further, issuedBy_append]
    exact List.mem_append_right _ issued
  have grown (handle) (issued : handle ∈ issuedBy first.trace) : handle ∈ issuedBy second.trace := by
    rw [trace, issuedBy_append]
    exact List.mem_append_right _ issued
  refine ⟨late ++ early, by rw [further, trace, List.append_assoc], ?_, ?_⟩
  · intro handle entry within
    cases List.mem_append.1 within with
    | inl new => exact firesLate handle entry new
    | inr old => exact fires handle entry old
  · intro once clock keeper
    have onceBefore : (issuedBy second.trace).Nodup := by
      rw [further, issuedBy_append] at once
      exact once.of_append_right
    obtain ⟨middle, keeperMiddle, link, lapse⟩ := lapse onceBefore clock keeper
    obtain ⟨moved, keeperMoved, linkLate, lapseLate⟩ := lapseLate once middle keeperMiddle
    exact ⟨moved, keeperMoved, linked link linkLate, lapse.trans lapseLate grown known⟩

theorem mono {weak : TaskClock (LocalTask S Action A) → TaskClock (LocalTask S Action A) → Prop}
    {more : TimerHandle → Prop} (elapses : Elapses link may first second)
    (linked : ∀ {clock moved}, link clock moved → weak clock moved)
    (implies : ∀ handle, may handle → more handle) : Elapses weak more first second := by
  obtain ⟨recent, trace, fires, lapse⟩ := elapses
  refine ⟨recent, trace, fun handle entry new firing => implies handle (fires handle entry new firing), ?_⟩
  intro once clock keeper
  obtain ⟨moved, keeperMoved, link, lapse⟩ := lapse once clock keeper
  exact ⟨moved, keeperMoved, linked link, lapse⟩

end Elapses

end World

/-! ## What obeys -/

theorem Run.timerBody_owned (clock : TaskClock (LocalTask S Action A)) (delay : Duration)
    (repeating : Bool) {task : Pending S Action A .finished} (within : task.Within .honest) :
    (LocalTask.background (timerBody clock delay repeating task)).Quiet ∨
      (LocalTask.background (timerBody clock delay repeating task)).Fires ⟨clock.issued + 1⟩ := by
  unfold timerBody
  split
  · unfold repeated
    split
    · exact .inr (.recurs within fun index => index.elim0)
    · exact .inl trivial
  · exact .inr (.sleeps within)

namespace Regime

/-- The world has a task clock, which is orderly as long as no handle is used up twice. -/
def vigil (loyal : Prop) (may : TimerHandle → Prop) : Regime S Action A where
  kind world := ∃ clock, world.keeper = .tasks clock ∧
    ((issuedBy world.trace).Nodup → world.Orderly clock)
  law := World.Elapses (TaskClock.Passes loyal) may

section Vigil

variable {loyal : Prop} {may : TimerHandle → Prop} {before after world : World S Action A}
variable {clock moved : TaskClock (LocalTask S Action A)}

theorem vigil_move (recent : List (Event S A)) (keeper : before.keeper = .tasks clock)
    (keeperAfter : after.keeper = .tasks moved) (trace : after.trace = recent ++ before.trace)
    (fires : ∀ handle entry, .log entry ∈ recent → entry.Fires handle → may handle)
    (step : (issuedBy after.trace).Nodup → before.Orderly clock →
      after.Orderly moved ∧ clock.Passes loyal moved ∧ World.Lapse before after recent clock moved) :
    (vigil loyal may).Allows before after := by
  intro kind
  obtain ⟨known, same, orderly⟩ := kind
  rw [keeper] at same
  cases same
  have onceBefore (once : (issuedBy after.trace).Nodup) : (issuedBy before.trace).Nodup := by
    rw [trace, issuedBy_append] at once
    exact once.of_append_right
  constructor
  · exact ⟨moved, keeperAfter, fun once => (step once (orderly (onceBefore once))).1⟩
  · refine ⟨recent, trace, fires, ?_⟩
    intro once other same
    rw [keeper] at same
    cases same
    exact ⟨moved, keeperAfter, (step once (orderly (onceBefore once))).2⟩

/-- Changes that concern no task and no schedule. -/
theorem vigil_tasks (keeper : before.keeper = .tasks clock) (same : clock.SameTasks moved)
    (keeperAfter : after.keeper = .tasks moved) (trace : after.trace = before.trace) :
    (vigil loyal may).Allows before after := by
  apply vigil_move [] keeper keeperAfter trace (by simp)
  intro _ orderly
  rw [World.Orderly, trace]
  exact ⟨same.orderly orderly, same.passes, .same same.active⟩

theorem vigil_same (keeper : after.keeper = before.keeper) (trace : after.trace = before.trace) :
    (vigil loyal may).Allows before after := by
  intro kind
  obtain ⟨clock, known, orderly⟩ := kind
  exact vigil_tasks known ⟨rfl, rfl, rfl, rfl, rfl⟩ (keeper.trans known) trace ⟨clock, known, orderly⟩

theorem vigil_event (event : Event S A) (benign : ¬event.IsBooking)
    (keeper : after.keeper = before.keeper) (trace : after.trace = event :: before.trace) :
    (vigil loyal may).Allows before after := by
  intro kind
  obtain ⟨clock, known, orderly⟩ := kind
  have other {entry : LogEntry} (within : .log entry ∈ [event]) : ¬entry.IsBooking := by
    rw [← List.mem_singleton.1 within] at benign
    exact benign
  have endless {handle : TimerHandle} {entry : LogEntry} (within : .log entry ∈ [event]) :
      ¬entry.Ends handle := by
    intro ends
    cases entry with
    | timeoutFired | timerCleared => exact other within trivial
    | _ => cases ends
  refine vigil_move [event] known (keeper.trans known) trace ?_ ?_ ⟨clock, known, orderly⟩
  · intro handle entry within firing
    cases entry with
    | timeoutFired | intervalFired => exact (other within trivial).elim
    | _ => cases firing
  · intro _ orderly
    refine ⟨?_, .refl clock, ?_⟩
    · rw [World.Orderly, trace, issuedBy_of_benign benign]
      exact orderly
    · constructor
      · intro handle _ inactive
        exact inactive
      · intro handle entry within ends
        exact (endless within ends).elim
      · intro handle _ _ entry within
        exact endless within
      · intro handle within
        exact (other within trivial).elim

/-- Worlds with a virtual clock are of another kind. -/
theorem not_vigil_virtual {virtual : VirtualClock (Pending S Action A .finished)}
    (keeper : world.keeper = .virtual virtual) : ¬(vigil loyal may).kind world := by
  intro kind
  obtain ⟨clock, tasks, _⟩ := kind
  rw [keeper] at tasks
  cases tasks

theorem vigil_virtual {virtual : VirtualClock (Pending S Action A .finished)} {post : α → Prop}
    {computation : Run S Action A α} (keeper : world.keeper = .virtual virtual) :
    (vigil loyal may).ObeysIn world post computation :=
  ⟨fun kind => (not_vigil_virtual keeper kind).elim, fun kind => (not_vigil_virtual keeper kind).elim⟩

theorem vigil_steady : (vigil loyal may : Regime S Action A).Steady where
  refl := .refl .refl
  trans := .trans TaskClock.Passes.trans
  booked _ _ _ _ _ := vigil_same rfl rfl
  queued _ clock task keeper := vigil_tasks keeper (clock.enqueue_same task) rfl rfl
  alarm _ clock moment waiter keeper :=
    vigil_tasks keeper (clock.setAlarm_same moment waiter) rfl rfl

/-! ### Schedules -/

/-- Cancelling is logged if there was something to cancel. -/
theorem clear_vigil (handle : TimerHandle) :
    (vigil loyal may).Obeys (fun _ => True) (Run.clear handle : Run S Action A Bool) := by
  intro world
  cases keeper : world.keeper with
  | virtual clock => exact vigil_virtual keeper
  | tasks clock =>
      rw [Regime.ObeysIn, Run.clear_tasks keeper]
      refine ⟨?_, fun _ _ _ => trivial⟩
      cases clock.clear_cases handle with
      | inl absent =>
          obtain ⟨answer, _, same⟩ := absent
          exact vigil_tasks keeper (by rw [same]; exact ⟨rfl, rfl, rfl, rfl, rfl⟩) rfl (by simp [answer])
      | inr present =>
          obtain ⟨task, entered, answer, _⟩ := present
          apply vigil_move [.log (.timerCleared handle)] keeper rfl (by simp [answer])
          · intro other entry within firing
            cases List.mem_singleton.1 within
            cases firing
          · intro once orderly
            simp only [answer, ↓reduceIte]
            refine ⟨orderly.clear handle, orderly.clear_passes handle, ?_⟩
            constructor
            · intro other _ inactive active
              exact inactive active.of_clear
            · intro other entry within ends
              cases List.mem_singleton.1 within
              cases ends
              exact ⟨clock.clear_inactive handle, orderly.issued _ entered⟩
            · intro other _ inactive entry within ends
              cases List.mem_singleton.1 within
              cases ends
              exact inactive ⟨task, entered⟩
            · intro other within
              cases List.mem_singleton.1 within

theorem schedule_vigil (delay : Duration) (repeating : Bool) {task : Pending S Action A .finished}
    (within : task.Within .honest) :
    (vigil loyal may).Obeys (fun _ => True) (Run.schedule delay repeating task) := by
  intro world
  cases keeper : world.keeper with
  | virtual clock => exact vigil_virtual keeper
  | tasks clock =>
      rw [Regime.ObeysIn, Run.schedule_tasks keeper]
      refine ⟨?_, fun _ _ _ => trivial⟩
      apply vigil_move [.log (.timerScheduled ⟨clock.issued + 1⟩ delay repeating)] keeper rfl rfl
      · intro handle entry within firing
        cases List.mem_singleton.1 within
        cases firing
      · intro once orderly
        have issued : TaskClock.SameTasks clock clock.issue.2 := ⟨rfl, rfl, rfl, rfl, rfl⟩
        have fresh : (⟨clock.issued + 1⟩ : TimerHandle) ∉ issuedBy world.trace :=
          (List.nodup_cons.1 once).1
        refine ⟨?_, issued.passes.trans (clock.issue.2.enter_passes _ _), ?_⟩
        · exact (issued.orderly orderly).enter fresh
            (Run.timerBody_owned clock delay repeating within)
        · constructor
          · intro handle known inactive active
            cases TaskClock.Active.of_enter active with
            | inl old => exact inactive old
            | inr new => exact fresh (new ▸ known)
          · intro handle entry within ends
            cases List.mem_singleton.1 within
            cases ends
          · intro handle _ _ entry within ends
            cases List.mem_singleton.1 within
            cases ends
          · intro handle within
            cases List.mem_singleton.1 within

theorem vigil_spawn {task : LocalTask S Action A} (keeper : world.keeper = .tasks clock)
    (isQuiet : task.Quiet) :
    (vigil loyal may).Allows world { world with keeper := .tasks (clock.spawn task).2 } := by
  refine vigil_move [] keeper rfl rfl (by simp) ?_
  intro _ orderly
  exact ⟨orderly.spawn isQuiet, clock.spawn_passes _, .same rfl⟩

theorem vigil_abort (keeper : world.keeper = .tasks clock) (task : Nat) :
    (vigil loyal may).Allows world { world with keeper := .tasks (clock.abort task) } := by
  refine vigil_move [] keeper rfl rfl (by simp) ?_
  intro _ orderly
  exact ⟨orderly.abort task, clock.abort_passes task, .same (clock.abort_active task)⟩

theorem spawn_vigil {task : Pending S Action A .finished} (within : task.Within .honest) :
    (vigil loyal may).Obeys (fun _ => True) (Run.spawn task) := by
  intro world
  cases keeper : world.keeper with
  | virtual clock => exact vigil_virtual keeper
  | tasks clock =>
      rw [Regime.ObeysIn, Run.spawn_tasks keeper]
      have isQuiet : (LocalTask.background task).Quiet := within
      exact ⟨vigil_spawn keeper isQuiet, fun _ _ _ => trivial⟩

theorem nextDriven_vigil (target : Duration) : (vigil loyal may).Obeys
    (fun found => ∀ tasks, found = some tasks → ∀ task ∈ tasks, Pending.Within .honest task)
    (Run.nextDriven target : Run S Action A _) := by
  have steady : (vigil loyal may : Regime S Action A).Steady := vigil_steady
  apply Regime.look
  intro world
  split
  next clock keeper =>
    apply steady.pureIn
    intro tasks taken
    cases taken
  next clock keeper => exact vigil_virtual keeper

end Vigil

/-- Nothing that honest programs or the host do fires a schedule, or brings one back. -/
theorem vigil_houses {loyal : Prop} {may : TimerHandle → Prop} :
    (vigil loyal may : Regime S Action (Action alphabet)).Houses .honest where
  toSteady := vigil_steady
  read _ := vigil_same rfl rfl
  note _ _ := vigil_event _ id rfl rfl
  log _ entry benign := vigil_event (.log entry) benign rfl rfl
  keep _ _ _ := vigil_same rfl rfl
  clear handle _ := clear_vigil handle
  forget _ refused := refused.elim
  schedule delay repeating _ within := schedule_vigil delay repeating within
  spawn _ within := spawn_vigil within
  nextDriven target _ := nextDriven_vigil target
  fire _ _ refused := refused.elim
  observed _ _ := vigil_event _ id rfl rfl
  delivered _ _ := vigil_event _ id rfl rfl
  committed _ _ := vigil_event _ id rfl rfl
  dispatched _ _ := vigil_event _ id rfl rfl

end Regime

end EffectLoop
