import EffectLoop.Proofs.World.Firing
import EffectLoop.Proofs.World.Register

/-!
# Every change is entered in the ledger

Whatever programs and the host do in a world with a task clock, its ledger goes on.  The one entry
that no call makes is that of a schedule that fires for the only time: the running task makes it,
for the schedule that it is entered for.  That this schedule does not repeat is known from the
trace, since a task that will forget a schedule is started only when a schedule that does not repeat
is asked for.
-/

namespace EffectLoop

variable {S ι : Type} {Action : ι → Type} {A : Type} {alphabet : ι} {answer : Answer ι}

/-- Anything that leaves the entries of schedules to the task clock; intervals may fire. -/
def Rules.candid : Rules := { Rules.honest with interval := True }

theorem Rules.honest_candid : honest.Loosened candid where
  effect _ := id
  advance := id
  interval _ := trivial

/-! ## What tasks forget -/

/-- The schedule that a program forgets as soon as the time for it has come. -/
def Pending.expiring? : {answer : Answer ι} → Pending S Action A answer → Option TimerHandle
  | _, .call (.deadline _) next => (next .zero).expiring?
  | _, .call (.forget handle) _ => some handle
  | _, .resumeAt _ next => next.expiring?
  | _, _ => none

theorem Pending.Within.not_expiring {program : Pending S Action A answer}
    (within : program.Within .candid) : program.expiring? = none := by
  induction program with
  | call effect next ih =>
      cases effect with
      | deadline delay => exact ih .zero (within.2 .zero)
      | forget handle => exact within.1.elim
      | _ => rfl
  | resumeAt moment next ih => exact ih within
  | _ => rfl

/-- A schedule that the task forgets without being told to does not repeat. -/
def LocalTask.Single (told : Ledger) : LocalTask S Action A → Prop
  | background body =>
      ∀ handle, body.expiring? = some handle → .scheduled (some handle) false ∈ told
  | root _ _ => True

namespace LocalTask

variable {told : Ledger}

theorem single_of_within {body : Pending S Action A .finished} (within : body.Within .candid) :
    (background body).Single told := by
  intro handle expiring
  rw [within.not_expiring] at expiring
  cases expiring

theorem Single.mono {more : Ledger} {task : LocalTask S Action A} (single : task.Single told)
    (grown : told ⊆ more) : task.Single more := by
  cases task with
  | background body => exact fun handle expiring => grown (single handle expiring)
  | root number body => trivial

end LocalTask

theorem Run.timerBody_single {told : Ledger} (clock : TaskClock (LocalTask S Action A))
    (delay : Duration) (repeating : Bool) {task : Pending S Action A .finished}
    (within : task.Within .candid) :
    (LocalTask.background (timerBody clock delay repeating task)).Single
      (.scheduled (some ⟨clock.issued + 1⟩) repeating :: told) := by
  cases repeating with
  | true =>
      apply LocalTask.single_of_within
      change (repeated _ _ _ task).Within .candid
      unfold repeated
      split
      · exact ⟨trivial, within, fun index => index.elim0⟩
      · trivial
  | false =>
      intro handle expiring
      cases expiring
      exact List.mem_cons_self

namespace Regime

/-- The world has a task clock, and a ledger of it goes on. -/
def attendance : Regime S Action A where
  kind world := ∃ clock, world.keeper = .tasks clock ∧
    ∀ entry ∈ clock.tasks, entry.2.Single (dealings world.trace)
  law before after :=
    ∀ ledger, before.KeepsLedger ledger → ∃ more, after.KeepsLedger (more ++ ledger)

section Attendance

variable {before after world : World S Action A} {clock moved : TaskClock (LocalTask S Action A)}

theorem attendance_move (keeper : before.keeper = .tasks clock)
    (keeperAfter : after.keeper = .tasks moved)
    (grown : dealings before.trace ⊆ dealings after.trace)
    (tasks : ∀ entry ∈ moved.tasks, entry ∈ clock.tasks ∨ entry.2.Single (dealings after.trace))
    (enters : ∀ ledger, before.KeepsLedger ledger → ∃ more, after.KeepsLedger (more ++ ledger)) :
    attendance.Allows before after := by
  intro kind
  obtain ⟨known, same, singles⟩ := kind
  rw [keeper] at same
  cases same
  refine ⟨⟨moved, keeperAfter, ?_⟩, enters⟩
  intro entry within
  cases tasks entry within with
  | inl old => exact (singles entry old).mono grown
  | inr single => exact single

/-- Changes that concern no schedule are not entered. -/
theorem attendance_beside (keeper : before.keeper = .tasks clock)
    (keeperAfter : after.keeper = .tasks moved) (issued : moved.issued = clock.issued)
    (active : moved.active = clock.active) (told : dealings after.trace = dealings before.trace)
    (tasks : ∀ entry ∈ moved.tasks, entry ∈ clock.tasks ∨ entry.2.Single (dealings after.trace)) :
    attendance.Allows before after := by
  apply attendance_move keeper keeperAfter (fun _ within => told ▸ within) tasks
  intro ledger keeps
  exact ⟨[], keeps.beside keeper keeperAfter issued active told⟩

/-- Nor are changes that concern no task. -/
theorem attendance_tasks (keeper : before.keeper = .tasks clock)
    (keeperAfter : after.keeper = .tasks moved) (same : clock.SameTasks moved)
    (issued : moved.issued = clock.issued) (told : dealings after.trace = dealings before.trace) :
    attendance.Allows before after := by
  apply attendance_beside keeper keeperAfter issued same.active told
  intro entry within
  rw [same.tasks] at within
  exact .inl within

theorem attendance_same (keeper : after.keeper = before.keeper)
    (told : dealings after.trace = dealings before.trace) : attendance.Allows before after := by
  intro kind
  have known := kind
  obtain ⟨clock, same, _⟩ := known
  exact attendance_tasks same (keeper.trans same) ⟨rfl, rfl, rfl, rfl, rfl⟩ rfl told kind

theorem attendance_event (event : Event S A) (silent : event.dealing? = none)
    (keeper : after.keeper = before.keeper) (trace : after.trace = event :: before.trace) :
    attendance.Allows before after := by
  apply attendance_same keeper
  rw [trace]
  exact List.filterMap_cons_none silent

theorem not_attendance_virtual {virtual : VirtualClock (Pending S Action A .finished)}
    (keeper : world.keeper = .virtual virtual) : ¬attendance.kind world := by
  intro kind
  obtain ⟨clock, tasks, _⟩ := kind
  rw [keeper] at tasks
  cases tasks

theorem attendance_virtual {α : Type} {virtual : VirtualClock (Pending S Action A .finished)}
    {post : α → Prop} {computation : Run S Action A α} (keeper : world.keeper = .virtual virtual) :
    attendance.ObeysIn world post computation :=
  ⟨fun kind => (not_attendance_virtual keeper kind).elim,
    fun kind => (not_attendance_virtual keeper kind).elim⟩

theorem attendance_steady : (attendance : Regime S Action A).Steady where
  refl world ledger keeps := ⟨[], keeps⟩
  trans first second := by
    intro ledger keeps
    obtain ⟨more, keepsMore⟩ := first ledger keeps
    obtain ⟨further, keepsFurther⟩ := second _ keepsMore
    rw [← List.append_assoc] at keepsFurther
    exact ⟨further ++ more, keepsFurther⟩
  booked _ _ _ _ _ := attendance_same rfl rfl
  queued _ clock task keeper :=
    attendance_tasks keeper rfl (clock.enqueue_same task) (clock.enqueue_issued task) rfl
  alarm _ clock moment waiter keeper :=
    attendance_tasks keeper rfl (clock.setAlarm_same moment waiter) rfl rfl

/-! ### Calls -/

theorem clear_attended (handle : TimerHandle) :
    attendance.Obeys (fun _ => True) (Run.clear handle : Run S Action A Bool) := by
  intro world
  cases keeper : world.keeper with
  | virtual clock => exact attendance_virtual keeper
  | tasks clock =>
      have cleared := Run.clear_tasks keeper handle
      rw [ObeysIn, cleared]
      refine ⟨?_, fun _ _ _ => trivial⟩
      apply attendance_move keeper rfl
      · split
        · exact List.subset_cons_self _ _
        · exact List.Subset.refl _
      · intro entry within
        exact .inl (clock.mem_of_mem_clear within)
      · intro ledger keeps
        exact ⟨[_], keeps.clears handle keeper cleared⟩

theorem schedule_attended (delay : Duration) (repeating : Bool)
    {task : Pending S Action A .finished} (within : task.Within .candid) :
    attendance.Obeys (fun _ => True) (Run.schedule delay repeating task) := by
  intro world
  cases keeper : world.keeper with
  | virtual clock => exact attendance_virtual keeper
  | tasks clock =>
      have scheduled := Run.schedule_tasks keeper delay repeating task
      rw [ObeysIn, scheduled]
      refine ⟨?_, fun _ _ _ => trivial⟩
      apply attendance_move keeper rfl
      · exact List.subset_cons_self _ _
      · intro entry listed
        cases List.mem_append.1 listed with
        | inl old => exact .inl old
        | inr new =>
            cases List.mem_singleton.1 new
            exact .inr (Run.timerBody_single clock delay repeating within)
      · intro ledger keeps
        exact ⟨[_], keeps.schedules delay repeating task keeper scheduled⟩

theorem attendance_spawn {task : LocalTask S Action A} (keeper : world.keeper = .tasks clock)
    (single : task.Single (dealings world.trace)) :
    attendance.Allows world { world with keeper := .tasks (clock.spawn task).2 } := by
  refine attendance_beside keeper rfl rfl rfl rfl ?_
  intro entry listed
  cases List.mem_append.1 listed with
  | inl old => exact .inl old
  | inr new =>
      cases List.mem_singleton.1 new
      exact .inr single

theorem spawn_attended {task : Pending S Action A .finished} (within : task.Within .candid) :
    attendance.Obeys (fun _ => True) (Run.spawn task) := by
  intro world
  cases keeper : world.keeper with
  | virtual clock => exact attendance_virtual keeper
  | tasks clock =>
      rw [ObeysIn, Run.spawn_tasks keeper]
      exact ⟨attendance_spawn keeper (LocalTask.single_of_within within), fun _ _ _ => trivial⟩

theorem attendance_abort (keeper : world.keeper = .tasks clock) (task : Nat) :
    attendance.Allows world { world with keeper := .tasks (clock.abort task) } := by
  refine attendance_beside keeper rfl (clock.abort_issued task) (clock.abort_active task) rfl ?_
  intro entry within
  exact .inl (clock.mem_of_mem_abort within)

theorem nextDriven_attended (target : Duration) : attendance.Obeys
    (fun found => ∀ tasks, found = some tasks → ∀ task ∈ tasks, Pending.Within .candid task)
    (Run.nextDriven target : Run S Action A _) := by
  apply Regime.look
  intro world
  split
  next clock keeper =>
    apply attendance_steady.pureIn
    intro tasks taken
    cases taken
  next clock keeper => exact attendance_virtual keeper

end Attendance

/-- Whatever candid programs or the host do, the ledger goes on. -/
theorem attendance_houses : (attendance : Regime S Action (Action alphabet)).Houses .candid where
  toSteady := attendance_steady
  read _ := attendance_same rfl rfl
  note _ _ := attendance_same rfl rfl
  log _ entry benign := attendance_event (.log entry) (Event.not_dealing benign) rfl rfl
  keep _ _ _ := attendance_same rfl rfl
  clear handle _ := clear_attended handle
  forget _ refused := refused.elim
  schedule delay repeating _ within := schedule_attended delay repeating within
  spawn _ within := spawn_attended within
  nextDriven target _ := nextDriven_attended target
  fire _ _ _ := attendance_same rfl rfl
  observed _ _ := attendance_same rfl rfl
  delivered _ _ := attendance_same rfl rfl
  committed _ _ := attendance_same rfl rfl
  dispatched _ _ := attendance_same rfl rfl

end Regime

/-! ## Polls of tasks -/

section Firing

variable {world : World S Action A} {clock : TaskClock (LocalTask S Action A)} {ledger : Ledger}
variable (keeper : world.keeper = .tasks clock) {task : Nat} (runs : clock.running = some task)
variable {handle : TimerHandle} (entered : (handle, task) ∈ clock.active)
variable (single : .scheduled (some handle) false ∈ dealings world.trace)
include keeper runs entered single

/-- The running task begins the only firing of its schedule. -/
theorem World.KeepsLedger.expire (keeps : world.KeepsLedger ledger) :
    (Run.expire handle world).2.KeepsLedger (.fired handle :: ledger) := by
  have told : .scheduled (some handle) false ∈ ledger := by
    rw [keeps.logged] at single
    exact List.mem_of_mem_filter single
  have expires := Run.expire_tasks keeper handle
  rw [expires]
  exact keeps.expires task keeper runs entered told expires

theorem Regime.attendance_expires : attendance.Allows world (Run.expire handle world).2 := by
  rw [Run.expire_tasks keeper]
  apply attendance_move keeper rfl
  · exact List.subset_cons_self _ _
  · intro entry within
    exact .inl within
  · intro ledger keeps
    have expired := keeps.expire keeper runs entered single
    rw [Run.expire_tasks keeper] at expired
    exact ⟨[_], expired⟩

end Firing

section Running

variable {host : Host S Action alphabet} (within : host.Within .candid)
variable {world : World S Action (Action alphabet)} (kind : Regime.attendance.kind world)
variable {clock : TaskClock (LocalTask S Action (Action alphabet))}
variable (keeper : world.keeper = .tasks clock) {task : Nat} (runs : clock.running = some task)
variable {handle : TimerHandle} (depth : Nat) (waiter : Waiter)
include within kind

/-- What a candid body leaves is candid. -/
theorem Pending.Within.attends {body : Pending S Action (Action alphabet) .finished}
    (bodyWithin : body.Within .candid) :
    let polled := body.poll (host.engine depth) waiter world
    Regime.attendance.Allows world polled.2 ∧ ∀ left, polled.1 = .ok left →
      (LocalTask.background left).Single (dealings polled.2.trace) := by
  have houses : (Regime.attendance : Regime S Action (Action alphabet)).Houses .candid :=
    Regime.attendance_houses
  have obeys := Pending.poll_obeys houses.toGoverns (Host.engine_obeys houses within depth) waiter
    bodyWithin world
  constructor
  · exact obeys.1
  · intro left answered
    exact LocalTask.single_of_within (obeys.2 kind left answered)

include keeper runs

/-- A schedule that fires once waits, or begins its firing before its work goes on. -/
theorem Pending.waits_attends (entered : (handle, task) ∈ clock.active)
    (single : .scheduled (some handle) false ∈ dealings world.trace)
    {body : Pending S Action (Action alphabet) .finished} (bodyWithin : body.Within .candid)
    (moment : Duration) :
    let program : Pending S Action (Action alphabet) .finished :=
      .resumeAt moment (.call (.forget handle) fun _ => .logging (.timeoutFired handle) body)
    let polled := program.poll (host.engine depth) waiter world
    Regime.attendance.Allows world polled.2 ∧ ∀ left, polled.1 = .ok left →
      (LocalTask.background left).Single (dealings polled.2.trace) := by
  have steady : (Regime.attendance : Regime S Action (Action alphabet)).Steady :=
    Regime.attendance_steady
  dsimp only
  rw [Pending.resumeAt_poll keeper]
  split
  · rw [Pending.firing_poll keeper]
    have expires := Regime.attendance_expires keeper runs entered single
    have goesOn := bodyWithin.attends within (expires kind).1 depth waiter
    rw [Run.expire_tasks keeper] at expires goesOn
    exact ⟨steady.andThen expires goesOn.1, goesOn.2⟩
  · constructor
    · exact steady.alarm world clock moment waiter keeper
    · intro left answered other expiring
      cases answered
      cases expiring
      exact single

/-- The ledger goes on while a task is polled. -/
theorem LocalTask.background_attends {body : Pending S Action (Action alphabet) .finished}
    (owned : (background body).Quiet ∨
      ∃ handle, (background body).Fires handle ∧ (handle, task) ∈ clock.active)
    (single : (background body).Single (dealings world.trace)) :
    let polled := body.poll (host.engine depth) waiter world
    Regime.attendance.Allows world polled.2 ∧ ∀ left, polled.1 = .ok left →
      (background left).Single (dealings polled.2.trace) := by
  cases owned with
  | inl isQuiet =>
      have bodyWithin : body.Within .honest := isQuiet
      exact (bodyWithin.loosen Rules.honest_candid).attends within kind depth waiter
  | inr owner =>
      obtain ⟨handle, fires, entered⟩ := owner
      cases fires with
      | sleeps bodyWithin =>
          rw [Run.oneShot_poll keeper]
          exact Pending.waits_attends within kind keeper runs depth waiter entered
            (single handle rfl) (bodyWithin.loosen Rules.honest_candid) _
      | waits bodyWithin =>
          exact Pending.waits_attends within kind keeper runs depth waiter entered
            (single handle rfl) (bodyWithin.loosen Rules.honest_candid) _
      | @recurs period due work _ running taskWithin runningWithin =>
          have bodyWithin : Pending.Within .candid (.interval handle period due work running :
              Pending S Action (Action alphabet) .finished) :=
            ⟨trivial, taskWithin.loosen Rules.honest_candid,
              fun index => (runningWithin index).loosen Rules.honest_candid⟩
          exact bodyWithin.attends within kind depth waiter

end Running

end EffectLoop
