import EffectLoop.Proofs.World.Vigil

/-!
# Polls of the tasks that fire schedules

The task of a repeating schedule fires it and nothing else, and stays the task of that schedule.  It may
do so several times in one poll, if the schedule is overdue.  The task of a schedule that fires once
either waits, or forgets the schedule and fires it; after that it is as any other.  All other tasks fire
nothing.
-/

namespace EffectLoop

variable {S ι : Type} {Action : ι → Type} {A : Type} {alphabet : ι}

namespace Regime

variable {loyal : Prop} {handle : TimerHandle} {world : World S Action A}
variable {clock : TaskClock (LocalTask S Action A)}

/-- A repeating schedule fires. -/
theorem vigil_recurs : (vigil loyal (· = handle)).Allows world
    (world.emit (.log (.intervalFired handle))) := by
  intro kind
  obtain ⟨clock, keeper, orderly⟩ := kind
  refine vigil_move [.log (.intervalFired handle)] keeper keeper rfl ?_ ?_ ⟨clock, keeper, orderly⟩
  · intro other entry within firing
    cases List.mem_singleton.1 within
    exact firing.symm
  · intro _ orderly
    refine ⟨orderly, .refl clock, ?_⟩
    constructor
    · intro other _ inactive
      exact inactive
    · intro other entry within ends
      cases List.mem_singleton.1 within
      cases ends
    · intro other _ _ entry within ends
      cases List.mem_singleton.1 within
      cases ends
    · intro other within
      cases List.mem_singleton.1 within

/-- A schedule fires for the only time. -/
theorem vigil_expires {task : Nat} (keeper : world.keeper = .tasks clock)
    (runs : clock.running = some task) (entered : (handle, task) ∈ clock.active) :
    (vigil False (· = handle)).Allows world
      { world with
        keeper := .tasks (clock.forget handle)
        trace := .log (.timeoutFired handle) :: world.trace } := by
  apply vigil_move [.log (.timeoutFired handle)] keeper rfl rfl
  · intro other entry within firing
    cases List.mem_singleton.1 within
    exact firing.symm
  · intro _ orderly
    refine ⟨orderly.forget entered (orderly.apart task runs).2, clock.forget_passes handle, ?_⟩
    constructor
    · intro other _ inactive active
      exact inactive active.of_forget
    · intro other entry within ends
      cases List.mem_singleton.1 within
      cases ends
      exact ⟨clock.forget_inactive handle, orderly.issued _ entered⟩
    · intro other _ inactive entry within ends
      cases List.mem_singleton.1 within
      cases ends
      exact inactive ⟨task, entered⟩
    · intro other _ within
      cases List.mem_singleton.1 within

theorem vigil_mono {weak : Prop} {may more : TimerHandle → Prop} {before after : World S Action A}
    (allowed : (vigil loyal may).Allows before after) (loyalty : weak → loyal)
    (implies : ∀ handle, may handle → more handle) : (vigil weak more).Allows before after := by
  intro kind
  obtain ⟨known, elapses⟩ := allowed kind
  exact ⟨known, elapses.mono (fun passes => passes.mono loyalty) implies⟩

end Regime

/-! ## The task of a repeating schedule -/

section Interval

variable {host : Host S Action alphabet} (handle : TimerHandle) (period : Duration)
variable {task : Pending S Action (Action alphabet) .finished} (taskWithin : task.Within .honest)
variable (waiter : Waiter)
include taskWithin

/-- One round of the task, if what follows a firing obeys. -/
theorem Pending.interval_obeys_of {engine : Engine S Action (Action alphabet)}
    (obeys : engine.Obeys (Regime.vigil True (· = handle)) .honest)
    (again : ∀ due, (Regime.vigil True (· = handle)).Obeys (Pending.Ticks handle)
      (engine.poll waiter (.interval handle period due task fun _ : Fin 1 => task)))
    {due : Duration} {count : Nat} {running : Fin count → Pending S Action (Action alphabet) .finished}
    (runningWithin : ∀ index, (running index).Within .honest) :
    (Regime.vigil True (· = handle)).Obeys (Pending.Ticks handle)
      ((Pending.interval handle period due task running).poll engine waiter) := by
  have houses : (Regime.vigil True (· = handle) :
      Regime S Action (Action alphabet)).Houses .honest := Regime.vigil_houses
  have steady := houses.toSteady
  rw [poll]
  apply steady.bind (Engine.pollJoin_obeys houses.toGoverns obeys waiter none runningWithin
    fun index => Pending.poll_obeys houses.toGoverns obeys waiter (runningWithin index))
  intro found leaves
  dsimp only
  split
  · exact steady.pure (.recurs taskWithin leaves)
  · apply Regime.look
    intro world
    split
    · exact steady.pureIn (.recurs taskWithin fun index => index.elim0)
    next clock keeper =>
      split
      · apply steady.bindIn (Regime.updateIn Regime.vigil_recurs)
        intro _ _
        exact again _
      · apply steady.bindIn (Regime.updateIn (steady.alarm world clock due waiter keeper))
        intro _ _
        exact steady.pure (.recurs taskWithin fun index => index.elim0)

/-- However many rounds a poll takes, the task fires its own schedule only. -/
theorem Pending.interval_obeys (within : host.Within .honest) (depth : Nat) (due : Duration)
    {count : Nat} {running : Fin count → Pending S Action (Action alphabet) .finished}
    (runningWithin : ∀ index, (running index).Within .honest) :
    (Regime.vigil True (· = handle)).Obeys (Pending.Ticks handle)
      ((Pending.interval handle period due task running).poll (host.engine depth) waiter) := by
  have obeys (depth : Nat) : (host.engine depth).Obeys (Regime.vigil True (· = handle)) .honest :=
    Host.engine_obeys Regime.vigil_houses within depth
  induction depth generalizing due count with
  | zero =>
      apply interval_obeys_of handle period taskWithin waiter (obeys 0)
      · intro due
        exact Regime.vigil_steady.throw _
      · exact runningWithin
  | succ depth ih =>
      apply interval_obeys_of handle period taskWithin waiter (obeys (depth + 1))
      · intro due
        exact ih due fun _ => taskWithin
      · exact runningWithin

end Interval

/-! ## The task of a schedule that fires once -/

section Poll

variable {world : World S Action A} {clock : TaskClock (LocalTask S Action A)}
variable (keeper : world.keeper = .tasks clock)
include keeper

/-- It fixes its due time and waits. -/
theorem Run.oneShot_poll (engine : Engine S Action A) (waiter : Waiter) (handle : TimerHandle)
    (delay : Duration) (task : Pending S Action A .finished) :
    (Run.oneShot handle delay task).poll engine waiter world =
      (Pending.resumeAt (clock.moment delay)
        (.call (.forget handle) fun _ => .logging (.timeoutFired handle) task)).poll engine waiter
          world := by
  have fixed : Run.perform (.deadline delay) world = (.ok (clock.moment delay), world) := by
    change Run.deadline delay world = _
    have looked : (get : Run S Action A (World S Action A)) world = (.ok world, world) := rfl
    rw [Run.deadline, Run.bind_of_ok looked, keeper]
    rfl
  rw [Run.oneShot, Pending.sleep, Pending.poll, Run.bind_of_ok fixed]

/-- When it is due it fires, otherwise it waits. -/
theorem Pending.resumeAt_poll (engine : Engine S Action A) (waiter : Waiter) (moment : Duration)
    (next : Pending S Action A .finished) :
    (Pending.resumeAt moment next).poll engine waiter world =
      if moment ≤ clock.now then next.poll engine waiter world
      else (.ok (.resumeAt moment next),
        { world with keeper := .tasks (clock.setAlarm moment waiter) }) := by
  have looked : (get : Run S Action A (World S Action A)) world = (.ok world, world) := rfl
  rw [Pending.poll, Run.bind_of_ok looked, keeper]
  dsimp only
  split <;> rfl

theorem Pending.firing_poll (engine : Engine S Action A) (waiter : Waiter) (handle : TimerHandle)
    (task : Pending S Action A .finished) :
    (Pending.call (.forget handle) fun _ => .logging (.timeoutFired handle) task).poll engine waiter
        world =
      task.poll engine waiter { world with
        keeper := .tasks (clock.forget handle)
        trace := .log (.timeoutFired handle) :: world.trace } := by
  cases world
  cases keeper
  rfl

end Poll

/-! ## Any task -/

/-- What is left of a task can fire a schedule only if the task is entered for it, or is doomed. -/
def World.Entered (world : World S Action A) (task : Nat) (left : LocalTask S Action A) : Prop :=
  (issuedBy world.trace).Nodup → ∃ clock, world.keeper = .tasks clock ∧
    (left.Quiet ∨
      ∃ handle, left.Fires handle ∧ ((handle, task) ∈ clock.active ∨ clock.doomed = true))

section Running

variable {host : Host S Action alphabet} (within : host.Within .honest)
variable {world : World S Action (Action alphabet)}
variable {clock : TaskClock (LocalTask S Action (Action alphabet))}
variable (kind : (Regime.vigil False fun _ => False).kind world)
variable (keeper : world.keeper = .tasks clock) {task : Nat} (runs : clock.running = some task)
variable {handle : TimerHandle} (entered : (handle, task) ∈ clock.active)
variable (depth : Nat) (waiter : Waiter)
include within kind keeper runs entered

/-- A schedule that fires once: as long as it waits, its task stays entered. -/
theorem Pending.waits_poll {body : Pending S Action (Action alphabet) .finished}
    (bodyWithin : body.Within .honest) (moment : Duration) :
    let program : Pending S Action (Action alphabet) .finished :=
      .resumeAt moment (.call (.forget handle) fun _ => .logging (.timeoutFired handle) body)
    let polled := program.poll (host.engine depth) waiter world
    (Regime.vigil False (· = handle)).Allows world polled.2 ∧
      ∀ left, polled.1 = .ok left → polled.2.Entered task (.background left) := by
  have houses : (Regime.vigil False (· = handle) :
      Regime S Action (Action alphabet)).Houses .honest := Regime.vigil_houses
  dsimp only
  rw [Pending.resumeAt_poll keeper]
  split
  · rw [Pending.firing_poll keeper]
    have expires := Regime.vigil_expires keeper runs entered
    have goesOn := Pending.poll_obeys houses.toGoverns (Host.engine_obeys houses within depth) waiter
      bodyWithin { world with
        keeper := .tasks (clock.forget handle)
        trace := .log (.timeoutFired handle) :: world.trace }
    constructor
    · exact houses.toSteady.andThen expires goesOn.1
    · intro left answered _
      obtain ⟨known, _⟩ := expires kind
      obtain ⟨moved, keeperAfter, _⟩ := (goesOn.1 known).1
      exact ⟨moved, keeperAfter, .inl (goesOn.2 known left answered)⟩
  · constructor
    · exact houses.toSteady.alarm world clock moment waiter keeper
    · intro left answered _
      cases answered
      refine ⟨_, rfl, .inr ⟨handle, .waits bodyWithin, .inl ?_⟩⟩
      rw [(clock.setAlarm_same moment waiter).active]
      exact entered

/-- A task that can fire a schedule fires that one only.  While it can, it stays entered or is doomed. -/
theorem Pending.Ticks.poll {body : Pending S Action (Action alphabet) .finished}
    (ticks : body.Ticks handle) :
    let polled := body.poll (host.engine depth) waiter world
    (Regime.vigil False (· = handle)).Allows world polled.2 ∧
      ∀ left, polled.1 = .ok left → polled.2.Entered task (.background left) := by
  cases ticks with
  | sleeps bodyWithin =>
      rw [Run.oneShot_poll keeper]
      exact Pending.waits_poll within kind keeper runs entered depth waiter bodyWithin _
  | waits bodyWithin =>
      exact Pending.waits_poll within kind keeper runs entered depth waiter bodyWithin _
  | @recurs period due _ _ _ taskWithin runningWithin =>
      have obeys := Pending.interval_obeys handle period taskWithin waiter within depth due
        runningWithin world
      constructor
      · exact Regime.vigil_mono obeys.1 (fun _ => trivial) fun _ same => same
      · intro left answered once
        obtain ⟨_, recent, _, _, lapse⟩ := obeys.1 kind
        obtain ⟨moved, keeperAfter, passes, _⟩ := lapse once clock keeper
        have kept := passes.kept trivial task handle runs entered
        exact ⟨moved, keeperAfter, .inr ⟨handle, obeys.2 kind left answered, kept⟩⟩

omit entered in
/-- A task fires only schedules that it is entered for. -/
theorem LocalTask.background_poll {body : Pending S Action (Action alphabet) .finished}
    (owned : (background body).Quiet ∨
      ∃ handle, (background body).Fires handle ∧ (handle, task) ∈ clock.active) :
    let polled := body.poll (host.engine depth) waiter world
    (Regime.vigil False fun handle => (handle, task) ∈ clock.active).Allows world polled.2 ∧
      ∀ left, polled.1 = .ok left → polled.2.Entered task (.background left) := by
  cases owned with
  | inl isQuiet =>
      have houses : (Regime.vigil False fun handle => (handle, task) ∈ clock.active :
          Regime S Action (Action alphabet)).Houses .honest := Regime.vigil_houses
      have obeys := Pending.poll_obeys houses.toGoverns (Host.engine_obeys houses within depth) waiter
        isQuiet world
      constructor
      · exact obeys.1
      · intro left answered _
        obtain ⟨moved, keeperAfter, _⟩ := (obeys.1 kind).1
        exact ⟨moved, keeperAfter, .inl (obeys.2 kind left answered)⟩
  | inr owner =>
      obtain ⟨handle, fires, entered⟩ := owner
      obtain ⟨allowed, leaves⟩ :=
        Pending.Ticks.poll within kind keeper runs entered depth waiter fires
      constructor
      · apply Regime.vigil_mono allowed id
        intro other same
        rw [same]
        exact entered
      · exact leaves

end Running

end EffectLoop
