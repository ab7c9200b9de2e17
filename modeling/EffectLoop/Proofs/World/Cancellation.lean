import EffectLoop.Proofs.World.Firing
import EffectLoop.Proofs.World.Preservation
import EffectLoop.World.Session

/-!
# Cancelled schedules

A session on a task clock runs its tasks one at a time; between them, code outside calls what it likes,
and the clock moves.  Once a schedule is cancelled no task that runs later fires it.  What has cancelled it
may be its own task, though.  That one is only marked, and goes on until it stops: if the schedule is
repeating and overdue, the task fires it again in the same poll.
-/

namespace EffectLoop

variable {S ι : Type} {Action : ι → Type} {alphabet : ι}

/-! ## One thing after the other -/

/-- The clock is orderly and no task is running, as long as no handle is used up twice. -/
def World.Idle {A : Type} (world : World S Action A) : Prop :=
  ∃ clock, world.keeper = .tasks clock ∧
    ((issuedBy world.trace).Nodup → world.Orderly clock ∧ clock.running = none)

/-- Schedules that may fire do, schedules that are over stay so; which task is running does not
matter. -/
abbrev World.Ages {A : Type} (may : TimerHandle → Prop) (before after : World S Action A) : Prop :=
  before.Elapses (fun _ _ => True) may after

namespace Session

/-- The session runs the task of the schedule. -/
def RunsFor (handle : TimerHandle) (before after : Session S Action alphabet) : Prop :=
  ∃ clock taken task body, before.world.keeper = .tasks clock ∧
    clock.takeReady = (some (task, body), taken) ∧ (handle, task) ∈ clock.active ∧
      after = before.runTask taken task body

/-- One thing that a session on a task clock does, or that is done to it. -/
inductive Does : Session S Action alphabet → Session S Action alphabet → Prop where
  /-- Code outside the tasks is called. -/
  | calls {session α} {program : Prompt S Action (Action alphabet) α} :
      program.Within .honest (fun _ => True) →
      Does session (session.perform (program.run session.engine)).2
  | dispatches (session action) : Does session (session.perform (session.engine.dispatch action)).2
  | starts {session store loop} : session.host = .store store →
      loop.lift.2.Conforms .honest store.options →
      Does session (session.perform (store.start session.engine loop)).2
  | launches {session store cmd} : session.host = .store store → cmd.Conforms .honest store.options →
      Does session (session.perform (store.launch session.engine cmd)).2
  /-- A task is handed over. -/
  | hands {session body} (number : Nat) : body.Within .honest →
      Does session (session.activate number body)
  | cancels (session number) : Does session (session.cancel number)
  | skips {session clock taken} : session.world.keeper = .tasks clock →
      clock.takeReady = (none, taken) →
      Does session { session with world := { session.world with keeper := .tasks taken } }
  | runs {session clock taken task body} : session.world.keeper = .tasks clock →
      clock.takeReady = (some (task, body), taken) →
      Does session (session.runTask taken task body)
  /-- The clock moves, and alarms ring. -/
  | rings {session clock} (moment : Duration) : session.world.keeper = .tasks clock →
      Does session { session with
        world := (clock.moveTo moment).1.foldl World.wake
          { session.world with keeper := .tasks (clock.moveTo moment).2 } }
  /-- Anything that leaves the scheduler and the trace alone. -/
  | beside {before after} : after.host = before.host → after.world.keeper = before.world.keeper →
      after.world.trace = before.world.trace → Does before after

/-- Such things, one after the other. -/
abbrev Lives : Session S Action alphabet → Session S Action alphabet → Prop :=
  Relation.ReflTransGen Does

end Session

/-! ## The trace grows -/

/-- Events are added to the trace, and stay there. -/
def World.Grows {A : Type} (before after : World S Action A) : Prop := before.trace <:+ after.trace

theorem World.Grows.once {A : Type} {before after : World S Action A} (grows : before.Grows after)
    (once : (issuedBy after.trace).Nodup) : (issuedBy before.trace).Nodup :=
  once.sublist (grows.sublist.filterMap _)

theorem World.grows_tolerant {A : Type} :
    Tolerant (Grows : World S Action A → World S Action A → Prop) where
  refl world := List.suffix_refl world.trace
  trans first second := first.trans second
  sameFront same := ⟨[], same.2.1.symm⟩
  note _ _ := List.suffix_cons _ _
  log _ _ := List.suffix_cons _ _

theorem World.grows_houses :
    (Regime.relating World.Grows : Regime S Action (Action alphabet)).Houses .lax where
  toGoverns := World.grows_tolerant.governs
  observed _ _ _ := ⟨trivial, List.suffix_cons _ _⟩
  delivered _ _ _ := ⟨trivial, List.suffix_cons _ _⟩
  committed _ _ _ := ⟨trivial, List.suffix_cons _ _⟩
  dispatched _ _ _ := ⟨trivial, List.suffix_cons _ _⟩

section Steps

variable {before after : World S Action (Action alphabet)}

theorem World.Idle.kind {loyal : Prop} {may : TimerHandle → Prop} (idle : before.Idle) :
    (Regime.vigil loyal may).kind before := by
  obtain ⟨clock, keeper, orderly⟩ := idle
  exact ⟨clock, keeper, fun once => (orderly once).1⟩

/-- What happens while no task is running fires nothing. -/
theorem World.Idle.of_allowed {may : TimerHandle → Prop} (idle : before.Idle)
    (allowed : (Regime.vigil True fun _ => False).Allows before after) :
    after.Idle ∧ before.Ages may after := by
  obtain ⟨⟨moved, keeperAfter, orderly⟩, elapses⟩ := allowed idle.kind
  refine ⟨⟨moved, keeperAfter, ?_⟩, elapses.mono (fun _ => trivial) fun _ => False.elim⟩
  intro once
  obtain ⟨clock, keeper, orderlyBefore⟩ := idle
  obtain ⟨recent, trace, _, lapse⟩ := elapses
  obtain ⟨other, same, passes, _⟩ := lapse once clock keeper
  rw [keeperAfter] at same
  cases same
  have onceBefore : (issuedBy before.trace).Nodup := by
    rw [trace, issuedBy_append] at once
    exact once.of_append_right
  exact ⟨orderly once, passes.running.trans (orderlyBefore onceBefore).2⟩

end Steps

/-! ### A task runs -/

namespace Session

variable {session : Session S Action alphabet}
variable {clock taken : TaskClock (LocalTask S Action (Action alphabet))} {task : Nat}

/-- The world in which a task is polled. -/
abbrev entering (session : Session S Action alphabet)
    (clock : TaskClock (LocalTask S Action (Action alphabet))) : World S Action (Action alphabet) :=
  { session.world with keeper := .tasks clock }

/-- The world after a task has stopped. -/
def stopped (world : World S Action (Action alphabet))
    (change : TaskClock (LocalTask S Action (Action alphabet)) →
      TaskClock (LocalTask S Action (Action alphabet))) : World S Action (Action alphabet) :=
  match world.keeper with
  | .virtual _ => world
  | .tasks clock => { world with keeper := .tasks (change clock) }

/-- The poll of a task happens in the world that the task enters. -/
theorem perform_entering {body : Pending S Action (Action alphabet) answer}
    {result : Except Halt (Pending S Action (Action alphabet) answer)}
    {world : World S Action (Action alphabet)}
    (polled : body.poll session.engine ⟨task, []⟩ (session.entering clock) = (result, world)) :
    perform { session with world := session.entering clock }
        (body.poll (engine { session with world := session.entering clock }) ⟨task, []⟩) =
      (result, { session with world }) :=
  congrArg (fun ended => (ended.1, { session with world := ended.2 })) polled

/-- A task in the background is over, or goes on with what is left. -/
theorem runTask_background (body : Pending S Action (Action alphabet) .finished) :
    session.runTask clock task (.background body) =
      match body.poll session.engine ⟨task, []⟩ (session.entering clock) with
      | (.ok left, world) =>
          { session with world := stopped world fun clock =>
              if left.result?.isSome then clock.retire task
              else clock.putBack task (.background left) }
      | (.error _, world) => { session with world := stopped world (·.retire task) } := by
  rcases polled : body.poll session.engine ⟨task, []⟩ (session.entering clock) with ⟨result, world⟩
  unfold runTask stopped
  dsimp only
  rw [perform_entering polled]
  cases result with
  | error halt =>
      dsimp only
      cases world.keeper <;> rfl
  | ok left =>
      dsimp only
      cases left.result? <;> cases world.keeper <;> rfl

theorem runTask_root (number : Nat) (body : Pending S Action (Action alphabet) .report) :
    session.runTask clock task (.root number body) =
      match body.poll session.engine ⟨task, []⟩ (session.entering clock) with
      | (.ok left, world) =>
          match left.result? with
          | some result =>
              { session with world := stopped (world.emit (.ended number result)) (·.retire task) }
          | none => { session with world := stopped world (·.putBack task (.root number left)) }
      | (.error halt, world) =>
          { session with
            world := stopped (world.emit (.panicked number halt.message)) (·.retire task) } := by
  rcases polled : body.poll session.engine ⟨task, []⟩ (session.entering clock) with ⟨result, world⟩
  unfold runTask stopped
  dsimp only
  rw [perform_entering polled]
  cases result with
  | error halt =>
      dsimp only [emit, World.emit]
      cases world.keeper <;> rfl
  | ok left =>
      dsimp only [emit, World.emit]
      cases left.result? <;> cases world.keeper <;> rfl

section Stopping

variable {world polled : World S Action (Action alphabet)} {may : TimerHandle → Prop}
variable (keeper : world.keeper = .tasks clock) (active : taken.active = clock.active)
variable (allowed : (Regime.vigil False may).kind polled ∧
  World.Elapses (TaskClock.Passes False) may { world with keeper := .tasks taken } polled)
include keeper active allowed

/-- Whatever a task does, it has stopped afterwards. -/
theorem stopped_idle {moved last : TaskClock (LocalTask S Action (Action alphabet))}
    {change : TaskClock (LocalTask S Action (Action alphabet)) →
      TaskClock (LocalTask S Action (Action alphabet))}
    (movedKeeper : polled.keeper = .tasks moved) (same : change moved = last)
    (activeAfter : last.active = moved.active) (stops : last.running = none)
    (orderly : (issuedBy polled.trace).Nodup → polled.Orderly last) :
    (stopped polled change).Idle ∧ world.Ages may (stopped polled change) := by
  have after : stopped polled change = { polled with keeper := .tasks last } := by
    rw [stopped, movedKeeper]
    dsimp only
    rw [same]
  rw [after]
  constructor
  · exact ⟨last, rfl, fun once => ⟨orderly once, stops⟩⟩
  · have linked {first second third : TaskClock (LocalTask S Action (Action alphabet))} :
        True → True → True := fun _ _ => trivial
    have enters : world.Ages may { world with keeper := .tasks taken } :=
      .same keeper rfl rfl trivial active
    have runs : World.Ages may { world with keeper := .tasks taken } polled :=
      allowed.2.mono (fun _ => trivial) fun _ => id
    have leaves : polled.Ages may { polled with keeper := .tasks last } :=
      .same movedKeeper rfl rfl trivial activeAfter
    exact (enters.trans (fun _ _ => trivial) runs).trans (fun _ _ => trivial) leaves

/-- The task is over. -/
theorem retires : (stopped polled (·.retire task)).Idle ∧
    world.Ages may (stopped polled (·.retire task)) := by
  obtain ⟨moved, movedKeeper, orderly⟩ := allowed.1
  apply stopped_idle keeper active allowed movedKeeper rfl rfl rfl
  intro once
  exact TaskClock.retire_orderly (orderly once) task

/-- The task goes on with what is left of it. -/
theorem putsBack (runs : taken.running = some task) {left : LocalTask S Action (Action alphabet)}
    (entered : polled.Entered task left) : (stopped polled (·.putBack task left)).Idle ∧
      world.Ages may (stopped polled (·.putBack task left)) := by
  obtain ⟨moved, movedKeeper, orderly⟩ := allowed.1
  apply stopped_idle keeper active allowed movedKeeper rfl (moved.putBack_active task left)
    (moved.putBack_running task left)
  intro once
  obtain ⟨_, _, _, lapse⟩ := allowed.2
  obtain ⟨other, otherKeeper, passes, _⟩ := lapse once taken rfl
  obtain ⟨again, againKeeper, owned⟩ := entered once
  rw [movedKeeper] at otherKeeper againKeeper
  cases otherKeeper
  cases againKeeper
  exact TaskClock.putBack_orderly (orderly once) (passes.running.trans runs) owned

end Stopping

/-- A task that runs fires only schedules that it is entered for. -/
theorem runTask_idle (within : session.host.Within .honest) (idle : session.world.Idle)
    (once : (issuedBy session.world.trace).Nodup) (keeper : session.world.keeper = .tasks clock)
    {body : LocalTask S Action (Action alphabet)}
    (ready : clock.takeReady = (some (task, body), taken)) :
    (session.runTask taken task body).host = session.host ∧
      (session.runTask taken task body).world.Idle ∧
        session.world.Ages (fun handle => (handle, task) ∈ clock.active)
          (session.runTask taken task body).world := by
  obtain ⟨other, same, orderly⟩ := idle
  rw [keeper] at same
  cases same
  obtain ⟨takenOrderly, runs, _, active, owned⟩ := (orderly once).1.takeReady ready
  have kind {may : TimerHandle → Prop} :
      (Regime.vigil False may).kind (session.entering taken) := ⟨taken, rfl, fun _ => takenOrderly⟩
  rw [← active] at owned ⊢
  cases body with
  | background body =>
      have polled := LocalTask.background_poll within kind rfl runs session.allowance ⟨task, []⟩ owned
      dsimp only at polled
      rw [runTask_background, engine]
      rcases outcome : body.poll (session.host.engine session.allowance) ⟨task, []⟩
        (session.entering taken) with ⟨result, world⟩
      rw [outcome] at polled
      obtain ⟨allowed, leaves⟩ := polled
      have reached := allowed kind
      cases result with
      | error halt => exact ⟨rfl, retires keeper active reached⟩
      | ok left =>
          dsimp only
          split
          · exact ⟨rfl, retires keeper active reached⟩
          · exact ⟨rfl, putsBack keeper active reached runs (leaves left rfl)⟩
  | root number body =>
      have quiet : body.Within .honest := by
        cases owned with
        | inl isQuiet => exact isQuiet
        | inr owner => exact owner.choose_spec.1.elim
      have houses : (Regime.vigil False fun handle => (handle, task) ∈ taken.active :
          Regime S Action (Action alphabet)).Houses .honest := Regime.vigil_houses
      have polled := Pending.poll_obeys houses.toGoverns
        (Host.engine_obeys houses within session.allowance) ⟨task, []⟩ quiet (session.entering taken)
      rw [Regime.ObeysIn] at polled
      rw [runTask_root, engine]
      rcases outcome : body.poll (session.host.engine session.allowance) ⟨task, []⟩
        (session.entering taken) with ⟨result, world⟩
      rw [outcome] at polled
      obtain ⟨allowed, leaves⟩ := polled
      have emits (event : Event S (Action alphabet)) (benign : ¬event.IsBooking) :
          (Regime.vigil False fun handle => (handle, task) ∈ taken.active).Allows world
            (world.emit event) := Regime.vigil_event event benign rfl rfl
      cases result with
      | error halt =>
          have told := emits (.panicked number halt.message) id
          exact ⟨rfl, retires keeper active (houses.andThen allowed told kind)⟩
      | ok left =>
          dsimp only
          split
          next result _ =>
            have told := emits (.ended number result) id
            exact ⟨rfl, retires keeper active (houses.andThen allowed told kind)⟩
          next =>
            have reached := allowed kind
            have entered : world.Entered task (.root number left) := by
              intro _
              obtain ⟨moved, movedKeeper, _⟩ := reached.1
              exact ⟨moved, movedKeeper, .inl (leaves kind left rfl)⟩
            exact ⟨rfl, putsBack keeper active reached runs entered⟩

theorem grows_stopped {before world : World S Action (Action alphabet)} (grown : before.Grows world)
    (change : TaskClock (LocalTask S Action (Action alphabet)) →
      TaskClock (LocalTask S Action (Action alphabet))) : before.Grows (stopped world change) := by
  unfold stopped
  split
  · exact grown
  · exact grown

theorem runTask_grows (clock : TaskClock (LocalTask S Action (Action alphabet))) (task : Nat)
    (body : LocalTask S Action (Action alphabet)) :
    session.world.Grows (session.runTask clock task body).world := by
  have polls {answer : Answer ι} (body : Pending S Action (Action alphabet) answer) :
      session.world.trace <:+ (body.poll session.engine ⟨task, []⟩ (session.entering clock)).2.trace :=
    (Pending.poll_obeys World.grows_houses.toGoverns
      (Host.engine_obeys World.grows_houses session.host.within_lax session.allowance) ⟨task, []⟩
      body.within_lax).keeps (session.entering clock)
  cases body with
  | background body =>
      have grown := polls body
      rw [runTask_background]
      rcases outcome : body.poll session.engine ⟨task, []⟩ (session.entering clock) with ⟨result, world⟩
      rw [outcome] at grown
      cases result with
      | error halt => exact grows_stopped grown _
      | ok left => exact grows_stopped grown _
  | root number body =>
      have grown := polls body
      rw [runTask_root]
      rcases outcome : body.poll session.engine ⟨task, []⟩ (session.entering clock) with ⟨result, world⟩
      rw [outcome] at grown
      cases result with
      | error halt => exact grows_stopped (grown.trans (List.suffix_cons _ _)) _
      | ok left =>
          dsimp only
          split
          · exact grows_stopped (grown.trans (List.suffix_cons _ _)) _
          · exact grows_stopped grown _

/-! ### Whatever happens -/

variable {start before after later : Session S Action alphabet}

theorem Does.grows (does : before.Does after) : before.world.Grows after.world := by
  have houses : (Regime.relating World.Grows : Regime S Action (Action alphabet)).Houses .lax :=
    World.grows_houses
  have obeys := Host.engine_obeys houses before.host.within_lax before.allowance
  cases does with
  | calls _ => exact (Prompt.run_obeys houses.toGoverns obeys (Prompt.within_lax _)).keeps before.world
  | dispatches action => exact (obeys.dispatch action).keeps before.world
  | @starts store loop _ _ =>
      exact (store.start_obeys houses obeys loop (Cmd.conforms_lax _ _)).keeps before.world
  | @launches store cmd _ _ =>
      exact (store.launch_obeys houses obeys cmd (cmd.conforms_lax _)).keeps before.world
  | hands number _ =>
      unfold activate
      split <;> exact List.suffix_refl _
  | cancels number =>
      simp only [cancel]
      split
      · exact List.suffix_refl _
      · split <;> exact List.suffix_refl _
  | skips => exact List.suffix_refl _
  | runs => exact runTask_grows _ _ _
  | @rings clock moment keeper =>
      have woken := houses.wakeAll (clock.moveTo moment).1
        { before.world with keeper := .tasks (clock.moveTo moment).2 }
      exact (woken trivial).2
  | beside _ _ same => exact ⟨[], same.symm⟩

/-- Between tasks no task is running, and only a task that runs fires its schedule. -/
theorem Does.follows (within : before.host.Within .honest) (idle : before.world.Idle)
    (once : (issuedBy before.world.trace).Nodup) (does : before.Does after) :
    after.host = before.host ∧ after.world.Idle ∧
      before.world.Ages (fun handle => before.RunsFor handle after) after.world := by
  have houses : (Regime.vigil True fun _ => False : Regime S Action (Action alphabet)).Houses .honest :=
    Regime.vigil_houses
  have obeys := Host.engine_obeys houses within before.allowance
  have ⟨clock, known, _⟩ := idle
  cases does with
  | calls programWithin =>
      exact ⟨rfl, idle.of_allowed (Prompt.run_obeys houses.toGoverns obeys programWithin _).1⟩
  | dispatches action => exact ⟨rfl, idle.of_allowed (obeys.dispatch action _).1⟩
  | @starts store loop _ commandWithin =>
      exact ⟨rfl, idle.of_allowed (store.start_obeys houses obeys loop commandWithin _).1⟩
  | @launches store cmd _ commandWithin =>
      exact ⟨rfl, idle.of_allowed (store.launch_obeys houses obeys cmd commandWithin _).1⟩
  | @hands body number bodyWithin =>
      have isQuiet : (LocalTask.root number body).Quiet := bodyWithin
      simp only [activate, known]
      exact ⟨trivial, idle.of_allowed (Regime.vigil_spawn known isQuiet)⟩
  | cancels number =>
      simp only [cancel, known]
      split
      · exact ⟨rfl, idle.of_allowed houses.same⟩
      · exact ⟨rfl, idle.of_allowed (Regime.vigil_abort known _)⟩
  | skips keeper ready =>
      have same := TaskClock.takeReady_none_same ready
      exact ⟨rfl, idle.of_allowed (Regime.vigil_tasks keeper same rfl rfl)⟩
  | runs keeper ready =>
      obtain ⟨sameHost, reached, ages⟩ := runTask_idle within idle once keeper ready
      refine ⟨sameHost, reached, ages.mono id ?_⟩
      intro handle entered
      exact ⟨_, _, _, _, keeper, ready, entered, rfl⟩
  | @rings clock moment keeper =>
      have moves : (Regime.vigil True fun _ => False).Allows before.world
          { before.world with keeper := .tasks (clock.moveTo moment).2 } :=
        Regime.vigil_tasks keeper (clock.moveTo_same moment) rfl rfl
      exact ⟨rfl, idle.of_allowed (houses.andThen moves (houses.wakeAll _ _))⟩
  | beside sameHost keeper trace =>
      exact ⟨sameHost, idle.of_allowed (Regime.vigil_same keeper trace)⟩

/-! ### What a session does by itself -/

/-- Running what is ready is one task after the other. -/
theorem runReady_lives (session : Session S Action alphabet) (fuel : Nat) :
    session.Lives (session.runReady fuel) := by
  induction fuel generalizing session with
  | zero => exact .refl
  | succ fuel ih =>
      rw [runReady]
      split
      · exact .refl
      next clock keeper =>
        split
        · exact .refl
        · split
          next ready => exact .head (.runs keeper ready) (ih _)
          next ready => exact .head (.skips keeper ready) (ih _)

/-- Moving the clock is one alarm after the other. -/
theorem ring_lives (session : Session S Action alphabet) (target : Duration) (fuel : Nat) :
    session.Lives (session.ring target fuel) := by
  induction fuel generalizing session with
  | zero => exact .refl
  | succ fuel ih =>
      rw [ring]
      split
      · exact .refl
      next clock keeper =>
        have rung := Relation.ReflTransGen.head
          (Does.rings ((clock.nextAlarm? target).getD target) keeper) (runReady_lives _ session.allowance)
        dsimp only
        split
        · exact rung
        · exact rung.trans (ih _)

/-! ### Whole runs -/

theorem Lives.grows (lives : start.Lives later) : start.world.Grows later.world := by
  induction lives with
  | refl => exact List.suffix_refl _
  | tail _ does ih => exact ih.trans does.grows

/-- In a whole run, schedules that are over stay so, and do not fire. -/
theorem Lives.silent (within : start.host.Within .honest) (idle : start.world.Idle)
    (lives : start.Lives later) (once : (issuedBy later.world.trace).Nodup) :
    later.host = start.host ∧ later.world.Idle ∧
      ∃ recent, later.world.trace = recent ++ start.world.trace ∧
        ∀ clock moved, start.world.keeper = .tasks clock → later.world.keeper = .tasks moved →
          ∀ handle ∈ issuedBy start.world.trace, ¬clock.Active handle →
            ¬moved.Active handle ∧ ∀ entry, .log entry ∈ recent → ¬entry.Fires handle := by
  induction lives with
  | refl =>
      refine ⟨rfl, idle, [], rfl, ?_⟩
      intro clock moved keeper same handle _ inactive
      rw [keeper] at same
      cases same
      exact ⟨inactive, by simp⟩
  | @tail middle after _ does ih =>
      have onceBefore := does.grows.once once
      obtain ⟨sameHost, middleIdle, early, trace, silent⟩ := ih onceBefore
      obtain ⟨hostAfter, idleAfter, late, further, fires, lapse⟩ :=
        does.follows (sameHost ▸ within) middleIdle onceBefore
      refine ⟨hostAfter.trans sameHost, idleAfter, late ++ early, ?_, ?_⟩
      · rw [further, trace, List.append_assoc]
      · intro clock moved keeper keeperAfter handle issued inactive
        obtain ⟨passed, keeperBetween, _⟩ := middleIdle
        obtain ⟨inactiveBetween, silentEarly⟩ := silent clock passed keeper keeperBetween handle issued inactive
        obtain ⟨other, same, _, lapse⟩ := lapse once passed keeperBetween
        rw [keeperAfter] at same
        cases same
        have issuedBetween : handle ∈ issuedBy middle.world.trace := by
          rw [trace, issuedBy_append]
          exact List.mem_append_right _ issued
        constructor
        · exact lapse.inactive handle issuedBetween inactiveBetween
        · intro entry within firing
          cases List.mem_append.1 within with
          | inl new =>
              obtain ⟨known, _, task, _, knownKeeper, _, entered, _⟩ := fires handle entry new firing
              rw [keeperBetween] at knownKeeper
              cases knownKeeper
              exact inactiveBetween ⟨task, entered⟩
          | inr old => exact silentEarly entry old firing

/-- Once a schedule is cancelled, nothing that happens later fires it.  What has cancelled it does not fire
it either, unless it is the schedule's own repeating task, which goes on until it stops. -/
theorem fires_no_more_once_cleared (within : start.host.Within .honest)
    (fresh : start.world.keeper = .tasks .initial) (blank : start.world.trace = [])
    (lived : start.Lives before) (does : before.Does after) (lives : after.Lives later)
    (once : (issuedBy later.world.trace).Nodup) :
    ∃ recent further, after.world.trace = recent ++ before.world.trace ∧
      later.world.trace = further ++ after.world.trace ∧
        ∀ handle, .log (.timerCleared handle) ∈ recent →
          (∀ entry, .log entry ∈ further → ¬entry.Fires handle) ∧
            ∀ entry, .log entry ∈ recent → entry.Fires handle →
              entry = .intervalFired handle ∧ before.RunsFor handle after := by
  have idle : start.world.Idle := by
    refine ⟨.initial, fresh, ?_⟩
    intro _
    rw [World.Orderly, blank]
    exact ⟨TaskClock.initial_orderly, rfl⟩
  have onceAfter := lives.grows.once once
  have onceBefore := does.grows.once onceAfter
  obtain ⟨hostBefore, idleBefore, _⟩ := lived.silent within idle onceBefore
  obtain ⟨hostAfter, idleAfter, recent, trace, fires, lapse⟩ :=
    does.follows (hostBefore ▸ within) idleBefore onceBefore
  obtain ⟨_, ⟨last, lastKeeper, _⟩, further, more, silent⟩ :=
    lives.silent (hostAfter ▸ hostBefore ▸ within) idleAfter once
  refine ⟨recent, further, trace, more, ?_⟩
  intro handle cleared
  obtain ⟨clock, keeper, _⟩ := idleBefore
  obtain ⟨moved, keeperAfter, _, lapse⟩ := lapse onceAfter clock keeper
  obtain ⟨inactive, issued⟩ := lapse.ended handle _ cleared rfl
  constructor
  · exact (silent moved last keeperAfter lastKeeper handle issued inactive).2
  · intro entry within firing
    have runs := fires handle entry within firing
    cases entry with
    | timeoutFired other =>
        cases firing
        exact (lapse.apart handle within cleared).elim
    | intervalFired other =>
        cases firing
        exact ⟨rfl, runs⟩
    | _ => cases firing

end Session

/-! ### A schedule that cancels itself -/

/-- What an event says of a schedule. -/
inductive Notice where
  | fires
  | cleared
  deriving DecidableEq

/-- What an event says of the schedule, if anything. -/
def Event.notice? {A : Type} (handle : TimerHandle) : Event S A → Option Notice
  | log (.timeoutFired other) | log (.intervalFired other) =>
      if other = handle then some .fires else none
  | log (.timerCleared other) => if other = handle then some .cleared else none
  | _ => none

section Notices

variable {A : Type} {handle : TimerHandle} {event : Event S A}

theorem Event.eq_of_notice_cleared (told : event.notice? handle = some .cleared) :
    event = .log (.timerCleared handle) := by
  unfold notice? at told
  split at told <;> simp_all

theorem Event.fires_of_notice (told : event.notice? handle = some .fires) :
    ∃ entry, event = .log entry ∧ entry.Fires handle := by
  unfold notice? at told
  split at told <;> simp_all [LogEntry.Fires]

end Notices

namespace Ticking

/-- A session on a fresh task clock. -/
def start : Session Unit (fun _ : Unit => Json) () :=
  ⟨.plain, .initial () (.tasks .initial) (.int 0), [], [], 0, 9⟩

def period : Duration := ⟨10 * Duration.millisecond, Duration.tenMillis_lt⟩

/-- A repeating schedule with nothing to do. -/
def register : Prompt Unit (fun _ : Unit => Json) Json TimerHandle :=
  .schedule period true (.done ()) .done

def clear : Prompt Unit (fun _ : Unit => Json) Json Bool := .call (.clear ⟨1⟩) .done

/-- The schedule is registered, and its task begins to wait. -/
def waiting : Session Unit (fun _ : Unit => Json) () :=
  (start.perform (register.run start.engine)).2.runReady 9

/-- It has fired twice. -/
def ticking : Session Unit (fun _ : Unit => Json) () :=
  waiting.ring ⟨25 * Duration.millisecond, by decide⟩ 9

/-- It is cancelled. -/
def cancelled : Session Unit (fun _ : Unit => Json) () :=
  (ticking.perform (clear.run ticking.engine)).2

/-- Time goes on. -/
def quiet : Session Unit (fun _ : Unit => Json) () :=
  cancelled.ring ⟨100 * Duration.millisecond, by decide⟩ 9

theorem ticking_notices : ticking.world.trace.filterMap (Event.notice? ⟨1⟩) = [.fires, .fires] := by
  decide +kernel

theorem cancelled_notices :
    cancelled.world.trace.filterMap (Event.notice? ⟨1⟩) = [.cleared, .fires, .fires] := by
  decide +kernel

/-- A schedule that is cancelled from outside fires no more. -/
theorem quiet_once_cancelled : ∃ further, quiet.world.trace = further ++ cancelled.world.trace ∧
    ∀ entry, .log entry ∈ further → ¬entry.Fires ⟨1⟩ := by
  have registerWithin : register.Within .honest fun _ => True := ⟨trivial, fun _ => trivial⟩
  have clearWithin : clear.Within .honest fun _ => True := ⟨trivial, fun _ => trivial⟩
  have registers : start.Lives waiting := .head (.calls registerWithin) (Session.runReady_lives _ 9)
  have ticks : waiting.Lives ticking := Session.ring_lives _ _ 9
  have cancels : ticking.Does cancelled := .calls clearWithin
  have goesOn : cancelled.Lives quiet := Session.ring_lives _ _ 9
  have once : (issuedBy quiet.world.trace).Nodup := by decide +kernel
  obtain ⟨recent, further, trace, more, silent⟩ := Session.fires_no_more_once_cleared
    (Host.plain_within .honest) rfl rfl (registers.trans ticks) cancels goesOn once
  have notices := cancelled_notices
  rw [trace, List.filterMap_append, ticking_notices] at notices
  have new : recent.filterMap (Event.notice? ⟨1⟩) ++ [.fires, .fires] = [.cleared] ++ [.fires, .fires] :=
    notices
  have cleared : Notice.cleared ∈ recent.filterMap (Event.notice? ⟨1⟩) := by
    rw [List.append_cancel_right new]
    exact List.mem_singleton_self _
  obtain ⟨event, within, told⟩ := List.mem_filterMap.1 cleared
  cases Event.eq_of_notice_cleared told
  exact ⟨further, more, (silent ⟨1⟩ within).1⟩

/-- It takes longer than the period of its schedule, and then cancels it. -/
def task : Pending Unit (fun _ : Unit => Json) Json .finished :=
  .sleep ⟨25 * Duration.millisecond, by decide⟩ (.call (.clear ⟨1⟩) fun _ => .done ())

def scheduled : Session Unit (fun _ : Unit => Json) () :=
  (start.step (.schedule period true task)).2

/-- A hundred milliseconds later. -/
def overdue : Session Unit (fun _ : Unit => Json) () :=
  (scheduled.step (.advance ⟨100 * Duration.millisecond, by decide⟩ false)).2

/-- The latest comes first: the schedule fires, is cancelled, and fires again. -/
theorem overdue_notices :
    overdue.world.trace.filterMap (Event.notice? ⟨1⟩) = [.fires, .cleared, .fires] := by
  decide +kernel

/-- A schedule that cancels itself too late fires again. -/
theorem fires_though_cleared : ∃ recent earlier,
    overdue.world.trace = recent ++ .log (.timerCleared ⟨1⟩) :: earlier ∧
      ∃ entry, .log entry ∈ recent ∧ entry.Fires ⟨1⟩ := by
  obtain ⟨newest, firing, rest, trace, _, fires, before⟩ :=
    List.filterMap_eq_cons_iff.1 overdue_notices
  obtain ⟨between, clearing, earlier, restTrace, _, cleared, _⟩ := List.filterMap_eq_cons_iff.1 before
  obtain ⟨entry, rfl, again⟩ := Event.fires_of_notice fires
  cases Event.eq_of_notice_cleared cleared
  refine ⟨newest ++ .log entry :: between, earlier, ?_, entry, by simp, again⟩
  rw [trace, restTrace, List.append_assoc, List.cons_append]

end Ticking

end EffectLoop
