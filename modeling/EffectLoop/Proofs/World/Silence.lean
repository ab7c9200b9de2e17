import EffectLoop.Proofs.Store.Hushed
import EffectLoop.Proofs.World.Cancellation

/-!
# Sessions without some lines of the log

`Session.hushed` is a session in which nothing writes the lines that a silencing leaves out.  Every step of
a session commutes with taking them out (`Session.serve_hushed`), so two sessions that are the same without
them differ in nothing else.

Whether handled failures are logged therefore decides nothing but that.  Two sessions that differ in this
option only give the same replies to every script, and go through the same states, events and schedules;
what is left of the trace without the lines about handled failures is the same for both.  If nobody but the
interpreter writes such lines, this is the trace of the quiet session (`Session.serve_quiet`).
-/

namespace EffectLoop

variable {S ι : Type} {Action : ι → Type} {A α β : Type} {alphabet : ι}

open Run (HushedIn)

section Hushed

variable (silencing : Silencing)

/-- The root without the lines that are left out. -/
def Root.hushed (root : Root S Action A) : Root S Action A :=
  { root with body := root.body.hushed silencing }

namespace Session

/-- The session without the lines that are left out, its host with changed options. -/
def hushed (session : Session S Action alphabet) : Session S Action alphabet :=
  { session with
    host := session.host.hushed silencing
    world := session.world.hush silencing.mute
    roots := session.roots.map (Root.hushed silencing) }

variable (session : Session S Action alphabet)

variable {session} in
theorem keeper_hushed_virtual {clock : VirtualClock (Pending S Action (Action alphabet) .finished)}
    (keeper : session.world.keeper = .virtual clock) :
    (session.hushed silencing).world.keeper = .virtual (clock.map (·.hush silencing.mute)) :=
  Run.keeper_hush_virtual session.world keeper

variable {session} in
theorem keeper_hushed_tasks {clock : TaskClock (LocalTask S Action (Action alphabet))}
    (keeper : session.world.keeper = .tasks clock) :
    (session.hushed silencing).world.keeper = .tasks (clock.map (·.hush silencing.mute)) :=
  Run.keeper_hush_tasks session.world keeper

theorem engine_hushed :
    Engine.Hushed silencing.mute session.world.isOpen session.engine (session.hushed silencing).engine :=
  session.host.engine_hushed silencing session.world.isOpen session.allowance

theorem perform_hushed {image : α → β} {loud : Run S Action (Action alphabet) α}
    {soft : Run S Action (Action alphabet) β}
    (same : HushedIn silencing.mute image loud soft session.world) :
    (session.hushed silencing).perform soft =
      ((session.perform loud).1.map image, (session.perform loud).2.hushed silencing) := by
  change ((soft (session.world.hush silencing.mute)).1,
    { session.hushed silencing with world := (soft (session.world.hush silencing.mute)).2 }) = _
  rw [same.same]
  rfl

theorem emit_hushed {event : Event S (Action alphabet)} (audible : event.isAudible silencing.mute) :
    (session.hushed silencing).emit event = (session.emit event).hushed silencing := by
  change { session.hushed silencing with world := (session.world.hush silencing.mute).emit event } = _
  rw [← World.hush_emit _ _ audible]
  rfl

/-! ## Roots -/

theorem activate_hushed (number : Nat) (body : Pending S Action (Action alphabet) .report) :
    (session.hushed silencing).activate number (body.hushed silencing) =
      (session.activate number body).hushed silencing := by
  cases keeper : session.world.keeper with
  | virtual clock =>
      simp only [activate, keeper, keeper_hushed_virtual silencing keeper]
      simp only [hushed, List.map_append]
      rfl
  | tasks clock =>
      have spawned : (clock.map (·.hush silencing.mute)).spawn (.root number (body.hushed silencing)) =
          ((clock.spawn (.root number body)).1,
            (clock.spawn (.root number body)).2.map (·.hush silencing.mute)) :=
        clock.map_spawn (·.hush silencing.mute) (.root number body)
      simp only [activate, keeper, keeper_hushed_tasks silencing keeper, spawned]
      rfl

theorem addRoot_hushed (hold : Bool) (body : Pending S Action (Action alphabet) .report) :
    (session.hushed silencing).addRoot hold (body.hushed silencing) =
      ((session.addRoot hold body).1, (session.addRoot hold body).2.hushed silencing) := by
  cases hold with
  | true =>
      simp only [addRoot, hushed, if_true, List.map_append]
      rfl
  | false =>
      simp only [addRoot, Bool.false_eq_true, if_false]
      exact congrArg _ (activate_hushed silencing { session with lastRoot := session.lastRoot + 1 } _ body)

theorem adoptKept_hushed
    {report : Settling S Action (Action alphabet) → Pending S Action (Action alphabet) .report}
    (same : ∀ caused, report (Pending.hushed silencing caused) = (report caused).hushed silencing) :
    (session.hushed silencing).adoptKept report =
      ((session.adoptKept report).1, (session.adoptKept report).2.hushed silencing) := by
  have added (kept : List (Settling S Action (Action alphabet)))
      (session : Session S Action alphabet) :
      (kept.map (Pending.hushed silencing)).foldl
          (fun session caused => (session.addRoot false (report caused)).2) (session.hushed silencing) =
        (kept.foldl (fun session caused => (session.addRoot false (report caused)).2)
          session).hushed silencing := by
    induction kept generalizing session with
    | nil => rfl
    | cons caused rest ih =>
        rw [List.map_cons, List.foldl_cons, List.foldl_cons, same, addRoot_hushed, ih]
  have emptied := added session.world.kept { session with world := { session.world with kept := [] } }
  have isEmpty : (session.world.kept.map (Pending.hushed silencing)).isEmpty = session.world.kept.isEmpty :=
    List.isEmpty_map
  simp only [adoptKept]
  rw [← emptied]
  change (!(session.world.kept.map (Pending.hushed silencing)).isEmpty, _) = _
  rw [isEmpty]
  rfl

theorem pollRoot_hushed (root : Root S Action (Action alphabet)) :
    (session.hushed silencing).pollRoot (root.hushed silencing) =
      ((session.pollRoot root).1.map (Root.hushed silencing), (session.pollRoot root).2.hushed silencing) := by
  have polled := session.perform_hushed silencing (Pending.poll_hushed silencing.spares
    (session.engine_hushed silencing) ⟨root.number, []⟩ root.body rfl)
  have polledRoot : (session.hushed silencing).perform
      ((root.hushed silencing).body.poll (session.hushed silencing).engine
        ⟨(root.hushed silencing).number, []⟩) = _ := polled
  rw [pollRoot, pollRoot, polledRoot]
  rcases session.perform (root.body.poll session.engine ⟨root.number, []⟩) with ⟨result, after⟩
  cases result with
  | error halt =>
      change (none, (after.hushed silencing).emit _) = (none, (after.emit _).hushed silencing)
      rw [emit_hushed silencing after rfl]
      rfl
  | ok left =>
      dsimp only [Except.map]
      rw [Pending.result?_hush]
      cases left.result? with
      | none => rfl
      | some result =>
          change (none, (after.hushed silencing).emit _) = (none, (after.emit _).hushed silencing)
          rw [emit_hushed silencing after rfl]
          rfl

theorem pollAll_hushed (roots : List (Root S Action (Action alphabet))) :
    (session.hushed silencing).pollAll (roots.map (Root.hushed silencing)) =
      ((session.pollAll roots).1.map (Root.hushed silencing), (session.pollAll roots).2.hushed silencing) := by
  induction roots generalizing session with
  | nil => rfl
  | cons root rest ih =>
      have held : (root.hushed silencing).held = root.held := rfl
      rw [List.map_cons, pollAll, pollAll, held]
      split
      · rw [ih]
        rfl
      · rw [pollRoot_hushed]
        dsimp only
        rw [ih, List.map_append]
        cases (session.pollRoot root).1 <;> rfl

/-! ## Settling -/

theorem reportSettled_hushed (caused : Settling S Action (Action alphabet)) :
    reportSettled (Pending.hushed silencing caused) = (reportSettled caused).hushed silencing := by
  rw [reportSettled, reportSettled]
  refine Eq.trans ?_ (Pending.hush_bind _ caused _).symm
  congr 1
  funext result
  cases result <;> rfl

theorem reportActions_hushed [∀ alphabet, Tagged (Action alphabet)]
    (pending : FollowUp S Action (Action alphabet) alphabet) :
    reportActions (Pending.hushed silencing pending) = (reportActions pending).hushed silencing := by
  rw [reportActions, reportActions]
  refine Eq.trans ?_ (Pending.hush_bind _ pending _).symm
  congr 1
  funext result
  cases result <;> rfl

theorem passes_hushed (fuel : Nat) :
    (session.hushed silencing).passes fuel = (session.passes fuel).hushed silencing := by
  induction fuel generalizing session with
  | zero => rfl
  | succ fuel ih =>
      have polled : (session.hushed silencing).calm.pollAll (session.hushed silencing).roots = _ :=
        pollAll_hushed silencing session.calm session.roots
      rw [passes, passes, polled]
      rcases session.calm.pollAll session.roots with ⟨roots, after⟩
      have adopted : Session.adoptKept
          { after.hushed silencing with roots := roots.map (Root.hushed silencing) } _ = _ :=
        adoptKept_hushed silencing { after with roots } (reportSettled_hushed silencing)
      dsimp only
      rw [adopted]
      rcases Session.adoptKept { after with roots } reportSettled with ⟨found, settled⟩
      change (if found || settled.world.stirred then _ else _) =
        hushed silencing (if found || settled.world.stirred then _ else _)
      split
      · exact ih settled
      · rfl

/-- What a task that stops changes in the scheduler. -/
theorem stopped_hushed (world : World S Action (Action alphabet))
    {change soft : TaskClock (LocalTask S Action (Action alphabet)) →
      TaskClock (LocalTask S Action (Action alphabet))}
    (same : ∀ clock, soft (clock.map (·.hush silencing.mute)) =
      (change clock).map (·.hush silencing.mute)) :
    { session.hushed silencing with world := stopped (world.hush silencing.mute) soft } =
      hushed silencing { session with world := stopped world change } := by
  have stops : stopped (world.hush silencing.mute) soft =
      (stopped world change).hush silencing.mute := by
    cases keeper : world.keeper with
    | virtual clock => simp only [stopped, keeper, Run.keeper_hush_virtual world keeper]
    | tasks clock =>
        simp only [stopped, keeper, Run.keeper_hush_tasks world keeper, same]
        rfl
  rw [stops]
  rfl

theorem runTask_hushed (clock : TaskClock (LocalTask S Action (Action alphabet))) (task : Nat)
    (body : LocalTask S Action (Action alphabet)) :
    (session.hushed silencing).runTask (clock.map (·.hush silencing.mute)) task
      (body.hush silencing.mute) = (session.runTask clock task body).hushed silencing := by
  have entered : (session.hushed silencing).entering (clock.map (·.hush silencing.mute)) =
      (session.entering clock).hush silencing.mute := rfl
  have retired (clock : TaskClock (LocalTask S Action (Action alphabet))) :=
    clock.map_retire (·.hush silencing.mute) task
  cases body with
  | background body =>
      have polled := Pending.poll_hushed silencing.spares (session.engine_hushed silencing) ⟨task, []⟩
        body (show (session.entering clock).isOpen = _ from rfl)
      rw [LocalTask.hush, runTask_background, runTask_background, entered, polled.same]
      rcases body.poll session.engine ⟨task, []⟩ (session.entering clock) with ⟨result, after⟩
      cases result with
      | error halt => exact session.stopped_hushed silencing after retired
      | ok left =>
          dsimp only [Except.map]
          rw [Pending.result?_hush]
          apply session.stopped_hushed silencing after
          intro clock
          cases left.result?.isSome with
          | true => exact retired clock
          | false => exact clock.map_putBack (·.hush silencing.mute) task (.background left)
  | root number body =>
      have polled := Pending.poll_hushed silencing.spares (session.engine_hushed silencing) ⟨task, []⟩
        body (show (session.entering clock).isOpen = _ from rfl)
      rw [LocalTask.hush, runTask_root, runTask_root, entered, polled.same]
      rcases body.poll session.engine ⟨task, []⟩ (session.entering clock) with ⟨result, after⟩
      cases result with
      | error halt =>
          dsimp only [Except.map]
          rw [← World.hush_emit _ after rfl]
          exact session.stopped_hushed silencing _ retired
      | ok left =>
          dsimp only [Except.map]
          rw [Pending.result?_hush]
          cases left.result? with
          | some result =>
              dsimp only
              rw [← World.hush_emit _ after rfl]
              exact session.stopped_hushed silencing _ retired
          | none =>
              exact session.stopped_hushed silencing after fun clock =>
                clock.map_putBack (·.hush silencing.mute) task (.root number left)

theorem runReady_hushed (fuel : Nat) :
    (session.hushed silencing).runReady fuel = (session.runReady fuel).hushed silencing := by
  induction fuel generalizing session with
  | zero => rfl
  | succ fuel ih =>
      cases keeper : session.world.keeper with
      | virtual clock =>
          rw [runReady, runReady, keeper, keeper_hushed_virtual silencing keeper]
      | tasks clock =>
          rw [runReady, runReady, keeper, keeper_hushed_tasks silencing keeper]
          dsimp only
          rw [TaskClock.map_takeReady]
          change (if clock.ready.isEmpty then _ else _) =
            hushed silencing (if clock.ready.isEmpty then _ else _)
          split
          · rfl
          · rcases clock.takeReady with ⟨ready, taken⟩
            cases ready with
            | none => exact ih { session with world := { session.world with keeper := .tasks taken } }
            | some entry =>
                obtain ⟨task, body⟩ := entry
                rw [← ih, ← runTask_hushed]
                rfl

theorem rounds_hushed (fuel : Nat) :
    (session.hushed silencing).rounds fuel = (session.rounds fuel).hushed silencing := by
  induction fuel generalizing session with
  | zero => rfl
  | succ fuel ih =>
      have adopted :=
        adoptKept_hushed silencing (session.runReady session.allowance) (reportSettled_hushed silencing)
      rw [← runReady_hushed] at adopted
      have allowed : (session.hushed silencing).allowance = session.allowance := rfl
      rw [rounds, rounds, allowed, adopted]
      rcases (session.runReady session.allowance).adoptKept reportSettled with ⟨found, settled⟩
      change (if found then _ else _) = hushed silencing (if found then _ else _)
      split
      · exact ih settled
      · rfl

theorem settle_hushed : (session.hushed silencing).settle = session.settle.hushed silencing := by
  rw [settle, settle, adoptKept_hushed silencing session (reportSettled_hushed silencing)]
  rcases session.adoptKept reportSettled with ⟨found, adopted⟩
  cases keeper : adopted.world.keeper with
  | virtual clock =>
      simp only [keeper, keeper_hushed_virtual silencing keeper]
      exact adopted.passes_hushed silencing adopted.allowance
  | tasks clock =>
      simp only [keeper, keeper_hushed_tasks silencing keeper]
      exact adopted.rounds_hushed silencing adopted.allowance

theorem ring_hushed (target : Duration) (fuel : Nat) :
    (session.hushed silencing).ring target fuel = (session.ring target fuel).hushed silencing := by
  induction fuel generalizing session with
  | zero => rfl
  | succ fuel ih =>
      cases keeper : session.world.keeper with
      | virtual clock =>
          simp only [ring, keeper, keeper_hushed_virtual silencing keeper]
      | tasks clock =>
          rw [ring, ring, keeper, keeper_hushed_tasks silencing keeper]
          -- Both clocks have the same alarms, so both move to the same moment and wake the same tasks.
          let moment := (clock.nextAlarm? target).getD target
          let moved : World S Action (Action alphabet) :=
            { session.world with keeper := .tasks (clock.moveTo moment).2 }
          have woken := World.hush_wakeAll silencing.mute moved (clock.moveTo moment).1
          have ran := runReady_hushed silencing
            { session with world := (clock.moveTo moment).1.foldl World.wake moved } session.allowance
          rw [hushed, woken] at ran
          change (if ((clock.moveTo moment).2.nextAlarm? target).isNone ∧ moment = target then
              runReady { session.hushed silencing with world := _ } session.allowance
            else ring (runReady { session.hushed silencing with world := _ } session.allowance) target fuel) =
            hushed silencing (if ((clock.moveTo moment).2.nextAlarm? target).isNone ∧ moment = target then _
              else _)
          split
          · exact ran
          · exact (congrArg (·.ring target fuel) ran).trans (ih _)

/-! ## Steps -/

theorem replyRoot_hushed (hold : Bool) (body : Pending S Action (Action alphabet) .report) :
    (session.hushed silencing).replyRoot hold (body.hushed silencing) =
      ((session.replyRoot hold body).1, (session.replyRoot hold body).2.hushed silencing) := by
  rw [replyRoot, replyRoot, addRoot_hushed]

theorem replySettling_hushed (hold : Bool)
    {loud soft : Run S Action (Action alphabet) (Settling S Action (Action alphabet))}
    (same : HushedIn silencing.mute (Pending.hushed silencing) loud soft session.world) :
    (session.hushed silencing).replySettling hold soft =
      ((session.replySettling hold loud).1, (session.replySettling hold loud).2.hushed silencing) := by
  rw [replySettling, replySettling, session.perform_hushed silencing same]
  rcases session.perform loud with ⟨result, after⟩
  cases result with
  | error halt => rfl
  | ok caused =>
      dsimp only [Except.map]
      rw [reportSettled_hushed]
      exact after.replyRoot_hushed silencing hold (reportSettled caused)

theorem store?_hushed : (session.hushed silencing).store? = session.store?.map (Store.hushed silencing) := by
  rw [store?, store?, hushed]
  cases session.host with
  | recording options plan => rfl
  | store held =>
      change (if session.world.isOpen then some (held.hushed silencing) else none) =
        Option.map (Store.hushed silencing) (if session.world.isOpen then some held else none)
      split <;> rfl

theorem without_hushed (number : Nat) :
    { session.hushed silencing with
      roots := (session.hushed silencing).roots.filter (·.number ≠ number) } =
      hushed silencing { session with roots := session.roots.filter (·.number ≠ number) } := by
  simp only [hushed, List.filter_map]
  rfl

theorem release_hushed (number : Nat) :
    (session.hushed silencing).release number = (session.release number).hushed silencing := by
  have found : (session.hushed silencing).roots.find? (·.number = number) =
      (session.roots.find? (·.number = number)).map (Root.hushed silencing) := by
    simp only [hushed, List.find?_map]
    rfl
  rw [release, release, found, without_hushed]
  cases session.roots.find? (·.number = number) with
  | none => rfl
  | some root =>
      cases keeper : session.world.keeper with
      | virtual clock => rw [keeper_hushed_virtual silencing keeper]; rfl
      | tasks clock =>
          rw [keeper_hushed_tasks silencing keeper]
          exact activate_hushed silencing _ number root.body

theorem cancel_hushed (number : Nat) :
    (session.hushed silencing).cancel number = (session.cancel number).hushed silencing := by
  rw [cancel, cancel, without_hushed]
  generalize remaining : { session with roots := session.roots.filter (·.number ≠ number) } = left
  have tasks : (left.hushed silencing).tasks = left.tasks := rfl
  cases keeper : left.world.keeper with
  | virtual clock => simp only [keeper_hushed_virtual silencing keeper]
  | tasks clock =>
      simp only [keeper_hushed_tasks silencing keeper, tasks]
      cases left.tasks.find? (·.1 = number) with
      | none => rfl
      | some entry =>
          dsimp only
          rw [TaskClock.map_abort]
          rfl

end Session

/-- What is asked, without the lines that are left out. -/
def Step.hushed : Step S Action alphabet → Step S Action alphabet
  | .execute cmd hold => .execute (cmd.map (Cmd.hushed silencing)) hold
  | .start loop hold => .start (loop.map (Loop.hushed silencing)) hold
  | .launch cmd hold => .launch (cmd.map (Cmd.hushed silencing)) hold
  | .schedule delay repeating task => .schedule delay repeating (task.hushed silencing)
  | .spawn task => .spawn (task.hushed silencing)
  | asked => asked

namespace Session

variable [∀ alphabet, Tagged (Action alphabet)] (session : Session S Action alphabet)

theorem act_execute_hushed (cmd : Except Refusal (Cmd S Action alphabet)) (hold : Bool) :
    (session.hushed silencing).act (.execute (cmd.map (Cmd.hushed silencing)) hold) =
      ((session.act (.execute cmd hold)).1, (session.act (.execute cmd hold)).2.hushed silencing) := by
  cases cmd with
  | error refused => rfl
  | ok cmd =>
      have executed : (cmd.execute session.host.options).hush silencing.mute (Verdict.hushed silencing) =
          (cmd.hushed silencing).execute (session.hushed silencing).host.options := by
        rw [hushed, Host.options_hushed]
        exact cmd.hushed_execute silencing session.host.options
      have run := Prompt.run_hushed silencing.spares (session.engine_hushed silencing)
        (Verdict.hushed silencing) (cmd.execute session.host.options) rfl
      rw [executed] at run
      rw [Except.map, act, act, session.perform_hushed silencing run]
      rcases session.perform ((cmd.execute session.host.options).run session.engine) with
        ⟨result, after⟩
      cases result with
      | error halt => rfl
      | ok verdict =>
          cases verdict with
          | error cause => rfl
          | ok found =>
              cases found with
              | none => rfl
              | some pending =>
                  dsimp only [Except.map, Verdict.hushed, Option.map]
                  rw [reportActions_hushed]
                  exact after.replyRoot_hushed silencing hold (reportActions pending)

theorem act_start_hushed (loop : Except Refusal (Loop S Action alphabet)) (hold : Bool) :
    (session.hushed silencing).act (.start (loop.map (Loop.hushed silencing)) hold) =
      ((session.act (.start loop hold)).1, (session.act (.start loop hold)).2.hushed silencing) := by
  have soft := session.store?_hushed silencing
  cases found : session.store? with
  | none =>
      rw [found] at soft
      simp only [act, found, soft, Option.map_none]
  | some held =>
      rw [found] at soft
      cases loop with
      | error refused => simp only [Except.map, act, found, soft, Option.map_some]
      | ok loop =>
          simp only [Except.map, act, found, soft, Option.map_some]
          exact session.replySettling_hushed silencing hold
            (held.start_hushed silencing (session.engine_hushed silencing) rfl loop)

theorem act_launch_hushed (cmd : Except Refusal (Cmd S Action alphabet)) (hold : Bool) :
    (session.hushed silencing).act (.launch (cmd.map (Cmd.hushed silencing)) hold) =
      ((session.act (.launch cmd hold)).1, (session.act (.launch cmd hold)).2.hushed silencing) := by
  have soft := session.store?_hushed silencing
  cases found : session.store? with
  | none =>
      rw [found] at soft
      simp only [act, found, soft, Option.map_none]
  | some held =>
      rw [found] at soft
      cases cmd with
      | error refused => simp only [Except.map, act, found, soft, Option.map_some]
      | ok cmd =>
          simp only [Except.map, act, found, soft, Option.map_some]
          exact session.replySettling_hushed silencing hold
            (held.launch_hushed silencing (session.engine_hushed silencing) rfl cmd)

theorem act_advance_hushed (span : Duration) (hold : Bool) :
    (session.hushed silencing).act (.advance span hold) =
      ((session.act (.advance span hold)).1, (session.act (.advance span hold)).2.hushed silencing) := by
  cases keeper : session.world.keeper with
  | virtual clock =>
      have advanced : Pending.hushed silencing (.advance span (.done (.string "advanced")) :
          Pending S Action (Action alphabet) .report) = .advance span (.done (.string "advanced")) :=
        Pending.Within.hush ⟨fun _ => nofun, fun _ => ⟨trivial, fun index => index.elim0, trivial⟩⟩
      simp only [act, keeper, keeper_hushed_virtual silencing keeper]
      rw [← advanced, replyRoot_hushed, advanced]
  | tasks clock =>
      simp only [act, keeper, keeper_hushed_tasks silencing keeper]
      exact congrArg (Prod.mk Reply.nothing) (session.ring_hushed silencing _ session.allowance)

/-- Whatever is asked, a session does the same without the lines that are left out. -/
theorem act_hushed (asked : Step S Action alphabet) :
    (session.hushed silencing).act (asked.hushed silencing) =
      ((session.act asked).1, (session.act asked).2.hushed silencing) := by
  have spares := silencing.spares
  cases asked with
  | execute cmd hold => exact session.act_execute_hushed silencing cmd hold
  | dispatch action hold =>
      exact session.replySettling_hushed silencing hold
        ((session.engine_hushed silencing).dispatch action session.world rfl)
  | dispatchAll actions hold =>
      let sent : Settling S Action (Action alphabet) :=
        .sendAll (actions.map pure) fun result => .done result
      have reported : (reportSettled sent).hushed silencing = reportSettled sent :=
        (reportSettled_hushed silencing sent).symm
      have replied := session.replyRoot_hushed silencing hold (reportSettled sent)
      rw [reported] at replied
      exact replied
  | start loop hold => exact session.act_start_hushed silencing loop hold
  | launch cmd hold => exact session.act_launch_hushed silencing cmd hold
  | getState =>
      have soft := session.store?_hushed silencing
      change (session.hushed silencing).act .getState = _
      rw [act, act, soft]
      cases session.store? <;> rfl
  | read => rfl
  | drop => rfl
  | poll root => exact congrArg _ (session.release_hushed silencing root)
  | cancel root => exact congrArg _ (session.cancel_hushed silencing root)
  | schedule delay repeating task =>
      rw [Step.hushed, act, act,
        session.perform_hushed silencing (Run.schedule_hushed session.world spares delay repeating task)]
      rcases session.perform (Run.schedule delay repeating task) with ⟨result, after⟩
      cases result <;> rfl
  | clear handle =>
      change (session.hushed silencing).act (.clear handle) = _
      rw [act, act, session.perform_hushed silencing (Run.clear_hushed session.world spares handle)]
      rcases session.perform (Run.clear handle) with ⟨result, after⟩
      cases result <;> rfl
  | spawn task =>
      rw [Step.hushed, act, act, session.perform_hushed silencing (Run.spawn_hushed session.world task)]
      rcases session.perform (Run.spawn task) with ⟨result, after⟩
      cases result <;> rfl
  | setGate gate isOpen =>
      have set : HushedIn silencing.mute id (Run.perform (.setGate gate isOpen))
          (Run.perform (.setGate gate isOpen)) session.world :=
        Run.perform_hushed session.world spares (.setGate gate isOpen)
      change (session.hushed silencing).act (.setGate gate isOpen) = _
      rw [act, act, session.perform_hushed silencing set]
      rcases session.perform (Run.perform (.setGate gate isOpen)) with ⟨result, after⟩
      cases result <;> rfl
  | advance span hold => exact session.act_advance_hushed silencing span hold

theorem step_hushed (asked : Step S Action alphabet) :
    (session.hushed silencing).step (asked.hushed silencing) =
      ((session.step asked).1, (session.step asked).2.hushed silencing) := by
  rw [step, step, act_hushed]
  exact congrArg (Prod.mk _) ((session.act asked).2.settle_hushed silencing)

/-! ## Scripts -/

/-- Do what a script asks, step by step.  The answer is the replies and what has become of the session. -/
def serve (session : Session S Action alphabet) :
    List (Step S Action alphabet) → List (Reply S) × Session S Action alphabet
  | [] => ([], session)
  | asked :: rest =>
      let (reply, session) := session.step asked
      let (replies, session) := session.serve rest
      (reply :: replies, session)

theorem serve_hushed (script : List (Step S Action alphabet)) :
    (session.hushed silencing).serve (script.map (Step.hushed silencing)) =
      ((session.serve script).1, (session.serve script).2.hushed silencing) := by
  induction script generalizing session with
  | nil => rfl
  | cons asked rest ih =>
      rw [List.map_cons, serve, serve, step_hushed]
      dsimp only
      rw [ih]

end Session

end Hushed

/-! ## Loud and quiet sessions -/

/-- A scheduler without its tasks: its time, its schedules, and what is queued. -/
inductive Agenda where
  | virtual (clock : VirtualClock Unit)
  | tasks (clock : TaskClock Unit)

/-- What the scheduler has to do. -/
def Keeper.agenda : Keeper S Action A → Agenda
  | .virtual clock => .virtual (clock.map fun _ => ())
  | .tasks clock => .tasks (clock.map fun _ => ())

theorem Keeper.agenda_hush (mute : LogEntry → Bool) (keeper : Keeper S Action A) :
    (keeper.hush mute).agenda = keeper.agenda := by
  cases keeper with
  | virtual clock => exact congrArg Agenda.virtual (clock.map_map _ _)
  | tasks clock => exact congrArg Agenda.tasks (clock.map_map _ _)

/-- Two sessions that can be told apart by nothing but the muted lines of the log. -/
structure Session.AlikeBut (mute : LogEntry → Bool) (left right : Session S Action alphabet) : Prop where
  state : right.world.state = left.world.state
  reads : right.world.reads = left.world.reads
  agenda : right.world.keeper.agenda = left.world.keeper.agenda
  roots : right.roots.map (·.number) = left.roots.map (·.number)
  events : right.world.trace.filter (·.isAudible mute) = left.world.trace.filter (·.isAudible mute)

theorem Session.alikeBut_of_hushed (silencing : Silencing) {left right : Session S Action alphabet}
    (same : right.hushed silencing = left.hushed silencing) : left.AlikeBut silencing.mute right where
  state := congrArg (·.world.state) same
  reads := congrArg (·.world.reads) same
  agenda := by
    have keeper := congrArg (·.world.keeper.agenda) same
    rwa [← Keeper.agenda_hush silencing.mute, ← left.world.keeper.agenda_hush silencing.mute]
  roots := by
    have numbers := congrArg (·.roots.map (·.number)) same
    simp only [Session.hushed, List.map_map] at numbers
    exact numbers
  events := congrArg (·.world.trace) same

/-- Two sessions that can be told apart by nothing but lines about handled failures. -/
structure Session.Alike (loud quiet : Session S Action alphabet) : Prop where
  state : quiet.world.state = loud.world.state
  reads : quiet.world.reads = loud.world.reads
  /-- Schedules with their handles and due times, the clock, and the work that is queued. -/
  agenda : quiet.world.keeper.agenda = loud.world.keeper.agenda
  roots : quiet.roots.map (·.number) = loud.roots.map (·.number)
  /-- All that was observed, delivered, committed, dispatched, noted or reported, and the other lines of
  the log, in the same order. -/
  events : quiet.world.trace.filter (·.isAudible LogEntry.isHandled) =
    loud.world.trace.filter (·.isAudible LogEntry.isHandled)

theorem Session.alike_of_hushed {loud quiet : Session S Action alphabet}
    (same : quiet.hushed .handledFailures = loud.hushed .handledFailures) : loud.Alike quiet :=
  let alike := alikeBut_of_hushed .handledFailures same
  ⟨alike.state, alike.reads, alike.agenda, alike.roots, alike.events⟩

/-- The session with other options of its host. -/
def Session.withOptions (session : Session S Action alphabet) (options : Options) :
    Session S Action alphabet :=
  { session with host := session.host.withOptions options }

/-- Nobody but the interpreter writes lines about handled failures, and there are none so far. -/
structure Session.Discreet (session : Session S Action alphabet) : Prop where
  host : session.host.Discreet
  world : session.world.Spared LogEntry.isHandled
  roots : ∀ root ∈ session.roots, root.body.Within .discreet

/-- What is asked brings in nothing that writes a line about a handled failure itself. -/
def Step.Discreet : Step S Action alphabet → Prop
  | .execute (.ok cmd) _ => cmd.Discreet
  | .start (.ok loop) _ => loop.lift.2.Discreet
  | .launch (.ok cmd) _ => cmd.Discreet
  | .schedule _ _ task => task.Within .discreet
  | .spawn task => task.Within .discreet
  | _ => True

theorem Step.Discreet.hushed {asked : Step S Action alphabet} (discreet : asked.Discreet) :
    asked.hushed .handledFailures = asked := by
  cases asked with
  | execute cmd hold =>
      cases cmd with
      | error refused => rfl
      | ok cmd => exact congrArg (fun cmd => Step.execute (.ok cmd) hold) (Cmd.Discreet.hushed discreet)
  | start loop hold =>
      cases loop with
      | error refused => rfl
      | ok loop => exact congrArg (fun loop => Step.start (.ok loop) hold) (loop.hushed_of_discreet discreet)
  | launch cmd hold =>
      cases cmd with
      | error refused => rfl
      | ok cmd => exact congrArg (fun cmd => Step.launch (.ok cmd) hold) (Cmd.Discreet.hushed discreet)
  | schedule delay repeating task =>
      exact congrArg (Step.schedule delay repeating) (Pending.Within.hush discreet)
  | spawn task => exact congrArg Step.spawn (Pending.Within.hush discreet)
  | _ => rfl

theorem Session.Discreet.hushed {session : Session S Action alphabet} (discreet : session.Discreet) :
    (session.withOptions ⟨true⟩).hushed .handledFailures = session.withOptions ⟨true⟩ := by
  have host : (session.host.withOptions ⟨true⟩).hushed .handledFailures =
      session.host.withOptions ⟨true⟩ :=
    discreet.host.hushed ⟨true⟩
  have roots : session.roots.map (Root.hushed .handledFailures) = session.roots := by
    apply map_eq_self
    intro root member
    exact congrArg (fun body => { root with body }) (discreet.roots root member).hush
  have world : session.world.hush Silencing.handledFailures.mute = session.world := discreet.world.hush
  rw [Session.hushed, withOptions, host, world, roots]

namespace Session

variable [∀ alphabet, Tagged (Action alphabet)]

/-- Switching off the log of handled failures changes nothing but the log.  A session that is loud about
handled failures and one that is quiet give the same replies to every script, and end alike, however the
script dispatches, opens gates and moves the clock.  If only the interpreter writes lines about handled
failures, the trace of the quiet session is that of the loud one without them. -/
theorem serve_quiet (session : Session S Action alphabet) (script : List (Step S Action alphabet)) :
    let loud := (session.withOptions ⟨false⟩).serve script
    let quiet := (session.withOptions ⟨true⟩).serve script
    quiet.1 = loud.1 ∧ loud.2.Alike quiet.2 ∧
      (session.Discreet → (∀ asked ∈ script, asked.Discreet) →
        quiet.2.world.trace = loud.2.world.trace.filter (·.isAudible LogEntry.isHandled)) := by
  intro loud quiet
  -- Without the lines about handled failures the two sessions are one, and so are their runs.
  have start : (session.withOptions ⟨true⟩).hushed .handledFailures =
      (session.withOptions ⟨false⟩).hushed .handledFailures := by
    have host : (session.host.withOptions ⟨false⟩).hushed .handledFailures =
        (session.host.withOptions ⟨true⟩).hushed .handledFailures :=
      session.host.hushed_withOptions ⟨false⟩
    rw [hushed, hushed, withOptions, withOptions, host]
  have served : ((session.withOptions ⟨false⟩).hushed .handledFailures).serve
      (script.map (Step.hushed .handledFailures)) = (loud.1, loud.2.hushed .handledFailures) :=
    (session.withOptions ⟨false⟩).serve_hushed .handledFailures script
  have same : (quiet.1, quiet.2.hushed .handledFailures) = (loud.1, loud.2.hushed .handledFailures) := by
    rw [← served, ← start]
    exact ((session.withOptions ⟨true⟩).serve_hushed .handledFailures script).symm
  rw [Prod.mk.injEq] at same
  refine ⟨same.1, alike_of_hushed same.2, ?_⟩
  intro discreet scriptDiscreet
  have asked : script.map (Step.hushed .handledFailures) = script :=
    map_eq_self fun asked member => (scriptDiscreet asked member).hushed
  rw [← start, discreet.hushed, asked] at served
  exact congrArg (·.2.world.trace) served

/-- Two commands that fail and have a fail creator, one in the call and one behind a gate. -/
def breaking : Json → Cmd Nat (fun _ : Unit => Json) ()
  | .null =>
      .run ⟨fun _ => .done (.ready (.error (.message "early"))), [], none,
        some fun _ => pure (.bool true), false⟩
  | .bool false =>
      .run ⟨fun _ => .done (.deferred (.wait "door" (.done (.error (.message "late"))))), [], none,
        some fun _ => pure (.bool true), false⟩
  | _ => .none

theorem breaking_discreet (action : Json) : (breaking action).Discreet := by
  unfold breaking
  split
  · exact fun _ => trivial
  · exact fun _ => trivial
  · trivial

/-- A session whose store counts actions and starts the commands that fail. -/
def counting : Session Nat (fun _ : Unit => Json) () where
  host := .store ⟨fun state action => pure (.ok (.withCmd (state + 1) (breaking action))), .default,
    .silent⟩
  world := .initial 0 (.virtual .initial) (.int 0)
  roots := []
  tasks := []
  lastRoot := 0
  allowance := 4

theorem counting_discreet : counting.Discreet where
  host state action loop answered := by
    cases answered
    exact breaking_discreet action
  world := by
    constructor
    · exact fun _ member => absurd member List.not_mem_nil
    · exact ⟨fun _ member => absurd member List.not_mem_nil,
        fun _ member => absurd member List.not_mem_nil⟩
    · exact fun _ member => absurd member List.not_mem_nil
  roots _ member := absurd member List.not_mem_nil

/-- Both failures are handled; the quiet session logs neither, and counts the same. -/
theorem serve_quiet_counting :
    let script : List (Step Nat (fun _ : Unit => Json) ()) :=
      [.dispatch .null false, .dispatch (.bool false) false, .setGate "door" true]
    let loud := (counting.withOptions ⟨false⟩).serve script
    let quiet := (counting.withOptions ⟨true⟩).serve script
    quiet.2.world.trace = loud.2.world.trace.filter (·.isAudible LogEntry.isHandled) ∧
      quiet.2.world.state = 4 ∧ quiet.2.world.trace.length + 2 = loud.2.world.trace.length := by
  intro script loud quiet
  obtain ⟨-, alike, exactly⟩ := serve_quiet counting script
  have asked : ∀ asked ∈ script, asked.Discreet := by simp [script, Step.Discreet]
  have state : loud.2.world.state = 4 := by decide +kernel
  exact ⟨exactly counting_discreet asked, alike.state.trans state, by decide +kernel⟩

end Session

end EffectLoop
