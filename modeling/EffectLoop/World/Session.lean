import EffectLoop.World.Host

/-!
# Sessions

A session drives a host step by step.  A step may leave a *root*, a pending computation that the
session polls until it is over.  After every step the session *settles*: it polls what can go on
until nothing can, without moving the clock.

With a virtual clock all roots are polled in passes, in the order of their numbers.  With a task
clock a root is a task like any other, and ready tasks run first come, first served.
-/

namespace EffectLoop

variable {S ι : Type} {Action : ι → Type} {alphabet : ι}

/-- A root that the session polls itself, or holds back until it is asked for. -/
structure Root (S : Type) {ι : Type} (Action : ι → Type) (A : Type) where
  number : Nat
  held : Bool
  body : Pending S Action A .report

/-- A host with its world and its roots. -/
structure Session (S : Type) {ι : Type} (Action : ι → Type) (alphabet : ι) where
  host : Host S Action alphabet
  world : World S Action (Action alphabet)
  /-- In order of their numbers. -/
  roots : List (Root S Action (Action alphabet))
  /-- The roots that are tasks of a task clock. -/
  tasks : List (Nat × Nat)
  lastRoot : Nat
  /-- How deep dispatches may nest, and how long settling may take. -/
  allowance : Nat

/-- What is asked of a session. -/
inductive Step (S : Type) {ι : Type} (Action : ι → Type) (alphabet : ι) where
  /-- Execute a command in the context of the host. -/
  | execute (cmd : Except Refusal (Cmd S Action alphabet)) (hold : Bool)
  | dispatch (action : Action alphabet) (hold : Bool)
  | dispatchAll (actions : List (Action alphabet)) (hold : Bool)
  /-- Commit a state and start its command. -/
  | start (loop : Except Refusal (Loop S Action alphabet)) (hold : Bool)
  /-- Start a command of the store. -/
  | launch (cmd : Except Refusal (Cmd S Action alphabet)) (hold : Bool)
  /-- Ask the store for its state. -/
  | getState
  /-- Ask the state reader. -/
  | read
  /-- Drop the store; what it has handed out stays. -/
  | drop
  | poll (root : Nat)
  | cancel (root : Nat)
  | schedule (delay : Duration) (repeating : Bool)
      (task : Pending S Action (Action alphabet) .finished)
  | clear (handle : TimerHandle)
  | spawn (task : Pending S Action (Action alphabet) .finished)
  | setGate (gate : String) (isOpen : Bool)
  | advance (span : Duration) (hold : Bool)

/-- What a session answers to a step. -/
inductive Reply (S : Type) where
  | nothing
  /-- No action is or will be produced. -/
  | noFollowUp
  /-- There is no store. -/
  | noStore
  | root (number : Nat)
  | handle (handle : TimerHandle)
  | flag (value : Bool)
  | state (state : S)
  | failed (cause : CmdFailure)
  | panicked (message : String)

namespace Halt

/-- What a halt says. -/
def message : Halt → String
  | panic message => message
  | exhausted => "dispatches are nested too deeply"

end Halt

namespace Session

/-- The engine of a session. -/
def engine (session : Session S Action alphabet) : Engine S Action (Action alphabet) :=
  session.host.engine session.allowance

/-- Perform a computation in the world of a session. -/
def perform {α : Type} (session : Session S Action alphabet)
    (computation : Run S Action (Action alphabet) α) :
    Except Halt α × Session S Action alphabet :=
  let (answer, world) := computation session.world
  (answer, { session with world })

/-- Add an event to the trace. -/
def emit (session : Session S Action alphabet) (event : Event S (Action alphabet)) :
    Session S Action alphabet :=
  { session with world := session.world.emit event }

/-! ## Roots -/

/-- Hand a root over to the scheduler, if it runs roots. -/
def activate (session : Session S Action alphabet) (number : Nat)
    (body : Pending S Action (Action alphabet) .report) : Session S Action alphabet :=
  match session.world.keeper with
  | .virtual _ => { session with roots := session.roots ++ [⟨number, false, body⟩] }
  | .tasks clock =>
      let (task, clock) := clock.spawn (.root number body)
      { session with
        tasks := session.tasks ++ [(number, task)]
        world := { session.world with keeper := .tasks clock } }

/-- Add a root. -/
def addRoot (session : Session S Action alphabet) (hold : Bool)
    (body : Pending S Action (Action alphabet) .report) : Nat × Session S Action alphabet :=
  let number := session.lastRoot + 1
  let session := { session with lastRoot := number }
  if hold then (number, { session with roots := session.roots ++ [⟨number, true, body⟩] })
  else (number, session.activate number body)

/-- Make roots of what was kept; the answer says whether there was any. -/
def adoptKept (session : Session S Action alphabet)
    (report : Settling S Action (Action alphabet) → Pending S Action (Action alphabet) .report) :
    Bool × Session S Action alphabet :=
  let kept := session.world.kept
  let emptied := { session with world := { session.world with kept := [] } }
  (!kept.isEmpty,
    kept.foldl (fun session caused => (session.addRoot false (report caused)).2) emptied)

/-- Set the stirred mark aside. -/
def calm (session : Session S Action alphabet) : Session S Action alphabet :=
  { session with world := { session.world with stirred := false } }

/-- Poll a root once.  One that is over, or that panics, is gone. -/
def pollRoot (session : Session S Action alphabet) (root : Root S Action (Action alphabet)) :
    Option (Root S Action (Action alphabet)) × Session S Action alphabet :=
  match session.perform (root.body.poll session.engine ⟨root.number, []⟩) with
  | (.ok left, session) =>
      match left.result? with
      | some result => (none, session.emit (.ended root.number result))
      | none => (some { root with body := left }, session)
  | (.error halt, session) => (none, session.emit (.panicked root.number halt.message))

/-- Poll the given roots once each, keeping those that are not over. -/
def pollAll (session : Session S Action alphabet) :
    List (Root S Action (Action alphabet)) →
      List (Root S Action (Action alphabet)) × Session S Action alphabet
  | [] => ([], session)
  | root :: rest =>
      if root.held then
        let (left, session) := session.pollAll rest
        (root :: left, session)
      else
        let (kept, session) := session.pollRoot root
        let (left, session) := session.pollAll rest
        (kept.toList ++ left, session)

/-! ## Settling -/

/-- What a root reports of what a dispatch has caused. -/
def reportSettled (caused : Settling S Action (Action alphabet)) :
    Pending S Action (Action alphabet) .report :=
  caused.bind fun
    | .ok () => .done (Json.ofFields [("ok", .null)])
    | .error cause => .done cause.encode

/-- What a root reports of the follow-up actions of a command. -/
def reportActions [∀ alphabet, Tagged (Action alphabet)]
    (pending : FollowUp S Action (Action alphabet) alphabet) :
    Pending S Action (Action alphabet) .report :=
  Pending.bind pending fun
    | .ok actions => .done (Json.ofFields [("ok", .array (actions.map Tagged.encode))])
    | .error cause => .done cause.encode

/-- Passes over all roots, until one wakes nothing and leaves nothing to adopt. -/
def passes (session : Session S Action alphabet) : (fuel : Nat) → Session S Action alphabet
  | 0 => session
  | fuel + 1 =>
      let (roots, session) := session.calm.pollAll session.roots
      let (adopted, session) := { session with roots }.adoptKept reportSettled
      if adopted || session.world.stirred then session.passes fuel else session

/-- Run one ready task of a task clock. -/
def runTask (session : Session S Action alphabet)
    (clock : TaskClock (LocalTask S Action (Action alphabet))) (task : Nat)
    (body : LocalTask S Action (Action alphabet)) : Session S Action alphabet :=
  let waiter : Waiter := ⟨task, []⟩
  let after (session : Session S Action alphabet)
      (change : TaskClock (LocalTask S Action (Action alphabet)) →
        TaskClock (LocalTask S Action (Action alphabet))) : Session S Action alphabet :=
    match session.world.keeper with
    | .virtual _ => session
    | .tasks clock =>
        { session with world := { session.world with keeper := .tasks (change clock) } }
  let session := { session with world := { session.world with keeper := .tasks clock } }
  match body with
  | .background body =>
      match session.perform (body.poll session.engine waiter) with
      | (.ok left, session) =>
          match left.result? with
          | some _ => after session (·.retire task)
          | none => after session (·.putBack task (.background left))
      | (.error _, session) => after session (·.retire task)
  | .root number body =>
      match session.perform (body.poll session.engine waiter) with
      | (.ok left, session) =>
          match left.result? with
          | some result => after (session.emit (.ended number result)) (·.retire task)
          | none => after session (·.putBack task (.root number left))
      | (.error halt, session) =>
          after (session.emit (.panicked number halt.message)) (·.retire task)

/-- Run ready tasks until there is none. -/
def runReady (session : Session S Action alphabet) : (fuel : Nat) → Session S Action alphabet
  | 0 => session
  | fuel + 1 =>
      match session.world.keeper with
      | .virtual _ => session
      | .tasks clock =>
          if clock.ready.isEmpty then session
          else
            match clock.takeReady with
            | (some (task, body), clock) => (session.runTask clock task body).runReady fuel
            | (none, clock) =>
                let world := { session.world with keeper := .tasks clock }
                { session with world }.runReady fuel

/-- Run ready tasks and adopt what was kept, until there is neither. -/
def rounds (session : Session S Action alphabet) : (fuel : Nat) → Session S Action alphabet
  | 0 => session
  | fuel + 1 =>
      let (adopted, session) := (session.runReady session.allowance).adoptKept reportSettled
      if adopted then session.rounds fuel else session

/-- Poll what can go on until nothing can. -/
def settle (session : Session S Action alphabet) : Session S Action alphabet :=
  let (_, session) := session.adoptKept reportSettled
  match session.world.keeper with
  | .virtual _ => session.passes session.allowance
  | .tasks _ => session.rounds session.allowance

/-- Move a task clock to every alarm up to `target`, running what becomes ready at each. -/
def ring (session : Session S Action alphabet) (target : Duration) :
    (fuel : Nat) → Session S Action alphabet
  | 0 => session
  | fuel + 1 =>
      match session.world.keeper with
      | .virtual _ => session
      | .tasks clock =>
          let moment := (clock.nextAlarm? target).getD target
          let (woken, clock) := clock.moveTo moment
          let world := woken.foldl World.wake { session.world with keeper := .tasks clock }
          let session := { session with world }.runReady session.allowance
          if (clock.nextAlarm? target).isNone ∧ moment = target then session
          else session.ring target fuel

/-! ## Steps -/

/-- The reply to a step that makes a root. -/
def replyRoot (session : Session S Action alphabet) (hold : Bool)
    (body : Pending S Action (Action alphabet) .report) : Reply S × Session S Action alphabet :=
  let (number, session) := session.addRoot hold body
  (.root number, session)

/-- The reply to a step that dispatches. -/
def replySettling (session : Session S Action alphabet) (hold : Bool)
    (computation : Run S Action (Action alphabet) (Settling S Action (Action alphabet))) :
    Reply S × Session S Action alphabet :=
  match session.perform computation with
  | (.ok caused, session) => session.replyRoot hold (reportSettled caused)
  | (.error halt, session) => (.panicked halt.message, session)

/-- The store, if there is one and it still reduces. -/
def store? (session : Session S Action alphabet) : Option (Store S Action alphabet) :=
  match session.host with
  | .store store => if session.world.isOpen then some store else none
  | .recording _ _ => none

/-- Take a root from the session and hand it over to the scheduler.  A task clock runs it from now
on; a virtual clock runs no roots, so there it is gone. -/
def release (session : Session S Action alphabet) (number : Nat) : Session S Action alphabet :=
  match session.roots.find? (·.number = number), session.world.keeper with
  | some root, .tasks _ =>
      { session with roots := session.roots.filter (·.number ≠ number) }.activate number root.body
  | _, _ => { session with roots := session.roots.filter (·.number ≠ number) }

/-- Drop a root. -/
def cancel (session : Session S Action alphabet) (number : Nat) : Session S Action alphabet :=
  let session := { session with roots := session.roots.filter (·.number ≠ number) }
  match session.world.keeper with
  | .virtual _ => session
  | .tasks clock =>
      match session.tasks.find? (·.1 = number) with
      | none => session
      | some (_, task) =>
          { session with world := { session.world with keeper := .tasks (clock.abort task) } }

/-- Do what a step asks, before settling. -/
def act [∀ alphabet, Tagged (Action alphabet)] (session : Session S Action alphabet) :
    Step S Action alphabet → Reply S × Session S Action alphabet
  | .execute (.error refused) _ => (.panicked refused.message, session)
  | .execute (.ok cmd) hold =>
      match session.perform ((cmd.execute session.host.options).run session.engine) with
      | (.ok (.ok none), session) => (.noFollowUp, session)
      | (.ok (.ok (some pending)), session) => session.replyRoot hold (reportActions pending)
      | (.ok (.error cause), session) => (.failed cause, session)
      | (.error halt, session) => (.panicked halt.message, session)
  | .dispatch action hold => session.replySettling hold (session.engine.dispatch action)
  | .dispatchAll actions hold =>
      session.replyRoot hold
        (reportSettled (.sendAll (actions.map pure) fun result => .done result))
  | .start loop hold =>
      match session.store?, loop with
      | none, _ => (.noStore, session)
      | some _, .error refused => (.panicked refused.message, session)
      | some store, .ok loop => session.replySettling hold (store.start session.engine loop)
  | .launch cmd hold =>
      match session.store?, cmd with
      | none, _ => (.noStore, session)
      | some _, .error refused => (.panicked refused.message, session)
      | some store, .ok cmd => session.replySettling hold (store.launch session.engine cmd)
  | .getState =>
      match session.store? with
      | none => (.noStore, session)
      | some _ =>
          match session.perform (Run.perform .readState) with
          | (.ok state, session) => (.state state, session)
          | (.error halt, session) => (.panicked halt.message, session)
  | .read =>
      match session.perform (Run.perform .readState) with
      | (.ok state, session) => (.state state, session)
      | (.error halt, session) => (.panicked halt.message, session)
  | .drop => (.nothing, { session with world := { session.world with isOpen := false } })
  | .poll root => (.nothing, session.release root)
  | .cancel root => (.nothing, session.cancel root)
  | .schedule delay repeating task =>
      match session.perform (Run.schedule delay repeating task) with
      | (.ok handle, session) => (.handle handle, session)
      | (.error halt, session) => (.panicked halt.message, session)
  | .clear handle =>
      match session.perform (Run.clear handle) with
      | (.ok cleared, session) => (.flag cleared, session)
      | (.error halt, session) => (.panicked halt.message, session)
  | .spawn task =>
      match session.perform (Run.spawn task) with
      | (.ok _, session) => (.nothing, session)
      | (.error halt, session) => (.panicked halt.message, session)
  | .setGate gate isOpen =>
      match session.perform (Run.perform (.setGate gate isOpen)) with
      | (.ok _, session) => (.nothing, session)
      | (.error halt, session) => (.panicked halt.message, session)
  | .advance span hold =>
      match session.world.keeper with
      | .virtual _ =>
          session.replyRoot hold (.advance span (.done (.string "advanced")))
      | .tasks clock =>
          let moment := clock.moment span
          (.nothing, session.ring (moment.ceilMillis?.getD moment) session.allowance)

/-- Do what a step asks and settle. -/
def step [∀ alphabet, Tagged (Action alphabet)] (session : Session S Action alphabet)
    (asked : Step S Action alphabet) : Reply S × Session S Action alphabet :=
  let (reply, session) := session.act asked
  (reply, session.settle)

/-- The events since they were last taken, the earliest first. -/
def takeTrace (session : Session S Action alphabet) :
    List (Event S (Action alphabet)) × Session S Action alphabet :=
  (session.world.trace.reverse, { session with world := { session.world with trace := [] } })

end Session

end EffectLoop
