import EffectLoop.World.Poll
import EffectLoop.Command.Execute
import EffectLoop.Command.Loop

/-!
# Hosts

A host is what dispatched actions go to.  A *recording* host notes each action and follows a plan.
A *store* reduces it: it tells its observer, commits the state that the reducer answers, and starts
the command that comes with it; the actions that the command produces are dispatched in turn.

`Host.engine n` is the engine in which dispatches may nest `n` deep.
-/

namespace EffectLoop

/-- What a recording host makes of an action: it may wait at a gate, leaving a note when it goes
on, and it may fail. -/
structure Plan where
  gate : Option (String × Json)
  failure : Option CmdFailure

/-- A store: a reducer with what its commands need. -/
structure Store (S : Type) {ι : Type} (Action : ι → Type) (alphabet : ι) where
  reducer : Reducer S Action alphabet
  options : Options
  observer : Observer (Action alphabet)

/-- What dispatched actions go to. -/
inductive Host (S : Type) {ι : Type} (Action : ι → Type) (alphabet : ι) where
  | recording (options : Options) (plan : Action alphabet → Plan)
  | store (store : Store S Action alphabet)

variable {S ι : Type} {Action : ι → Type} {alphabet : ι}

/-- What a dispatch causes, still pending. -/
abbrev Settling (S : Type) {ι : Type} (Action : ι → Type) (A : Type) :=
  Pending S Action A .settled

/-- Dispatch the follow-up actions of a command and wait for what they cause. -/
def FollowUp.settle (pending : FollowUp S Action (Action alphabet) alphabet) :
    Settling S Action (Action alphabet) :=
  Pending.bind pending fun
    | .error cause => .done (.error cause)
    | .ok actions => .sendAll (actions.map pure) fun result => .done result

namespace Plan

/-- Carry out a plan: wait, then settle or fail. -/
def pending (plan : Plan) : Settling S Action (Action alphabet) :=
  let result : Except CmdFailure Unit := match plan.failure with
    | some cause => .error cause
    | none => .ok ()
  match plan.gate with
  | none => .done result
  | some (gate, passed) => .wait gate (.noting [passed] (.done result))

end Plan

namespace Store

variable (store : Store S Action alphabet) (engine : Engine S Action (Action alphabet))

/-- Tell the observer. -/
def observe (seen : Observation (Action alphabet)) : Run S Action (Action alphabet) Unit := do
  Run.emit (.observed seen)
  (store.observer seen).forM fun delivery => Run.emit (.delivered delivery)

/-- Replace the host's state. -/
def commit (state : S) : Run S Action (Action alphabet) Unit := do
  Run.update ({ · with state })
  Run.emit (.committed state)

/-- Start a command of the store; what its actions cause is pending. -/
def launch (cmd : Cmd S Action alphabet) :
    Run S Action (Action alphabet) (Settling S Action (Action alphabet)) := do
  if cmd.isNone then pure (.done (.ok ()))
  else
    store.observe (.effect cmd.kind)
    match ← (cmd.execute store.options).run engine with
    | .ok none => pure (.done (.ok ()))
    | .ok (some pending) => pure pending.settle
    | .error cause => pure (.done (.error cause))

/-- Commit a state and start its command. -/
def start (loop : Loop S Action alphabet) :
    Run S Action (Action alphabet) (Settling S Action (Action alphabet)) := do
  commit loop.lift.1
  store.launch engine loop.lift.2

/-- Reduce an action. -/
def reduce (action : Action alphabet) :
    Run S Action (Action alphabet) (Loop S Action alphabet) := do
  let state ← Run.perform .readState
  match ← Run.adopt (store.reducer state action) with
  | .ok loop => pure loop
  | .error refused => Run.panic refused.message

/-- Reduce an action, commit its state, and start its command. -/
def dispatch (action : Action alphabet) :
    Run S Action (Action alphabet) (Settling S Action (Action alphabet)) := do
  store.observe (.dispatch action)
  store.start engine (← store.reduce action)

end Store

namespace Host

/-- The options of the interpreter. -/
def options : Host S Action alphabet → Options
  | recording options _ => options
  | store held => held.options

/-- What the host makes of an action.  A closed store makes nothing of it. -/
def dispatch (host : Host S Action alphabet) (engine : Engine S Action (Action alphabet))
    (action : Action alphabet) :
    Run S Action (Action alphabet) (Settling S Action (Action alphabet)) := do
  match host with
  | recording _ plan =>
      Run.emit (.dispatched action)
      pure ((plan action).pending)
  | store held =>
      if (← get).isOpen then held.dispatch engine action
      else pure (.done (.error .storeClosed))

/-- The engine in which dispatches may nest `depth` deep. -/
def engine (host : Host S Action alphabet) : (depth : Nat) → Engine S Action (Action alphabet)
  | 0 => ⟨fun _ => throw .exhausted, fun _ _ => throw .exhausted⟩
  | depth + 1 =>
      { dispatch := fun action => host.dispatch (host.engine depth) action
        poll := fun waiter pending => pending.poll (host.engine depth) waiter }

end Host

end EffectLoop
