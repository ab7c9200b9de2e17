import EffectLoop.Command.Build
import EffectLoop.Command.Options

/-!
# Executing a command

`Cmd.execute` turns a command into the effects of starting it.  What it answers is the *verdict* of
the call: an error, nothing, or a pending computation of the follow-up actions.  `nothing` says
that no action is or will be produced.  An error is answered only for a RUN, possibly tagged, that
fails when it is called and has no fail creator; every other failure is a result of the pending
computation.

* A parallel list starts all of its commands in the call, a sequential one only its head.
* A tagged command sends tagged actions, and its results are tagged when it is done.
* A scheduled command registers a task that executes the command again at every firing.
-/

namespace EffectLoop

variable {S ι : Type} {Action : ι → Type} {A : Type} {alphabet child : ι} {answer : Answer ι}

/-- The follow-up actions of a command, still pending. -/
abbrev FollowUp (S : Type) {ι : Type} (Action : ι → Type) (A : Type) (alphabet : ι) :=
  Pending S Action A (.actions alphabet)

/-- The verdict of starting a command. -/
abbrev Verdict (S : Type) {ι : Type} (Action : ι → Type) (A : Type) (alphabet : ι) :=
  Except CmdFailure (Option (FollowUp S Action A alphabet))

/-- The effects of starting a command, with its verdict. -/
abbrev Start (S : Type) {ι : Type} (Action : ι → Type) (alphabet : ι) :=
  Prompt S Action (Action alphabet) (Verdict S Action (Action alphabet) alphabet)

namespace FollowUp

/-- The given actions at once. -/
def now (actions : List (Action alphabet)) : FollowUp S Action A alphabet := .done (.ok actions)

/-- A failure at once. -/
def failed (cause : CmdFailure) : FollowUp S Action A alphabet := .done (.error cause)

/-- Go on with the actions, unless there is a failure. -/
def andThen (first : FollowUp S Action A child)
    (after : List (Action child) → FollowUp S Action A alphabet) :
    FollowUp S Action A alphabet :=
  Pending.bind first fun
    | .ok actions => after actions
    | .error cause => failed cause

/-- Dispatch the actions and wait for what they cause; no action is left. -/
def dispatched (first : FollowUp S Action (Action alphabet) alphabet) :
    FollowUp S Action (Action alphabet) alphabet :=
  first.andThen fun actions => .sendAll (actions.map pure) fun
    | .ok () => now []
    | .error cause => failed cause

/-- The results of a parallel list: the failure of the first sibling that failed, or all actions in
order. -/
def collect {count : Nat} (results : Fin count → Except CmdFailure (List (Action alphabet))) :
    Except CmdFailure (List (Action alphabet)) :=
  List.flatten <$> (List.ofFn results).mapM id

/-- Wait for all siblings. -/
def all (siblings : List (FollowUp S Action A alphabet)) : FollowUp S Action A alphabet :=
  .join none siblings.get fun results => .done (collect results)

/-- Tag the sent actions and the results. -/
def tagged (tagger : Action child → Noted (Action alphabet))
    (first : FollowUp S Action (Action child) child) :
    FollowUp S Action (Action alphabet) alphabet :=
  FollowUp.andThen (Pending.retag tagger first) fun actions =>
    .withNoted (actions.mapM tagger) now

end FollowUp

/-- The verdict of a command whose action, if any, is known in the call. -/
def Verdict.ofAction (found : Noted (Option (Action alphabet))) :
    Prompt S Action A (Verdict S Action A alphabet) := do
  match ← Prompt.ofNoted found with
  | some action => pure (.ok (some (.now [action])))
  | none => pure (.ok none)

/-- Logging a failure that a fail creator turns into an action, unless that is switched off. -/
def Options.reportHandled (options : Options) (cause : RunFailure) : Primitive :=
  if options.silenceHandled then .skip else .log (.handledFailure cause)

/-- Log a failure that a fail creator turns into an action, then go on. -/
def handledLog (options : Options) (cause : RunFailure) (next : Pending S Action A answer) :
    Pending S Action A answer :=
  .call (options.reportHandled cause) fun _ => next

namespace RunSpec

variable (options : Options) (spec : RunSpec S Action (Action alphabet))

/-- The follow-up action for an outcome that was pending.  Without a fail creator a failure is only
logged. -/
def settle : Except RunFailure Json → FollowUp S Action (Action alphabet) alphabet
  | .ok value => .withNoted (spec.successAction value) fun action => FollowUp.now action.toList
  | .error cause =>
      match spec.onFail with
      | some creator =>
          handledLog options cause (.withNoted (creator cause) fun action => FollowUp.now [action])
      | none => .logging (.uncaughtFailure cause) (FollowUp.now [])

/-- Logging the outcome of work that nothing waits for, if it is a failure. -/
def reportDetached : Except RunFailure Json → Primitive
  | .ok _ => .skip
  | .error cause => .log (.detachedFailure cause)

/-- Work that nothing waits for: a failure is logged. -/
def detached (later : Pending S Action A .outcome) : Pending S Action A .finished :=
  later.bind fun outcome => .call (reportDetached outcome) fun _ => .done ()

/-- The verdict for an outcome that is known in the call.  Without a fail creator a failure is the
verdict. -/
def executeReady : Except RunFailure Json → Start S Action alphabet
  | .ok value => Verdict.ofAction (spec.successAction value)
  | .error cause =>
      match spec.onFail with
      | some _ => do
          let _ ← Prompt.perform (options.reportHandled cause)
          Verdict.ofAction (spec.failureAction cause)
      | none => do
          Prompt.perform (.log (.unhandledFailure cause))
          pure (.error (.unhandledFailure cause))

/-- The verdict for an output that is pending.  With `forceSync` nothing waits for it. -/
def executeDeferred (later : Pending S Action (Action alphabet) .outcome) :
    Start S Action alphabet :=
  if spec.forceSync then .spawn (detached later) (Verdict.ofAction (spec.successAction .null))
  else pure (.ok (some (later.bind (spec.settle options))))

/-- Call the function and settle its output. -/
def execute : Start S Action alphabet := do
  match ← spec.func spec.args with
  | .ready outcome => spec.executeReady options outcome
  | .deferred later => spec.executeDeferred options later

end RunSpec

/-- The follow-ups of the siblings of a parallel list: a sibling without one is left out, and an
error is one that fails at once.  Without `batch`, a sibling's actions are dispatched when it is
done. -/
def siblings (batch : Bool) (verdicts : List (Verdict S Action (Action alphabet) alphabet)) :
    List (FollowUp S Action (Action alphabet) alphabet) :=
  verdicts.filterMap fun
    | .ok none => none
    | .ok (some pending) => some (if batch then pending else pending.dispatched)
    | .error cause => some (.failed cause)

/-- Start all commands in the call. -/
def startTogether (batch : Bool) (starts : List (Start S Action alphabet)) :
    Start S Action alphabet := do
  match siblings batch (← starts.mapM id) with
  | [] => pure (.ok none)
  | found => pure (.ok (some (.all found)))

/-- What a sequential list does with the actions of a command: they are collected or dispatched, and
then it goes on. -/
def arrive (batch : Bool)
    (onward : List (Action alphabet) → FollowUp S Action (Action alphabet) alphabet)
    (collected actions : List (Action alphabet)) : FollowUp S Action (Action alphabet) alphabet :=
  if batch then onward (collected ++ actions)
  else .sendAll (actions.map pure) fun
    | .ok () => onward collected
    | .error cause => FollowUp.failed cause

/-- What is left of a sequential list when the command before has given its verdict: its actions
arrive, and then the next command is started. -/
def walk (batch : Bool)
    (rest : List (Start S Action alphabet))
    (collected : List (Action alphabet))
    (verdict : Verdict S Action (Action alphabet) alphabet) :
    FollowUp S Action (Action alphabet) alphabet :=
  let onward (collected : List (Action alphabet)) :
      FollowUp S Action (Action alphabet) alphabet :=
    match rest with
    | [] => FollowUp.now collected
    | next :: later => next.thenPending (walk batch later collected)
  match verdict with
  | .error cause => FollowUp.failed cause
  | .ok none => arrive batch onward collected []
  | .ok (some pending) => pending.andThen (arrive batch onward collected)

/-- How a sequential list goes on: it starts the next command, or is done. -/
def onward (batch : Bool) (rest : List (Start S Action alphabet))
    (collected : List (Action alphabet)) : FollowUp S Action (Action alphabet) alphabet :=
  match rest with
  | [] => .now collected
  | next :: later => next.thenPending (walk batch later collected)

theorem walk_eq (batch : Bool) (rest : List (Start S Action alphabet))
    (collected : List (Action alphabet))
    (verdict : Verdict S Action (Action alphabet) alphabet) :
    walk batch rest collected verdict =
      match verdict with
      | .error cause => .failed cause
      | .ok none => arrive batch (onward batch rest) collected []
      | .ok (some follow) => follow.andThen (arrive batch (onward batch rest) collected) := by
  cases rest <;> rcases verdict with cause | _ | follow <;> rfl

/-- Start the first command in the call; each other one is started when the one before is done. -/
def startInOrder (batch : Bool) : List (Start S Action alphabet) → Start S Action alphabet
  | [] => pure (.ok none)
  | head :: rest => do
      let verdict ← head
      pure (.ok (some (walk batch rest [] verdict)))

/-- One firing of a scheduled command.  Nothing waits for a firing, so its failures end in the log.
-/
def firing (start : Start S Action alphabet) : Pending S Action (Action alphabet) .finished :=
  let failed (cause : CmdFailure) : Pending S Action (Action alphabet) .finished :=
    .logging (.firingFailure cause) (.done ())
  start.thenPending fun
    | .error cause => failed cause
    | .ok none => .done ()
    | .ok (some pending) => Pending.bind pending fun
        | .error cause => failed cause
        | .ok actions => .sendAll (actions.map pure) fun
            | .ok () => .done ()
            | .error cause => failed cause

/-- Start a command. -/
def Cmd.execute (options : Options) : {alphabet : ι} → Cmd S Action alphabet →
    Start S Action alphabet
  | _, .none => pure (.ok Option.none)
  | _, .action sent => pure (.ok (some (.now [sent])))
  | _, .run spec => spec.execute options
  | _, .list cmds false batch =>
      startTogether batch (List.ofFn fun index => (cmds index).execute options)
  | _, .list cmds true batch =>
      startInOrder batch (List.ofFn fun index => (cmds index).execute options)
  | _, .map nested tagger args => do
      match ← (nested.execute options).retag (tagger args) with
      | .error cause => pure (.error cause)
      | .ok Option.none => pure (.ok Option.none)
      | .ok (some pending) => pure (.ok (some (pending.tagged (tagger args))))
  | _, .scheduled nested delay repeating onScheduled =>
      .schedule delay repeating (firing (nested.execute options)) fun handle => do
        Prompt.perform (.log (.commandScheduled handle delay repeating))
        match onScheduled with
        | some creator => Verdict.ofAction (some <$> creator handle)
        | Option.none => pure (.ok Option.none)

end EffectLoop
