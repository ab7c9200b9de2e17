import EffectLoop.Command.Basic

/-!
# Builders

Builders make commands from checked arguments.  A development build refuses an action without a
kind; a production build skips that check, and refuses the option that skips checks in tests.
-/

namespace EffectLoop

/-- The two ways in which a program is built. -/
inductive Mode where
  | development
  | production
  deriving DecidableEq

namespace Validate

/-- An action must have a kind. -/
def action {A : Type} [Tagged A] (action : A) : Except Refusal Unit :=
  if Tagged.kind action = "" then
    .error (.invalidArgument "Cmd::action"
      ("argument must be an action with a non-empty type, got " ++
        (Tagged.outline action).compact))
  else .ok ()

/-- The option that skips checks must not be requested in production. -/
def testInvariants (mode : Mode) (builder : String) (requested : Bool) : Except Refusal Unit :=
  if requested && mode = .production then .error (.testInvariantsInProduction builder) else .ok ()

end Validate

variable {S ι : Type} {Action : ι → Type} {alphabet child : ι}

namespace Cmd

/-- Dispatch an action. -/
def ofAction [Tagged (Action alphabet)] (mode : Mode) (action : Action alphabet) :
    Except Refusal (Cmd S Action alphabet) := do
  if mode = .development then Validate.action action
  pure (.action action)

/-- Run a function and turn its outcome into at most one action. -/
def ofRun (mode : Mode) (spec : RunSpec S Action (Action alphabet)) (testInvariants : Bool) :
    Except Refusal (Cmd S Action alphabet) := do
  Validate.testInvariants mode "Cmd::run" testInvariants
  pure (.run spec)

/-- Several commands at once. -/
def ofListChecked (mode : Mode) (cmds : List (Cmd S Action alphabet))
    (sequence batch testInvariants : Bool) : Except Refusal (Cmd S Action alphabet) := do
  Validate.testInvariants mode "Cmd::list" testInvariants
  pure (.ofList cmds sequence batch)

/-- Run all commands at once and collect their actions in order. -/
def batch (cmds : List (Cmd S Action alphabet)) : Cmd S Action alphabet := .ofList cmds false true

/-- Run commands one after another and collect their actions in order. -/
def inOrder (cmds : List (Cmd S Action alphabet)) : Cmd S Action alphabet := .ofList cmds true true

/-- Tag every action of a child's command. -/
def tagged (nested : Cmd S Action child) (tagger : Action child → Noted (Action alphabet)) :
    Cmd S Action alphabet :=
  .map nested (fun _ => tagger) []

/-- Tag every action of a child's command, given further arguments. -/
def taggedWith (nested : Cmd S Action child)
    (tagger : List Json → Action child → Noted (Action alphabet)) (args : List Json) :
    Cmd S Action alphabet :=
  .map nested tagger args

/-- Execute a command once after a delay. -/
def after (nested : Cmd S Action alphabet) (delay : Duration)
    (onScheduled : Option (TimerHandle → Noted (Action alphabet))) : Cmd S Action alphabet :=
  .scheduled nested delay false onScheduled

/-- Execute a command after every period until the schedule is cleared. -/
def every (nested : Cmd S Action alphabet) (delay : Duration)
    (onScheduled : Option (TimerHandle → Noted (Action alphabet))) : Cmd S Action alphabet :=
  .scheduled nested (repeatPeriod delay) true onScheduled

/-- The function that cancels the schedule named by its first argument, and answers whether there
was one. -/
def cancelling {A : Type} (args : List Arg) : Prompt S Action A (RunResult S Action A) :=
  match args with
  | .value value :: _ =>
      match TimerHandle.ofJson? value with
      | some handle => .call (.clear handle) fun cleared => .done (.ready (.ok (.bool cleared)))
      | .none => .done (.ready (.ok (.bool false)))
  | _ => .done (.ready (.ok (.bool false)))

/-- The specification of a function that cancels a schedule; no action is produced. -/
def cancelSpec {A : Type} (handle : TimerHandle) : RunSpec S Action A where
  func := cancelling
  args := [.value handle.toJson]
  onSuccess := .none
  onFail := .none
  forceSync := false

/-- Cancel a schedule; no action is produced. -/
def cancel (handle : TimerHandle) : Cmd S Action alphabet := .run (cancelSpec handle)

/-- Read the wall clock, in seconds; zero stands for a reading that is no number. -/
def now (returns : Number → Noted (Action alphabet)) : Cmd S Action alphabet :=
  .run {
    func := fun _ => .call .wallClock fun reading => .done (.ready (.ok (.number reading)))
    args := []
    onSuccess := some fun value => match value with
      | .number reading => returns reading
      | _ => returns (.float .zero)
    onFail := .none
    forceSync := false }

end Cmd

end EffectLoop
