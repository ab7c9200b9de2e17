import EffectLoop.Command.Program
import EffectLoop.Command.Tagged

/-!
# Commands

A command describes an effect as a value: an action to dispatch, a function to run, several
commands in parallel or in order, a command of a child whose actions are to be tagged, or a command
to execute later.  Nothing happens until a command is executed.

Commands are indexed by the alphabet of the actions they produce, and `map` goes from one alphabet
to another.  The children of a list are a finite family, so induction over commands needs no
principle for nested lists.
-/

namespace EffectLoop

/-- An argument of a RUN function. -/
inductive Arg where
  | value (value : Json)
  /-- The right to dispatch actions. -/
  | dispatch
  /-- The right to read the state. -/
  | getState

/-- What a RUN function hands back. -/
inductive RunResult (S : Type) {ι : Type} (Action : ι → Type) (A : Type) where
  /-- An outcome known at call time. -/
  | ready (outcome : Except RunFailure Json)
  /-- An outcome still pending. -/
  | deferred (later : Pending S Action A .outcome)

/-- A function to run and the creators that turn its outcome into at most one action. -/
structure RunSpec (S : Type) {ι : Type} (Action : ι → Type) (A : Type) where
  func : List Arg → Prompt S Action A (RunResult S Action A)
  args : List Arg
  onSuccess : Option (Json → Noted A)
  onFail : Option (RunFailure → Noted A)
  /-- Do not wait for a deferred outcome: it is detached and counts as success with `null`. -/
  forceSync : Bool

/-- A declared effect that produces actions of one alphabet. -/
inductive Cmd (S : Type) {ι : Type} (Action : ι → Type) : ι → Type where
  | none {alphabet : ι} : Cmd S Action alphabet
  | action {alphabet : ι} (action : Action alphabet) : Cmd S Action alphabet
  | run {alphabet : ι} (spec : RunSpec S Action (Action alphabet)) : Cmd S Action alphabet
  /-- Several commands: one after the other with `sequence`, otherwise all at once.  With `batch`
  their actions are collected, otherwise each command's actions are dispatched when it is done. -/
  | list {alphabet : ι} {count : Nat} (cmds : Fin count → Cmd S Action alphabet)
      (sequence batch : Bool) : Cmd S Action alphabet
  /-- A command of another alphabet, whose actions are tagged. -/
  | map {alphabet child : ι} (nested : Cmd S Action child)
      (tagger : List Json → Action child → Noted (Action alphabet)) (args : List Json) :
      Cmd S Action alphabet
  /-- A command to execute after a delay, once or over and over. -/
  | scheduled {alphabet : ι} (nested : Cmd S Action alphabet) (delay : Duration)
      (repeating : Bool) (onScheduled : Option (TimerHandle → Noted (Action alphabet))) :
      Cmd S Action alphabet

/-- The variant of a command. -/
inductive Cmd.Kind where
  | none
  | action
  | run
  | list
  | map
  | scheduled
  deriving DecidableEq

namespace Cmd.Kind

/-- The name of a variant in documents. -/
def name : Cmd.Kind → String
  | none => "NONE"
  | action => "ACTION"
  | run => "RUN"
  | list => "LIST"
  | map => "MAP"
  | scheduled => "SCHEDULED"

/-- The name of a variant in the log. -/
def label : Cmd.Kind → String
  | none => "None"
  | action => "Action"
  | run => "Run"
  | list => "List"
  | map => "Map"
  | scheduled => "Scheduled"

/-- Every variant. -/
def all : List Cmd.Kind := [none, action, run, list, map, scheduled]

/-- The variant of the given name. -/
def ofName? (name : String) : Option Cmd.Kind := all.find? (·.name == name)

end Cmd.Kind

variable {S ι : Type} {Action : ι → Type} {alphabet child : ι}

namespace RunSpec

variable {A : Type}

/-- The action for a success. -/
def successAction (spec : RunSpec S Action A) (value : Json) : Noted (Option A) :=
  match spec.onSuccess with
  | some creator => some <$> creator value
  | none => pure none

/-- The action for a failure. -/
def failureAction (spec : RunSpec S Action A) (cause : RunFailure) : Noted (Option A) :=
  match spec.onFail with
  | some creator => some <$> creator cause
  | none => pure none

end RunSpec

namespace Cmd

instance : Inhabited (Cmd S Action alphabet) := ⟨none⟩

/-- The variant of a command. -/
def kind : Cmd S Action alphabet → Cmd.Kind
  | none => .none
  | action _ => .action
  | run _ => .run
  | list _ _ _ => .list
  | map _ _ _ => .map
  | scheduled _ _ _ _ => .scheduled

/-- Is this the command without effect? -/
def isNone (cmd : Cmd S Action alphabet) : Bool := cmd.kind = .none

/-- The list command over the given commands. -/
def ofList (cmds : List (Cmd S Action alphabet)) (sequence batch : Bool) :
    Cmd S Action alphabet :=
  .list cmds.get sequence batch

end Cmd

namespace Arg

/-- The outline of an argument. -/
def outline : Arg → Outline
  | value payload => .tuple "Value" [payload.outline]
  | dispatch => .atom "Dispatch"
  | getState => .atom "GetState"

end Arg

/-- The structural description of a command, with its functions left out. -/
def Cmd.outline [∀ alphabet, Tagged (Action alphabet)] :
    {alphabet : ι} → Cmd S Action alphabet → Outline
  | _, .none => .atom "Cmd::None"
  | _, .action sent => .tuple "Cmd::Action" [Tagged.outline sent]
  | _, .run spec =>
      .record "Cmd::Run"
        [("args", .list (spec.args.map Arg.outline)), ("force_sync", .ofBool spec.forceSync)] true
  | _, .list cmds sequence batch =>
      .record "Cmd::List"
        [("cmds", .list (List.ofFn fun index => (cmds index).outline)),
          ("sequence", .ofBool sequence), ("batch", .ofBool batch)] false
  | _, .map nested _ args =>
      .record "Cmd::Map"
        [("nested", nested.outline), ("args", .list (args.map Json.outline))] true
  | _, .scheduled nested delay repeating _ =>
      .record "Cmd::Scheduled"
        [("nested", nested.outline), ("delay", delay.outline),
          ("is_repeating", .ofBool repeating)] true

end EffectLoop
