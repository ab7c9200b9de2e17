import EffectLoop.Command.Build
import EffectLoop.Command.Loop
import EffectLoop.Command.Observer
import EffectLoop.Script.Function
import EffectLoop.World.Host

/-!
# Scripted components

Commands, reducers, observers and plans, described by documents.  A command may hold a command of a
child, whose actions are messages; all other actions are JSON values.
-/

namespace EffectLoop

/-- The two sorts of actions in scripts. -/
inductive Dialect where
  | json
  | message
  deriving DecidableEq

/-- The actions of each sort. -/
@[reducible] def Dialect.Action : Dialect → Type
  | json => Json
  | message => Message

instance : (dialect : Dialect) → Tagged dialect.Action
  | .json => inferInstanceAs (Tagged Json)
  | .message => inferInstanceAs (Tagged Message)

namespace Script

variable {dialect : Dialect}

/-- A scripted command. -/
abbrev Command (dialect : Dialect) := Cmd Json Dialect.Action dialect

/-- The sort of actions that a document names. -/
def dialectOf : Option Json → Dialect
  | some (.string "msg") => .message
  | _ => .json

/-- The argument that a document stands for. -/
def argOf (source : Json) : Arg :=
  match source with
  | .string "dispatch" => .dispatch
  | .string "get_state" => .getState
  | _ => .value ((source.get? "v").getD .null)

/-- The creator that a template describes; it sees its argument under a name. -/
def creator {α : Type} (name : String) (shown : α → Json) (template : Json) (value : α) :
    Noted dialect.Action :=
  Tagged.decode <$> Template.eval [(name, shown value)] template

/-- The tagger that a template describes. -/
def tagger {child : Dialect} (withArgs : Bool) (template : Json) (args : List Json)
    (action : child.Action) : Noted dialect.Action :=
  let env : Env := [("action", Tagged.encode action)]
  let env := if withArgs then env.bind "args" (.array args) else env
  Tagged.decode <$> Template.eval env template

/-- The command that cancels a schedule, with its arguments and its creator replaced where the
document says so. -/
def clearCommand (source : Json) : Command dialect :=
  let spec : RunSpec Json Dialect.Action dialect.Action :=
    Cmd.cancelSpec (TimerHandle.decodeLoose ((source.get? "handle").getD .null))
  .run { spec with
    args := match source.get? "args" with
      | some args => (args.asArray?.getD []).map argOf
      | none => spec.args
    onSuccess := (source.get? "on_success").map (creator "value" id) }

/-- The action of a reading of the wall clock: is it past the epoch? -/
def clockAction (reading : Number) : Noted dialect.Action :=
  pure (Tagged.decode (Json.ofFields
    [("type", .string "NOW"), ("value", .bool reading.isPositive)]))

/-- The command that runs a scripted function. -/
def runSpec (source : Json) : RunSpec Json Dialect.Action dialect.Action where
  func := (Function.decode ((source.get? "func").getD .null)).call
  args := (source.itemsAt "args").map argOf
  onSuccess := (source.get? "on_success").map (creator "value" id)
  onFail := (source.get? "on_fail").map (creator "error" RunFailure.encode)
  forceSync := source.flag "force_sync"

mutual

/-- The command that a document stands for.  A refused builder refuses the whole. -/
def command (mode : Mode) (dialect : Dialect) (source : Json) :
    Except Refusal (Command dialect) :=
  match source.textAt "cmd" with
  | "action" => Cmd.ofAction mode (Tagged.decode ((source.get? "action").getD .null))
  | "raw_action" => .ok (.action (Tagged.decode ((source.get? "action").getD .null)))
  | "run" => Cmd.ofRun mode (runSpec source) (source.flag "test_invariants")
  | "list" => do
      let cmds ← childCommands mode dialect source
      Cmd.ofListChecked mode cmds (source.flag "sequence") (source.flag "batch")
        (source.flag "test_invariants")
  | "batch" => do return Cmd.batch (← childCommands mode dialect source)
  | "sequence" => do return Cmd.inOrder (← childCommands mode dialect source)
  | "map" => do
      let template := (source.get? "tag").getD .null
      let child := dialectOf (source.get? "child")
      let nested ← nestedCommand mode child "nested" source
      match (source.get? "args").bind Json.asArray? with
      | some args => return Cmd.taggedWith nested (tagger true template) args
      | none => return Cmd.tagged nested (tagger false template [])
  | "schedule" => do
      let nested ← nestedCommand mode dialect "nested" source
      return Cmd.after nested (Duration.decodeAt source "delay")
        ((source.get? "on_scheduled").map (creator "handle" TimerHandle.encode))
  | "repeat" => do
      let nested ← nestedCommand mode dialect "nested" source
      return Cmd.every nested (Duration.decodeAt source "delay")
        ((source.get? "on_scheduled").map (creator "handle" TimerHandle.encode))
  | "clear" => .ok (clearCommand source)
  | "now" => .ok (Cmd.now clockAction)
  | "clone" => nestedCommand mode dialect "of" source
  | _ => .ok .none
termination_by (sizeOf source, 1)

/-- The command under a key. -/
def nestedCommand (mode : Mode) (dialect : Dialect) (key : String) (source : Json) :
    Except Refusal (Command dialect) :=
  match _nested : source.get? key with
  | some nested => command mode dialect nested
  | none => .ok .none
termination_by (sizeOf source, 0)
decreasing_by
  have smaller := Json.sizeOf_get?_lt _nested
  decreasing_tactic

/-- The commands of a list, from left to right. -/
def childCommands (mode : Mode) (dialect : Dialect) (source : Json) :
    Except Refusal (List (Command dialect)) :=
  match _cmds : source.get? "cmds" with
  | some (.array cmds) => commands mode dialect cmds
  | _ => .ok []
termination_by (sizeOf source, 0)
decreasing_by
  have smaller := Json.sizeOf_get?_lt _cmds
  simp only [Json.array.sizeOf_spec] at smaller
  exact Prod.Lex.left _ _ (by omega)

/-- The commands that documents stand for. -/
def commands (mode : Mode) (dialect : Dialect) (source : List Json) :
    Except Refusal (List (Command dialect)) :=
  match source with
  | [] => .ok []
  | first :: rest => do
      let cmd ← command mode dialect first
      return cmd :: (← commands mode dialect rest)
termination_by (sizeOf source, 0)

end

/-! ## Reducers -/

/-- Is a rule's condition met?  A rule without condition always is. -/
def meets (env : Env) (rule : Json) : Noted Bool :=
  match rule.get? "when" with
  | some (.array [template, wanted]) => do
      return (← Template.eval env template).sameValue wanted
  | _ => pure true

/-- The first rule whose condition is met. -/
def choose (env : Env) : List Json → Noted (Option Json)
  | [] => pure none
  | rule :: rest => do
      if ← meets env rule then pure (some rule) else choose env rest

/-- The rules for an action: those of its kind, or else those for any kind. -/
def rulesFor (source action : Json) : List Json :=
  match source.get? action.kind, source.get? "*" with
  | some (.array rules), _ => rules
  | some rule, _ => [rule]
  | none, some (.array rules) => rules
  | none, some rule => [rule]
  | none, none => []

/-- The reducer that a document of rules stands for. -/
def reducer (mode : Mode) (source : Json) : Reducer Json Dialect.Action .json :=
  fun state action => do
    let env : Env := [("state", state), ("msg", action)]
    match ← choose env (rulesFor source action) with
    | none => pure (.ok (.model state))
    | some rule =>
        let model ← match rule.get? "model" with
          | some template => Template.eval env template
          | none => pure state
        match rule.get? "cmd" with
        | none => pure (.ok (.model model))
        | some cmd => pure (.withCmd model <$> command mode .json (Template.reduce env cmd))

/-! ## Observers -/

/-- Does an observation pass a filter by kind? -/
def passes (wanted : Json) : Observation Json → Bool
  | .dispatch action => (wanted.get? "type").any fun kind => kind.asString? = some action.kind
  | .effect kind => (wanted.get? "effect").any fun name => name.asString? = some kind.name

mutual

/-- The observer that a document stands for. -/
def observer (source : Json) : Observer Json :=
  match source with
  | .string "tracing" => .tracing
  | .object fields =>
      match Json.field? "record" fields, _filter : Json.field? "filter" fields,
        _inner : Json.field? "inner" fields, _tee : Json.field? "tee" fields with
      | some label, _, _, _ => .recording (label.asString?.getD "")
      | _, some wrapped, _, _ =>
          (observer wrapped).filtered ((Json.object fields).flag "dispatches")
            ((Json.object fields).flag "effects")
      | _, _, some wrapped, _ =>
          (observer wrapped).filteredBy (passes ((Json.field? "where" fields).getD .null))
      | _, _, _, some (.array parts) => .tee (observers parts)
      | _, _, _, _ => .silent
  | _ => .silent
termination_by sizeOf source
decreasing_by
  · have smaller := Json.sizeOf_field?_lt _filter
    simp only [Json.object.sizeOf_spec]
    omega
  · have smaller := Json.sizeOf_field?_lt _inner
    simp only [Json.object.sizeOf_spec]
    omega
  · have smaller := Json.sizeOf_field?_lt _tee
    simp only [Json.array.sizeOf_spec] at smaller
    simp only [Json.object.sizeOf_spec]
    omega

/-- The observers that documents stand for. -/
def observers (source : List Json) : List (Observer Json) :=
  match source with
  | [] => []
  | first :: rest => observer first :: observers rest
termination_by sizeOf source

end

/-! ## Plans -/

/-- What a recording host makes of each action, by its kind. -/
def plan (source : Json) (action : Json) : Plan :=
  match source.get? action.kind with
  | none => ⟨none, none⟩
  | some rule =>
      { gate := (rule.get? "wait").map fun gate => (gate.asString?.getD "", remark "settled" action)
        failure := (rule.get? "err").map fun text => match text with
          | .string "closed" => .storeClosed
          | other => .unhandledFailure (.message (other.asString?.getD "")) }

end Script

end EffectLoop
