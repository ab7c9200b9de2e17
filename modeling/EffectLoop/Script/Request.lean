import EffectLoop.Script.Play
import EffectLoop.Simulation.Actions

/-!
# Requests

A request asks for one operation, or for a whole session, by a document; the answer is a document.
-/

namespace EffectLoop.Script

/-- The way of building that a request asks for. -/
def modeOf (source : Json) : Mode := if source.flag "production" then .production else .development

/-- The document of a refused text.  Only a text of the wrong shape has a message. -/
def faultDocument (name lead : String) : Fault → Json
  | .ended => Json.ofFields [("error", .string name), ("category", .string "Eof")]
  | .malformed => Json.ofFields [("error", .string name), ("category", .string "Syntax")]
  | .unexpected message =>
      Json.ofFields
        [("error", .string name), ("category", .string "Data"),
          ("message", .string (lead ++ message))]

/-- The document of a result that may be refused. -/
def checked {α : Type} (document : α → Json) : Except Refusal α → Json
  | .ok value => document value
  | .error refused => refused.encode

/-- The document of a value whose builder may panic. -/
def built {α : Type} (document : α → Json) : Except Refusal α → Json
  | .ok value => document value
  | .error refused => panicDocument refused.message

/-! ## Single operations -/

/-- The declared types without content. -/
def declared : List (String × Declaration) :=
  [("Ping", ⟨"Ping", none⟩), ("Pong", ⟨"Pong", some "app/pong"⟩), ("Wrapper", ⟨"Wrapper", none⟩)]

/-- The kind of an action. -/
def answerActionType (source : Json) : Json :=
  let action := valueAt source "action"
  let kind := match (declared.find? (·.1 = source.textAt "of")) with
    | some (_, declaration) => declaration.kind
    | none => Tagged.kind (Tagged.decode action : (dialectOf (source.get? "of")).Action)
  Json.ofFields [("type", .string kind)]

/-- The result of a check. -/
def answerValidate (source : Json) : Json :=
  let passed (_ : Unit) : Json := .string "ok"
  match source.textAt "check" with
  | "action" =>
      let action : (dialectOf (source.get? "typed")).Action :=
        Tagged.decode (valueAt source "action")
      checked passed (Validate.action action)
  | "repeat_period" => (repeatPeriod (Duration.decodeAt source "delay")).encode
  | _ =>
      checked passed
        (Validate.testInvariants (modeOf source) (source.textAt "builder")
          (source.flag "requested"))

/-- The options written by a text. -/
def answerOptions (source : Json) : Json :=
  match Options.parse (source.textAt "raw") with
  | .error fault => faultDocument "Parse" Options.refusalLead fault
  | .ok options =>
      let options := if source.flag "quiet" then options.quiet else options
      Json.ofFields [("config", options.encode)]

/-- Read a simulation tree.  The whole value is read before its shape is looked at, and its shape
before what follows it. -/
def readSimulation : Reader Simulation := do
  match Simulation.decode (← Reader.value) with
  | .ok tree => pure tree
  | .error refusal => Reader.fail (.unexpected refusal)

/-- The simulation tree written by a text. -/
def answerParseSimulation (source : Json) : Json :=
  match Reader.run readSimulation (source.textAt "raw") with
  | .error fault => faultDocument "Simulation" "" fault
  | .ok tree =>
      Json.ofFields [("sim", tree.encode), ("debug", .string tree.outline.compact)]

/-- The name of an order. -/
def orderName : Ordering → String
  | .lt => "Less"
  | .eq => "Equal"
  | .gt => "Greater"

/-- The document of an optional value. -/
def optional {α : Type} (document : α → Json) : Option α → Json
  | some value => document value
  | none => .null

/-- A handle by its two paths. -/
def answerHandle (source : Json) : Json :=
  let value := valueAt source "value"
  let found := TimerHandle.ofJson? value
  let other := (source.get? "other").bind TimerHandle.ofJson?
  let order : Option Ordering := do return (← found).order (← other)
  Json.ofFields
    [("from_value", optional TimerHandle.encode found),
      ("into_value", optional TimerHandle.toJson found),
      ("debug", optional (fun handle => .string handle.outline.compact) found),
      ("serde", match TimerHandle.decode value with
        | .ok handle => handle.encode
        | .error refusal => faultDocument "Handle" "" (.unexpected refusal)),
      ("against", optional (fun order => .string (orderName order)) order),
      ("default", (default : TimerHandle).encode)]

/-- What there is to say about a variant of a command. -/
def variantFields {dialect : Dialect} : Command dialect → List (String × Json)
  | @Cmd.list _ _ _ _ count cmds sequence batch =>
      [("list", Json.ofFields
        [("len", .ofNat count), ("sequence", .bool sequence), ("batch", .bool batch),
          ("kinds", .array (List.ofFn fun index => .string (cmds index).kind.name))])]
  | .scheduled nested delay repeating onScheduled =>
      [("scheduled", Json.ofFields
        [("delay", delay.encode), ("is_repeating", .bool repeating),
          ("nested", .string nested.kind.name), ("creator", .bool onScheduled.isSome)])]
  | .run spec =>
      [("run", Json.ofFields
        [("args", .ofNat spec.args.length), ("force_sync", .bool spec.forceSync),
          ("success", .bool spec.onSuccess.isSome), ("fail", .bool spec.onFail.isSome)])]
  | _ => []

/-- The document of a built command. -/
def commandDocument {dialect : Dialect} (pretty : Bool) (cmd : Command dialect) : Json :=
  let shown := cmd.outline
  Json.ofFields
    ([("kind", .string cmd.kind.name), ("is_none", .bool cmd.isNone),
      ("debug", .string shown.compact), ("clone_same", .bool true)] ++
      (if pretty then [("pretty", .string shown.pretty)] else []) ++ variantFields cmd)

/-- A built command. -/
def answerBuild (source : Json) : Json :=
  built (commandDocument (source.flag "pretty"))
    (command (modeOf source) (dialectOf (source.get? "typed")) (valueAt source "cmd"))

/-- The document of a loop. -/
def loopDocument (loop : Loop Json Dialect.Action .json) : Json :=
  let (model, cmd) := loop.lift
  Json.ofFields
    [("is_loop", .bool loop.isLoop), ("model", loop.state),
      ("cmd", optional (fun cmd => .string cmd.kind.name) loop.cmd?),
      ("lift", .array [model, .string cmd.kind.name, .string cmd.outline.compact])]

/-- A loop. -/
def answerLoop (source : Json) : Json := built loopDocument (loopOf (modeOf source) source)

/-- The document of simulated actions. -/
def simulatedDocument {dialect : Dialect} : Simulated dialect.Action → Json
  | .nothing => .string "Nothing"
  | .one action => Json.ofFields [("One", Tagged.encode action)]
  | .many actions => Json.ofFields [("Many", .array (actions.map Tagged.encode))]

/-- The document of a simulation: the actions, and that nothing else has happened but notes. -/
def simulationDocument {dialect : Dialect} (found : Noted (Simulated dialect.Action)) : Json :=
  Json.ofFields
    [("simulated", simulatedDocument found.value), ("is_nothing", .bool found.value.isNothing),
      ("count", .ofNat found.value.toList.length), ("trace", .array found.notes),
      ("sched", (Status.virtual .zero 0 0).encode)]

/-- The simulation of a command.  The assumed outcomes are read before the command is built. -/
def answerSimulate (source : Json) : Json :=
  let tree : Except String (Option Simulation) := match source.get? "sim" with
    | none => .ok none
    | some written => some <$> Simulation.decode written
  match tree with
  | .error refusal => faultDocument "Simulation" "" (.unexpected refusal)
  | .ok tree =>
      built (fun cmd => simulationDocument (cmd.simulate tree))
        (command (modeOf source) (dialectOf (source.get? "typed")) (valueAt source "cmd"))

/-- The observation that a document stands for. -/
def observationOf (source : Json) : Observation Json :=
  match source.get? "dispatch" with
  | some action => .dispatch action
  | none => .effect ((Cmd.Kind.ofName? (source.textAt "effect")).getD .none)

/-- What an observer delivers for each observation. -/
def answerObserve (source : Json) : Json :=
  let watching := observer (valueAt source "observer")
  .array ((source.itemsAt "events").map fun event =>
    .array ((watching (observationOf event)).map deliveryDocument))

/-- A session. -/
def answerSession (source : Json) : Json :=
  let options : Except Fault Options := match source.get? "config" with
    | none => .ok .default
    | some written => Options.parse written.text
  match options with
  | .error fault => faultDocument "Parse" Options.refusalLead fault
  | .ok options =>
      let mode := modeOf source
      .array (play mode (sessionOf mode options source) (source.itemsAt "steps"))

/-- The document for what is no request. -/
def badInput : Json := Json.ofFields [("error", .string "BadInput")]

/-- The answer to a request. -/
def answer (source : Json) : Json :=
  match source.textAt "op" with
  | "action_type" => answerActionType source
  | "validate" => answerValidate source
  | "config" => answerOptions source
  | "parse_sim" => answerParseSimulation source
  | "handle" => answerHandle source
  | "build" => answerBuild source
  | "loop" => answerLoop source
  | "simulate" => answerSimulate source
  | "observe" => answerObserve source
  | "session" => answerSession source
  | _ => badInput

/-- The answer to a request in a line of text. -/
def answerLine (line : String) : String :=
  match Json.parse line with
  | .ok source => (answer source).text
  | .error _ => badInput.text

end EffectLoop.Script
