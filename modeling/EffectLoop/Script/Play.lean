import EffectLoop.Script.Component
import EffectLoop.World.Session

/-!
# Scripted sessions

A session described by a document: its host, its scheduler, and its steps.  Every step is answered
by a reply, the events it caused, and the status of the scheduler.
-/

namespace EffectLoop.Script

/-! ## Documents of answers -/

/-- The document of an observation. -/
def observationFields : Observation Json → List (String × Json)
  | .dispatch action => [("dispatch", action)]
  | .effect kind => [("effect", .string kind.name)]

/-- The document of a delivery. -/
def deliveryDocument : Delivery Json → Json
  | .record label seen => Json.ofFields (("obs", .string label) :: observationFields seen)
  | .trace (.dispatch action) =>
      LogEntry.line .info LogEntry.actions ("Msg(" ++ action.outline.compact ++ ")") []
  | .trace (.effect kind) =>
      LogEntry.line .debug LogEntry.commands ("Cmd(" ++ kind.label ++ ")") []

/-- The document of an event.  What an observer is told has none; its deliveries have. -/
def eventDocument? : Event Json Json → Option Json
  | .note value => some value
  | .log entry => some entry.encode
  | .observed _ => none
  | .delivered delivery => some (deliveryDocument delivery)
  | .committed state => some (Json.ofFields [("commit", state)])
  | .dispatched action => some (Json.ofFields [("dispatch", action)])
  | .ended root result => some (Json.ofFields [("done", .ofNat root), ("result", result)])
  | .panicked root message =>
      some (Json.ofFields [("panic", .ofNat root), ("message", .string message)])

/-- The document of a panic. -/
def panicDocument (message : String) : Json := errorDocument "panic" message

/-- The document of a reply. -/
def replyDocument : Reply Json → Json
  | .nothing => .null
  | .noFollowUp => .string "none"
  | .noStore => .string "no store"
  | .root number => Json.ofFields [("task", .ofNat number)]
  | .handle handle => handle.encode
  | .flag value => .bool value
  | .state state => state
  | .failed cause => cause.encode
  | .panicked message => panicDocument message

/-! ## Steps -/

/-- A value under a key, or null. -/
def valueAt (source : Json) (key : String) : Json := (source.get? key).getD .null

/-- The loop of a start step. -/
def loopOf (mode : Mode) (source : Json) :
    Except Refusal (Loop Json Dialect.Action .json) :=
  match source.get? "cmd" with
  | none => .ok (.model (valueAt source "model"))
  | some cmd => (fun cmd => .ofPair (valueAt source "model", cmd)) <$> command mode .json cmd

/-- The step that a document stands for. -/
def stepOf (mode : Mode) (source : Json) : Step Json Dialect.Action .json :=
  let hold := source.flag "hold"
  match source.textAt "do" with
  | "exec" => .execute (command mode .json (valueAt source "cmd")) hold
  | "dispatch" => .dispatch (valueAt source "action") hold
  | "dispatch_all" => .dispatchAll (source.itemsAt "actions") hold
  | "start" => .start (loopOf mode source) hold
  | "run_cmd" => .launch (command mode .json (valueAt source "cmd")) hold
  | "get_state" => .getState
  | "drop" => .drop
  | "poll" => .poll (source.natAt "task")
  | "cancel" => .cancel (source.natAt "task")
  | "schedule" =>
      .schedule (Duration.decodeAt source "delay") (source.flag "repeating")
        (task (ScriptStep.decodeAt false source "task"))
  | "clear" => .clear (.decodeLoose (valueAt source "handle"))
  | "spawn" => .spawn (task (ScriptStep.decodeAt false source "task"))
  | "open" => .setGate (source.textAt "gate") true
  | "shut" => .setGate (source.textAt "gate") false
  | "advance" => .advance (Duration.decodeAt source "by") hold
  | _ => .read

/-! ## Sessions -/

/-- The host that a document describes. -/
def hostOf (mode : Mode) (options : Options) (source : Json) :
    Host Json Dialect.Action .json :=
  if source.textAt "host" = "store" then
    .store {
      reducer := reducer mode (valueAt source "reducer")
      options
      observer := match source.get? "observer" with
        | some described => observer described
        | none => .recording "o" }
  else .recording options (plan (valueAt source "on_dispatch"))

/-- The scheduler that a document names. -/
def keeperOf (source : Json) : Keeper Json Dialect.Action Json :=
  if source.textAt "scheduler" = "tokio" then .tasks .initial else .virtual .initial

/-- How deep dispatches may nest, and how long settling may take. -/
def allowance : Nat := 1000000

/-- What the wall clock of a session reads: one second past the epoch. -/
def epochReading : Number := .int 1

/-- The session that a document describes. -/
def sessionOf (mode : Mode) (options : Options) (source : Json) :
    Session Json Dialect.Action .json where
  host := hostOf mode options source
  world := .initial (valueAt source "state") (keeperOf source) epochReading
  roots := []
  tasks := []
  lastRoot := 0
  allowance := allowance

/-- What is added to the answer to a step if there is a store: its state and how often it was read.
-/
def storeFields (session : Session Json Dialect.Action .json) : List (String × Json) :=
  match session.host with
  | .store _ => [("state", session.world.state), ("reads", .ofNat session.world.reads)]
  | .recording _ _ => []

/-- Perform steps and answer each. -/
def play (mode : Mode) (session : Session Json Dialect.Action .json) : List Json → List Json
  | [] => []
  | step :: rest =>
      let (reply, session) := session.step (stepOf mode step)
      let (events, session) := session.takeTrace
      Json.ofFields
        ([("r", replyDocument reply), ("trace", .array (events.filterMap eventDocument?)),
          ("sched", session.world.keeper.status.encode)] ++ storeFields session)
        :: play mode session rest

end EffectLoop.Script
