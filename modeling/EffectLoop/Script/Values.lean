import EffectLoop.Command.Program
import EffectLoop.Command.Failure

/-!
# Documents of values

How durations, handles, statuses, outcomes and log entries are written in documents.
-/

namespace EffectLoop

/-- The value of a flag: only `true` sets it. -/
def Json.flag (source : Json) (key : String) : Bool :=
  match source.get? key with
  | some (.bool true) => true
  | _ => false

/-- The number under a key, or zero. -/
def Json.natAt (source : Json) (key : String) : Nat :=
  ((source.get? key).bind Json.asNat?).getD 0

/-- The text under a key, or none. -/
def Json.textAt (source : Json) (key : String) : String :=
  ((source.get? key).bind Json.asString?).getD ""

/-- The items under a key, or none. -/
def Json.itemsAt (source : Json) (key : String) : List Json :=
  ((source.get? key).bind Json.asArray?).getD []

namespace Duration

/-- The duration that a document stands for: milliseconds, or seconds and nanoseconds. -/
def decode (source : Json) : Duration :=
  match source with
  | .object _ => (ofParts? (source.natAt "secs") (source.natAt "nanos")).getD zero
  | _ => (ofMillis? (source.asNat?.getD 0)).getD zero

/-- The duration under a key. -/
def decodeAt (source : Json) (key : String) : Duration := decode ((source.get? key).getD .null)

/-- The document of a duration: whole seconds and further nanoseconds. -/
def encode (value : Duration) : Json := .array [.ofNat value.secs, .ofNat value.subsecNanos]

end Duration

/-- The handle that a document stands for; what is no handle is the one never issued. -/
def TimerHandle.decodeLoose (source : Json) : TimerHandle := (ofJson? source).getD .unissued

/-- The document of a status. -/
def Status.encode : Status → Json
  | .virtual now pending queued =>
      Json.ofFields [("now", now.encode), ("pending", .ofNat pending), ("queued", .ofNat queued)]
  | .tasks now active => Json.ofFields [("now", now.encode), ("active", .ofNat active)]

/-- The document of a RUN failure, as a fail creator sees it. -/
def RunFailure.encode : RunFailure → Json
  | message text => Json.ofFields [("kind", .string "Message"), ("text", .string text)]
  | failed payload =>
      Json.ofFields
        [("kind", .string "Failed"), ("text", .string (failed payload).text), ("payload", payload)]

namespace LogEntry

/-- The importance of a line. -/
inductive Level where
  | error
  | info
  | debug

/-- The name of a level. -/
def Level.name : Level → String
  | error => "ERROR"
  | info => "INFO"
  | debug => "DEBUG"

/-- A line for the log: its level, the part of the program it is about, and its fields. -/
def line (level : Level) (target message : String) (fields : List (String × Json)) : Json :=
  Json.ofFields
    [("log", .string level.name), ("target", .string target),
      ("fields", Json.ofFields (("message", .string message) :: fields))]

/-- The target of lines about commands. -/
def commands : String := "reloop-core::Cmd"

/-- The target of lines about actions. -/
def actions : String := "reloop-core::Msg"

/-- The target of lines about the schedules of a task clock. -/
def timers : String := "reloop-time-manager"

/-- The document of a line. -/
def encode : LogEntry → Json
  | handledFailure cause =>
      line .error commands "Cmd::run failed, producing fail action" [("error", .string cause.text)]
  | unhandledFailure cause =>
      line .error commands "unhandled failure in Cmd::run" [("error", .string cause.text)]
  | uncaughtFailure cause =>
      line .error commands "Cmd::run failed without a fail action creator"
        [("error", .string cause.text)]
  | detachedFailure cause =>
      line .error commands "detached Cmd::run failed" [("error", .string cause.text)]
  | firingFailure cause =>
      line .error commands "scheduled command failed" [("error", .string cause.message)]
  | commandScheduled handle delay repeating =>
      line .debug commands "scheduled command"
        [("handle", .string handle.outline.compact), ("delay", .string delay.text),
          ("is_repeating", .bool repeating)]
  | timerScheduled handle delay repeating =>
      line .debug timers "timer scheduled"
        [("id", handle.encode), ("delay", .string delay.text), ("repeating", .bool repeating)]
  | timeoutFired handle => line .debug timers "timeout fired" [("id", handle.encode)]
  | intervalFired handle => line .debug timers "interval fired" [("id", handle.encode)]
  | timerCleared handle => line .debug timers "timer cleared" [("id", handle.encode)]

end LogEntry

end EffectLoop
