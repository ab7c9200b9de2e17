import EffectLoop.Script.Step

/-!
# Scripted functions

A scripted RUN function has steps that run in the call, then an outcome; with further steps it
defers, runs them later, and has its outcome then.  A step that fails gives its message as the
outcome.
-/

namespace EffectLoop.Script

variable {ι : Type} {Action : ι → Type} {A : Type} [Tagged A]

/-- Run steps in the call.  Steps that wait are passed over, and what a dispatch causes is dropped
unless it is kept. -/
def inCall (frame : Frame) : List ScriptStep → Prompt Json Action A (Except String Frame)
  | [] => pure (.ok frame)
  | step :: rest => match step with
    | .wait _ => inCall frame rest
    | .sleep _ => inCall frame rest
    | .dispatch index template mode _ =>
        if frame.canDispatch index then
          .send (actionOf frame template) (mode = .keep) (inCall frame rest)
        else pure (.error (misuse index "dispatch"))
    | .getState index =>
        if frame.canRead index then
          .call .readState fun state => inCall (frame.bind "got" state) rest
        else pure (.error (misuse index "get_state"))
    | .log template => do
        let value ← Prompt.ofNoted (Template.eval frame.env template)
        Prompt.perform (.note (remark "note" value))
        inCall frame rest
    | .setGate gate isOpen => .call (.setGate gate isOpen) fun _ => inCall frame rest
    | .schedule delay repeating steps =>
        .schedule delay repeating (task steps) fun handle =>
          .call (.note (remark "handle" handle.encode)) fun _ => inCall frame rest
    | .clear template => do
        let value ← Prompt.ofNoted (Template.eval frame.env template)
        .call (.clear (.decodeLoose value)) fun cleared =>
          .call (.note (remark "cleared" (.bool cleared))) fun _ => inCall frame rest
    | .spawn steps => .spawn (task steps) (inCall frame rest)
    | .inspect =>
        .call .inspect fun status =>
          .call (.note (remark "probe" status.encode)) fun _ => inCall frame rest
    | .idle => inCall frame rest

/-- A scripted RUN function. -/
structure Function where
  inCall : List ScriptStep
  later : Option (List ScriptStep)
  /-- The first of these that is given is the outcome: an error message, a failure with a payload,
  or a success. -/
  message : Option Json
  failure : Option Json
  success : Json

namespace Function

/-- The function that a document stands for. -/
def decode (source : Json) : Function where
  inCall := ScriptStep.decodeAt true source "now"
  later := (source.get? "later").map fun _ => ScriptStep.decodeAt false source "later"
  message := source.get? "err"
  failure := source.get? "fail"
  success := (source.get? "ok").getD .null

/-- The outcome of a function whose steps have all run. -/
def outcome (function : Function) (frame : Frame) : Noted (Except RunFailure Json) :=
  match function.message, function.failure with
  | some template, _ => do
      match ← Template.eval frame.env template with
      | .string text => pure (.error (.message text))
      | other => pure (.error (.message other.text))
  | none, some template => do
      return .error (.failed (← Template.eval frame.env template))
  | none, none => do
      return .ok (← Template.eval frame.env function.success)

/-- Call the function. -/
def call (function : Function) (args : List Arg) :
    Prompt Json Action A (RunResult Json Action A) := do
  match ← Script.inCall (Frame.initial args) function.inCall with
  | .error text => pure (.ready (.error (.message text)))
  | .ok frame =>
      match function.later with
      | none => return .ready (← Prompt.ofNoted (function.outcome frame))
      | some steps =>
          pure (.deferred (Script.later frame (fun
            | .error text => .done (.error (.message text))
            | .ok frame => .withNoted (function.outcome frame) fun found => .done found) steps))

end Function

end EffectLoop.Script
