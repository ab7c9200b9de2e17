import EffectLoop.Command.Basic
import EffectLoop.Script.Template
import EffectLoop.Script.Values

/-!
# Scripts

A script describes a RUN function, or the task of a schedule, as a list of steps.  The same step
means two things: in the call (`ScriptStep.inCall`) it must be over at once, later
(`ScriptStep.later`) it may wait.  A step that fails ends its script with a message.
-/

namespace EffectLoop

/-- What becomes of a dispatch. -/
inductive DispatchMode where
  /-- Wait for what it causes; in a call, drop that. -/
  | wait
  /-- Drop what it causes. -/
  | drop
  /-- Keep what it causes as a root. -/
  | keep
  deriving DecidableEq

/-- One step of a script. -/
inductive ScriptStep where
  | wait (gate : String)
  | sleep (span : Duration)
  /-- Dispatch by the argument at a position.  With `lenient`, a failure is noted and passed over.
  -/
  | dispatch (index : Nat) (action : Json) (mode : DispatchMode) (lenient : Bool)
  /-- Bind the state, read by the argument at a position. -/
  | getState (index : Nat)
  | log (template : Json)
  | setGate (gate : String) (isOpen : Bool)
  | schedule (delay : Duration) (repeating : Bool) (task : List ScriptStep)
  | clear (template : Json)
  | spawn (task : List ScriptStep)
  | inspect
  | idle

namespace ScriptStep

/-- The mode of a dispatch step. -/
def modeOf (source : Json) : DispatchMode :=
  match source.textAt "mode" with
  | "keep" => .keep
  | "drop" => .drop
  | _ => .wait

mutual

/-- The step that a document stands for, by the first of its keys.  In a call the keys of steps that
wait have no meaning. -/
def decode (inCall : Bool) (source : Json) : ScriptStep :=
  let waiting (key : String) : Option Json := if inCall then none else source.get? key
  match waiting "wait", waiting "sleep", source.get? "dispatch", source.get? "get_state" with
  | some gate, _, _, _ => wait (gate.asString?.getD "")
  | _, some span, _, _ => sleep (Duration.decode span)
  | _, _, some index, _ =>
      dispatch (index.asNat?.getD 0) ((source.get? "action").getD .null) (modeOf source)
        (source.flag "ignore")
  | _, _, _, some index => getState (index.asNat?.getD 0)
  | none, none, none, none =>
      match source.get? "log", source.get? "open", source.get? "shut",
        _schedule : source.get? "schedule", source.get? "clear", _spawn : source.get? "spawn", source.get? "probe" with
      | some template, _, _, _, _, _, _ => log template
      | _, some gate, _, _, _, _, _ => setGate (gate.asString?.getD "") true
      | _, _, some gate, _, _, _, _ => setGate (gate.asString?.getD "") false
      | _, _, _, some spec, _, _, _ =>
          match _task : spec.get? "task" with
          | some (.array task) =>
              schedule (Duration.decodeAt spec "delay") (spec.flag "repeating")
                (decodeAll false task)
          | _ => schedule (Duration.decodeAt spec "delay") (spec.flag "repeating") []
      | _, _, _, _, some template, _, _ => clear template
      | _, _, _, _, _, some (.array task), _ => spawn (decodeAll false task)
      | _, _, _, _, _, _, some _ => inspect
      | _, _, _, _, _, _, none => idle
termination_by sizeOf source
decreasing_by
  · have outer := Json.sizeOf_get?_lt _schedule
    have inner := Json.sizeOf_get?_lt _task
    simp only [Json.array.sizeOf_spec] at inner
    omega
  · have inner := Json.sizeOf_get?_lt _spawn
    simp only [Json.array.sizeOf_spec] at inner
    omega

/-- The steps that documents stand for. -/
def decodeAll (inCall : Bool) (source : List Json) : List ScriptStep :=
  match source with
  | [] => []
  | step :: rest => decode inCall step :: decodeAll inCall rest
termination_by sizeOf source

end

/-- The steps under a key. -/
def decodeAt (inCall : Bool) (source : Json) (key : String) : List ScriptStep :=
  decodeAll inCall (source.itemsAt key)

end ScriptStep

namespace Script

/-- How an argument is shown to templates. -/
def shown : Arg → Json
  | .value value => value
  | .dispatch => .string "<dispatch>"
  | .getState => .string "<get_state>"

/-- The arguments and the bindings of a running script. -/
structure Frame where
  args : List Arg
  env : Env

/-- The frame of a script that was given arguments. -/
def Frame.initial (args : List Arg) : Frame := ⟨args, [("args", .array (args.map shown))]⟩

/-- The frame with one more binding. -/
def Frame.bind (frame : Frame) (name : String) (value : Json) : Frame :=
  { frame with env := frame.env.bind name value }

/-- May the argument at a position dispatch? -/
def Frame.canDispatch (frame : Frame) (index : Nat) : Bool :=
  match frame.args[index]? with
  | some .dispatch => true
  | _ => false

/-- May the argument at a position read the state? -/
def Frame.canRead (frame : Frame) (index : Nat) : Bool :=
  match frame.args[index]? with
  | some .getState => true
  | _ => false

/-- A step asks an argument for what it cannot do. -/
def misuse (index : Nat) (wanted : String) : String :=
  "argument " ++ toString index ++ " is not " ++ wanted

/-- The note that a script leaves under a key. -/
def remark (key : String) (value : Json) : Json := Json.ofFields [(key, value)]

variable {ι : Type} {Action : ι → Type} {A : Type} [Tagged A]

/-- The action of a dispatch step. -/
def actionOf (frame : Frame) (template : Json) : Noted A :=
  Tagged.decode <$> Template.eval frame.env template

mutual

/-- Run steps after the call, then go on with the frame, or with the message of the step that
failed. -/
def later {answer : Answer ι} (frame : Frame)
    (after : Except String Frame → Pending Json Action A answer) :
    List ScriptStep → Pending Json Action A answer
  | [] => after (.ok frame)
  | step :: rest => match step with
    | .wait gate => .wait gate (later frame after rest)
    | .sleep span => .sleep span (later frame after rest)
    | .dispatch index template mode lenient =>
        if frame.canDispatch index then
          match mode with
          | .wait =>
              .sendAll [actionOf frame template] fun
                | .ok () => later frame after rest
                | .error cause =>
                    if lenient then
                      .noting [remark "ignored" (.string cause.message)] (later frame after rest)
                    else after (.error cause.message)
          | .drop => .send (actionOf frame template) false (later frame after rest)
          | .keep => .send (actionOf frame template) true (later frame after rest)
        else after (.error (misuse index "dispatch"))
    | .getState index =>
        if frame.canRead index then
          .call .readState fun state => later (frame.bind "got" state) after rest
        else after (.error (misuse index "get_state"))
    | .log template =>
        .withNoted (Template.eval frame.env template) fun value =>
          .noting [remark "note" value] (later frame after rest)
    | .setGate gate isOpen => .call (.setGate gate isOpen) fun _ => later frame after rest
    | .schedule delay repeating steps =>
        .schedule delay repeating (task steps) fun handle =>
          .noting [remark "handle" handle.encode] (later frame after rest)
    | .clear template =>
        .withNoted (Template.eval frame.env template) fun value =>
          .call (.clear (.decodeLoose value)) fun cleared =>
            .noting [remark "cleared" (.bool cleared)] (later frame after rest)
    | .spawn steps => .spawn (task steps) (later frame after rest)
    | .inspect =>
        .call .inspect fun status => .noting [remark "probe" status.encode] (later frame after rest)
    | .idle => later frame after rest

/-- The steps of a task, which has no arguments.  Nothing comes of a step that fails. -/
def task (steps : List ScriptStep) : Pending Json Action A .finished :=
  later (Frame.initial []) (fun _ => .done ()) steps

end

end Script

end EffectLoop
