import EffectLoop.Command.Noted
import EffectLoop.Command.Failure
import EffectLoop.Time.Duration
import EffectLoop.Time.Handle

/-!
# Programs

What a RUN function does, and what a command turns into when it is executed, is a program: a tree of
effects whose branches are the possible replies.  There are two kinds.

* A `Prompt` is over by the time the call that started it returns.
* A `Pending` computation is driven by polls.  Each poll takes it as far as it can go; at a gate, a
  deadline or a join it stops, and what is left is again a pending computation.

Programs know nothing of the world that runs them.  In particular they do not know what becomes of a
dispatched action: `send` and `sendAll` name the action, and the world answers.
-/

namespace EffectLoop

/-- What is still outstanding in a scheduler. -/
inductive Status where
  /-- A virtual clock: its time, the schedules registered and the spawned work queued. -/
  | virtual (now : Duration) (pending queued : Nat)
  /-- A clock of tasks: its time and the schedules that can be cleared. -/
  | tasks (now : Duration) (active : Nat)

/-- A line for the log. -/
inductive LogEntry where
  /-- A failure that a fail creator turns into an action. -/
  | handledFailure (cause : RunFailure)
  /-- A failure at call time without a fail creator. -/
  | unhandledFailure (cause : RunFailure)
  /-- A later failure without a fail creator. -/
  | uncaughtFailure (cause : RunFailure)
  /-- A failure of work that nothing waits for. -/
  | detachedFailure (cause : RunFailure)
  /-- A failure of one firing of a scheduled command. -/
  | firingFailure (cause : CmdFailure)
  /-- A command was scheduled. -/
  | commandScheduled (handle : TimerHandle) (delay : Duration) (repeating : Bool)
  /-- A task clock registered a schedule. -/
  | timerScheduled (handle : TimerHandle) (delay : Duration) (repeating : Bool)
  /-- A one-shot schedule of a task clock fires. -/
  | timeoutFired (handle : TimerHandle)
  /-- A repeating schedule of a task clock fires. -/
  | intervalFired (handle : TimerHandle)
  /-- A schedule of a task clock was cleared. -/
  | timerCleared (handle : TimerHandle)

/-- An effect that is answered at once and hands over no program and no action. -/
inductive Primitive where
  /-- Read the host's state. -/
  | readState
  /-- Leave a note. -/
  | note (value : Json)
  | log (entry : LogEntry)
  /-- Open a gate, letting everything that waits at it go on, or shut it. -/
  | setGate (gate : String) (isOpen : Bool)
  /-- Cancel a schedule. -/
  | clear (handle : TimerHandle)
  /-- Look at the scheduler. -/
  | inspect
  /-- Read the wall clock, in seconds. -/
  | wallClock
  /-- The moment that lies `delay` ahead. -/
  | deadline (delay : Duration)
  /-- Forget a schedule that is about to fire for the only time. -/
  | forget (handle : TimerHandle)
  /-- Nothing: a line of the log that is switched off. -/
  | skip

/-- The type of the answer to an effect. -/
@[reducible] def Primitive.Reply (S : Type) : Primitive → Type
  | readState => S
  | note _ => Unit
  | log _ => Unit
  | setGate _ _ => Unit
  | clear _ => Bool
  | inspect => Status
  | wallClock => Number
  | deadline _ => Duration
  | forget _ => Unit
  | skip => Unit

/-- What a pending computation ends with. -/
inductive Answer (ι : Type) where
  /-- The follow-up actions of a command. -/
  | actions (alphabet : ι)
  /-- The outcome of a RUN function. -/
  | outcome
  /-- The end of everything that a dispatch caused. -/
  | settled
  /-- The end of work whose result is of no interest. -/
  | finished
  /-- The result that a root reports. -/
  | report

/-- The results of each kind; `Action` gives the actions of each alphabet. -/
@[reducible] def Answer.Value {ι : Type} (Action : ι → Type) : Answer ι → Type
  | actions alphabet => Except CmdFailure (List (Action alphabet))
  | outcome => Except RunFailure Json
  | settled => Except CmdFailure Unit
  | finished => Unit
  | report => Json

/-- A computation driven by polls, over a state type `S`, sending actions of type `A`. -/
inductive Pending (S : Type) {ι : Type} (Action : ι → Type) (A : Type) : Answer ι → Type where
  | done {answer : Answer ι} (value : answer.Value Action) : Pending S Action A answer
  | call {answer : Answer ι} (effect : Primitive)
      (next : effect.Reply S → Pending S Action A answer) : Pending S Action A answer
  /-- Dispatch an action without waiting for what it causes, which is kept for later or dropped. -/
  | send {answer : Answer ι} (action : Noted A) (keep : Bool)
      (next : Pending S Action A answer) : Pending S Action A answer
  | schedule {answer : Answer ι} (delay : Duration) (repeating : Bool)
      (task : Pending S Action A .finished)
      (next : TimerHandle → Pending S Action A answer) : Pending S Action A answer
  | spawn {answer : Answer ι} (task : Pending S Action A .finished)
      (next : Pending S Action A answer) : Pending S Action A answer
  /-- Go on once the gate is open. -/
  | wait {answer : Answer ι} (gate : String) (next : Pending S Action A answer) :
      Pending S Action A answer
  /-- Go on once the clock has reached a moment. -/
  | resumeAt {answer : Answer ι} (moment : Duration) (next : Pending S Action A answer) :
      Pending S Action A answer
  /-- Dispatch actions one after the other, then wait for all that they cause.  The reply is the
  failure of the first action that failed. -/
  | sendAll {answer : Answer ι} (actions : List (Noted A))
      (next : Except CmdFailure Unit → Pending S Action A answer) : Pending S Action A answer
  /-- Wait for what dispatched actions cause.  The computations that are caused come from the world
  and are not part of the program. -/
  | settling {answer : Answer ι} {count : Nat} (ticket : Option Nat)
      (caused : Fin count → Pending S Action A .settled)
      (next : Except CmdFailure Unit → Pending S Action A answer) : Pending S Action A answer
  /-- Wait for all children.  A large join carries the ticket under which its children are woken. -/
  | join {answer child : Answer ι} {count : Nat} (ticket : Option Nat)
      (children : Fin count → Pending S Action A child)
      (next : (Fin count → child.Value Action) → Pending S Action A answer) :
      Pending S Action A answer
  /-- Fire what falls due on the virtual clock, up to a moment.  What is driven at present, a firing
  or a batch of spawned work, comes from the clock and is not part of the program. -/
  | advanceTo {answer : Answer ι} {count : Nat} (target : Duration) (ticket : Option Nat)
      (driven : Fin count → Pending S Action A .finished) (next : Pending S Action A answer) :
      Pending S Action A answer
  /-- Run a task at a moment, and again after every period.  The firing under way, if there is one,
  is run to its end first. -/
  | interval {answer : Answer ι} {count : Nat} (handle : TimerHandle) (period due : Duration)
      (task : Pending S Action A .finished) (running : Fin count → Pending S Action A .finished) :
      Pending S Action A answer

/-- A computation that is over when the call returns. -/
inductive Prompt (S : Type) {ι : Type} (Action : ι → Type) (A α : Type) : Type where
  | done (value : α) : Prompt S Action A α
  | call (effect : Primitive) (next : effect.Reply S → Prompt S Action A α) : Prompt S Action A α
  | send (action : Noted A) (keep : Bool) (next : Prompt S Action A α) : Prompt S Action A α
  | schedule (delay : Duration) (repeating : Bool) (task : Pending S Action A .finished)
      (next : TimerHandle → Prompt S Action A α) : Prompt S Action A α
  | spawn (task : Pending S Action A .finished) (next : Prompt S Action A α) :
      Prompt S Action A α

variable {S ι : Type} {Action : ι → Type} {A B α β γ : Type}

namespace Pending

variable {answer other : Answer ι}

/-- Go on with the result. -/
def bind (first : Pending S Action A answer)
    (after : answer.Value Action → Pending S Action A other) : Pending S Action A other :=
  match first with
  | done value => after value
  | call effect next => .call effect fun reply => (next reply).bind after
  | send action keep next => .send action keep (next.bind after)
  | schedule delay repeating task next =>
      .schedule delay repeating task fun handle => (next handle).bind after
  | spawn task next => .spawn task (next.bind after)
  | wait gate next => .wait gate (next.bind after)
  | .resumeAt moment next => .resumeAt moment (next.bind after)
  | sendAll actions next => .sendAll actions fun reply => (next reply).bind after
  | settling ticket caused next => .settling ticket caused fun reply => (next reply).bind after
  | join ticket children next => .join ticket children fun values => (next values).bind after
  | advanceTo target ticket driven next => .advanceTo target ticket driven (next.bind after)
  | interval handle period due task running => .interval handle period due task running

@[simp] theorem done_bind (value : answer.Value Action)
    (after : answer.Value Action → Pending S Action A other) :
    (done value).bind after = after value := rfl

theorem bind_done (first : Pending S Action A answer) : first.bind done = first := by
  induction first with
  | done value => rfl
  | call effect next ih => simp only [bind, ih]
  | send action keep next ih => simp only [bind, ih]
  | schedule delay repeating task next _ ih => simp only [bind, ih]
  | spawn task next _ ih => simp only [bind, ih]
  | wait gate next ih => simp only [bind, ih]
  | resumeAt moment next ih => simp only [bind, ih]
  | sendAll actions next ih => simp only [bind, ih]
  | settling ticket caused next _ ih => simp only [bind, ih]
  | join ticket children next _ ih => simp only [bind, ih]
  | advanceTo target ticket driven next _ ih => simp only [bind, ih]
  | interval handle period due task running _ _ => rfl

theorem bind_assoc {last : Answer ι} (first : Pending S Action A answer)
    (second : answer.Value Action → Pending S Action A other)
    (third : other.Value Action → Pending S Action A last) :
    (first.bind second).bind third = first.bind fun value => (second value).bind third := by
  induction first with
  | done value => rfl
  | call effect next ih => simp only [bind, ih]
  | send action keep next ih => simp only [bind, ih]
  | schedule delay repeating task next _ ih => simp only [bind, ih]
  | spawn task next _ ih => simp only [bind, ih]
  | wait gate next ih => simp only [bind, ih]
  | resumeAt moment next ih => simp only [bind, ih]
  | sendAll actions next ih => simp only [bind, ih]
  | settling ticket caused next _ ih => simp only [bind, ih]
  | join ticket children next _ ih => simp only [bind, ih]
  | advanceTo target ticket driven next _ ih => simp only [bind, ih]
  | interval handle period due task running _ _ => rfl

/-- Tag every action that is sent, leaving the results alone. -/
def retag (tagger : A → Noted B) : {answer : Answer ι} → Pending S Action A answer →
    Pending S Action B answer
  | _, done value => .done value
  | _, call effect next => .call effect fun reply => (next reply).retag tagger
  | _, send action keep next => .send (action >>= tagger) keep (next.retag tagger)
  | _, schedule delay repeating task next =>
      .schedule delay repeating (task.retag tagger) fun handle => (next handle).retag tagger
  | _, spawn task next => .spawn (task.retag tagger) (next.retag tagger)
  | _, wait gate next => .wait gate (next.retag tagger)
  | _, .resumeAt moment next => .resumeAt moment (next.retag tagger)
  | _, sendAll actions next =>
      .sendAll (actions.map (· >>= tagger)) fun reply => (next reply).retag tagger
  | _, settling ticket caused next =>
      .settling ticket (fun index => (caused index).retag tagger)
        fun reply => (next reply).retag tagger
  | _, join ticket children next =>
      .join ticket (fun index => (children index).retag tagger)
        fun values => (next values).retag tagger
  | _, advanceTo target ticket driven next =>
      .advanceTo target ticket (fun index => (driven index).retag tagger) (next.retag tagger)
  | _, interval handle period due task running =>
      .interval handle period due (task.retag tagger)
        fun index => (running index).retag tagger

/-- Tagging by a tagger that changes nothing changes nothing. -/
theorem retag_pure (program : Pending S Action A answer) : program.retag pure = program := by
  induction program with
  | done value => rfl
  | call effect next ih => simp only [retag, ih]
  | send action keep next ih => simp only [retag, ih, bind_pure]
  | schedule delay repeating task next taskIH ih => simp only [retag, taskIH, ih]
  | spawn task next taskIH ih => simp only [retag, taskIH, ih]
  | wait gate next ih => simp only [retag, ih]
  | resumeAt moment next ih => simp only [retag, ih]
  | sendAll actions next ih => simp only [retag, ih, bind_pure, List.map_id']
  | settling ticket caused next causedIH ih => simp only [retag, causedIH, ih]
  | join ticket children next childrenIH ih => simp only [retag, childrenIH, ih]
  | advanceTo target ticket driven next drivenIH ih => simp only [retag, drivenIH, ih]
  | interval handle period due task running taskIH runningIH => simp only [retag, taskIH, runningIH]

/-- The result of a computation that is over. -/
def result? : Pending S Action A answer → Option (answer.Value Action)
  | done value => some value
  | _ => none

/-- Leave notes, then go on. -/
def noting (notes : List Json) (next : Pending S Action A answer) : Pending S Action A answer :=
  notes.foldr (fun value rest => .call (.note value) fun _ => rest) next

/-- Leave the notes of a value, then go on with the value. -/
def withNoted (found : Noted α) (next : α → Pending S Action A answer) :
    Pending S Action A answer :=
  noting found.notes (next found.value)

/-- Write a line to the log, then go on. -/
def logging (entry : LogEntry) (next : Pending S Action A answer) : Pending S Action A answer :=
  .call (.log entry) fun _ => next

/-- Wait for the given time. -/
def sleep (delay : Duration) (next : Pending S Action A answer) : Pending S Action A answer :=
  .call (.deadline delay) fun moment => .resumeAt moment next

/-- Move the virtual clock by the given time. -/
def advance (span : Duration) (next : Pending S Action A answer) : Pending S Action A answer :=
  .call (.deadline span) fun target =>
    .advanceTo target none (fun nothing : Fin 0 => nothing.elim0) next

end Pending

namespace Prompt

/-- Go on with the result. -/
def bind (first : Prompt S Action A α) (after : α → Prompt S Action A β) : Prompt S Action A β :=
  match first with
  | done value => after value
  | call effect next => .call effect fun reply => (next reply).bind after
  | send action keep next => .send action keep (next.bind after)
  | schedule delay repeating task next =>
      .schedule delay repeating task fun handle => (next handle).bind after
  | spawn task next => .spawn task (next.bind after)

instance : Monad (Prompt S Action A) where
  pure := done
  bind := bind

theorem bind_done (first : Prompt S Action A α) : first.bind done = first := by
  induction first with
  | done value => rfl
  | call effect next ih => simp only [bind, ih]
  | send action keep next ih => simp only [bind, ih]
  | schedule delay repeating task next ih => simp only [bind, ih]
  | spawn task next ih => simp only [bind, ih]

theorem bind_assoc (first : Prompt S Action A α) (second : α → Prompt S Action A β)
    (third : β → Prompt S Action A γ) :
    (first.bind second).bind third = first.bind fun value => (second value).bind third := by
  induction first with
  | done value => rfl
  | call effect next ih => simp only [bind, ih]
  | send action keep next ih => simp only [bind, ih]
  | schedule delay repeating task next ih => simp only [bind, ih]
  | spawn task next ih => simp only [bind, ih]

instance : LawfulMonad (Prompt S Action A) :=
  LawfulMonad.mk' _ (fun found => bind_done found) (fun _ _ => rfl) bind_assoc

/-- One effect. -/
def perform (effect : Primitive) : Prompt S Action A (effect.Reply S) := .call effect done

/-- Tag every action that is sent, leaving the result alone. -/
def retag (tagger : A → Noted B) : Prompt S Action A α → Prompt S Action B α
  | done value => .done value
  | call effect next => .call effect fun reply => (next reply).retag tagger
  | send action keep next => .send (action >>= tagger) keep (next.retag tagger)
  | schedule delay repeating task next =>
      .schedule delay repeating (task.retag tagger) fun handle => (next handle).retag tagger
  | spawn task next => .spawn (task.retag tagger) (next.retag tagger)

theorem retag_pure (program : Prompt S Action A α) : program.retag pure = program := by
  induction program with
  | done value => rfl
  | call effect next ih => simp only [retag, ih]
  | send action keep next ih => simp only [retag, ih, bind_pure]
  | schedule delay repeating task next ih => simp only [retag, Pending.retag_pure, ih]
  | spawn task next ih => simp only [retag, Pending.retag_pure, ih]

/-- The same effects as the start of a pending computation. -/
def thenPending {answer : Answer ι} (first : Prompt S Action A α)
    (after : α → Pending S Action A answer) : Pending S Action A answer :=
  match first with
  | done value => after value
  | call effect next => .call effect fun reply => (next reply).thenPending after
  | send action keep next => .send action keep (next.thenPending after)
  | schedule delay repeating task next =>
      .schedule delay repeating task fun handle => (next handle).thenPending after
  | spawn task next => .spawn task (next.thenPending after)

/-- Leave the notes of a value, then go on with the value. -/
def ofNoted (found : Noted α) : Prompt S Action A α :=
  found.notes.foldr (fun value rest => .call (.note value) fun _ => rest) (.done found.value)

end Prompt

end EffectLoop
