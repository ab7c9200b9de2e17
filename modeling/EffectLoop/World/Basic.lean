import EffectLoop.Command.Program
import EffectLoop.Command.Observer
import EffectLoop.Time.VirtualClock
import EffectLoop.Time.TaskClock

/-!
# The world

Everything that programs can observe or change: the host's state, the gates, the scheduler, and the
trace of events.  A computation in the world either answers or comes to a halt; the world it leaves
behind is kept in both cases.
-/

namespace EffectLoop

/-- An event that a session can see. -/
inductive Event (S A : Type) where
  | note (value : Json)
  | log (entry : LogEntry)
  /-- A store told its observer. -/
  | observed (seen : Observation A)
  /-- An observer's delivery. -/
  | delivered (delivery : Delivery A)
  /-- The host's state was replaced. -/
  | committed (state : S)
  /-- A recording host was given an action. -/
  | dispatched (action : A)
  /-- A root has come to its end with a result. -/
  | ended (root : Nat) (result : Json)
  /-- A root was discarded because it panicked. -/
  | panicked (root : Nat) (message : String)

/-- A large join: which children are to be polled, in order, and which are over. -/
structure Rally where
  queue : List Nat
  finished : List Nat

/-- A task of a task clock: work in the background, or a root of a session. -/
inductive LocalTask (S : Type) {ι : Type} (Action : ι → Type) (A : Type) where
  | background (body : Pending S Action A .finished)
  | root (number : Nat) (body : Pending S Action A .report)

/-- A scheduler. -/
inductive Keeper (S : Type) {ι : Type} (Action : ι → Type) (A : Type) where
  | virtual (clock : VirtualClock (Pending S Action A .finished))
  | tasks (clock : TaskClock (LocalTask S Action A))

/-- Everything that programs can observe or change. -/
structure World (S : Type) {ι : Type} (Action : ι → Type) (A : Type) where
  state : S
  /-- The number of times the state was read. -/
  reads : Nat
  /-- Does the store still reduce? -/
  isOpen : Bool
  gates : Gates
  rallies : List (Nat × Rally)
  nextTicket : Nat
  /-- What was dispatched without waiting, and kept. -/
  kept : List (Pending S Action A .settled)
  /-- Something was woken. -/
  stirred : Bool
  keeper : Keeper S Action A
  /-- The events so far, the latest first. -/
  trace : List (Event S A)
  /-- What the wall clock reads, in seconds. -/
  wallClock : Number

/-- Why a computation in the world gives no answer. -/
inductive Halt where
  | panic (message : String)
  /-- The allowance of nested dispatches is used up. -/
  | exhausted
  deriving DecidableEq

/-- A computation in the world. -/
abbrev Run (S : Type) {ι : Type} (Action : ι → Type) (A : Type) :=
  ExceptT Halt (StateM (World S Action A))

variable {S ι : Type} {Action : ι → Type} {A : Type}

/-- The status of a scheduler. -/
def Keeper.status : Keeper S Action A → Status
  | virtual clock => .virtual clock.now clock.pending clock.queued
  | tasks clock => .tasks clock.now clock.active.length

namespace World

/-- A fresh world. -/
def initial (state : S) (keeper : Keeper S Action A) (wallClock : Number) : World S Action A :=
  { state, reads := 0, isOpen := true, gates := [], rallies := [], nextTicket := 0, kept := [],
    stirred := false, keeper, trace := [], wallClock }

/-- Add an event to the trace. -/
def emit (world : World S Action A) (event : Event S A) : World S Action A :=
  { world with trace := event :: world.trace }

/-- Add notes to the trace. -/
def annotate (world : World S Action A) (notes : List Json) : World S Action A :=
  notes.foldl (fun world value => world.emit (.note value)) world

/-- Replace the rally of a ticket. -/
def setRally (world : World S Action A) (ticket : Nat) (rally : Rally) : World S Action A :=
  { world with rallies := (ticket, rally) :: world.rallies.filter (·.1 ≠ ticket) }

/-- The rally of a ticket, if the join is not over. -/
def rally? (world : World S Action A) (ticket : Nat) : Option Rally :=
  (world.rallies.find? (·.1 = ticket)).map (·.2)

/-- Wake a root: it is to be polled again. -/
def wakeRoot (world : World S Action A) (root : Nat) : World S Action A :=
  { world with
    stirred := true
    keeper := match world.keeper with
      | .virtual clock => .virtual clock
      | .tasks clock => .tasks (clock.enqueue root) }

/-- Wake along a path of large joins: a child joins the queue of its rally and wakes what waits for
the rally.  A child that is queued already, or is over, wakes nothing. -/
def wakeAlong (world : World S Action A) (root : Nat) : List (Nat × Nat) → World S Action A
  | [] => world.wakeRoot root
  | (ticket, child) :: outer =>
      match world.rally? ticket with
      | none => world
      | some rally =>
          if rally.queue.contains child || rally.finished.contains child then world
          else
            let joined := { rally with queue := rally.queue ++ [child] }
            (world.setRally ticket joined).wakeAlong root outer

/-- Wake a waiting computation. -/
def wake (world : World S Action A) (waiter : Waiter) : World S Action A :=
  world.wakeAlong waiter.root waiter.path

/-- Open a gate and wake all that wait there, in order. -/
def unlock (world : World S Action A) (gate : String) : World S Action A :=
  let (waiters, gates) := world.gates.unlock gate
  waiters.foldl wake { world with gates }

/-- Shut a gate. -/
def shut (world : World S Action A) (gate : String) : World S Action A :=
  { world with gates := world.gates.shut gate }

end World

namespace Run

variable {α β : Type}

/-- A computation goes on in the world that the first part leaves. -/
theorem bind_of_ok {first : Run S Action A α} {next : α → Run S Action A β}
    {world middle : World S Action A} {value : α} (answered : first world = (.ok value, middle)) :
    (first >>= next) world = next value middle := by
  change ExceptT.bindCont next (first world).1 (first world).2 = _
  rw [answered]
  rfl

/-- A halt ends a computation, in the world that it leaves. -/
theorem bind_of_error {first : Run S Action A α} {next : α → Run S Action A β}
    {world middle : World S Action A} {halt : Halt} (halted : first world = (.error halt, middle)) :
    (first >>= next) world = (.error halt, middle) := by
  change ExceptT.bindCont next (first world).1 (first world).2 = _
  rw [halted]
  rfl

/-- A computation that has answered has gone through its first part. -/
theorem of_bind_ok {first : Run S Action A α} {next : α → Run S Action A β}
    {world after : World S Action A} {value : β} (answered : (first >>= next) world = (.ok value, after)) :
    ∃ found middle, first world = (.ok found, middle) ∧ next found middle = (.ok value, after) := by
  rcases outcome : first world with ⟨result, middle⟩
  cases result with
  | ok found => exact ⟨found, middle, rfl, by rw [← answered, bind_of_ok outcome]⟩
  | error halt =>
      rw [bind_of_error outcome] at answered
      cases answered

/-- Change the world. -/
def update (change : World S Action A → World S Action A) : Run S Action A Unit := modify change

/-- Add an event to the trace. -/
def emit (event : Event S A) : Run S Action A Unit := update (·.emit event)

/-- Stop everything that is under way. -/
def panic {α : Type} (message : String) : Run S Action A α := throw (.panic message)

/-- Leave the notes of a value. -/
def adopt {α : Type} (found : Noted α) : Run S Action A α := do
  update (·.annotate found.notes)
  pure found.value

/-- What a sum of durations that is no duration says. -/
def overflowMessage : String := "overflow when adding durations"

/-- The moment that lies `delay` ahead. -/
def deadline (delay : Duration) : Run S Action A Duration := do
  match (← get).keeper with
  | .virtual clock =>
      match clock.now.add? delay with
      | some moment => pure moment
      | none => panic overflowMessage
  | .tasks clock => pure (clock.moment delay)

/-- Cancel a schedule. -/
def clear (handle : TimerHandle) : Run S Action A Bool := do
  match (← get).keeper with
  | .virtual clock =>
      let (cleared, clock) := clock.clear handle
      update ({ · with keeper := .virtual clock })
      pure cleared
  | .tasks clock =>
      let (cleared, clock) := clock.clear handle
      update ({ · with keeper := .tasks clock })
      if cleared then emit (.log (.timerCleared handle))
      pure cleared

/-- Forget a schedule that is about to fire for the only time. -/
def forget (handle : TimerHandle) : Run S Action A Unit :=
  update fun world =>
    { world with
      keeper := match world.keeper with
        | .virtual clock => .virtual clock
        | .tasks clock => .tasks (clock.forget handle) }

/-- Perform an effect. -/
def perform : (effect : Primitive) → Run S Action A (effect.Reply S)
  | .readState => do
      update fun world => { world with reads := world.reads + 1 }
      pure (← get).state
  | .note value => emit (.note value)
  | .log entry => emit (.log entry)
  | .setGate gate isOpen =>
      update fun world => if isOpen then world.unlock gate else world.shut gate
  | .clear handle => clear handle
  | .inspect => do pure (← get).keeper.status
  | .wallClock => do pure (← get).wallClock
  | .deadline delay => deadline delay
  | .forget handle => forget handle
  | .skip => pure ()

/-- The task of a schedule that fires once. -/
def oneShot (handle : TimerHandle) (delay : Duration) (task : Pending S Action A .finished) :
    Pending S Action A .finished :=
  .sleep delay (.call (.forget handle) fun _ => .logging (.timeoutFired handle) task)

/-- The task of a schedule that fires over and over.  It dies at once if its first due time is no
moment. -/
def repeated (handle : TimerHandle) (first : Option Duration) (period : Duration)
    (task : Pending S Action A .finished) : Pending S Action A .finished :=
  match first with
  | some due => .interval handle period due task fun nothing : Fin 0 => nothing.elim0
  | none => .done ()

/-- Register a schedule. -/
def schedule (delay : Duration) (repeating : Bool) (task : Pending S Action A .finished) :
    Run S Action A TimerHandle := do
  match (← get).keeper with
  | .virtual clock =>
      let (handle, clock) := clock.schedule delay repeating task
      update ({ · with keeper := .virtual clock })
      match handle with
      | some handle => pure handle
      | none => panic overflowMessage
  | .tasks clock =>
      let (handle, clock) := clock.issue
      let body :=
        if repeating then
          repeated handle (clock.moment? (repeatPeriod delay)) (repeatPeriod delay) task
        else oneShot handle delay task
      let (owner, clock) := clock.spawn (.background body)
      update ({ · with keeper := .tasks (clock.register handle owner) })
      emit (.log (.timerScheduled handle delay repeating))
      pure handle

/-- What an advance of the virtual clock up to `target` is to run next: all spawned work, or the
schedule that fires first.  If there is nothing left to run the clock stands at `target`. -/
def nextDriven (target : Duration) :
    Run S Action A (Option (List (Pending S Action A .finished))) := do
  match (← get).keeper with
  | .tasks _ => pure none
  | .virtual clock =>
      let (spawned, emptied) := clock.takeSpawned
      if spawned.isEmpty then
        let (due, moved) := clock.takeDue target
        update ({ · with keeper := .virtual moved })
        match due with
        | .task task => pure (some [task])
        | .overflow => panic overflowMessage
        | .nothing =>
            update ({ · with keeper := .virtual (moved.arrive target) })
            pure none
      else
        update ({ · with keeper := .virtual emptied })
        pure (some spawned)

/-- Hand over work that nothing waits for. -/
def spawn (task : Pending S Action A .finished) : Run S Action A Unit :=
  update fun world =>
    { world with
      keeper := match world.keeper with
        | .virtual clock => .virtual (clock.spawn task)
        | .tasks clock => .tasks (clock.spawn (.background task)).2 }

end Run

end EffectLoop
