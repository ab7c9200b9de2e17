import EffectLoop.World.Basic

/-!
# Polling

`Prompt.run` performs a computation that is over in the call.  `Pending.poll` takes a pending
computation as far as it goes and answers what is left of it.

Both follow the program, so they need no measure of their own.  What a dispatch adds is not part of
the program; it comes from an `Engine`, and the engine of `n + 1` nested dispatches is built from
the one of `n` (`World/Host`).

A join of up to thirty children polls every child that is not over, in order.  A larger one polls
its children in order once, and from then on only those that were woken, in the order of their
waking.
-/

namespace EffectLoop

variable {S ι : Type} {Action : ι → Type} {A α : Type} {answer : Answer ι}

/-- What the world makes of a dispatched action, and of computations that are not part of the
program that is being polled. -/
structure Engine (S : Type) {ι : Type} (Action : ι → Type) (A : Type) where
  dispatch : A → Run S Action A (Pending S Action A .settled)
  poll : {answer : Answer ι} → Waiter → Pending S Action A answer →
    Run S Action A (Pending S Action A answer)

namespace Engine

/-- Dispatch an action, leaving the notes of its taggers first. -/
def start (engine : Engine S Action A) (action : Noted A) :
    Run S Action A (Pending S Action A .settled) := do
  engine.dispatch (← Run.adopt action)

/-- Dispatch an action; what it causes is kept or dropped. -/
def send (engine : Engine S Action A) (action : Noted A) (keep : Bool) : Run S Action A Unit := do
  let caused ← engine.start action
  if keep then Run.update fun world => { world with kept := world.kept ++ [caused] }

end Engine

/-- Perform a computation that is over in the call. -/
def Prompt.run (engine : Engine S Action A) : Prompt S Action A α → Run S Action A α
  | .done value => pure value
  | .call effect next => do (next (← Run.perform effect)).run engine
  | .send action keep next => do
      engine.send action keep
      next.run engine
  | .schedule delay repeating task next => do
      (next (← Run.schedule delay repeating task)).run engine
  | .spawn task next => do
      Run.spawn task
      next.run engine

/-! ## Large joins -/

namespace Rally

/-- Joins of up to this many children poll all of them. -/
def smallJoin : Nat := 30

/-- The rally of a join whose children are all to be polled, in order. -/
def full (count : Nat) : Rally := ⟨List.range count, []⟩

/-- Open a rally under a fresh ticket. -/
def openRally (count : Nat) : Run S Action A Nat := do
  let ticket := (← get).nextTicket
  Run.update fun world => { world.setRally ticket (full count) with nextTicket := ticket + 1 }
  pure ticket

/-- Take the first child out of the queue of a rally. -/
def takeChild (ticket : Nat) : Run S Action A (Option Nat) := do
  match (← get).rally? ticket with
  | none => pure none
  | some rally =>
      match rally.queue with
      | [] => pure none
      | child :: rest =>
          Run.update (·.setRally ticket { rally with queue := rest })
          pure (some child)

/-- A child of a rally is over; the answer is how many were over before. -/
def finish (ticket child : Nat) : Run S Action A Nat := do
  match (← get).rally? ticket with
  | none => pure 0
  | some rally =>
      Run.update (·.setRally ticket { rally with finished := child :: rally.finished })
      pure rally.finished.length

/-- Is the child in the queue of its rally? -/
def isQueued (ticket child : Nat) : Run S Action A Bool := do
  pure (((← get).rally? ticket).any (·.queue.contains child))

/-- Poll the woken children of a rally.  The round ends when none is left; it breaks off, to be
taken up again, when as many children in a row have stopped as were open, or when two of them have
woken themselves. -/
def poll
    (pollChild : Waiter → Pending S Action A answer → Run S Action A (Pending S Action A answer))
    (waiter : Waiter) (ticket : Nat) {count : Nat}
    (children : Vector (Pending S Action A answer) count) (remaining stopped restless : Nat) :
    (fuel : Nat) → Run S Action A (Vector (Pending S Action A answer) count)
  | 0 => pure children
  | fuel + 1 => do
      match ← takeChild ticket with
      | none => pure children
      | some child =>
          if inside : child < count then
            let childWaiter := { waiter with path := (ticket, child) :: waiter.path }
            let left ← pollChild childWaiter children[child]
            let children := children.set child left
            match left.result? with
            | some _ =>
                let before ← finish ticket child
                poll pollChild waiter ticket children (count - (before + 1)) 0 0 fuel
            | none =>
                let restless := if ← isQueued ticket child then restless + 1 else restless
                let stopped := stopped + 1
                if 2 ≤ restless ∨ stopped = remaining then
                  Run.update (·.wake waiter)
                  pure children
                else poll pollChild waiter ticket children remaining stopped restless fuel
          else pure children

/-- Poll the woken children of a rally of which some may be over already. -/
def resume
    (pollChild : Waiter → Pending S Action A answer → Run S Action A (Pending S Action A answer))
    (waiter : Waiter) (ticket : Nat) {count : Nat}
    (children : Fin count → Pending S Action A answer) :
    Run S Action A (Vector (Pending S Action A answer) count) := do
  let done := (((← get).rally? ticket).map (·.finished.length)).getD 0
  poll pollChild waiter ticket (Vector.ofFn children) (count - done) 0 0 (count * count + count + 1)

end Rally

/-- Poll the children of a join that is not part of the program.  The answer is the ticket of a
large join, and what is left of the children. -/
def Engine.pollFresh (engine : Engine S Action A) (waiter : Waiter) {count : Nat}
    (children : Fin count → Pending S Action A answer) :
    Run S Action A (Option Nat × Vector (Pending S Action A answer) count) := do
  if count ≤ Rally.smallJoin then
    pure (none, ← Vector.ofFnM fun index => engine.poll waiter (children index))
  else
    let ticket ← Rally.openRally count
    pure (some ticket, ← Rally.resume engine.poll waiter ticket children)

/-- Poll the children of a join that is part of the program.  `each` polls one of a small join. -/
def Engine.pollJoin (engine : Engine S Action A) (waiter : Waiter) {count : Nat}
    (ticket : Option Nat) (children : Fin count → Pending S Action A answer)
    (each : Fin count → Run S Action A (Pending S Action A answer)) :
    Run S Action A (Option Nat × Vector (Pending S Action A answer) count) := do
  if count ≤ Rally.smallJoin then
    pure (ticket, ← Vector.ofFnM each)
  else match ticket with
    | none => engine.pollFresh waiter children
    | some ticket => do pure (some ticket, ← Rally.resume engine.poll waiter ticket children)

/-! ## Pending computations -/

/-- The results of the children of a join, if all are over. -/
def results? {count : Nat} (children : Vector (Pending S Action A answer) count) :
    Option (Vector (answer.Value Action) count) :=
  children.mapM Pending.result?

/-- The failure of the first that failed. -/
def firstFailure {count : Nat} (results : Fin count → Except CmdFailure Unit) :
    Except CmdFailure Unit :=
  (List.ofFn results).forM id

namespace Pending

/-- Take a computation as far as it goes.  Where it stops it leaves the waiter. -/
def poll (engine : Engine S Action A) (waiter : Waiter) :
    {answer : Answer ι} → Pending S Action A answer → Run S Action A (Pending S Action A answer)
  | _, .done value => pure (.done value)
  | _, .call effect next => do
      (next (← Run.perform effect)).poll engine waiter
  | _, .send action keep next => do
      engine.send action keep
      next.poll engine waiter
  | _, .schedule delay repeating task next => do
      (next (← Run.schedule delay repeating task)).poll engine waiter
  | _, .spawn task next => do
      Run.spawn task
      next.poll engine waiter
  | _, .wait gate next => do
      if (← get).gates.isOpen gate then next.poll engine waiter
      else
        Run.update fun world => { world with gates := world.gates.wait gate waiter }
        pure (.wait gate next)
  | _, .resumeAt moment next => do
      match (← get).keeper with
      | .virtual clock =>
          if moment ≤ clock.now then next.poll engine waiter else pure (.resumeAt moment next)
      | .tasks clock =>
          if moment ≤ clock.now then next.poll engine waiter
          else
            Run.update ({ · with keeper := .tasks (clock.setAlarm moment waiter) })
            pure (.resumeAt moment next)
  | _, .sendAll actions next => do
      let caused ← actions.mapM engine.start
      let (ticket, left) ← engine.pollFresh waiter caused.get
      match results? left with
      | some results => (next (firstFailure results.get)).poll engine waiter
      | none => pure (.settling ticket left.get next)
  | _, .settling ticket caused next => do
      let (ticket, left) ← engine.pollJoin waiter ticket caused fun index =>
        (caused index).poll engine waiter
      match results? left with
      | some results => (next (firstFailure results.get)).poll engine waiter
      | none => pure (.settling ticket left.get next)
  | _, .join ticket children next => do
      let (ticket, left) ← engine.pollJoin waiter ticket children fun index =>
        (children index).poll engine waiter
      match results? left with
      | some results => (next results.get).poll engine waiter
      | none => pure (.join ticket left.get next)
  | _, .advanceTo target ticket driven next => do
      match (← get).keeper with
      | .virtual _ =>
          let (ticket, left) ← engine.pollJoin waiter ticket driven fun index =>
            (driven index).poll engine waiter
          match results? left with
          | none => pure (.advanceTo target ticket left.get next)
          | some _ =>
              match ← Run.nextDriven target with
              | some driven => engine.poll waiter (.advanceTo target none driven.get next)
              | none => next.poll engine waiter
      | .tasks clock =>
          if target ≤ clock.now then next.poll engine waiter
          else
            Run.update ({ · with keeper := .tasks (clock.setAlarm target waiter) })
            pure (.advanceTo target ticket driven next)
  | _, .interval handle period due task running => do
      let (_, left) ← engine.pollJoin waiter none running fun index =>
        (running index).poll engine waiter
      match results? left with
      | none => pure (.interval handle period due task left.get)
      | some _ =>
          match (← get).keeper with
          | .virtual _ => pure (.interval handle period due task fun nothing : Fin 0 => nothing.elim0)
          | .tasks clock =>
              if due ≤ clock.now then
                Run.emit (.log (.intervalFired handle))
                engine.poll waiter
                  (.interval handle period (clock.nextDue period due) task fun _ : Fin 1 => task)
              else
                Run.update ({ · with keeper := .tasks (clock.setAlarm due waiter) })
                pure (.interval handle period due task fun nothing : Fin 0 => nothing.elim0)

end Pending

end EffectLoop
