import EffectLoop.Proofs.Store.Replay
import EffectLoop.Proofs.World.Conformity
import EffectLoop.Proofs.World.Hushing
import EffectLoop.Proofs.World.Mirroring

/-!
# Closed stores

Whatever a store has handed out may be used after the store has been dropped: dispatchers, computations
that are pending, tasks of schedules, spawned work.  Then all of it does what it would do in a context
without a store, where every dispatch is answered with `storeClosed` (`Engine.closed`).  So nothing of the
store comes into it any more, neither its reducer nor its observer, and the state stays what was committed
last.
-/

namespace EffectLoop

variable {S ι : Type} {Action : ι → Type} {A α : Type} {alphabet : ι} {answer : Answer ι}

/-! ## Contexts without a store -/

/-- The engine of a context without a store.  Dispatches may nest `depth` deep. -/
def Engine.closed (depth : Nat) : Engine S Action (Action alphabet) :=
  .ofDispatch (fun _ _ => pure (.done (.error .storeClosed))) depth

/-- If nothing is muted and nothing becomes of the answer, the two computations do the same. -/
theorem Run.HushedIn.eq {image : α → α} {loud soft : Run S Action A α} {world : World S Action A}
    (hushed : HushedIn (fun _ => false) image loud soft world) (same : ∀ value, image value = value) :
    soft world = loud world := by
  have answered := hushed.same
  rw [world.spared_never.hush, (loud world).2.spared_never.hush] at answered
  rw [answered]
  cases outcome : loud world with
  | mk result after =>
    cases result with
    | ok value => exact congrArg (fun value => (Except.ok value, after)) (same value)
    | error halt => rfl

theorem LogEntry.spares_never : LogEntry.Spares fun _ => false :=
  ⟨fun _ _ _ => rfl, fun _ => rfl, fun _ => rfl, fun _ => rfl⟩

namespace Store

variable (store : Store S Action alphabet) {world : World S Action (Action alphabet)}

theorem engine_dispatch_of_closed (depth : Nat) (action : Action alphabet)
    (closed : world.isOpen = false) :
    ((Host.store store).engine (depth + 1)).dispatch action world =
      (.ok (.done (.error .storeClosed)), world) := by
  change (if world.isOpen then store.dispatch ((Host.store store).engine depth) action
    else pure (.done (.error .storeClosed)) : Run S Action (Action alphabet) _) world = _
  rw [closed]
  rfl

/-- In a world whose store is closed, its engine is that of a context without a store.  Nothing is muted
here: it is the engines that are compared. -/
theorem engine_hushed (depth : Nat) :
    Engine.Hushed (fun _ => false) false ((Host.store store).engine depth) (.closed depth) := by
  induction depth with
  | zero => exact ⟨fun _ _ _ => .throw _, fun _ _ _ _ => .throw _⟩
  | succ depth ih =>
      constructor
      · intro action world closed
        have answered := store.engine_dispatch_of_closed depth action closed
        constructor
        · rw [answered]
        · rw [answered]
          rfl
      · intro answer waiter pending world closed
        exact Pending.poll_hushed LogEntry.spares_never ih waiter pending closed

variable (closed : world.isOpen = false)
include closed

theorem poll_of_closed (depth : Nat) (waiter : Waiter)
    (pending : Pending S Action (Action alphabet) answer) :
    pending.poll (.closed depth) waiter world =
      pending.poll ((Host.store store).engine depth) waiter world := by
  have hushed := Pending.poll_hushed LogEntry.spares_never (store.engine_hushed depth) waiter pending
    closed
  rw [Pending.hush_never] at hushed
  exact hushed.eq Pending.hush_never

theorem run_of_closed (depth : Nat) (program : Prompt S Action (Action alphabet) α) :
    program.run (.closed depth) world = program.run ((Host.store store).engine depth) world := by
  have hushed := Prompt.run_hushed LogEntry.spares_never (store.engine_hushed depth) id program closed
  rw [Prompt.hush_never] at hushed
  exact hushed.eq fun _ => rfl

end Store

/-! ## The state committed last -/

/-- The state that an event puts in place. -/
def Event.committed? : Event S A → Option S
  | .committed state => some state
  | _ => none

/-- The state committed last, or `base` if there was no commit. -/
def lastCommitted (base : S) (trace : List (Event S A)) : S :=
  (trace.findSome? Event.committed?).getD base

theorem lastCommitted_append (base : S) (later earlier : List (Event S A)) :
    lastCommitted base (later ++ earlier) = lastCommitted (lastCommitted base earlier) later := by
  rw [lastCommitted, lastCommitted, List.findSome?_append]
  cases later.findSome? Event.committed? <;> rfl

/-- The trace has grown, and the state is the one that was committed last. -/
def World.Shows (before after : World S Action A) : Prop :=
  ∃ recent, after.trace = recent ++ before.trace ∧ after.state = lastCommitted before.state recent

theorem World.Shows.onward {base : S} {before after : World S Action A} (shows : before.Shows after)
    (shown : before.state = lastCommitted base before.trace) :
    after.state = lastCommitted base after.trace := by
  obtain ⟨recent, grown, state⟩ := shows
  rw [state, grown, lastCommitted_append, shown]

theorem World.shows_tolerant : Tolerant (Shows : World S Action A → World S Action A → Prop) where
  refl _ := ⟨[], rfl, rfl⟩
  trans := by
    intro first second third before after
    obtain ⟨earlier, grown, shown⟩ := before
    obtain ⟨later, grownAgain, shownAgain⟩ := after
    refine ⟨later ++ earlier, ?_, ?_⟩
    · rw [grownAgain, grown, List.append_assoc]
    · rw [shownAgain, shown, lastCommitted_append]
  sameFront same := ⟨[], same.2.1, same.1⟩
  note _ value := ⟨[.note value], rfl, rfl⟩
  log _ entry := ⟨[.log entry], rfl, rfl⟩

theorem World.shows_houses :
    (Regime.relating World.Shows : Regime S Action (Action alphabet)).Houses .lax where
  toGoverns := World.shows_tolerant.governs
  observed _ seen _ := ⟨trivial, [.observed seen], rfl, rfl⟩
  delivered _ delivery _ := ⟨trivial, [.delivered delivery], rfl, rfl⟩
  committed _ state _ := ⟨trivial, [.committed state], rfl, rfl⟩
  dispatched _ action _ := ⟨trivial, [.dispatched action], rfl, rfl⟩

namespace Store

variable {store : Store S Action alphabet} {base : S} {older : List (Event S (Action alphabet))}

/-- In every world that a run of a store leads to, the state is the one committed last. -/
theorem Reached.shown {world : World S Action (Action alphabet)}
    (reached : store.Reached base older world) : world.state = lastCommitted base world.trace := by
  have houses : (Regime.relating World.Shows : Regime S Action (Action alphabet)).Houses .lax :=
    World.shows_houses
  have obeys (depth : Nat) := Host.engine_obeys houses (Host.store store).within_lax depth
  have launched (depth : Nat) (cmd : Cmd S Action alphabet) :=
    (store.launch_obeys houses (obeys depth) cmd (cmd.conforms_lax store.options)).keeps
  induction reached with
  | installed state keeper wallClock => rfl
  | started depth loop _ _ =>
      rw [store.start_eq]
      exact World.Shows.onward (launched depth _ _) rfl
  | dispatched depth action _ ih =>
      exact World.Shows.onward (((obeys depth).dispatch action).keeps _) ih
  | launched depth cmd _ ih => exact World.Shows.onward (launched depth cmd _) ih
  | called depth program _ ih =>
      have obeyed := Prompt.run_obeys houses.toGoverns (obeys depth) program.within_lax
      exact World.Shows.onward (obeyed.keeps _) ih
  | polled depth waiter pending _ ih =>
      have obeyed := Pending.poll_obeys houses.toGoverns (obeys depth) waiter pending.within_lax
      exact World.Shows.onward (obeyed.keeps _) ih
  | changed _ same ih => rw [same.1, same.2, ih]

end Store

/-! ## After the drop -/

/-- A store tells its observer, the observer delivers, and states are committed. -/
def Event.ByStore : Event S A → Prop
  | .observed _ => True
  | .delivered _ => True
  | .committed _ => True
  | _ => False

/-- The state is the same, the store is closed if it was, and it has added nothing to the trace. -/
structure World.Dormant (before after : World S Action A) : Prop where
  state : after.state = before.state
  isOpen : after.isOpen = before.isOpen
  trace : ∃ recent, after.trace = recent ++ before.trace ∧ ∀ event ∈ recent, ¬event.ByStore

namespace World

variable {before after : World S Action A}

theorem Dormant.of_sameFront (same : before.SameFront after) : before.Dormant after where
  state := same.1
  isOpen := same.2.2
  trace := ⟨[], same.2.1, fun _ member => absurd member List.not_mem_nil⟩

theorem Dormant.emit (world : World S Action A) {event : Event S A} (apart : ¬event.ByStore) :
    world.Dormant (world.emit event) where
  state := rfl
  isOpen := rfl
  trace := by
    refine ⟨[event], rfl, ?_⟩
    intro other member
    rw [List.mem_singleton.1 member]
    exact apart

theorem Dormant.trans {last : World S Action A} (first : before.Dormant after)
    (second : after.Dormant last) : before.Dormant last where
  state := second.state.trans first.state
  isOpen := second.isOpen.trans first.isOpen
  trace := by
    obtain ⟨earlier, grown, apart⟩ := first.trace
    obtain ⟨later, grownAgain, apartAgain⟩ := second.trace
    refine ⟨later ++ earlier, ?_, ?_⟩
    · rw [grownAgain, grown, List.append_assoc]
    · intro event member
      exact (List.mem_append.1 member).elim (apartAgain event) (apart event)

theorem dormant_tolerant : Tolerant (Dormant : World S Action A → World S Action A → Prop) where
  refl world := .of_sameFront (.refl world)
  trans := .trans
  sameFront := .of_sameFront
  note world _ := .emit world id
  log world _ := .emit world id

end World

theorem Engine.closed_keeps (depth : Nat) :
    (closed depth : Engine S Action (Action alphabet)).Keeps World.Dormant := by
  have tolerant : Tolerant (World.Dormant : World S Action (Action alphabet) → _) :=
    World.dormant_tolerant
  induction depth with
  | zero =>
      constructor
      · exact fun _ => .throw tolerant _
      · exact fun _ _ => .throw tolerant _
  | succ depth ih =>
      constructor
      · exact fun _ => .pure tolerant _
      · exact fun waiter pending => Pending.poll_keeps tolerant ih waiter pending

/-- A dispatcher for the actions of an alphabet: that of the store, or one that tags what it is given and
hands it to another. -/
inductive Wrapping {ι : Type} (Action : ι → Type) (alphabet : ι) : ι → Type where
  | own : Wrapping Action alphabet alphabet
  | mapped {parent child : ι} (outer : Wrapping Action alphabet parent)
      (tagger : Action child → Noted (Action parent)) : Wrapping Action alphabet child

/-- The action that reaches the store. -/
def Wrapping.tag {child : ι} : Wrapping Action alphabet child → Action child → Noted (Action alphabet)
  | own, action => pure action
  | mapped outer tagger, action => tagger action >>= outer.tag

namespace Store

variable (store : Store S Action alphabet)

/-- How things can go on with what the store has handed out, in any order. -/
inductive Outlives (world : World S Action (Action alphabet)) :
    World S Action (Action alphabet) → Prop where
  | dropped : Outlives world world
  /-- An action is given to a dispatcher. -/
  | sent {after child} (depth : Nat) (wrapping : Wrapping Action alphabet child)
      (action : Action child) : Outlives world after →
      Outlives world (((Host.store store).engine depth).start (wrapping.tag action) after).2
  /-- Code is called that has the context of the store. -/
  | called {after α} (depth : Nat) (program : Prompt S Action (Action alphabet) α) :
      Outlives world after → Outlives world (program.run ((Host.store store).engine depth) after).2
  /-- A pending computation is polled: what a dispatch or a command has caused, the task of a schedule,
  spawned work, or an advance of the clock. -/
  | polled {after} {answer : Answer ι} (depth : Nat) (waiter : Waiter)
      (pending : Pending S Action (Action alphabet) answer) : Outlives world after →
      Outlives world (pending.poll ((Host.store store).engine depth) waiter after).2
  | ended {after} (root : Nat) (result : Json) : Outlives world after →
      Outlives world (after.emit (.ended root result))
  | panicked {after} (root : Nat) (message : String) : Outlives world after →
      Outlives world (after.emit (.panicked root message))
  /-- The scheduler, the gates and what is booked of waiting computations change. -/
  | beside {before after} : Outlives world before → before.SameFront after → Outlives world after

/-- How a world is after a store was dropped in the world `dropped`. -/
structure Inert (dropped after : World S Action (Action alphabet)) : Prop where
  /-- The state has not changed, and there are no events of the store. -/
  dormant : dropped.Dormant after
  /-- Every dispatcher answers that the store is closed. -/
  answers : ∀ depth child (wrapping : Wrapping Action alphabet child) (action : Action child),
    ((Host.store store).engine (depth + 1)).start (wrapping.tag action) after =
      (.ok (.done (.error .storeClosed)), after.annotate (wrapping.tag action).notes)
  /-- Code that is called finds only dispatchers that say so. -/
  calls : ∀ {α : Type} depth (program : Prompt S Action (Action alphabet) α),
    program.run ((Host.store store).engine depth) after = program.run (.closed depth) after
  /-- So does what is polled. -/
  polls : ∀ {answer : Answer ι} depth waiter (pending : Pending S Action (Action alphabet) answer),
    pending.poll ((Host.store store).engine depth) waiter after =
      pending.poll (.closed depth) waiter after

variable {store} {world after : World S Action (Action alphabet)}

theorem start_of_closed (closed : after.isOpen = false) (depth : Nat)
    (action : Noted (Action alphabet)) :
    ((Host.store store).engine (depth + 1)).start action after =
      (.ok (.done (.error .storeClosed)), after.annotate action.notes) := by
  have adopted : (Run.adopt action : Run S Action (Action alphabet) _) after =
      (.ok action.value, after.annotate action.notes) := rfl
  rw [Engine.start, Run.bind_of_ok adopted]
  apply store.engine_dispatch_of_closed
  rw [annotate_eq]
  exact closed

section Outlives

variable (closed : world.isOpen = false)
include closed

theorem Outlives.dormant (outlives : store.Outlives world after) : world.Dormant after := by
  have tolerant : Tolerant (World.Dormant : World S Action (Action alphabet) → _) :=
    World.dormant_tolerant
  induction outlives with
  | dropped => exact tolerant.refl world
  | @sent after child depth wrapping action _ ih =>
      apply ih.trans
      cases depth with
      | zero => exact Run.Keeps.bind tolerant (.adopt tolerant _) (fun _ => .throw tolerant _) after
      | succ depth =>
          rw [start_of_closed (ih.isOpen.trans closed)]
          exact Run.Keeps.adopt tolerant (wrapping.tag action) after
  | called depth program _ ih =>
      apply ih.trans
      rw [← store.run_of_closed (ih.isOpen.trans closed)]
      exact Prompt.run_keeps tolerant (Engine.closed_keeps depth) program _
  | polled depth waiter pending _ ih =>
      apply ih.trans
      rw [← store.poll_of_closed (ih.isOpen.trans closed)]
      exact Pending.poll_keeps tolerant (Engine.closed_keeps depth) waiter pending _
  | ended root result _ ih => exact ih.trans (.emit _ id)
  | panicked root message _ ih => exact ih.trans (.emit _ id)
  | beside _ same ih => exact ih.trans (.of_sameFront same)

end Outlives

/-- A store that has been dropped is inert.  Whatever is still done with what it has handed out, and in
whatever order, the state is the one that was committed last before the drop, nobody is told anything, and
every dispatch is answered with `storeClosed`.  The reducer is not called: all goes on as in a context
that has none. -/
theorem Outlives.inert (reached : store.Reached base older world) (closed : world.isOpen = false)
    (outlives : store.Outlives world after) :
    store.Inert world after ∧
      Run.perform .readState after =
        (.ok (lastCommitted base world.trace), { after with reads := after.reads + 1 }) := by
  have dormant := outlives.dormant closed
  have closedAfter := dormant.isOpen.trans closed
  constructor
  · constructor
    · exact dormant
    · exact fun depth child wrapping action => start_of_closed closedAfter depth (wrapping.tag action)
    · exact fun depth program => (store.run_of_closed closedAfter depth program).symm
    · exact fun depth waiter pending => (store.poll_of_closed closedAfter depth waiter pending).symm
  · rw [← reached.shown, ← dormant.state]
    rfl

/-- The tallying store was given a one, and dropped.  Then a schedule fires that dispatches a seven. -/
def bereft : World Nat (fun _ : Unit => Nat) Nat := { tallied with isOpen := false }

theorem reached_bereft : tallying.Reached 5 [] bereft := .changed reached_tallied ⟨rfl, rfl⟩

/-- The seven that comes after the drop changes nothing, and the firing ends with a line in the log. -/
theorem inert_bereft :
    let fired : Pending Nat (fun _ : Unit => Nat) Nat .finished :=
      firing ((Cmd.action 7 : Cmd Nat (fun _ : Unit => Nat) ()).execute .default)
    let after := (fired.poll ((Host.store tallying).engine 2) ⟨0, []⟩ bereft).2
    tallying.Inert bereft after ∧
      ((Run.perform .readState : Run Nat (fun _ : Unit => Nat) Nat Nat) after).1 = .ok 13 ∧
      after.trace.length = bereft.trace.length + 1 := by
  intro fired after
  have outlives : tallying.Outlives bereft after := .polled 2 ⟨0, []⟩ fired .dropped
  have inert := Outlives.inert reached_bereft rfl outlives
  have last : lastCommitted 5 bereft.trace = 13 := by decide +kernel
  refine ⟨inert.1, ?_, by decide +kernel⟩
  rw [inert.2, last]

end Store

end EffectLoop
