import EffectLoop.Proofs.World.Passage
import EffectLoop.Proofs.Time.Course

/-!
# Worlds with one advance at a time

The timeline of a world in which at most one advance of the clock is under way.  An advance begins, has
the work that it drives polled, takes from the clock what is next once all of that is over, and ends
when nothing is left to take.  In between anything may happen that advances no clock.

The clock of such a world follows a course of one advance at a time, and so keeps its discipline.
-/

namespace EffectLoop

variable {S ι : Type} {Action : ι → Type} {A α β : Type} {alphabet : ι} {answer : Answer ι}

open VirtualClock (Advance Asides Course Entry Moves)

/-! ## Timelines -/

/-- An advance that is under way, with what is left of the work that it drives. -/
structure Advancing (S : Type) {ι : Type} (Action : ι → Type) (A : Type) where
  target : Duration
  ticket : Option Nat
  {count : Nat}
  driven : Fin count → Pending S Action A .finished

/-- The history of the clock in a world, the latest first, with the advance that is under way. -/
inductive Host.Timeline (host : Host S Action alphabet) :
    List (Entry (Pending S Action (Action alphabet) .finished)) →
      World S Action (Action alphabet) → Option (Advancing S Action (Action alphabet)) → Prop where
  | fresh {world} : world.keeper = .virtual .initial → Timeline host [] world none
  /-- Something happens that only makes moves aside. -/
  | happens {history entries before after way clock moved} : Timeline host history before way →
      before.keeper = .virtual clock → after.keeper = .virtual moved → Asides clock entries moved →
      moved.Holds (Pending.Within .still) → Timeline host (entries ++ history) after way
  /-- An advance begins: its target is fixed. -/
  | begins {history world clock span target} : Timeline host history world none →
      world.keeper = .virtual clock → Run.deadline span world = (.ok target, world) →
      Timeline host (⟨.begun span, clock⟩ :: history) world
        (some ⟨target, none, fun nothing : Fin 0 => nothing.elim0⟩)
  /-- The work that it drives is polled. -/
  | works {history entries before after clock moved target ticket newTicket count left}
      {driven : Fin count → Pending S Action (Action alphabet) .finished}
      (depth : Nat) (waiter : Waiter) :
      Timeline host history before (some ⟨target, ticket, driven⟩) →
      (host.engine depth).pollJoin waiter ticket driven
        (fun index => (driven index).poll (host.engine depth) waiter) before =
          (.ok (newTicket, left), after) →
      before.keeper = .virtual clock → after.keeper = .virtual moved → Asides clock entries moved →
      Timeline host (entries ++ history) after (some ⟨target, newTicket, left.get⟩)
  /-- All of it is over, and the advance takes what is next. -/
  | takes {history before after clock moved target ticket count move tasks}
      {driven : Fin count → Pending S Action (Action alphabet) .finished} :
      Timeline host history before (some ⟨target, ticket, driven⟩) →
      (∀ index, driven index = .done ()) → Run.nextDriven target before = (.ok (some tasks), after) →
      before.keeper = .virtual clock → after.keeper = .virtual moved → Moves clock move moved →
      Run.Drives clock target move (.ok (some tasks)) →
      Timeline host (⟨.moved move, moved⟩ :: ⟨.completed count, clock⟩ :: history) after
        (some ⟨target, none, tasks.get⟩)
  /-- All of it is over, and there is nothing to take. -/
  | ends {history before after clock moved target ticket count}
      {driven : Fin count → Pending S Action (Action alphabet) .finished} :
      Timeline host history before (some ⟨target, ticket, driven⟩) →
      (∀ index, driven index = .done ()) → Run.nextDriven target before = (.ok none, after) →
      before.keeper = .virtual clock → after.keeper = .virtual moved →
      Timeline host (⟨.moved (.arrived target), moved⟩ :: ⟨.completed count, clock⟩ :: history) after
        none

/-! ## The course of the clock -/

/-- How an advance shows in the course of the clock. -/
inductive Advancing.Under : Option Advance → Option (Advancing S Action A) → Prop where
  | idle : Under none none
  | way {span target ticket count} {driven : Fin count → Pending S Action A .finished} :
      (∀ index, (driven index).Within .still) →
      Under (some ⟨span, target, count⟩) (some ⟨target, ticket, driven⟩)

/-- The clock of the world has followed a course with this history. -/
inductive World.Follows (history : List (Entry (Pending S Action A .finished)))
    (world : World S Action A) (way : Option (Advancing S Action A)) : Prop where
  | intro {clock advance} : world.keeper = .virtual clock → clock.Holds (Pending.Within .still) →
      Course history clock advance → Advancing.Under advance way → Follows history world way

/-- The regime of everything but the advance. -/
def Regime.aside : Regime S Action A := .passage .still VirtualClock.Move.IsAside

theorem Regime.aside_houses : (aside : Regime S Action (Action alphabet)).Houses .still :=
  passage_houses (fun _ aside => aside) fun advance => advance.elim

/-- What is allowed beside the advance is a sequence of moves aside. -/
theorem Regime.Allows.asides {before after : World S Action A} {clock : World.Clock S Action A}
    (allowed : Regime.aside.Allows before after) (keeper : before.keeper = .virtual clock)
    (holds : clock.Holds (Pending.Within .still)) : ∃ entries moved,
      after.keeper = .virtual moved ∧ moved.Holds (Pending.Within .still) ∧
        Asides clock entries moved := by
  obtain ⟨⟨known, keeperAfter, holdsAfter⟩, law⟩ := allowed ⟨clock, keeper, holds⟩
  obtain ⟨moves, moved, keeperMoved, path, all⟩ := law clock keeper
  rw [keeperAfter] at keeperMoved
  cases keeperMoved
  obtain ⟨entries, asides⟩ := path.asides all
  exact ⟨entries, _, keeperAfter, holdsAfter, asides⟩

section Timeline

variable {host : Host S Action alphabet} (within : host.Within .still)
variable {history : List (Entry (Pending S Action (Action alphabet) .finished))}
variable {world after : World S Action (Action alphabet)}
variable {way : Option (Advancing S Action (Action alphabet))}
include within

/-- Polling the work that an advance drives makes moves aside, and leaves such work. -/
theorem Engine.pollJoin_aside (depth : Nat) (waiter : Waiter) (ticket : Option Nat) {count : Nat}
    {driven : Fin count → Pending S Action (Action alphabet) .finished}
    (drivenWithin : ∀ index, (driven index).Within .still) :
    Regime.aside.Obeys (Leaves .still) ((host.engine depth).pollJoin waiter ticket driven
      fun index => (driven index).poll (host.engine depth) waiter) := by
  have houses : (Regime.aside : Regime S Action (Action alphabet)).Houses .still :=
    Regime.aside_houses
  have obeys := Host.engine_obeys houses within depth
  exact pollJoin_obeys houses.toGoverns obeys waiter ticket drivenWithin fun index =>
    Pending.poll_obeys houses.toGoverns obeys waiter (drivenWithin index)

theorem Host.Timeline.follows (timeline : host.Timeline history world way) :
    World.Follows history world way := by
  induction timeline with
  | fresh keeper => exact .intro keeper (VirtualClock.initial_holds _) .fresh .idle
  | happens _ keeper keeperAfter asides holds ih =>
      obtain ⟨known, _, course, under⟩ := ih
      rw [keeper] at known
      cases known
      exact .intro keeperAfter holds (course.asides asides) under
  | begins _ keeper fixed ih =>
      obtain ⟨known, holds, course, under⟩ := ih
      rw [keeper] at known
      cases known
      cases under
      obtain ⟨sum, _⟩ := Run.deadline_eq_ok keeper fixed
      exact .intro keeper holds (course.begun sum) (.way fun index => index.elim0)
  | works depth waiter _ joined keeper keeperAfter asides ih =>
      obtain ⟨known, holds, course, under⟩ := ih
      rw [keeper] at known
      cases known
      cases under with
      | way drivenWithin =>
      obtain ⟨allowed, answers⟩ :=
        Engine.pollJoin_aside within depth waiter _ drivenWithin _
      rw [joined] at allowed answers
      obtain ⟨_, _, keeperMoved, holdsAfter, _⟩ := allowed.asides keeper holds
      rw [keeperAfter] at keeperMoved
      cases keeperMoved
      have leaves := answers ⟨_, keeper, holds⟩ _ rfl
      exact .intro keeperAfter holdsAfter (course.asides asides) (.way leaves)
  | takes _ _ taken keeper keeperAfter step drives ih =>
      obtain ⟨known, holds, course, under⟩ := ih
      rw [keeper] at known
      cases known
      cases under with
      | way drivenWithin =>
      cases drives with
      | drained =>
          exact .intro keeperAfter (step.holds holds trivial) (course.completed.drained step)
            (.way fun index => holds.spawned _ (List.get_mem _ index))
      | fired timer =>
          have first := (VirtualClock.mem_of_due? step.of_fired.2).1
          have work (index : Fin 1) : Pending.Within .still ([timer.task].get index) := by
            rw [List.mem_singleton.1 (List.get_mem [timer.task] index)]
            exact holds.timers timer first
          exact .intro keeperAfter (step.holds holds trivial) (course.completed.fired step)
            (.way work)
  | ends _ _ taken keeper keeperAfter ih =>
      obtain ⟨known, holds, course, under⟩ := ih
      rw [keeper] at known
      cases known
      cases under with
      | way drivenWithin =>
      obtain ⟨move, result, moved, same, step, drives⟩ := Run.nextDriven_moves keeper _
      rw [same] at taken
      cases taken
      cases drives with
      | arrived =>
      cases keeperAfter
      exact .intro rfl (step.holds holds trivial) (course.completed.arrived step) .idle

end Timeline

end EffectLoop
