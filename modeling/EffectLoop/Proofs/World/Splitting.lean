import EffectLoop.Proofs.World.Allowance
import EffectLoop.Proofs.World.Passage
import EffectLoop.Proofs.Time.Legs

/-!
# Splitting an advance

An advance that comes to its end in one poll runs the work of one leg after the other, and each time
all of it is over before the next leg is taken.  At the end nothing is left to run up to the target.
So an advance that stops midway and goes on from there at once takes the same legs as one that does
not stop, and leads to the same world.
-/

namespace EffectLoop

variable {S ι : Type} {Action : ι → Type} {A : Type} {alphabet : ι}

open VirtualClock (Leg)

/-! ## What an advance takes -/

namespace Run

variable {world : World S Action A} {clock moved : World.Clock S Action A}
  (keeper : world.keeper = .virtual clock) {target : Duration}
include keeper

/-- An advance takes the next leg, or arrives, or cannot re-arm a schedule. -/
theorem nextDriven_cases (target : Duration) :
    (∃ leg moved, clock.Takes target leg moved ∧
      nextDriven target world = (.ok (some leg.tasks), { world with keeper := .virtual moved })) ∨
    (clock.AtRest target ∧
      nextDriven target world =
        (.ok none, { world with keeper := .virtual (clock.arrive target) })) ∨
    ((∀ leg moved, ¬clock.Takes target leg moved) ∧ ¬clock.AtRest target ∧
      ∃ after, nextDriven target world = (.error (.panic overflowMessage), after)) := by
  obtain ⟨move, result, moved, same, step, drives⟩ := nextDriven_moves keeper target
  cases drives with
  | drained =>
      cases step with
      | drained queued => exact .inl ⟨_, _, .drained queued, same⟩
  | fired timer =>
      cases step with
      | fired idle due taken => exact .inl ⟨_, _, .fired idle due taken, same⟩
  | strained timer =>
      cases step with
      | strained idle due taken =>
          refine .inr (.inr ⟨?_, ?_, _, same⟩)
          · intro leg moved takes
            cases takes with
            | drained queued => exact queued idle
            | fired _ _ other =>
                rw [taken] at other
                cases other
          · intro atRest
            rw [atRest.2] at due
            cases due
  | arrived =>
      cases step with
      | arrived idle noneDue => exact .inr (.inl ⟨⟨idle, noneDue⟩, same⟩)

theorem nextDriven_takes {leg : Leg (Pending S Action A .finished)}
    (takes : clock.Takes target leg moved) :
    nextDriven target world = (.ok (some leg.tasks), { world with keeper := .virtual moved }) := by
  rcases nextDriven_cases keeper target with ⟨other, last, again, same⟩ | ⟨atRest, -⟩ | ⟨none, -⟩
  · obtain ⟨rfl, rfl⟩ := takes.unique again
    exact same
  · exact absurd atRest takes.not_atRest
  · exact absurd takes (none leg moved)

theorem nextDriven_atRest (atRest : clock.AtRest target) :
    nextDriven target world =
      (.ok none, { world with keeper := .virtual (clock.arrive target) }) := by
  rcases nextDriven_cases keeper target with ⟨other, last, takes, -⟩ | ⟨-, same⟩ | ⟨-, busy, -⟩
  · exact absurd atRest takes.not_atRest
  · exact same
  · exact absurd atRest busy

end Run

/-! ## Advances that come to their end -/

/-- What is left of an advance up to the target, while it runs the work of a leg. -/
def Pending.driving (target : Duration) (tasks : List (Pending S Action A .finished)) :
    Pending S Action A .finished :=
  .advanceTo target none tasks.get (.done ())

/-- What an advance does once all that it drives is over. -/
def Engine.turn (engine : Engine S Action A) (waiter : Waiter) (target : Duration) :
    Run S Action A (Pending S Action A .finished) := do
  match ← Run.nextDriven target with
  | some tasks => engine.poll waiter (.driving target tasks)
  | none => pure (.done ())

namespace Pending

variable {engine : Engine S Action A} {waiter : Waiter} {target : Duration}
  {world middle after : World S Action A} {clock moved : World.Clock S Action A}
  {task left : Pending S Action A .finished} {leg : Leg (Pending S Action A .finished)}
  (keeper : world.keeper = .virtual clock)
include keeper

theorem turn_takes (takes : clock.Takes target leg moved) :
    engine.turn waiter target world =
      engine.poll waiter (.driving target leg.tasks) { world with keeper := .virtual moved } := by
  rw [Engine.turn, Run.bind_of_ok (Run.nextDriven_takes keeper takes)]

theorem turn_atRest (atRest : clock.AtRest target) :
    engine.turn waiter target world =
      (.ok (.done ()), { world with keeper := .virtual (clock.arrive target) }) := by
  rw [Engine.turn, Run.bind_of_ok (Run.nextDriven_atRest keeper atRest)]
  rfl

theorem driving_poll_of_join {tasks : List (Pending S Action A .finished)} {ticket : Option Nat}
    {lefts : Vector (Pending S Action A .finished) tasks.length}
    (joined : (engine.pollJoin waiter none tasks.get fun index =>
      (tasks.get index).poll engine waiter) world = (.ok (ticket, lefts), middle)) :
    (driving target tasks).poll engine waiter world =
      match results? lefts with
      | none => (.ok (.advanceTo target ticket lefts.get (.done ())), middle)
      | some _ => engine.turn waiter target middle := by
  have looked : (get : Run S Action A _) world = (.ok world, world) := rfl
  rw [driving, poll, Run.bind_of_ok looked, keeper]
  dsimp only
  rw [Run.bind_of_ok joined]
  dsimp only
  cases results? lefts <;> rfl

/-- An advance that drives nothing takes its next turn at once. -/
theorem driving_nil_poll :
    (driving target []).poll engine waiter world = engine.turn waiter target world := by
  rw [driving_poll_of_join keeper (engine.pollJoin_none waiter none _ _), results?_nil]

/-- An advance waits for its work. -/
theorem driving_poll_waits (polled : task.poll engine waiter world = (.ok left, middle))
    (goesOn : left.result? = none) :
    (driving target [task]).poll engine waiter world = (.ok (driving target [left]), middle) := by
  have alone : (#v[left] : Vector _ 1).get = [left].get := by
    funext index
    rw [Fin.fin_one_eq_zero index]
    rfl
  rw [driving_poll_of_join keeper (engine.pollJoin_single waiter none _ polled),
    results?_single_eq_none goesOn, alone]
  rfl

/-- Once its work is over, an advance takes its next turn. -/
theorem driving_poll_over (polled : task.poll engine waiter world = (.ok (.done ()), middle)) :
    (driving target [task]).poll engine waiter world = engine.turn waiter target middle := by
  rw [driving_poll_of_join keeper (engine.pollJoin_single waiter none _ polled), results?_single]

theorem driving_poll_cases
    (polled : (driving target [task]).poll engine waiter world = (.ok left, after)) :
    (∃ rest, task.poll engine waiter world = (.ok rest, after) ∧ rest.result? = none ∧
        left = driving target [rest]) ∨
      ∃ middle, task.poll engine waiter world = (.ok (.done ()), middle) ∧
        engine.turn waiter target middle = (.ok left, after) := by
  rcases outcome : task.poll engine waiter world with ⟨result, middle⟩
  cases result with
  | error halt =>
      have looked : (get : Run S Action A _) world = (.ok world, world) := rfl
      have joined : (engine.pollJoin waiter none [task].get fun index =>
          ([task].get index).poll engine waiter) world = (.error halt, middle) :=
        (congrFun (engine.pollJoin_single_eq waiter none _ _) world).trans
          (Run.bind_of_error outcome)
      rw [driving, poll, Run.bind_of_ok looked, keeper] at polled
      dsimp only at polled
      rw [Run.bind_of_error joined] at polled
      cases polled
  | ok rest =>
      cases goesOn : rest.result? with
      | none =>
          rw [driving_poll_waits keeper outcome goesOn] at polled
          cases polled
          exact .inl ⟨rest, rfl, goesOn, rfl⟩
      | some value =>
          rw [result?_eq_some_iff.1 goesOn] at outcome ⊢
          rw [driving_poll_over keeper outcome] at polled
          exact .inr ⟨middle, rfl, polled⟩

end Pending

namespace Host

variable (host : Host S Action alphabet) (waiter : Waiter)

/-- All of the work comes to its end in one poll. -/
def Finishes (tasks : List (Pending S Action (Action alphabet) .finished))
    (before after : World S Action (Action alphabet)) : Prop :=
  ∃ depth ticket left results,
    (host.engine depth).pollJoin waiter none tasks.get
      (fun index => (tasks.get index).poll (host.engine depth) waiter) before =
        (.ok (ticket, left), after) ∧
    results? left = some results

/-- An advance up to the target takes these legs, and the work of each one comes to its end before
the next one is taken. -/
inductive Advances (target : Duration) : World S Action (Action alphabet) →
    List (Leg (Pending S Action (Action alphabet) .finished)) →
      World S Action (Action alphabet) → Prop where
  | arrives {world clock} : world.keeper = .virtual clock → clock.AtRest target →
      Advances target world [] { world with keeper := .virtual (clock.arrive target) }
  | goes {world clock moved leg middle legs after} : world.keeper = .virtual clock →
      clock.Takes target leg moved →
      host.Finishes waiter leg.tasks { world with keeper := .virtual moved } middle →
      Advances target middle legs after → Advances target world (leg :: legs) after

/-- An advance by the span comes to its end in one poll. -/
def Completes (span : Duration) (before after : World S Action (Action alphabet)) : Prop :=
  ∃ depth, (Pending.advance span (.done ())).poll (host.engine depth) waiter before =
    (.ok (.done () : Pending S Action (Action alphabet) .finished), after)

/-- An advance by the span takes these legs. -/
def Covers (span : Duration) (before : World S Action (Action alphabet))
    (legs : List (Leg (Pending S Action (Action alphabet) .finished)))
    (after : World S Action (Action alphabet)) : Prop :=
  ∃ clock target, before.keeper = .virtual clock ∧ clock.now.add? span = some target ∧
    host.Advances waiter target before legs after

variable {host} {waiter} {target midway : Duration}
  {world middle after last : World S Action (Action alphabet)}
  {clock : World.Clock S Action (Action alphabet)}
  {tasks : List (Pending S Action (Action alphabet) .finished)}
  {legs early late : List (Leg (Pending S Action (Action alphabet) .finished))}

/-- How work comes to its end does not depend on the allowance. -/
theorem Finishes.unique (finishes : host.Finishes waiter tasks world after)
    (again : host.Finishes waiter tasks world last) : last = after := by
  obtain ⟨depth, ticket, left, results, polled, -⟩ := finishes
  obtain ⟨other, ticketAgain, leftAgain, resultsAgain, polledAgain, -⟩ := again
  have refines := host.engine_refines (Nat.le_max_left depth other)
  have refinesAgain := host.engine_refines (Nat.le_max_right depth other)
  have large := (Engine.pollJoin_refines refines waiter none tasks.get fun index =>
    Pending.poll_refines refines waiter (tasks.get index)).of_ok polled
  have largeAgain := (Engine.pollJoin_refines refinesAgain waiter none tasks.get fun index =>
    Pending.poll_refines refinesAgain waiter (tasks.get index)).of_ok polledAgain
  rw [large] at largeAgain
  cases largeAgain
  rfl

/-- Nothing exchanges the clock of a world for another kind of scheduler. -/
theorem Finishes.virtual (finishes : host.Finishes waiter tasks world after)
    (keeper : world.keeper = .virtual clock) :
    ∃ moved : World.Clock S Action (Action alphabet), after.keeper = .virtual moved := by
  obtain ⟨depth, ticket, left, results, polled, -⟩ := finishes
  have houses :
      (Regime.passage .lax fun _ => True : Regime S Action (Action alphabet)).Houses .lax :=
    Regime.passage_houses (fun _ _ => trivial) fun _ _ => trivial
  have obeys := Host.engine_obeys houses host.within_lax depth
  have allowed := (Engine.pollJoin_obeys houses.toGoverns obeys waiter none
    (fun index => (tasks.get index).within_lax)
    (fun index => Pending.poll_obeys houses.toGoverns obeys waiter (tasks.get index).within_lax)
    world).1 ⟨clock, keeper, clock.holds_lax⟩
  rw [polled] at allowed
  obtain ⟨⟨moved, keeperAfter, -⟩, -⟩ := allowed
  exact ⟨moved, keeperAfter⟩

/-- A poll of an advance comes to its end if the work does, and then either nothing is left to take
or what is taken next comes to its end. -/
theorem advanceTo_poll_iff (keeper : world.keeper = .virtual clock) (depth : Nat) :
    (Pending.driving target tasks).poll (host.engine depth) waiter world =
        (.ok (.done ()), after) ↔
      ∃ ticket left results middle,
        (host.engine depth).pollJoin waiter none tasks.get
          (fun index => (tasks.get index).poll (host.engine depth) waiter) world =
            (.ok (ticket, left), middle) ∧
        results? left = some results ∧
        (Run.nextDriven target middle = (.ok none, after) ∨
          ∃ driven ready, Run.nextDriven target middle = (.ok (some driven), ready) ∧
            (host.engine depth).poll waiter (.driving target driven) ready =
              (.ok (.done ()), after)) := by
  have looked : (get : Run S Action (Action alphabet) _) world = (.ok world, world) := rfl
  rw [Pending.driving, Pending.poll, Run.bind_of_ok looked, keeper]
  dsimp only
  constructor
  · intro polled
    obtain ⟨⟨ticket, left⟩, middle, joined, polled⟩ := Run.of_bind_ok polled
    refine ⟨ticket, left, ?_⟩
    dsimp only at polled
    cases finished : results? left with
    | none =>
        rw [finished] at polled
        cases polled
    | some results =>
        rw [finished] at polled
        obtain ⟨due, ready, next, polled⟩ := Run.of_bind_ok polled
        refine ⟨results, middle, joined, rfl, ?_⟩
        cases due with
        | none =>
            cases polled
            exact .inl next
        | some driven => exact .inr ⟨driven, ready, next, polled⟩
  · rintro ⟨ticket, left, results, middle, joined, finished, next⟩
    rw [Run.bind_of_ok joined]
    dsimp only
    rw [finished]
    dsimp only
    rcases next with arrived | ⟨driven, ready, next, polled⟩
    · rw [Run.bind_of_ok arrived]
      rfl
    · rw [Run.bind_of_ok next]
      exact polled

/-- When the work of an advance has come to its end, the clock is at rest or the next leg is
polled. -/
theorem advanceTo_poll_cases {depth : Nat} (keeper : world.keeper = .virtual clock)
    (polled : (Pending.driving target tasks).poll (host.engine depth) waiter world =
      (.ok (.done ()), after)) :
    ∃ middle moved, host.Finishes waiter tasks world middle ∧ middle.keeper = .virtual moved ∧
      ((moved.AtRest target ∧ after = { middle with keeper := .virtual (moved.arrive target) }) ∨
        ∃ leg further, moved.Takes target leg further ∧
          (host.engine depth).poll waiter (.driving target leg.tasks)
            { middle with keeper := .virtual further } = (.ok (.done ()), after)) := by
  obtain ⟨ticket, left, results, middle, joined, finished, next⟩ :=
    (advanceTo_poll_iff keeper depth).1 polled
  have finishes : host.Finishes waiter tasks world middle :=
    ⟨depth, ticket, left, results, joined, finished⟩
  obtain ⟨moved, keeperThen⟩ := finishes.virtual keeper
  refine ⟨middle, moved, finishes, keeperThen, ?_⟩
  rcases Run.nextDriven_cases keeperThen target with
    ⟨leg, further, takes, same⟩ | ⟨atRest, same⟩ | ⟨-, -, last, same⟩
  all_goals
    rw [same] at next
    rcases next with arrived | ⟨driven, ready, taken, polled⟩
  · cases arrived
  · cases taken
    exact .inr ⟨leg, further, takes, polled⟩
  · cases arrived
    exact .inl ⟨atRest, rfl⟩
  · cases taken
  · cases arrived
  · cases taken

/-- An advance whose work is under way goes along its legs if it comes to its end in one poll. -/
theorem advances_of_poll {depth : Nat} (keeper : world.keeper = .virtual clock)
    (polled : (Pending.driving target tasks).poll (host.engine depth) waiter world =
      (.ok (.done ()), after)) :
    ∃ middle legs, host.Finishes waiter tasks world middle ∧
      host.Advances waiter target middle legs after := by
  induction depth generalizing tasks world clock with
  | zero =>
      obtain ⟨middle, moved, finishes, keeperThen, ⟨atRest, rfl⟩ | ⟨leg, further, -, exhausted⟩⟩ :=
        advanceTo_poll_cases keeper polled
      · exact ⟨middle, [], finishes, .arrives keeperThen atRest⟩
      · cases exhausted
  | succ depth ih =>
      obtain ⟨middle, moved, finishes, keeperThen, ⟨atRest, rfl⟩ | ⟨leg, further, takes, polled⟩⟩ :=
        advanceTo_poll_cases keeper polled
      · exact ⟨middle, [], finishes, .arrives keeperThen atRest⟩
      · obtain ⟨later, legs, finishesThen, advances⟩ := ih rfl polled
        exact ⟨middle, leg :: legs, finishes, .goes keeperThen takes finishesThen advances⟩

/-- With a large enough allowance, an advance whose work comes to its end goes along its legs. -/
theorem Advances.poll (advances : host.Advances waiter target world legs after)
    {before : World S Action (Action alphabet)} (keeper : before.keeper = .virtual clock)
    (finishes : host.Finishes waiter tasks before world) :
    ∃ depth, (Pending.driving target tasks).poll (host.engine depth) waiter before =
      (.ok (.done ()), after) := by
  induction advances generalizing tasks before clock with
  | arrives keeperThen atRest =>
      obtain ⟨depth, ticket, left, results, joined, finished⟩ := finishes
      exact ⟨depth, (advanceTo_poll_iff keeper depth).2 ⟨ticket, left, results, _, joined, finished,
        .inl (Run.nextDriven_atRest keeperThen atRest)⟩⟩
  | goes keeperThen takes finishesThen _ ih =>
      obtain ⟨depth, ticket, left, results, joined, finished⟩ := finishes
      obtain ⟨further, polled⟩ := ih rfl finishesThen
      -- The rest is polled one level further in.
      have refines := host.engine_refines (Nat.le_max_left depth (further + 1))
      have refinesThen : (host.engine (further + 1)).Refines _ :=
        host.engine_refines (Nat.le_max_right depth (further + 1))
      refine ⟨max depth (further + 1), (advanceTo_poll_iff keeper _).2
        ⟨ticket, left, results, _, ?_, finished,
          .inr ⟨_, _, Run.nextDriven_takes keeperThen takes, ?_⟩⟩⟩
      · exact (Engine.pollJoin_refines refines waiter none tasks.get fun index =>
          Pending.poll_refines refines waiter (tasks.get index)).of_ok joined
      · exact (refinesThen.poll waiter _).of_ok polled

/-! ## Advances by a span -/

theorem advance_poll {span : Duration} (keeper : world.keeper = .virtual clock)
    (sum : clock.now.add? span = some target) (depth : Nat) :
    (Pending.advance span (.done ()) : Pending S Action (Action alphabet) .finished).poll
        (host.engine depth) waiter world =
      (Pending.driving target []).poll (host.engine depth) waiter world := by
  have asked : (Run.perform (.deadline span) : Run S Action (Action alphabet) Duration) world =
      (.ok target, world) := Run.deadline_of_sum keeper sum
  have nothing : (fun none : Fin 0 => none.elim0) =
      ([] : List (Pending S Action (Action alphabet) .finished)).get :=
    funext fun none => none.elim0
  rw [Pending.advance, nothing, Pending.poll, Run.bind_of_ok asked]
  rfl

theorem finishes_nil (waiter : Waiter) (world : World S Action (Action alphabet)) :
    host.Finishes waiter [] world world := by
  refine ⟨0, none, #v[], #v[], ?_, by simp [results?]⟩
  simp only [Engine.pollJoin, List.length_nil, Nat.zero_le, if_true, Vector.ofFnM_zero]
  rfl

theorem covers_iff {span : Duration} (keeper : world.keeper = .virtual clock)
    (sum : clock.now.add? span = some target) :
    host.Covers waiter span world legs after ↔ host.Advances waiter target world legs after := by
  constructor
  · rintro ⟨other, targetThen, keeperThen, sumThen, advances⟩
    rw [keeper] at keeperThen
    cases keeperThen
    rw [sum] at sumThen
    cases sumThen
    exact advances
  · intro advances
    exact ⟨clock, target, keeper, sum, advances⟩

/-- An advance comes to its end in one poll if and only if there are legs that it takes. -/
theorem completes_iff {span : Duration} (keeper : world.keeper = .virtual clock)
    (sum : clock.now.add? span = some target) :
    host.Completes waiter span world after ↔ ∃ legs, host.Covers waiter span world legs after := by
  simp only [covers_iff keeper sum]
  constructor
  · rintro ⟨depth, polled⟩
    rw [advance_poll keeper sum] at polled
    obtain ⟨middle, legs, finishes, advances⟩ := advances_of_poll keeper polled
    cases finishes.unique (finishes_nil waiter world)
    exact ⟨legs, advances⟩
  · rintro ⟨legs, advances⟩
    obtain ⟨depth, polled⟩ := advances.poll keeper (finishes_nil waiter world)
    exact ⟨depth, (advance_poll keeper sum depth).trans polled⟩

theorem Covers.completes {span : Duration} (covers : host.Covers waiter span world legs after) :
    host.Completes waiter span world after := by
  obtain ⟨clock, target, keeper, sum, advances⟩ := covers
  exact (completes_iff keeper sum).2 ⟨legs, clock, target, keeper, sum, advances⟩

/-! ## Splitting -/

/-- An advance goes through the same legs to the same world, however often it is made. -/
theorem Advances.unique {others : List (Leg (Pending S Action (Action alphabet) .finished))}
    (advances : host.Advances waiter target world legs after)
    (again : host.Advances waiter target world others last) : others = legs ∧ last = after := by
  induction advances generalizing others with
  | arrives keeper atRest =>
      cases again with
      | arrives keeperAgain _ =>
          rw [keeper] at keeperAgain
          cases keeperAgain
          exact ⟨rfl, rfl⟩
      | goes keeperAgain takes _ _ =>
          rw [keeper] at keeperAgain
          cases keeperAgain
          exact absurd atRest takes.not_atRest
  | goes keeper takes finishes _ ih =>
      cases again with
      | arrives keeperAgain atRest =>
          rw [keeper] at keeperAgain
          cases keeperAgain
          exact absurd atRest takes.not_atRest
      | goes keeperAgain takesAgain finishesAgain rest =>
          rw [keeper] at keeperAgain
          cases keeperAgain
          obtain ⟨rfl, rfl⟩ := takes.unique takesAgain
          cases finishes.unique finishesAgain
          obtain ⟨rfl, rfl⟩ := ih rest
          exact ⟨rfl, rfl⟩

/-- At the end the clock stands at the target, and nothing is left to take up to there. -/
theorem Advances.arrived (advances : host.Advances waiter target world legs after) :
    ∃ moved : World.Clock S Action (Action alphabet), after.keeper = .virtual moved ∧
      moved.now = target ∧ moved.AtRest target := by
  induction advances with
  | arrives _ atRest => exact ⟨_, rfl, rfl, atRest⟩
  | goes _ _ _ _ ih => exact ih

/-- A stop where the clock is at rest only sets the time, which the next leg or the arrival sets
again. -/
theorem advances_arrive_iff (keeper : world.keeper = .virtual clock) (idle : clock.spawned = []) :
    host.Advances waiter target { world with keeper := .virtual (clock.arrive midway) } legs after ↔
      host.Advances waiter target world legs after := by
  constructor
  · intro advances
    cases advances with
    | arrives keeperThen atRest =>
        cases keeperThen
        have arrives : host.Advances waiter target world []
          { world with keeper := .virtual (clock.arrive target) } := .arrives keeper atRest
        exact arrives
    | goes keeperThen takes finishes rest =>
        cases keeperThen
        exact .goes keeper ((VirtualClock.takes_arrive_iff idle).1 takes) finishes rest
  · intro advances
    cases advances with
    | arrives keeperThen atRest =>
        rw [keeper] at keeperThen
        cases keeperThen
        have arrives : host.Advances waiter target
          { world with keeper := .virtual (clock.arrive midway) } []
          { world with keeper := .virtual ((clock.arrive midway).arrive target) } :=
          .arrives rfl atRest
        exact arrives
    | goes keeperThen takes finishes rest =>
        rw [keeper] at keeperThen
        cases keeperThen
        exact .goes rfl ((VirtualClock.takes_arrive_iff idle).2 takes) finishes rest

/-- From where an advance midway has arrived, the next one takes the legs that it would have taken
without the stop. -/
theorem Advances.trans (nearer : midway ≤ target)
    (first : host.Advances waiter midway world early middle)
    (second : host.Advances waiter target middle late after) :
    host.Advances waiter target world (early ++ late) after := by
  induction first with
  | arrives keeper atRest => exact (advances_arrive_iff keeper atRest.1).1 second
  | goes keeper takes finishes _ ih =>
      exact .goes keeper (takes.further nearer) finishes (ih second)

/-- An advance can stop midway. -/
theorem Advances.split (nearer : midway ≤ target)
    (advances : host.Advances waiter target world legs after) :
    ∃ early late middle, legs = early ++ late ∧ host.Advances waiter midway world early middle ∧
      host.Advances waiter target middle late after := by
  induction advances with
  | arrives keeper atRest =>
      have atRestMidway := atRest.nearer nearer
      exact ⟨[], [], _, rfl, .arrives keeper atRestMidway,
        (advances_arrive_iff keeper atRest.1).2 (.arrives keeper atRest)⟩
  | goes keeper takes finishes rest ih =>
      rcases takes.nearer nearer with takesEarly | atRestMidway
      · obtain ⟨early, late, middle, rfl, first, second⟩ := ih
        exact ⟨_ :: early, late, middle, rfl, .goes keeper takesEarly finishes first, second⟩
      · exact ⟨[], _, _, rfl, .arrives keeper atRestMidway,
          (advances_arrive_iff keeper atRestMidway.1).2 (.goes keeper takes finishes rest)⟩

/-- Splitting an advance changes nothing.  On any virtual clock, advancing by two spans, one at once
after the other, comes to its end if and only if advancing by their sum does, in the same world: the
same clock with the same schedules and the same next handle, and with no work queued.  Together the
two advances take the legs of the one, in their order and each at the time it has there, and no
other legs. -/
theorem advance_in_two {first second whole : Duration} (keeper : world.keeper = .virtual clock)
    (sum : first.add? second = some whole) (reaches : clock.now.add? whole = some target) :
    (∀ after, host.Completes waiter whole world after ↔
      ∃ middle, host.Completes waiter first world middle ∧
        host.Completes waiter second middle after) ∧
    (∀ legs after, host.Covers waiter whole world legs after ↔
      ∃ early late middle, legs = early ++ late ∧ host.Covers waiter first world early middle ∧
        host.Covers waiter second middle late after) ∧
    ∀ after, host.Completes waiter whole world after →
      (∃! legs, host.Covers waiter whole world legs after) ∧
      ∃ moved : World.Clock S Action (Action alphabet), after.keeper = .virtual moved ∧
        moved.now = target ∧ moved.spawned = [] := by
  rw [Duration.add?_eq_some_iff] at sum
  have reachesNanos := Duration.add?_eq_some_iff.1 reaches
  obtain ⟨midway, stops⟩ : ∃ midway, clock.now.add? first = some midway := by
    refine ⟨⟨clock.now.nanos + first.nanos, ?_⟩, Duration.add?_eq_some_iff.2 rfl⟩
    have representable := target.representable
    omega
  have stopsNanos := Duration.add?_eq_some_iff.1 stops
  have nearer : midway ≤ target := by
    rw [Duration.le_iff]
    omega
  have goesOn : midway.add? second = some target := by
    rw [Duration.add?_eq_some_iff]
    omega
  have coversWhole (legs after) : host.Covers waiter whole world legs after ↔
      host.Advances waiter target world legs after := covers_iff keeper reaches
  have coversHalves (early middle late after) :
      host.Covers waiter first world early middle ∧ host.Covers waiter second middle late after ↔
        host.Advances waiter midway world early middle ∧
          host.Advances waiter target middle late after := by
    rw [covers_iff keeper stops]
    refine and_congr_right fun advances => ?_
    obtain ⟨moved, keeperThen, now, -⟩ := advances.arrived
    exact covers_iff keeperThen (now ▸ goesOn)
  have coversSplit (legs after) : host.Covers waiter whole world legs after ↔
      ∃ early late middle, legs = early ++ late ∧ host.Covers waiter first world early middle ∧
        host.Covers waiter second middle late after := by
    simp only [coversWhole, coversHalves]
    constructor
    · intro advances
      exact advances.split nearer
    · rintro ⟨early, late, middle, rfl, advances, advancesThen⟩
      exact advances.trans nearer advancesThen
  refine ⟨fun after => ⟨fun completes => ?_, ?_⟩, coversSplit, fun after completes => ?_⟩
  · obtain ⟨legs, covers⟩ := (completes_iff keeper reaches).1 completes
    obtain ⟨early, late, middle, -, coversFirst, coversSecond⟩ := (coversSplit legs after).1 covers
    exact ⟨middle, coversFirst.completes, coversSecond.completes⟩
  · rintro ⟨middle, completesFirst, completesSecond⟩
    obtain ⟨early, coversFirst⟩ := (completes_iff keeper stops).1 completesFirst
    obtain ⟨moved, keeperThen, now, -⟩ := ((covers_iff keeper stops).1 coversFirst).arrived
    obtain ⟨late, coversSecond⟩ :=
      (completes_iff keeperThen (now ▸ goesOn)).1 completesSecond
    exact ((coversSplit (early ++ late) after).2
      ⟨early, late, middle, rfl, coversFirst, coversSecond⟩).completes
  · obtain ⟨legs, covers⟩ := (completes_iff keeper reaches).1 completes
    have advances := (coversWhole legs after).1 covers
    obtain ⟨moved, keeperThen, now, atRest⟩ := advances.arrived
    refine ⟨⟨legs, covers, fun others again => ?_⟩, moved, keeperThen, now, atRest.1⟩
    exact (advances.unique ((coversWhole others after).1 again)).1

end Host

/-! ### A stop at a due time -/

namespace Volley

/-- Work that registers a schedule without delay and hands over further work. -/
def task : Pending Unit (fun _ : Unit => Json) Json .finished :=
  .schedule .zero false (.done ()) fun _ => .spawn (.done ()) (.done ())

def millis : Duration := .oneMillisecond

def twoMillis : Duration := ⟨2 * Duration.millisecond, by decide⟩

/-- The work is done every millisecond. -/
def clock : World.Clock Unit (fun _ : Unit => Json) Json :=
  ⟨.zero, 1, [⟨⟨1⟩, millis, some millis, task⟩], []⟩

def world : World Unit (fun _ : Unit => Json) Json := .initial () (.virtual clock) (.int 0)

/-- The poll of an advance by two milliseconds. -/
def polled : Except Halt (Pending Unit (fun _ : Unit => Json) Json .finished) ×
    World Unit (fun _ : Unit => Json) Json :=
  (Pending.advance twoMillis (.done ())).poll (Host.plain.engine 10) ⟨0, []⟩ world

theorem completes : Host.plain.Completes ⟨0, []⟩ twoMillis world polled.2 := by
  refine ⟨10, Prod.ext ?_ rfl⟩
  change polled.1 = .ok (.done ())
  have finished : (polled.1.toOption.bind Pending.result?).isSome = true := by decide +kernel
  cases ended : polled.1 with
  | error halt =>
      rw [ended] at finished
      cases finished
  | ok left =>
      rw [ended] at finished
      obtain ⟨value, found⟩ := Option.isSome_iff_exists.1 finished
      rw [Pending.result?_eq_some_iff.1 found]

/-- The advance by two milliseconds can stop after one, when the work is due. -/
theorem advance_in_two_volley : ∃ middle,
    Host.plain.Completes ⟨0, []⟩ millis world middle ∧
      Host.plain.Completes ⟨0, []⟩ millis middle polled.2 := by
  have sum : millis.add? millis = some twoMillis := by decide +kernel
  have reaches : clock.now.add? twoMillis = some twoMillis := by decide +kernel
  exact ((Host.advance_in_two rfl sum reaches).1 polled.2).1 completes

end Volley

end EffectLoop
