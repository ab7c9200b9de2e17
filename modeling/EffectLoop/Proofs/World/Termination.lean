import EffectLoop.Proofs.World.Scheduling
import EffectLoop.Proofs.World.Splitting
import EffectLoop.Proofs.Time.Descent
import EffectLoop.Proofs.Time.Strain

/-!
# Advances that come to an end

A computation may need several polls, and while it waits other things happen.  An advance that waits
is waiting for the work of a schedule that it has fired.  If that work always comes to its end, and is
modest, then so does the advance: it fires finitely many schedules and then arrives.
-/

namespace EffectLoop

variable {S ι : Type} {Action : ι → Type} {A : Type} {alphabet : ι} {answer : Answer ι}

open VirtualClock (Leg Move Moves Path)

/-- An advance by the span, with nothing after it. -/
abbrev Pending.advancing (span : Duration) : Pending S Action A .finished := .advance span (.done ())

namespace Host

variable (host : Host S Action alphabet)
  (env : World S Action (Action alphabet) → World S Action (Action alphabet) → Prop)
  (waiter : Waiter)

/-! ## Polls again and again -/

/-- The computation is polled, and is not over; then the environment acts, as often as it likes. -/
inductive Round : Pending S Action (Action alphabet) answer × World S Action (Action alphabet) →
    Pending S Action (Action alphabet) answer × World S Action (Action alphabet) → Prop where
  | intro {program left world middle later} (depth : Nat) :
      program.poll (host.engine depth) waiter world = (.ok left, middle) → left.result? = none →
      Relation.ReflTransGen env middle later → Round (program, world) (left, later)

/-- After some rounds a poll ends the computation. -/
inductive Ends : Pending S Action (Action alphabet) answer → World S Action (Action alphabet) →
    World S Action (Action alphabet) → Prop where
  | last {program world value after} (depth : Nat) :
      program.poll (host.engine depth) waiter world = (.ok (.done value), after) →
      Ends program world after
  | round {program world left later after} :
      host.Round env waiter (program, world) (left, later) → Ends left later after →
      Ends program world after

/-! ## The firings of an advance -/

/-- An advance up to the target fires the schedule that is first, and its work comes to its end. -/
inductive Fires (target : Duration) :
    World S Action (Action alphabet) → World S Action (Action alphabet) → Prop where
  | intro {world clock now timer moved after} : world.keeper = .virtual clock →
      clock.Takes target (.fired now timer) moved →
      host.Ends env waiter timer.task { world with keeper := .virtual moved } after →
      Fires target world after

/-- After some firings. -/
abbrev Reaches (target : Duration) :
    World S Action (Action alphabet) → World S Action (Action alphabet) → Prop :=
  Relation.ReflTransGen (host.Fires env waiter target)

/-- Wherever an advance from this world up to the target comes, it can re-arm the schedule that is to
fire; the work of that schedule can come to its end; and if it does, the clock has made only modest
moves meanwhile. -/
structure Tame (target : Duration) (start : World S Action (Action alphabet)) : Prop where
  unstrained : ∀ {world clock}, host.Reaches env waiter target start world →
    world.keeper = .virtual clock → ¬clock.Strained target
  ends : ∀ {world clock now timer moved}, host.Reaches env waiter target start world →
    world.keeper = .virtual clock → clock.Takes target (.fired now timer) moved →
    ∃ after, host.Ends env waiter timer.task { world with keeper := .virtual moved } after
  modest : ∀ {world clock now timer moved after}, host.Reaches env waiter target start world →
    world.keeper = .virtual clock → clock.Takes target (.fired now timer) moved →
    host.Ends env waiter timer.task { world with keeper := .virtual moved } after →
    ∃ moves settled, after.keeper = .virtual settled ∧ Path moved moves settled ∧
      ∀ move ∈ moves, move.IsModest

/-- What is left of an advance that waits for the work of a schedule it has fired. -/
inductive Waits (target : Duration) (start : World S Action (Action alphabet)) :
    Pending S Action (Action alphabet) .finished → World S Action (Action alphabet) → Prop where
  | intro {world clock now timer moved task later} : host.Reaches env waiter target start world →
      world.keeper = .virtual clock → clock.Takes target (.fired now timer) moved →
      Relation.TransGen (host.Round env waiter)
        (timer.task, { world with keeper := .virtual moved }) (task, later) →
      Waits target start (.driving target [task]) later

/-- The world that an advance leaves at its end. -/
inductive Arrives (target : Duration) (start : World S Action (Action alphabet)) :
    World S Action (Action alphabet) → Prop where
  | intro {world clock} : host.Reaches env waiter target start world →
      world.keeper = .virtual clock → clock.AtRest target →
      Arrives target start { world with keeper := .virtual (clock.arrive target) }

variable {host env waiter} {target span : Duration}
  {start world middle later after : World S Action (Action alphabet)}
  {clock moved : World.Clock S Action (Action alphabet)}
  {leg : Leg (Pending S Action (Action alphabet) .finished)}

/-! ## Rounds -/

/-- A larger allowance leads to the same. -/
theorem poll_of_le {depth larger : Nat} {program left : Pending S Action (Action alphabet) answer}
    (within : depth ≤ larger)
    (polled : program.poll (host.engine depth) waiter world = (.ok left, after)) :
    program.poll (host.engine larger) waiter world = (.ok left, after) :=
  (Pending.poll_refines (host.engine_refines within) waiter program).of_ok polled

section Lives

variable {program left : Pending S Action (Action alphabet) answer}

theorem lives_of_poll {depth : Nat} (polled : program.poll (host.engine depth) waiter world =
    (.ok left, after)) : host.Lives .lax world after := by
  have happens : host.Happens .lax world (program.poll (host.engine depth) waiter world).2 :=
    .poll depth waiter program.within_lax
  rw [polled] at happens
  exact .single happens

variable (acts : ∀ before after, env before after → host.Happens .lax before after)
include acts

theorem lives_of_asides (asides : Relation.ReflTransGen env world later) :
    host.Lives .lax world later :=
  Relation.ReflTransGen.mono acts _ _ asides

theorem Round.lives (round : host.Round env waiter (program, world) (left, later)) :
    host.Lives .lax world later := by
  cases round with
  | intro depth polled _ asides =>
      exact (lives_of_poll polled).trans (lives_of_asides acts asides)

theorem lives_of_rounds
    (rounds : Relation.TransGen (host.Round env waiter) (program, world) (left, later)) :
    host.Lives .lax world later := by
  generalize last : (left, later) = now at rounds
  induction rounds generalizing left later with
  | single round =>
      cases last
      exact round.lives acts
  | @tail before _ _ round ih =>
      cases last
      exact (ih rfl).trans (round.lives acts)

end Lives

/-- What follows some rounds follows all of them. -/
theorem Ends.of_rounds {program left : Pending S Action (Action alphabet) answer}
    (rounds : Relation.TransGen (host.Round env waiter) (program, world) (left, later))
    (ends : host.Ends env waiter left later after) : host.Ends env waiter program world after := by
  generalize last : (left, later) = now at rounds
  induction rounds generalizing left later with
  | single round =>
      cases last
      exact .round round ends
  | @tail before now _ round ih =>
      cases last
      exact ih (.round round ends) rfl

/-- The environment acts once more before the next poll. -/
theorem rounds_asides {program left : Pending S Action (Action alphabet) answer}
    (rounds : Relation.TransGen (host.Round env waiter) (program, world) (left, middle))
    (asides : Relation.ReflTransGen env middle later) :
    Relation.TransGen (host.Round env waiter) (program, world) (left, later) := by
  cases rounds with
  | single round =>
      cases round with
      | intro depth polled goesOn before =>
          exact .single (.intro depth polled goesOn (before.trans asides))
  | tail rounds round =>
      cases round with
      | intro depth polled goesOn before =>
          exact .tail rounds (.intro depth polled goesOn (before.trans asides))

/-! ## An advance goes on as long as its work comes to an end -/

/-- When an advance takes a leg, it drives it from the clock that is left. -/
theorem Ends.taken (keeper : world.keeper = .virtual clock) (takes : clock.Takes target leg moved)
    (ends : host.Ends env waiter (.driving target leg.tasks)
      { world with keeper := .virtual moved } after) :
    host.Ends env waiter (.driving target []) world after := by
  have deeper (depth : Nat) : (Pending.driving target []).poll (host.engine (depth + 1)) waiter world =
      (Pending.driving target leg.tasks).poll (host.engine depth) waiter
        { world with keeper := .virtual moved } :=
    (Pending.driving_nil_poll keeper).trans (Pending.turn_takes keeper takes)
  cases ends with
  | last depth polled => exact .last (depth + 1) ((deeper depth).trans polled)
  | round round ends =>
      cases round with
      | intro depth polled goesOn asides =>
          exact .round (.intro (depth + 1) ((deeper depth).trans polled) goesOn asides) ends

section Going

variable (acts : ∀ before after, env before after → host.Happens .lax before after)
include acts

/-- When the work of an advance has come to its end, the advance goes on in the same poll. -/
theorem Ends.driving {task : Pending S Action (Action alphabet) .finished}
    (keeper : world.keeper = .virtual clock) (ends : host.Ends env waiter task world middle)
    (goesOn : host.Ends env waiter (.driving target []) middle after) :
    host.Ends env waiter (.driving target [task]) world after := by
  induction ends generalizing clock with
  | @last task world value middle depth polled =>
      obtain ⟨_, settled, keeperThen, _⟩ := (lives_of_poll polled).moves keeper
      have same {larger : Nat} (within : depth ≤ larger) :
          (Pending.driving target [task]).poll (host.engine larger) waiter world =
            (Pending.driving target []).poll (host.engine larger) waiter middle :=
        (Pending.driving_poll_over keeper (poll_of_le within polled)).trans
          (Pending.driving_nil_poll keeperThen).symm
      cases goesOn with
      | last further polledThen =>
          exact .last (max depth further) ((same (Nat.le_max_left _ _)).trans
            (poll_of_le (Nat.le_max_right _ _) polledThen))
      | round round ends =>
          cases round with
          | intro further polledThen waits asides =>
              exact .round (.intro (max depth further) ((same (Nat.le_max_left _ _)).trans
                (poll_of_le (Nat.le_max_right _ _) polledThen)) waits asides) ends
  | @round task world left later middle round _ ih =>
      obtain ⟨_, settled, keeperThen, _⟩ := (round.lives acts).moves keeper
      cases round with
      | intro depth polled waits asides =>
          exact .round (.intro depth (Pending.driving_poll_waits keeper polled waits) rfl asides)
            (ih keeperThen goesOn)

end Going

/-! ## Finitely many firings -/

/-- The world has this virtual clock, with no queued work and no overdue schedule. -/
structure Poised (world : World S Action (Action alphabet))
    (clock : World.Clock S Action (Action alphabet)) : Prop where
  keeper : world.keeper = .virtual clock
  idle : clock.spawned = []
  sound : clock.Sound
  positive : clock.Positive

namespace Tame

variable (tame : host.Tame env waiter target start)
include tame

/-- A firing makes the rank of the clock smaller. -/
theorem poised_of_fires (reached : host.Reaches env waiter target start world)
    (poised : Poised world clock) (fires : host.Fires env waiter target world after) :
    ∃ settled, Poised after settled ∧
      Prod.Lex (· < ·) (· < ·) (settled.rank target) (clock.rank target) := by
  cases fires with
  | @intro other now timer moved _ keeper takes ends =>
      rw [poised.keeper] at keeper
      cases keeper
      obtain ⟨moves, settled, keeperAfter, path, modest⟩ :=
        tame.modest reached poised.keeper takes ends
      have step : Moves clock (.fired target timer) moved := by
        cases takes with
        | fired idle due taken => exact .fired idle due taken
      have sound := step.sound poised.sound
      have positive := step.positive poised.positive
      have idle : moved.spawned = [] := step.spawned_eq.trans poised.idle
      exact ⟨settled, ⟨keeperAfter, (path.modest modest).2.1.trans idle, path.sound sound,
        path.positive positive⟩, takes.rank_lt path modest sound poised.positive⟩

theorem poised_of_reaches (poised : Poised start clock)
    (reached : host.Reaches env waiter target start world) : ∃ settled, Poised world settled := by
  induction reached with
  | refl => exact ⟨clock, poised⟩
  | tail before fires ih =>
      obtain ⟨middle, poisedThen⟩ := ih
      obtain ⟨settled, poisedAfter, -⟩ := tame.poised_of_fires before poisedThen fires
      exact ⟨settled, poisedAfter⟩

/-- There is no infinite sequence of firings. -/
theorem acc (reached : host.Reaches env waiter target start world) (poised : Poised world clock) :
    Acc (fun later earlier => host.Fires env waiter target earlier later) world := by
  have lexicographic : WellFounded (Prod.Lex (· < ·) (· < ·) : Nat × Nat → Nat × Nat → Prop) :=
    (Prod.lex Nat.lt_wfRel Nat.lt_wfRel).wf
  generalize same : clock.rank target = rank
  induction rank using lexicographic.induction generalizing world clock with
  | h rank ih =>
      constructor
      intro later fires
      obtain ⟨settled, poisedThen, less⟩ := tame.poised_of_fires reached poised fires
      exact ih _ (same ▸ less) (reached.tail fires) poisedThen rfl

/-- Wherever it has come, the advance can go on to its end. -/
theorem exists_ends (acts : ∀ before after, env before after → host.Happens .lax before after)
    (reached : host.Reaches env waiter target start world) (poised : Poised world clock) :
    ∃ after, host.Ends env waiter (.driving target []) world after := by
  have accessible := tame.acc reached poised
  induction accessible generalizing clock with
  | intro world _ ih =>
      rcases clock.takes_or_atRest_or_strained target with ⟨leg, moved, takes⟩ | atRest | strained
      · cases takes with
        | drained queued => exact absurd poised.idle queued
        | fired idle due taken =>
            have takes : clock.Takes target _ moved := .fired idle due taken
            obtain ⟨middle, ends⟩ := tame.ends reached poised.keeper takes
            have fires : host.Fires env waiter target world middle := .intro poised.keeper takes ends
            obtain ⟨settled, poisedThen, -⟩ := tame.poised_of_fires reached poised fires
            obtain ⟨after, goesOn⟩ := ih middle fires (reached.tail fires) poisedThen
            exact ⟨after, .taken poised.keeper takes (ends.driving acts rfl goesOn)⟩
      · exact ⟨_, .last 0 ((Pending.driving_nil_poll poised.keeper).trans
          (Pending.turn_atRest poised.keeper atRest))⟩
      · exact absurd strained (tame.unstrained reached poised.keeper)

end Tame

/-! ## Every poll of an advance -/

/-- What a poll leaves of an advance: it has arrived, or it waits for the work of a schedule that it
has fired. -/
def Stands (host : Host S Action alphabet)
    (env : World S Action (Action alphabet) → World S Action (Action alphabet) → Prop)
    (waiter : Waiter) (target : Duration) (start : World S Action (Action alphabet))
    (left : Pending S Action (Action alphabet) .finished) (after : World S Action (Action alphabet)) :
    Prop :=
  left = .done () ∧ host.Arrives env waiter target start after ∨
    host.Waits env waiter target start left after

namespace Tame

variable (tame : host.Tame env waiter target start)
  {left rest task : Pending S Action (Action alphabet) .finished}
include tame

/-- The next turn fires a schedule, or is the arrival. -/
theorem turn_cases {engine : Engine S Action (Action alphabet)}
    (reached : host.Reaches env waiter target start world) (poised : Poised world clock)
    (turned : engine.turn waiter target world = (.ok left, after)) :
    (left = .done () ∧ host.Arrives env waiter target start after) ∨
      ∃ now timer moved, clock.Takes target (.fired now timer) moved ∧
        engine.poll waiter (.driving target [timer.task])
          { world with keeper := .virtual moved } = (.ok left, after) := by
  rcases clock.takes_or_atRest_or_strained target with ⟨leg, moved, takes⟩ | atRest | strained
  · rw [Pending.turn_takes poised.keeper takes] at turned
    cases takes with
    | drained queued => exact absurd poised.idle queued
    | fired idle due taken => exact .inr ⟨_, _, moved, .fired idle due taken, turned⟩
  · rw [Pending.turn_atRest poised.keeper atRest] at turned
    cases turned
    exact .inl ⟨rfl, .intro reached poised.keeper atRest⟩
  · exact absurd strained (tame.unstrained reached poised.keeper)

/-- However many schedules it fires in one poll. -/
theorem stands_of_turn {depth : Nat} (reached : host.Reaches env waiter target start world)
    (poised : Poised world clock)
    (turned : (host.engine depth).turn waiter target world = (.ok left, after)) :
    host.Stands env waiter target start left after := by
  induction depth generalizing world clock with
  | zero =>
      rcases tame.turn_cases reached poised turned with arrived | ⟨_, _, _, _, exhausted⟩
      · exact .inl arrived
      · cases exhausted
  | succ depth ih =>
      rcases tame.turn_cases reached poised turned with arrived | ⟨now, timer, moved, takes, whole⟩
      · exact .inl arrived
      · change (Pending.driving target [timer.task]).poll (host.engine depth) waiter _ = _ at whole
        rcases Pending.driving_poll_cases rfl whole with
          ⟨rest, polled, goesOn, same⟩ | ⟨middle, polled, turnedThen⟩
        · rw [same]
          exact .inr (.intro reached poised.keeper takes (.single (.intro depth polled goesOn .refl)))
        · have fires : host.Fires env waiter target world middle :=
            .intro poised.keeper takes (.last depth polled)
          obtain ⟨settled, poisedThen, -⟩ := tame.poised_of_fires reached poised fires
          exact ih (reached.tail fires) poisedThen turnedThen

/-- The first poll. -/
theorem stands_of_begins {depth : Nat} (poised : Poised start clock)
    (sum : clock.now.add? span = some target)
    (polled : (Pending.advancing span).poll (host.engine depth) waiter start =
      (.ok left, after)) : host.Stands env waiter target start left after := by
  rw [advance_poll poised.keeper sum, Pending.driving_nil_poll poised.keeper] at polled
  exact tame.stands_of_turn .refl poised polled

variable (acts : ∀ before after, env before after → host.Happens .lax before after)
include acts

/-- Each other poll. -/
theorem stands_of_waits {depth : Nat} (poised : Poised start clock)
    (waits : host.Waits env waiter target start left later)
    (polled : left.poll (host.engine depth) waiter later = (.ok rest, after)) :
    host.Stands env waiter target start rest after := by
  cases waits with
  | @intro world reachedClock now timer moved task _ reached keeper takes rounds =>
      obtain ⟨settled, poisedThen⟩ := tame.poised_of_reaches poised reached
      rw [poisedThen.keeper] at keeper
      cases keeper
      obtain ⟨_, waitingClock, waitingKeeper, -⟩ := (lives_of_rounds acts rounds).moves rfl
      rcases Pending.driving_poll_cases waitingKeeper polled with
        ⟨again, polledThen, goesOn, same⟩ | ⟨middle, polledThen, turned⟩
      · rw [same]
        exact .inr (.intro reached poisedThen.keeper takes
          (rounds.tail (.intro depth polledThen goesOn .refl)))
      · have fires : host.Fires env waiter target world middle :=
          .intro poisedThen.keeper takes (.of_rounds rounds (.last depth polledThen))
        obtain ⟨_, poisedAfter, -⟩ := tame.poised_of_fires reached poisedThen fires
        exact tame.stands_of_turn (reached.tail fires) poisedAfter turned

end Tame

/-- The advance has not been polled yet, or it waits. -/
inductive Underway (host : Host S Action alphabet)
    (env : World S Action (Action alphabet) → World S Action (Action alphabet) → Prop)
    (waiter : Waiter) (span target : Duration) (start : World S Action (Action alphabet)) :
    Pending S Action (Action alphabet) .finished → World S Action (Action alphabet) → Prop where
  | begins : Underway host env waiter span target start (.advancing span) start
  | waits {left later} : host.Waits env waiter target start left later →
      Underway host env waiter span target start left later

namespace Underway

variable (tame : host.Tame env waiter target start) (poised : Poised start clock)
  (sum : clock.now.add? span = some target)
  (acts : ∀ before after, env before after → host.Happens .lax before after)
  {program left : Pending S Action (Action alphabet) .finished}
include tame poised sum acts

theorem stands {depth : Nat} (underway : host.Underway env waiter span target start program world)
    (polled : program.poll (host.engine depth) waiter world = (.ok left, after)) :
    host.Stands env waiter target start left after := by
  cases underway with
  | begins => exact tame.stands_of_begins poised sum polled
  | waits waits => exact tame.stands_of_waits acts poised waits polled

theorem round (underway : host.Underway env waiter span target start program world)
    (round : host.Round env waiter (program, world) (left, later)) :
    host.Waits env waiter target start left later := by
  cases round with
  | intro depth polled goesOn asides =>
      cases underway.stands tame poised sum acts polled with
      | inl arrived =>
          rw [arrived.1] at goesOn
          cases goesOn
      | inr waits =>
          cases waits with
          | intro reached keeper takes rounds =>
              exact .intro reached keeper takes (rounds_asides rounds asides)

theorem rounds (underway : host.Underway env waiter span target start program world)
    (rounds : Relation.TransGen (host.Round env waiter) (program, world) (left, later)) :
    host.Waits env waiter target start left later := by
  generalize last : (left, later) = now at rounds
  induction rounds generalizing left later with
  | single round =>
      cases last
      exact underway.round tame poised sum acts round
  | @tail before _ _ round ih =>
      cases last
      exact (waits (ih rfl)).round tame poised sum acts round

theorem arrives (underway : host.Underway env waiter span target start program world)
    (ends : host.Ends env waiter program world after) :
    host.Arrives env waiter target start after := by
  induction ends with
  | last depth polled =>
      cases underway.stands tame poised sum acts polled with
      | inl arrived => exact arrived.2
      | inr waits => cases waits
  | round round _ ih => exact ih (waits (underway.round tame poised sum acts round))

end Underway

/-- An advance ends.  Let a virtual clock that has come about by any moves have no queued work, let
its time and the span have a sum, the target, and let the advance be able to re-arm whatever it fires.
If the work of each schedule that it fires comes to its end, and only clears schedules and registers
such as repeat or are not due at once, then there is no infinite sequence of firings, and the advance
comes to its end, however often it waits in between.  Its polls do nothing else than fire schedules,
one after the other, wait for the work of the last one, and arrive. -/
theorem advance_ends {moves : List (Move (Pending S Action (Action alphabet) .finished))}
    (path : Path .initial moves clock) (keeper : start.keeper = .virtual clock)
    (idle : clock.spawned = []) (sum : clock.now.add? span = some target)
    (acts : ∀ before after, env before after → host.Happens .lax before after)
    (tame : host.Tame env waiter target start) :
    Acc (fun later earlier => host.Fires env waiter target earlier later) start ∧
      (∃ after, host.Ends env waiter (.advancing span) start after) ∧
      (∀ after, host.Ends env waiter (.advancing span) start after →
        host.Arrives env waiter target start after) ∧
      ∀ left later, Relation.TransGen (host.Round env waiter) (.advancing span, start)
        (left, later) → host.Waits env waiter target start left later := by
  have poised : Poised start clock :=
    ⟨keeper, idle, path.sound VirtualClock.initial_sound,
      path.positive VirtualClock.initial_positive⟩
  have fresh : host.Underway env waiter span target start _ start := .begins
  refine ⟨tame.acc .refl poised, ?_, ?_, ?_⟩
  · obtain ⟨after, ends⟩ := tame.exists_ends acts .refl poised
    refine ⟨after, ?_⟩
    cases ends with
    | last depth polled => exact .last depth ((advance_poll keeper sum depth).trans polled)
    | round round ends =>
        cases round with
        | intro depth polled goesOn asides =>
            exact .round (.intro depth ((advance_poll keeper sum depth).trans polled) goesOn asides)
              ends
  · intro after ends
    exact fresh.arrives tame poised sum acts ends
  · intro left later rounds
    exact fresh.rounds tame poised sum acts rounds

end Host

/-! ### Work that registers more work -/

namespace Chimes

def nano : Duration := ⟨1, by decide⟩

/-- Work that registers a schedule for the next nanosecond. -/
def chime : Pending Unit (fun _ : Unit => Json) Json .finished :=
  .schedule nano false (.done ()) fun _ => .done ()

/-- The work is done as often as possible. -/
def clock : World.Clock Unit (fun _ : Unit => Json) Json :=
  (VirtualClock.initial.schedule .zero true chime).2

def start : World Unit (fun _ : Unit => Json) Json := .initial () (.virtual clock) (.int 0)

def span : Duration := ⟨2 * Duration.millisecond, Volley.twoMillis.representable⟩

/-- Nothing else happens. -/
def alone : World Unit (fun _ : Unit => Json) Json → World Unit (fun _ : Unit => Json) Json → Prop :=
  fun _ _ => False

def waiter : Waiter := ⟨0, []⟩

/-- Schedules with such work, repeating every millisecond if at all. -/
def Known (clock : World.Clock Unit (fun _ : Unit => Json) Json) : Prop :=
  ∀ timer ∈ clock.timers, (timer.task = chime ∨ timer.task = .done ()) ∧
    ∀ period, timer.period = some period → period = .oneMillisecond

variable {world after : World Unit (fun _ : Unit => Json) Json}
  {moved settled : World.Clock Unit (fun _ : Unit => Json) Json}
  {task : Pending Unit (fun _ : Unit => Json) Json .finished}

theorem known_schedule (known : Known moved) :
    Known (moved.schedule nano false (.done ())).2 := by
  simp only [VirtualClock.schedule]
  split
  · exact known
  · intro timer within
    cases List.mem_append.1 within with
    | inl old => exact known timer old
    | inr new =>
        cases List.mem_singleton.1 new
        refine ⟨.inr rfl, ?_⟩
        intro period repeats
        cases repeats

theorem known_takes {target now : Duration}
    {timer : Timer (Pending Unit (fun _ : Unit => Json) Json .finished)} (known : Known moved)
    (takes : moved.Takes target (.fired now timer) settled) : Known settled := by
  intro other within
  cases takes with
  | fired idle due taken =>
      cases (Moves.fired idle due taken).origin within with
      | kept old _ => exact known other old
      | @deferred _ _ _ _ before old _ _ _ => exact known before old

theorem task_of_takes {target now : Duration}
    {timer : Timer (Pending Unit (fun _ : Unit => Json) Json .finished)} (known : Known moved)
    (takes : moved.Takes target (.fired now timer) settled) :
    timer.task = chime ∨ timer.task = .done () := by
  cases takes with
  | fired idle due taken => exact (known timer (VirtualClock.mem_of_due? due).1).1

theorem chime_poll (keeper : world.keeper = .virtual moved)
    (engine : Engine Unit (fun _ : Unit => Json) Json) :
    chime.poll engine waiter world =
      ((moved.schedule nano false (.done ())).1.elim
          (.error (.panic Run.overflowMessage)) fun _ => .ok (.done ()),
        { world with keeper := .virtual (moved.schedule nano false (.done ())).2 }) := by
  have scheduled := Run.schedule_virtual keeper nano false (.done ())
  rw [chime, Pending.poll]
  cases answered : (moved.schedule nano false (.done ())).1 with
  | none =>
      rw [answered] at scheduled
      exact Run.bind_of_error scheduled
  | some handle =>
      rw [answered] at scheduled
      exact Run.bind_of_ok scheduled

/-- The work never waits, and only registers a schedule. -/
theorem path_of_ends (keeper : world.keeper = .virtual moved) (known : Known moved)
    (which : task = chime ∨ task = .done ())
    (ends : Host.plain.Ends alone waiter task world after) :
    ∃ moves settled, after.keeper = .virtual settled ∧ Path moved moves settled ∧
      (∀ move ∈ moves, move.IsModest) ∧ Known settled := by
  have polled {left later depth}
      (polled : task.poll (Host.plain.engine depth) waiter world = (.ok left, later)) :
      left = .done () ∧ ∃ moves settled, later.keeper = .virtual settled ∧
        Path moved moves settled ∧ (∀ move ∈ moves, move.IsModest) ∧ Known settled := by
    cases which with
    | inl same =>
        rw [same, chime_poll keeper] at polled
        cases answered : (moved.schedule nano false (.done ())).1 with
        | none =>
            rw [answered] at polled
            cases polled
        | some handle =>
            rw [answered] at polled
            cases polled
            refine ⟨rfl, [_], _, rfl, .single (.scheduled moved nano false _), ?_,
              known_schedule known⟩
            intro move within
            cases List.mem_singleton.1 within
            exact .inr (by decide)
    | inr same =>
        rw [same] at polled
        cases polled
        exact ⟨rfl, [], moved, keeper, .nil moved, nofun, known⟩
  cases ends with
  | last depth answered => exact (polled answered).2
  | round round _ =>
      cases round with
      | intro depth answered goesOn _ =>
          rw [(polled answered).1] at goesOn
          cases goesOn

theorem known_of_reaches (reached : Host.plain.Reaches alone waiter span start world) :
    ∃ clock, world.keeper = .virtual clock ∧ Known clock := by
  induction reached with
  | refl =>
      refine ⟨clock, rfl, ?_⟩
      intro timer within
      cases List.mem_singleton.1 within
      exact ⟨.inl rfl, fun period same => (Option.some.inj same).symm⟩
  | tail _ fires ih =>
      obtain ⟨before, keeper, known⟩ := ih
      cases fires with
      | intro keeperThen takes ends =>
          rw [keeper] at keeperThen
          cases keeperThen
          obtain ⟨_, settled, keeperAfter, -, -, knownAfter⟩ :=
            path_of_ends rfl (known_takes known takes) (task_of_takes known takes) ends
          exact ⟨settled, keeperAfter, knownAfter⟩

theorem tame : Host.plain.Tame alone waiter span start := by
  constructor
  · intro world moved reached keeper strained
    obtain ⟨idle, timer, due, period, repeats, sum⟩ := strained
    obtain ⟨clock, keeperThen, known⟩ := known_of_reaches reached
    rw [keeper] at keeperThen
    cases keeperThen
    obtain ⟨within, early⟩ := VirtualClock.mem_of_due? due
    rw [(known timer within).2 period repeats] at sum
    have fits : timer.due.nanos + Duration.millisecond < Duration.limit :=
      Nat.lt_of_le_of_lt (Nat.add_le_add_right early _) (by decide)
    have found : timer.due.add? .oneMillisecond = some ⟨_, fits⟩ :=
      Duration.add?_eq_some_iff.2 rfl
    rw [sum] at found
    cases found
  · intro world moved now timer settled reached keeper takes
    obtain ⟨clock, keeperThen, known⟩ := known_of_reaches reached
    rw [keeper] at keeperThen
    cases keeperThen
    have ready : ({ world with keeper := .virtual settled } :
        World Unit (fun _ : Unit => Json) Json).keeper = .virtual settled := rfl
    cases task_of_takes known takes with
    | inr same =>
        rw [same]
        exact ⟨_, .last 0 rfl⟩
    | inl same =>
        have early : settled.now ≤ span := by
          cases takes with
          | fired idle due taken =>
              rw [(Moves.fired idle due taken).now_eq]
              exact (VirtualClock.mem_of_due? due).2
        have fits : settled.now.nanos + 1 < Duration.limit :=
          Nat.lt_of_le_of_lt (Nat.add_le_add_right early _) (by decide)
        have sum : settled.now.add? nano = some ⟨_, fits⟩ := Duration.add?_eq_some_iff.2 rfl
        have answered : (settled.schedule nano false (.done ())).1 = some ⟨settled.issued + 1⟩ := by
          simp only [VirtualClock.schedule, Bool.false_eq_true, ↓reduceIte, Option.getD_none, sum]
        have polled := chime_poll ready (Host.plain.engine 0)
        rw [answered] at polled
        rw [same]
        exact ⟨_, .last 0 polled⟩
  · intro world moved now timer settled after reached keeper takes ends
    obtain ⟨clock, keeperThen, known⟩ := known_of_reaches reached
    rw [keeper] at keeperThen
    cases keeperThen
    obtain ⟨moves, last, keeperAfter, path, modest, -⟩ :=
      path_of_ends rfl (known_takes known takes) (task_of_takes known takes) ends
    exact ⟨moves, last, keeperAfter, path, modest⟩

/-- The advance by two milliseconds ends, whatever is registered meanwhile. -/
theorem chimes_end : ∃ after, Host.plain.Ends alone waiter (.advancing span) start after := by
  have path : Path .initial [.scheduled .zero true chime] clock :=
    .single (.scheduled .initial .zero true chime)
  have idle : clock.spawned = [] := rfl
  have sum : clock.now.add? span = some span := by decide +kernel
  have acts (before after) (act : alone before after) : Host.plain.Happens .lax before after :=
    act.elim
  exact (Host.advance_ends path rfl idle sum acts tame).2.1

end Chimes

end EffectLoop
