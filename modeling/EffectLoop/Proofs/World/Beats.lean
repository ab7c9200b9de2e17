import EffectLoop.Proofs.World.Advancing
import EffectLoop.Proofs.World.Splitting

/-!
# The beats of an advance

One poll of an advance polls the work that the advance drives, and each time all of that is over it takes
the next leg from the clock and polls its work, until some work is not over or there is no leg to take.
These are the *beats* of the poll.  An advance is polled if and only if it makes such beats, and it makes
no others (`Host.paced`).
-/

namespace EffectLoop

variable {S ι : Type} {Action : ι → Type} {A : Type} {alphabet : ι} {answer : Answer ι}

open VirtualClock (Leg)

/-! ## Advances under way -/

namespace Advancing

/-- An advance that has just begun. -/
def outset (target : Duration) : Advancing S Action A :=
  ⟨target, none, fun nothing : Fin 0 => nothing.elim0⟩

/-- An advance that has just taken this work from the clock. -/
def taking (target : Duration) (tasks : List (Pending S Action A .finished)) : Advancing S Action A :=
  ⟨target, none, tasks.get⟩

/-- An advance that has polled nothing. -/
def bare (target : Duration) : Advancing S Action A := ⟨target, none, #v[].get⟩

/-- An advance that has polled one piece of work and left this of it. -/
def alone (target : Duration) (left : Pending S Action A .finished) : Advancing S Action A :=
  ⟨target, none, #v[left].get⟩

/-- What is left of the advance, and what comes afterwards. -/
def pending (going : Advancing S Action A) (next : Pending S Action A answer) :
    Pending S Action A answer :=
  .advanceTo going.target going.ticket going.driven next

/-- All the work that the advance drives is over. -/
def Idle (going : Advancing S Action A) : Prop := ∀ index, going.driven index = .done ()

end Advancing

/-- What happens in a world whose clock is driven by one advance at a time, with the worlds before and
after. -/
inductive Beat (S : Type) {ι : Type} (Action : ι → Type) (A : Type) where
  /-- Something that advances no clock. -/
  | aside (before after : World S Action A)
  /-- An advance begins. -/
  | begun (span : Duration) (world : World S Action A)
  /-- The work that the advance drives is polled. -/
  | polled (going left : Advancing S Action A) (before after : World S Action A)
  /-- All of it is over, and the advance takes its next leg. -/
  | took (ended : Advancing S Action A) (leg : Leg (Pending S Action A .finished))
      (before after : World S Action A)
  /-- All of it is over, and the advance ends. -/
  | arrived (ended : Advancing S Action A) (before after : World S Action A)

/-- One poll of the work that an advance drives. -/
inductive Host.Works (host : Host S Action alphabet) (waiter : Waiter) (depth : Nat)
    (going : Advancing S Action (Action alphabet)) (before : World S Action (Action alphabet)) :
    Advancing S Action (Action alphabet) → World S Action (Action alphabet) → Prop where
  | intro {ticket lefts after} :
      (host.engine depth).pollJoin waiter going.ticket going.driven
        (fun index => (going.driven index).poll (host.engine depth) waiter) before =
          (.ok (ticket, lefts), after) →
      Works host waiter depth going before ⟨going.target, ticket, lefts.get⟩ after

/-- One poll of an advance, beat by beat, the latest first, with what is then under way.  Each leg is
polled one level further in. -/
inductive Host.Drive (host : Host S Action alphabet) (waiter : Waiter) : (depth : Nat) →
    Advancing S Action (Action alphabet) → World S Action (Action alphabet) →
      List (Beat S Action (Action alphabet)) → Option (Advancing S Action (Action alphabet)) →
        (inner : Nat) → World S Action (Action alphabet) → Prop where
  | waits {depth going before left after} : host.Works waiter depth going before left after →
      ¬left.Idle → Drive host waiter depth going before [.polled going left before after] (some left) depth after
  | arrives {depth going before left middle clock} : host.Works waiter depth going before left middle →
      left.Idle → middle.keeper = .virtual clock → clock.AtRest left.target →
      Drive host waiter depth going before
        [.arrived left middle { middle with keeper := .virtual (clock.arrive left.target) },
          .polled going left before middle]
        none depth { middle with keeper := .virtual (clock.arrive left.target) }
  | goes {depth going before left middle clock moved leg beats outcome inner after} :
      host.Works waiter (depth + 1) going before left middle → left.Idle →
      middle.keeper = .virtual clock → clock.Takes left.target leg moved →
      Drive host waiter depth (.taking left.target leg.tasks) { middle with keeper := .virtual moved }
        beats outcome inner after →
      Drive host waiter (depth + 1) going before
        (beats ++ [.took left leg middle { middle with keeper := .virtual moved },
          .polled going left before middle])
        outcome inner after

/-- What a poll of an advance comes to. -/
inductive Host.Paces (host : Host S Action alphabet) (waiter : Waiter) (depth : Nat)
    (going : Advancing S Action (Action alphabet)) (next : Pending S Action (Action alphabet) answer)
    (world : World S Action (Action alphabet)) :
    Pending S Action (Action alphabet) answer → World S Action (Action alphabet) → Prop where
  /-- The advance is still under way. -/
  | waits {beats left inner after} : host.Drive waiter depth going world beats (some left) inner after →
      Paces host waiter depth going next world (left.pending next) after
  /-- The advance has ended, and what comes afterwards is polled. -/
  | passes {beats inner middle left after} : host.Drive waiter depth going world beats none inner middle →
      next.poll (host.engine inner) waiter middle = (.ok left, after) →
      Paces host waiter depth going next world left after

/-! ## Polls of the work -/

section

variable {host : Host S Action alphabet} {waiter : Waiter} {depth : Nat}
variable {going left other : Advancing S Action (Action alphabet)}
variable {before after last : World S Action (Action alphabet)}

theorem Host.Works.target_eq (works : host.Works waiter depth going before left after) :
    left.target = going.target := by
  cases works
  rfl

theorem Host.Works.unique (works : host.Works waiter depth going before left after)
    (again : host.Works waiter depth going before other last) : other = left ∧ last = after := by
  cases works with
  | intro joined =>
      cases again with
      | intro rejoined =>
          rw [joined] at rejoined
          cases rejoined
          exact ⟨rfl, rfl⟩

/-- An advance that has just begun has nothing to poll. -/
theorem Host.Works.outset (target : Duration) :
    host.Works waiter depth (.outset target) before (.bare target) before :=
  .intro (Engine.pollJoin_none _ _ none _ _)

theorem Host.Works.single {target : Duration} {task rest : Pending S Action (Action alphabet) .finished}
    (polled : task.poll (host.engine depth) waiter before = (.ok rest, after)) :
    host.Works waiter depth (.taking target [task]) before (.alone target rest) after :=
  .intro (Engine.pollJoin_single _ _ none _ polled)

/-- Polls do not exchange a virtual clock for another kind of scheduler. -/
theorem Host.Works.virtual {clock : World.Clock S Action (Action alphabet)}
    (works : host.Works waiter depth going before left after) (keeper : before.keeper = .virtual clock) :
    ∃ moved : World.Clock S Action (Action alphabet), after.keeper = .virtual moved := by
  cases works with
  | intro joined =>
      have houses :
          (Regime.passage .lax fun _ => True : Regime S Action (Action alphabet)).Houses .lax :=
        Regime.passage_houses (fun _ _ => trivial) fun _ _ => trivial
      have obeys := Host.engine_obeys houses host.within_lax depth
      have allowed := (Engine.pollJoin_obeys houses.toGoverns obeys waiter going.ticket
        (fun index => (going.driven index).within_lax)
        (fun index => Pending.poll_obeys houses.toGoverns obeys waiter (going.driven index).within_lax)
        before).1 ⟨clock, keeper, clock.holds_lax⟩
      rw [joined] at allowed
      obtain ⟨⟨moved, keeperAfter, -⟩, -⟩ := allowed
      exact ⟨moved, keeperAfter⟩

/-- The results of a family are complete if and only if the family is over. -/
theorem results?_finished_isSome_iff {count : Nat}
    {lefts : Vector (Pending S Action A .finished) count} :
    (results? lefts).isSome ↔ ∀ index, lefts.get index = .done () := by
  constructor
  · intro complete
    obtain ⟨results, same⟩ := Option.isSome_iff_exists.1 complete
    exact done_of_results? same
  · intro done
    cases complete : results? lefts with
    | some results => rfl
    | none =>
        obtain ⟨index, unfinished⟩ := exists_of_results?_eq_none complete
        rw [done index] at unfinished
        cases unfinished

/-- A single piece of work is over. -/
theorem Advancing.idle_alone (target : Duration) : (alone target (.done ()) : Advancing S Action A).Idle := by
  intro index
  rw [show index = (0 : Fin 1) from Fin.fin_one_eq_zero index]
  rfl

theorem Advancing.idle_iff {ticket : Option Nat} {count : Nat}
    {lefts : Vector (Pending S Action A .finished) count} {target : Duration} :
    (⟨target, ticket, lefts.get⟩ : Advancing S Action A).Idle ↔ (results? lefts).isSome :=
  results?_finished_isSome_iff.symm

end

/-! ## Polls of an advance -/

section

variable {host : Host S Action alphabet} {waiter : Waiter} {depth : Nat}
variable {going : Advancing S Action (Action alphabet)}
variable {next left : Pending S Action (Action alphabet) answer}
variable {world after : World S Action (Action alphabet)}
variable {clock : World.Clock S Action (Action alphabet)}

/-- A poll of an advance polls its work.  Once all of that is over, the next leg is polled, or what comes
after the advance. -/
theorem Advancing.poll_iff (keeper : world.keeper = .virtual clock) :
    (going.pending next).poll (host.engine depth) waiter world = (.ok left, after) ↔
      ∃ rest middle, host.Works waiter depth going world rest middle ∧
        ((¬rest.Idle ∧ left = rest.pending next ∧ after = middle) ∨
          rest.Idle ∧ ∃ moved, middle.keeper = .virtual moved ∧
            ((moved.AtRest rest.target ∧
                next.poll (host.engine depth) waiter
                  { middle with keeper := .virtual (moved.arrive rest.target) } = (.ok left, after)) ∨
              ∃ leg further, moved.Takes rest.target leg further ∧
                (host.engine depth).poll waiter ((taking rest.target leg.tasks).pending next)
                  { middle with keeper := .virtual further } = (.ok left, after))) := by
  have looked : (get : Run S Action (Action alphabet) _) world = (.ok world, world) := rfl
  rw [pending, Pending.poll, Run.bind_of_ok looked, keeper]
  dsimp only
  constructor
  · intro polled
    obtain ⟨⟨ticket, lefts⟩, middle, joined, polled⟩ := Run.of_bind_ok polled
    have works : host.Works waiter depth going world ⟨going.target, ticket, lefts.get⟩ middle :=
      .intro joined
    refine ⟨_, middle, works, ?_⟩
    dsimp only at polled
    rw [idle_iff]
    cases complete : results? lefts with
    | none =>
        rw [complete] at polled
        cases polled
        exact .inl ⟨Bool.false_ne_true, rfl, rfl⟩
    | some results =>
        rw [complete] at polled
        dsimp only at polled
        obtain ⟨moved, keeperThen⟩ := works.virtual keeper
        refine .inr ⟨rfl, moved, keeperThen, ?_⟩
        rcases Run.nextDriven_cases keeperThen going.target with
          ⟨leg, further, takes, same⟩ | ⟨atRest, same⟩ | ⟨-, -, last, same⟩
        · rw [Run.bind_of_ok same] at polled
          exact .inr ⟨leg, further, takes, polled⟩
        · rw [Run.bind_of_ok same] at polled
          exact .inl ⟨atRest, polled⟩
        · rw [Run.bind_of_error same] at polled
          cases polled
  · rintro ⟨rest, middle, works, goesOn⟩
    cases works with
    | @intro ticket lefts _ joined =>
        rw [idle_iff] at goesOn
        rw [Run.bind_of_ok joined]
        dsimp only
        cases complete : results? lefts with
        | none =>
            rw [complete] at goesOn
            rcases goesOn with ⟨-, rfl, rfl⟩ | ⟨idle, -⟩
            · rfl
            · cases idle
        | some results =>
            rw [complete] at goesOn
            rcases goesOn with
              ⟨unfinished, -⟩ | ⟨-, moved, keeperThen, ⟨atRest, polled⟩ | ⟨leg, further, takes, polled⟩⟩
            · exact absurd rfl unfinished
            · dsimp only
              rw [Run.bind_of_ok (Run.nextDriven_atRest keeperThen atRest)]
              exact polled
            · dsimp only
              rw [Run.bind_of_ok (Run.nextDriven_takes keeperThen takes)]
              exact polled

/-- A poll that goes through the beats of a drive comes to what comes of the drive. -/
theorem Host.Drive.poll {inner : Nat} {beats : List (Beat S Action (Action alphabet))}
    {outcome : Option (Advancing S Action (Action alphabet))}
    {middle : World S Action (Action alphabet)}
    (drive : host.Drive waiter depth going world beats outcome inner middle)
    (keeper : world.keeper = .virtual clock)
    (waits : ∀ rest, outcome = some rest → left = rest.pending next ∧ after = middle)
    (passes : outcome = none → next.poll (host.engine inner) waiter middle = (.ok left, after)) :
    (going.pending next).poll (host.engine depth) waiter world = (.ok left, after) := by
  induction drive generalizing clock with
  | waits works unfinished =>
      obtain ⟨same, rfl⟩ := waits _ rfl
      exact (Advancing.poll_iff keeper).2 ⟨_, _, works, .inl ⟨unfinished, same, rfl⟩⟩
  | arrives works idle keeperThen atRest =>
      exact (Advancing.poll_iff keeper).2
        ⟨_, _, works, .inr ⟨idle, _, keeperThen, .inl ⟨atRest, passes rfl⟩⟩⟩
  | goes works idle keeperThen takes _ ih =>
      exact (Advancing.poll_iff keeper).2
        ⟨_, _, works, .inr ⟨idle, _, keeperThen, .inr ⟨_, _, takes, ih rfl waits passes⟩⟩⟩

/-- Every poll of an advance goes through the beats of a drive. -/
theorem Host.Paces.of_poll (keeper : world.keeper = .virtual clock)
    (polled : (going.pending next).poll (host.engine depth) waiter world = (.ok left, after)) :
    host.Paces waiter depth going next world left after := by
  induction depth generalizing going world clock with
  | zero =>
      obtain ⟨rest, middle, works, ⟨unfinished, rfl, rfl⟩ | ⟨idle, moved, keeperThen, goesOn⟩⟩ :=
        (Advancing.poll_iff keeper).1 polled
      · exact .waits (.waits works unfinished)
      · rcases goesOn with ⟨atRest, polled⟩ | ⟨leg, further, takes, exhausted⟩
        · exact .passes (.arrives works idle keeperThen atRest) polled
        · cases exhausted
  | succ depth ih =>
      obtain ⟨rest, middle, works, ⟨unfinished, rfl, rfl⟩ | ⟨idle, moved, keeperThen, goesOn⟩⟩ :=
        (Advancing.poll_iff keeper).1 polled
      · exact .waits (.waits works unfinished)
      · rcases goesOn with ⟨atRest, polled⟩ | ⟨leg, further, takes, polled⟩
        · exact .passes (.arrives works idle keeperThen atRest) polled
        · cases ih rfl polled with
          | waits drive => exact .waits (.goes works idle keeperThen takes drive)
          | passes drive polled => exact .passes (.goes works idle keeperThen takes drive) polled

/-- A poll of an advance comes to what comes of its beats. -/
theorem Advancing.poll_iff_paces (keeper : world.keeper = .virtual clock) :
    (going.pending next).poll (host.engine depth) waiter world = (.ok left, after) ↔
      host.Paces waiter depth going next world left after := by
  constructor
  · exact .of_poll keeper
  · intro paces
    cases paces with
    | waits drive =>
        refine drive.poll keeper ?_ nofun
        rintro _ ⟨⟩
        exact ⟨rfl, rfl⟩
    | passes drive polled => exact drive.poll keeper nofun fun _ => polled

/-- The poll of an advance that begins fixes the target. -/
theorem Pending.advance_poll_iff_paces {span : Duration} (keeper : world.keeper = .virtual clock) :
    (advance span next).poll (host.engine depth) waiter world = (.ok left, after) ↔
      ∃ target, clock.now.add? span = some target ∧
        host.Paces waiter depth (.outset target) next world left after := by
  rw [advance, poll]
  constructor
  · intro polled
    obtain ⟨target, middle, fixed, polledThen⟩ := Run.of_bind_ok polled
    change Run.deadline span world = (.ok target, middle) at fixed
    obtain ⟨sum, rfl⟩ := Run.deadline_eq_ok keeper fixed
    exact ⟨target, sum, .of_poll keeper polledThen⟩
  · rintro ⟨target, sum, paces⟩
    have fixed : Run.perform (.deadline span) world = (.ok target, world) :=
      Run.deadline_of_sum keeper sum
    rw [Run.bind_of_ok fixed]
    exact (Advancing.poll_iff_paces keeper).2 paces

/-- The beats of a poll are determined. -/
theorem Host.Drive.unique {inner innermost : Nat}
    {beats others : List (Beat S Action (Action alphabet))}
    {outcome result : Option (Advancing S Action (Action alphabet))}
    {middle last : World S Action (Action alphabet)}
    (drive : host.Drive waiter depth going world beats outcome inner middle)
    (again : host.Drive waiter depth going world others result innermost last) :
    others = beats ∧ result = outcome ∧ innermost = inner ∧ last = middle := by
  induction drive generalizing others with
  | waits works unfinished =>
      cases again with
      | waits worksAgain _ =>
          obtain ⟨rfl, rfl⟩ := works.unique worksAgain
          exact ⟨rfl, rfl, rfl, rfl⟩
      | arrives worksAgain idle _ _ =>
          obtain ⟨rfl, rfl⟩ := works.unique worksAgain
          exact absurd idle unfinished
      | goes worksAgain idle _ _ _ =>
          obtain ⟨rfl, rfl⟩ := works.unique worksAgain
          exact absurd idle unfinished
  | arrives works idle keeper atRest =>
      cases again with
      | waits worksAgain unfinished =>
          obtain ⟨rfl, rfl⟩ := works.unique worksAgain
          exact absurd idle unfinished
      | arrives worksAgain _ keeperAgain _ =>
          obtain ⟨rfl, rfl⟩ := works.unique worksAgain
          rw [keeper] at keeperAgain
          cases keeperAgain
          exact ⟨rfl, rfl, rfl, rfl⟩
      | goes worksAgain _ keeperAgain takes _ =>
          obtain ⟨rfl, rfl⟩ := works.unique worksAgain
          rw [keeper] at keeperAgain
          cases keeperAgain
          exact absurd atRest takes.not_atRest
  | goes works idle keeper takes _ ih =>
      cases again with
      | waits worksAgain unfinished =>
          obtain ⟨rfl, rfl⟩ := works.unique worksAgain
          exact absurd idle unfinished
      | arrives worksAgain _ keeperAgain atRest =>
          obtain ⟨rfl, rfl⟩ := works.unique worksAgain
          rw [keeper] at keeperAgain
          cases keeperAgain
          exact absurd atRest takes.not_atRest
      | goes worksAgain _ keeperAgain takesAgain rest =>
          obtain ⟨rfl, rfl⟩ := works.unique worksAgain
          rw [keeper] at keeperAgain
          cases keeperAgain
          obtain ⟨rfl, rfl⟩ := takes.unique takesAgain
          obtain ⟨rfl, rfl, rfl, rfl⟩ := ih rest
          exact ⟨rfl, rfl, rfl, rfl⟩

end

/-- Polls of advances go through their beats, which are determined, and come to what comes of these. -/
structure Host.Paced (host : Host S Action alphabet) : Prop where
  /-- The poll of an advance that is under way. -/
  goes : ∀ {answer : Answer ι} {next left : Pending S Action (Action alphabet) answer} {waiter depth going}
    {world after : World S Action (Action alphabet)} {clock}, world.keeper = .virtual clock →
      ((Advancing.pending going next).poll (host.engine depth) waiter world = (.ok left, after) ↔
        host.Paces waiter depth going next world left after)
  /-- The poll of an advance that begins. -/
  begins : ∀ {answer : Answer ι} {next left : Pending S Action (Action alphabet) answer} {waiter depth span}
    {world after : World S Action (Action alphabet)} {clock}, world.keeper = .virtual clock →
      ((Pending.advance span next).poll (host.engine depth) waiter world = (.ok left, after) ↔
        ∃ target, clock.now.add? span = some target ∧
          host.Paces waiter depth (.outset target) next world left after)
  /-- There is but one way to go through the beats. -/
  determined : ∀ {waiter depth going world beats outcome inner middle others result innermost last},
    host.Drive waiter depth going world beats outcome inner middle →
      host.Drive waiter depth going world others result innermost last →
        others = beats ∧ result = outcome ∧ innermost = inner ∧ last = middle

theorem Host.paced (host : Host S Action alphabet) : host.Paced where
  goes := Advancing.poll_iff_paces
  begins := Pending.advance_poll_iff_paces
  determined := Drive.unique

end EffectLoop
