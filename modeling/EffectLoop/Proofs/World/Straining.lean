import EffectLoop.Proofs.World.Splitting
import EffectLoop.Proofs.Time.Strain

/-!
# Advances that cannot re-arm a schedule

The target of an advance is fixed once, by a sum that the caller answers for.  From then on there is
one sum that an advance makes of its own: that of a repeating schedule that fires first.  Unless this
sum is no duration, an advance always goes on, and it ends with everything fired that was due.  If it
is none, the advance panics before the schedule has fired, and leaves it in the way of all others.
-/

namespace EffectLoop

variable {S ι : Type} {Action : ι → Type} {A : Type} {alphabet : ι}

open VirtualClock (Leg Move Moves Path)

/-! ## What becomes of a schedule -/

namespace VirtualClock

variable {τ : Type} {clock after : VirtualClock τ} {move : Move τ} {moves : List (Move τ)}
  {timer : Timer τ}

/-- A schedule stays registered as it is until it fires or is cleared. -/
theorem Moves.keeps (moved : Moves clock move after) (within : timer ∈ clock.timers) :
    timer ∈ after.timers ∨ move = .cleared timer.handle ∨
      ∃ target fired, move = .fired target fired ∧ fired.handle = timer.handle := by
  cases moved with
  | scheduled delay repeating task =>
      rcases clock.schedule_cases delay repeating task with refused | ⟨_, _, _, _, registered⟩
      · rw [refused]
        exact .inl within
      · rw [registered]
        exact .inl (List.mem_append_left _ within)
  | cleared handle =>
      by_cases same : timer.handle = handle
      · exact .inr (.inl (congrArg Move.cleared same.symm))
      · exact .inl (List.mem_filter.2 ⟨within, by simpa using same⟩)
  | spawned task => exact .inl within
  | drained queued => exact .inl within
  | @fired _ target first idle found taken =>
      by_cases same : first.handle = timer.handle
      · exact .inr (.inr ⟨target, first, rfl, same⟩)
      · obtain ⟨other, foundOther, -, ⟨-, removed⟩ | ⟨_, _, -, -, deferred⟩⟩ := takeDue_eq_task taken
        all_goals
          rw [found] at foundOther
          cases foundOther
        · rw [removed]
          exact .inl (List.mem_filter.2 ⟨within, by simpa using Ne.symm same⟩)
        · rw [deferred]
          exact .inl (List.mem_map.2 ⟨timer, within, if_neg (Ne.symm same)⟩)
  | strained idle found taken =>
      obtain ⟨_, -, same⟩ := takeDue_eq_overflow taken
      rw [same]
      exact .inl within
  | arrived idle noneDue => exact .inl within

theorem Path.keeps (path : Path clock moves after) (within : timer ∈ clock.timers) :
    timer ∈ after.timers ∨ .cleared timer.handle ∈ moves ∨
      ∃ target fired, .fired target fired ∈ moves ∧ fired.handle = timer.handle := by
  induction path with
  | nil clock => exact .inl within
  | cons moved _ ih =>
      rcases moved.keeps within with kept | cleared | ⟨target, fired, fires, same⟩
      · rcases ih kept with kept | cleared | ⟨target, fired, fires, same⟩
        · exact .inl kept
        · exact .inr (.inl (List.mem_cons_of_mem _ cleared))
        · exact .inr (.inr ⟨target, fired, List.mem_cons_of_mem _ fires, same⟩)
      · exact .inr (.inl (cleared ▸ List.mem_cons_self))
      · exact .inr (.inr ⟨target, fired, fires ▸ List.mem_cons_self, same⟩)

end VirtualClock

/-! ## The next turn of an advance -/

/-- What an advance up to the target does once all that it drives is over, and the world that it
leaves. -/
inductive Run.Turn (clock : World.Clock S Action A) (target : Duration) (world : World S Action A) :
    Except Halt (Option (List (Pending S Action A .finished))) × World S Action A → Prop where
  /-- It runs all queued work. -/
  | drains : clock.spawned ≠ [] →
      Turn clock target world
        (.ok (some clock.spawned), { world with keeper := .virtual clock.takeSpawned.2 })
  /-- It fires the first schedule of those that are due, at its due time. -/
  | fires {timer moved} : clock.spawned = [] → clock.due? target = some timer → ¬timer.Unbounded →
      moved.now = timer.due →
      Turn clock target world (.ok (some [timer.task]), { world with keeper := .virtual moved })
  /-- It cannot re-arm that schedule, and panics.  The clock has moved, but the schedule has not fired
  and is left as it was. -/
  | breaks {timer} : clock.spawned = [] → clock.due? target = some timer → timer.Unbounded →
      Turn clock target world (.error (.panic overflowMessage),
        { world with keeper := .virtual { clock with now := timer.due } })
  /-- Nothing is left that is due, and it ends. -/
  | ends : clock.spawned = [] → (∀ timer ∈ clock.timers, target < timer.due) →
      Turn clock target world (.ok none, { world with keeper := .virtual (clock.arrive target) })

namespace Run

variable {world : World S Action A} {clock : World.Clock S Action A} {target : Duration}
  (keeper : world.keeper = .virtual clock)
include keeper

theorem nextDriven_turn (target : Duration) : Turn clock target world (nextDriven target world) := by
  obtain ⟨move, result, moved, same, step, drives⟩ := nextDriven_moves keeper target
  rw [same]
  cases drives with
  | drained =>
      cases step with
      | drained queued => exact .drains queued
  | fired timer =>
      have shown := step.now_eq
      cases step with
      | fired idle due taken =>
          refine .fires idle due (fun unbounded => ?_) shown
          rw [VirtualClock.takeDue_of_unbounded due unbounded] at taken
          cases taken
  | strained timer =>
      cases step with
      | strained idle due taken =>
          by_cases unbounded : timer.Unbounded
          · rw [VirtualClock.takeDue_of_unbounded due unbounded] at taken
            cases taken
            exact .breaks idle due unbounded
          · obtain ⟨_, takenThen⟩ := VirtualClock.takeDue_of_not_unbounded due unbounded
            rw [taken] at takenThen
            cases takenThen
  | arrived =>
      cases step with
      | arrived idle noneDue => exact .ends idle (VirtualClock.due?_eq_none_iff.1 noneDue)

/-- An advance panics at a strained clock, and nowhere else. -/
theorem nextDriven_eq_panic_iff :
    (nextDriven target world).1 = .error (.panic overflowMessage) ↔ clock.Strained target := by
  have turn := nextDriven_turn keeper target
  generalize nextDriven target world = outcome at turn
  constructor
  · rintro halted
    cases turn with
    | breaks idle due unbounded => exact ⟨idle, _, due, unbounded⟩
    | drains _ => cases halted
    | fires _ _ _ _ => cases halted
    | ends _ _ => cases halted
  · rintro ⟨idle, timer, due, unbounded⟩
    cases turn with
    | breaks _ _ _ => rfl
    | drains queued => exact absurd idle queued
    | fires _ dueThen bounded _ =>
        rw [due] at dueThen
        cases dueThen
        exact absurd unbounded bounded
    | ends _ later =>
        have noneDue := VirtualClock.due?_eq_none_iff.2 later
        rw [due] at noneDue
        cases noneDue

end Run

namespace Host

variable {host : Host S Action alphabet} {waiter : Waiter} {span target : Duration}
  {before world after : World S Action (Action alphabet)}
  {clock : World.Clock S Action (Action alphabet)}
  {tasks : List (Pending S Action (Action alphabet) .finished)}

/-- A poll in which all that the advance drives is over halts if the next turn does. -/
theorem driving_poll_of_error {halt : Halt} (keeper : before.keeper = .virtual clock)
    (finishes : host.Finishes waiter tasks before world)
    (halted : Run.nextDriven target world = (.error halt, after)) :
    ∃ depth, (Pending.driving target tasks).poll (host.engine depth) waiter before =
      (.error halt, after) := by
  obtain ⟨depth, ticket, left, results, joined, finished⟩ := finishes
  refine ⟨depth, ?_⟩
  rw [Pending.driving_poll_of_join keeper joined, finished]
  exact Run.bind_of_error halted

/-- The only sum of its own that an advance can fail to make is that of re-arming.  Whatever state the
clock is in, if the sum of the time that it shows and the span is a duration, then that is the target
of the advance.  And whatever happens while the advance is under way, whenever all that it drives is
over, its next turn is a panic if and only if the clock is strained: the schedule that fires first,
due by the target, repeats with a following due time that is no duration.  Then the poll panics, and
the schedule blocks all later advances that would go beyond it.  In all other cases the advance goes
on, and when it ends, all that was registered at its beginning and due by its target has fired, or
was cleared. -/
theorem advance_panics_iff_strained (host : Host S Action alphabet)
    {world : World S Action (Action alphabet)} (keeper : world.keeper = .virtual clock)
    (sum : clock.now.add? span = some target) :
    Run.deadline span world = (.ok target, world) ∧
      ∀ after, host.Lives .lax world after → ∃ moves moved, after.keeper = .virtual moved ∧
        Path clock moves moved ∧ Run.Turn moved target after (Run.nextDriven target after) ∧
        ((Run.nextDriven target after).1 = .error (.panic Run.overflowMessage) ↔
          moved.Strained target) ∧
        (moved.Strained target →
          (∀ waiter tasks before, (∃ clock, before.keeper = .virtual clock) →
            host.Finishes waiter tasks before after →
              ∃ depth, ((Pending.driving target tasks).poll (host.engine depth) waiter before).1 =
                .error (.panic Run.overflowMessage)) ∧
          ∃ timer, moved.due? target = some timer ∧ ∀ further, timer.due ≤ further →
            ({ moved with now := timer.due } : World.Clock S Action (Action alphabet)).Strained
              further) ∧
        ∀ later, Run.nextDriven target after = (.ok none, later) →
          ∀ timer ∈ clock.timers, timer.due ≤ target → .cleared timer.handle ∈ moves ∨
            ∃ goal fired, .fired goal fired ∈ moves ∧ fired.handle = timer.handle := by
  refine ⟨Run.deadline_of_sum keeper sum, fun after lives => ?_⟩
  obtain ⟨moves, moved, keeperAfter, path⟩ := lives.moves keeper
  have turn := Run.nextDriven_turn keeperAfter target
  have panics : (Run.nextDriven target after).1 = .error (.panic Run.overflowMessage) ↔
      moved.Strained target := Run.nextDriven_eq_panic_iff keeperAfter
  refine ⟨moves, moved, keeperAfter, path, turn, panics, fun strained => ⟨?_, ?_⟩, ?_⟩
  · rintro waiter tasks before ⟨earlier, keeperBefore⟩ finishes
    obtain ⟨depth, polled⟩ :=
      driving_poll_of_error keeperBefore finishes (Prod.ext (panics.2 strained) rfl)
    exact ⟨depth, congrArg Prod.fst polled⟩
  · obtain ⟨idle, timer, due, unbounded⟩ := strained
    exact ⟨timer, due, fun further beyond => .blocks idle due unbounded timer.due beyond⟩
  · intro later arrived timer within due
    rw [arrived] at turn
    cases turn with
    | ends _ ahead =>
        rcases path.keeps within with kept | cleared | fired
        · exact absurd due (Nat.not_le_of_lt (ahead timer kept))
        · exact .inl cleared
        · exact .inr fired

end Host

/-! ### A schedule half way to the end of time -/

namespace Brink

/-- Half of the time that durations can tell. -/
def half : Duration := ⟨9223372036854775808 * Duration.second, by decide⟩

def task : Pending Unit (fun _ : Unit => Json) Json .finished :=
  .call (.note (.string "fired")) fun _ => .done ()

def start : World Unit (fun _ : Unit => Json) Json := .initial () (.virtual .initial) (.int 0)

/-- The clock accepts a repeating schedule. -/
def registered : World Unit (fun _ : Unit => Json) Json :=
  ((Prompt.schedule half true task Prompt.done).run (Host.plain.engine 3) start).2

/-- It is due for the first time when half of the time is over. -/
def timer : Timer (Pending Unit (fun _ : Unit => Json) Json .finished) :=
  ⟨⟨1⟩, half, some half, task⟩

def clock : World.Clock Unit (fun _ : Unit => Json) Json := ⟨.zero, 1, [timer], []⟩

theorem timer_unbounded : timer.Unbounded := ⟨half, rfl, by decide +kernel⟩

/-- An advance up to there. -/
def polled : Except Halt (Pending Unit (fun _ : Unit => Json) Json .finished) ×
    World Unit (fun _ : Unit => Json) Json :=
  (Pending.advance half (.done ())).poll (Host.plain.engine 3) ⟨0, []⟩ registered

theorem polled_halted : polled.1 = .error (.panic Run.overflowMessage) := by
  have halted : (match polled.1 with | .error halt => some halt | .ok _ => none) =
      some (.panic Run.overflowMessage) := by decide +kernel
  cases ended : polled.1 with
  | ok left =>
      rw [ended] at halted
      cases halted
  | error halt =>
      rw [ended] at halted
      exact congrArg Except.error (Option.some.inj halted)

/-- The schedule was accepted, and the end of the advance is a duration; still the advance panics at
a sum of durations, and nothing has fired. -/
theorem accepted_schedule_breaks_advance : Host.plain.Lives .lax start registered ∧
    registered.keeper = .virtual clock ∧ clock.now.add? half = some half ∧
    polled.1 = .error (.panic Run.overflowMessage) ∧ polled.2.trace = [] := by
  have silent : polled.2.trace.length = 0 := by decide +kernel
  exact ⟨.single (.call 3 (Prompt.within_lax _)), rfl, by decide +kernel, polled_halted,
    List.length_eq_zero_iff.1 silent⟩

/-- The advance comes to a strained clock, and leaves one. -/
theorem half_way_strained :
    (Run.nextDriven half registered).1 = .error (.panic Run.overflowMessage) ∧
      ({ clock with now := half } : World.Clock Unit (fun _ : Unit => Json) Json).Strained half := by
  have keeper : registered.keeper = .virtual clock := rfl
  have sum : clock.now.add? half = some half := by decide +kernel
  have strained : clock.Strained half := ⟨rfl, timer, rfl, timer_unbounded⟩
  obtain ⟨-, turns⟩ := Host.plain.advance_panics_iff_strained keeper sum
  obtain ⟨moves, moved, keeperThen, -, -, panics, blocks, -⟩ := turns registered .refl
  rw [keeper] at keeperThen
  cases keeperThen
  obtain ⟨-, first, due, beyond⟩ := blocks strained
  cases due
  exact ⟨panics.2 strained, beyond half (Nat.le_refl _)⟩

end Brink

end EffectLoop
