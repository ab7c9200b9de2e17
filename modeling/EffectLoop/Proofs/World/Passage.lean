import EffectLoop.Proofs.World.Conformity
import EffectLoop.Proofs.Time.Legs

/-!
# The passage of virtual time

Whatever programs do in a world with a virtual clock, the clock goes along a path of moves.  Programs
that advance no clock only make moves aside.
-/

namespace EffectLoop

variable {S ι : Type} {Action : ι → Type} {A α : Type} {alphabet : ι} {answer : Answer ι}

open VirtualClock (Leg Move Moves Path)

/-- A virtual clock with work of the programs over a world. -/
abbrev World.Clock (S : Type) {ι : Type} (Action : ι → Type) (A : Type) :=
  VirtualClock (Pending S Action A .finished)

/-! ## What an advance does to the clock -/

/-- What comes of the move that an advance makes once all that it has driven is over. -/
inductive Run.Drives (clock : World.Clock S Action A) (target : Duration) :
    Move (Pending S Action A .finished) →
      Except Halt (Option (List (Pending S Action A .finished))) → Prop where
  | drained : Drives clock target .drained (.ok (some clock.spawned))
  | fired (timer : Timer (Pending S Action A .finished)) :
      Drives clock target (.fired target timer) (.ok (some [timer.task]))
  | strained (timer : Timer (Pending S Action A .finished)) :
      Drives clock target (.strained target timer) (.error (.panic overflowMessage))
  | arrived : Drives clock target (.arrived target) (.ok none)

/-- An advance makes one move at a time. -/
theorem Run.nextDriven_moves {world : World S Action A} {clock : World.Clock S Action A}
    (keeper : world.keeper = .virtual clock) (target : Duration) : ∃ move result moved,
      nextDriven target world = (result, { world with keeper := .virtual moved }) ∧
        Moves clock move moved ∧ Drives clock target move result := by
  have looked : (get : Run S Action A (World S Action A)) world = (.ok world, world) := rfl
  rw [nextDriven, bind_of_ok looked, keeper]
  dsimp only [VirtualClock.takeSpawned]
  cases queue : clock.spawned with
  | cons task rest =>
      have queued : clock.spawned ≠ [] := by simp [queue]
      refine ⟨.drained, _, _, rfl, .drained queued, ?_⟩
      rw [← queue]
      exact .drained
  | nil =>
      rcases taken : clock.takeDue target with ⟨due, moved⟩
      cases due with
      | task task =>
          obtain ⟨timer, found, same, _⟩ := VirtualClock.takeDue_eq_task taken
          rw [← same] at taken ⊢
          exact ⟨.fired target timer, _, moved, rfl, .fired queue found taken, .fired timer⟩
      | overflow =>
          obtain ⟨timer, found, _⟩ := VirtualClock.takeDue_eq_overflow taken
          exact ⟨.strained target timer, _, moved, rfl, .strained queue found taken, .strained timer⟩
      | nothing =>
          obtain ⟨none_due, same⟩ := VirtualClock.takeDue_eq_nothing taken
          rw [same]
          exact ⟨.arrived target, _, clock.arrive target, rfl, .arrived queue none_due, .arrived⟩

/-- An advance polls the work of the leg that it takes. -/
theorem VirtualClock.Takes.drives {clock moved : World.Clock S Action A} {target : Duration}
    {leg : Leg (Pending S Action A .finished)} (takes : clock.Takes target leg moved) :
    Run.Drives clock target (leg.move target) (.ok (some leg.tasks)) := by
  cases takes with
  | drained _ => exact .drained
  | fired _ _ _ => exact .fired _

/-- On a virtual clock a deadline is a sum, if that is a duration. -/
theorem Run.deadline_eq_ok {world after : World S Action A} {clock : World.Clock S Action A}
    {span target : Duration} (keeper : world.keeper = .virtual clock)
    (answered : deadline span world = (.ok target, after)) :
    clock.now.add? span = some target ∧ after = world := by
  have looked : (get : Run S Action A (World S Action A)) world = (.ok world, world) := rfl
  rw [deadline, bind_of_ok looked, keeper] at answered
  cases sum : clock.now.add? span with
  | none =>
      simp only [sum] at answered
      cases answered
  | some moment =>
      simp only [sum] at answered
      cases answered
      exact ⟨rfl, rfl⟩

theorem Run.deadline_of_sum {world : World S Action A} {clock : World.Clock S Action A}
    {span target : Duration} (keeper : world.keeper = .virtual clock)
    (sum : clock.now.add? span = some target) : deadline span world = (.ok target, world) := by
  have looked : (get : Run S Action A (World S Action A)) world = (.ok world, world) := rfl
  rw [deadline, bind_of_ok looked, keeper]
  dsimp only
  rw [sum]
  rfl

namespace Regime

/-- The world has a virtual clock, all of whose work is within the rules; the clock goes along a path
of moves that may be made. -/
def passage (rules : Rules) (may : Move (Pending S Action A .finished) → Prop) :
    Regime S Action A where
  kind world := ∃ clock, world.keeper = .virtual clock ∧ clock.Holds (Pending.Within rules)
  law before after := ∀ clock, before.keeper = .virtual clock → ∃ moves moved,
    after.keeper = .virtual moved ∧ Path clock moves moved ∧ ∀ move ∈ moves, may move

variable {rules : Rules} {may : Move (Pending S Action A .finished) → Prop}
variable {before after world : World S Action A} {clock moved : World.Clock S Action A}

/-- What leaves the scheduler alone is no move. -/
theorem passage_same (same : after.keeper = before.keeper) :
    (passage rules may).Allows before after := by
  intro kind
  constructor
  · obtain ⟨clock, keeper, holds⟩ := kind
    exact ⟨clock, same.trans keeper, holds⟩
  · intro clock keeper
    refine ⟨[], clock, same.trans keeper, .nil clock, ?_⟩
    intro move within
    cases within

theorem passage_move {move : Move (Pending S Action A .finished)}
    (keeper : before.keeper = .virtual clock) (step : Moves clock move moved)
    (keeper_after : after.keeper = .virtual moved) (brings : move.Brings (Pending.Within rules))
    (allowed : may move) : (passage rules may).Allows before after := by
  intro kind
  constructor
  · obtain ⟨other, otherKeeper, holds⟩ := kind
    rw [keeper] at otherKeeper
    cases otherKeeper
    exact ⟨moved, keeper_after, step.holds holds brings⟩
  · intro other otherKeeper
    rw [keeper] at otherKeeper
    cases otherKeeper
    refine ⟨[move], moved, keeper_after, .single step, ?_⟩
    intro other within
    cases List.mem_singleton.1 within
    exact allowed

/-- Worlds with a task clock are of another kind. -/
theorem not_passage_tasks {tasks : TaskClock (LocalTask S Action A)}
    (keeper : world.keeper = .tasks tasks) : ¬(passage rules may).kind world := by
  intro kind
  obtain ⟨clock, virtual, _⟩ := kind
  rw [keeper] at virtual
  cases virtual

theorem passage_tasks {tasks : TaskClock (LocalTask S Action A)} {post : α → Prop}
    {computation : Run S Action A α} (keeper : world.keeper = .tasks tasks) :
    (passage rules may).ObeysIn world post computation :=
  ⟨fun kind => (not_passage_tasks keeper kind).elim, fun kind => (not_passage_tasks keeper kind).elim⟩

theorem passage_steady : (passage rules may : Regime S Action A).Steady where
  refl world := by
    intro clock keeper
    refine ⟨[], clock, keeper, .nil clock, ?_⟩
    intro move within
    cases within
  trans first second := by
    intro clock keeper
    obtain ⟨moves, middle, keeper, path, all⟩ := first clock keeper
    obtain ⟨more, last, keeper, further, others⟩ := second middle keeper
    refine ⟨moves ++ more, last, keeper, path.append further, ?_⟩
    intro move within
    cases List.mem_append.1 within with
    | inl early => exact all move early
    | inr late => exact others move late
  booked _ _ _ _ _ := passage_same rfl
  queued _ _ _ keeper := fun kind => (not_passage_tasks keeper kind).elim
  alarm _ _ _ _ keeper := fun kind => (not_passage_tasks keeper kind).elim

section Aside

variable (aside : ∀ move : Move (Pending S Action A .finished), move.IsAside → may move)
include aside

theorem clear_passes (handle : TimerHandle) :
    (passage rules may).Obeys (fun _ => True) (Run.clear handle : Run S Action A Bool) := by
  have steady : (passage rules may : Regime S Action A).Steady := passage_steady
  apply Regime.look
  intro world
  split
  next clock keeper =>
    apply steady.bindIn
      (Regime.updateIn (passage_move keeper (.cleared clock handle) rfl trivial (aside _ trivial)))
    intro _ _
    exact steady.pure trivial
  next clock keeper => exact passage_tasks keeper

theorem schedule_passes (delay : Duration) (repeating : Bool)
    {task : Pending S Action A .finished} (within : task.Within rules) :
    (passage rules may).Obeys (fun _ => True) (Run.schedule delay repeating task) := by
  have steady : (passage rules may : Regime S Action A).Steady := passage_steady
  apply Regime.look
  intro world
  split
  next clock keeper =>
    apply steady.bindIn (Regime.updateIn
      (passage_move keeper (.scheduled clock delay repeating task) rfl within (aside _ trivial)))
    intro _ _
    split
    · exact steady.pure trivial
    · exact steady.throw _
  next clock keeper => exact passage_tasks keeper

theorem spawn_passes {task : Pending S Action A .finished} (within : task.Within rules) :
    (passage rules may).Obeys (fun _ => True) (Run.spawn task) := by
  apply Regime.update
  intro world kind
  obtain ⟨clock, keeper, holds⟩ := kind
  apply passage_move keeper (.spawned clock task) _ within (aside _ trivial) ⟨clock, keeper, holds⟩
  simp only [keeper]

end Aside

theorem forget_passes (handle : TimerHandle) :
    (passage rules may).Obeys (fun _ => True) (Run.forget handle : Run S Action A Unit) := by
  apply Regime.update
  intro world kind
  obtain ⟨clock, keeper, holds⟩ := kind
  apply passage_same _ ⟨clock, keeper, holds⟩
  simp only [keeper]

/-- The work that an advance takes from the clock is within the rules. -/
theorem nextDriven_passes (all : ∀ move : Move (Pending S Action A .finished), may move)
    (target : Duration) : (passage rules may).Obeys
      (fun found => ∀ tasks, found = some tasks → ∀ task ∈ tasks, Pending.Within rules task)
      (Run.nextDriven target) := by
  intro world
  cases keeper : world.keeper with
  | tasks clock => exact passage_tasks keeper
  | virtual clock =>
      obtain ⟨move, result, moved, same, step, drives⟩ := Run.nextDriven_moves keeper target
      rw [Regime.ObeysIn, same]
      constructor
      · apply passage_move keeper step rfl _ (all move)
        cases drives <;> trivial
      · intro kind found answered tasks taken task within
        obtain ⟨other, otherKeeper, holds⟩ := kind
        rw [keeper] at otherKeeper
        cases otherKeeper
        cases drives with
        | drained =>
            cases answered
            cases taken
            exact holds.spawned task within
        | fired timer =>
            cases answered
            cases taken
            cases List.mem_singleton.1 within
            exact holds.timers timer (VirtualClock.mem_of_due? step.of_fired.2).1
        | strained timer => cases answered
        | arrived =>
            cases answered
            cases taken

end Regime

/-- The clock of a world goes along its moves, whatever programs and the host do. -/
theorem Regime.passage_houses {rules : Rules}
    {may : Move (Pending S Action (Action alphabet) .finished) → Prop}
    (aside : ∀ move : Move (Pending S Action (Action alphabet) .finished), move.IsAside → may move)
    (advance : rules.advance → ∀ move, may move) :
    (passage rules may : Regime S Action (Action alphabet)).Houses rules where
  toSteady := passage_steady
  read _ := passage_same rfl
  note _ _ := passage_same rfl
  log _ _ _ := passage_same rfl
  keep _ _ _ := passage_same rfl
  clear handle _ := clear_passes aside handle
  forget handle _ := forget_passes handle
  schedule delay repeating _ within := schedule_passes aside delay repeating within
  spawn _ within := spawn_passes aside within
  nextDriven target may := nextDriven_passes (advance may) target
  fire _ _ _ := passage_same rfl
  observed _ _ := passage_same rfl
  delivered _ _ := passage_same rfl
  committed _ _ := passage_same rfl
  dispatched _ _ := passage_same rfl

/-- The work of any clock is within the lax rules. -/
theorem World.Clock.holds_lax (clock : World.Clock S Action A) : clock.Holds (Pending.Within .lax) :=
  ⟨fun timer _ => timer.task.within_lax, fun task _ => task.within_lax⟩

/-- Whatever happens, a virtual clock goes along its moves. -/
theorem Host.Lives.moves {host : Host S Action alphabet}
    {before after : World S Action (Action alphabet)}
    {clock : World.Clock S Action (Action alphabet)} (lives : host.Lives .lax before after)
    (keeper : before.keeper = .virtual clock) :
    ∃ moves moved, after.keeper = .virtual moved ∧ Path clock moves moved := by
  have houses : (Regime.passage .lax fun _ => True :
      Regime S Action (Action alphabet)).Houses .lax :=
    Regime.passage_houses (fun _ _ => trivial) fun _ _ => trivial
  have kind : (Regime.passage .lax fun _ => True).kind before :=
    ⟨clock, keeper, clock.holds_lax⟩
  obtain ⟨-, law⟩ := lives.allowed houses host.within_lax Regime.passage_same kind
  obtain ⟨moves, moved, keeperAfter, path, -⟩ := law clock keeper
  exact ⟨moves, moved, keeperAfter, path⟩

/-! ## The time that the clock of a world shows -/

/-- Whatever happens, advances that overlap included, the clock shows a time that is not less than
before, unless an advance on the way has ended late: at a target that the clock, driven by another
advance, had already gone beyond. -/
theorem Host.now_le_or_late_of_lives {host : Host S Action alphabet}
    {start world after : World S Action (Action alphabet)}
    (fresh : start.keeper = .virtual .initial) (lived : host.Lives .lax start world)
    (lives : host.Lives .lax world after) :
    ∃ clock moved moves, world.keeper = .virtual clock ∧ after.keeper = .virtual moved ∧
      Path clock moves moved ∧
        (clock.now ≤ moved.now ∨ ∃ early late middle move, moves = early ++ move :: late ∧
          Path clock early middle ∧ VirtualClock.Late middle move) := by
  obtain ⟨moves, clock, keeper, path⟩ := lived.moves fresh
  obtain ⟨more, moved, keeperAfter, further⟩ := lives.moves keeper
  have sound : clock.Sound := path.sound VirtualClock.initial_sound
  exact ⟨clock, moved, more, keeper, keeperAfter, further, further.now_le_or_late sound⟩

/-- The time that the scheduler shows. -/
def Keeper.now : Keeper S Action A → Duration
  | .virtual clock => clock.now
  | .tasks clock => clock.now

/-! ### Two advances that overlap -/

namespace Overlap

def start : World Unit (fun _ : Unit => Json) Json := .initial () (.virtual .initial) (.int 0)

/-- A schedule is due after ten milliseconds; when it fires, it waits at a gate. -/
def scheduled : World Unit (fun _ : Unit => Json) Json :=
  ((Prompt.schedule ⟨10 * Duration.millisecond, by decide⟩ false (.wait "gate" (.done ()))
    Prompt.done).run (Host.plain.engine 3) start).2

/-- An advance by twenty milliseconds fires the schedule and waits for it. -/
def first : Except Halt (Pending Unit (fun _ : Unit => Json) Json .finished) ×
    World Unit (fun _ : Unit => Json) Json :=
  (Pending.advance ⟨20 * Duration.millisecond, by decide⟩ (.done ())).poll (Host.plain.engine 3) ⟨0, []⟩
    scheduled

/-- Meanwhile another one, by fifty milliseconds, begins and ends. -/
def second : World Unit (fun _ : Unit => Json) Json :=
  ((Pending.advance ⟨50 * Duration.millisecond, by decide⟩ (.done ()) :
    Pending Unit (fun _ : Unit => Json) Json .finished).poll (Host.plain.engine 3) ⟨1, []⟩ first.2).2

/-- The gate is opened. -/
def opened : World Unit (fun _ : Unit => Json) Json :=
  ((Prompt.call (.setGate "gate" true) Prompt.done).run (Host.plain.engine 3) second).2

/-- The first advance is taken up again, and ends. -/
def resumed : World Unit (fun _ : Unit => Json) Json :=
  ((first.1.toOption.getD (.done ())).poll (Host.plain.engine 3) ⟨0, []⟩ opened).2

theorem lives_second : Host.plain.Lives .lax start second := by
  have called : Host.plain.Happens .lax start scheduled := .call 3 (Prompt.within_lax _)
  have begun : Host.plain.Happens .lax scheduled first.2 := .poll 3 ⟨0, []⟩ (Pending.within_lax _)
  have passed : Host.plain.Happens .lax first.2 second := .poll 3 ⟨1, []⟩ (Pending.within_lax _)
  exact .tail (.tail (.single called) begun) passed

theorem lives_resumed : Host.plain.Lives .lax second resumed := by
  have called : Host.plain.Happens .lax second opened := .call 3 (Prompt.within_lax _)
  have ended : Host.plain.Happens .lax opened resumed := .poll 3 ⟨0, []⟩ (Pending.within_lax _)
  exact .tail (.single called) ended

theorem not_second_now_le : ¬second.keeper.now ≤ resumed.keeper.now := by decide +kernel

/-- From sixty milliseconds the clock goes back to twenty. -/
theorem overlap_turns_clock_back : Host.plain.Lives .lax start second ∧ Host.plain.Lives .lax second resumed ∧
    ¬second.keeper.now ≤ resumed.keeper.now :=
  ⟨lives_second, lives_resumed, not_second_now_le⟩

/-- What turned it back is the end of the first advance, forty milliseconds late. -/
theorem overlap_ends_late : ∃ clock early middle move, second.keeper = .virtual clock ∧
    Path clock early middle ∧ VirtualClock.Late middle move := by
  obtain ⟨clock, moved, moves, keeper, keeperAfter, path, shown⟩ :=
    Host.now_le_or_late_of_lives rfl lives_second lives_resumed
  cases shown with
  | inl forward =>
      have shown := not_second_now_le
      rw [keeper, keeperAfter] at shown
      exact (shown forward).elim
  | inr back =>
      obtain ⟨early, late, middle, move, _, reached, isLate⟩ := back
      exact ⟨clock, early, middle, move, keeper, reached, isLate⟩

end Overlap

end EffectLoop
