import EffectLoop.Proofs.Time.Ledger
import EffectLoop.Proofs.World.Passage
import EffectLoop.Proofs.World.Scheduling

/-!
# The ledger of a world

What programs deal with the scheduler of a world with a virtual clock is entered in a ledger, with the
answers that the programs get.  The ledger is kept well, whatever programs and the host do: advances may
overlap, and tasks may schedule, cancel and spawn while they are fired.  And what the scheduler answers
next can be read off the ledger.
-/

namespace EffectLoop

variable {S ι : Type} {Action : ι → Type} {A : Type} {alphabet : ι}

open VirtualClock (Move Moves)

namespace World

/-- The ledger of a world whose virtual clock was fresh once. -/
inductive HasLedger : World S Action A → Ledger → Prop where
  | fresh {world} : world.keeper = .virtual .initial → HasLedger world []
  | schedules {world ledger after answer} (delay : Duration) (repeating : Bool)
      (task : Pending S Action A .finished) : HasLedger world ledger →
      Run.schedule delay repeating task world = (answer, after) →
      HasLedger after (.scheduled answer.toOption repeating :: ledger)
  | clears {world ledger after answer} (handle : TimerHandle) : HasLedger world ledger →
      Run.clear handle world = (.ok answer, after) →
      HasLedger after (.cleared handle answer :: ledger)
  | spawns {world ledger after} (task : Pending S Action A .finished) : HasLedger world ledger →
      Run.spawn task world = (.ok (), after) → HasLedger after ledger
  /-- An advance takes what it runs next.  That may be a schedule, whose firing begins. -/
  | drives {world ledger after result clock moved target move} : HasLedger world ledger →
      Run.nextDriven target world = (result, after) → world.keeper = .virtual clock →
      after.keeper = .virtual moved → Moves clock move moved → Run.Drives clock target move result →
      HasLedger after (move.dealings clock ++ ledger)
  | beside {before ledger after} : HasLedger before ledger → after.keeper = before.keeper →
      HasLedger after ledger

variable {world after : World S Action A} {ledger : Ledger} {clock : Clock S Action A}

/-- As long as handles last, the clock agrees with the ledger. -/
theorem HasLedger.agrees (has : world.HasLedger ledger) (few : ledger.calls < 2 ^ 64) :
    ∃ clock, world.keeper = .virtual clock ∧ clock.Agrees ledger := by
  induction has with
  | fresh keeper => exact ⟨.initial, keeper, VirtualClock.initial_agrees⟩
  | schedules delay repeating task _ answered ih =>
      rw [Ledger.calls_scheduled] at few
      obtain ⟨clock, keeper, agrees⟩ := ih (by omega)
      rw [Run.schedule_virtual keeper] at answered
      cases answered
      refine ⟨_, rfl, ?_⟩
      have same (handle : Option TimerHandle) :
          (handle.elim (.error (Halt.panic Run.overflowMessage)) Except.ok).toOption = handle := by
        cases handle <;> rfl
      rw [same]
      exact agrees.scheduled delay repeating task few
  | clears handle _ answered ih =>
      rw [Ledger.calls_cleared] at few
      obtain ⟨clock, keeper, agrees⟩ := ih few
      rw [Run.clear_virtual keeper] at answered
      cases answered
      exact ⟨_, rfl, agrees.cleared handle⟩
  | spawns task _ answered ih =>
      obtain ⟨clock, keeper, agrees⟩ := ih few
      rw [Run.spawn_virtual keeper] at answered
      cases answered
      exact ⟨_, rfl, (Moves.spawned clock task).agrees agrees few⟩
  | drives _ _ keeper keeperAfter moved _ ih =>
      have fewer := Ledger.calls_le_of_suffix (List.suffix_append _ _) |>.trans_lt few
      obtain ⟨known, same, agrees⟩ := ih fewer
      rw [keeper] at same
      cases same
      exact ⟨_, keeperAfter, moved.agrees agrees few⟩
  | beside _ same ih =>
      obtain ⟨clock, keeper, agrees⟩ := ih few
      exact ⟨clock, same.trans keeper, agrees⟩

/-- What the scheduler of the world answers is what the ledger says. -/
structure AnswersBy (world : World S Action A) (ledger : Ledger) : Prop where
  /-- The next handle bears the number of the call, unless the due time is no duration. -/
  scheduled : ledger.calls + 1 < 2 ^ 64 → ∀ clock delay repeating task, world.keeper = .virtual clock →
    (clock.now.add? (if repeating then repeatPeriod delay else delay)).isSome →
    ∃ handle, (Run.schedule delay repeating task world).1 = .ok handle ∧
      handle.id.toNat = ledger.calls + 1
  /-- A cancellation is answered with yes exactly if the handle is in use. -/
  cleared : ∀ handle, ∃ answer, (Run.clear handle world).1 = .ok answer ∧
    (answer = true ↔ ledger.InUse handle)
  /-- It removes the schedule of that handle, and changes nothing else in the world. -/
  undisturbed : ∀ handle, ∃ clock, world.keeper = .virtual clock ∧ (Run.clear handle world).2 =
    { world with
      keeper := .virtual { clock with timers := clock.timers.filter (·.handle ≠ handle) } }
  /-- As many schedules are pending as can be cancelled. -/
  pending : ∃ now queued, world.keeper.status =
    .virtual now {handle | (Run.clear handle world).1 = .ok true}.ncard queued

theorem answersBy (keeper : world.keeper = .virtual clock) (agrees : clock.Agrees ledger) :
    world.AnswersBy ledger where
  scheduled := by
    intro few known delay repeating task same sum
    rw [keeper] at same
    cases same
    refine ⟨⟨clock.issued + 1⟩, ?_, agrees.number_eq few⟩
    rw [Run.schedule_virtual keeper, VirtualClock.schedule_answer task sum]
    rfl
  cleared := by
    intro handle
    rw [Run.clear_virtual keeper]
    exact ⟨_, rfl, agrees.clear_iff handle⟩
  undisturbed := by
    intro handle
    rw [Run.clear_virtual keeper]
    exact ⟨clock, keeper, rfl⟩
  pending := by
    refine ⟨clock.now, clock.queued, ?_⟩
    have answers (handle) :
        (Run.clear handle world).1 = .ok true ↔ (clock.clear handle).1 = true := by
      rw [Run.clear_virtual keeper]
      simp
    simp only [answers, ← agrees.pending_eq, keeper]
    rfl

end World

/-! ## Every run is entered in the ledger -/

namespace Regime

/-- The world has a virtual clock, and a ledger of it goes on. -/
def bookkeeping : Regime S Action A where
  kind world := ∃ clock, world.keeper = .virtual clock
  law before after := ∀ ledger, before.HasLedger ledger → ∃ more, after.HasLedger (more ++ ledger)

variable {before after world : World S Action A} {clock : World.Clock S Action A} {rules : Rules}

/-- What leaves the scheduler alone is not entered. -/
theorem bookkeeping_same (same : after.keeper = before.keeper) : bookkeeping.Allows before after := by
  intro kind
  obtain ⟨clock, keeper⟩ := kind
  exact ⟨⟨clock, same.trans keeper⟩, fun ledger has => ⟨[], has.beside same⟩⟩

theorem not_bookkeeping_tasks {tasks : TaskClock (LocalTask S Action A)}
    (keeper : world.keeper = .tasks tasks) : ¬bookkeeping.kind world := by
  intro kind
  obtain ⟨clock, virtual⟩ := kind
  rw [keeper] at virtual
  cases virtual

theorem bookkeeping_steady : (bookkeeping : Regime S Action A).Steady where
  refl world ledger has := ⟨[], has⟩
  trans first second := by
    intro ledger has
    obtain ⟨more, hasMore⟩ := first ledger has
    obtain ⟨further, hasFurther⟩ := second _ hasMore
    rw [← List.append_assoc] at hasFurther
    exact ⟨further ++ more, hasFurther⟩
  booked _ _ _ _ _ := bookkeeping_same rfl
  queued _ _ _ keeper := fun kind => (not_bookkeeping_tasks keeper kind).elim
  alarm _ _ _ _ keeper := fun kind => (not_bookkeeping_tasks keeper kind).elim

/-- In a world of the kind, it is enough to look at its clock. -/
theorem bookkeeping_of_virtual {α : Type} {computation : Run S Action A α}
    (enters : ∀ clock, world.keeper = .virtual clock →
      bookkeeping.Allows world (computation world).2) :
    bookkeeping.ObeysIn world (fun _ => True) computation := by
  constructor
  · intro kind
    obtain ⟨clock, keeper⟩ := kind
    exact enters clock keeper ⟨clock, keeper⟩
  · intro _ _ _
    trivial

theorem clear_booked (handle : TimerHandle) :
    bookkeeping.Obeys (fun _ => True) (Run.clear handle : Run S Action A Bool) := by
  intro world
  apply bookkeeping_of_virtual
  intro clock keeper _
  have cleared := Run.clear_virtual keeper handle
  rw [cleared]
  exact ⟨⟨_, rfl⟩, fun ledger has => ⟨[_], has.clears handle cleared⟩⟩

theorem schedule_booked (delay : Duration) (repeating : Bool) (task : Pending S Action A .finished) :
    bookkeeping.Obeys (fun _ => True) (Run.schedule delay repeating task) := by
  intro world
  apply bookkeeping_of_virtual
  intro clock keeper _
  have scheduled := Run.schedule_virtual keeper delay repeating task
  rw [scheduled]
  exact ⟨⟨_, rfl⟩, fun ledger has => ⟨[_], has.schedules delay repeating task scheduled⟩⟩

theorem spawn_booked (task : Pending S Action A .finished) :
    bookkeeping.Obeys (fun _ => True) (Run.spawn task) := by
  intro world
  apply bookkeeping_of_virtual
  intro clock keeper _
  have spawned := Run.spawn_virtual keeper task
  rw [spawned]
  exact ⟨⟨_, rfl⟩, fun ledger has => ⟨[], has.spawns task spawned⟩⟩

theorem forget_booked (handle : TimerHandle) :
    bookkeeping.Obeys (fun _ => True) (Run.forget handle : Run S Action A Unit) := by
  intro world
  apply bookkeeping_of_virtual
  intro clock keeper
  apply bookkeeping_same
  cases world
  cases keeper
  rfl

theorem nextDriven_booked (target : Duration) : bookkeeping.Obeys (fun _ => True)
    (Run.nextDriven target : Run S Action A (Option (List (Pending S Action A .finished)))) := by
  intro world
  apply bookkeeping_of_virtual
  intro clock keeper _
  obtain ⟨move, result, moved, driven, step, drives⟩ := Run.nextDriven_moves keeper target
  rw [driven]
  exact ⟨⟨moved, rfl⟩, fun ledger has => ⟨_, has.drives driven keeper rfl step drives⟩⟩

theorem bookkeeping_houses : (bookkeeping : Regime S Action (Action alphabet)).Houses .lax where
  toSteady := bookkeeping_steady
  read _ := bookkeeping_same rfl
  note _ _ := bookkeeping_same rfl
  log _ _ _ := bookkeeping_same rfl
  keep _ _ _ := bookkeeping_same rfl
  clear handle _ := clear_booked handle
  forget handle _ := forget_booked handle
  schedule delay repeating task _ := schedule_booked delay repeating task
  spawn task _ := spawn_booked task
  nextDriven target _ world :=
    ⟨(nextDriven_booked target world).1, fun _ _ _ _ _ task _ => task.within_lax⟩
  fire _ _ _ := bookkeeping_same rfl
  observed _ _ := bookkeeping_same rfl
  delivered _ _ := bookkeeping_same rfl
  committed _ _ := bookkeeping_same rfl
  dispatched _ _ := bookkeeping_same rfl

end Regime

/-- The handle ledger of a virtual clock is kept well.  As long as handles of 64 bits last, every entry
of it is right, the scheduler answers by it, and whatever happens in the world is entered in it. -/
theorem Host.keeps_ledger (host : Host S Action alphabet) {world : World S Action (Action alphabet)}
    {ledger : Ledger} (has : world.HasLedger ledger) (few : ledger.calls < 2 ^ 64) :
    ledger.Upheld ∧ world.AnswersBy ledger ∧
      ∀ after, host.Lives .lax world after → ∃ more, after.HasLedger (more ++ ledger) := by
  obtain ⟨clock, keeper, agrees⟩ := has.agrees few
  refine ⟨agrees.sound.upheld, World.answersBy keeper agrees, ?_⟩
  intro after lives
  have allowed := lives.allowed Regime.bookkeeping_houses host.within_lax Regime.bookkeeping_same
  exact (allowed ⟨clock, keeper⟩).2 ledger has

/-! ### Two schedules, and two advances that overlap -/

namespace Tandem

def task : Pending Unit (fun _ : Unit => Json) Json .finished := .done ()

def delay : Duration := ⟨10 * Duration.millisecond, Duration.tenMillis_lt⟩

def near : Duration := ⟨20 * Duration.millisecond, Duration.twentyMillis_lt⟩

def far : Duration := ⟨50 * Duration.millisecond, Duration.fiftyMillis_lt⟩

def single : Timer (Pending Unit (fun _ : Unit => Json) Json .finished) := ⟨⟨1⟩, delay, none, task⟩

def repeated (due : Duration) : Timer (Pending Unit (fun _ : Unit => Json) Json .finished) :=
  ⟨⟨2⟩, due, some delay, task⟩

/-- The world with the given schedules. -/
def world (now : Duration) (issued : UInt64)
    (timers : List (Timer (Pending Unit (fun _ : Unit => Json) Json .finished))) :
    World Unit (fun _ : Unit => Json) Json :=
  .initial () (.virtual ⟨now, issued, timers, []⟩) (.int 0)

/-- Two schedules are due at the same time.  One advance fires the first, another one fires the second,
which repeats; then both are cancelled. -/
def ledger : Ledger :=
  [.cleared ⟨1⟩ false, .cleared ⟨2⟩ true, .fired ⟨2⟩, .fired ⟨1⟩, .scheduled (some ⟨2⟩) true,
    .scheduled (some ⟨1⟩) false]

theorem hasLedger : (world delay 2 []).HasLedger ledger := by
  have start : (world .zero 0 []).HasLedger [] := .fresh rfl
  have one : (world .zero 1 [single]).HasLedger _ := start.schedules delay false task rfl
  have two : (world .zero 2 [single, repeated delay]).HasLedger _ :=
    one.schedules delay true task rfl
  have firing : Run.nextDriven near (world .zero 2 [single, repeated delay]) =
      (.ok (some [task]), world delay 2 [repeated delay]) := rfl
  have first : (world delay 2 [repeated delay]).HasLedger _ :=
    two.drives firing rfl rfl (.fired rfl rfl rfl) (.fired single)
  have again : Run.nextDriven far (world delay 2 [repeated delay]) =
      (.ok (some [task]), world delay 2 [repeated near]) := rfl
  have second : (world delay 2 [repeated near]).HasLedger _ :=
    first.drives again rfl rfl (.fired rfl rfl rfl) (.fired (repeated delay))
  have cancelled : (world delay 2 []).HasLedger _ := second.clears ⟨2⟩ rfl
  exact cancelled.clears ⟨1⟩ rfl

/-- The ledger is kept well, and nothing is in use any more. -/
theorem ledger_kept : (world delay 2 []).HasLedger ledger ∧ ledger.calls < 2 ^ 64 ∧ ledger.Upheld ∧
    (world delay 2 []).AnswersBy ledger := by
  have few : ledger.calls < 2 ^ 64 := by decide
  obtain ⟨upheld, answers, -⟩ := Host.plain.keeps_ledger hasLedger few
  exact ⟨hasLedger, few, upheld, answers⟩

end Tandem

end EffectLoop
