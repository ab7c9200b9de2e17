import EffectLoop.Proofs.Time.Chronicle
import EffectLoop.Proofs.Time.Legs

/-!
# Why an advance comes to its end

Firing a schedule moves the clock to its due time before its work is run.  A repeating schedule is
deferred by a positive period, and what the work registers, if it is modest, is due later than the
time that the clock shows.  So with every firing the earliest due time moves on, or fewer schedules
are due then.
-/

namespace EffectLoop

variable {τ : Type}

namespace VirtualClock

variable {clock moved settled : VirtualClock τ} {target now moment : Duration} {timer : Timer τ}
  {move : Move τ} {moves : List (Move τ)}

/-! ## Positive periods -/

/-- All periods are positive. -/
def Positive (clock : VirtualClock τ) : Prop :=
  ∀ timer ∈ clock.timers, ∀ period, timer.period = some period → 0 < period.nanos

theorem initial_positive : (initial : VirtualClock τ).Positive := by
  intro timer within
  cases within

theorem Moves.positive (moved : Moves clock move settled) (positive : clock.Positive) :
    settled.Positive := by
  intro other within
  cases moved.origin within with
  | kept old _ => exact positive other old
  | made _ positive => exact positive
  | @deferred _ _ _ _ before old _ _ _ => exact positive before old

theorem Path.positive (path : Path clock moves settled) (positive : clock.Positive) :
    settled.Positive := by
  induction path with
  | nil clock => exact positive
  | cons moved _ ih => exact ih (moved.positive positive)

/-! ## Modest moves -/

/-- A move that clears a schedule, or registers one that is not due at once. -/
def Move.IsModest : Move τ → Prop
  | scheduled delay repeating _ => repeating ∨ delay ≠ .zero
  | cleared _ => True
  | spawned _ | drained | fired _ _ | strained _ _ | arrived _ => False

theorem stride_pos_of_modest {delay : Duration} {repeating : Bool} {task : τ}
    (modest : (Move.scheduled delay repeating task).IsModest) : 0 < stride delay repeating := by
  cases repeating with
  | true => exact stride_pos delay
  | false =>
      apply Nat.pos_of_ne_zero
      intro zero
      exact modest.elim Bool.noConfusion fun nonzero => nonzero (Duration.ext zero)

/-- How many schedules are due at a moment. -/
def dueAt (clock : VirtualClock τ) (moment : Duration) : Nat :=
  clock.timers.countP (·.due = moment)

/-- A schedule that is not due at once is not due now. -/
theorem dueAt_schedule {delay : Duration} {repeating : Bool} {task : τ}
    (positive : 0 < stride delay repeating) :
    (clock.schedule delay repeating task).2.dueAt clock.now = clock.dueAt clock.now := by
  have wait : (if repeating then some (repeatPeriod delay) else none).getD delay =
      if repeating then repeatPeriod delay else delay := by
    cases repeating <;> rfl
  simp only [schedule, wait]
  cases sum : clock.now.add? (if repeating then repeatPeriod delay else delay) with
  | none => rfl
  | some due =>
      have later : due ≠ clock.now := by
        rintro rfl
        rw [Duration.add?_eq_some_iff] at sum
        change clock.now.nanos = clock.now.nanos + stride delay repeating at sum
        omega
      simp [dueAt, List.countP_append, later]

/-- A modest move leaves the time and the queued work alone, and makes nothing due now. -/
theorem Moves.modest (step : Moves clock move settled) (modest : move.IsModest) :
    settled.now = clock.now ∧ settled.spawned = clock.spawned ∧
      settled.dueAt clock.now ≤ clock.dueAt clock.now := by
  refine ⟨?_, ?_, ?_⟩
  · rw [step.now_eq]
    cases move with
    | scheduled | cleared => rfl
    | spawned | drained | fired | strained | arrived => exact modest.elim
  · rw [step.spawned_eq]
    cases move with
    | scheduled | cleared => rfl
    | spawned | drained | fired | strained | arrived => exact modest.elim
  · cases step with
    | scheduled => exact Nat.le_of_eq (dueAt_schedule (stride_pos_of_modest modest))
    | cleared handle => exact List.Sublist.countP_le List.filter_sublist
    | spawned | drained | fired | strained | arrived => exact modest.elim

theorem Path.modest (path : Path clock moves settled) (modest : ∀ move ∈ moves, move.IsModest) :
    settled.now = clock.now ∧ settled.spawned = clock.spawned ∧
      settled.dueAt clock.now ≤ clock.dueAt clock.now := by
  induction path with
  | nil clock => exact ⟨rfl, rfl, Nat.le_refl _⟩
  | cons step _ ih =>
      obtain ⟨now, spawned, fewer⟩ := step.modest (modest _ List.mem_cons_self)
      obtain ⟨nowThen, spawnedThen, fewerThen⟩ :=
        ih fun move within => modest move (List.mem_cons_of_mem _ within)
      rw [now] at nowThen fewerThen
      exact ⟨nowThen, spawnedThen.trans spawned, Nat.le_trans fewerThen fewer⟩

/-! ## Firing -/

/-- After a firing, fewer schedules are due at the time of the firing. -/
theorem Takes.dueAt_lt (takes : clock.Takes target (.fired now timer) moved)
    (positive : clock.Positive) : moved.dueAt timer.due < clock.dueAt timer.due := by
  cases takes with
  | fired idle found taken =>
      have within := (mem_of_due? found).1
      have others : (clock.timers.filter (·.handle ≠ timer.handle)).countP (·.due = timer.due) <
          clock.dueAt timer.due := by
        have parts := List.countP_eq_countP_filter_add clock.timers (·.due = timer.due)
          (·.handle ≠ timer.handle)
        rw [dueAt, parts]
        apply Nat.lt_add_of_pos_right
        exact List.countP_pos_iff.2 ⟨timer, by simpa using within, by simp⟩
      obtain ⟨first, foundFirst, -, change⟩ := takeDue_eq_task taken
      rw [found] at foundFirst
      cases foundFirst
      obtain ⟨-, removed⟩ | ⟨period, due, repeats, sum, deferred⟩ := change
      · rw [removed]
        exact others
      · -- What is deferred is due later, like what is removed it no longer counts.
        refine Nat.lt_of_le_of_lt ?_ others
        have later : due ≠ timer.due := by
          rintro rfl
          have long := positive timer within period repeats
          rw [Duration.add?_eq_some_iff] at sum
          omega
        rw [deferred, dueAt, List.countP_map, List.countP_filter]
        apply List.countP_mono_left
        intro other _ counted
        by_cases same : other.handle = timer.handle
        · simp [same, later] at counted
        · simpa [same] using counted

/-- The first due time that is still to come up to the target, as the time that is left, and how many
schedules are due then. -/
def rank (clock : VirtualClock τ) (target : Duration) : Nat × Nat :=
  match clock.due? target with
  | none => (0, 0)
  | some timer => (target.nanos - timer.due.nanos + 1, clock.dueAt timer.due)

/-- A firing with modest work makes the rank smaller. -/
theorem Takes.rank_lt (takes : clock.Takes target (.fired now timer) moved)
    (path : Path moved moves settled) (modest : ∀ move ∈ moves, move.IsModest)
    (sound : moved.Sound) (positive : clock.Positive) :
    Prod.Lex (· < ·) (· < ·) (settled.rank target) (clock.rank target) := by
  have fewer := takes.dueAt_lt positive
  have settledSound := path.sound sound
  obtain ⟨now, -, noMore⟩ := path.modest modest
  cases takes with
  | fired idle found taken =>
      have shown := (Moves.fired idle found taken).now_eq
      rw [Move.shows] at shown
      have due := (mem_of_due? found).2
      rw [rank, rank, found]
      cases next : settled.due? target with
      | none => exact .left _ _ (Nat.succ_pos _)
      | some other =>
          obtain ⟨within, dueThen⟩ := mem_of_due? next
          have later := settledSound other within
          rw [now, shown] at later
          rw [shown] at noMore
          rw [Duration.le_iff] at due dueThen later
          by_cases same : other.due = timer.due
          · dsimp only
            rw [same]
            exact .right _ (Nat.lt_of_le_of_lt noMore fewer)
          · have differ : other.due.nanos ≠ timer.due.nanos := fun equal => same (Duration.ext equal)
            apply Prod.Lex.left
            omega

end VirtualClock

end EffectLoop
