import EffectLoop.Time.VirtualClock

/-!
# Motions of a virtual clock

What can happen to a virtual clock, one thing at a time.  No schedule is ever due before the time that
the clock shows: a new one is due from now on, the one that fires is the first of those that are due,
and an advance ends only when none is due up to its target.  So firing never turns the clock back.
Only the end of an advance can do that, and only if another one has gone beyond its target before.
-/

namespace EffectLoop

variable {τ : Type}

theorem Timer.before_iff {left right : Timer τ} :
    left.before right = true ↔ left.due.nanos < right.due.nanos ∨
      left.due.nanos = right.due.nanos ∧ left.handle.id.toNat < right.handle.id.toNat := by
  simp only [before, Bool.or_eq_true, Bool.and_eq_true, decide_eq_true_eq, Duration.lt_iff,
    Duration.ext_iff, UInt64.lt_iff_toNat_lt]

/-- Of two schedules with different handles one fires before the other. -/
theorem Timer.before_of_not_before {left right : Timer τ} (least : ¬right.before left)
    (apart : right.handle ≠ left.handle) : left.before right := by
  have differ : right.handle.id.toNat ≠ left.handle.id.toNat := by
    intro same
    exact apart (congrArg TimerHandle.mk (UInt64.toNat_inj.1 same))
  rw [Timer.before_iff] at least ⊢
  omega

namespace VirtualClock

/-! ## The schedule that fires first -/

theorem earliest?_eq_none_iff {timers : List (Timer τ)} : earliest? timers = none ↔ timers = [] := by
  cases timers with
  | nil => simp [earliest?]
  | cons timer rest =>
      simp only [earliest?]
      cases earliest? rest <;> simp

theorem mem_of_earliest? {timers : List (Timer τ)} {first : Timer τ}
    (found : earliest? timers = some first) : first ∈ timers := by
  induction timers generalizing first with
  | nil => cases found
  | cons timer rest ih =>
      simp only [earliest?] at found
      cases restFound : earliest? rest with
      | none =>
          rw [restFound] at found
          cases found
          exact List.mem_cons_self
      | some other =>
          rw [restFound] at found
          cases found
          split
          · exact List.mem_cons_of_mem _ (ih restFound)
          · exact List.mem_cons_self

/-- No schedule fires before the first one. -/
theorem not_before_of_earliest? {timers : List (Timer τ)} {first other : Timer τ}
    (found : earliest? timers = some first) (within : other ∈ timers) : ¬other.before first := by
  induction timers generalizing first with
  | nil => cases found
  | cons timer rest ih =>
      simp only [earliest?] at found
      cases restFound : earliest? rest with
      | none =>
          rw [restFound] at found
          cases found
          rw [earliest?_eq_none_iff.1 restFound, List.mem_singleton] at within
          simp only [within, Timer.before_iff]
          omega
      | some least =>
          rw [restFound] at found
          cases found
          have restLeast (within : other ∈ rest) := ih restFound within
          simp only [Timer.before_iff] at restLeast ⊢
          cases within with
          | head =>
              split
              next => omega
              next => omega
          | tail _ within =>
              have := restLeast within
              split
              next => exact this
              next => omega

theorem due?_eq_none_iff {clock : VirtualClock τ} {target : Duration} :
    clock.due? target = none ↔ ∀ timer ∈ clock.timers, target < timer.due := by
  simp [due?, earliest?_eq_none_iff, Duration.le_iff, Duration.lt_iff]

theorem mem_of_due? {clock : VirtualClock τ} {target : Duration} {first : Timer τ}
    (found : clock.due? target = some first) : first ∈ clock.timers ∧ first.due ≤ target := by
  simpa using mem_of_earliest? found

/-- The first schedule of those that are due up to `target` is the first of all. -/
theorem not_before_of_due? {clock : VirtualClock τ} {target : Duration} {first other : Timer τ}
    (found : clock.due? target = some first) (within : other ∈ clock.timers) :
    ¬other.before first := by
  by_cases due : other.due ≤ target
  · exact not_before_of_earliest? found (by simpa using ⟨within, due⟩)
  · have firstDue := (mem_of_due? found).2
    simp only [Timer.before_iff, Duration.le_iff] at *
    omega

/-! ## Moves -/

/-- Something that happens to a clock. -/
inductive Move (τ : Type) where
  | scheduled (delay : Duration) (repeating : Bool) (task : τ)
  | cleared (handle : TimerHandle)
  | spawned (task : τ)
  /-- All queued work is taken, to be run. -/
  | drained
  /-- An advance up to `target` fires a schedule. -/
  | fired (target : Duration) (timer : Timer τ)
  /-- An advance up to `target` cannot re-arm the schedule that is to fire. -/
  | strained (target : Duration) (timer : Timer τ)
  /-- An advance up to `target` ends. -/
  | arrived (target : Duration)

/-- A move that anyone can make, also while no advance is under way. -/
def Move.IsAside : Move τ → Prop
  | scheduled _ _ _ | cleared _ | spawned _ => True
  | drained | fired _ _ | strained _ _ | arrived _ => False

/-- What the move hands over to the clock is good. -/
def Move.Brings (good : τ → Prop) : Move τ → Prop
  | scheduled _ _ task | spawned task => good task
  | cleared _ | drained | fired _ _ | strained _ _ | arrived _ => True

/-- The time that the clock shows after the move. -/
@[simp] def Move.shows (now : Duration) : Move τ → Duration
  | scheduled _ _ _ | cleared _ | spawned _ | drained => now
  | fired _ timer | strained _ timer => timer.due
  | arrived target => target

/-- The work that is queued after the move. -/
@[simp] def Move.queues (spawned : List τ) : Move τ → List τ
  | .spawned task => spawned ++ [task]
  | drained => []
  | scheduled _ _ _ | cleared _ | fired _ _ | strained _ _ | arrived _ => spawned

/-- The last handle that was used up, after the move. -/
@[simp] def Move.issues (issued : UInt64) : Move τ → UInt64
  | scheduled _ _ _ => issued + 1
  | cleared _ | spawned _ | drained | fired _ _ | strained _ _ | arrived _ => issued

/-- How a move changes the clock, and when it can be made. -/
inductive Moves : VirtualClock τ → Move τ → VirtualClock τ → Prop where
  | scheduled (clock : VirtualClock τ) (delay : Duration) (repeating : Bool) (task : τ) :
      Moves clock (.scheduled delay repeating task) (clock.schedule delay repeating task).2
  | cleared (clock : VirtualClock τ) (handle : TimerHandle) :
      Moves clock (.cleared handle) (clock.clear handle).2
  | spawned (clock : VirtualClock τ) (task : τ) : Moves clock (.spawned task) (clock.spawn task)
  | drained {clock : VirtualClock τ} : clock.spawned ≠ [] →
      Moves clock .drained clock.takeSpawned.2
  | fired {clock after : VirtualClock τ} {target : Duration} {timer : Timer τ} :
      clock.spawned = [] → clock.due? target = some timer →
      clock.takeDue target = (.task timer.task, after) → Moves clock (.fired target timer) after
  | strained {clock after : VirtualClock τ} {target : Duration} {timer : Timer τ} :
      clock.spawned = [] → clock.due? target = some timer →
      clock.takeDue target = (.overflow, after) → Moves clock (.strained target timer) after
  | arrived {clock : VirtualClock τ} {target : Duration} : clock.spawned = [] →
      clock.due? target = none → Moves clock (.arrived target) (clock.arrive target)

/-- A sequence of moves. -/
inductive Path : VirtualClock τ → List (Move τ) → VirtualClock τ → Prop where
  | nil (clock : VirtualClock τ) : Path clock [] clock
  | cons {clock middle after : VirtualClock τ} {move : Move τ} {moves : List (Move τ)} :
      Moves clock move middle → Path middle moves after → Path clock (move :: moves) after

variable {clock after : VirtualClock τ} {target : Duration} {move : Move τ} {moves : List (Move τ)}

namespace Path

theorem single (moved : Moves clock move after) : Path clock [move] after :=
  .cons moved (.nil after)

theorem append {middle : VirtualClock τ} {more : List (Move τ)} (first : Path clock moves middle)
    (second : Path middle more after) : Path clock (moves ++ more) after := by
  induction first with
  | nil clock => exact second
  | cons moved _ ih => exact .cons moved (ih second)

end Path

/-! ## What a move does -/

/-- Scheduling uses up a handle.  Unless a sum is no duration it registers one schedule, which is due
from now on, and whose period, if it has one, is positive. -/
theorem schedule_cases (clock : VirtualClock τ) (delay : Duration) (repeating : Bool) (task : τ) :
    (clock.schedule delay repeating task).2 = { clock with issued := clock.issued + 1 } ∨
      ∃ due period, clock.now ≤ due ∧ (∀ time, period = some time → 0 < time.nanos) ∧
        (clock.schedule delay repeating task).2 = { clock with
          issued := clock.issued + 1
          timers := clock.timers ++ [⟨⟨clock.issued + 1⟩, due, period, task⟩] } := by
  simp only [schedule]
  split
  next => exact .inl rfl
  next due sum =>
    have later : clock.now ≤ due := by
      rw [Duration.add?_eq_some_iff] at sum
      rw [Duration.le_iff]
      omega
    have positive (time : Duration)
        (found : (if repeating then some (repeatPeriod delay) else none) = some time) :
        0 < time.nanos := by
      split at found
      · cases found
        have least : Duration.millisecond ≤ (repeatPeriod delay).nanos :=
          oneMillisecond_le_repeatPeriod delay
        simp only [Duration.millisecond] at least
        omega
      · cases found
    exact .inr ⟨due, _, later, positive, rfl⟩

/-- Taking a schedule moves the clock to it.  One that does not repeat is removed; one that repeats is
deferred by its period. -/
theorem takeDue_eq_task {task : τ} (taken : clock.takeDue target = (.task task, after)) :
    ∃ timer, clock.due? target = some timer ∧ timer.task = task ∧
      ((timer.period = none ∧ after = { clock with
          now := timer.due
          timers := clock.timers.filter (·.handle ≠ timer.handle) }) ∨
        ∃ period due, timer.period = some period ∧ timer.due.add? period = some due ∧
          after = { clock with
            now := timer.due
            timers := clock.timers.map fun other =>
              if other.handle = timer.handle then { other with due } else other }) := by
  simp only [takeDue] at taken
  cases found : clock.due? target with
  | none =>
      rw [found] at taken
      cases taken
  | some timer =>
      simp only [found] at taken
      refine ⟨timer, rfl, ?_⟩
      cases repeats : timer.period with
      | none =>
          simp only [repeats] at taken
          cases taken
          exact ⟨rfl, .inl ⟨rfl, rfl⟩⟩
      | some period =>
          simp only [repeats] at taken
          cases sum : timer.due.add? period with
          | none =>
              simp only [sum] at taken
              cases taken
          | some due =>
              simp only [sum] at taken
              cases taken
              exact ⟨rfl, .inr ⟨period, due, rfl, sum, rfl⟩⟩

/-- Where the sum is no duration, the clock has moved and the schedule is left as it was. -/
theorem takeDue_eq_overflow (taken : clock.takeDue target = (.overflow, after)) :
    ∃ timer, clock.due? target = some timer ∧ after = { clock with now := timer.due } := by
  simp only [takeDue] at taken
  cases found : clock.due? target with
  | none =>
      rw [found] at taken
      cases taken
  | some timer =>
      simp only [found] at taken
      cases repeats : timer.period with
      | none =>
          simp only [repeats] at taken
          cases taken
      | some period =>
          simp only [repeats] at taken
          cases sum : timer.due.add? period with
          | none =>
              simp only [sum] at taken
              cases taken
              exact ⟨timer, rfl, rfl⟩
          | some due =>
              simp only [sum] at taken
              cases taken

theorem takeDue_eq_nothing (taken : clock.takeDue target = (.nothing, after)) :
    clock.due? target = none ∧ after = clock := by
  simp only [takeDue] at taken
  cases found : clock.due? target with
  | none =>
      rw [found] at taken
      cases taken
      exact ⟨rfl, rfl⟩
  | some timer =>
      simp only [found] at taken
      cases repeats : timer.period with
      | none =>
          simp only [repeats] at taken
          cases taken
      | some period =>
          simp only [repeats] at taken
          cases sum : timer.due.add? period <;> simp only [sum] at taken <;> cases taken

/-- Where a schedule that is registered after a move comes from. -/
inductive Origin (clock : VirtualClock τ) : Move τ → Timer τ → Prop where
  /-- It was registered before, and is not the one that has fired. -/
  | kept {move : Move τ} {other : Timer τ} : other ∈ clock.timers →
      (∀ target timer, move = .fired target timer → other.handle ≠ timer.handle) →
      Origin clock move other
  /-- It is new, and due from now on. -/
  | made {delay due : Duration} {repeating : Bool} {task : τ} {period : Option Duration} :
      clock.now ≤ due → (∀ time, period = some time → 0 < time.nanos) →
      Origin clock (.scheduled delay repeating task) ⟨⟨clock.issued + 1⟩, due, period, task⟩
  /-- It has fired, and is deferred by its period. -/
  | deferred {target period due : Duration} {timer other : Timer τ} : other ∈ clock.timers →
      other.handle = timer.handle → timer.period = some period → timer.due.add? period = some due →
      Origin clock (.fired target timer) { other with due }

namespace Moves

theorem origin (moved : Moves clock move after) {other : Timer τ} (within : other ∈ after.timers) :
    Origin clock move other := by
  have still (old : other ∈ clock.timers)
      (quiet : ∀ target timer, move ≠ .fired target timer) : Origin clock move other :=
    .kept old fun target timer fires => (quiet target timer fires).elim
  cases moved with
  | scheduled delay repeating task =>
      cases clock.schedule_cases delay repeating task with
      | inl refused =>
          rw [refused] at within
          exact still within (by simp)
      | inr registered =>
          obtain ⟨due, period, later, positive, same⟩ := registered
          rw [same] at within
          cases List.mem_append.1 within with
          | inl old => exact still old (by simp)
          | inr new =>
              cases List.mem_singleton.1 new
              exact .made later positive
  | cleared handle => exact still (List.mem_filter.1 within).1 (by simp)
  | spawned task => exact still within (by simp)
  | drained queued => exact still within (by simp)
  | fired idle found taken =>
      obtain ⟨first, foundFirst, _, change⟩ := takeDue_eq_task taken
      rw [found] at foundFirst
      cases foundFirst
      cases change with
      | inl removed =>
          rw [removed.2] at within
          obtain ⟨old, different⟩ := List.mem_filter.1 within
          apply Origin.kept old
          intro _ _ fires
          cases fires
          exact of_decide_eq_true different
      | inr again =>
          obtain ⟨period, due, repeats, sum, same⟩ := again
          rw [same] at within
          obtain ⟨before, old, rfl⟩ := List.mem_map.1 within
          split
          next same => exact .deferred old same repeats sum
          next different =>
            apply Origin.kept old
            intro _ _ fires
            cases fires
            exact different
  | strained idle found taken =>
      obtain ⟨_, _, same⟩ := takeDue_eq_overflow taken
      rw [same] at within
      exact still within (by simp)
  | arrived idle none_due => exact still within (by simp)

/-- Everything but the schedules is determined by the move. -/
theorem eq (moved : Moves clock move after) : after =
    ⟨move.shows clock.now, move.issues clock.issued, after.timers, move.queues clock.spawned⟩ := by
  cases moved with
  | scheduled delay repeating task =>
      cases clock.schedule_cases delay repeating task with
      | inl refused => simp [refused]
      | inr registered =>
          obtain ⟨_, _, _, _, same⟩ := registered
          simp [same]
  | cleared handle => rfl
  | spawned task => rfl
  | drained queued => rfl
  | fired idle found taken =>
      obtain ⟨first, foundFirst, _, change⟩ := takeDue_eq_task taken
      rw [found] at foundFirst
      cases foundFirst
      cases change with
      | inl removed => simp [removed.2]
      | inr again =>
          obtain ⟨_, _, _, _, same⟩ := again
          simp [same]
  | strained idle found taken =>
      obtain ⟨first, foundFirst, same⟩ := takeDue_eq_overflow taken
      rw [found] at foundFirst
      cases foundFirst
      simp [same]
  | arrived idle none_due => rfl

theorem now_eq (moved : Moves clock move after) : after.now = move.shows clock.now :=
  congrArg VirtualClock.now moved.eq

theorem issued_eq (moved : Moves clock move after) : after.issued = move.issues clock.issued :=
  congrArg VirtualClock.issued moved.eq

theorem spawned_eq (moved : Moves clock move after) :
    after.spawned = move.queues clock.spawned :=
  congrArg VirtualClock.spawned moved.eq

theorem of_fired {timer : Timer τ} (moved : Moves clock (.fired target timer) after) :
    clock.spawned = [] ∧ clock.due? target = some timer := by
  cases moved with
  | fired idle found _ => exact ⟨idle, found⟩

theorem of_arrived (moved : Moves clock (.arrived target) after) :
    clock.spawned = [] ∧ after.timers = clock.timers ∧ ∀ timer ∈ clock.timers, target < timer.due := by
  cases moved with
  | arrived idle none_due => exact ⟨idle, rfl, due?_eq_none_iff.1 none_due⟩

end Moves

/-! ## Work in the hands of the clock -/

/-- All schedules and all queued work are good. -/
structure Holds (good : τ → Prop) (clock : VirtualClock τ) : Prop where
  timers : ∀ timer ∈ clock.timers, good timer.task
  spawned : ∀ task ∈ clock.spawned, good task

theorem initial_holds (good : τ → Prop) : (initial : VirtualClock τ).Holds good := by
  constructor
  · intro timer within
    cases within
  · intro task within
    cases within

/-- A clock makes no work of its own. -/
theorem Moves.holds {good : τ → Prop} (moved : Moves clock move after) (holds : clock.Holds good)
    (brings : move.Brings good) : after.Holds good := by
  constructor
  · intro other within
    cases moved.origin within with
    | kept old _ => exact holds.timers _ old
    | made _ _ => exact brings
    | @deferred _ _ _ _ before old _ _ _ => exact holds.timers before old
  · intro task within
    rw [moved.spawned_eq] at within
    cases move with
    | spawned new =>
        cases List.mem_append.1 within with
        | inl old => exact holds.spawned task old
        | inr added =>
            cases List.mem_singleton.1 added
            exact brings
    | drained => cases within
    | scheduled | cleared | fired | strained | arrived => exact holds.spawned task within

/-! ## Soundness -/

/-- No schedule is overdue. -/
def Sound (clock : VirtualClock τ) : Prop := ∀ timer ∈ clock.timers, clock.now ≤ timer.due

theorem initial_sound : (initial : VirtualClock τ).Sound := by
  intro timer within
  cases within

/-- The clock never passes the schedule that fires first. -/
theorem Sound.le_of_due? (sound : clock.Sound) {timer : Timer τ}
    (found : clock.due? target = some timer) : clock.now ≤ timer.due :=
  sound timer (mem_of_due? found).1

theorem due_le_of_due? {timer other : Timer τ} (found : clock.due? target = some timer)
    (within : other ∈ clock.timers) : timer.due ≤ other.due := by
  have least := not_before_of_due? found within
  rw [Timer.before_iff] at least
  rw [Duration.le_iff]
  omega

/-- Every move leaves a sound clock sound. -/
theorem Moves.sound (moved : Moves clock move after) (sound : clock.Sound) : after.Sound := by
  intro other within
  rw [moved.now_eq]
  cases moved.origin within with
  | kept old _ =>
      cases moved with
      | scheduled | cleared | spawned | drained => exact sound other old
      | fired _ found _ => exact due_le_of_due? found old
      | strained _ found _ => exact due_le_of_due? found old
      | arrived _ none_due => exact Nat.le_of_lt (due?_eq_none_iff.1 none_due other old)
  | made later _ => exact later
  | @deferred _ _ due timer _ _ _ _ sum =>
      rw [Duration.add?_eq_some_iff] at sum
      change timer.due.nanos ≤ due.nanos
      omega

theorem Path.sound (path : Path clock moves after) (sound : clock.Sound) : after.Sound := by
  induction path with
  | nil clock => exact sound
  | cons moved _ ih => exact ih (moved.sound sound)

/-! ## The time that the clock shows -/

/-- A move that ends an advance beyond whose target the clock has gone already. -/
inductive Late (clock : VirtualClock τ) : Move τ → Prop where
  | arrived {target : Duration} : target < clock.now → Late clock (.arrived target)

/-- Unless it comes late, a move does not turn the clock back. -/
theorem Moves.now_le (moved : Moves clock move after) (sound : clock.Sound)
    (timely : ¬Late clock move) : clock.now ≤ after.now := by
  rw [moved.now_eq]
  cases moved with
  | scheduled | cleared | spawned | drained => exact Nat.le_refl _
  | fired _ found _ => exact sound.le_of_due? found
  | strained _ found _ => exact sound.le_of_due? found
  | arrived _ _ =>
      rw [Duration.le_iff]
      apply Nat.le_of_not_lt
      intro late
      exact timely (.arrived late)

/-- Along a path the clock is turned back only where a move comes late. -/
theorem Path.now_le_or_late (path : Path clock moves after) (sound : clock.Sound) :
    clock.now ≤ after.now ∨ ∃ early late middle move, moves = early ++ move :: late ∧
      Path clock early middle ∧ Late middle move := by
  induction path with
  | nil clock => exact .inl (Nat.le_refl _)
  | @cons clock middle after move moves moved path ih =>
      cases Classical.em (Late clock move) with
      | inl late => exact .inr ⟨[], moves, clock, move, rfl, .nil clock, late⟩
      | inr timely =>
          cases ih (moved.sound sound) with
          | inl rest => exact .inl (Nat.le_trans (moved.now_le sound timely) rest)
          | inr back =>
              obtain ⟨early, later, reached, move', same, before, late⟩ := back
              rw [same]
              exact .inr ⟨move :: early, later, reached, move', rfl, .cons moved before, late⟩

end VirtualClock

end EffectLoop
