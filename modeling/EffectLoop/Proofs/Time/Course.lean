import Mathlib.Algebra.Ring.Nat
import EffectLoop.Proofs.Time.Motion

/-!
# One advance at a time

The course of a clock that at most one advance drives at a time.  Schedules and spawned work come and go
as they please; the advance takes a piece of work from the clock, or a batch, and takes nothing more
before all of that is over.

On such a course schedules fire in the order of their due times and handles, each at its due time and
after all work that was handed over before, and an advance leaves nothing behind that was due.  What
carries the order is that all that has fired comes before all that is still registered.
-/

namespace EffectLoop

namespace VirtualClock

variable {τ : Type}

/-- An advance that is under way. -/
structure Advance where
  span : Duration
  target : Duration
  /-- How many pieces of work it waits for. -/
  working : Nat

/-- What happens to a clock or to an advance. -/
inductive Occurrence (τ : Type) where
  | moved (move : Move τ)
  /-- An advance begins. -/
  | begun (span : Duration)
  /-- All that the advance waits for is over, this many pieces of work. -/
  | completed (count : Nat)

/-- What happened, and the clock afterwards. -/
structure Entry (τ : Type) where
  what : Occurrence τ
  clock : VirtualClock τ

/-- A history, the latest first, with the clock that it leads to and the advance under way. -/
inductive Course : List (Entry τ) → VirtualClock τ → Option Advance → Prop where
  | fresh : Course [] .initial none
  | aside {history clock advance move after} : Course history clock advance →
      Moves clock move after → move.IsAside → Course (⟨.moved move, after⟩ :: history) after advance
  | begun {history clock span target} : Course history clock none →
      clock.now.add? span = some target →
      Course (⟨.begun span, clock⟩ :: history) clock (some ⟨span, target, 0⟩)
  | completed {history clock span target working} :
      Course history clock (some ⟨span, target, working⟩) →
      Course (⟨.completed working, clock⟩ :: history) clock (some ⟨span, target, 0⟩)
  | drained {history clock span target after} : Course history clock (some ⟨span, target, 0⟩) →
      Moves clock .drained after →
      Course (⟨.moved .drained, after⟩ :: history) after (some ⟨span, target, clock.queued⟩)
  | fired {history clock span target timer after} : Course history clock (some ⟨span, target, 0⟩) →
      Moves clock (.fired target timer) after →
      Course (⟨.moved (.fired target timer), after⟩ :: history) after (some ⟨span, target, 1⟩)
  | arrived {history clock span target after} : Course history clock (some ⟨span, target, 0⟩) →
      Moves clock (.arrived target) after →
      Course (⟨.moved (.arrived target), after⟩ :: history) after none

/-! ## What a history tells -/

namespace Entry

/-- The schedule that has fired. -/
@[simp] def fired? : Entry τ → Option (Timer τ)
  | ⟨.moved (.fired _ timer), _⟩ => some timer
  | _ => none

/-- Has a handle been used up? -/
@[simp] def issues : Entry τ → Nat
  | ⟨.moved (.scheduled _ _ _), _⟩ => 1
  | _ => 0

/-- The work that was started by firing, or handed over to be started. -/
@[simp] def handsOver : Entry τ → Nat
  | ⟨.moved (.spawned _), _⟩ => 1
  | ⟨.moved (.fired _ _), _⟩ => 1
  | _ => 0

/-- The work that was completed. -/
@[simp] def completes : Entry τ → Nat
  | ⟨.completed count, _⟩ => count
  | _ => 0

/-- Does an advance end here? -/
def Arrives : Entry τ → Prop
  | ⟨.moved (.arrived _), _⟩ => True
  | _ => False

end Entry

/-- The schedules that have fired, the latest first. -/
def firings (history : List (Entry τ)) : List (Timer τ) := history.filterMap Entry.fired?

/-- How many handles were used up. -/
def issuedIn (history : List (Entry τ)) : Nat := (history.map Entry.issues).sum

/-- How many pieces of work were fired or spawned. -/
def handedOver (history : List (Entry τ)) : Nat := (history.map Entry.handsOver).sum

/-- How many pieces of work were completed. -/
def completedIn (history : List (Entry τ)) : Nat := (history.map Entry.completes).sum

/-- How the clock fires its schedules. -/
structure Disciplined (history : List (Entry τ)) : Prop where
  /-- Firings are ordered by due time, then by handle, as long as handles of 64 bits last. -/
  ordered : issuedIn history < 2 ^ 64 →
    (firings history).Pairwise fun later earlier => earlier.before later
  /-- A schedule fires at its due time. -/
  punctual : ∀ target timer clock, ⟨.moved (.fired target timer), clock⟩ ∈ history →
    clock.now = timer.due
  /-- When a schedule fires, all that was fired or spawned before is completed. -/
  patient : ∀ target timer clock earlier,
    ⟨.moved (.fired target timer), clock⟩ :: earlier <:+ history →
    completedIn earlier = handedOver earlier
  /-- When an advance ends, the clock shows the time at which it began plus the span, and nothing is
  left that is due. -/
  complete : ∀ target clock between span start earlier,
    ⟨.moved (.arrived target), clock⟩ :: (between ++ ⟨.begun span, start⟩ :: earlier) <:+ history →
    (∀ entry ∈ between, ¬entry.Arrives) →
    start.now.add? span = some clock.now ∧ (∀ timer ∈ clock.timers, clock.now < timer.due) ∧
      clock.queued = 0

section

variable {history : List (Entry τ)} {clock : VirtualClock τ} {advance : Option Advance}

@[simp] theorem issuedIn_cons (entry : Entry τ) :
    issuedIn (entry :: history) = entry.issues + issuedIn history := by
  simp [issuedIn]

@[simp] theorem handedOver_cons (entry : Entry τ) :
    handedOver (entry :: history) = entry.handsOver + handedOver history := by
  simp [handedOver]

@[simp] theorem completedIn_cons (entry : Entry τ) :
    completedIn (entry :: history) = entry.completes + completedIn history := by
  simp [completedIn]

/-! ## Work -/

/-- No work is lost: what was handed over is completed, under way, or queued. -/
theorem Course.balance (course : Course history clock advance) :
    completedIn history + (advance.map Advance.working).getD 0 + clock.spawned.length =
      handedOver history := by
  induction course with
  | fresh => rfl
  | @aside _ _ _ move _ _ moved aside ih =>
      rw [moved.spawned_eq]
      cases move with
      | scheduled | cleared => simpa using ih
      | spawned task =>
          simp
          omega
      | drained | fired | strained | arrived => cases aside
  | begun _ _ ih => simpa using ih
  | completed _ ih =>
      simp at ih ⊢
      omega
  | drained _ moved ih =>
      rw [moved.spawned_eq]
      simpa [queued] using ih
  | fired _ moved ih =>
      rw [moved.spawned_eq]
      simp [moved.of_fired.1] at ih ⊢
      omega
  | arrived _ moved ih =>
      rw [moved.spawned_eq]
      simpa using ih

/-! ## Order -/

/-- How a clock with handles of 64 bits stands after a history: what has fired comes before all that is
still registered, and before all that can still be registered. -/
structure Standing (history : List (Entry τ)) (clock : VirtualClock τ) : Prop where
  sound : clock.Sound
  counted : clock.issued.toNat = issuedIn history
  issued : ∀ timer ∈ clock.timers, timer.handle.id.toNat ≤ clock.issued.toNat
  positive : ∀ timer ∈ clock.timers, ∀ period, timer.period = some period → 0 < period.nanos
  past : ∀ fired ∈ firings history,
    fired.due ≤ clock.now ∧ fired.handle.id.toNat ≤ clock.issued.toNat
  ahead : ∀ fired ∈ firings history, ∀ timer ∈ clock.timers, fired.before timer
  ordered : (firings history).Pairwise fun later earlier => earlier.before later
  shown : ∀ entry ∈ history, entry.clock.now ≤ clock.now

theorem initial_standing : Standing [] (initial : VirtualClock τ) where
  sound := initial_sound
  counted := rfl
  issued := by simp [initial]
  positive := by simp [initial]
  past := by simp [firings]
  ahead := by simp [firings]
  ordered := by simp [firings]
  shown := by simp

theorem mem_firings_cons {entry : Entry τ} {fired : Timer τ} :
    fired ∈ firings (entry :: history) ↔ entry.fired? = some fired ∨ fired ∈ firings history := by
  simp only [firings, List.mem_filterMap, List.mem_cons, exists_eq_or_imp]

/-- What is no firing, and uses up no handle, changes nothing. -/
theorem Standing.same {entry : Entry τ} (standing : Standing history clock)
    (silent : entry.fired? = none) (unissued : entry.issues = 0) (same : entry.clock = clock) :
    Standing (entry :: history) clock := by
  have still : firings (entry :: history) = firings history := List.filterMap_cons_none silent
  exact {
    sound := standing.sound
    counted := by
      rw [issuedIn_cons, unissued, Nat.zero_add]
      exact standing.counted
    issued := standing.issued
    positive := standing.positive
    past := by simpa [still] using standing.past
    ahead := by simpa [still] using standing.ahead
    ordered := by simpa [still] using standing.ordered
    shown := by
      intro other within
      cases List.mem_cons.1 within with
      | inl now => rw [now, same]; exact Nat.le_refl _
      | inr earlier => exact standing.shown other earlier }

section Move

variable {move : Move τ} {after : VirtualClock τ}
variable (standing : Standing history clock) (step : Moves clock move after)
variable (few : issuedIn (⟨.moved move, after⟩ :: history) < 2 ^ 64)
include standing step few

/-- As long as handles do not run out, each is one more than the last. -/
theorem Standing.issued_moved : after.issued.toNat =
    (⟨.moved move, after⟩ : Entry τ).issues + clock.issued.toNat := by
  rw [step.issued_eq]
  rw [issuedIn_cons, ← standing.counted] at few
  cases move with
  | scheduled =>
      simp [UInt64.toNat_add] at few ⊢
      omega
  | cleared | spawned | drained | fired | strained | arrived => simp

/-- Every schedule that has fired comes before every schedule that is registered after the move. -/
theorem Standing.before_moved {fired other : Timer τ}
    (past : fired ∈ firings (⟨.moved move, after⟩ :: history)) (within : other ∈ after.timers) :
    fired.before other := by
  have issued := standing.issued_moved step few
  rw [step.issued_eq] at issued
  cases mem_firings_cons.1 past with
  | inl now =>
      cases move with
      | fired target timer =>
          cases now
          have found := step.of_fired.2
          cases step.origin within with
          | kept old different =>
              exact Timer.before_of_not_before (not_before_of_due? found old)
                (different target fired rfl)
          | deferred old same repeats sum =>
              have positive := standing.positive fired (mem_of_due? found).1 _ repeats
              rw [Duration.add?_eq_some_iff] at sum
              rw [Timer.before_iff]
              dsimp only
              omega
      | scheduled | cleared | spawned | drained | strained | arrived => cases now
  | inr earlier =>
      obtain ⟨due, handle⟩ := standing.past fired earlier
      cases step.origin within with
      | kept old _ => exact standing.ahead fired earlier other old
      | made later _ =>
          rw [Timer.before_iff]
          rw [Duration.le_iff] at due later
          simp at issued ⊢
          omega
      | deferred old same repeats sum =>
          have first := (mem_of_due? step.of_fired.2).1
          have ahead := standing.ahead fired earlier _ first
          have positive := standing.positive _ first _ repeats
          rw [Duration.add?_eq_some_iff] at sum
          rw [Timer.before_iff] at ahead ⊢
          dsimp only
          omega

theorem Standing.moved (timely : clock.now ≤ after.now) :
    Standing (⟨.moved move, after⟩ :: history) after where
  sound := step.sound standing.sound
  counted := by
    rw [standing.issued_moved step few, standing.counted, issuedIn_cons]
  issued := by
    intro other within
    have issued := standing.issued_moved step few
    cases step.origin within with
    | kept old _ =>
        have known := standing.issued other old
        omega
    | made _ _ =>
        rw [step.issued_eq]
        exact Nat.le_refl _
    | @deferred _ _ _ _ before old _ _ _ =>
        have known := standing.issued before old
        dsimp only
        omega
  positive := by
    intro other within
    cases step.origin within with
    | kept old _ => exact standing.positive other old
    | made _ positive => exact positive
    | @deferred _ _ _ _ before old _ _ _ => exact standing.positive before old
  past := by
    intro fired past
    have issued := standing.issued_moved step few
    cases mem_firings_cons.1 past with
    | inl now =>
        cases move with
        | fired target timer =>
            cases now
            have known := standing.issued fired (mem_of_due? step.of_fired.2).1
            rw [step.now_eq]
            exact ⟨Nat.le_refl _, by omega⟩
        | scheduled | cleared | spawned | drained | strained | arrived => cases now
    | inr earlier =>
        obtain ⟨due, handle⟩ := standing.past fired earlier
        exact ⟨Nat.le_trans due timely, by omega⟩
  ahead := fun fired past other within => standing.before_moved step few past within
  ordered := by
    cases move with
    | fired target timer =>
        have first := (mem_of_due? step.of_fired.2).1
        exact .cons (fun fired earlier => standing.ahead fired earlier timer first) standing.ordered
    | scheduled | cleared | spawned | drained | strained | arrived => exact standing.ordered
  shown := by
    intro other within
    cases List.mem_cons.1 within with
    | inl now => rw [now]; exact Nat.le_refl _
    | inr earlier => exact Nat.le_trans (standing.shown other earlier) timely

end Move

/-- What a course of fewer than `2 ^ 64` schedules leads to.  The clock does not go beyond the target of
the advance. -/
theorem Course.standing (course : Course history clock advance) (few : issuedIn history < 2 ^ 64) :
    Standing history clock ∧
      ∀ target, advance.map Advance.target = some target → clock.now ≤ target := by
  induction course with
  | fresh => exact ⟨initial_standing, by simp⟩
  | @aside history _ _ move after _ step aside ih =>
      obtain ⟨standing, within⟩ := ih (by rw [issuedIn_cons] at few; omega)
      have still := step.now_eq
      cases move with
      | scheduled | cleared | spawned =>
          refine ⟨standing.moved step few (Nat.le_of_eq (congrArg Duration.nanos still.symm)), ?_⟩
          rw [still]
          exact within
      | drained | fired | strained | arrived => cases aside
  | @begun _ clock span ahead _ sum ih =>
      obtain ⟨standing, _⟩ := ih (by simpa using few)
      refine ⟨standing.same rfl rfl rfl, ?_⟩
      intro target same
      cases same
      rw [Duration.add?_eq_some_iff] at sum
      change clock.now.nanos ≤ ahead.nanos
      omega
  | completed _ ih =>
      obtain ⟨standing, within⟩ := ih (by simpa using few)
      refine ⟨standing.same rfl rfl rfl, ?_⟩
      intro target same
      cases same
      exact within _ rfl
  | drained _ step ih =>
      obtain ⟨standing, within⟩ := ih (by simpa using few)
      have still := step.now_eq
      refine ⟨standing.moved step few (Nat.le_of_eq (congrArg Duration.nanos still.symm)), ?_⟩
      intro target same
      cases same
      rw [still]
      exact within _ rfl
  | fired _ step ih =>
      obtain ⟨standing, _⟩ := ih (by simpa using few)
      have found := step.of_fired.2
      have shown := step.now_eq
      refine ⟨standing.moved step few ?_, ?_⟩
      · rw [shown]
        exact standing.sound.le_of_due? found
      · intro target same
        cases same
        rw [shown]
        exact (mem_of_due? found).2
  | arrived _ step ih =>
      obtain ⟨standing, within⟩ := ih (by simpa using few)
      refine ⟨standing.moved step few ?_, by simp⟩
      rw [step.now_eq]
      exact within _ rfl

/-- Moves aside, the latest first, with the clocks that they leave. -/
inductive Asides : VirtualClock τ → List (Entry τ) → VirtualClock τ → Prop where
  | nil (clock : VirtualClock τ) : Asides clock [] clock
  | cons {clock middle after : VirtualClock τ} {entries : List (Entry τ)} {move : Move τ} :
      Asides clock entries middle → Moves middle move after → move.IsAside →
      Asides clock (⟨.moved move, after⟩ :: entries) after

/-- The clock does not move meanwhile. -/
theorem Asides.now_eq {entries : List (Entry τ)} {after : VirtualClock τ}
    (asides : Asides clock entries after) : after.now = clock.now := by
  induction asides with
  | nil => rfl
  | @cons _ _ _ move _ step aside ih =>
      rw [step.now_eq, ← ih]
      cases move with
      | scheduled | cleared | spawned => rfl
      | drained | fired | strained | arrived => cases aside

theorem Path.asides {moves : List (Move τ)} {after : VirtualClock τ} (path : Path clock moves after)
    (aside : ∀ move ∈ moves, move.IsAside) : ∃ entries, Asides clock entries after := by
  have further {start : VirtualClock τ} {entries : List (Entry τ)} (before : Asides start entries clock) :
      ∃ entries, Asides start entries after := by
    induction path generalizing entries with
    | nil clock => exact ⟨entries, before⟩
    | cons step _ ih =>
        exact ih (fun move within => aside move (List.mem_cons_of_mem _ within))
          (.cons before step (aside _ List.mem_cons_self))
  exact further (.nil clock)

theorem Course.asides {entries : List (Entry τ)} {after : VirtualClock τ}
    (course : Course history clock advance) (asides : Asides clock entries after) :
    Course (entries ++ history) after advance := by
  induction asides with
  | nil => exact course
  | cons _ step aside ih => exact .aside ih step aside

/-! ## Discipline -/

theorem Course.tail {entry : Entry τ} (course : Course (entry :: history) clock advance) :
    ∃ clock advance, Course history clock advance := by
  cases course with
  | aside before _ _ => exact ⟨_, _, before⟩
  | begun before _ => exact ⟨_, _, before⟩
  | completed before => exact ⟨_, _, before⟩
  | drained before _ => exact ⟨_, _, before⟩
  | fired before _ => exact ⟨_, _, before⟩
  | arrived before _ => exact ⟨_, _, before⟩

/-- What led to an earlier history is a course as well. -/
theorem Course.of_append {later earlier : List (Entry τ)}
    (course : Course (later ++ earlier) clock advance) :
    ∃ clock advance, Course earlier clock advance := by
  induction later generalizing clock advance with
  | nil => exact ⟨clock, advance, course⟩
  | cons entry later ih =>
      obtain ⟨_, _, before⟩ := course.tail
      exact ih before

/-- Until it ends, the advance that has begun is under way, and its target stays what it was. -/
theorem Course.under_way {between earlier : List (Entry τ)} {span : Duration}
    {start : VirtualClock τ}
    (course : Course (between ++ ⟨.begun span, start⟩ :: earlier) clock advance)
    (going : ∀ entry ∈ between, ¬entry.Arrives) :
    ∃ target working, advance = some ⟨span, target, working⟩ ∧
      start.now.add? span = some target := by
  induction between generalizing clock advance with
  | nil =>
      cases course with
      | begun _ sum => exact ⟨_, 0, rfl, sum⟩
  | cons entry between ih =>
      have rest (entry) (within : entry ∈ between) : ¬entry.Arrives :=
        going entry (List.mem_cons_of_mem _ within)
      cases course with
      | aside before _ _ => exact ih before rest
      | begun before _ =>
          obtain ⟨_, _, same, _⟩ := ih before rest
          cases same
      | completed before =>
          obtain ⟨_, _, same, sum⟩ := ih before rest
          cases same
          exact ⟨_, 0, rfl, sum⟩
      | drained before _ =>
          obtain ⟨_, _, same, sum⟩ := ih before rest
          cases same
          exact ⟨_, _, rfl, sum⟩
      | fired before _ =>
          obtain ⟨_, _, same, sum⟩ := ih before rest
          cases same
          exact ⟨_, 1, rfl, sum⟩
      | arrived _ _ => exact (going _ List.mem_cons_self trivial).elim

theorem Course.disciplined (course : Course history clock advance) : Disciplined history where
  ordered few := (course.standing few).1.ordered
  punctual := by
    intro target timer after within
    obtain ⟨later, earlier, same⟩ := List.append_of_mem within
    rw [same] at course
    obtain ⟨_, _, part⟩ := course.of_append
    cases part with
    | aside _ _ aside => cases aside
    | fired _ step => exact step.now_eq
  patient := by
    intro target timer after earlier suffix
    obtain ⟨later, same⟩ := suffix
    rw [← same] at course
    obtain ⟨_, _, part⟩ := course.of_append
    cases part with
    | aside _ _ aside => cases aside
    | fired before step => simpa [step.of_fired.1] using before.balance
  complete := by
    intro target after between span start earlier suffix going
    obtain ⟨later, same⟩ := suffix
    rw [← same] at course
    obtain ⟨_, _, part⟩ := course.of_append
    cases part with
    | aside _ _ aside => cases aside
    | arrived before step =>
        obtain ⟨_, _, same, sum⟩ := before.under_way going
        cases same
        obtain ⟨idle, kept, none_due⟩ := step.of_arrived
        rw [step.now_eq, kept, queued, step.spawned_eq]
        exact ⟨sum, none_due, congrArg List.length idle⟩

end

end VirtualClock

end EffectLoop
