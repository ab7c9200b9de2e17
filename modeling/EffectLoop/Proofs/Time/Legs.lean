import EffectLoop.Proofs.Time.Motion

/-!
# The legs of an advance

An advance takes queued work and due schedules from the clock, one leg after the other, until the
clock is at rest.  Which leg comes next depends on the target only as far as it decides what is due,
and it does not depend on the time that the clock shows.  So it is the same for a nearer target, as
long as anything is due up to there.
-/

namespace EffectLoop

variable {τ : Type}

namespace VirtualClock

/-! ## Schedules due up to a nearer target -/

/-- If anything satisfies the narrower condition, and what satisfies it fires before what satisfies
only the wider one, then the first schedule is the same for both. -/
theorem earliest?_filter {narrow wide : Timer τ → Bool} {timers : List (Timer τ)} {first : Timer τ}
    (widens : ∀ timer, narrow timer → wide timer)
    (before : ∀ early late, narrow early → ¬narrow late → wide late → early.before late)
    (found : earliest? (timers.filter narrow) = some first) :
    earliest? (timers.filter wide) = some first := by
  have asymmetric (early late : Timer τ) (narrowEarly : narrow early) (notNarrow : ¬narrow late)
      (wideLate : wide late) : ¬late.before early := by
    have earlier := before early late narrowEarly notNarrow wideLate
    rw [Timer.before_iff] at earlier ⊢
    omega
  induction timers generalizing first with
  | nil => cases found
  | cons timer rest ih =>
      by_cases isNarrow : narrow timer
      · rw [List.filter_cons_of_pos isNarrow] at found
        rw [List.filter_cons_of_pos (widens timer isNarrow)]
        simp only [earliest?] at found ⊢
        cases narrowFound : earliest? (rest.filter narrow) with
        | some other =>
            rw [narrowFound] at found
            rw [ih narrowFound]
            exact found
        | none =>
            rw [narrowFound] at found
            cases found
            -- The rest has only schedules that are later than this one.
            cases wideFound : earliest? (rest.filter wide) with
            | none => rfl
            | some other =>
                have among := List.mem_filter.1 (mem_of_earliest? wideFound)
                have notNarrow : ¬narrow other :=
                  List.filter_eq_nil_iff.1 (earliest?_eq_none_iff.1 narrowFound) other among.1
                exact congrArg some (if_neg (asymmetric timer other isNarrow notNarrow among.2))
      · rw [List.filter_cons_of_neg isNarrow] at found
        by_cases isWide : wide timer
        · have isFirst : narrow first := (List.mem_filter.1 (mem_of_earliest? found)).2
          rw [List.filter_cons_of_pos isWide, earliest?, ih found]
          exact congrArg some (if_pos (before first timer isFirst isNarrow isWide))
        · rw [List.filter_cons_of_neg isWide]
          exact ih found

variable {clock moved : VirtualClock τ} {midway target : Duration} {timer : Timer τ}

/-- What fires first up to a nearer target is what fires first. -/
theorem due?_of_le (nearer : midway ≤ target) (found : clock.due? midway = some timer) :
    clock.due? target = some timer := by
  refine earliest?_filter ?_ ?_ found
  · intro other
    simp only [decide_eq_true_eq, Duration.le_iff] at nearer ⊢
    omega
  · intro early late
    simp only [decide_eq_true_eq, Duration.le_iff, Timer.before_iff]
    omega

theorem due?_nearer (nearer : midway ≤ target) (found : clock.due? target = some timer) :
    clock.due? midway = some timer ∨ clock.due? midway = none := by
  cases early : clock.due? midway with
  | none => exact .inr rfl
  | some other =>
      left
      exact (due?_of_le nearer early).symm.trans found

/-- What is taken depends on the target only as far as it decides what is due. -/
theorem takeDue_of_due? (due : clock.due? midway = some timer)
    (dueThen : clock.due? target = some timer) : clock.takeDue target = clock.takeDue midway := by
  simp only [takeDue, due, dueThen]

/-- Taking a schedule overwrites the time that the clock shows. -/
theorem takeDue_arrive (due : clock.due? target = some timer) :
    (clock.arrive midway).takeDue target = clock.takeDue target := by
  have dueThen : (clock.arrive midway).due? target = some timer := due
  simp only [takeDue, due, dueThen]
  rfl

/-! ## Legs -/

/-- A leg of an advance: the work that it runs, and the time that the clock shows meanwhile. -/
inductive Leg (τ : Type) where
  | drained (now : Duration) (tasks : List τ)
  | fired (now : Duration) (timer : Timer τ)

/-- The work of a leg. -/
def Leg.tasks : Leg τ → List τ
  | drained _ tasks => tasks
  | fired _ timer => [timer.task]

/-- The move by which an advance up to the target takes a leg from the clock. -/
def Leg.move (target : Duration) : Leg τ → Move τ
  | drained _ _ => .drained
  | fired _ timer => .fired target timer

/-- An advance up to the target takes the work of a leg from the clock. -/
inductive Takes (clock : VirtualClock τ) (target : Duration) : Leg τ → VirtualClock τ → Prop where
  | drained : clock.spawned ≠ [] →
      Takes clock target (.drained clock.now clock.spawned) clock.takeSpawned.2
  | fired {moved : VirtualClock τ} {timer : Timer τ} : clock.spawned = [] →
      clock.due? target = some timer → clock.takeDue target = (.task timer.task, moved) →
      Takes clock target (.fired moved.now timer) moved

/-- An advance up to the target has nothing to take from the clock. -/
def AtRest (clock : VirtualClock τ) (target : Duration) : Prop :=
  clock.spawned = [] ∧ clock.due? target = none

/-- At rest up to the target is at rest up to a nearer one. -/
theorem AtRest.nearer (atRest : clock.AtRest target) (nearer : midway ≤ target) :
    clock.AtRest midway := by
  refine ⟨atRest.1, ?_⟩
  cases early : clock.due? midway with
  | none => rfl
  | some timer =>
      have due := due?_of_le nearer early
      rw [atRest.2] at due
      cases due

namespace Takes

variable {leg other : Leg τ} {last : VirtualClock τ}

/-- The next leg is determined by the clock. -/
theorem unique (takes : clock.Takes target leg moved) (again : clock.Takes target other last) :
    other = leg ∧ last = moved := by
  cases takes with
  | drained queued =>
      cases again with
      | drained _ => exact ⟨rfl, rfl⟩
      | fired idle _ _ => exact absurd idle queued
  | fired idle due taken =>
      cases again with
      | drained queued => exact absurd idle queued
      | fired _ dueAgain takenAgain =>
          rw [due] at dueAgain
          cases dueAgain
          rw [taken] at takenAgain
          cases takenAgain
          exact ⟨rfl, rfl⟩

theorem moves (takes : clock.Takes target leg moved) : Moves clock (leg.move target) moved := by
  cases takes with
  | drained queued => exact .drained queued
  | fired idle due taken => exact .fired idle due taken

theorem not_atRest (takes : clock.Takes target leg moved) : ¬clock.AtRest target := by
  rintro ⟨idle, noneDue⟩
  cases takes with
  | drained queued => exact queued idle
  | fired _ due _ =>
      rw [noneDue] at due
      cases due

/-- A leg towards a nearer target is one towards the target. -/
theorem further (takes : clock.Takes midway leg moved) (nearer : midway ≤ target) :
    clock.Takes target leg moved := by
  cases takes with
  | drained queued => exact .drained queued
  | fired idle due taken =>
      have dueThen := due?_of_le nearer due
      exact .fired idle dueThen ((takeDue_of_due? due dueThen).trans taken)

/-- A leg towards the target is one towards a nearer target, unless the clock is at rest there. -/
theorem nearer (takes : clock.Takes target leg moved) (nearer : midway ≤ target) :
    clock.Takes midway leg moved ∨ clock.AtRest midway := by
  cases takes with
  | drained queued => exact .inl (.drained queued)
  | fired idle due taken =>
      cases due?_nearer nearer due with
      | inl dueThen => exact .inl (.fired idle dueThen ((takeDue_of_due? due dueThen).trans taken))
      | inr noneDue => exact .inr ⟨idle, noneDue⟩

end Takes

/-- The time that a clock shows does not matter for the legs, if no work is queued. -/
theorem takes_arrive_iff {leg : Leg τ} (idle : clock.spawned = []) :
    (clock.arrive midway).Takes target leg moved ↔ clock.Takes target leg moved := by
  constructor
  · intro takes
    cases takes with
    | drained queued => exact absurd idle queued
    | fired _ due taken =>
        have dueBefore : clock.due? target = some _ := due
        exact .fired idle dueBefore ((takeDue_arrive dueBefore).symm.trans taken)
  · intro takes
    cases takes with
    | drained queued => exact absurd idle queued
    | fired _ due taken => exact .fired idle due ((takeDue_arrive due).trans taken)

end VirtualClock

end EffectLoop
