import EffectLoop.Proofs.Time.Legs

/-!
# Strained clocks

An advance re-arms a repeating schedule before it runs its work.  If the following due time is no
duration it cannot do that, and the schedule stays where it is: it is still the first to fire, so no
advance gets beyond it before it is cleared.

Whatever state a clock is in, an advance takes a leg from it, finds it at rest, or finds it strained.
-/

namespace EffectLoop

variable {τ : Type}

/-- The schedule repeats, and its following due time is no duration. -/
def Timer.Unbounded (timer : Timer τ) : Prop :=
  ∃ period, timer.period = some period ∧ timer.due.add? period = none

namespace VirtualClock

/-- No work is queued, and the schedule that fires first, of those due up to the target, cannot be
re-armed. -/
def Strained (clock : VirtualClock τ) (target : Duration) : Prop :=
  clock.spawned = [] ∧ ∃ timer, clock.due? target = some timer ∧ timer.Unbounded

variable {clock moved : VirtualClock τ} {target further : Duration} {timer : Timer τ} {leg : Leg τ}

/-- The schedule to fire is left as it was, and the clock has moved to its due time. -/
theorem takeDue_of_unbounded (found : clock.due? target = some timer)
    (unbounded : timer.Unbounded) :
    clock.takeDue target = (.overflow, { clock with now := timer.due }) := by
  obtain ⟨period, repeats, sum⟩ := unbounded
  simp only [takeDue, found, repeats, sum]

/-- A schedule that can be re-armed, or need not be, is taken. -/
theorem takeDue_of_not_unbounded (found : clock.due? target = some timer)
    (bounded : ¬timer.Unbounded) : ∃ moved, clock.takeDue target = (.task timer.task, moved) := by
  simp only [takeDue, found]
  cases repeats : timer.period with
  | none => exact ⟨_, rfl⟩
  | some period =>
      cases sum : timer.due.add? period with
      | none => exact absurd ⟨period, repeats, sum⟩ bounded
      | some due => simp [sum]

theorem takes_or_atRest_or_strained (clock : VirtualClock τ) (target : Duration) :
    (∃ leg moved, clock.Takes target leg moved) ∨ clock.AtRest target ∨ clock.Strained target := by
  by_cases idle : clock.spawned = []
  · cases found : clock.due? target with
    | none => exact .inr (.inl ⟨idle, found⟩)
    | some timer =>
        by_cases unbounded : timer.Unbounded
        · exact .inr (.inr ⟨idle, timer, found, unbounded⟩)
        · obtain ⟨moved, taken⟩ := takeDue_of_not_unbounded found unbounded
          exact .inl ⟨_, moved, .fired idle found taken⟩
  · exact .inl ⟨_, _, .drained idle⟩

namespace Strained

/-- A strained clock stays strained, wherever it is moved, for every advance that would go beyond the
schedule that cannot be re-armed. -/
theorem blocks (idle : clock.spawned = []) (found : clock.due? target = some timer)
    (unbounded : timer.Unbounded) (now : Duration) (beyond : timer.due ≤ further) :
    ({ clock with now } : VirtualClock τ).Strained further := by
  have due : clock.due? timer.due = some timer := by
    cases due?_nearer (mem_of_due? found).2 found with
    | inl due => exact due
    | inr noneDue =>
        have later := due?_eq_none_iff.1 noneDue timer (mem_of_due? found).1
        exact absurd later (Nat.lt_irrefl _)
  exact ⟨idle, timer, due?_of_le beyond due, unbounded⟩

end Strained

end VirtualClock

end EffectLoop
