import EffectLoop.Proofs.Program.Terms
import Mathlib.SetTheory.Ordinal.Rank
import Mathlib.Data.DFinsupp.WellFounded

/-!
# Coming to an end

A pending computation is a well-founded tree, so it cannot go on doing things for ever, in whatever
order its children are polled.  Together with the terms, under which it can be completed from wherever
it has got to, this is what it means to resolve.

For a join the argument is on all children at once.  What some of them have left has a smaller rank
than before, and what the others have left has no larger one.
-/

namespace EffectLoop

namespace Pending

variable {S ι : Type} {Action : ι → Type} {A : Type} {answer child : Answer ι}
variable {program left : Pending S Action A answer} {journal : List (Act S A)}

/-- Something was done, and this is left. -/
def Onward (left program : Pending S Action A answer) : Prop :=
  ∃ journal, journal ≠ [] ∧ program.Does journal left

theorem Onward.of_does {last : Pending S Action A answer} (onward : Onward last left)
    (does : program.Does journal left) : Onward last program := by
  rcases onward with ⟨later, some, after⟩
  exact ⟨journal ++ later, List.append_ne_nil_of_right_ne_nil _ some, does.trans after⟩

theorem Does.acc (does : program.Does journal left) (acc : Acc Onward program) :
    Acc Onward left := by
  constructor
  intro last onward
  exact acc.inv (onward.of_does does)

theorem Does.rank_le (does : program.Does journal left) (acc : Acc Onward program)
    (leftAcc : Acc Onward left) : leftAcc.rank ≤ acc.rank := by
  rw [leftAcc.rank_eq]
  apply Ordinal.iSup_le
  rintro ⟨last, onward⟩
  exact Order.succ_le_of_lt (acc.rank_lt_of_rel (onward.of_does does))

theorem Does.rank_lt (does : program.Does journal left) (some : journal ≠ [])
    (acc : Acc Onward program) (leftAcc : Acc Onward left) : leftAcc.rank < acc.rank :=
  acc.rank_lt_of_rel ⟨journal, some, does⟩

/-! ## Joins -/

/-- Some of the children have done something, and this is left of all of them. -/
def OnwardTogether {count : Nat} (left children : Fin count → Pending S Action A child) : Prop :=
  ∃ parts : Fin count → List (Act S A), (∀ index, (children index).Does (parts index) (left index)) ∧
    ∃ index, parts index ≠ []

theorem acc_together {count : Nat} {children : Fin count → Pending S Action A child}
    (each : ∀ index, Acc Onward (children index)) : Acc OnwardTogether children := by
  -- By induction on the ranks of all children, ordered componentwise.
  generalize same : (fun index => (each index).rank) = ranks
  induction ranks using WellFoundedLT.induction generalizing children with
  | ind ranks ih =>
      constructor
      rintro left ⟨parts, does, mover, moved⟩
      have leftAcc (index : Fin count) : Acc Onward (left index) := (does index).acc (each index)
      have smaller : (fun index => (leftAcc index).rank) < ranks := by
        rw [← same, Pi.lt_def]
        constructor
        · intro index
          exact (does index).rank_le (each index) (leftAcc index)
        · exact ⟨mover, (does mover).rank_lt moved (each mover) (leftAcc mover)⟩
      exact ih _ smaller leftAcc rfl

theorem acc_join {count : Nat} {ticket : Option Nat} {children : Fin count → Pending S Action A child}
    {next : (Fin count → child.Value Action) → Pending S Action A answer}
    (childrenAcc : Acc OnwardTogether children) (nextAcc : ∀ values, Acc Onward (next values)) :
    Acc Onward (.join ticket children next) := by
  induction childrenAcc generalizing ticket with
  | intro children _ ih =>
      constructor
      rintro left ⟨journal, some, does⟩
      cases does with
      | rest => exact absurd rfl some
      | joining does interleaves =>
          apply ih _ ⟨_, does, ?_⟩
          by_contra none
          push Not at none
          rw [funext none] at interleaves
          exact some (List.Perm.nil_eq (by simpa using interleaves.perm.symm)).symm
      | join _ _ after => exact after.acc (nextAcc _)

/-! ## All programs -/

/-- What is waited for does not count. -/
theorem acc_settling {count : Nat} {ticket : Option Nat}
    {caused : Fin count → Pending S Action A .settled}
    {next : Except CmdFailure Unit → Pending S Action A answer}
    (nextAcc : ∀ reply, Acc Onward (next reply)) : Acc Onward (.settling ticket caused next) := by
  constructor
  rintro left ⟨journal, some, does⟩
  cases does with
  | rest => exact absurd rfl some
  | waiting => exact absurd rfl some
  | settled reply after => exact after.acc (nextAcc reply)

/-- No computation goes on doing things for ever. -/
theorem acc_onward (program : Pending S Action A answer) : Acc Onward program := by
  induction program with
  | done value =>
      constructor
      rintro left ⟨journal, some, does⟩
      cases does
      exact absurd rfl some
  | call effect next ih =>
      constructor
      rintro left ⟨journal, some, does⟩
      cases does with
      | rest => exact absurd rfl some
      | call reply after => exact after.acc (ih reply)
  | send action keep next ih =>
      constructor
      rintro left ⟨journal, some, does⟩
      cases does with
      | rest => exact absurd rfl some
      | send after => exact after.acc ih
  | schedule delay repeating task next _ ih =>
      constructor
      rintro left ⟨journal, some, does⟩
      cases does with
      | rest => exact absurd rfl some
      | schedule handle after => exact after.acc (ih handle)
  | spawn task next _ ih =>
      constructor
      rintro left ⟨journal, some, does⟩
      cases does with
      | rest => exact absurd rfl some
      | spawn after => exact after.acc ih
  | wait gate next ih =>
      constructor
      rintro left ⟨journal, some, does⟩
      cases does with
      | rest => exact absurd rfl some
      | wait after => exact after.acc ih
  | resumeAt moment next ih =>
      constructor
      rintro left ⟨journal, some, does⟩
      cases does with
      | rest => exact absurd rfl some
      | resumeAt after => exact after.acc ih
  | sendAll actions next ih =>
      constructor
      rintro left ⟨journal, some, does⟩
      cases does with
      | rest => exact absurd rfl some
      | sending => exact acc_settling ih
      | sendAll reply after => exact after.acc (ih reply)
  | settling ticket caused next _ ih => exact acc_settling ih
  | join ticket children next childrenIH ih => exact acc_join (acc_together childrenIH) ih
  | advanceTo target ticket driven next _ ih =>
      constructor
      rintro left ⟨journal, some, does⟩
      cases does with
      | rest => exact absurd rfl some
      | advancing => exact absurd rfl some
      | advanceTo after => exact after.acc ih
  | interval handle period due task running _ _ =>
      constructor
      rintro left ⟨journal, some, does⟩
      cases does with
      | rest => exact absurd rfl some
      | interval => exact absurd rfl some

/-- Whatever happens, the computation comes to an end: it cannot go on doing things for ever, and
from wherever it has got to it can be completed. -/
structure Resolves (program : Pending S Action A answer) : Prop where
  wellFounded : Acc Onward program
  completes : ∀ journal left, program.Does journal left → ∃ later value, left.Completes later value

/-- A program resolves that sends nothing and may not go on for ever. -/
theorem Meets.resolves [Nonempty S] {terms : Terms S Action A} {post : answer.Value Action → Prop}
    (meets : program.Meets terms post) (silent : ¬ terms.sends) (ends : ¬ terms.endless)
    (settles : ∃ reply, terms.reply reply) : program.Resolves := by
  constructor
  · exact acc_onward program
  · intro journal left does
    have leftMeets := (meets.of_does silent does).1
    rcases leftMeets.exists_completes ends settles with ⟨later, value, completes, _⟩
    exact ⟨later, value, completes⟩

end Pending

end EffectLoop
