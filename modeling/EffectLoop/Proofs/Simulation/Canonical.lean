import Mathlib.Data.List.InsertIdx
import Mathlib.Data.List.OfFn
import EffectLoop.Proofs.Simulation.Positions

/-!
# Canonical answers

A simulated command never answers with an empty list of actions: a list without actions answers
`nothing`, tags keep the number of actions, and a schedule with a creator has at least the action of its
creator.  So `nothing` is the only answer without actions.

A command that answers `nothing` applies no creator and no tagger, so it leaves no note either.  It can be
left out of a list, together with its entry.
-/

namespace EffectLoop

variable {S ι : Type} {Action : ι → Type} {A B : Type} {alphabet : ι}

theorem Noted.mapM_replicate_pure (count : Nat) (value : A) :
    (List.replicate count (pure value : Noted A)).mapM id = pure (List.replicate count value) := by
  induction count with
  | zero => rfl
  | succ count ih =>
      rw [List.replicate_succ, List.mapM_cons, ih]
      rfl

namespace Simulated

/-- The answer is no empty list of actions. -/
def Canonical (found : Simulated A) : Prop := found ≠ many []

theorem canonical_ofList (actions : List A) : (ofList actions).Canonical := by
  cases actions <;> nofun

theorem canonical_ofOption (action : Option A) : (ofOption action).Canonical := by
  cases action <;> nofun

theorem isNothing_iff {found : Simulated A} : found.isNothing = true ↔ found = nothing := by
  cases found <;> simp [isNothing]

theorem ofOption_eq_nothing_iff {action : Option A} : ofOption action = nothing ↔ action = none := by
  cases action <;> simp [ofOption]

theorem ofList_eq_nothing_iff {actions : List A} : ofList actions = nothing ↔ actions = [] := by
  cases actions <;> simp [ofList]

theorem mapNoted_value_eq_nothing_iff {tagger : A → Noted B} {found : Simulated A} :
    (found.mapNoted tagger).value = nothing ↔ found = nothing := by
  cases found <;> simp [mapNoted]

namespace Canonical

variable {found : Simulated A} (canonical : found.Canonical)
include canonical

/-- Tagging keeps the number of actions. -/
theorem mapNoted (tagger : A → Noted B) : (found.mapNoted tagger).value.Canonical := by
  cases found with
  | nothing => nofun
  | one action => simp [Canonical, Simulated.mapNoted]
  | many actions =>
      cases actions with
      | nil => exact absurd rfl canonical
      | cons action rest => simp [Canonical, Simulated.mapNoted]

theorem toList_eq_nil_iff : found.toList = [] ↔ found = nothing := by
  cases found with
  | nothing => exact iff_of_true rfl rfl
  | one action => exact iff_of_false nofun nofun
  | many actions =>
      have some : actions ≠ [] := fun empty => canonical (congrArg many empty)
      exact iff_of_false some nofun

end Canonical

end Simulated

namespace Simulation

/-- The outcomes assumed for a list, without the one at a position. -/
def without (index : Nat) : Option Simulation → Option Simulation
  | some (many entries) => some (many (entries.eraseIdx index))
  | tree => tree

theorem entries_without (index : Nat) (tree : Option Simulation) :
    entries (without index tree) = (entries tree).eraseIdx index := by
  cases tree with
  | none => rfl
  | some tree => cases tree <;> rfl

end Simulation

namespace RunSpec

variable (spec : RunSpec S Action A)

theorem successAction_of_none {value : Json} (silent : (spec.successAction value).value = none) :
    spec.successAction value = pure none := by
  unfold successAction at silent ⊢
  cases given : spec.onSuccess with
  | none => rfl
  | some creator =>
      rw [given] at silent
      cases silent

theorem failureAction_of_none {cause : RunFailure} (silent : (spec.failureAction cause).value = none) :
    spec.failureAction cause = pure none := by
  unfold failureAction at silent ⊢
  cases given : spec.onFail with
  | none => rfl
  | some creator =>
      rw [given] at silent
      cases silent

/-- A simulated RUN answers with at most one action.  Without one, no creator has been applied. -/
theorem exists_action (tree : Option Simulation) :
    ∃ action : Noted (Option A), spec.simulate tree = Simulated.ofOption <$> action ∧
      (action.value = none → action = pure none) := by
  cases tree with
  | none => exact ⟨pure none, rfl, fun _ => rfl⟩
  | some tree =>
      cases tree with
      | scheduled handle nested => exact ⟨pure none, rfl, fun _ => rfl⟩
      | many entries => exact ⟨pure none, rfl, fun _ => rfl⟩
      | run result success =>
          cases success with
          | true => exact ⟨spec.successAction result, rfl, spec.successAction_of_none⟩
          | false => exact ⟨spec.failureAction (.failed result), rfl, spec.failureAction_of_none⟩

end RunSpec

namespace Cmd

/-- No command answers with an empty list of actions. -/
theorem canonical_simulate (cmd : Cmd S Action alphabet) (tree : Option Simulation) :
    (cmd.simulate tree).value.Canonical := by
  induction cmd generalizing tree with
  | none | action => nofun
  | run spec =>
      obtain ⟨action, same, -⟩ := spec.exists_action tree
      rw [simulate, same]
      exact Simulated.canonical_ofOption action.value
  | list cmds sequence batch ih => exact Simulated.canonical_ofList _
  | map nested tagger args ih => exact (ih tree).mapNoted (tagger args)
  | scheduled nested delay repeating onScheduled ih =>
      cases onScheduled with
      | none => exact ih _
      | some creator => simp [simulate, Simulated.Canonical]

/-- A command that answers `nothing` leaves no note. -/
theorem simulate_of_nothing {cmd : Cmd S Action alphabet} {tree : Option Simulation}
    (nothing : (cmd.simulate tree).value = .nothing) : cmd.simulate tree = pure .nothing := by
  induction cmd generalizing tree with
  | none => rfl
  | action sent => cases nothing
  | run spec =>
      obtain ⟨action, same, silent⟩ := spec.exists_action tree
      rw [simulate, same] at nothing ⊢
      rw [silent (Simulated.ofOption_eq_nothing_iff.1 nothing)]
      rfl
  | list cmds sequence batch ih =>
      have empty := List.flatMap_eq_nil_iff.1 (Simulated.ofList_eq_nothing_iff.1 nothing)
      rw [Noted.mapM_value, List.forall_mem_map, List.forall_mem_ofFn_iff] at empty
      have each (index) : (cmds index).simulate (Simulation.entry? index tree) = pure .nothing :=
        ih index (((cmds index).canonical_simulate _).toList_eq_nil_iff.1 (empty index))
      simp only [simulate, each, List.ofFn_const, Noted.mapM_replicate_pure, pure_bind]
      rw [List.flatMap_eq_nil_iff.2 fun found within => by rw [List.eq_of_mem_replicate within]; rfl]
      rfl
  | map nested tagger args ih =>
      rw [simulate, ih (Simulated.mapNoted_value_eq_nothing_iff.1 nothing)]
      rfl
  | scheduled nested delay repeating onScheduled ih =>
      cases onScheduled with
      | none =>
          simp only [simulate, bind_pure]
          exact ih nothing
      | some creator => cases nothing

/-- A command that answers `nothing` can be left out of a list, together with its entry. -/
theorem simulate_omit {cmd : Cmd S Action alphabet} {before : List (Cmd S Action alphabet)}
    {tree : Option Simulation}
    (nothing : (cmd.simulate (Simulation.entry? before.length tree)).value = .nothing)
    (after : List (Cmd S Action alphabet)) (sequence batch : Bool) :
    (ofList (before ++ cmd :: after) sequence batch).simulate tree =
      (ofList (before ++ after) sequence batch).simulate (Simulation.without before.length tree) := by
  have silent := simulate_of_nothing nothing
  rw [Simulation.entry?_eq_getElem?, ← List.head?_drop] at silent
  have early : simulateAll before ((Simulation.entries tree).eraseIdx before.length) =
      simulateAll before (Simulation.entries tree) := by
    rw [← simulateAll_take, List.take_eraseIdx_eq_take_of_le _ _ _ le_rfl, simulateAll_take]
  have late : ((Simulation.entries tree).eraseIdx before.length).drop before.length =
      ((Simulation.entries tree).drop before.length).tail := by
    apply List.ext_getElem?
    intro place
    have beyond : ¬before.length + place < before.length := by omega
    rw [List.getElem?_drop, List.getElem?_eraseIdx, if_neg beyond, List.getElem?_tail,
      List.getElem?_drop, Nat.add_assoc]
  rw [simulate_ofList, simulate_ofList, Simulation.entries_without, simulateAll_append,
    simulateAll_append, early, late, simulateAll, silent]
  simp only [pure_bind, Simulated.toList, List.nil_append, bind_pure]

/-- Simulated answers are canonical.  Whatever the tree, or without one, no command answers with an empty
list of actions, so `nothing` is the answer of those that produce no action and of no others.  A command
that answers `nothing` contributes nothing to a list that it stands in, wherever it stands: the list
gives the same without the command and its entry. -/
theorem answers_canonically (cmd : Cmd S Action alphabet) (tree : Option Simulation) :
    (cmd.simulate tree).value ≠ .many [] ∧
      ((cmd.simulate tree).value.isNothing = true ↔ (cmd.simulate tree).value.toList = []) ∧
      ((cmd.simulate tree).value.isNothing = true →
        ∀ (before after : List (Cmd S Action alphabet)) (sequence batch : Bool)
          (whole : Option Simulation), Simulation.entry? before.length whole = tree →
          (ofList (before ++ cmd :: after) sequence batch).simulate whole =
            (ofList (before ++ after) sequence batch).simulate
              (Simulation.without before.length whole)) := by
  have canonical := cmd.canonical_simulate tree
  refine ⟨canonical, ?_, ?_⟩
  · rw [Simulated.isNothing_iff, canonical.toList_eq_nil_iff]
  · rintro nothing before after sequence batch whole rfl
    exact simulate_omit (Simulated.isNothing_iff.1 nothing) after sequence batch

namespace Placing

/-- A nested list of commands that produce nothing, tagged. -/
def fruitless : Cmd Unit (fun _ : Unit => Nat) () :=
  .map (ofList [.none, asking 1] false true) (fun _ action => pure (action + 10)) []

/-- The inner command fails. -/
def failure : Simulation := .many [.run .null true, .run .null false]

/-- The entries of a list with the nested one in the middle. -/
def around : Option Simulation := some (.many [.run .null true, failure, .run .null true])

/-- Left out of a list, the nested one takes its entry with it. -/
theorem answers_canonically_around :
    (fruitless.simulate (some failure)).value.isNothing = true ∧
      Simulation.entry? [asking 2].length around = some failure ∧
      ((ofList ([asking 2] ++ [asking 4]) true false).simulate
        (Simulation.without 1 around)).value.toList = [2, 4] ∧
      (ofList ([asking 2] ++ fruitless :: [asking 4]) true false).simulate around =
        (ofList ([asking 2] ++ [asking 4]) true false).simulate (Simulation.without 1 around) := by
  have nothing : (fruitless.simulate (some failure)).value.isNothing = true := by decide +kernel
  obtain ⟨-, -, omitted⟩ := answers_canonically fruitless (some failure)
  exact ⟨nothing, rfl, by decide +kernel, omitted nothing [asking 2] [asking 4] true false around rfl⟩

end Placing

end Cmd

end EffectLoop
