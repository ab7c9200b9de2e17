import Mathlib.Data.List.FinRange
import Mathlib.Data.List.OfFn
import Mathlib.Data.List.Forall2
import EffectLoop.World.Poll

/-!
# Families of computations

A join is over when each of its children is; its results are those of the children, in their places.
-/

namespace EffectLoop

variable {S ι : Type} {Action : ι → Type} {A α β : Type} {answer : Answer ι}

/-- The members of a family are replaced one after the other. -/
theorem of_update_each {count : Nat} {good : (Fin count → α) → Prop} {items lefts : Fin count → α}
    (start : good items)
    (step : ∀ now index, good now → now index = items index ∨ now index = lefts index →
      good (Function.update now index (lefts index))) : good lefts := by
  have some (members : List (Fin count)) :
      good fun index => if index ∈ members then lefts index else items index := by
    induction members with
    | nil => simpa using start
    | cons member rest ih =>
        have now : (if member ∈ rest then lefts member else items member) = items member ∨
            (if member ∈ rest then lefts member else items member) = lefts member := by
          split
          · exact .inr rfl
          · exact .inl rfl
        convert step _ member ih now using 1
        funext index
        by_cases same : index = member
        · simp [same]
        · simp [same, Function.update_of_ne]
  simpa using some (List.finRange count)

theorem map_eq_ofFn_get (image : α → β) (values : List α) :
    values.map image = List.ofFn fun index => image (values.get index) := by
  conv_lhs => rw [← List.ofFn_get values, List.map_ofFn]
  rfl

/-- The family of the images of the members of a list, with its number of members. -/
theorem sigma_get_map (image : α → β) (values : List α) :
    (⟨_, (values.map image).get⟩ : Σ count, Fin count → β) =
      ⟨values.length, fun index => image (values.get index)⟩ := by
  rw [map_eq_ofFn_get]
  exact List.equivSigmaTuple.right_inv ⟨values.length, fun index => image (values.get index)⟩

theorem ofFn_get_eq_toList {count : Nat} (values : Vector α count) :
    List.ofFn values.get = values.toList := by
  apply List.ext_getElem
  · simp
  · intro index inside _
    simp [Vector.get]

theorem forall₂_ofFn {related : α → β → Prop} {count : Nat} {left : Fin count → α}
    {right : Fin count → β} (each : ∀ index, related (left index) (right index)) :
    List.Forall₂ related (List.ofFn left) (List.ofFn right) := by
  induction count with
  | zero => simp
  | succ count ih =>
      rw [List.ofFn_succ, List.ofFn_succ]
      exact .cons (each 0) (ih fun index => each index.succ)

theorem forall₂_of_mapM_eq_some {each : α → Option β} {values : List α} {found : List β}
    (same : values.mapM each = some found) :
    List.Forall₂ (fun value image => each value = some image) values found := by
  induction values generalizing found with
  | nil =>
      cases same
      exact .nil
  | cons value rest ih =>
      rw [List.mapM_cons] at same
      rcases Option.bind_eq_some_iff.1 same with ⟨image, first, others⟩
      rcases Option.bind_eq_some_iff.1 others with ⟨images, tail, whole⟩
      cases whole
      exact .cons first (ih tail)

theorem Pending.result?_eq_some_iff {program : Pending S Action A answer}
    {value : answer.Value Action} : program.result? = some value ↔ program = .done value := by
  constructor
  · intro found
    cases program with
    | done result =>
        cases found
        rfl
    | _ => cases found
  · intro done
    rw [done]
    rfl

theorem results?_eq_some_iff {count : Nat} {children : Vector (Pending S Action A answer) count}
    {results : Vector (answer.Value Action) count} :
    results? children = some results ↔ ∀ index, children.get index = .done (results.get index) := by
  constructor
  · intro complete index
    have arrays : Vector.toArray <$> results? children = children.toArray.mapM Pending.result? :=
      Vector.toArray_mapM
    rw [complete, Array.mapM_eq_mapM_toList] at arrays
    have lists : children.toArray.toList.mapM Pending.result? = some results.toArray.toList := by
      have listed := congrArg (Array.toList <$> ·) arrays
      simpa using listed.symm
    have each :=
      (List.forall₂_iff_get.1 (forall₂_of_mapM_eq_some lists)).2 index (by simp) (by simp)
    exact Pending.result?_eq_some_iff.1 each
  · intro each
    have done : children = results.map .done := by
      ext index inside
      rw [Vector.getElem_map]
      exact each ⟨index, inside⟩
    calc results? children
        = results.mapM fun value => pure (id value) := by rw [done, results?, Vector.mapM_map]; rfl
      _ = some results := by rw [Vector.mapM_pure, Vector.map_id]; rfl

theorem results?_map_done {count : Nat} (values : Vector (answer.Value Action) count) :
    results? (values.map Pending.done : Vector (Pending S Action A answer) count) = some values := by
  rw [results?_eq_some_iff]
  intro index
  exact Vector.getElem_map Pending.done index.isLt

theorem done_of_results? {count : Nat} {children : Vector (Pending S Action A answer) count}
    {results : Vector (answer.Value Action) count} (complete : results? children = some results)
    (index : Fin count) : children.get index = .done (results.get index) :=
  results?_eq_some_iff.1 complete index

/-- A family that is not over has a member that is not. -/
theorem exists_of_results?_eq_none {count : Nat} {children : Vector (Pending S Action A answer) count}
    (incomplete : results? children = none) : ∃ index, (children.get index).result? = none := by
  by_contra complete
  have done (index) : ∃ value, children.get index = .done value := by
    cases result : (children.get index).result? with
    | none => exact absurd ⟨index, result⟩ complete
    | some value => exact ⟨value, Pending.result?_eq_some_iff.1 result⟩
  choose values same using done
  have all : results? children = some (Vector.ofFn values) := by
    apply results?_eq_some_iff.2
    intro index
    rw [same index]
    exact congrArg Pending.done (Vector.getElem_ofFn index.isLt).symm
  rw [incomplete] at all
  cases all

/-! ## Joins of none and of one -/

theorem results?_nil :
    results? (#v[] : Vector (Pending S Action A answer) 0) = some #v[] := by
  rw [results?_eq_some_iff]
  exact fun index => index.elim0

theorem results?_single (value : answer.Value Action) :
    results? #v[(.done value : Pending S Action A answer)] = some #v[value] := by
  rw [results?_eq_some_iff]
  intro index
  rw [Fin.fin_one_eq_zero index]
  rfl

theorem results?_single_eq_none {left : Pending S Action A answer} (goesOn : left.result? = none) :
    results? #v[left] = none := by
  cases complete : results? #v[left] with
  | none => rfl
  | some results =>
      have done : left = .done results[0] := done_of_results? complete 0
      rw [done] at goesOn
      cases goesOn

namespace Engine

variable (engine : Engine S Action A) (waiter : Waiter)
variable {world after : World S Action A}

theorem pollJoin_none (ticket : Option Nat) (children : Fin 0 → Pending S Action A answer)
    (each : Fin 0 → Run S Action A (Pending S Action A answer)) :
    engine.pollJoin waiter ticket children each world = (.ok (ticket, #v[]), world) := by
  simp only [pollJoin, Nat.zero_le, if_true, Vector.ofFnM_zero]
  rfl

theorem pollJoin_single_eq (ticket : Option Nat) (children : Fin 1 → Pending S Action A answer)
    (each : Fin 1 → Run S Action A (Pending S Action A answer)) :
    engine.pollJoin waiter ticket children each =
      each 0 >>= fun left => pure (ticket, #v[left]) := by
  have small : 1 ≤ Rally.smallJoin := by decide
  simp [pollJoin, small, Vector.ofFnM_succ, Vector.ofFnM_zero]

theorem pollJoin_single (ticket : Option Nat) (children : Fin 1 → Pending S Action A answer)
    {each : Fin 1 → Run S Action A (Pending S Action A answer)} {left : Pending S Action A answer}
    (polled : each 0 world = (.ok left, after)) :
    engine.pollJoin waiter ticket children each world = (.ok (ticket, #v[left]), after) := by
  rw [pollJoin_single_eq, Run.bind_of_ok polled]
  rfl

end Engine

end EffectLoop
