import Mathlib.Algebra.BigOperators.Fin
import Mathlib.Data.Multiset.Bind

/-!
# Interleavings

Computations that run at the same time each do their part, and what happens as a whole interleaves
the parts.  An interleaving is given by a coloured list: the whole is what it lists, and the part of
a colour is what is listed in that colour.
-/

namespace EffectLoop

/-- The whole consists of the parts, each in its own order. -/
def Interleaves {α : Type} {count : Nat} (parts : Fin count → List α) (whole : List α) : Prop :=
  ∃ coloured : List (Fin count × α), coloured.map Prod.snd = whole ∧
    ∀ index, (coloured.filter fun entry => entry.1 = index).map Prod.snd = parts index

namespace Interleaves

variable {α β : Type} {count : Nat} {parts others : Fin count → List α} {whole other : List α}

theorem nil : Interleaves (fun _ : Fin count => ([] : List α)) [] := ⟨[], rfl, fun _ => rfl⟩

/-- First the one, then the other. -/
theorem append (first : Interleaves parts whole) (second : Interleaves others other) :
    Interleaves (fun index => parts index ++ others index) (whole ++ other) := by
  obtain ⟨coloured, rfl, same⟩ := first
  obtain ⟨further, rfl, sameFurther⟩ := second
  refine ⟨coloured ++ further, List.map_append, fun index => ?_⟩
  rw [List.filter_append, List.map_append, same, sameFurther]

/-- A single part on its own. -/
theorem solo (index : Fin count) (part : List α) :
    Interleaves (fun place => if place = index then part else []) part := by
  refine ⟨part.map fun value => (index, value), ?_, fun place => ?_⟩
  · simp only [List.map_map, Function.comp_def, List.map_id']
  · rw [List.filter_map]
    by_cases same : place = index
    · subst same
      simp [Function.comp_def]
    · simp [Function.comp_def, same, Ne.symm same]

/-- One after the other. -/
theorem ofFn (parts : Fin count → List α) : Interleaves parts (List.ofFn parts).flatten := by
  have some (order : List (Fin count)) (once : order.Nodup) :
      Interleaves (fun index => if index ∈ order then parts index else [])
        (order.map parts).flatten := by
    induction order with
    | nil => simpa using nil
    | cons head rest ih =>
        have joined := (solo head (parts head)).append (ih (List.nodup_cons.1 once).2)
        convert joined using 1
        · funext index
          by_cases same : index = head
          · subst same
            simp [(List.nodup_cons.1 once).1]
          · simp [same]
        · rfl
  have every := some (List.finRange count) (List.nodup_finRange count)
  simpa [List.ofFn_eq_map] using every

/-- What is left of the whole consists of what is left of the parts. -/
theorem filterMap (image : α → Option β) (interleaves : Interleaves parts whole) :
    Interleaves (fun index => (parts index).filterMap image) (whole.filterMap image) := by
  obtain ⟨coloured, rfl, same⟩ := interleaves
  let kept (entry : Fin count × α) : Option (Fin count × β) := (image entry.2).map (entry.1, ·)
  refine ⟨coloured.filterMap kept, ?_, fun index => ?_⟩
  · rw [List.map_filterMap, List.filterMap_map]
    congr 1
    funext entry
    cases found : image entry.2 <;> simp [kept, found]
  · dsimp only
    rw [← same, List.filterMap_map, List.filter_filterMap, List.map_filterMap, List.filterMap_filter]
    congr 1
    funext entry
    by_cases equal : entry.1 = index
    · cases found : image entry.2 <;> simp [kept, found, equal]
    · cases found : image entry.2 <;> simp [kept, found, equal]

/-- If every part is what is left of a source, the whole is what is left of an interleaving of the
sources. -/
theorem exists_of_filterMap (image : β → Option α) {sources : Fin count → List β}
    (interleaves : Interleaves (fun index => (sources index).filterMap image) whole) :
    ∃ source, Interleaves sources source ∧ source.filterMap image = whole := by
  obtain ⟨coloured, rfl, same⟩ := interleaves
  induction coloured generalizing sources with
  | nil =>
      refine ⟨_, ofFn sources, List.filterMap_eq_nil_iff.2 fun value within => ?_⟩
      obtain ⟨part, listed, inside⟩ := List.mem_flatten.1 within
      obtain ⟨index, rfl⟩ := List.mem_ofFn.1 listed
      exact List.filterMap_eq_nil_iff.1 (same index).symm value inside
  | cons entry rest ih =>
      obtain ⟨place, value⟩ := entry
      have head : (sources place).filterMap image =
          value :: (rest.filter fun entry => entry.1 = place).map Prod.snd := by
        refine (same place).symm.trans ?_
        simp
      obtain ⟨skipped, first, tail, split, none, made, left⟩ := List.filterMap_eq_cons_iff.1 head
      -- The part of the first colour loses its entries up to the first that is kept; the others stay.
      obtain ⟨source, interleaves, whole⟩ := @ih (Function.update sources place tail) fun index => by
        by_cases equal : index = place
        · subst equal
          simp [left]
        · simp [equal, ← same index, Ne.symm equal]
      refine ⟨skipped ++ first :: source, ?_, ?_⟩
      · have joined := (solo place (skipped ++ [first])).append interleaves
        convert joined using 1
        · funext index
          by_cases equal : index = place
          · subst equal
            simp [split]
          · simp [equal]
        · simp
      · rw [List.filterMap_append, List.filterMap_eq_nil_iff.2 none, List.filterMap_cons_some made, whole]
        rfl

/-- If every part is an image, the whole is the image of an interleaving of what they are images of.
-/
theorem exists_of_map (image : β → α) {sources : Fin count → List β}
    (interleaves : Interleaves (fun index => (sources index).map image) whole) :
    ∃ source, Interleaves sources source ∧ source.map image = whole := by
  simp only [← List.filterMap_eq_map] at interleaves ⊢
  exact interleaves.exists_of_filterMap (some ∘ image)

theorem sublist (interleaves : Interleaves parts whole) (index : Fin count) :
    (parts index).Sublist whole := by
  obtain ⟨coloured, rfl, same⟩ := interleaves
  rw [← same]
  exact List.filter_sublist.map Prod.snd

theorem coe_flatten_ofFn (parts : Fin count → List α) :
    ((List.ofFn parts).flatten : Multiset α) = ∑ index, (parts index : Multiset α) := by
  rw [← Multiset.coe_join, List.map_ofFn, Multiset.join, Multiset.sum_coe, List.sum_ofFn]
  rfl

/-- Nothing is lost, and nothing is added. -/
theorem perm (interleaves : Interleaves parts whole) :
    whole.Perm (List.ofFn parts).flatten := by
  obtain ⟨coloured, rfl, same⟩ := interleaves
  rw [← Multiset.coe_eq_coe, coe_flatten_ofFn]
  induction coloured generalizing parts with
  | nil => simp [← same]
  | cons entry rest ih =>
      obtain ⟨place, value⟩ := entry
      have step (index : Fin count) : (parts index : Multiset α) =
          (if place = index then {value} else 0) +
            ((rest.filter fun entry => entry.1 = index).map Prod.snd : Multiset α) := by
        rw [← same]
        by_cases equal : place = index
        · simp [equal]
        · simp [equal]
      simp only [step, Finset.sum_add_distrib, Finset.sum_ite_eq, Finset.mem_univ, if_true]
      rw [← ih fun _ => rfl]
      simp

end Interleaves

end EffectLoop
