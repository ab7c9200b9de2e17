import EffectLoop.Simulation.Tree
import Mathlib.Data.String.Basic

/-!
# Ordered values

The fields of an object are kept in increasing order of their keys, each key once.  A document as it
is read may hold fields in any order and keys twice; an *ordered* value does not, at any depth.

In an ordered value a key has at most one field, so that looking for the first field with a key and
looking for all of them come to the same.  Putting an ordered value in order leaves it as it is.
-/

namespace EffectLoop.Json

/-- Every object in the value lists its fields in increasing key order. -/
inductive Ordered : Json → Prop where
  | null : Ordered null
  | bool (value : Bool) : Ordered (bool value)
  | number (value : Number) : Ordered (number value)
  | string (value : String) : Ordered (string value)
  | array {items : List Json} : (∀ item ∈ items, Ordered item) → Ordered (array items)
  | object {fields : List (String × Json)} : fields.Pairwise (fun left right => left.1 < right.1) →
      (∀ field ∈ fields, Ordered field.2) → Ordered (object fields)

/-! ## Looking for a key -/

section Fields

variable {key : String} {fields : List (String × Json)} {value : Json}

theorem mem_of_field? (found : field? key fields = some value) : (key, value) ∈ fields := by
  induction fields with
  | nil => cases found
  | cons field rest ih =>
      rw [field?] at found
      split at found
      next same =>
          cases found
          rw [← same]
          exact List.mem_cons_self
      next => exact List.mem_cons_of_mem _ (ih found)

/-- No field has the key of a field that comes before it. -/
theorem fieldsNamed_eq_nil_of_lt (later : ∀ field ∈ fields, key < field.1) :
    Simulation.fieldsNamed key fields = [] := by
  simp only [Simulation.fieldsNamed, List.map_eq_nil_iff, List.filter_eq_nil_iff, decide_eq_true_eq]
  intro field within same
  exact absurd (same ▸ later field within) (lt_irrefl _)

/-- In increasing key order, a key has its first field and no other. -/
theorem fieldsNamed_eq_toList
    (increasing : fields.Pairwise fun left right => left.1 < right.1) :
    Simulation.fieldsNamed key fields = (field? key fields).toList := by
  induction fields with
  | nil => rfl
  | cons field rest ih =>
      rcases List.pairwise_cons.1 increasing with ⟨first, others⟩
      by_cases same : field.1 = key
      · have none : Simulation.fieldsNamed key rest = [] :=
          fieldsNamed_eq_nil_of_lt fun other within => same ▸ first other within
        simp only [Simulation.fieldsNamed] at none
        simp [Simulation.fieldsNamed, field?, same, none]
      · have ended := ih others
        simp only [Simulation.fieldsNamed] at ended
        simp [Simulation.fieldsNamed, field?, same, ended]

end Fields

namespace Ordered

variable {source value : Json} {key : String}

/-- A value under a key of an ordered value is ordered. -/
theorem get? (ordered : source.Ordered) (found : source.get? key = some value) : value.Ordered := by
  cases ordered with
  | object _ each => exact each _ (mem_of_field? found)
  | _ => cases found

end Ordered

/-! ## Putting a value in order -/

/-- A field whose key is the greatest comes last. -/
theorem insert_of_lt {key : String} {fields : List (String × Json)} (value : Json)
    (greater : ∀ field ∈ fields, field.1 < key) :
    insert key value fields = fields ++ [(key, value)] := by
  induction fields with
  | nil => rfl
  | cons field rest ih =>
      have before := greater field List.mem_cons_self
      rw [insert, if_neg before.ne', if_neg before.not_gt,
        ih fun other within => greater other (List.mem_cons_of_mem _ within)]
      rfl

theorem foldl_insert_of_pairwise {first rest : List (String × Json)}
    (increasing : (first ++ rest).Pairwise fun left right => left.1 < right.1) :
    rest.foldl (fun found field => insert field.1 field.2 found) first = first ++ rest := by
  induction rest generalizing first with
  | nil => exact (List.append_nil first).symm
  | cons field rest ih =>
      have before : ∀ other ∈ first, other.1 < field.1 := fun other within =>
        (List.pairwise_append.1 increasing).2.2 other within field List.mem_cons_self
      rw [List.append_cons] at increasing ⊢
      rw [List.foldl_cons, insert_of_lt field.2 before]
      exact ih increasing

/-- The object with fields that are in order already. -/
theorem ofFields_of_pairwise {fields : List (String × Json)}
    (increasing : fields.Pairwise fun left right => left.1 < right.1) :
    ofFields fields = object fields :=
  congrArg object (foldl_insert_of_pairwise increasing)

theorem normalizeItems_eq_map (items : List Json) : normalizeItems items = items.map normalize := by
  induction items with
  | nil => rfl
  | cons item rest ih => rw [normalizeItems, ih, List.map_cons]

theorem normalizeFields_eq_map (fields : List (String × Json)) :
    normalizeFields fields = fields.map fun field => (field.1, field.2.normalize) := by
  induction fields with
  | nil => rfl
  | cons field rest ih => rw [normalizeFields, ih, List.map_cons]

/-- An ordered value is in order. -/
theorem Ordered.normalize_eq {value : Json} (ordered : value.Ordered) : value.normalize = value := by
  induction ordered with
  | null | bool | number | string => rfl
  | array _ ih =>
      rw [normalize, normalizeItems_eq_map, List.map_congr_left ih, List.map_id']
  | @object fields increasing _ ih =>
      have same : ∀ field ∈ fields, (field.1, field.2.normalize) = field :=
        fun field within => Prod.ext rfl (ih field within)
      rw [normalize, normalizeFields_eq_map, List.map_congr_left same, List.map_id',
        ofFields_of_pairwise increasing]

end EffectLoop.Json
