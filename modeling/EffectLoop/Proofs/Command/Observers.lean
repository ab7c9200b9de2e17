import Mathlib.Data.List.OfFn
import EffectLoop.Command.Observer

/-!
# Nests of observers

Observers are combined by filters and by tees, in any nesting.  A nest has its recording leaves, from left
to right, and each leaf has the filters that enclose it.  What the nest delivers for an observation is one
record for each leaf all of whose filters accept the observation, in the order of the leaves
(`Nest.delivers_to_leaves`).  So it does not matter whether a filter stands in front of a tee or in front
of each of its members, nor whether tees are nested.
-/

namespace EffectLoop

variable {A : Type}

/-! ## Filters -/

/-- A filter of observations. -/
inductive Sieve (A : Type) where
  /-- Accept the observations of the chosen sorts. -/
  | sorts (dispatches effects : Bool)
  /-- Accept the observations that satisfy a predicate. -/
  | predicate (passes : Observation A → Bool)

namespace Sieve

/-- Does the filter let an observation through? -/
def accepts : Sieve A → Observation A → Bool
  | sorts dispatches _, .dispatch _ => dispatches
  | sorts _ effects, .effect _ => effects
  | predicate passes, seen => passes seen

/-- An observer behind a filter. -/
def guard (wrapped : Observer A) : Sieve A → Observer A
  | sorts dispatches effects => wrapped.filtered dispatches effects
  | predicate passes => wrapped.filteredBy passes

/-- Either kind of filter passes on what it accepts, and delivers nothing for the rest. -/
theorem guard_apply (sieve : Sieve A) (wrapped : Observer A) (seen : Observation A) :
    sieve.guard wrapped seen = if sieve.accepts seen then wrapped seen else [] := by
  cases sieve with
  | sorts dispatches effects => cases seen <;> rfl
  | predicate passes => rfl

/-- A filter in front of a tee filters each of its members. -/
theorem guard_tee (sieve : Sieve A) (observers : List (Observer A)) :
    sieve.guard (.tee observers) = .tee (observers.map sieve.guard) := by
  funext seen
  simp only [guard_apply, Observer.tee, List.flatMap_map]
  split
  · rfl
  · simp

end Sieve

/-- A tee among the observers of another one may be replaced by its own observers. -/
theorem Observer.tee_tee (before inner after : List (Observer A)) :
    tee (before ++ tee inner :: after) = tee (before ++ inner ++ after) := by
  funext seen
  simp only [tee, List.flatMap_append, List.flatMap_cons, List.append_assoc]

/-! ## Nests -/

/-- How an observer is put together. -/
inductive Nest (A : Type) where
  /-- A recording observer. -/
  | recording (label : String)
  /-- An observer that does nothing. -/
  | silent
  | filtered (wrapped : Nest A) (dispatches effects : Bool)
  | filteredBy (wrapped : Nest A) (passes : Observation A → Bool)
  | tee {count : Nat} (members : Fin count → Nest A)

/-- A recording leaf of a nest. -/
structure Leaf (A : Type) where
  label : String
  /-- The filters that enclose the leaf, from the outside in. -/
  sieves : List (Sieve A)

namespace Leaf

/-- The leaf with one more filter around it. -/
def behind (sieve : Sieve A) (leaf : Leaf A) : Leaf A := { leaf with sieves := sieve :: leaf.sieves }

/-- All filters around the leaf accept the observation. -/
def Receives (leaf : Leaf A) (seen : Observation A) : Prop := ∀ sieve ∈ leaf.sieves, sieve.accepts seen

instance (leaf : Leaf A) (seen : Observation A) : Decidable (leaf.Receives seen) :=
  inferInstanceAs (Decidable (∀ sieve ∈ leaf.sieves, sieve.accepts seen))

/-- What the leaf records. -/
def record (seen : Observation A) (leaf : Leaf A) : Delivery A := .record leaf.label seen

theorem receives_behind_iff {sieve : Sieve A} {leaf : Leaf A} {seen : Observation A} :
    (leaf.behind sieve).Receives seen ↔ sieve.accepts seen ∧ leaf.Receives seen :=
  List.forall_mem_cons

end Leaf

namespace Nest

/-- The observer that a nest describes. -/
def observer : Nest A → Observer A
  | recording label => .recording label
  | silent => .silent
  | filtered wrapped dispatches effects => wrapped.observer.filtered dispatches effects
  | filteredBy wrapped passes => wrapped.observer.filteredBy passes
  | tee members => .tee (List.ofFn fun index => (members index).observer)

/-- The recording leaves, from left to right. -/
def leaves : Nest A → List (Leaf A)
  | recording label => [⟨label, []⟩]
  | silent => []
  | filtered wrapped dispatches effects =>
      wrapped.leaves.map (Leaf.behind (.sorts dispatches effects))
  | filteredBy wrapped passes => wrapped.leaves.map (Leaf.behind (.predicate passes))
  | tee members => (List.ofFn fun index => (members index).leaves).flatten

/-- One record for each of the leaves that receive an observation. -/
def records (leaves : List (Leaf A)) (seen : Observation A) : List (Delivery A) :=
  (leaves.filter (·.Receives seen)).map (Leaf.record seen)

/-- Behind a filter, the leaves receive what the filter accepts. -/
theorem records_behind (sieve : Sieve A) (leaves : List (Leaf A)) (seen : Observation A) :
    records (leaves.map (Leaf.behind sieve)) seen =
      if sieve.accepts seen then records leaves seen else [] := by
  simp only [records, List.filter_map, List.map_map, Function.comp_def, Leaf.receives_behind_iff]
  split
  next accepted =>
    simp only [accepted, true_and]
    rfl
  next refused => simp [refused]

theorem records_flatten (parts : List (List (Leaf A))) (seen : Observation A) :
    records parts.flatten seen = parts.flatMap fun leaves => records leaves seen := by
  rw [records, List.filter_flatten, List.map_flatten, List.map_map]
  rfl

/-- A nest delivers one record for each of its leaves that receive the observation. -/
theorem observer_apply (nest : Nest A) (seen : Observation A) :
    nest.observer seen = records nest.leaves seen := by
  induction nest with
  | recording label => rfl
  | silent => rfl
  | filtered wrapped dispatches effects ih =>
      rw [leaves, records_behind, ← ih]
      exact Sieve.guard_apply (.sorts dispatches effects) wrapped.observer seen
  | filteredBy wrapped passes ih =>
      rw [leaves, records_behind, ← ih]
      exact Sieve.guard_apply (.predicate passes) wrapped.observer seen
  | tee members ih =>
      rw [leaves, records_flatten, observer, Observer.tee, List.flatMap_def, List.flatMap_def,
        List.map_ofFn, List.map_ofFn]
      simp only [Function.comp_def, ih]

/-- Composed observers deliver to exactly the right leaves, in order.  For every observation, a nest
delivers one record for each of the recording leaves all of whose enclosing filters accept it, from left to
right, and nothing else.  Therefore a filtered tee is the tee of the filtered observers, for both kinds of
filter, and nested tees flatten. -/
theorem delivers_to_leaves (nest : Nest A) :
    (∀ seen, nest.observer seen =
      (nest.leaves.filter fun leaf => leaf.Receives seen).map fun leaf => .record leaf.label seen) ∧
    (∀ (observers : List (Observer A)) (dispatches effects : Bool),
      (Observer.tee observers).filtered dispatches effects =
        .tee (observers.map fun observer => observer.filtered dispatches effects)) ∧
    (∀ (observers : List (Observer A)) (passes : Observation A → Bool),
      (Observer.tee observers).filteredBy passes =
        .tee (observers.map fun observer => observer.filteredBy passes)) ∧
    ∀ before inner after : List (Observer A),
      Observer.tee (before ++ .tee inner :: after) = .tee (before ++ inner ++ after) :=
  ⟨nest.observer_apply, fun observers dispatches effects =>
      Sieve.guard_tee (.sorts dispatches effects) observers,
    fun observers passes => Sieve.guard_tee (.predicate passes) observers, Observer.tee_tee⟩

end Nest

end EffectLoop
