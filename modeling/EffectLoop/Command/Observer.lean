import EffectLoop.Command.Basic

/-!
# Observers

A store tells its observer about every dispatched action and about every command it executes
itself. An observer decides what to deliver for an observation; observers are combined by filters
and by tees.
-/

namespace EffectLoop

/-- What a store tells. -/
inductive Observation (A : Type) where
  | dispatch (action : A)
  | effect (kind : Cmd.Kind)

/-- What an observer delivers. -/
inductive Delivery (A : Type) where
  /-- A record under a label. -/
  | record (label : String) (seen : Observation A)
  /-- A line for the log. -/
  | trace (seen : Observation A)

/-- An observer answers an observation with its deliveries, in order. -/
abbrev Observer (A : Type) := Observation A → List (Delivery A)

namespace Observer

variable {A : Type}

/-- Deliver nothing. -/
def silent : Observer A := fun _ => []

/-- Record every observation under a label. -/
def recording (label : String) : Observer A := fun seen => [.record label seen]

/-- Write every observation to the log. -/
def tracing : Observer A := fun seen => [.trace seen]

/-- Pass on the observations of the chosen sorts. -/
def filtered (wrapped : Observer A) (dispatches effects : Bool) : Observer A
  | .dispatch action => if dispatches then wrapped (.dispatch action) else []
  | .effect kind => if effects then wrapped (.effect kind) else []

/-- Pass on the observations that satisfy a predicate. -/
def filteredBy (wrapped : Observer A) (passes : Observation A → Bool) : Observer A := fun seen =>
  if passes seen then wrapped seen else []

/-- Call several observers in order. -/
def tee (observers : List (Observer A)) : Observer A := fun seen =>
  observers.flatMap fun observer => observer seen

end Observer

end EffectLoop
