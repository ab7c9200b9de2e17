import EffectLoop.Text.Outline

/-!
# Durations

A duration is a whole number of nanoseconds whose seconds fit in 64 bits.  Addition is partial: a
sum of too many seconds is no duration.
-/

namespace EffectLoop

namespace Duration

/-- Nanoseconds in a second. -/
def second : Nat := 1000000000

/-- Nanoseconds in a millisecond. -/
def millisecond : Nat := 1000000

/-- The first number of nanoseconds that is no duration: `2 ^ 64` seconds. -/
def limit : Nat := 18446744073709551616 * second

end Duration

/-- A span of time, to the nanosecond. -/
structure Duration where
  nanos : Nat
  representable : nanos < Duration.limit
  deriving DecidableEq

namespace Duration

@[ext] theorem ext {left right : Duration} (same : left.nanos = right.nanos) : left = right := by
  cases left
  cases right
  cases same
  rfl

instance : LE Duration := ⟨fun left right => left.nanos ≤ right.nanos⟩
instance : LT Duration := ⟨fun left right => left.nanos < right.nanos⟩

instance (left right : Duration) : Decidable (left ≤ right) :=
  inferInstanceAs (Decidable (left.nanos ≤ right.nanos))

instance (left right : Duration) : Decidable (left < right) :=
  inferInstanceAs (Decidable (left.nanos < right.nanos))

theorem le_iff {left right : Duration} : left ≤ right ↔ left.nanos ≤ right.nanos := Iff.rfl

theorem lt_iff {left right : Duration} : left < right ↔ left.nanos < right.nanos := Iff.rfl

/-- The duration of the given nanoseconds, if there is one. -/
def ofNanos? (nanos : Nat) : Option Duration :=
  if representable : nanos < limit then some ⟨nanos, representable⟩ else none

/-- No time at all. -/
def zero : Duration := ⟨0, by decide⟩

instance : Inhabited Duration := ⟨zero⟩

/-- One millisecond. -/
def oneMillisecond : Duration := ⟨millisecond, by decide⟩

/-- The duration of the given milliseconds, if there is one. -/
def ofMillis? (millis : Nat) : Option Duration := ofNanos? (millis * millisecond)

/-- The duration of the given seconds and further nanoseconds, if there is one. -/
def ofParts? (secs nanos : Nat) : Option Duration := ofNanos? (secs * second + nanos)

/-- The sum, if it is a duration. -/
def add? (left right : Duration) : Option Duration := ofNanos? (left.nanos + right.nanos)

/-- The longer of two durations. -/
def longer (left right : Duration) : Duration := if left ≤ right then right else left

/-- Whole seconds. -/
def secs (value : Duration) : Nat := value.nanos / second

/-- Nanoseconds beyond the whole seconds. -/
def subsecNanos (value : Duration) : Nat := value.nanos % second

/-- The least whole number of milliseconds that is not shorter, if it is a duration. -/
def ceilMillis? (value : Duration) : Option Duration :=
  ofMillis? ((value.nanos + (millisecond - 1)) / millisecond)

@[simp] theorem zero_nanos : zero.nanos = 0 := rfl

theorem ofNanos?_eq_some_iff {nanos : Nat} {value : Duration} :
    ofNanos? nanos = some value ↔ value.nanos = nanos := by
  constructor
  · intro found
    simp only [ofNanos?] at found
    split at found
    · cases found
      rfl
    · cases found
  · intro same
    subst same
    simp only [ofNanos?, value.representable, ↓reduceDIte]

theorem add?_eq_some_iff {left right sum : Duration} :
    left.add? right = some sum ↔ sum.nanos = left.nanos + right.nanos :=
  ofNanos?_eq_some_iff

/-- `count / unit` as a decimal with exactly the fraction digits it needs, where `unit` is a power
of ten with `places` zeros. -/
def decimal (count unit places : Nat) : String :=
  let digits := (toString (count % unit)).toList
  let padded := List.replicate (places - digits.length) '0' ++ digits
  let fraction := (padded.reverse.dropWhile (· = '0')).reverse
  toString (count / unit) ++
    (if fraction.isEmpty then "" else "." ++ String.ofList fraction)

/-- The duration in its largest unit that is not longer: seconds, milliseconds, microseconds or
nanoseconds. -/
def text (value : Duration) : String :=
  if second ≤ value.nanos then decimal value.nanos second 9 ++ "s"
  else if millisecond ≤ value.nanos then decimal value.nanos millisecond 6 ++ "ms"
  else if 1000 ≤ value.nanos then decimal value.nanos 1000 3 ++ "µs"
  else toString value.nanos ++ "ns"

/-- The outline of a duration is its text. -/
def outline (value : Duration) : Outline := .atom value.text

end Duration

/-- The period at which a repeating schedule runs.  A zero delay means as often as possible, which
is once in a millisecond. -/
def repeatPeriod (delay : Duration) : Duration := delay.longer .oneMillisecond

/-- A repeating schedule never runs more often than once in a millisecond. -/
theorem oneMillisecond_le_repeatPeriod (delay : Duration) :
    Duration.oneMillisecond ≤ repeatPeriod delay := by
  unfold repeatPeriod Duration.longer
  split
  · exact Nat.le_refl _
  · rename_i longer
    exact Nat.le_of_lt (Nat.lt_of_not_le longer)

end EffectLoop
