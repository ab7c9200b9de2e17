import EffectLoop.Json.Binary64

/-!
# Shortest decimal digits

The decimal text of a binary64 number uses the fewest significant digits that read back as the same
number, and of those the ones nearest to its value.  A number reads back exactly when the decimal
lies in the interval of reals that round to it; the ends belong to the interval when the
significand is even.
-/

namespace EffectLoop.Binary64

/-- A decimal `digits * 10 ^ exponent`. -/
structure Decimal where
  digits : Nat
  exponent : Int
  deriving DecidableEq

/-- The interval of reals that round to a magnitude, as numerators over `2 ^ (leastPower + 2)`. -/
structure Interval where
  low : Nat
  high : Nat
  closed : Bool

/-- The reals that round to `magnitude`.  Below a power of two the neighbour is half as far. -/
def interval (magnitude : Nat) : Interval :=
  let unit := Nat.pow 2 (shift magnitude)
  let centre := 4 * significand magnitude * unit
  let below := if magnitude % hiddenBit = 0 ∧ 1 < exponentField magnitude then unit else 2 * unit
  ⟨centre - below, centre + 2 * unit, significand magnitude % 2 = 0⟩

/-- Does the ratio lie in the interval? -/
def Interval.holds (found : Interval) (value : Ratio) : Bool :=
  let scaled := value.num * Nat.pow 2 (leastPower + 2)
  let low := found.low * value.den
  let high := found.high * value.den
  if found.closed then low ≤ scaled && scaled ≤ high else low < scaled && scaled < high

/-- The least `place ≤ limit` from `place` on with `num * 10 ^ place ≥ den`. -/
def leadingZeros (num den : Nat) : (limit : Nat) → Nat
  | 0 => 0
  | limit + 1 => if den ≤ num then 0 else leadingZeros (num * 10) den limit + 1

/-- The number of decimal digits of a natural number, zero having none. -/
def digitCount (value : Nat) : Nat :=
  if value = 0 then 0 else digitCount (value / 10) + 1
termination_by value

/-- The exponent `place` with `10 ^ (place - 1) ≤ value < 10 ^ place`, for a positive value. -/
def decimalPlace (value : Ratio) : Int :=
  if value.den ≤ value.num then digitCount (value.num / value.den)
  else 1 - (leadingZeros value.num value.den 400 : Int)

/-- The ratio `digits * 10 ^ exponent`. -/
def Decimal.ratio (found : Decimal) : Ratio :=
  match found.exponent with
  | .ofNat up => ⟨found.digits * Nat.pow 10 up, 1⟩
  | .negSucc down => ⟨found.digits, Nat.pow 10 (down + 1)⟩

/-- The greatest multiple of `10 ^ exponent` that is not above `value`, with its remainder. -/
def floorAt (value : Ratio) (exponent : Int) : Nat × Nat × Nat :=
  let scaled : Ratio := match exponent with
    | .ofNat up => ⟨value.num, value.den * Nat.pow 10 up⟩
    | .negSucc down => ⟨value.num * Nat.pow 10 (down + 1), value.den⟩
  (scaled.num / scaled.den, scaled.num % scaled.den, scaled.den)

/-- The decimal of `count` digits nearest to the value that still reads back, if there is one.  Of
two equally near ones the even one is taken. -/
def withDigits? (magnitude : Nat) (count : Nat) : Option Decimal :=
  let value := ratio magnitude
  let exponent := decimalPlace value - count
  let (below, rest, den) := floorAt value exponent
  let down : Decimal := ⟨below, exponent⟩
  let up : Decimal := ⟨below + 1, exponent⟩
  let room := interval magnitude
  match room.holds down.ratio, room.holds up.ratio with
  | true, true =>
      if 2 * rest < den ∨ (2 * rest = den ∧ below % 2 = 0) then some down else some up
  | true, false => some down
  | false, true => some up
  | false, false => none

/-- The first digit count from `count` on, at most 17, that has a decimal reading back. -/
def searchDigits (magnitude count : Nat) : (fuel : Nat) → Decimal
  | 0 => ⟨0, 0⟩
  | fuel + 1 =>
      match withDigits? magnitude count with
      | some found => found
      | none => searchDigits magnitude (count + 1) fuel

/-- Drop trailing zeros from the digits. -/
def Decimal.trim (found : Decimal) : Decimal :=
  if found.digits = 0 then found
  else if found.digits % 10 = 0 then Decimal.trim ⟨found.digits / 10, found.exponent + 1⟩
  else found
termination_by found.digits
decreasing_by omega

/-- The shortest decimal that reads back as `magnitude`. -/
def shortest (magnitude : Nat) : Decimal :=
  if magnitude = 0 then ⟨0, 0⟩ else (searchDigits magnitude 1 17).trim

/-- How the text of a number is laid out: the exponents written positionally, and the least number
of digits of a written exponent. -/
structure Layout where
  leastPositional : Int
  greatestPositional : Int
  exponentDigits : Nat

/-- JSON numbers are positional from `10 ^ -5` up to below `10 ^ 16`; beyond, the exponent carries
its sign and at least two digits. -/
def jsonLayout : Layout := ⟨-5, 15, 2⟩

/-- Zeros in front of a numeral up to the given width. -/
def padded (width value : Nat) : String :=
  let digits := toString value
  String.ofList (List.replicate (width - digits.length) '0') ++ digits

/-- The text of the decimal in the given layout; a whole number keeps a fraction digit. -/
def Decimal.text (found : Decimal) (layout : Layout) : String :=
  let digits := (toString found.digits).toList
  let count := digits.length
  let scientific := found.exponent + count - 1
  let zeros (count : Nat) := List.replicate count '0'
  if layout.leastPositional ≤ scientific ∧ scientific ≤ layout.greatestPositional then
    let point := scientific + 1
    if 0 ≤ found.exponent then
      String.ofList (digits ++ zeros found.exponent.toNat ++ ['.', '0'])
    else if 0 < point then
      String.ofList (digits.take point.toNat ++ '.' :: digits.drop point.toNat)
    else
      String.ofList ('0' :: '.' :: zeros (-point).toNat ++ digits)
  else
    let fraction := match digits.drop 1 with
      | [] => []
      | rest => '.' :: rest
    String.ofList (digits.take 1 ++ fraction) ++ (if scientific < 0 then "e-" else "e+") ++
      padded layout.exponentDigits scientific.natAbs

/-- The shortest text that reads back as the number. -/
def text (value : Binary64) : String :=
  (if value.negative then "-" else "") ++ (shortest value.magnitude).text jsonLayout

end EffectLoop.Binary64
