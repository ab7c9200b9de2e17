/-!
# Finite binary64 numbers

A finite IEEE 754 double is kept as its sign and its magnitude, the 63 bits under the sign read as
one natural number.  All arithmetic is exact arithmetic on natural numbers followed by one rounding
to nearest, ties to even, so nothing here depends on the hardware.

`roundRatio` is the only place where rounding happens.  The operations a decimal reader needs
(`times`, `dividedBy`) are stated through it.
-/

namespace EffectLoop

namespace Binary64

/-- The value of the hidden bit of a significand, `2 ^ 52`. -/
def hiddenBit : Nat := 4503599627370496

/-- Magnitudes from this one on stand for infinity: the exponent field is full. -/
def infinite : Nat := 2047 * hiddenBit

end Binary64

/-- A finite binary64 number: a sign and a magnitude below that of infinity. -/
structure Binary64 where
  negative : Bool
  magnitude : Nat
  finite : magnitude < Binary64.infinite
  deriving DecidableEq

namespace Binary64

/-- The least power of two that a significand can count is `2 ^ -leastPower`. -/
def leastPower : Nat := 1074

/-- The exponent field of a magnitude. -/
def exponentField (magnitude : Nat) : Nat := magnitude / hiddenBit

/-- The integer significand of a magnitude; the hidden bit is present from exponent field 1 on. -/
def significand (magnitude : Nat) : Nat :=
  if exponentField magnitude = 0 then magnitude % hiddenBit else hiddenBit + magnitude % hiddenBit

/-- The power of two that the significand counts, offset by `leastPower` so that it is never
negative. -/
def shift (magnitude : Nat) : Nat := exponentField magnitude - 1

/-- A non-negative ratio of natural numbers. -/
structure Ratio where
  num : Nat
  den : Nat

/-- The exact value of a magnitude. -/
def ratio (magnitude : Nat) : Ratio :=
  ⟨significand magnitude * Nat.pow 2 (shift magnitude), Nat.pow 2 leastPower⟩

/-- A quotient rounded to the nearest natural number, ties to even. -/
def roundQuotient (num den : Nat) : Nat :=
  let whole := num / den
  let twice := 2 * (num % den)
  if twice > den ∨ (twice = den ∧ whole % 2 = 1) then whole + 1 else whole

/-- The magnitude nearest to a ratio, ties to even.  The result is `infinite` or above when the
ratio lies beyond every finite number. -/
def roundRatio (value : Ratio) : Nat :=
  if value.num = 0 then 0 else
    -- `value` lies in `[2 ^ (place - 1), 2 ^ (place + 1))`, all exponents offset by `leastPower`
    let place := value.num.log2 + leastPower - value.den.log2
    let guess := place - 52
    let scaled (step : Nat) := value.num * Nat.pow 2 leastPower / (value.den * Nat.pow 2 step)
    let step := if scaled guess < hiddenBit then guess - 1 else guess
    step * hiddenBit +
      roundQuotient (value.num * Nat.pow 2 leastPower) (value.den * Nat.pow 2 step)

/-- The number with a given sign and magnitude, unless the magnitude is infinite. -/
def ofMagnitude? (negative : Bool) (magnitude : Nat) : Option Binary64 :=
  if finite : magnitude < infinite then some ⟨negative, magnitude, finite⟩ else none

/-- Positive zero. -/
def zero : Binary64 := ⟨false, 0, by decide⟩

instance : Inhabited Binary64 := ⟨zero⟩

/-- The same number with the given sign. -/
def withSign (negative : Bool) (value : Binary64) : Binary64 := { value with negative }

/-- The magnitude nearest to the product of two magnitudes. -/
def times (left right : Nat) : Nat :=
  roundRatio ⟨(ratio left).num * (ratio right).num, (ratio left).den * (ratio right).den⟩

/-- The magnitude nearest to the quotient of two magnitudes. -/
def dividedBy (left right : Nat) : Nat :=
  roundRatio ⟨(ratio left).num * (ratio right).den, (ratio left).den * (ratio right).num⟩

/-- The magnitude nearest to a power of ten. -/
def powerOfTen (exponent : Nat) : Nat := roundRatio ⟨Nat.pow 10 exponent, 1⟩

/-- The largest exponent whose power of ten is finite. -/
def largestPowerOfTen : Nat := 308

/-- `magnitude` divided by `10 ^ exponent`, in steps of at most `10 ^ 308`, each rounded. -/
def scaleDown (magnitude exponent : Nat) : Nat :=
  if _ : exponent ≤ 308 then dividedBy magnitude (powerOfTen exponent)
  else if magnitude = 0 then 0
  else scaleDown (dividedBy magnitude (powerOfTen largestPowerOfTen)) (exponent - largestPowerOfTen)
termination_by exponent
decreasing_by simp only [largestPowerOfTen]; omega

/-- The number written `significand * 10 ^ exponent`: the significand and the power of ten are each
rounded, and so is their product or quotient.  There is no such finite number when the product
overflows. -/
def ofDecimal? (negative : Bool) (significand : Nat) (exponent : Int) : Option Binary64 :=
  let magnitude := roundRatio ⟨significand, 1⟩
  match exponent with
  | .ofNat up =>
      if up ≤ largestPowerOfTen then ofMagnitude? negative (times magnitude (powerOfTen up))
      else if magnitude = 0 then ofMagnitude? negative 0 else none
  | .negSucc down => ofMagnitude? negative (scaleDown magnitude (down + 1))

/-- Equality of values: the two zeros are equal. -/
def sameValue (left right : Binary64) : Bool :=
  left.magnitude == right.magnitude && (left.negative == right.negative || left.magnitude == 0)

/-- Is the value above zero? -/
def isPositive (value : Binary64) : Bool := !value.negative && value.magnitude != 0

end Binary64

end EffectLoop
