import EffectLoop.Json.Binary64

/-!
# JSON values

An integer that fits in 64 bits is kept exactly, whether signed or unsigned; any other number is a
finite binary64.  An object lists its fields in increasing key order without repetition:
`Json.insert` and `Json.ofFields` keep that order, and every object of this library is made by them.
-/

namespace EffectLoop

/-- A JSON number. -/
inductive Number where
  | int (value : Int)
  | float (value : Binary64)
  deriving DecidableEq

/-- A JSON value. -/
inductive Json where
  | null
  | bool (value : Bool)
  | number (value : Number)
  | string (value : String)
  | array (items : List Json)
  | object (fields : List (String × Json))

namespace Number

/-- Unsigned 64-bit integers are below this bound, `2 ^ 64`. -/
def unsignedLimit : Nat := 18446744073709551616

/-- Signed 64-bit integers are below this bound, `2 ^ 63`, and not below its negation. -/
def signedLimit : Nat := 9223372036854775808

/-- The number as an unsigned 64-bit integer; a float is never one. -/
def toNat? : Number → Option Nat
  | .int value => if 0 ≤ value ∧ value < unsignedLimit then some value.toNat else none
  | .float _ => none

/-- The number as a signed 64-bit integer; a float is never one. -/
def toInt? : Number → Option Int
  | .int value => if -signedLimit ≤ value ∧ value < signedLimit then some value else none
  | .float _ => none

/-- Is the number above zero? -/
def isPositive : Number → Bool
  | .int value => 0 < value
  | .float value => value.isPositive

/-- An integer and a float are never the same number. -/
def sameValue : Number → Number → Bool
  | .int left, .int right => left == right
  | .float left, .float right => left.sameValue right
  | _, _ => false

end Number

namespace Json

instance : Inhabited Json := ⟨null⟩
instance : Coe String Json := ⟨string⟩
instance : Coe Bool Json := ⟨bool⟩

/-- The JSON integer of a natural number. -/
def ofNat (value : Nat) : Json := number (.int value)

/-- The value of the first field with the given key. -/
def field? (key : String) : List (String × Json) → Option Json
  | [] => none
  | (name, value) :: rest => if name = key then some value else field? key rest

/-- The value under a key of an object. -/
def get? (key : String) : Json → Option Json
  | object fields => field? key fields
  | _ => none

/-- Is this the null value? -/
def isNull : Json → Bool
  | null => true
  | _ => false

/-- The text of a string. -/
def asString? : Json → Option String
  | string value => some value
  | _ => none

/-- The items of an array. -/
def asArray? : Json → Option (List Json)
  | array items => some items
  | _ => none

/-- The fields of an object. -/
def asObject? : Json → Option (List (String × Json))
  | object fields => some fields
  | _ => none

/-- The value as an unsigned 64-bit integer. -/
def asNat? : Json → Option Nat
  | number value => value.toNat?
  | _ => none

/-- The value as a signed 64-bit integer. -/
def asInt? : Json → Option Int
  | number value => value.toInt?
  | _ => none

/-- Set a field, keeping the keys in increasing order. -/
def insert (key : String) (value : Json) : List (String × Json) → List (String × Json)
  | [] => [(key, value)]
  | (name, old) :: rest =>
      if key = name then (key, value) :: rest
      else if key < name then (key, value) :: (name, old) :: rest
      else (name, old) :: insert key value rest

/-- The object with the given fields; a later field replaces an earlier one of the same key. -/
def ofFields (fields : List (String × Json)) : Json :=
  object (fields.foldl (fun found field => insert field.1 field.2 found) [])

/-- Set every field of `extra` in `base`. -/
def merge (base extra : List (String × Json)) : List (String × Json) :=
  extra.foldl (fun found field => insert field.1 field.2 found) base

mutual

/-- The value with the fields of every object in order and without repetition. -/
def normalize : Json → Json
  | array items => array (normalizeItems items)
  | object fields => ofFields (normalizeFields fields)
  | value => value

def normalizeItems : List Json → List Json
  | [] => []
  | item :: rest => normalize item :: normalizeItems rest

def normalizeFields : List (String × Json) → List (String × Json)
  | [] => []
  | (key, value) :: rest => (key, normalize value) :: normalizeFields rest

end

mutual

/-- Equality of values: the two float zeros are equal, an integer and a float never are. -/
def sameValue : Json → Json → Bool
  | null, null => true
  | bool left, bool right => left == right
  | number left, number right => left.sameValue right
  | string left, string right => left == right
  | array left, array right => sameItems left right
  | object left, object right => sameFields left right
  | _, _ => false

def sameItems : List Json → List Json → Bool
  | [], [] => true
  | left :: lefts, right :: rights => sameValue left right && sameItems lefts rights
  | _, _ => false

def sameFields : List (String × Json) → List (String × Json) → Bool
  | [], [] => true
  | (leftKey, left) :: lefts, (rightKey, right) :: rights =>
      leftKey == rightKey && sameValue left right && sameFields lefts rights
  | _, _ => false

end

theorem sizeOf_field?_lt {key : String} {fields : List (String × Json)} {value : Json}
    (found : field? key fields = some value) : sizeOf value < sizeOf fields := by
  induction fields with
  | nil => simp [field?] at found
  | cons field rest ih =>
    obtain ⟨name, old⟩ := field
    simp only [field?] at found
    split at found
    · cases found
      simp only [List.cons.sizeOf_spec, Prod.mk.sizeOf_spec]
      omega
    · have := ih found
      simp only [List.cons.sizeOf_spec]
      omega

/-- A value under a key is smaller than the object that holds it. -/
theorem sizeOf_get?_lt {key : String} {source value : Json}
    (found : source.get? key = some value) : sizeOf value < sizeOf source := by
  cases source with
  | object fields =>
    have := sizeOf_field?_lt found
    simp only [object.sizeOf_spec]
    omega
  | _ => simp [get?] at found

end Json

end EffectLoop
