import EffectLoop.Json.Basic
import EffectLoop.Json.Shortest

/-!
# Compact JSON text

`Json.text` writes a value without any space.  In a string only the quote, the backslash and the
control characters below the space are escaped, by their short escapes where JSON has one.
-/

namespace EffectLoop

/-- The decimal text of a number; an integer never has a point, a float always has one or an
exponent. -/
def Number.text : Number → String
  | .int value => toString value
  | .float value => value.text

namespace Json

/-- The lower-case hexadecimal digit of a value below 16. -/
def hexDigit (value : Nat) : Char :=
  if value < 10 then Char.ofNat ('0'.toNat + value) else Char.ofNat ('a'.toNat + (value - 10))

/-- The characters that stand for one character inside a JSON string. -/
def escape (c : Char) : List Char :=
  if c = '"' then ['\\', '"']
  else if c = '\\' then ['\\', '\\']
  else if c = '\n' then ['\\', 'n']
  else if c = '\r' then ['\\', 'r']
  else if c = '\t' then ['\\', 't']
  else if c = '\x08' then ['\\', 'b']
  else if c = '\x0c' then ['\\', 'f']
  else if c.toNat < 0x20 then
    ['\\', 'u', '0', '0', hexDigit (c.toNat / 16), hexDigit (c.toNat % 16)]
  else [c]

/-- A string between quotes, escaped. -/
def quote (value : String) : String :=
  "\"" ++ String.ofList (value.toList.flatMap escape) ++ "\""

mutual

/-- Append the compact text of a value. -/
def write (out : String) : Json → String
  | null => out ++ "null"
  | bool true => out ++ "true"
  | bool false => out ++ "false"
  | number value => out ++ value.text
  | string value => out ++ quote value
  | array items => writeItems (out ++ "[") items ++ "]"
  | object fields => writeFields (out ++ "\x7b") fields ++ "\x7d"

def writeItems (out : String) : List Json → String
  | [] => out
  | [item] => write out item
  | item :: rest => writeItems (write out item ++ ",") rest

def writeFields (out : String) : List (String × Json) → String
  | [] => out
  | [(key, value)] => write (out ++ quote key ++ ":") value
  | (key, value) :: rest => writeFields (write (out ++ quote key ++ ":") value ++ ",") rest

end

/-- The compact text of a value. -/
def text (value : Json) : String := write "" value

end Json

end EffectLoop
