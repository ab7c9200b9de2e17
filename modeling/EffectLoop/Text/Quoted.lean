import EffectLoop.Text.Shapeless
import EffectLoop.Json.Writer

/-!
# Quoted text

A quoted text shows every character: what has no shape of its own is written by its code point.
-/

namespace EffectLoop.Text

/-- Lower-case hexadecimal digits of a number. -/
def hexadecimal (value : Nat) : List Char :=
  if value < 16 then [Json.hexDigit value]
  else hexadecimal (value / 16) ++ [Json.hexDigit (value % 16)]
termination_by value

/-- The characters that show one character between quotes. -/
def shown (c : Char) : List Char :=
  if c = '"' then ['\\', '"']
  else if c = '\\' then ['\\', '\\']
  else if c = '\n' then ['\\', 'n']
  else if c = '\r' then ['\\', 'r']
  else if c = '\t' then ['\\', 't']
  else if c = '\x00' then ['\\', '0']
  else if isShapeless c then '\\' :: 'u' :: '\x7b' :: hexadecimal c.toNat ++ ['\x7d']
  else [c]

/-- The text between quotes, with every character shown. -/
def quoted (value : String) : String :=
  "\"" ++ String.ofList (value.toList.flatMap shown) ++ "\""

end EffectLoop.Text
