import EffectLoop.Json.Basic

/-!
# Reading JSON text

A reader consumes characters from the left and stops at the first fault.  Faults come in three
kinds: the text ends too early, the text is not JSON, or the text is JSON but not what the caller
wants.  `Reader.value` reads a whole value and keeps the fields of objects as written, repetitions
included; `Reader.skip` accepts a value without keeping it, and is more lenient about lone surrogate
escapes and about nesting.
-/

namespace EffectLoop

/-- Why a text was refused. -/
inductive Fault where
  /-- The text ends inside a value. -/
  | ended
  /-- The text is not JSON. -/
  | malformed
  /-- The text is JSON of the wrong shape. -/
  | unexpected (message : String)
  deriving DecidableEq

/-- A computation that consumes characters from the left and may find a fault. -/
abbrev Reader := StateT (List Char) (Except Fault)

namespace Reader

variable {α : Type}

/-- Stop with a fault. -/
def fail (fault : Fault) : Reader α := fun _ => .error fault

/-- The next character, left in place. -/
def peek : Reader (Option Char) := fun rest => .ok (rest.head?, rest)

/-- Drop one character. -/
def advance : Reader Unit := fun rest => .ok ((), rest.drop 1)

/-- Take one character; the text must not end here. -/
def next : Reader Char
  | [] => .error .ended
  | c :: rest => .ok (c, rest)

/-- The number of characters left. -/
def remaining : Reader Nat := fun rest => .ok (rest.length, rest)

/-- The four blanks of JSON. -/
def isBlank (c : Char) : Bool := c == ' ' || c == '\n' || c == '\t' || c == '\r'

/-- Skip blanks, then look at the next character. -/
def peekToken : Reader (Option Char) := fun rest =>
  let rest := rest.dropWhile isBlank
  .ok (rest.head?, rest)

/-- Take the characters of a keyword's tail. -/
def keyword : List Char → Reader Unit
  | [] => pure ()
  | expected :: rest => do
      let c ← next
      if c = expected then keyword rest else fail .malformed

/-! ## Numbers -/

/-- Take the digits at the front. -/
def digits : Reader (List Char) := fun rest =>
  .ok (rest.takeWhile Char.isDigit, rest.dropWhile Char.isDigit)

/-- The value of a decimal digit. -/
def digitValue (c : Char) : Nat := c.toNat - '0'.toNat

/-- Append digits to a significand for as long as it fits in 64 bits.  The answer is the significand
and the number of digits left out. -/
def accumulate (significand : Nat) : List Char → Nat × Nat
  | [] => (significand, 0)
  | c :: rest =>
      let grown := significand * 10 + digitValue c
      if grown < Number.unsignedLimit then accumulate grown rest else (significand, rest.length + 1)

/-- Largest exponent that is read as a number; beyond it only zero survives. -/
def largestExponent : Nat := 2147483647

/-- The finite number with the given parts, or a fault when it overflows. -/
def finite (negative : Bool) (significand : Nat) (exponent : Int) : Reader Number :=
  match Binary64.ofDecimal? negative significand exponent with
  | some value => pure (.float value)
  | none => fail .malformed

/-- The exponent part, from its `e` on. -/
def exponent (negative : Bool) (significand : Nat) (scale : Int) : Reader Number := do
  advance
  let sign ← peek
  let downward := sign = some '-'
  if downward ∨ sign = some '+' then advance
  let first ← next
  if !first.isDigit then fail .malformed
  let written := (first :: (← digits)).foldl (fun value c => value * 10 + digitValue c) 0
  if largestExponent < written then
    if significand = 0 ∨ downward then pure (.float (Binary64.zero.withSign negative))
    else fail .malformed
  else finite negative significand (if downward then scale - written else scale + written)

/-- The fraction part, from its point on.  Digits that no longer fit are dropped. -/
def fraction (negative : Bool) (significand : Nat) (scale : Int) : Reader Number := do
  advance
  let written ← digits
  if written.isEmpty then
    match ← peek with
    | some _ => fail .malformed
    | none => fail .ended
  let (grown, dropped) := accumulate significand written
  let scale := scale - (written.length - dropped : Nat)
  match ← peek with
  | some 'e' | some 'E' => exponent negative grown scale
  | _ => finite negative grown scale

/-- What follows the integer part of a number.  An integer that does not fit in 64 bits, and
negative zero, are floats. -/
def afterInteger (negative : Bool) (significand dropped : Nat) : Reader Number := do
  match ← peek with
  | some '.' => fraction negative significand dropped
  | some 'e' | some 'E' => exponent negative significand dropped
  | _ =>
      if dropped ≠ 0 then finite negative significand dropped
      else if !negative then pure (.int significand)
      else if significand = 0 ∨ Number.signedLimit < significand then finite negative significand 0
      else pure (.int (-significand))

/-- A number, from its first digit on. -/
def unsigned (negative : Bool) : Reader Number := do
  let first ← next
  if first = '0' then
    match ← peek with
    | some c => if c.isDigit then fail .malformed else afterInteger negative 0 0
    | none => afterInteger negative 0 0
  else if first.isDigit then
    let (significand, dropped) := accumulate 0 (first :: (← digits))
    afterInteger negative significand dropped
  else fail .malformed

/-- A number, from its sign on. -/
def number : Reader Number := do
  match ← peek with
  | some '-' => advance; unsigned true
  | _ => unsigned false

/-! ## Strings -/

/-- The value of a hexadecimal digit. -/
def hexValue? (c : Char) : Option Nat :=
  if c.isDigit then some (digitValue c)
  else if 'a' ≤ c ∧ c ≤ 'f' then some (c.toNat - 'a'.toNat + 10)
  else if 'A' ≤ c ∧ c ≤ 'F' then some (c.toNat - 'A'.toNat + 10)
  else none

/-- The number written by four hexadecimal digits. -/
def hexUnit (source : List Char) : Option Nat :=
  source.foldl (fun found c => do return (← found) * 16 + (← hexValue? c)) (some 0)

/-- A UTF-16 unit written by four hexadecimal digits.  The text ends too early if fewer than four
bytes are left. -/
def codeUnit : Reader Nat := fun rest =>
  let window := rest.take 4
  if window.foldl (fun size c => size + c.utf8Size) 0 < 4 then .error .ended
  else match window.length, hexUnit window with
    | 4, some value => .ok (value, rest.drop 4)
    | _, _ => .error .malformed

/-- The character of an escape, from after its `u` on.  Surrogates must come in pairs. -/
def unicodeEscape : Reader Char := do
  let high ← codeUnit
  if 0xDC00 ≤ high ∧ high ≤ 0xDFFF then fail .malformed
  else if high < 0xD800 ∨ 0xDBFF < high then pure (Char.ofNat high)
  else
    if (← next) ≠ '\\' then fail .malformed
    if (← next) ≠ 'u' then fail .malformed
    let low ← codeUnit
    if low < 0xDC00 ∨ 0xDFFF < low then fail .malformed
    pure (Char.ofNat (0x10000 + (high - 0xD800) * 0x400 + (low - 0xDC00)))

/-- The character that a one-letter escape stands for. -/
def shortEscape? : Char → Option Char
  | '"' => some '"'
  | '\\' => some '\\'
  | '/' => some '/'
  | 'b' => some '\x08'
  | 'f' => some '\x0c'
  | 'n' => some '\n'
  | 'r' => some '\r'
  | 't' => some '\t'
  | _ => none

/-- The rest of a string, from after its opening quote on.  `escapes` reads what follows the `u` of
an escape. -/
def stringRest (escapes : Reader Char) (found : List Char) : (fuel : Nat) → Reader String
  | 0 => fail .ended
  | fuel + 1 => do
      let c ← next
      if c = '"' then pure (String.ofList found.reverse)
      else if c = '\\' then
        let kind ← next
        if kind = 'u' then stringRest escapes ((← escapes) :: found) fuel
        else match shortEscape? kind with
          | some plain => stringRest escapes (plain :: found) fuel
          | none => fail .malformed
      else if c.toNat < 0x20 then fail .malformed
      else stringRest escapes (c :: found) fuel

/-- A string, from after its opening quote on. -/
def string : Reader String := do stringRest unicodeEscape [] ((← remaining) + 1)

/-! ## Values -/

/-- Deepest nesting of arrays and objects that is read. -/
def deepestNesting : Nat := 127

/-- Is there another item?  Looks past the comma that separates it from the one before. -/
def anotherItem (first : Bool) : Reader Bool := do
  match ← peekToken with
  | none => fail .ended
  | some ']' => pure false
  | some c =>
      if first then pure true
      else if c = ',' then
        advance
        match ← peekToken with
        | none => fail .ended
        | some ']' => fail .malformed
        | some _ => pure true
      else fail .malformed

/-- Is there another field?  Looks past the comma that separates it from the one before. -/
def anotherField (first : Bool) : Reader Bool := do
  match ← peekToken with
  | none => fail .ended
  | some '\x7d' => pure false
  | some c =>
      if first then
        if c = '"' then pure true else fail .malformed
      else if c = ',' then
        advance
        match ← peekToken with
        | none => fail .ended
        | some '"' => pure true
        | some _ => fail .malformed
      else fail .malformed

/-- The colon between a key and its value. -/
def colon : Reader Unit := do
  match ← peekToken with
  | some ':' => advance
  | some _ => fail .malformed
  | none => fail .ended

/-- The items of an array up to its closing bracket. -/
def items (item : Reader Json) (found : List Json) : (fuel : Nat) → Reader (List Json)
  | 0 => fail .ended
  | fuel + 1 => do
      if ← anotherItem found.isEmpty then
        items item ((← item) :: found) fuel
      else
        advance
        pure found.reverse

/-- The fields of an object up to its closing brace. -/
def fields (item : Reader Json) (found : List (String × Json)) :
    (fuel : Nat) → Reader (List (String × Json))
  | 0 => fail .ended
  | fuel + 1 => do
      if ← anotherField found.isEmpty then
        advance
        let key ← string
        colon
        fields item ((key, ← item) :: found) fuel
      else
        advance
        pure found.reverse

/-- A value whose items are read by `inner`; without it no array or object is accepted.  The fields
of objects are kept as written. -/
def valueAround (inner : Option (Reader Json)) : Reader Json := do
  match ← peekToken, inner with
  | none, _ => fail .ended
  | some 'n', _ => advance; keyword "ull".toList; pure .null
  | some 't', _ => advance; keyword "rue".toList; pure (.bool true)
  | some 'f', _ => advance; keyword "alse".toList; pure (.bool false)
  | some '"', _ => advance; pure (.string (← string))
  | some '[', some inner => advance; pure (.array (← items inner [] ((← remaining) + 1)))
  | some '\x7b', some inner => advance; pure (.object (← fields inner [] ((← remaining) + 1)))
  | some c, _ => if c = '-' ∨ c.isDigit then pure (.number (← number)) else fail .malformed

/-- A value nested at most `depth` deep. -/
def nested : (depth : Nat) → Reader Json
  | 0 => valueAround none
  | depth + 1 => valueAround (some (nested depth))

/-- A value, as deep as text may nest. -/
def value : Reader Json := nested deepestNesting

/-- Only blanks may follow. -/
def finished : Reader Unit := do
  match ← peekToken with
  | none => pure ()
  | some _ => fail .malformed

/-! ## Skipping -/

/-- Skip an unsigned number, checking its form only. -/
def skipUnsigned : Reader Unit := do
  match ← peek with
  | some '0' =>
      advance
      match ← peek with
      | some c => if c.isDigit then fail .malformed
      | none => pure ()
  | some c => if c.isDigit then discard digits else fail .malformed
  | none => fail .malformed
  if (← peek) = some '.' then
    advance
    if (← digits).isEmpty then fail .malformed
  let mark ← peek
  if mark = some 'e' ∨ mark = some 'E' then
    advance
    let sign ← peek
    if sign = some '+' ∨ sign = some '-' then advance
    if (← digits).isEmpty then fail .malformed

/-- A unicode escape that need not be paired. -/
def looseEscape : Reader Char := do
  discard codeUnit
  pure '\x00'

/-- Skip a string, from after its opening quote on. -/
def skipString : Reader Unit := do discard (stringRest looseEscape [] ((← remaining) + 1))

/-- An enclosing bracket that is still open. -/
inductive Bracket where
  | square
  | brace
  deriving DecidableEq

/-- The character that closes a bracket. -/
def Bracket.closing : Bracket → Char
  | .square => ']'
  | .brace => '\x7d'

/-- Skip the key and the colon in front of a field's value; an array's item has none. -/
def skipKey : Bracket → Reader Unit
  | .square => pure ()
  | .brace => do
      match ← peekToken with
      | some '"' => advance; skipString; colon
      | some _ => fail .malformed
      | none => fail .ended

mutual

/-- Skip one value inside the given open brackets, and then what is left of those. -/
def skipValue (enclosing : List Bracket) : (fuel : Nat) → Reader Unit
  | 0 => fail .ended
  | fuel + 1 => do
      match ← peekToken with
      | none => fail .ended
      | some 'n' => advance; keyword "ull".toList; skipRest false enclosing fuel
      | some 't' => advance; keyword "rue".toList; skipRest false enclosing fuel
      | some 'f' => advance; keyword "alse".toList; skipRest false enclosing fuel
      | some '"' => advance; skipString; skipRest false enclosing fuel
      | some '[' => advance; skipRest true (.square :: enclosing) fuel
      | some '\x7b' => advance; skipRest true (.brace :: enclosing) fuel
      | some '-' => advance; skipUnsigned; skipRest false enclosing fuel
      | some c =>
          if c.isDigit then
            skipUnsigned
            skipRest false enclosing fuel
          else fail .malformed

/-- Skip what is left of the open brackets; `opened` says that the innermost has no item yet. -/
def skipRest (opened : Bool) (enclosing : List Bracket) : (fuel : Nat) → Reader Unit
  | 0 => fail .ended
  | fuel + 1 => do
      match enclosing with
      | [] => pure ()
      | bracket :: outer =>
          match ← peekToken with
          | none => fail .ended
          | some c =>
              if c = bracket.closing then
                advance
                skipRest false outer fuel
              else if opened then
                skipKey bracket
                skipValue enclosing fuel
              else if c = ',' then
                advance
                skipKey bracket
                skipValue enclosing fuel
              else fail .malformed

end

/-- Skip one value. -/
def skip : Reader Unit := do skipValue [] (2 * (← remaining) + 2)

/-- What a reader finds in a text, if the text is a whole. -/
def run (reader : Reader α) (source : String) : Except Fault α :=
  (·.1) <$> (do let found ← reader; finished; pure found : Reader α) source.toList

end Reader

/-- The JSON value written by a text. -/
def Json.parse (source : String) : Except Fault Json :=
  Json.normalize <$> Reader.run Reader.value source

end EffectLoop
