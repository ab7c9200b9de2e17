import EffectLoop.Json.Reader
import EffectLoop.Time.Handle

/-!
# Options

The options of the interpreter and their document.  The document is read from left to right, and
the first problem wins: a field of the wrong type is refused before what follows it is looked at,
and the value of an unknown key is skipped.
-/

namespace EffectLoop

/-- Options of the interpreter. -/
structure Options where
  /-- Do not log a failure that a fail creator turns into an action. -/
  silenceHandled : Bool
  deriving DecidableEq

namespace Options

/-- By default every failure is logged. -/
def default : Options := ⟨false⟩

instance : Inhabited Options := ⟨default⟩

/-- The same options without the log of handled failures. -/
def quiet (options : Options) : Options := { options with silenceHandled := true }

/-- The key of the only option. -/
def quietKey : String := "DONT_LOG_ERRORS_ON_HANDLED_FAILURES"

/-- The document of the options. -/
def encode (options : Options) : Json :=
  Json.ofFields [(quietKey, .bool options.silenceHandled)]

section Reading

open Reader

/-- Refuse the value at the front, which is not what is wanted.  A scalar is read first, and its own
faults win. -/
def refuse {α : Type} (wanted : String) : Reader α := do
  let refused (found : Json) : Reader α := fail (.unexpected (found.wrongType wanted))
  match ← peek with
  | some 'n' => advance; keyword "ull".toList; refused .null
  | some 't' => advance; keyword "rue".toList; refused (.bool true)
  | some 'f' => advance; keyword "alse".toList; refused (.bool false)
  | some '"' => advance; refused (.string (← string))
  | some '[' => refused (.array [])
  | some '\x7b' => refused (.object [])
  | some c => if c = '-' ∨ c.isDigit then refused (.number (← number)) else fail .malformed
  | none => fail .malformed

/-- Read a truth value. -/
def readBool : Reader Bool := do
  match ← peekToken with
  | none => fail .ended
  | some 't' => advance; keyword "rue".toList; pure true
  | some 'f' => advance; keyword "alse".toList; pure false
  | some _ => refuse "a boolean"

/-- Read the options by position, from after the opening bracket on. -/
def readItems : Reader Options := do
  let silenceHandled ← if ← anotherItem true then readBool else pure false
  match ← peekToken with
  | some ']' => advance; pure { silenceHandled }
  | some _ => fail .malformed
  | none => fail .ended

/-- Read the options by key.  A key may be written only once. -/
def readFields (first : Bool) (found : Option Bool) : (fuel : Nat) → Reader Options
  | 0 => fail .ended
  | fuel + 1 => do
      if ← anotherField first then
        advance
        let key ← string
        if key = quietKey then
          if found.isSome then fail (.unexpected ("duplicate field \x60" ++ quietKey ++ "\x60"))
          colon
          readFields false (some (← readBool)) fuel
        else
          colon
          skip
          readFields false found fuel
      else
        advance
        pure { silenceHandled := found.getD false }

/-- Read the options. -/
def read : Reader Options := do
  match ← peekToken with
  | none => fail .ended
  | some '[' => advance; readItems
  | some '\x7b' => advance; readFields true none ((← remaining) + 1)
  | some _ => refuse "struct LoopConfig"

end Reading

/-- The options written by a text. -/
def parse (source : String) : Except Fault Options := Reader.run read source

/-- What stands in front of the message of a refused text. -/
def refusalLead : String := "invalid loop config: "

end Options

end EffectLoop
