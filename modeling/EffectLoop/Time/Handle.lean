import EffectLoop.Text.Outline

/-!
# Timer handles

A handle names a schedule.  It travels through JSON as an unsigned 64-bit integer, by two paths: as
an argument value (`ofJson?`, `toJson`) and as part of a document, where a refusal says what was
found instead (`decode`, `encode`).
-/

namespace EffectLoop

/-- The name of a schedule; handle 0 is never issued. -/
structure TimerHandle where
  id : UInt64
  deriving DecidableEq

namespace TimerHandle

/-- The handle that no schedule has. -/
def unissued : TimerHandle := ⟨0⟩

instance : Inhabited TimerHandle := ⟨unissued⟩

/-- The handle that an argument value stands for. -/
def ofJson? (value : Json) : Option TimerHandle := value.asNat?.map fun id => ⟨UInt64.ofNat id⟩

/-- The argument value of a handle. -/
def toJson (handle : TimerHandle) : Json := .number (.int handle.id.toNat)

/-- The outline of a handle. -/
def outline (handle : TimerHandle) : Outline :=
  .tuple "TimerHandle" [.atom (toString handle.id.toNat)]

/-- Handles are compared by their numbers. -/
def order (left right : TimerHandle) : Ordering := compare left.id.toNat right.id.toNat

end TimerHandle

/-- What was found where something else was wanted. -/
def Json.found : Json → String
  | .null => "null"
  | .bool true => "boolean \x60true\x60"
  | .bool false => "boolean \x60false\x60"
  | .number (.int value) => "integer \x60" ++ toString value ++ "\x60"
  | .number (.float value) => "floating point \x60" ++ value.text ++ "\x60"
  | .string value => "string " ++ Text.quoted value
  | .array _ => "sequence"
  | .object _ => "map"

/-- The refusal of a value of the wrong type. -/
def Json.wrongType (value : Json) (wanted : String) : String :=
  "invalid type: " ++ value.found ++ ", expected " ++ wanted

/-- The refusal of a value of the right type but out of range. -/
def Json.wrongValue (value : Json) (wanted : String) : String :=
  "invalid value: " ++ value.found ++ ", expected " ++ wanted

namespace TimerHandle

/-- The handle in a document: an integer from 0 on.  A negative integer is out of range, anything
else is of the wrong type. -/
def decode : Json → Except String TimerHandle
  | .number (.int value) =>
      match value with
      | .ofNat id =>
          if id < Number.unsignedLimit then .ok ⟨UInt64.ofNat id⟩
          else .error (Json.wrongType (.number (.int value)) "u64")
      | .negSucc _ => .error (Json.wrongValue (.number (.int value)) "u64")
  | value => .error (value.wrongType "u64")

/-- A handle in a document. -/
def encode (handle : TimerHandle) : Json := .ofNat handle.id.toNat

end TimerHandle

end EffectLoop
