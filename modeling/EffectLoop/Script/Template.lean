import EffectLoop.Command.Noted

/-!
# Templates

A template is a JSON value with directives: objects whose only key starts with a dollar sign.  It
is evaluated in an environment of named roots.

* `$get` looks up a path, `$inc` adds to the integer at a path, `$push` appends to the array at a
  path.
* `$merge` joins objects, `$note` leaves a note.

Evaluation in full gives every directive a value.  Partial evaluation gives one only to the lookups
whose root is bound, and leaves the others for later.
-/

namespace EffectLoop

/-- Named roots; an earlier binding hides a later one. -/
abbrev Env := List (String × Json)

namespace Env

/-- The number written by decimal digits, if nothing else is there. -/
def position? (segment : String) : Option Nat :=
  let digits := segment.toList
  if digits.isEmpty || !digits.all Char.isDigit then none
  else some (digits.foldl (fun value c => value * 10 + (c.toNat - '0'.toNat)) 0)

/-- Follow one segment of a path: a position in an array, a key in anything else. -/
def follow (value : Json) (segment : String) : Json :=
  match value with
  | .array items => ((position? segment).bind fun index => items[index]?).getD .null
  | _ => (value.get? segment).getD .null

/-- The root that a path starts from. -/
def rootOf (path : String) : String := (path.splitOn ".").headD ""

/-- The value at a path; what is missing is null. -/
def lookup (env : Env) (path : String) : Json :=
  match path.splitOn "." with
  | [] => .null
  | root :: segments => segments.foldl follow ((Json.field? root env).getD .null)

/-- Is the root of a path bound? -/
def binds (env : Env) (path : String) : Bool := (Json.field? (rootOf path) env).isSome

/-- Bind a root. -/
def bind (env : Env) (name : String) (value : Json) : Env := (name, value) :: env

end Env

namespace Template

/-- A path, as written in a directive. -/
def pathOf (source : Json) : String := source.asString?.getD ""

/-- The integer at a path, or zero, with `amount` added. -/
def increment (env : Env) (path amount : Json) : Json :=
  .number (.int (((env.lookup (pathOf path)).asInt?.getD 0) + (amount.asInt?.getD 0)))

/-- The array at a path, or none, with an item appended. -/
def append (env : Env) (path item : Json) : Json :=
  .array (((env.lookup (pathOf path)).asArray?.getD []) ++ [item])

/-- Objects joined from left to right; anything else is skipped. -/
def join (parts : List Json) : Json :=
  .object (parts.foldl (fun found part => Json.merge found (part.asObject?.getD [])) [])

/-- The note that a directive leaves. -/
def noteOf (label : Json) : Json := Json.ofFields [("note", label)]

mutual

/-- Evaluate a template in full. -/
def eval (env : Env) : Json → Noted Json
  | .object [("$get", path)] => pure (env.lookup (pathOf path))
  | .object [("$inc", .array [path, amount])] => pure (increment env path amount)
  | .object [("$push", .array [path, item])] => append env path <$> eval env item
  | .object [("$merge", .array parts)] => join <$> evalItems env parts
  | .object [("$note", .array [label, body])] => do
      Noted.note (noteOf label)
      eval env body
  | .object fields => Json.ofFields <$> evalFields env fields
  | .array items => .array <$> evalItems env items
  | value => pure value

def evalItems (env : Env) : List Json → Noted (List Json)
  | [] => pure []
  | item :: rest => do
      let found ← eval env item
      return found :: (← evalItems env rest)

def evalFields (env : Env) : List (String × Json) → Noted (List (String × Json))
  | [] => pure []
  | (key, value) :: rest => do
      let found ← eval env value
      return (key, found) :: (← evalFields env rest)

end

mutual

/-- Evaluate the lookups whose root is bound, and leave the other directives. -/
def reduce (env : Env) : Json → Json
  | .object [("$get", path)] =>
      if env.binds (pathOf path) then env.lookup (pathOf path) else .object [("$get", path)]
  | .object [("$inc", .array [path, amount])] =>
      if env.binds (pathOf path) then increment env path amount
      else .object [("$inc", .array [path, amount])]
  | .object [("$push", .array [path, item])] =>
      if env.binds (pathOf path) then append env path (reduce env item)
      else .object [("$push", .array [path, reduce env item])]
  | .object fields => Json.ofFields (reduceFields env fields)
  | .array items => .array (reduceItems env items)
  | value => value

def reduceItems (env : Env) : List Json → List Json
  | [] => []
  | item :: rest => reduce env item :: reduceItems env rest

def reduceFields (env : Env) : List (String × Json) → List (String × Json)
  | [] => []
  | (key, value) :: rest => (key, reduce env value) :: reduceFields env rest

end

end Template

end EffectLoop
