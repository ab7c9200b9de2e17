import EffectLoop.Text.Quoted
import EffectLoop.Json.Basic

/-!
# Outlines

An outline is the structural description of a value, meant for people: names, fields and items, with
functions left out.  It has two layouts, `Outline.compact` on one line and `Outline.pretty` with one
item per line.
-/

namespace EffectLoop

/-- The structural description of a value. -/
inductive Outline where
  /-- A finished piece of text. -/
  | atom (text : String)
  /-- A name with fields; a `partialView` has more fields than are shown. -/
  | record (name : String) (fields : List (String × Outline)) (partialView : Bool)
  /-- A name with positional items. -/
  | tuple (name : String) (items : List Outline)
  /-- Items in brackets. -/
  | list (items : List Outline)
  /-- Quoted keys with their values, in braces. -/
  | table (entries : List (String × Outline))
  /-- A label in front of an outline. -/
  | labelled (label : String) (body : Outline)

namespace Outline

mutual

/-- The outline on one line. -/
def compact : Outline → String
  | atom text => text
  | record name fields partialView =>
      name ++ " \x7b " ++ compactFields fields ++
        (if partialView then (if fields.isEmpty then ".. \x7d" else ", .. \x7d") else " \x7d")
  | tuple name items => name ++ "(" ++ compactItems items ++ ")"
  | list items => "[" ++ compactItems items ++ "]"
  | table entries => "\x7b" ++ compactEntries entries ++ "\x7d"
  | labelled label body => label ++ " " ++ compact body

def compactFields : List (String × Outline) → String
  | [] => ""
  | [(name, body)] => name ++ ": " ++ compact body
  | (name, body) :: rest => name ++ ": " ++ compact body ++ ", " ++ compactFields rest

def compactItems : List Outline → String
  | [] => ""
  | [body] => compact body
  | body :: rest => compact body ++ ", " ++ compactItems rest

def compactEntries : List (String × Outline) → String
  | [] => ""
  | [(key, body)] => Text.quoted key ++ ": " ++ compact body
  | (key, body) :: rest =>
      Text.quoted key ++ ": " ++ compact body ++ ", " ++ compactEntries rest

end

/-- The blanks in front of a line at the given depth. -/
def indentation (depth : Nat) : String := String.ofList (List.replicate (4 * depth) ' ')

mutual

/-- The outline with one item per line, inside `depth` others. -/
def prettyAt (depth : Nat) : Outline → String
  | atom text => text
  | record name fields partialView =>
      name ++ " \x7b\n" ++ prettyFields (depth + 1) fields ++
        (if partialView then indentation (depth + 1) ++ "..\n" else "") ++
        indentation depth ++ "\x7d"
  | tuple name items => name ++ "(\n" ++ prettyItems (depth + 1) items ++ indentation depth ++ ")"
  | list [] => "[]"
  | list items => "[\n" ++ prettyItems (depth + 1) items ++ indentation depth ++ "]"
  | table [] => "\x7b\x7d"
  | table entries =>
      "\x7b\n" ++ prettyEntries (depth + 1) entries ++ indentation depth ++ "\x7d"
  | labelled label body => label ++ " " ++ prettyAt depth body

def prettyFields (depth : Nat) : List (String × Outline) → String
  | [] => ""
  | (name, body) :: rest =>
      indentation depth ++ name ++ ": " ++ prettyAt depth body ++ ",\n" ++ prettyFields depth rest

def prettyItems (depth : Nat) : List Outline → String
  | [] => ""
  | body :: rest => indentation depth ++ prettyAt depth body ++ ",\n" ++ prettyItems depth rest

def prettyEntries (depth : Nat) : List (String × Outline) → String
  | [] => ""
  | (key, body) :: rest =>
      indentation depth ++ Text.quoted key ++ ": " ++ prettyAt depth body ++ ",\n" ++
        prettyEntries depth rest

end

/-- The outline with one item per line. -/
def pretty (found : Outline) : String := prettyAt 0 found

/-- The outline of a truth value. -/
def ofBool (value : Bool) : Outline := atom (if value then "true" else "false")

/-- The outline of an optional value. -/
def ofOption : Option Outline → Outline
  | none => atom "None"
  | some body => tuple "Some" [body]

end Outline

mutual

/-- The outline of a JSON value names its kind. -/
def Json.outline : Json → Outline
  | .null => .atom "Null"
  | .bool value => .atom ("Bool(" ++ (if value then "true" else "false") ++ ")")
  | .number value => .atom ("Number(" ++ value.text ++ ")")
  | .string value => .atom ("String(" ++ Text.quoted value ++ ")")
  | .array items => .labelled "Array" (.list (Json.outlineItems items))
  | .object fields => .labelled "Object" (.table (Json.outlineFields fields))

def Json.outlineItems : List Json → List Outline
  | [] => []
  | item :: rest => Json.outline item :: Json.outlineItems rest

def Json.outlineFields : List (String × Json) → List (String × Outline)
  | [] => []
  | (key, value) :: rest => (key, Json.outline value) :: Json.outlineFields rest

end

end EffectLoop
