import EffectLoop.Text.Outline

/-!
# Actions

An action is anything that a reducer can receive.  All that is asked of it is a discriminator, its
*kind*, an outline for people, and a document form.  A kind that is empty marks a value that is no
proper action.

A declared action type takes its kinds from the names in its declaration, unless a name is
replaced.
-/

namespace EffectLoop

/-- A type of actions. -/
class Tagged (A : Type) where
  /-- The discriminator of an action. -/
  kind : A → String
  /-- The structural description of an action. -/
  outline : A → Outline
  /-- The document of an action. -/
  encode : A → Json
  /-- The action that a document stands for. -/
  decode : Json → A

/-- A JSON action carries its kind under `type`; without a string there, it has none. -/
def Json.kind (value : Json) : String := ((value.get? "type").bind Json.asString?).getD ""

instance : Tagged Json where
  kind := Json.kind
  outline := Json.outline
  encode := id
  decode := id

/-- The name of a declared action, and the kind that replaces it. -/
structure Declaration where
  name : String
  renamed : Option String := none

/-- The kind of a declared action. -/
def Declaration.kind (declaration : Declaration) : String :=
  declaration.renamed.getD declaration.name

/-- The actions of a child component. -/
inductive Message where
  | unit
  | tuple (value : Int)
  | named (value : Json)
  | got (value : Json)
  | blank

namespace Message

/-- How each message is declared. -/
def declaration : Message → Declaration
  | unit => ⟨"Unit", none⟩
  | tuple _ => ⟨"Tuple", none⟩
  | named _ => ⟨"Named", none⟩
  | got _ => ⟨"Got", some "GOT"⟩
  | blank => ⟨"Blank", some ""⟩

/-- The outline of a message shows its declared name and what it carries. -/
def outline : Message → Outline
  | unit => .atom "Unit"
  | tuple value => .tuple "Tuple" [.atom (toString value)]
  | named value => .record "Named" [("value", value.outline)] false
  | got value => .tuple "Got" [value.outline]
  | blank => .atom "Blank"

/-- What a message carries. -/
def payload : Message → Json
  | unit => .null
  | tuple value => .number (.int value)
  | named value => value
  | got value => value
  | blank => .null

/-- The message that a JSON value stands for, by its kind. -/
def ofJson (source : Json) : Message :=
  let carried := (source.get? "value").getD .null
  if source.kind = "Unit" then unit
  else if source.kind = "Tuple" then tuple (carried.asInt?.getD 0)
  else if source.kind = "Named" then named carried
  else if source.kind = "GOT" then got carried
  else blank

/-- The JSON form of a message. -/
def toJson (message : Message) : Json :=
  Json.ofFields [("type", .string message.declaration.kind), ("value", message.payload)]

instance : Tagged Message where
  kind message := message.declaration.kind
  outline := outline
  encode := toJson
  decode := ofJson

end Message

end EffectLoop
