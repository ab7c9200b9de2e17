import EffectLoop.Time.Handle

/-!
# Simulation trees

A simulation tree supplies the outcomes to assume for a command, in the shape of the command.  The
document form is untagged: an object with a boolean `success` is the outcome of a RUN, an object
with a `handle` that of a schedule, an array holds the outcomes of a list by position.
-/

namespace EffectLoop

/-- Outcomes to assume for a command. -/
inductive Simulation where
  /-- The outcome of a RUN. -/
  | run (result : Json) (success : Bool)
  /-- The handle of a schedule, and the outcomes of the command it executes. -/
  | scheduled (handle : TimerHandle) (nested : Option Simulation)
  /-- The outcomes of a list, by position. -/
  | many (entries : List Simulation)

namespace Simulation

mutual

/-- The document of a tree. -/
def encode : Simulation → Json
  | run result success => Json.ofFields [("result", result), ("success", .bool success)]
  | scheduled handle nested =>
      Json.ofFields (("handle", handle.encode) :: encodeNested nested)
  | many entries => .array (encodeEntries entries)

def encodeNested : Option Simulation → List (String × Json)
  | none => []
  | some nested => [("nested", encode nested)]

def encodeEntries : List Simulation → List Json
  | [] => []
  | entry :: rest => encode entry :: encodeEntries rest

end

/-- The values of all fields with the given key. -/
def fieldsNamed (key : String) (fields : List (String × Json)) : List Json :=
  (fields.filter (·.1 = key)).map (·.2)

/-- The outcome of a RUN among the fields of an object.  A key that is written twice is refused. -/
def decodeRun? (fields : List (String × Json)) : Option Simulation :=
  match fieldsNamed "success" fields, fieldsNamed "result" fields with
  | [.bool success], [] => some (run .null success)
  | [.bool success], [result] => some (run result.normalize success)
  | _, _ => none

/-- The handle of a schedule among the fields of an object. -/
def decodeHandle? (fields : List (String × Json)) : Option TimerHandle :=
  match fieldsNamed "handle" fields with
  | [value] => (TimerHandle.decode value).toOption
  | _ => none

theorem sizeOf_lt_of_mem_fieldsNamed {key : String} {fields : List (String × Json)} {value : Json}
    (found : value ∈ fieldsNamed key fields) : sizeOf value < sizeOf fields := by
  unfold fieldsNamed at found
  obtain ⟨⟨name, held⟩, kept, same⟩ := List.mem_map.1 found
  simp only at same
  subst same
  have smaller := List.sizeOf_lt_of_mem (List.mem_filter.1 kept).1
  simp only [Prod.mk.sizeOf_spec] at smaller
  omega

mutual

/-- The tree written by a document.  The three forms are tried in order, and further keys are
ignored. -/
def decode? (source : Json) : Option Simulation :=
  match source with
  | .object fields =>
      match decodeRun? fields with
      | some found => some found
      | none =>
          match decodeHandle? fields with
          | none => none
          | some handle =>
              match _named : fieldsNamed "nested" fields with
              | [] => some (scheduled handle none)
              | [nested] =>
                  if nested.isNull then some (scheduled handle none)
                  else (decode? nested).map fun found => scheduled handle (some found)
              | _ => none
  | .array items => (decodeEntries? items).map many
  | _ => none
termination_by sizeOf source
decreasing_by
  · have smaller : sizeOf nested < sizeOf fields :=
      sizeOf_lt_of_mem_fieldsNamed (by rw [_named]; exact List.mem_singleton.2 rfl)
    simp only [Json.object.sizeOf_spec]
    omega
  · simp only [Json.array.sizeOf_spec]
    omega

def decodeEntries? (source : List Json) : Option (List Simulation) :=
  match source with
  | [] => some []
  | item :: rest =>
      match decode? item with
      | none => none
      | some entry => (decodeEntries? rest).map (entry :: ·)
termination_by sizeOf source

end

/-- What a document says that is no simulation tree. -/
def refusal : String := "data did not match any variant of untagged enum Simulation"

/-- The tree written by a document, or the refusal. -/
def decode (source : Json) : Except String Simulation :=
  match decode? source with
  | some found => .ok found
  | none => .error refusal

mutual

/-- The outline of a tree. -/
def outline : Simulation → Outline
  | run result success =>
      .record "Run" [("result", result.outline), ("success", .ofBool success)] false
  | scheduled handle nested =>
      .record "Scheduled" [("handle", handle.outline), ("nested", outlineNested nested)] false
  | many entries => .tuple "Many" [.list (outlineEntries entries)]

def outlineNested : Option Simulation → Outline
  | none => .ofOption none
  | some nested => .ofOption (some (outline nested))

def outlineEntries : List Simulation → List Outline
  | [] => []
  | entry :: rest => outline entry :: outlineEntries rest

end

end Simulation

end EffectLoop
