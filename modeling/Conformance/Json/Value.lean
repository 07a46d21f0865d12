import Conformance.Number.Binary64

/-!
# Data documents

The values of the data format in which results and manifests are stored. Whole
numbers and binary numbers are kept apart, and the fields of an object keep the
order in which they first arrived.
-/

namespace Conformance

/-- A value of a data document. -/
inductive Json where
  | null
  | bool (value : Bool)
  | integer (value : Int)
  | number (value : Number.Binary64)
  | string (value : String)
  | array (items : List Json)
  | object (fields : List (String × Json))
  deriving Inhabited

namespace Json

/-- Set a field. A new name goes to the end, a present one keeps its place. -/
def setField (name : String) (value : Json) : List (String × Json) → List (String × Json)
  | [] => [(name, value)]
  | (other, old) :: rest =>
    if other = name then (other, value) :: rest else (other, old) :: setField name value rest

/-- The value of a field in a list of fields. -/
def lookup (name : String) : List (String × Json) → Option Json
  | [] => none
  | (other, value) :: rest => if other = name then some value else lookup name rest

/-- The value of a field, if the value is an object that has it. -/
def field? (name : String) : Json → Option Json
  | .object fields => lookup name fields
  | _ => none

/-- A text as a value. -/
def text (value : List Char) : Json := .string (String.ofList value)

/-- A text, if a value is one. -/
def string? : Json → Option String
  | .string value => some value
  | _ => none

/-- An optional value, absent as null. -/
def ofOption {α : Type} (encode : α → Json) : Option α → Json
  | none => .null
  | some value => encode value

end Json

end Conformance
