import Conformance.Json.Value
import Conformance.Number.Decimal
import Conformance.Text.Quoted

/-!
# Values in prose

How a value of a data document is shown in a line of text, when it counts as true, and
when two values are the same. A text shows itself; inside a collection it is quoted.
-/

namespace Conformance.Json

open Number

mutual

/-- A value inside a collection. -/
def inCollection : Json → List Char
  | .null => "None".toList
  | .bool value => (if value then "True" else "False").toList
  | .integer value => integerText value
  | .number value => value.text
  | .string value => Text.quoted value.toList
  | .array items => '[' :: Text.commaList (itemTexts items) ++ [']']
  | .object fields => '\x7b' :: Text.commaList (fieldTexts fields) ++ ['\x7d']

/-- The items of a collection. -/
def itemTexts : List Json → List (List Char)
  | [] => []
  | item :: rest => inCollection item :: itemTexts rest

/-- The fields of an object. -/
def fieldTexts : List (String × Json) → List (List Char)
  | [] => []
  | (name, value) :: rest =>
    (Text.quoted name.toList ++ ": ".toList ++ inCollection value) :: fieldTexts rest

end

/-- A value where a text is asked for. -/
def shown : Json → List Char
  | .string value => value.toList
  | value => value.inCollection

/-- Whether a value counts as true. -/
def isTrue : Json → Bool
  | .null => false
  | .bool value => value
  | .integer value => value != 0
  | .number value => !value.same .zero
  | .string value => value != ""
  | .array items => !items.isEmpty
  | .object fields => !fields.isEmpty

/-- The quotient that a number or a truth value stands for. -/
def ratio? : Json → Option (Int × Nat)
  | .bool value => some (if value then 1 else 0, 1)
  | .integer value => some (value, 1)
  | .number value => value.ratio?
  | _ => none

/-- Whether two values that are no collections are the same. Numbers are compared by
what they stand for. -/
def sameScalar (left right : Json) : Bool :=
  match left.ratio?, right.ratio? with
  | some (a, b), some (c, d) => a * d == c * b
  | _, _ =>
    match left, right with
    | .null, .null => true
    | .number a, .number b => a.sameKey b
    | .string a, .string b => a == b
    | _, _ => false

mutual

/-- Whether two values are the same. The fields of objects may stand in any order. -/
def same : Json → Json → Bool
  | .array items, .array others => sameItems items others
  | .object fields, .object others => fields.length == others.length && sameFields fields others
  | left, right => sameScalar left right

/-- Whether lists have the same items. -/
def sameItems : List Json → List Json → Bool
  | [], [] => true
  | item :: rest, other :: others => same item other && sameItems rest others
  | _, _ => false

/-- Whether fields have the same values elsewhere. -/
def sameFields : List (String × Json) → List (String × Json) → Bool
  | [], _ => true
  | (name, value) :: rest, others =>
    (match lookup name others with
      | some other => same value other
      | none => false) && sameFields rest others

end

instance : BEq Json := ⟨same⟩

/-- Whether a value can be counted and looked up, as collections cannot. -/
def isKey : Json → Bool
  | .array _ => false
  | .object _ => false
  | _ => true

end Conformance.Json
