import Conformance.Json.Value
import Conformance.Number.Reading
import Conformance.Text.Quoted

/-!
# Writing data documents

Documents are written in ASCII: every other character is escaped by its 16-bit
units. The stored form puts each item and field on a line of its own, two columns
deeper than its container; the short form has no white space at all. A document in which an
integer has too many digits cannot be written.
-/

namespace Conformance.Json

open Conformance.Number

/-- The escape of one 16-bit unit. -/
def unitEscape (unit : Nat) : List Char := '\\' :: 'u' :: Text.hexDigits 4 unit

/-- One character inside quotes. -/
def escapeChar (c : Char) : List Char :=
  if c = '"' then ['\\', '"']
  else if c = '\\' then ['\\', '\\']
  else if c = '\n' then ['\\', 'n']
  else if c = '\r' then ['\\', 'r']
  else if c = '\t' then ['\\', 't']
  else if c = '\x08' then ['\\', 'b']
  else if c = '\x0c' then ['\\', 'f']
  else if 32 ≤ c.toNat ∧ c.toNat < 127 then [c]
  else if c.toNat < 0x10000 then unitEscape c.toNat
  else
    let offset := c.toNat - 0x10000
    unitEscape (0xD800 + offset / 0x400) ++ unitEscape (0xDC00 + offset % 0x400)

/-- A text in quotes. -/
def quoted (text : List Char) : List Char := '"' :: text.flatMap escapeChar ++ ['"']

/-- A binary number; the special values have names of their own. -/
def numberText (value : Binary64) : List Char :=
  match value with
  | .infinite negative => if negative then "-Infinity".toList else "Infinity".toList
  | .undefined => "NaN".toList
  | other => (other.finiteText?).getD []

/-- The break before an item at the given depth. -/
def lineBreak (depth : Nat) : List Char := '\n' :: List.replicate (2 * depth) ' '

mutual

/-- The stored form of a value that stands at the given depth. -/
def pretty (depth : Nat) : Json → List Char
  | .null => "null".toList
  | .bool value => if value then "true".toList else "false".toList
  | .integer value => integerText value
  | .number value => numberText value
  | .string value => quoted value.toList
  | .array [] => ['[', ']']
  | .array (item :: items) =>
    '[' :: lineBreak (depth + 1) ++ pretty (depth + 1) item ++ prettyItems (depth + 1) items ++
      lineBreak depth ++ [']']
  | .object [] => ['\x7b', '\x7d']
  | .object ((name, value) :: fields) =>
    '\x7b' :: lineBreak (depth + 1) ++ quoted name.toList ++ ':' :: ' ' ::
      pretty (depth + 1) value ++ prettyFields (depth + 1) fields ++ lineBreak depth ++ ['\x7d']

/-- The items behind the first, each behind a comma and a break. -/
def prettyItems (depth : Nat) : List Json → List Char
  | [] => []
  | item :: items => ',' :: lineBreak depth ++ pretty depth item ++ prettyItems depth items

/-- The fields behind the first, each behind a comma and a break. -/
def prettyFields (depth : Nat) : List (String × Json) → List Char
  | [] => []
  | (name, value) :: fields =>
    ',' :: lineBreak depth ++ quoted name.toList ++ ':' :: ' ' :: pretty depth value ++
      prettyFields depth fields

end

/-- The stored form of a document. -/
def document (value : Json) : List Char := pretty 0 value

mutual

/-- The integers of a value, in the order in which they are written. -/
def integers : Json → List Int
  | .integer value => [value]
  | .array items => itemIntegers items
  | .object fields => fieldIntegers fields
  | _ => []

/-- The integers of items. -/
def itemIntegers : List Json → List Int
  | [] => []
  | item :: items => item.integers ++ itemIntegers items

/-- The integers of the contents of fields. -/
def fieldIntegers : List (String × Json) → List Int
  | [] => []
  | (_, value) :: fields => value.integers ++ fieldIntegers fields

end

/-- The first integer for which a value cannot be written. -/
def unwritable? (value : Json) : Option OversizedInteger :=
  value.integers.findSome? Number.unwritable?

mutual

/-- The short form of a value, without white space. -/
def compact : Json → List Char
  | .null => "null".toList
  | .bool value => if value then "true".toList else "false".toList
  | .integer value => integerText value
  | .number value => numberText value
  | .string value => quoted value.toList
  | .array items => '[' :: compactItems items ++ [']']
  | .object fields => '\x7b' :: compactFields fields ++ ['\x7d']

/-- Items between commas. -/
def compactItems : List Json → List Char
  | [] => []
  | [item] => compact item
  | item :: items => compact item ++ ',' :: compactItems items

/-- Fields between commas. -/
def compactFields : List (String × Json) → List Char
  | [] => []
  | [(name, value)] => quoted name.toList ++ ':' :: compact value
  | (name, value) :: fields =>
    quoted name.toList ++ ':' :: compact value ++ ',' :: compactFields fields

end

end Conformance.Json
