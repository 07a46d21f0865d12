import Conformance.Number.Reading
import Conformance.Text.LetterCase
import Conformance.Text.Lines
import Conformance.Yaml.Node
import Conformance.Yaml.Value

/-!
# Reading settings

The value of a document. Every tag has its own reading of a text; a tag that is not known
makes the document malformed, and so does a key that cannot be one. A merge key brings
the fields of other mappings in front of the fields beside it.
-/

namespace Conformance.Yaml

open Number

/-- The tag of a node. -/
def Node.tag : Node → Tag
  | .scalar tag _ => tag
  | .sequence tag _ => tag
  | .mapping tag _ => tag

/-- The fields that a node brings in as the value of a merge key. -/
def mergedFields : Node → Except YamlError (List (Node × Node))
  | .mapping _ fields => .ok fields
  | .sequence _ items =>
    (items.reverse.mapM fun (item : Node) => match item with
      | .mapping _ fields => (.ok fields : Except YamlError (List (Node × Node)))
      | _ => .error .malformed).map List.flatten
  | .scalar _ _ => .error .malformed

/-- A key of a mapping; the key that stands for the whole is a text there. -/
def plainKey : Node → Node
  | .scalar .value text => .scalar .text text
  | key => key

mutual

/-- A node without merge keys. -/
def flatten : Node → Except YamlError Node
  | .scalar tag text => .ok (.scalar tag text)
  | .sequence tag items => do pure (.sequence tag (← flattenItems items))
  | .mapping tag fields => do
    let (merged, own) ← flattenFields fields
    pure (.mapping tag (merged ++ own))

/-- The items of a sequence without merge keys. -/
def flattenItems : List Node → Except YamlError (List Node)
  | [] => .ok []
  | item :: rest => do
    let item ← flatten item
    let rest ← flattenItems rest
    pure (item :: rest)

/-- The fields that the merge keys of a mapping bring in, and its own. -/
def flattenFields : List (Node × Node) → Except YamlError (List (Node × Node) × List (Node × Node))
  | [] => .ok ([], [])
  | (key, value) :: rest => do
    let key ← flatten key
    let value ← flatten value
    let (merged, own) ← flattenFields rest
    if key.tag = .merge then
      let here ← mergedFields value
      pure (here ++ merged, own)
    else pure (merged, (plainKey key, value) :: own)

end

/-- The words for truth values. -/
def truthWords : List (String × Bool) :=
  [("yes", true), ("no", false), ("true", true), ("false", false), ("on", true), ("off", false)]

/-- Without the underscores that may stand between digits. -/
def withoutUnderscores (text : List Char) : List Char := text.filter (· != '_')

/-- An integer in decimal digits. -/
def readInteger (text : List Char) : Except YamlError Int :=
  match integer? text with
  | some value => .ok value
  | none => .error .badNumber

/-- A binary number. -/
def readBinary (text : List Char) : Except YamlError Binary64 :=
  match binary? text with
  | some value => .ok value
  | none => .error .badNumber

/-- An integer in the digits of a base. -/
def basedInteger (base : Nat) (text : List Char) : Except YamlError Int :=
  match text.mapM hexValue? with
  | some (d :: more) =>
    if (d :: more).all (· < base) then
      .ok (Int.ofNat ((d :: more).foldl (fun total d => total * base + d) 0))
    else .error .badNumber
  | _ => .error .badNumber

/-- The parts of a number that counts in sixties. -/
def sixtyParts (text : List Char) : List (List Char) := Text.splitAt ':' text

/-- An integer in one of the notations of settings. -/
def integerValue (text : List Char) : Except YamlError Int :=
  match withoutUnderscores text with
  | [] => .error .emptyNumber
  | c :: rest =>
    let digits := if c = '-' ∨ c = '+' then rest else c :: rest
    let signed (value : Int) : Int := if c = '-' then -value else value
    signed <$> match digits with
      | [] => .error .emptyNumber
      | ['0'] => .ok 0
      | '0' :: 'b' :: rest => basedInteger 2 rest
      | '0' :: 'x' :: rest => basedInteger 16 rest
      | '0' :: rest => basedInteger 8 ('0' :: rest)
      | digits =>
        if digits.contains ':' then
          ((sixtyParts digits).mapM readInteger).map fun parts =>
            parts.foldl (fun total part => total * 60 + part) 0
        else readInteger digits

/-- The sum of parts that count in sixties; the parts stand in the order from the last,
and the base is the value of one of them. -/
def sixtySum : (base : Nat) → List Binary64 → Binary64 → Binary64
  | _, [], total => total
  | base, part :: parts, total => sixtySum (base * 60) parts (total.add (part.mul (.ofInt base)))

/-- A binary number in one of the notations of settings. -/
def floatValue (text : List Char) : Except YamlError Binary64 :=
  match Text.lower (withoutUnderscores text) with
  | [] => .error .emptyNumber
  | c :: rest =>
    let digits := if c = '-' ∨ c = '+' then rest else c :: rest
    let signed (value : Binary64) : Binary64 := if c = '-' then value.negate else value
    if digits = ".inf".toList then .ok (signed (.infinite false))
    else if digits = ".nan".toList then .ok .undefined
    else if digits.contains ':' then
      ((sixtyParts digits).mapM readBinary).map fun parts => signed (sixtySum 1 parts.reverse .zero)
    else (readBinary digits).map signed

/-- The form of a day or a moment. Its groups are year, month, day, hour, minute, second,
fraction, zone, and the sign, hours and minutes of the zone. -/
def timestampForm : Pattern :=
  .ofText ("^([0-9][0-9][0-9][0-9])-([0-9][0-9]?)-([0-9][0-9]?)" ++
    "(?:(?:[Tt]|[ \\t]+)([0-9][0-9]?):([0-9][0-9]):([0-9][0-9])(?:\\.([0-9]*))?" ++
    "(?:[ \\t]*(Z|([-+])([0-9][0-9]?)(?::([0-9][0-9]))?))?)?$")

/-- A day or a moment. -/
def timestampValue (text : List Char) : Except YamlError Value :=
  match timestampForm.matchStart text with
  | none => .error .noDate
  | some found =>
    let number (index : Nat) : Nat :=
      ofDigits (((found.group? index).getD []).map fun c => c.toNat - 48)
    let day : Day := ⟨number 1, number 2, number 3⟩
    if (found.group? 4).isNone then if day.isValid then .ok (.day day) else .error .badDate
    else
      let fraction := ((found.group? 7).getD []).take 6
      let microsecond := ofDigits (fraction.map fun c => c.toNat - 48) * Nat.pow 10 (6 - fraction.length)
      let ahead := number 10 * 3600 + number 11 * 60
      let zone : Option Int :=
        match found.group? 8, found.group? 9 with
        | none, _ => none
        | some _, none => some 0
        | some _, some sign => some (if sign = ['-'] then -ahead else ahead)
      if day.isValid && number 4 < 24 && number 5 < 60 && number 6 < 60 && ahead < daySeconds then
        .ok (.moment ⟨day, number 4, number 5, number 6, microsecond, zone⟩)
      else .error .badDate

/-- The value of a character of the encoding of bytes in letters. -/
def sextet? (c : Char) : Option Nat :=
  if 'A' ≤ c ∧ c ≤ 'Z' then some (c.toNat - 65)
  else if 'a' ≤ c ∧ c ≤ 'z' then some (c.toNat - 71)
  else if c.isDigit then some (c.toNat + 4)
  else if c = '+' then some 62
  else if c = '/' then some 63
  else none

/-- Bytes encoded in letters, four to three bytes. The state is the place in the group of
four, the bits that are left over and the pads so far; other characters are skipped. -/
def binaryBytes : (place left pads : Nat) → List Char → Except YamlError (List UInt8)
  | place, _, _, [] => if place = 0 then .ok [] else .error .malformed
  | place, left, pads, c :: rest =>
    let emit (byte left place : Nat) : Except YamlError (List UInt8) :=
      (binaryBytes place left 0 rest).map (UInt8.ofNat byte :: ·)
    if c = '=' then
      if 2 ≤ place ∧ 4 ≤ place + pads + 1 then .ok []
      else binaryBytes place left (if 2 ≤ place then pads + 1 else pads) rest
    else match sextet? c, place with
      | none, _ => binaryBytes place left pads rest
      | some v, 0 => binaryBytes 1 v 0 rest
      | some v, 1 => emit (left * 4 + v / 16) (v % 16) 2
      | some v, 2 => emit (left * 16 + v / 4) (v % 4) 3
      | some v, _ => emit (left * 64 + v) 0 0

/-- The value of a scalar. -/
def scalarValue (tag : Tag) (text : List Char) : Except YamlError Value :=
  match tag with
  | .null => .ok .null
  | .bool =>
    match (truthWords.find? fun (word, _) => word.toList == Text.lower text).map (·.2) with
    | some value => .ok (.bool value)
    | none => .error .badWord
  | .integer => (integerValue text).map .integer
  | .float => (floatValue text).map .number
  | .binary =>
    if text.all (·.toNat < 128) then (binaryBytes 0 0 0 text).map .bytes else .error .malformed
  | .timestamp => timestampValue text
  | .text => .ok (.text text)
  | _ => .error .malformed

/-- The fields of a mapping from its keys and values. A repeated key takes the last
value. -/
def mappingOf (fields : List (Value × Value)) : Except YamlError (List (Value × Value)) :=
  if fields.all fun (key, _) => key.isKey then
    .ok (fields.foldl (fun found (key, value) => Value.setField key value found) [])
  else .error .malformed

mutual

/-- The value of a node. -/
def construct : Node → Except YamlError Value
  | .scalar tag text => scalarValue tag text
  | .sequence tag items =>
    match tag with
    | .sequence => (constructItems items).map .list
    | .orderedMap => (constructPairs items).map .list
    | .pairs => (constructPairs items).map .list
    | _ => .error .malformed
  | .mapping tag fields => do
    let fields ← constructFields fields
    match tag with
    | .mapping => (mappingOf fields).map .mapping
    | .set => (mappingOf fields).map fun fields => .set (fields.map (·.1))
    | _ => .error .malformed

/-- The values of the items of a sequence. -/
def constructItems : List Node → Except YamlError (List Value)
  | [] => .ok []
  | item :: rest => do
    let value ← construct item
    let values ← constructItems rest
    pure (value :: values)

/-- The pairs of a sequence of mappings with one field each. -/
def constructPairs : List Node → Except YamlError (List Value)
  | [] => .ok []
  | .mapping _ fields :: rest => do
    let found ← constructFields fields
    let others ← constructPairs rest
    match found with
    | [(key, value)] => pure (.pair key value :: others)
    | _ => .error .malformed
  | _ :: _ => .error .malformed

/-- The keys and values of a mapping. -/
def constructFields : List (Node × Node) → Except YamlError (List (Value × Value))
  | [] => .ok []
  | (key, value) :: rest => do
    let key ← construct key
    let value ← construct value
    let fields ← constructFields rest
    pure ((key, value) :: fields)

end

/-- A character that may stand in a document. -/
def isAllowed (c : Char) : Bool :=
  let n := c.toNat
  n == 0x09 || n == 0x0A || n == 0x0D || (0x20 ≤ n && n ≤ 0x7E) || n == 0x85 ||
    (0xA0 ≤ n && n ≤ 0xD7FF) || (0xE000 ≤ n && n ≤ 0xFFFD) || 0x10000 ≤ n

/-- The value of a document. An empty one has the absent value. -/
def load (text : List Char) : Except YamlError Value :=
  if !text.all isAllowed then .error .malformed
  else do
    let found ← tokens text
    match ← document? found with
    | none => pure .null
    | some root => construct (← flatten root)

end Conformance.Yaml
