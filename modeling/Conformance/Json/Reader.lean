import Conformance.Json.Value
import Conformance.Nesting
import Conformance.Number.Decimal
import Conformance.Number.Reading

/-!
# Reading data documents

The reader accepts the standard grammar and, as numbers, the three special values
by name. White space stands between tokens only; a control character inside quotes
is refused. Of two fields with one name the later value wins, at the place of the
earlier. Arrays and objects are only read so deep.
-/

namespace Conformance.Json

open Conformance.Number

/-- Why a text is no document. -/
inductive Fault
  /-- The text breaks the grammar. -/
  | malformed
  | oversized (error : OversizedInteger)
  /-- Too many arrays and objects stand in one another. -/
  | tooDeep
  deriving Repr, DecidableEq

/-- White space between tokens. -/
def isSpace (c : Char) : Bool := c == ' ' || c == '\t' || c == '\n' || c == '\r'

/-- The text behind leading white space. -/
def skipSpace (text : List Char) : List Char := text.dropWhile isSpace

/-- The value of a hexadecimal digit. -/
def hexValue? (c : Char) : Option Nat :=
  if '0' ≤ c ∧ c ≤ '9' then some (c.toNat - 48)
  else if 'a' ≤ c ∧ c ≤ 'f' then some (c.toNat - 87)
  else if 'A' ≤ c ∧ c ≤ 'F' then some (c.toNat - 55)
  else none

/-- Four hexadecimal digits. -/
def unit? : List Char → Option (Nat × List Char)
  | a :: b :: c :: d :: rest => do
    let a ← hexValue? a
    let b ← hexValue? b
    let c ← hexValue? c
    let d ← hexValue? d
    pure (((a * 16 + b) * 16 + c) * 16 + d, rest)
  | _ => none

/-- The character that an escaped letter stands for. -/
def simpleEscape? (c : Char) : Option Char :=
  if c = '"' ∨ c = '\\' ∨ c = '/' then some c
  else if c = 'b' then some '\x08'
  else if c = 'f' then some '\x0c'
  else if c = 'n' then some '\n'
  else if c = 'r' then some '\r'
  else if c = 't' then some '\t'
  else none

/-- A character written by units: a leading and a trailing surrogate together, or one
unit. A surrogate without its partner is shown as the replacement character. -/
def escapedUnits? (rest : List Char) : Option (Char × List Char) :=
  match unit? rest with
  | none => none
  | some (unit, rest) =>
    if 0xD800 ≤ unit ∧ unit < 0xDC00 then
      match rest with
      | '\\' :: 'u' :: more =>
        match unit? more with
        | some (trail, more) =>
          if 0xDC00 ≤ trail ∧ trail < 0xE000 then
            some (Char.ofNat (0x10000 + (unit - 0xD800) * 0x400 + (trail - 0xDC00)), more)
          else some ('\ufffd', rest)
        | none => some ('\ufffd', rest)
      | _ => some ('\ufffd', rest)
    else if 0xDC00 ≤ unit ∧ unit < 0xE000 then some ('\ufffd', rest)
    else some (Char.ofNat unit, rest)

/-- The rest of a quoted text behind its opening quote. -/
def quotedRest? : Nat → List Char → Option (List Char × List Char)
  | 0, _ => none
  | _, [] => none
  | _ + 1, '"' :: rest => some ([], rest)
  | fuel + 1, '\\' :: 'u' :: rest => do
    let (c, rest) ← escapedUnits? rest
    let (text, rest) ← quotedRest? fuel rest
    pure (c :: text, rest)
  | fuel + 1, '\\' :: letter :: rest => do
    let c ← simpleEscape? letter
    let (text, rest) ← quotedRest? fuel rest
    pure (c :: text, rest)
  | fuel + 1, c :: rest =>
    if c.toNat < 32 ∨ c = '\\' then none
    else (quotedRest? fuel rest).map fun (text, rest) => (c :: text, rest)

/-- The leading ASCII digits of a text. -/
def takeAsciiDigits (text : List Char) : List Char × List Char := text.span Char.isDigit

/-- The value of ASCII digits. -/
def asciiValue (ds : List Char) : Nat := ofDigits (ds.map fun c => c.toNat - 48)

/-- The fraction of a number, if a point and a digit follow. -/
def fractionPart (text : List Char) : List Char × List Char :=
  match text with
  | '.' :: rest =>
    match takeAsciiDigits rest with
    | ([], _) => ([], text)
    | (ds, rest) => (ds, rest)
  | _ => ([], text)

/-- The exponent of a number, if a mark and a digit follow. -/
def exponentPart (text : List Char) : Option Int × List Char :=
  match text with
  | mark :: rest =>
    if mark = 'e' ∨ mark = 'E' then
      let (negative, body) := splitSign rest
      match takeAsciiDigits body with
      | ([], _) => (none, text)
      | (ds, rest) =>
        let size : Int := asciiValue ds
        (some (if negative then -size else size), rest)
    else (none, text)
  | [] => (none, text)

/-- A number without its sign. Digits alone are a whole number; a fraction or an
exponent makes it a binary number. -/
def unsigned (negative : Bool) (text : List Char) : Except Fault (Json × List Char) :=
  let whole := match text with
    | '0' :: rest => (['0'], rest)
    | _ => takeAsciiDigits text
  match whole with
  | ([], _) => .error .malformed
  | (ds, rest) =>
    let (fraction, rest) := fractionPart rest
    let (exponent, rest) := exponentPart rest
    if fraction.isEmpty ∧ exponent.isNone then
      if ds.length > integerTextLimit then .error (.oversized ⟨ds.length⟩)
      else
        let size : Int := asciiValue ds
        .ok (.integer (if negative then -size else size), rest)
    else
      let decimal : Decimal := ⟨asciiValue (ds ++ fraction), exponent.getD 0 - fraction.length⟩
      .ok (.number (decimal.toBinary negative), rest)

/-- A keyword at the start of a text, and what it stands for. -/
def keyword? (text : List Char) : Option (Json × List Char) :=
  let table : List (String × Json) := [("null", .null), ("true", .bool true),
    ("false", .bool false), ("NaN", .number .undefined), ("Infinity", .number (.infinite false)),
    ("-Infinity", .number (.infinite true))]
  table.findSome? fun (word, value) =>
    if word.toList.isPrefixOf text then some (value, text.drop word.length) else none

/-- What a list of items or fields says next: another one, or its end. -/
def separated (close : Char) (text : List Char) : Except Fault (Bool × List Char) :=
  match skipSpace text with
  | ',' :: rest => .ok (true, skipSpace rest)
  | c :: rest => if c = close then .ok (false, rest) else .error .malformed
  | [] => .error .malformed

/-- A field name with its colon. -/
def fieldName (text : List Char) : Except Fault (String × List Char) :=
  match text with
  | '"' :: rest =>
    match quotedRest? (rest.length + 1) rest with
    | some (name, rest) =>
      match skipSpace rest with
      | ':' :: rest => .ok (String.ofList name, skipSpace rest)
      | _ => .error .malformed
    | none => .error .malformed
  | _ => .error .malformed

mutual

/-- A value at the start of a text. The first number bounds the count of parts, and the length of
the text is always enough; the second one bounds the nesting. -/
def value : Nat → Nat → List Char → Except Fault (Json × List Char)
  | 0, _, _ => .error .malformed
  | fuel + 1, room, text =>
    match text with
    | '"' :: rest =>
      match quotedRest? (rest.length + 1) rest with
      | some (content, rest) => .ok (.text content, rest)
      | none => .error .malformed
    | '[' :: rest =>
      match room with
      | 0 => .error .tooDeep
      | room + 1 =>
        match skipSpace rest with
        | ']' :: rest => .ok (.array [], rest)
        | rest => (items fuel room rest).map fun (parts, rest) => (.array parts, rest)
    | '\x7b' :: rest =>
      match room with
      | 0 => .error .tooDeep
      | room + 1 =>
        match skipSpace rest with
        | '\x7d' :: rest => .ok (.object [], rest)
        | rest => (fields fuel room rest []).map fun (parts, rest) => (.object parts, rest)
    | _ =>
      match keyword? text with
      | some found => .ok found
      | none =>
        match text with
        | '-' :: rest => unsigned true rest
        | _ => unsigned false text

/-- The items of an array behind its opening bracket. -/
def items : Nat → Nat → List Char → Except Fault (List Json × List Char)
  | 0, _, _ => .error .malformed
  | fuel + 1, room, text => do
    let (item, rest) ← value fuel room text
    let (more, rest) ← separated ']' rest
    if more then
      let (following, rest) ← items fuel room rest
      pure (item :: following, rest)
    else pure ([item], rest)

/-- The fields of an object behind its opening brace, added to those before. -/
def fields : Nat → Nat → List Char → List (String × Json) →
    Except Fault (List (String × Json) × List Char)
  | 0, _, _, _ => .error .malformed
  | fuel + 1, room, text, before => do
    let (name, rest) ← fieldName text
    let (content, rest) ← value fuel room rest
    let (more, rest) ← separated '\x7d' rest
    let known := setField name content before
    if more then fields fuel room rest known else pure (known, rest)

end

/-- Read a whole document: one value between white space. -/
def read (text : List Char) : Except Fault Json := do
  let (result, rest) ← value (text.length + 1) nestingLimit (skipSpace text)
  if (skipSpace rest).isEmpty then pure result else .error .malformed

end Conformance.Json
