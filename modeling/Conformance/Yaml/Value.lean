import Conformance.Nesting
import Conformance.Number.Reading
import Conformance.Text.Quoted
import Conformance.Time.Moment

/-!
# The values of settings

What a settings document can hold, and how a value is shown where a text is asked for.
A text shows itself; inside a collection it is quoted. Integers that are too long and
collections that are nested too deep cannot be shown.
-/

namespace Conformance.Yaml

open Number

/-- A value of a setting. -/
inductive Value where
  | null
  | bool (value : Bool)
  | integer (value : Int)
  | number (value : Binary64)
  | text (value : List Char)
  | day (value : Day)
  | moment (value : Moment)
  | bytes (value : List UInt8)
  | list (items : List Value)
  /-- A key and a value that stand in a list. -/
  | pair (key value : Value)
  | mapping (fields : List (Value × Value))
  | set (items : List Value)
  deriving Inhabited

/-- The numbers of a day as arguments. -/
def dayArguments (day : Day) : List (List Char) := [digits day.year, digits day.month, digits day.day]

/-- The zone of a moment inside a collection. Seconds before noon of universal time are
counted from a whole day back. -/
def zoneText (ahead : Int) : List Char :=
  if ahead = 0 then "datetime.timezone.utc".toList
  else if ahead < 0 then
    "datetime.timezone(datetime.timedelta(days=-1, seconds=".toList ++ digits (86400 + ahead).toNat ++ "))".toList
  else "datetime.timezone(datetime.timedelta(seconds=".toList ++ digits ahead.natAbs ++ "))".toList

/-- The numbers of a moment as arguments; seconds that are zero are left out from the
end. -/
def momentArguments (moment : Moment) : List (List Char) :=
  let seconds :=
    if moment.microsecond ≠ 0 then [digits moment.second, digits moment.microsecond]
    else if moment.second ≠ 0 then [digits moment.second]
    else []
  dayArguments moment.day ++ [digits moment.hour, digits moment.minute] ++ seconds ++
    match moment.zone with
    | none => []
    | some ahead => ["tzinfo=".toList ++ zoneText ahead]

/-- Bytes as they are shown, between quotation marks. -/
def bytesText (bytes : List UInt8) : List Char :=
  let characters := bytes.map fun b => Char.ofNat b.toNat
  let mark := Text.quotationMark characters
  let shown (c : Char) : List Char :=
    if c.toNat < 127 then Text.quotedChar mark c else '\\' :: 'x' :: Text.hexDigits 2 c.toNat
  'b' :: mark :: characters.flatMap shown ++ [mark]

/-- Why a value cannot be shown. -/
inductive Unshowable where
  | oversized (error : OversizedInteger)
  /-- Too many collections stand in one another. -/
  | tooDeep
  deriving Repr, DecidableEq

namespace Value

mutual

/-- A value inside a collection. -/
def quoted : Value → List Char
  | .null => "None".toList
  | .bool value => (if value then "True" else "False").toList
  | .integer value => integerText value
  | .number value => value.text
  | .text value => Text.quoted value
  | .day value => "datetime.date(".toList ++ Text.commaList (dayArguments value) ++ [')']
  | .moment value => "datetime.datetime(".toList ++ Text.commaList (momentArguments value) ++ [')']
  | .bytes value => bytesText value
  | .list items => '[' :: Text.commaList (quotedItems items) ++ [']']
  | .pair key value => '(' :: quoted key ++ ", ".toList ++ quoted value ++ [')']
  | .mapping fields => '\x7b' :: Text.commaList (quotedFields fields) ++ ['\x7d']
  | .set items =>
    if items.isEmpty then "set()".toList else '\x7b' :: Text.commaList (quotedItems items) ++ ['\x7d']

/-- The items of a collection. -/
def quotedItems : List Value → List (List Char)
  | [] => []
  | item :: rest => quoted item :: quotedItems rest

/-- The fields of a mapping. -/
def quotedFields : List (Value × Value) → List (List Char)
  | [] => []
  | (key, value) :: rest => (quoted key ++ ": ".toList ++ quoted value) :: quotedFields rest

end

/-- A value where a text is asked for. -/
def shown : Value → List Char
  | .text value => value
  | .day value => value.text
  | .moment value => value.textWith ' '
  | value => value.quoted

/-- The values that stand directly in a collection. -/
def parts? : Value → Option (List Value)
  | .list items => some items
  | .pair key value => some [key, value]
  | .mapping fields => some (fields.flatMap fun (key, value) => [key, value])
  | .set items => some items
  | _ => none

/-- What keeps a value from being shown, where so many collections may be opened. -/
def unshowable? : (room : Nat) → Value → Option Unshowable
  | _, .integer value => (unwritable? value).map .oversized
  | 0, value => if value.parts?.isSome then some .tooDeep else none
  | room + 1, value => (value.parts?.getD []).findSome? (unshowable? room)

/-- The text of a value where a text is asked for, if it can be shown. -/
def text? (value : Value) : Except Unshowable (List Char) :=
  match unshowable? nestingLimit value with
  | some reason => .error reason
  | none => .ok value.shown

/-- Whether a value counts as true. -/
def isTrue : Value → Bool
  | .null => false
  | .bool value => value
  | .integer value => value != 0
  | .number value => !value.same .zero
  | .text value => !value.isEmpty
  | .day _ => true
  | .moment _ => true
  | .bytes value => !value.isEmpty
  | .list items => !items.isEmpty
  | .pair _ _ => true
  | .mapping fields => !fields.isEmpty
  | .set items => !items.isEmpty

/-- The number that a value is as a key of a mapping; truth values are one and zero. -/
def keyNumber? : Value → Option Binary64
  | .bool value => some (.ofInt (if value then 1 else 0))
  | .integer value => some (.ofInt value)
  | .number value => some value
  | _ => none

/-- Whether two values are one key of a mapping. -/
def sameKey : Value → Value → Bool
  | .null, .null => true
  | .text left, .text right => left == right
  | .day left, .day right => left == right
  | .moment left, .moment right => left == right
  | .bytes left, .bytes right => left == right
  | .pair a b, .pair c d => sameKey a c && sameKey b d
  | .integer left, .integer right => left == right
  | left, right =>
    match left.keyNumber?, right.keyNumber? with
    | some a, some b => a.sameKey b
    | _, _ => false

/-- Whether a value can be a key of a mapping. -/
def isKey : Value → Bool
  | .list _ => false
  | .mapping _ => false
  | .set _ => false
  | .pair key value => isKey key && isKey value
  | _ => true

/-- Set the value of a key. A new key goes to the end, a present one keeps its place. -/
def setField (key value : Value) : List (Value × Value) → List (Value × Value)
  | [] => [(key, value)]
  | (other, old) :: rest =>
    if sameKey other key then (other, value) :: rest else (other, old) :: setField key value rest

/-- The value of a text as key. -/
def field? (name : String) (fields : List (Value × Value)) : Option Value :=
  (fields.find? fun (key, _) => match key with
    | .text found => found == name.toList
    | _ => false).map (·.2)

end Value

end Conformance.Yaml
