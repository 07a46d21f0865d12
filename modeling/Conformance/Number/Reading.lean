import Conformance.Number.Decimal
import Conformance.Text.Classes

/-!
# Numbers written by people

Integers and decimals as they are typed into a settings file: blanks around them,
digits of any script, single underscores between digits.
-/

namespace Conformance.Number

open Conformance.Text

/-- The longest integer text that is read or written; longer ones are refused. -/
def integerTextLimit : Nat := 4300

/-- A whole number has more digits than are read or written. -/
structure OversizedInteger where
  digitCount : Nat
  deriving Repr, DecidableEq

/-- What is said about a number with too many digits. -/
def OversizedInteger.message (error : OversizedInteger) : String :=
  "Exceeds the limit (" ++ String.ofList (digits integerTextLimit) ++
    " digits) for integer string conversion: value has " ++ String.ofList (digits error.digitCount) ++
    " digits; use sys.set_int_max_str_digits() to increase the limit"

/-- An integer that has too many digits to be written. -/
def unwritable? (value : Int) : Option OversizedInteger :=
  let length := (digits value.natAbs).length
  if length > integerTextLimit then some ⟨length⟩ else none

/-- Digits with single underscores between them, to the end of the text. The flag
says whether a digit came directly before. -/
def digitRun? : (afterDigit : Bool) → List Char → Option (List Nat)
  | afterDigit, [] => if afterDigit then some [] else none
  | afterDigit, c :: rest =>
    match digitValue? c with
    | some d => (digitRun? true rest).map (d :: ·)
    | none => if c = '_' ∧ afterDigit then digitRun? false rest else none

/-- White space that may stand around a number. The information separators may not. -/
def isMargin (c : Char) : Bool := isBlank c && !(0x1C ≤ c.toNat && c.toNat ≤ 0x1F)

/-- The text without the white space around it. -/
def bare (text : List Char) : List Char :=
  ((text.dropWhile isMargin).reverse.dropWhile isMargin).reverse

/-- An optional sign, and what stands behind it. -/
def splitSign : List Char → Bool × List Char
  | '-' :: rest => (true, rest)
  | '+' :: rest => (false, rest)
  | text => (false, text)

/-- An integer in decimal digits. -/
def integer? (text : List Char) : Option Int :=
  let (negative, body) := splitSign (bare text)
  match digitRun? false body with
  | none => none
  | some values =>
    if values.length > integerTextLimit then none
    else
      let size : Int := ofDigits values
      some (if negative then -size else size)

/-- Whether a text is an integer with too many digits. -/
def oversized? (text : List Char) : Option OversizedInteger :=
  match digitRun? false (splitSign (bare text)).2 with
  | some values => if values.length > integerTextLimit then some ⟨values.length⟩ else none
  | none => none

/-- The longest run of digits and underscores between digits, and the rest. A run may
be empty; an underscore belongs to it only between two digits. -/
def takeDigits : List Char → List Nat × List Char
  | [] => ([], [])
  | [c] => match digitValue? c with
    | some d => ([d], [])
    | none => ([], [c])
  | c :: next :: rest =>
    match digitValue? c with
    | none => ([], c :: next :: rest)
    | some d =>
      if next = '_' then
        match rest with
        | after :: _ =>
          if isDecimalDigit after then
            let (more, left) := takeDigits rest
            (d :: more, left)
          else ([d], next :: rest)
        | [] => ([d], next :: rest)
      else
        let (more, left) := takeDigits (next :: rest)
        (d :: more, left)

/-- An exponent part: a mark, an optional sign and digits. An absent part is zero. -/
def exponentPart? : List Char → Option Int
  | [] => some 0
  | mark :: rest =>
    if mark = 'e' ∨ mark = 'E' then
      let (negative, body) := splitSign rest
      match takeDigits body with
      | (d :: more, []) =>
        let size : Int := ofDigits (d :: more)
        some (if negative then -size else size)
      | _ => none
    else none

/-- A number with an optional fraction and exponent, or the name of a special value
in any case. -/
def binary? (text : List Char) : Option Binary64 :=
  let (negative, body) := splitSign (bare text)
  let name := String.ofList (body.map Char.toLower)
  if name = "inf" ∨ name = "infinity" then some (.infinite negative)
  else if name = "nan" then some .undefined
  else
    let (whole, rest) := takeDigits body
    let (fraction, rest) := match rest with
      | '.' :: rest => takeDigits rest
      | rest => ([], rest)
    if whole.isEmpty ∧ fraction.isEmpty then none
    else
      (exponentPart? rest).map fun exponent =>
        Decimal.toBinary negative ⟨ofDigits (whole ++ fraction), exponent - fraction.length⟩

end Conformance.Number
