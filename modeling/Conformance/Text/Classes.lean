/-!
# Sets of characters as intervals

A character class of the Unicode standard is a list of closed intervals of code
points in ascending order. Membership walks the list and stops at the first
interval that begins above the character, so a table needs no index.
-/

namespace Conformance.Text

/-- Closed intervals of code points, ascending and disjoint. -/
abbrev Intervals := List (Nat × Nat)

/-- Membership in an ascending list of intervals. The walk stops as soon as the
next interval begins above the code point. -/
def Intervals.contains : Intervals → Nat → Bool
  | [], _ => false
  | (low, high) :: rest, code =>
    if code < low then false else if code ≤ high then true else contains rest code

/-- Code points from `low` to `high` at distances of `step`. Alternating tables
such as upper and lower case letters need few runs in this form. -/
structure Run where
  low : Nat
  high : Nat
  step : Nat
  deriving Repr, DecidableEq

/-- The run reaches the code point in whole steps. -/
def Run.contains (run : Run) (code : Nat) : Bool :=
  run.low ≤ code && code ≤ run.high && (code - run.low) % run.step == 0

/-!
## Blank characters

White space in the sense of the Unicode property, and with it the four
information separators U+001C to U+001F.
-/

/-- The blank characters: ten intervals, twenty-nine characters. -/
def blankIntervals : Intervals := [
  (0x09, 0x0D), (0x1C, 0x20), (0x85, 0x85), (0xA0, 0xA0), (0x1680, 0x1680), (0x2000, 0x200A),
  (0x2028, 0x2029), (0x202F, 0x202F), (0x205F, 0x205F), (0x3000, 0x3000)]

/-- A blank character. -/
def isBlank (c : Char) : Bool := blankIntervals.contains c.toNat

/-- The text without its leading blanks. -/
def trimLeft (text : List Char) : List Char := text.dropWhile isBlank

/-- The text without its trailing blanks. -/
def trimRight (text : List Char) : List Char := (text.reverse.dropWhile isBlank).reverse

/-- The text without blanks at either end. -/
def trim (text : List Char) : List Char := trimRight (trimLeft text)

/-!
## Decimal digits

Every script with decimal digits has them in runs of ten consecutive code
points, zero first, so the value of a digit is its distance from the start of
its interval modulo ten. The table is that of Unicode 14.
-/

/-- Runs of decimal digits; the length of each is a multiple of ten. -/
def digitIntervals : Intervals := [
    (48, 57), (1632, 1641), (1776, 1785), (1984, 1993), (2406, 2415), (2534, 2543), (2662, 2671),
    (2790, 2799), (2918, 2927), (3046, 3055), (3174, 3183), (3302, 3311), (3430, 3439), (3558,
    3567), (3664, 3673), (3792, 3801), (3872, 3881), (4160, 4169), (4240, 4249), (6112, 6121),
    (6160, 6169), (6470, 6479), (6608, 6617), (6784, 6793), (6800, 6809), (6992, 7001), (7088,
    7097), (7232, 7241), (7248, 7257), (42528, 42537), (43216, 43225), (43264, 43273), (43472,
    43481), (43504, 43513), (43600, 43609), (44016, 44025), (65296, 65305), (66720, 66729),
    (68912, 68921), (69734, 69743), (69872, 69881), (69942, 69951), (70096, 70105), (70384,
    70393), (70736, 70745), (70864, 70873), (71248, 71257), (71360, 71369), (71472, 71481),
    (71904, 71913), (72016, 72025), (72784, 72793), (73040, 73049), (73120, 73129), (92768,
    92777), (92864, 92873), (93008, 93017), (120782, 120831), (123200, 123209), (123632, 123641),
    (125264, 125273), (130032, 130041)]

/-- The value of a decimal digit of any script. -/
def digitValue? (c : Char) : Option Nat :=
  if c.toNat < 128 then if c.isDigit then some (c.toNat - 48) else none
  else digitIntervals.findSome? fun (low, high) =>
    if low ≤ c.toNat ∧ c.toNat ≤ high then some ((c.toNat - low) % 10) else none

/-- A decimal digit of any script. -/
def isDecimalDigit (c : Char) : Bool := (digitValue? c).isSome

end Conformance.Text
