import Conformance.Number.Binary64

/-!
# Decimal text of binary numbers

Three ways between a binary number and decimal text: the fewest digits that read
back to the number, a fixed number of places, and the number nearest to a decimal.
All three work on exact integers.
-/

namespace Conformance.Number

/-- The decimal digits of a natural number, leading digit first. -/
def digits (value : Nat) : List Char := Nat.toDigits 10 value

/-- The natural number that decimal digit values spell, leading digit first. -/
def ofDigits (values : List Nat) : Nat := values.foldl (fun total d => total * 10 + d) 0

/-- The text of an integer: digits, with a minus sign where it is negative. -/
def integerText (value : Int) : List Char :=
  if value < 0 then '-' :: digits value.natAbs else digits value.natAbs

/-- A natural number with at least `width` digits, filled up with zeros. -/
def padded (width value : Nat) : List Char :=
  let text := digits value
  List.replicate (width - text.length) '0' ++ text

/-- The decimal `coefficient * 10 ^ exponent`. -/
structure Decimal where
  coefficient : Nat
  exponent : Int
  deriving Repr, DecidableEq

namespace Decimal

/-- A decimal as a quotient of naturals. -/
def ratio (d : Decimal) : Nat × Nat :=
  (d.coefficient * Nat.pow 10 d.exponent.toNat, Nat.pow 10 (-d.exponent).toNat)

/-- The same decimal with trailing zeros moved into the exponent. -/
def stripZeros : Nat → Decimal → Decimal
  | 0, d => d
  | steps + 1, d =>
    if d.coefficient % 10 = 0 ∧ d.coefficient ≠ 0 then
      stripZeros steps ⟨d.coefficient / 10, d.exponent + 1⟩
    else d

/-- The binary number nearest to a decimal. Exponents far outside the format are
decided without computing the power. -/
def toBinary (negative : Bool) (d : Decimal) : Binary64 :=
  let magnitude : Int := (digits d.coefficient).length + d.exponent
  if d.coefficient = 0 then .finite negative 0 Binary64.leastExponent
  else if magnitude > 400 then .infinite negative
  else if magnitude < -400 then .finite negative 0 Binary64.leastExponent
  else let (numerator, denominator) := d.ratio; Binary64.ofQuotient negative numerator denominator

end Decimal

/-- The reals that round to the number `significand * 2 ^ exponent`, as a test on
decimals: between the midpoints to both neighbours, the midpoints included exactly
when the significand is even. Below a power of two the lower neighbour is nearer. -/
def readsBack (significand : Nat) (exponent : Int) (d : Decimal) : Bool :=
  let narrow := significand == Nat.pow 2 52 && exponent > Binary64.leastExponent
  let low := if narrow then 4 * significand - 1 else 4 * significand - 2
  let high := 4 * significand + 2
  let (numerator, denominator) := d.ratio
  let scaled := numerator * Nat.pow 2 (-(exponent - 2)).toNat
  let unit := denominator * Nat.pow 2 (exponent - 2).toNat
  if significand % 2 = 0 then low * unit ≤ scaled && scaled ≤ high * unit
  else low * unit < scaled && scaled < high * unit

/-- The least `k` with `numerator / denominator < 10 ^ k`, searched upwards from an
estimate by the binary lengths. -/
def decimalMagnitude (numerator denominator : Nat) : Int :=
  let estimate : Int := (((numerator.log2 : Int) - denominator.log2 - 1) * 30103).fdiv 100000 - 1
  let below (k : Int) : Bool := numerator * Nat.pow 10 (-k).toNat < denominator * Nat.pow 10 k.toNat
  ((List.range 6).map fun (step : Nat) => estimate + (step : Int)).find? below |>.getD estimate

/-- The decimal with the fewest digits that reads back to a positive number, and of
those the nearest, an even last digit on a tie. -/
def shortest (significand : Nat) (exponent : Int) : Decimal :=
  let numerator := significand * Nat.pow 2 exponent.toNat
  let denominator := Nat.pow 2 (-exponent).toNat
  let magnitude := decimalMagnitude numerator denominator
  let candidate (count : Nat) : Option Decimal :=
    let grid : Int := magnitude - ((count + 1 : Nat) : Int)
    let scaled := numerator * Nat.pow 10 (-grid).toNat
    let unit := denominator * Nat.pow 10 grid.toNat
    let lower : Decimal := ⟨scaled / unit, grid⟩
    let upper : Decimal := ⟨scaled / unit + 1, grid⟩
    match readsBack significand exponent lower, readsBack significand exponent upper with
    | true, true => some ⟨roundQuotient scaled unit, grid⟩
    | true, false => some lower
    | false, true => some upper
    | false, false => none
  let exact : Decimal := ⟨numerator * Nat.pow 10 (-exponent).toNat / denominator, min exponent 0⟩
  ((List.range 17).findSome? candidate |>.getD exact).stripZeros 20

/-- Decimals are written positionally while their leading digit stands between
10^-4 and 10^15, and always with a point. Outside they have a signed exponent of at
least two digits. -/
def Decimal.text (d : Decimal) : List Char :=
  let ds := digits d.coefficient
  let leading : Int := ds.length - 1 + d.exponent
  if -4 ≤ leading ∧ leading < 16 then
    if 0 ≤ d.exponent then ds ++ List.replicate d.exponent.toNat '0' ++ ['.', '0']
    else if 0 ≤ leading then
      ds.take (leading.toNat + 1) ++ '.' :: ds.drop (leading.toNat + 1)
    else '0' :: '.' :: List.replicate ((-leading).toNat - 1) '0' ++ ds
  else
    let mantissa := match ds with
      | [d] => [d]
      | d :: more => d :: '.' :: more
      | [] => []
    mantissa ++ 'e' :: (if leading < 0 then '-' else '+') :: padded 2 leading.natAbs

/-- The text of a finite number; `none` for the special values, whose spelling is
the format's own. -/
def Binary64.finiteText? : Binary64 → Option (List Char)
  | .finite negative significand exponent =>
    let body := if significand = 0 then ['0', '.', '0'] else (shortest significand exponent).text
    some (if negative then '-' :: body else body)
  | _ => none

/-- The text of a number in prose: the special values are `inf`, `-inf` and `nan`. -/
def Binary64.text (value : Binary64) : List Char :=
  match value with
  | .infinite negative => if negative then "-inf".toList else "inf".toList
  | .undefined => "nan".toList
  | other => (other.finiteText?).getD []

/-- A number with a fixed count of decimal places, rounded from its exact value,
ties to even. -/
def Binary64.fixed (places : Nat) (value : Binary64) : List Char :=
  match value.ratio? with
  | none => value.text
  | some (numerator, denominator) =>
    let ds := padded (places + 1) (roundQuotient (numerator.natAbs * Nat.pow 10 places) denominator)
    let whole := ds.take (ds.length - places)
    let body := if places = 0 then whole else whole ++ '.' :: ds.drop (ds.length - places)
    if value.isNegative then '-' :: body else body

end Conformance.Number
