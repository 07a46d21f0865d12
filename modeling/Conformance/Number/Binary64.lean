import Conformance.Number.Rounding

/-!
# Binary floating-point numbers of 64 bits

A finite number is a sign, a significand below 2^53 and a power of two; every
operation computes the exact rational result and rounds it once, to the nearest
number and to the even significand on a tie. So each operation is a fact about
integers, and closed values can be computed inside a proof.
-/

namespace Conformance.Number

/-- A number of the binary format of 64 bits. `finite negative m e` stands for
`m * 2 ^ e` with its sign; the zeros are the finite numbers with `m = 0`. -/
inductive Binary64 where
  | finite (negative : Bool) (significand : Nat) (exponent : Int)
  | infinite (negative : Bool)
  | undefined
  deriving Repr, DecidableEq

namespace Binary64

/-- The least exponent of the format; subnormal numbers have it. -/
def leastExponent : Int := -1074

/-- The greatest exponent of the format. -/
def greatestExponent : Int := 971

/-- Zero without a sign. -/
def zero : Binary64 := .finite false 0 leastExponent

/-- Round `numerator * 2 ^ (-shift) / denominator` to an integer. -/
def scaledRound (numerator denominator : Nat) (shift : Int) : Nat :=
  roundQuotient (numerator * Nat.pow 2 (-shift).toNat) (denominator * Nat.pow 2 shift.toNat)

/-- The number nearest to a positive quotient, with the given sign. The exponent is
estimated from the binary lengths and raised where the significand comes out with
54 bits, once for the estimate and once for a carry. -/
def ofQuotient (negative : Bool) (numerator denominator : Nat) : Binary64 :=
  if numerator = 0 then .finite negative 0 leastExponent
  else
    let estimate : Int := (numerator.log2 : Int) - denominator.log2 - 53
    let least := max estimate leastExponent
    let exponent :=
      if scaledRound numerator denominator least < Nat.pow 2 53 then least else least + 1
    let significand := scaledRound numerator denominator exponent
    let (significand, exponent) :=
      if significand < Nat.pow 2 53 then (significand, exponent) else (significand / 2, exponent + 1)
    if exponent > greatestExponent then .infinite negative
    else .finite negative significand exponent

/-- The number nearest to an integer. -/
def ofInt (value : Int) : Binary64 := ofQuotient (value < 0) value.natAbs 1

/-- The number nearest to a quotient of integers with a positive denominator. -/
def ofRatio (numerator : Int) (denominator : Nat) : Binary64 :=
  ofQuotient (numerator < 0) numerator.natAbs denominator

/-- The exact value of a finite number as numerator and denominator. -/
def ratio? : Binary64 → Option (Int × Nat)
  | .finite negative significand exponent =>
    let size : Int := (significand * Nat.pow 2 exponent.toNat : Nat)
    some (if negative then -size else size, Nat.pow 2 (-exponent).toNat)
  | _ => none

/-- A quotient of at most one, scaled up, is rounded to at most the scale. -/
private theorem scaledRound_le (numerator denominator scale : Nat) (positive : 0 < denominator)
    (proper : numerator ≤ denominator) :
    scaledRound numerator denominator (-(scale : Int)) ≤ Nat.pow 2 scale := by
  have down : (-(scale : Int)).toNat = 0 := by omega
  have up : (- -(scale : Int)).toNat = scale := by omega
  rw [scaledRound, down, up]
  apply roundQuotient_le
  · exact Nat.mul_pos positive (by decide)
  · calc numerator * 2 ^ scale ≤ denominator * 2 ^ scale := Nat.mul_le_mul_right _ proper
      _ = 2 ^ scale * (denominator * 2 ^ 0) := by rw [Nat.pow_zero, Nat.mul_one, Nat.mul_comm]

/-- A finite number from zero to one. -/
def IsShare (value : Binary64) : Prop :=
  ∃ part whole : Nat, value.ratio? = some ((part : Int), whole) ∧ part ≤ whole ∧ 0 < whole

/-- A significand below a power of two, scaled down by it, is a share. -/
private theorem isShare_finite (significand scale : Nat) (small : significand ≤ Nat.pow 2 scale) :
    (finite false significand (-(scale : Int))).IsShare := by
  have down : (-(scale : Int)).toNat = 0 := by omega
  have up : (- -(scale : Int)).toNat = scale := by omega
  refine ⟨significand, 2 ^ scale, ?_, small, Nat.two_pow_pos scale⟩
  simp only [ratio?, down, up]
  simp

/-- Zero is a share. -/
theorem isShare_zero : zero.IsShare := isShare_finite 0 1074 (Nat.zero_le _)

/-- The number nearest to a part of a whole is a share. Its exponent is at most -52, so neither
rounding nor a carry takes it beyond one. -/
theorem isShare_ofQuotient (part whole : Nat) (positive : 0 < whole) (proper : part ≤ whole) :
    (ofQuotient false part whole).IsShare := by
  by_cases none : part = 0
  · simp only [ofQuotient, none, if_true]
    exact isShare_zero
  · have lengths : part.log2 ≤ whole.log2 := by
      rw [Nat.le_log2 (by omega)]
      exact Nat.le_trans (Nat.log2_self_le none) proper
    generalize estimated : max ((part.log2 : Int) - whole.log2 - 53) leastExponent = least
    obtain ⟨exponent, chosen, low⟩ : ∃ exponent : Int,
        (if scaledRound part whole least < Nat.pow 2 53 then least else least + 1) = exponent ∧
          exponent ≤ -52 := by
      refine ⟨_, rfl, ?_⟩
      unfold leastExponent at estimated
      split <;> omega
    obtain ⟨scale, rfl⟩ : ∃ scale : Nat, exponent = -((scale + 1 : Nat) : Int) :=
      ⟨(-exponent).toNat - 1, by omega⟩
    have rounded := scaledRound_le part whole (scale + 1) positive proper
    simp only [ofQuotient, none, if_false, estimated, chosen]
    split
    · rw [if_neg (by unfold greatestExponent; omega)]
      exact isShare_finite _ _ rounded
    · have carried : -((scale + 1 : Nat) : Int) + 1 = -(scale : Int) := by omega
      rw [if_neg (by unfold greatestExponent; omega), carried]
      apply isShare_finite
      have doubled : Nat.pow 2 (scale + 1) = Nat.pow 2 scale * 2 := rfl
      rw [doubled] at rounded
      dsimp only
      omega

/-- Whether the number carries a minus sign. -/
def isNegative : Binary64 → Bool
  | .finite negative _ _ => negative
  | .infinite negative => negative
  | .undefined => false

/-- The opposite number. -/
def negate : Binary64 → Binary64
  | .finite negative significand exponent => .finite (!negative) significand exponent
  | .infinite negative => .infinite (!negative)
  | .undefined => .undefined

/-- The sum, rounded once. A sum of zero is positive unless both terms are
negative. -/
def add (left right : Binary64) : Binary64 :=
  match left.ratio?, right.ratio? with
  | some (a, b), some (c, d) =>
    let total := a * d + c * b
    if total = 0 then .finite (left.isNegative && right.isNegative) 0 leastExponent
    else ofRatio total (b * d)
  | _, _ =>
    match left, right with
    | .undefined, _ => .undefined
    | _, .undefined => .undefined
    | .infinite a, .infinite b => if a = b then .infinite a else .undefined
    | .infinite a, _ => .infinite a
    | _, other => other

/-- The difference, rounded once. -/
def sub (left right : Binary64) : Binary64 := add left right.negate

/-- The product, rounded once. -/
def mul (left right : Binary64) : Binary64 :=
  let negative := left.isNegative != right.isNegative
  match left.ratio?, right.ratio? with
  | some (a, b), some (c, d) => ofQuotient negative (a.natAbs * c.natAbs) (b * d)
  | _, _ =>
    if left = .undefined ∨ right = .undefined then .undefined
    else if (left.ratio?.map (·.1)) = some 0 ∨ (right.ratio?.map (·.1)) = some 0 then .undefined
    else .infinite negative

/-- The quotient by a positive integer, rounded once. -/
def divNat (left : Binary64) (divisor : Nat) : Binary64 :=
  match left.ratio? with
  | some (a, b) => ofQuotient left.isNegative a.natAbs (b * divisor)
  | none => left

/-- The greatest integer not above a finite number. -/
def floor? (value : Binary64) : Option Int :=
  value.ratio?.map fun (numerator, denominator) => numerator.fdiv denominator

/-- A finite number without its fraction. -/
def truncate? (value : Binary64) : Option Int :=
  value.ratio?.map fun (numerator, denominator) => numerator.tdiv denominator

/-- The integer nearest to a finite number, ties to even. -/
def round? (value : Binary64) : Option Int :=
  value.ratio?.map fun (numerator, denominator) =>
    let size : Int := roundQuotient numerator.natAbs denominator
    if numerator < 0 then -size else size

/-- Strict order; an undefined number is not comparable. -/
def less (left right : Binary64) : Bool :=
  match left.ratio?, right.ratio? with
  | some (a, b), some (c, d) => a * d < c * b
  | _, _ =>
    match left, right with
    | .undefined, _ => false
    | _, .undefined => false
    | .infinite a, .infinite b => a && !b
    | .infinite a, _ => a
    | _, .infinite b => !b
    | _, _ => false

/-- Numeric equality: the zeros are equal, an undefined number equals nothing. -/
def same (left right : Binary64) : Bool :=
  match left.ratio?, right.ratio? with
  | some (a, b), some (c, d) => a * d == c * b
  | _, _ => left == right && left != .undefined

/-- Whether two numbers are looked up as one. The undefined number is found again as itself. -/
def sameKey (left right : Binary64) : Bool :=
  left.same right || left == .undefined && right == .undefined

end Binary64

end Conformance.Number
