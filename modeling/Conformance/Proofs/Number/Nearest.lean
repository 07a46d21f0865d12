import Conformance.Number.Binary64
import Mathlib.Algebra.Order.Field.Power
import Mathlib.Algebra.Order.Floor.Ring
import Mathlib.Data.Int.ConditionallyCompleteOrder
import Mathlib.Data.Int.Log
import Mathlib.Data.Rat.Floor
import Mathlib.Tactic.FieldSimp
import Mathlib.Tactic.Linarith
import Mathlib.Tactic.Positivity
import Mathlib.Tactic.Ring

/-!
# Binary numbers as rounded rationals

Every binary number that is made of a quotient is the quotient rounded to its nearest multiple of
a power of two. Which power depends on the size of the quotient alone and grows with it, so
rounding keeps the order of quotients, and it changes no quotient that is such a multiple
already.
-/

namespace Conformance.Number

/-! ## Rounding to integers -/

/-- The integer nearest to a rational number, ties to even. -/
def nearestInt (q : ℚ) : ℤ :=
  if Int.fract q < 1 / 2 then ⌊q⌋
  else if 1 / 2 < Int.fract q then ⌊q⌋ + 1
  else if ⌊q⌋ % 2 = 0 then ⌊q⌋ else ⌊q⌋ + 1

/-- The nearest integer is the one below or the one above. -/
theorem nearestInt_bounds (q : ℚ) : ⌊q⌋ ≤ nearestInt q ∧ nearestInt q ≤ ⌊q⌋ + 1 := by
  unfold nearestInt
  split_ifs <;> omega

/-- An integer is nearest to itself. -/
@[simp] theorem nearestInt_intCast (z : ℤ) : nearestInt z = z := by
  simp [nearestInt]

/-- Rounding to integers keeps the order. Between the same integers the fraction decides. -/
theorem nearestInt_mono : Monotone nearestInt := by
  intro p q below
  rcases (Int.floor_mono below).lt_or_eq with apart | level
  · have first := (nearestInt_bounds p).2
    have second := (nearestInt_bounds q).1
    omega
  · have fractions : Int.fract p ≤ Int.fract q := by
      rw [← Int.self_sub_floor, ← Int.self_sub_floor, level]
      exact sub_le_sub_right below _
    unfold nearestInt
    rw [level]
    split_ifs <;> first | omega | (exfalso; linarith)

/-- A number is at least its nearest integer less one half. -/
theorem nearestInt_sub_half_le (q : ℚ) : nearestInt q - 1 / 2 ≤ q := by
  have split := Int.floor_add_fract q
  have nonneg := Int.fract_nonneg q
  unfold nearestInt
  split_ifs <;> push_cast <;> linarith

/-- What is nearer to an integer than to any below is rounded to it at least. -/
theorem le_nearestInt {q : ℚ} {z : ℤ} (near : z - 1 / 2 < q) : z ≤ nearestInt q := by
  have split := Int.floor_add_fract q
  have below := Int.fract_lt_one q
  have bounds := nearestInt_bounds q
  by_cases reached : z ≤ ⌊q⌋
  · exact reached.trans bounds.1
  · have next : (⌊q⌋ : ℚ) + 1 ≤ z := by exact_mod_cast not_le.mp reached
    have cast : (z : ℚ) < ⌊q⌋ + 2 := by linarith
    have last : z = ⌊q⌋ + 1 := by
      have bound : z < ⌊q⌋ + 2 := by exact_mod_cast cast
      omega
    have more : 1 / 2 < Int.fract q := by
      rw [last] at near
      push_cast at near
      linarith
    rw [nearestInt, if_neg (by linarith), if_pos more, last]

/-- Rounding a quotient of naturals is rounding the rational number. -/
theorem nearestInt_div (numerator denominator : ℕ) (positive : 0 < denominator) :
    nearestInt (numerator / denominator) = roundQuotient numerator denominator := by
  have whole : ⌊(numerator / denominator : ℚ)⌋ = ((numerator / denominator : ℕ) : ℤ) := by
    simpa using Rat.floor_intCast_div_natCast numerator denominator
  have size : (0 : ℚ) < denominator := by exact_mod_cast positive
  have low : ((numerator % denominator : ℕ) / denominator : ℚ) < 1 / 2 ↔
      2 * (numerator % denominator) < denominator := by
    rw [div_lt_div_iff₀ size two_pos, one_mul, mul_comm]
    exact_mod_cast Iff.rfl
  have high : 1 / 2 < ((numerator % denominator : ℕ) / denominator : ℚ) ↔
      denominator < 2 * (numerator % denominator) := by
    rw [div_lt_div_iff₀ two_pos size, one_mul, mul_comm]
    exact_mod_cast Iff.rfl
  unfold nearestInt roundQuotient
  rw [whole, Int.fract_div_natCast_eq_div_natCast_mod]
  simp only [low, high]
  split_ifs <;> first | rfl | (exfalso; omega)

/-! ## Rounding to the format -/

/-- The power of two whose multiples are the binary numbers near a quotient. -/
def spacing (q : ℚ) : ℤ := max (Int.log 2 q - 52) Binary64.leastExponent

/-- The binary number nearest to a quotient that is not negative, if exponents had no end. -/
def nearest (q : ℚ) : ℚ := nearestInt (q / 2 ^ spacing q) * 2 ^ spacing q

/-- A multiple of the spacing is nearest to itself. -/
theorem nearest_eq_self {q : ℚ} (exponent multiple : ℤ) (wide : spacing q ≤ exponent)
    (same : q = multiple * 2 ^ exponent) : nearest q = q := by
  obtain ⟨steps, rfl⟩ : ∃ steps : ℕ, exponent = steps + spacing q :=
    ⟨(exponent - spacing q).toNat, by omega⟩
  have whole : q / 2 ^ spacing q = ((multiple * 2 ^ steps : ℤ) : ℚ) := by
    rw [div_eq_iff (by positivity)]
    conv_lhs => rw [same]
    rw [zpow_add₀ two_ne_zero, zpow_natCast]
    push_cast
    ring
  rw [nearest, whole, nearestInt_intCast, ← whole, div_mul_cancel₀]
  positivity

/-- The logarithm of what is below a power of two is less than its exponent. -/
theorem log_lt {q : ℚ} (nonneg : 0 ≤ q) (exponent : ℕ) (positive : 0 < exponent)
    (small : q < 2 ^ exponent) : Int.log 2 q < exponent := by
  rcases nonneg.eq_or_lt with rfl | some
  · rw [Int.log_zero_right]
    exact_mod_cast positive
  · exact (Int.lt_zpow_iff_log_lt one_lt_two some).mp (by exact_mod_cast small)

/-- Integers and the halves between them are nearest to themselves while they are small. -/
theorem nearest_half (k : ℤ) (nonneg : (0 : ℚ) ≤ k / 2) (small : (k / 2 : ℚ) < 2 ^ 7) :
    nearest (k / 2) = k / 2 := by
  have log := log_lt nonneg 7 (by decide) small
  apply nearest_eq_self (-1) k
  · unfold spacing Binary64.leastExponent
    omega
  · rw [zpow_neg_one, div_eq_mul_inv]

/-- The nearest number to one that is not negative is not negative. -/
theorem nearest_nonneg {q : ℚ} (nonneg : 0 ≤ q) : 0 ≤ nearest q := by
  have rounded : (0 : ℤ) ≤ nearestInt (q / 2 ^ spacing q) := by
    have mono := nearestInt_mono (show (0 : ℚ) ≤ q / 2 ^ spacing q by positivity)
    rwa [← Int.cast_zero, nearestInt_intCast] at mono
  unfold nearest
  have cast : (0 : ℚ) ≤ nearestInt (q / 2 ^ spacing q) := by exact_mod_cast rounded
  positivity

/-- A quotient is at most 2^53 times its spacing. -/
theorem div_spacing_le (q : ℚ) : q / 2 ^ spacing q ≤ 2 ^ 53 := by
  rw [div_le_iff₀ (by positivity)]
  calc q ≤ 2 ^ (Int.log 2 q + 1) := (Int.lt_zpow_succ_log_self one_lt_two q).le
    _ ≤ 2 ^ (53 + spacing q) := by
      refine zpow_le_zpow_right₀ one_le_two ?_
      have := le_max_left (Int.log 2 q - 52) Binary64.leastExponent
      simp only [spacing]
      omega
    _ = 2 ^ 53 * 2 ^ spacing q := by
      rw [zpow_add₀ two_ne_zero]
      norm_num

/-- Over its spacing a quotient is rounded to 2^53 at most. -/
theorem nearestInt_spacing_le (q : ℚ) : nearestInt (q / 2 ^ spacing q) ≤ 2 ^ 53 := by
  rw [← nearestInt_intCast (2 ^ 53)]
  apply nearestInt_mono
  exact_mod_cast div_spacing_le q

/-- Where numbers are wider spaced than the least ones, a quotient is 2^52 times its spacing at
least. -/
theorem zpow_le_of_spacing {q : ℚ} (positive : 0 < q) (wide : Binary64.leastExponent < spacing q) :
    2 ^ (spacing q + 52) ≤ q := by
  have exponent : spacing q + 52 = Int.log 2 q := by
    simp only [spacing] at wide ⊢
    omega
  rw [exponent]
  exact Int.zpow_log_le_self one_lt_two positive

/-- A quotient is rounded to 2^53 times its spacing at most. -/
theorem nearest_le_zpow (q : ℚ) : nearest q ≤ 2 ^ (spacing q + 53) := by
  have rounded : (nearestInt (q / 2 ^ spacing q) : ℚ) ≤ 2 ^ 53 := by
    exact_mod_cast nearestInt_spacing_le q
  calc nearest q ≤ 2 ^ 53 * 2 ^ spacing q := by unfold nearest; gcongr
    _ = 2 ^ (spacing q + 53) := by
      rw [add_comm, zpow_add₀ two_ne_zero]
      norm_num

/-- Where numbers are wider spaced than the least ones, a quotient is rounded to 2^52 times its
spacing at least. -/
theorem zpow_le_nearest {q : ℚ} (positive : 0 < q) (wide : Binary64.leastExponent < spacing q) :
    2 ^ (spacing q + 52) ≤ nearest q := by
  have scaled : (2 : ℚ) ^ (spacing q + 52) = ((2 ^ 52 : ℤ) : ℚ) * 2 ^ spacing q := by
    rw [add_comm, zpow_add₀ two_ne_zero]
    norm_num
  have above : ((2 ^ 52 : ℤ) : ℚ) ≤ q / 2 ^ spacing q := by
    rw [le_div_iff₀ (by positivity), ← scaled]
    exact zpow_le_of_spacing positive wide
  have rounded := nearestInt_mono above
  rw [nearestInt_intCast] at rounded
  rw [scaled, nearest]
  gcongr

/-- Rounding keeps the order of what is not negative. Of two quotients with different spacings the
smaller one is rounded at most to a power of two and the greater one at least to it. -/
theorem nearest_mono : MonotoneOn nearest (Set.Ici 0) := by
  intro p nonneg q _ below
  rcases (show 0 ≤ p from nonneg).eq_or_lt with rfl | positive
  · rw [nearest_eq_self (spacing 0) 0 le_rfl (by simp)]
    exact nearest_nonneg below
  have spacings : spacing p ≤ spacing q :=
    max_le_max_right _ (Int.sub_le_sub_right (Int.log_mono_right positive below) _)
  rcases spacings.lt_or_eq with apart | level
  · have least : Binary64.leastExponent ≤ spacing p := le_max_right _ _
    calc nearest p ≤ 2 ^ (spacing p + 53) := nearest_le_zpow p
      _ ≤ 2 ^ (spacing q + 52) := zpow_le_zpow_right₀ one_le_two (by omega)
      _ ≤ nearest q := zpow_le_nearest (positive.trans_le below) (by omega)
  · have scaled : p / 2 ^ spacing q ≤ q / 2 ^ spacing q := by gcongr
    have rounded := nearestInt_mono scaled
    unfold nearest
    rw [level]
    gcongr

/-! ## The operations of the format -/

namespace Binary64

/-- The rational number that a finite binary number stands for. -/
def value? (x : Binary64) : Option ℚ := x.ratio?.map fun (numerator, denominator) => numerator / denominator

/-- A finite binary number stands for its significand times a power of two. -/
theorem value?_finite (negative : Bool) (significand : ℕ) (exponent : ℤ) :
    (finite negative significand exponent).value? =
      some (if negative then -((significand : ℚ) * 2 ^ exponent) else significand * 2 ^ exponent) := by
  have scaled : (significand : ℚ) * 2 ^ exponent.toNat / 2 ^ (-exponent).toNat =
      significand * 2 ^ exponent := by
    obtain ⟨size, rfl | rfl⟩ := exponent.eq_nat_or_neg
    · simp
    · simp [div_eq_mul_inv]
  cases negative <;> simp [value?, ratio?, scaled, neg_div]

/-- What is rounded to a significand is the quotient over a power of two. -/
theorem scaledRound_eq (numerator denominator : ℕ) (positive : 0 < denominator) (shift : ℤ) :
    (scaledRound numerator denominator shift : ℤ) =
      nearestInt ((numerator / denominator : ℚ) / 2 ^ shift) := by
  have scaled : (numerator / denominator : ℚ) / 2 ^ shift =
      ((numerator * Nat.pow 2 (-shift).toNat : ℕ) : ℚ) / (denominator * Nat.pow 2 shift.toNat : ℕ) := by
    obtain ⟨size, rfl | rfl⟩ := shift.eq_nat_or_neg
    · simp [div_div]
    · simp [div_eq_mul_inv, mul_right_comm]
  have size : 0 < denominator * Nat.pow 2 shift.toNat := Nat.mul_pos positive (Nat.two_pow_pos _)
  rw [scaled, nearestInt_div _ _ size, scaledRound]

/-- The binary lengths tell the power of two below a quotient, or the one above that. -/
theorem log_div (numerator denominator : ℕ) (positive : 0 < denominator) (filled : numerator ≠ 0) :
    (numerator.log2 : ℤ) - denominator.log2 - 1 ≤ Int.log 2 (numerator / denominator : ℚ) ∧
      Int.log 2 (numerator / denominator : ℚ) ≤ (numerator.log2 : ℤ) - denominator.log2 := by
  have size : (0 : ℚ) < denominator := by exact_mod_cast positive
  have nonzero : (0 : ℚ) < numerator := by exact_mod_cast Nat.pos_of_ne_zero filled
  have quotient : (0 : ℚ) < numerator / denominator := by positivity
  have least : (2 : ℚ) ^ numerator.log2 ≤ numerator := by exact_mod_cast Nat.log2_self_le filled
  have most : (numerator : ℚ) < 2 ^ (numerator.log2 + 1) := by exact_mod_cast Nat.lt_log2_self
  have thin : (2 : ℚ) ^ denominator.log2 ≤ denominator := by
    exact_mod_cast Nat.log2_self_le positive.ne'
  have thick : (denominator : ℚ) < 2 ^ (denominator.log2 + 1) := by exact_mod_cast Nat.lt_log2_self
  constructor
  · rw [← Int.zpow_le_iff_le_log one_lt_two quotient, le_div_iff₀ size]
    calc (2 : ℚ) ^ ((numerator.log2 : ℤ) - denominator.log2 - 1) * denominator
        ≤ 2 ^ ((numerator.log2 : ℤ) - denominator.log2 - 1) * 2 ^ (denominator.log2 + 1) := by gcongr
      _ = 2 ^ numerator.log2 := by
        rw [← zpow_natCast, ← zpow_add₀ two_ne_zero, ← zpow_natCast]
        congr 1
        push_cast
        ring
      _ ≤ numerator := least
  · rw [← Int.lt_add_one_iff, ← Int.lt_zpow_iff_log_lt one_lt_two quotient, div_lt_iff₀ size]
    calc (numerator : ℚ) < 2 ^ (numerator.log2 + 1) := most
      _ = 2 ^ ((numerator.log2 : ℤ) - denominator.log2 + 1) * 2 ^ denominator.log2 := by
        rw [← zpow_natCast, ← zpow_natCast, ← zpow_add₀ two_ne_zero]
        congr 1
        push_cast
        ring
      _ ≤ 2 ^ ((numerator.log2 : ℤ) - denominator.log2 + 1) * denominator := by gcongr

/-- Where a quotient is rounded up to 2^53 times its spacing, it has one digit less over the double
of it. -/
theorem nearestInt_carry {q : ℚ} (full : nearestInt (q / 2 ^ spacing q) = 2 ^ 53) :
    nearestInt (q / 2 ^ (spacing q + 1)) = 2 ^ 52 := by
  have halved : q / 2 ^ (spacing q + 1) = q / 2 ^ spacing q / 2 := by
    rw [zpow_add₀ two_ne_zero, zpow_one, div_div]
  have least := nearestInt_sub_half_le (q / 2 ^ spacing q)
  have most := div_spacing_le q
  rw [full] at least
  have low : 2 ^ 52 ≤ nearestInt (q / 2 ^ (spacing q + 1)) := by
    apply le_nearestInt
    rw [halved]
    push_cast at least ⊢
    linarith
  have high : nearestInt (q / 2 ^ (spacing q + 1)) ≤ 2 ^ 52 := by
    rw [← nearestInt_intCast (2 ^ 52)]
    apply nearestInt_mono
    rw [halved]
    push_cast
    linarith
  exact le_antisymm high low

/-- A quotient that is rounded up to 2^53 times its spacing is 2^52 times the double of it. -/
theorem nearest_carry {q : ℚ} (full : nearestInt (q / 2 ^ spacing q) = 2 ^ 53) :
    ((2 ^ 52 : ℕ) : ℚ) * 2 ^ (spacing q + 1) = nearest q := by
  rw [nearest, full, zpow_add₀ two_ne_zero]
  push_cast
  ring

/-- The exponent that is chosen for a quotient is that of its spacing, or the one above where the
quotient is rounded up to a power of two. -/
theorem chosen_exponent {q : ℚ} (positive : 0 < q) (least : ℤ)
    (near : spacing q = least ∨ spacing q = least + 1 ∧ leastExponent ≤ least) :
    let exponent := if nearestInt (q / 2 ^ least) < 2 ^ 53 then least else least + 1
    exponent = spacing q ∨ exponent = spacing q + 1 ∧ nearestInt (q / 2 ^ spacing q) = 2 ^ 53 := by
  dsimp only
  rcases near with same | ⟨above, format⟩
  · rw [← same]
    split_ifs with small
    · exact .inl rfl
    · exact .inr ⟨rfl, le_antisymm (nearestInt_spacing_le q) (not_lt.mp small)⟩
  · have wide : 2 ^ 53 ≤ nearestInt (q / 2 ^ least) := by
      rw [← nearestInt_intCast (2 ^ 53)]
      apply nearestInt_mono
      rw [le_div_iff₀ (by positivity)]
      calc ((2 ^ 53 : ℤ) : ℚ) * 2 ^ least = 2 ^ (spacing q + 52) := by
            rw [above, add_assoc, add_comm, zpow_add₀ two_ne_zero]
            norm_num
        _ ≤ q := zpow_le_of_spacing positive (by omega)
    rw [if_neg (not_lt.mpr wide)]
    exact .inl above.symm

/-- A significand that is rounded up to 54 bits is halved, so a number is the nearest one whichever of
the two exponents has been chosen for it. -/
theorem carried_eq {q : ℚ} {significand : ℕ} {exponent : ℤ}
    (rounded : (significand : ℤ) = nearestInt (q / 2 ^ exponent))
    (fits : exponent = spacing q ∨
      exponent = spacing q + 1 ∧ nearestInt (q / 2 ^ spacing q) = 2 ^ 53) :
    let carried := if significand < Nat.pow 2 53 then (significand, exponent)
      else (significand / 2, exponent + 1)
    carried.1 * 2 ^ carried.2 = nearest q ∧ carried.2 ≤ spacing q + 1 := by
  dsimp only
  rcases fits with rfl | ⟨rfl, full⟩
  · by_cases short : significand < Nat.pow 2 53
    · rw [if_pos short]
      refine ⟨?_, Int.le_add_one le_rfl⟩
      rw [nearest, ← rounded]
      norm_cast
    · have most := nearestInt_spacing_le q
      have reached : 2 ^ 53 ≤ significand := not_lt.mp short
      have full : significand = 2 ^ 53 := by omega
      rw [if_neg short, full]
      refine ⟨nearest_carry ?_, le_rfl⟩
      rw [← rounded, full]
      norm_cast
  · have half : significand = 2 ^ 52 := by
      have := nearestInt_carry full
      omega
    rw [half, if_pos (show 2 ^ 52 < Nat.pow 2 53 by decide)]
    exact ⟨nearest_carry full, le_rfl⟩

/-- What is made of a quotient is the number nearest to it, unless its exponent is beyond the
greatest one. -/
theorem ofQuotient_eq (negative : Bool) (numerator denominator : ℕ) (positive : 0 < denominator) :
    ∃ (significand : ℕ) (exponent : ℤ),
      significand * 2 ^ exponent = nearest (numerator / denominator : ℚ) ∧
      exponent ≤ spacing (numerator / denominator : ℚ) + 1 ∧
      ofQuotient negative numerator denominator =
        if exponent > greatestExponent then .infinite negative
        else .finite negative significand exponent := by
  by_cases filled : numerator = 0
  · refine ⟨0, leastExponent, ?_, ?_, ?_⟩
    · rw [filled, nearest_eq_self (spacing _) 0 le_rfl (by simp)]
      simp
    · exact (le_max_right _ _).trans (Int.le_add_one le_rfl)
    · rw [ofQuotient, if_pos filled, if_neg (by decide)]
  generalize quotient : (numerator / denominator : ℚ) = q
  have lengths := log_div numerator denominator positive filled
  rw [quotient] at lengths
  have rounded (shift : ℤ) :
      (scaledRound numerator denominator shift : ℤ) = nearestInt (q / 2 ^ shift) :=
    quotient ▸ scaledRound_eq numerator denominator positive shift
  have nonzero : 0 < q := by
    rw [← quotient]
    have := Nat.pos_of_ne_zero filled
    positivity
  generalize estimated : max ((numerator.log2 : ℤ) - denominator.log2 - 53) leastExponent = least
  have near : spacing q = least ∨ spacing q = least + 1 ∧ leastExponent ≤ least := by
    unfold spacing
    omega
  have small : scaledRound numerator denominator least < Nat.pow 2 53 ↔
      nearestInt (q / 2 ^ least) < 2 ^ 53 := by
    rw [← rounded]
    norm_cast
  have carried := carried_eq (rounded _) (chosen_exponent nonzero least near)
  simp only [ofQuotient, filled, if_false, estimated, small]
  exact ⟨_, _, carried.1, carried.2, rfl⟩

/-- A finite number that is made of a quotient stands for the number nearest to it. -/
theorem value?_ofQuotient (negative : Bool) (numerator denominator : ℕ) (positive : 0 < denominator) :
    ofQuotient negative numerator denominator = .infinite negative ∨
      (ofQuotient negative numerator denominator).value? =
        some (if negative then -nearest (numerator / denominator)
          else nearest (numerator / denominator)) := by
  obtain ⟨significand, exponent, same, _, made⟩ := ofQuotient_eq negative numerator denominator positive
  rw [made]
  split
  · exact .inl rfl
  · rw [value?_finite, same]
    exact .inr rfl

/-- Quotients below 2^100 are made finite numbers. -/
theorem value?_ofQuotient_of_lt (negative : Bool) (numerator denominator : ℕ)
    (positive : 0 < denominator) (small : (numerator / denominator : ℚ) < 2 ^ 100) :
    (ofQuotient negative numerator denominator).value? =
      some (if negative then -nearest (numerator / denominator) else nearest (numerator / denominator)) := by
  obtain ⟨significand, exponent, same, near, made⟩ :=
    ofQuotient_eq negative numerator denominator positive
  have log := log_lt (show (0 : ℚ) ≤ numerator / denominator by positivity) 100 (by decide) small
  have inside : ¬ exponent > greatestExponent := by
    unfold spacing leastExponent at near
    unfold greatestExponent
    omega
  rw [made, if_neg inside, value?_finite, same]

/-- A finite number is a quotient of integers. -/
theorem exists_ratio {x : Binary64} {p : ℚ} (value : x.value? = some p) :
    ∃ (numerator : ℤ) (denominator : ℕ), x.ratio? = some (numerator, denominator) ∧
      0 < denominator ∧ p = numerator / denominator := by
  cases x with
  | finite negative significand exponent =>
    exact ⟨_, _, rfl, Nat.two_pow_pos _, (Option.some.inj value).symm⟩
  | infinite negative => cases value
  | undefined => cases value

/-- A quotient that is not negative is made the number nearest to it. -/
theorem value?_ofRatio (numerator : ℤ) (denominator : ℕ) (positive : 0 < denominator)
    (nonneg : 0 ≤ numerator) (small : (numerator / denominator : ℚ) < 2 ^ 100) :
    (ofRatio numerator denominator).value? = some (nearest (numerator / denominator)) := by
  obtain ⟨size, rfl⟩ := Int.eq_ofNat_of_zero_le nonneg
  have made := value?_ofQuotient_of_lt false size denominator positive (by simpa using small)
  rw [ofRatio, decide_eq_false (not_lt.mpr nonneg), Int.natAbs_natCast, made]
  simp

/-- The opposite number stands for the opposite of what a number stands for. -/
theorem value?_negate {x : Binary64} {p : ℚ} (value : x.value? = some p) :
    x.negate.value? = some (-p) := by
  cases x with
  | finite negative significand exponent =>
    rw [value?_finite] at value
    rw [negate, value?_finite, ← Option.some.inj value]
    cases negative <;> simp
  | infinite negative => cases value
  | undefined => cases value

/-- The sum of two finite numbers is their exact sum as a quotient of integers, rounded where it is not zero. -/
theorem exists_add {x y : Binary64} {p q : ℚ} (left : x.value? = some p) (right : y.value? = some q) :
    ∃ (total : ℤ) (denominator : ℕ), 0 < denominator ∧ p + q = total / denominator ∧
      x.add y = if total = 0 then .finite (x.isNegative && y.isNegative) 0 leastExponent
        else ofRatio total denominator := by
  obtain ⟨a, b, first, thick, rfl⟩ := exists_ratio left
  obtain ⟨c, d, second, wide, rfl⟩ := exists_ratio right
  refine ⟨a * d + c * b, b * d, Nat.mul_pos thick wide, ?_, by simp only [add, first, second]⟩
  push_cast
  field_simp

/-- A sum that is not negative is the number nearest to the exact one. -/
theorem value?_add {x y : Binary64} {p q : ℚ} (left : x.value? = some p) (right : y.value? = some q)
    (nonneg : 0 ≤ p + q) (small : p + q < 2 ^ 100) : (x.add y).value? = some (nearest (p + q)) := by
  obtain ⟨total, denominator, positive, sum, made⟩ := exists_add left right
  rw [sum] at nonneg small ⊢
  rw [made]
  split
  · next none =>
    rw [value?_finite, none, nearest_eq_self (spacing _) 0 le_rfl (by simp)]
    simp
  · apply value?_ofRatio _ _ positive ?_ small
    have above : (0 : ℚ) < denominator := by exact_mod_cast positive
    rw [le_div_iff₀ above, zero_mul] at nonneg
    exact_mod_cast nonneg

/-- A difference that is not negative is the number nearest to the exact one. -/
theorem value?_sub {x y : Binary64} {p q : ℚ} (left : x.value? = some p) (right : y.value? = some q)
    (nonneg : 0 ≤ p - q) (small : p - q < 2 ^ 100) : (x.sub y).value? = some (nearest (p - q)) := by
  rw [sub_eq_add_neg] at nonneg small ⊢
  exact value?_add left (value?_negate right) nonneg small

/-- Finite numbers compare as what they stand for. -/
theorem less_eq {x y : Binary64} {p q : ℚ} (left : x.value? = some p) (right : y.value? = some q) :
    x.less y = decide (p < q) := by
  obtain ⟨a, b, first, thick, rfl⟩ := exists_ratio left
  obtain ⟨c, d, second, wide, rfl⟩ := exists_ratio right
  have low : (0 : ℚ) < b := by exact_mod_cast thick
  have high : (0 : ℚ) < d := by exact_mod_cast wide
  simp only [less, first, second]
  apply decide_eq_decide.mpr
  rw [div_lt_div_iff₀ low high]
  exact_mod_cast Iff.rfl

/-- The greatest integer not above a finite number. -/
theorem floor?_eq {x : Binary64} {p : ℚ} (value : x.value? = some p) : x.floor? = some ⌊p⌋ := by
  obtain ⟨a, b, first, thick, rfl⟩ := exists_ratio value
  rw [floor?, first, Rat.floor_intCast_div_natCast]
  simp [Int.fdiv_eq_ediv_of_nonneg]

/-- A sum that is not positive is rounded to a number that is not positive, or it is beyond all
finite ones. -/
theorem add_nonpos {x y : Binary64} {p q : ℚ} (left : x.value? = some p) (right : y.value? = some q)
    (nonpos : p + q ≤ 0) : x.add y = .infinite true ∨ ∃ r ≤ 0, (x.add y).value? = some r := by
  obtain ⟨total, denominator, positive, sum, made⟩ := exists_add left right
  have above : (0 : ℚ) < denominator := by exact_mod_cast positive
  rw [sum, div_le_iff₀ above, zero_mul] at nonpos
  have low : total ≤ 0 := by exact_mod_cast nonpos
  rw [made]
  split
  · exact .inr ⟨0, le_rfl, by simp [value?_finite]⟩
  · next some =>
    rw [ofRatio, decide_eq_true (lt_of_le_of_ne low some)]
    refine (value?_ofQuotient true _ _ positive).imp id fun made => ⟨_, ?_, made⟩
    exact neg_nonpos.mpr (nearest_nonneg (by positivity))

/-- A number less a quotient that is at least as great is below zero, or it is zero. -/
theorem sub_ofRatio_of_le {x : Binary64} {p : ℚ} (value : x.value? = some p) (numerator : ℤ)
    (denominator : ℕ) (positive : 0 < denominator) (fixed : nearest p = p) (nonneg : 0 ≤ p)
    (more : p ≤ numerator / denominator) :
    (x.sub (ofRatio numerator denominator)).less zero = true ∨
      (x.sub (ofRatio numerator denominator)).value? = some 0 := by
  have none : zero.value? = some 0 := by simp [zero, value?_finite]
  have size : (0 : ℚ) < denominator := by exact_mod_cast positive
  have above : 0 ≤ numerator := by
    have scaled := (le_div_iff₀ size).mp (nonneg.trans more)
    rw [zero_mul] at scaled
    exact_mod_cast scaled
  obtain ⟨count, rfl⟩ := Int.eq_ofNat_of_zero_le above
  rw [ofRatio, decide_eq_false (not_lt.mpr above), Int.natAbs_natCast]
  rw [Int.cast_natCast] at more
  rcases value?_ofQuotient false count denominator positive with unbounded | made
  · left
    rw [unbounded]
    cases x with
    | finite negative significand exponent => rfl
    | infinite negative => cases value
    | undefined => cases value
  · have bound : p ≤ nearest (count / denominator) := by
      rw [← fixed]
      exact nearest_mono nonneg (nonneg.trans more) more
    have opposite := value?_negate made
    rcases add_nonpos value opposite (by simpa using bound) with unbounded | ⟨r, nonpos, rest⟩
    · left
      rw [sub, unbounded]
      rfl
    · rcases nonpos.lt_or_eq with below | rfl
      · left
        rw [sub, less_eq rest none, decide_eq_true below]
      · exact .inr rest

end Binary64

end Conformance.Number
