/-!
# Rounding of quotients

The integer nearest to a quotient of naturals; a quotient exactly between two
integers goes to the even one.
-/

namespace Conformance.Number

/-- The integer nearest to `numerator / denominator`, ties to even. -/
def roundQuotient (numerator denominator : Nat) : Nat :=
  let quotient := numerator / denominator
  let remainder := numerator % denominator
  if 2 * remainder < denominator then quotient
  else if 2 * remainder > denominator then quotient + 1
  else if quotient % 2 = 0 then quotient else quotient + 1

/-- A quotient that is at most a natural is not rounded beyond it. -/
theorem roundQuotient_le (numerator denominator bound : Nat) (positive : 0 < denominator)
    (small : numerator ≤ bound * denominator) : roundQuotient numerator denominator ≤ bound := by
  have division := Nat.div_add_mod numerator denominator
  have low : numerator / denominator ≤ bound :=
    Nat.div_le_of_le_mul (by rw [Nat.mul_comm]; exact small)
  rcases Nat.lt_or_eq_of_le low with below | equal
  · unfold roundQuotient
    simp only
    split
    · omega
    · split <;> first | omega | (split <;> omega)
  · have exhausted : numerator % denominator = 0 := by
      rw [equal, Nat.mul_comm] at division
      omega
    simp [roundQuotient, exhausted, positive, equal]

end Conformance.Number
