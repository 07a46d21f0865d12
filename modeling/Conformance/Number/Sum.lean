/-!
# Totals

The total of a list of numbers.
-/

namespace Conformance.Number

/-- All numbers added up. -/
def total (numbers : List Nat) : Nat := numbers.foldr Nat.add 0

@[simp] theorem total_nil : total [] = 0 := rfl

@[simp] theorem total_cons (number : Nat) (numbers : List Nat) :
    total (number :: numbers) = number + total numbers := rfl

/-- Totals of two lists add up to the total of both together. -/
theorem total_append (first second : List Nat) :
    total (first ++ second) = total first + total second := by
  induction first with
  | nil => simp
  | cons number rest inductionHypothesis => simp [inductionHypothesis, Nat.add_assoc]

end Conformance.Number
