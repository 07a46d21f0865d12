import Conformance.Number.Decimal
import Conformance.Number.Reading
import Conformance.Proofs.Text.Parts
import Mathlib.Algebra.Group.Int.Defs
import Mathlib.Algebra.Group.Nat.Defs

/-!
# Decimal digits

The digits of a number tell it, also when they are filled up with zeros.
-/

namespace Conformance.Number

/-- The number that some digits spell; leading zeros do not matter. -/
def spelled (text : List Char) : Nat := Nat.ofDigitChars 10 text 0

/-- The digits of a number spell it. -/
@[simp] theorem spelled_digits (value : Nat) : spelled (digits value) = value :=
  Nat.ofDigitChars_toDigits (by decide) (by decide)

/-- Zeros in front change nothing. -/
theorem spelled_zeros (count : Nat) (text : List Char) :
    spelled (List.replicate count '0' ++ text) = spelled text := by
  induction count with
  | zero => rfl
  | succ count inductionHypothesis =>
    rw [List.replicate_succ, List.cons_append]
    exact inductionHypothesis

/-- Filled up digits spell the number. -/
@[simp] theorem spelled_padded (width value : Nat) : spelled (padded width value) = value := by
  rw [padded, spelled_zeros, spelled_digits]

/-- Filled up digits tell numbers apart, whatever their lengths are. -/
theorem padded_injective (width left right : Nat)
    (same : padded width left = padded width right) : left = right := by
  have values := congrArg spelled same
  rwa [spelled_padded, spelled_padded] at values

/-- A number has a digit. -/
theorem digits_ne_nil (value : Nat) : digits value ≠ [] := Nat.toDigits_ne_nil

/-- Digits are digits. -/
theorem isDigit_of_mem_digits (value : Nat) : ∀ c ∈ digits value, c.isDigit = true :=
  fun _ member => Nat.isDigit_of_mem_toDigits (by decide) (by decide) member

/-- The digits of a positive number begin with no zero. -/
theorem head?_digits (value : Nat) (positive : 0 < value) : (digits value).head? ≠ some '0' := by
  induction value using Nat.strongRecOn with
  | ind value inductionHypothesis =>
    by_cases small : value < 10
    · have all : ∀ digit < 10, 0 < digit → [Nat.digitChar digit].head? ≠ some '0' := by decide
      rw [digits, Nat.toDigits_of_lt_base small]
      exact all value small positive
    · have split : digits value = digits (value / 10) ++ [(value % 10).digitChar] :=
        Nat.toDigits_of_base_le (by decide) (by omega)
      have first := inductionHypothesis (value / 10) (by omega) (by omega)
      cases leading : digits (value / 10) with
      | nil => exact absurd leading (digits_ne_nil _)
      | cons c more =>
        rw [split, leading]
        rwa [leading] at first

/-- The values of the digits of a number make up the number. -/
theorem ofDigits_digits (value : Nat) :
    ofDigits ((digits value).map fun c => c.toNat - 48) = value := by
  have same : ofDigits ((digits value).map fun c => c.toNat - 48) = spelled (digits value) := by
    simp only [ofDigits, List.foldl_map, spelled, Nat.ofDigitChars, Nat.mul_comm]
    rfl
  rw [same, spelled_digits]

/-- A power of ten has one digit more than its exponent. -/
theorem length_digits_pow (exponent : Nat) : (digits (10 ^ exponent)).length = exponent + 1 := by
  apply Nat.le_antisymm
  · exact (Nat.length_toDigits_le_iff (by decide) (Nat.succ_pos _)).mpr
      (Nat.pow_lt_pow_right (by decide) (Nat.lt_succ_self _))
  · cases exponent with
    | zero => decide
    | succ exponent =>
      apply Nat.lt_of_not_le
      intro short
      exact Nat.lt_irrefl _ ((Nat.length_toDigits_le_iff (by decide) (Nat.succ_pos _)).mp short)

end Conformance.Number

/-!
## Reading digits

A run of decimal digits of any script is read as a number, unless there are more of them than are
read. The digits of a number are read as that number.
-/

namespace Conformance.Number

open Text

/-- The code of an ASCII digit. -/
theorem code_of_isDigit {c : Char} (digit : c.isDigit = true) : 48 ≤ c.toNat ∧ c.toNat ≤ 57 := by
  simp only [Char.isDigit, Bool.and_eq_true, decide_eq_true_eq, UInt32.le_iff_toNat_le] at digit
  exact digit

/-- The value of an ASCII digit. -/
theorem digitValue?_of_isDigit {c : Char} (digit : c.isDigit = true) :
    digitValue? c = some (c.toNat - 48) := by
  have last := (code_of_isDigit digit).2
  rw [digitValue?, if_pos (by omega), if_pos digit]

/-- The code of a digit is in an interval of digits. -/
theorem exists_interval_of_isDecimalDigit {c : Char} (digit : isDecimalDigit c = true) :
    ∃ interval ∈ digitIntervals, interval.1 ≤ c.toNat ∧ c.toNat ≤ interval.2 := by
  rw [isDecimalDigit, digitValue?] at digit
  split at digit
  · split at digit
    · next ascii => exact ⟨(48, 57), List.mem_cons_self, code_of_isDigit ascii⟩
    · cases digit
  · obtain ⟨value, found⟩ := Option.isSome_iff_exists.mp digit
    obtain ⟨⟨low, high⟩, member, inside⟩ := List.exists_of_findSome?_eq_some found
    have within : low ≤ c.toNat ∧ c.toNat ≤ high := by
      by_contra outside
      simp [outside] at inside
    exact ⟨(low, high), member, within⟩

/-- No digit is a blank. -/
theorem isBlank_of_isDecimalDigit {c : Char} (digit : isDecimalDigit c = true) : isBlank c = false := by
  have apart : ∀ digits ∈ digitIntervals, ∀ blanks ∈ blankIntervals,
      digits.2 < blanks.1 ∨ blanks.2 < digits.1 := by decide +kernel
  obtain ⟨digits, ofDigits, low, high⟩ := exists_interval_of_isDecimalDigit digit
  by_contra blank
  obtain ⟨blanks, ofBlanks, first, last⟩ := exists_interval (eq_true_of_ne_false blank)
  have := apart digits ofDigits blanks ofBlanks
  omega

/-- Digits have no sign in front of them. -/
theorem splitSign_of_digits {text : List Char} (all : ∀ c ∈ text, isDecimalDigit c = true) :
    splitSign text = (false, text) := by
  unfold splitSign
  split
  · exact absurd (all '-' List.mem_cons_self) (by decide)
  · exact absurd (all '+' List.mem_cons_self) (by decide)
  · rfl

/-- Digits are read one by one. -/
theorem digitRun?_of_digits {afterDigit : Bool} {text : List Char} (filled : text ≠ [] ∨ afterDigit = true)
    (all : ∀ c ∈ text, isDecimalDigit c = true) :
    digitRun? afterDigit text = some (text.map fun c => (digitValue? c).getD 0) := by
  induction text generalizing afterDigit with
  | nil =>
    obtain rfl : afterDigit = true := filled.resolve_left fun none => none rfl
    rfl
  | cons c text inductionHypothesis =>
    obtain ⟨first, others⟩ := List.forall_mem_cons.mp all
    obtain ⟨value, found⟩ := Option.isSome_iff_exists.mp first
    simp [digitRun?, found, inductionHypothesis (.inr rfl) others]

/-- Digits have no white space around them. -/
theorem bare_of_digits {text : List Char} (all : ∀ c ∈ text, isDecimalDigit c = true) :
    bare text = text := by
  have solid {c : Char} (digit : isDecimalDigit c = true) : ¬ isMargin c = true := by
    simp [isMargin, isBlank_of_isDecimalDigit digit]
  have kept {text : List Char} (all : ∀ c ∈ text, isDecimalDigit c = true) :
      text.dropWhile isMargin = text := by
    cases text with
    | nil => rfl
    | cons c rest => exact List.dropWhile_cons_of_neg (solid (all c List.mem_cons_self))
  rw [bare, kept all, kept fun c member => all c (List.mem_reverse.mp member), List.reverse_reverse]

/-- A run of digits is read as a number, unless there are too many. -/
theorem integer?_of_digits {text : List Char} (filled : text ≠ [])
    (all : ∀ c ∈ text, isDecimalDigit c = true) :
    integer? text = if text.length > integerTextLimit then none
      else some (ofDigits (text.map fun c => (digitValue? c).getD 0) : Int) := by
  rw [integer?, bare_of_digits all, splitSign_of_digits all]
  simp only [digitRun?_of_digits (.inl filled) all, List.length_map]
  rfl

/-- The digits of a number are digits. -/
theorem isDecimalDigit_of_mem_digits (value : Nat) : ∀ c ∈ digits value, isDecimalDigit c = true := by
  intro c member
  rw [isDecimalDigit, digitValue?_of_isDigit (isDigit_of_mem_digits value c member)]
  rfl

/-- The digits of a number are read as the number, unless there are too many. -/
theorem integer?_digits (value : Nat) :
    integer? (digits value) =
      if (digits value).length > integerTextLimit then none else some (value : Int) := by
  have values : (digits value).map (fun c => (digitValue? c).getD 0) =
      (digits value).map fun c => c.toNat - 48 := by
    refine List.map_congr_left fun c member => ?_
    rw [digitValue?_of_isDigit (isDigit_of_mem_digits value c member)]
    rfl
  rw [integer?_of_digits (digits_ne_nil value) (isDecimalDigit_of_mem_digits value), values,
    ofDigits_digits]

end Conformance.Number
