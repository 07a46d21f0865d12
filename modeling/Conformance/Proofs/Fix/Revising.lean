import Conformance.Fix.Changes
import Conformance.Proofs.Audit.Ordering

/-!
# Revised texts

What the fixers make of a text, said without the account that is kept of it: a fold over the
violations in the canonical order, in which each violation goes to the first fixer that
claims it on the text as it is by then.
-/

namespace Conformance.Fix

variable {fixers : List Fixer}

/-- Whether a fixer claims a violation. A claim that is broken off is none. -/
def Fixer.isClaimant (fixer : Fixer) (violation : Violation) (text : List Char) : Bool :=
  match fixer.claims violation text with
  | .ok answer => answer
  | .error _ => false

/-- No claim of a fixer is broken off. -/
def Decided (fixers : List Fixer) : Prop :=
  ∀ fixer ∈ fixers, ∀ violation text, ∃ answer, fixer.claims violation text = .ok answer

/-- The text that the first fixer that claims a violation makes, if it makes one. -/
def fixed? (fixers : List Fixer) (text : List Char) (violation : Violation) : Option (List Char) :=
  match fixers.find? fun fixer => fixer.isClaimant violation text with
  | none => none
  | some fixer =>
    match fixer.fix violation text with
    | .fixed text => some text
    | _ => none

/-- A text after a violation has been offered. -/
def revise (fixers : List Fixer) (text : List Char) (violation : Violation) : List Char :=
  (fixed? fixers text violation).getD text

/-- A text after the violations have been offered in their canonical order. -/
def revised (fixers : List Fixer) (violations : List Violation) (text : List Char) : List Char :=
  (violations.mergeSort Audit.mayPrecede).foldl (revise fixers) text

/-- At least one violation gets a text of a fixer when its turn comes. -/
def Applies (fixers : List Fixer) (violations : List Violation) (text : List Char) : Prop :=
  ∃ earlier violation later, violations.mergeSort Audit.mayPrecede = earlier ++ violation :: later ∧
    ((fixed? fixers (earlier.foldl (revise fixers) text) violation).isSome : Prop)

/-- How many violations get a text of a fixer, offered one after the other. -/
def fixCount (fixers : List Fixer) : List Char → List Violation → Nat
  | _, [] => 0
  | text, violation :: violations =>
    (if (fixed? fixers text violation).isSome then 1 else 0) +
      fixCount fixers (revise fixers text violation) violations

/-- How many violations get a text of a fixer, offered in their canonical order. -/
def fixes (fixers : List Fixer) (violations : List Violation) (text : List Char) : Nat :=
  fixCount fixers text (violations.mergeSort Audit.mayPrecede)

/-- Some violation is fixed if one gets a text when its turn comes. The induction is on the
violations, so the first one that is fixed ends the search. -/
theorem fixCount_ne_zero (violations : List Violation) (text : List Char) :
    fixCount fixers text violations ≠ 0 ↔ ∃ earlier violation later,
      violations = earlier ++ violation :: later ∧
        (fixed? fixers (earlier.foldl (revise fixers) text) violation).isSome := by
  induction violations generalizing text with
  | nil => simp [fixCount]
  | cons violation violations inductionHypothesis =>
    by_cases here : (fixed? fixers text violation).isSome = true
    · rw [fixCount, if_pos here]
      exact iff_of_true (by omega) ⟨[], violation, violations, rfl, here⟩
    · rw [fixCount, if_neg here, Nat.zero_add, inductionHypothesis]
      constructor
      · rintro ⟨earlier, other, behind, split, made⟩
        exact ⟨violation :: earlier, other, behind, by rw [split, List.cons_append], made⟩
      · rintro ⟨earlier, other, behind, split, made⟩
        cases earlier with
        | nil =>
          obtain ⟨rfl, rfl⟩ := List.cons.inj split
          exact absurd made here
        | cons first earlier =>
          obtain ⟨rfl, rest⟩ := List.cons.inj split
          exact ⟨earlier, other, behind, rest, made⟩

/-- Some violation is fixed if a fixer applies. -/
theorem fixes_ne_zero (violations : List Violation) (text : List Char) :
    fixes fixers violations text ≠ 0 ↔ Applies fixers violations text :=
  fixCount_ne_zero _ text

namespace Changes

/-- A violation whose claims are not broken off goes to the first fixer that claims it. -/
theorem claimant_eq (violation : Violation) (text : List Char) (found : Option Fixer)
    (unbroken : claimant? violation text fixers = .ok found) :
    found = fixers.find? fun fixer => fixer.isClaimant violation text := by
  induction fixers with
  | nil => exact (Except.ok.inj unbroken).symm
  | cons fixer fixers inductionHypothesis =>
    rw [claimant?] at unbroken
    cases claims : fixer.claims violation text with
    | error reason => simp [claims] at unbroken
    | ok answer =>
      cases answer with
      | true => simpa [claims, Fixer.isClaimant, eq_comm] using unbroken
      | false =>
        simp only [claims] at unbroken
        simpa [claims, Fixer.isClaimant] using inductionHypothesis unbroken

/-- Where no claim of a fixer is broken off, none is on any text. -/
theorem claimant_of_decided (decided : Decided fixers) (violation : Violation)
    (text : List Char) : ∃ found, claimant? violation text fixers = .ok found := by
  induction fixers with
  | nil => exact ⟨none, rfl⟩
  | cons fixer fixers inductionHypothesis =>
    obtain ⟨answer, claims⟩ := decided fixer List.mem_cons_self violation text
    obtain ⟨found, rest⟩ := inductionHypothesis fun other member =>
      decided other (List.mem_cons_of_mem fixer member)
    cases answer with
    | true => exact ⟨some fixer, by simp [claimant?, claims]⟩
    | false => exact ⟨found, by simp [claimant?, claims, rest]⟩

/-- How many violations an account has taken in. -/
def handled (changes : Changes) : Nat :=
  changes.applied + changes.skipped + changes.failures.length

/-- The first fixer that claims a violation takes it in, and what it does is told by the text
that it makes. -/
theorem apply_spec (changes : Changes) (violation : Violation) (fixer : Fixer)
    (first : (fixers.find? fun fixer => fixer.isClaimant violation changes.text) = some fixer) :
    (changes.apply fixer violation).text = revise fixers changes.text violation ∧
      (changes.apply fixer violation).applied =
        changes.applied + (if (fixed? fixers changes.text violation).isSome then 1 else 0) ∧
      (changes.apply fixer violation).handled = changes.handled + 1 := by
  simp only [revise, fixed?, first, apply, handled]
  cases fixer.fix violation changes.text <;> simp <;> omega

/-- Violations that are offered one after the other without a break revise the text one after
the other. Those are fixed that get a text when their turn comes, and each is taken in at most
once. -/
theorem offerEach_spec (violations : List Violation) (changes final : Changes)
    (unbroken : offerEach fixers changes violations = (final, none)) :
    final.text = violations.foldl (revise fixers) changes.text ∧
      final.applied = changes.applied + fixCount fixers changes.text violations ∧
      final.handled ≤ changes.handled + violations.length := by
  induction violations generalizing changes with
  | nil =>
    obtain rfl : changes = final := congrArg Prod.fst unbroken
    exact ⟨rfl, rfl, Nat.le_refl _⟩
  | cons violation violations inductionHypothesis =>
    rw [offerEach] at unbroken
    cases claimed : claimant? violation changes.text fixers with
    | error reason => simp [claimed] at unbroken
    | ok found =>
      have first := claimant_eq violation changes.text found claimed
      rw [List.foldl_cons, List.length_cons, fixCount]
      cases found with
      | none =>
        simp only [claimed] at unbroken
        have unfixed : fixed? fixers changes.text violation = none := by simp [fixed?, ← first]
        obtain ⟨text, applied, handled⟩ := inductionHypothesis changes unbroken
        rw [revise, unfixed]
        exact ⟨text, by simpa using applied, by omega⟩
      | some fixer =>
        simp only [claimed] at unbroken
        obtain ⟨same, more, once⟩ := changes.apply_spec violation fixer first.symm
        obtain ⟨text, applied, handled⟩ := inductionHypothesis _ unbroken
        rw [same] at text applied
        exact ⟨text, by omega, by omega⟩

/-- Where no claim is broken off, the work on the violations is not. -/
theorem offerEach_of_decided (decided : Decided fixers) (violations : List Violation)
    (changes : Changes) : ∃ final, offerEach fixers changes violations = (final, none) := by
  induction violations generalizing changes with
  | nil => exact ⟨changes, rfl⟩
  | cons violation violations inductionHypothesis =>
    obtain ⟨found, claimed⟩ := claimant_of_decided decided violation changes.text
    simp only [offerEach, claimed]
    cases found with
    | none => exact inductionHypothesis changes
    | some fixer => exact inductionHypothesis (changes.apply fixer violation)

/-- What the fixers make of a text without a break is the revised text, with each of its
violations taken in at most once. -/
theorem make_unbroken (violations : List Violation) (text : List Char) (changes : Changes)
    (unbroken : make fixers violations text = (changes, none)) :
    changes.text = revised fixers violations text ∧
      changes.applied = fixes fixers violations text ∧
      changes.handled ≤ violations.length := by
  rw [make, Audit.inOrder_eq] at unbroken
  obtain ⟨same, applied, handled⟩ := offerEach_spec _ (start text) changes unbroken
  rw [List.length_mergeSort] at handled
  exact ⟨same, by simpa [start, fixes] using applied,
    by simpa [start, Changes.handled] using handled⟩

/-- Where no claim is broken off, the work on a text is not. -/
theorem make_of_decided (decided : Decided fixers) (violations : List Violation)
    (text : List Char) : ∃ changes, make fixers violations text = (changes, none) :=
  offerEach_of_decided decided _ (start text)

/-- Where no claim is broken off, what the fixers make of a text is the revised text. -/
theorem make_spec (decided : Decided fixers) (violations : List Violation) (text : List Char) :
    ∃ changes, make fixers violations text = (changes, none) ∧
      changes.text = revised fixers violations text ∧
      (changes.applied ≠ 0 ↔ Applies fixers violations text) := by
  obtain ⟨changes, unbroken⟩ := make_of_decided decided violations text
  obtain ⟨same, applied, _⟩ := make_unbroken violations text changes unbroken
  exact ⟨changes, unbroken, same, by rw [applied, fixes_ne_zero]⟩

end Changes

end Conformance.Fix
