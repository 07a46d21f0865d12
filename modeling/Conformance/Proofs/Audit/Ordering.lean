import Conformance.Audit.Ordering
import Conformance.Number.Sum
import Mathlib.Data.Char
import Mathlib.Data.Int.Order.Basic
import Mathlib.Data.List.Basic
import Mathlib.Data.List.Induction
import Mathlib.Data.List.Lex
import Mathlib.Data.Prod.Lex
import Mathlib.Tactic.Common

/-!
# Order and groups

Sorting in place is the stable sort of the library, whenever the order is one. Violations are
sorted by a key: the rank of their severity, the highest first, then the characters of the
path, then the line.
-/

namespace Conformance

namespace Order

variable {α : Type}

/-- An element comes behind those that must stand before it. -/
theorem insert_between (before : α → α → Bool) (x : α) (earlier later : List α)
    (passed : ∀ y ∈ earlier, before y x = true) (stopped : ∀ y ∈ later, before y x = false) :
    insert before x (earlier ++ later) = earlier ++ x :: later := by
  induction earlier with
  | nil =>
    cases later with
    | nil => rfl
    | cons y later => simp [insert, stopped y List.mem_cons_self]
  | cons y earlier inductionHypothesis =>
    have onward := inductionHypothesis fun z member => passed z (List.mem_cons_of_mem y member)
    simp [insert, passed y List.mem_cons_self, onward]

/-- Sorting in place is the stable sort by the order in which no element must stand before
an earlier one. -/
theorem sort_eq_mergeSort (before : α → α → Bool) (atMost : α → α → Bool)
    (converse : ∀ x y, atMost x y = !before y x)
    (transitive : ∀ x y z, atMost x y → atMost y z → atMost x z)
    (total : ∀ x y, atMost x y || atMost y x) (values : List α) :
    sort before values = values.mergeSort atMost := by
  induction values with
  | nil => simp [sort]
  | cons x values inductionHypothesis =>
    obtain ⟨earlier, later, sorted, without, passed⟩ :=
      List.mergeSort_cons transitive total x values
    have ascending := List.pairwise_mergeSort transitive total (x :: values)
    rw [sorted, List.pairwise_append, List.pairwise_cons] at ascending
    rw [sort, inductionHypothesis, without, sorted]
    apply insert_between
    · intro y member
      simpa [converse] using passed y member
    · intro y member
      simpa [converse] using ascending.2.1.1 y member

end Order

namespace Audit

/-- What violations are sorted by. -/
def sortKey (violation : Violation) : ℤ ×ₗ List Char ×ₗ ℤ :=
  toLex (-(violation.severity.rank : ℤ), toLex (violation.filePath.toList, violation.line))

/-- Whether a violation may stand before another in the canonical order. -/
def mayPrecede (left right : Violation) : Bool := decide (sortKey left ≤ sortKey right)

/-- A violation may stand before another unless the other must be shown first. -/
theorem mayPrecede_eq (left right : Violation) :
    mayPrecede left right = !shownBefore right left := by
  simp only [mayPrecede, sortKey, shownBefore, Order.textBefore, Prod.Lex.toLex_le_toLex]
  by_cases ranks : right.severity.rank = left.severity.rank
  · by_cases files : right.filePath = left.filePath
    · simp only [ranks, files, ne_eq, not_true_eq_false, if_false, lt_self_iff_false, false_or,
        true_and]
      rw [← decide_not]
      exact decide_eq_decide.mpr not_lt.symm
    · have names : right.filePath.toList ≠ left.filePath.toList :=
        fun same => files (String.toList_injective same)
      have apart : left.filePath.toList < right.filePath.toList ↔
          ¬ right.filePath.toList < left.filePath.toList :=
        ⟨lt_asymm, fun notBefore => lt_of_le_of_ne (not_lt.mp notBefore) names.symm⟩
      simp only [ranks, files, names.symm, ne_eq, not_true_eq_false, not_false_eq_true, if_false,
        if_true, lt_self_iff_false, false_or, true_and, false_and, or_false]
      rw [← decide_not]
      exact decide_eq_decide.mpr apart
  · simp only [ranks, ne_eq, not_false_eq_true, if_true]
    rw [← decide_not]
    exact decide_eq_decide.mpr (by omega)

/-- The canonical order is the stable sort by the keys. -/
theorem inOrder_eq (violations : List Violation) :
    inOrder violations = violations.mergeSort mayPrecede := by
  apply Order.sort_eq_mergeSort shownBefore mayPrecede mayPrecede_eq
  · intro x y z first second
    simp only [mayPrecede, decide_eq_true_eq] at first second ⊢
    exact first.trans second
  · intro x y
    simp only [mayPrecede, Bool.or_eq_true, decide_eq_true_eq]
    exact le_total _ _

end Audit

end Conformance

/-!
## Groups

Grouping by a key loses no value and keeps the order of the values that share one: the group of a
key has exactly the values with this key, in their order.
-/

namespace Conformance.Audit

variable {κ ν : Type} [DecidableEq κ]

/-- Putting a value into the group of its key changes no other group. -/
theorem lookup_putGroup (key wanted : κ) (value : ν) (groups : List (κ × List ν)) :
    ((putGroup key value groups).lookup wanted).getD [] =
      (groups.lookup wanted).getD [] ++ if key = wanted then [value] else [] := by
  induction groups with
  | nil =>
    by_cases same : wanted = key
    · simp [putGroup, same]
    · have passed : (wanted == key) = false := beq_eq_false_iff_ne.mpr same
      simp [putGroup, List.lookup_cons, passed, Ne.symm same]
  | cons group groups inductionHypothesis =>
    obtain ⟨other, values⟩ := group
    by_cases found : other = key
    · subst found
      by_cases same : wanted = other
      · simp [putGroup, same]
      · have passed : (wanted == other) = false := beq_eq_false_iff_ne.mpr same
        simp [putGroup, List.lookup_cons, passed, Ne.symm same]
    · by_cases here : wanted = other
      · simp [putGroup, found, here, Ne.symm found]
      · have passed : (wanted == other) = false := beq_eq_false_iff_ne.mpr here
        simp [putGroup, found, List.lookup_cons, passed, inductionHypothesis]

/-- One more value is put into the group of its key. -/
theorem groupBy_concat (key : ν → κ) (values : List ν) (value : ν) :
    groupBy key (values ++ [value]) = putGroup (key value) value (groupBy key values) := by
  unfold groupBy
  rw [List.foldl_append]
  rfl

/-- The group of a key has the values with this key in their order. The induction is on the values
from the last one on. -/
theorem lookup_groupBy (key : ν → κ) (wanted : κ) (values : List ν) :
    ((groupBy key values).lookup wanted).getD [] = values.filter fun value => key value = wanted := by
  induction values using List.reverseRecOn with
  | nil => rfl
  | append_singleton values value inductionHypothesis =>
    rw [groupBy_concat, lookup_putGroup, inductionHypothesis, List.filter_append]
    by_cases same : key value = wanted <;> simp [same]

/-- Putting a value into a group adds one to what all groups have. -/
theorem total_putGroup (key : κ) (value : ν) (groups : List (κ × List ν)) :
    Number.total ((putGroup key value groups).map fun group => group.2.length) =
      Number.total (groups.map fun group => group.2.length) + 1 := by
  induction groups with
  | nil => rfl
  | cons group groups inductionHypothesis =>
    obtain ⟨other, values⟩ := group
    unfold putGroup
    split
    · simp only [List.map_cons, Number.total_cons, List.length_append, List.length_singleton]
      omega
    · simp only [List.map_cons, Number.total_cons, inductionHypothesis]
      omega

/-- All groups together have as many values as there are. -/
theorem total_groupBy (key : ν → κ) (values : List ν) :
    Number.total ((groupBy key values).map fun group => group.2.length) = values.length := by
  induction values using List.reverseRecOn with
  | nil => rfl
  | append_singleton values value inductionHypothesis =>
    rw [groupBy_concat, total_putGroup, inductionHypothesis, List.length_append, List.length_singleton]

end Conformance.Audit
