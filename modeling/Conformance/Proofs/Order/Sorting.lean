import Conformance.Order.Stable
import Mathlib.Data.Char
import Mathlib.Data.List.Lex
import Mathlib.Data.List.Nodup
import Mathlib.Data.List.Perm.Basic
import Mathlib.Order.Lattice
import Mathlib.Tactic.Common

/-!
# What sorting in place gives

A sorted list holds the elements of the list in the order they are sorted by. Elements with
different names come in the strict order of the names.
-/

namespace Conformance.Order

variable {α : Type}

/-- An element that is put in its place is added. -/
theorem perm_insert (before : α → α → Bool) (x : α) (values : List α) :
    (insert before x values).Perm (x :: values) := by
  induction values with
  | nil => exact .refl _
  | cons y values inductionHypothesis =>
    unfold insert
    split
    · exact (inductionHypothesis.cons y).trans (.swap x y values)
    · exact .refl _

/-- Sorting keeps the elements. -/
theorem perm_sort (before : α → α → Bool) (values : List α) :
    (sort before values).Perm values := by
  induction values with
  | nil => exact .refl _
  | cons x values inductionHypothesis =>
    exact (perm_insert before x _).trans (inductionHypothesis.cons x)

/-- Sorting keeps the elements. -/
@[simp] theorem mem_sort (before : α → α → Bool) (values : List α) (x : α) :
    x ∈ sort before values ↔ x ∈ values :=
  (perm_sort before values).mem_iff

/-- An element whose image stands before the image of another one is put before it. -/
theorem insert_map {β : Type} {before : β → β → Bool} {earlier : α → α → Bool} {f : α → β}
    (told : ∀ x y, before (f x) (f y) = earlier x y) (x : α) (values : List α) :
    insert before (f x) (values.map f) = (insert earlier x values).map f := by
  induction values with
  | nil => rfl
  | cons y values inductionHypothesis =>
    rw [List.map_cons, insert, insert, told, inductionHypothesis]
    split <;> rfl

/-- Images are sorted as what they are images of. -/
theorem sort_map {β : Type} {before : β → β → Bool} {earlier : α → α → Bool} {f : α → β}
    (told : ∀ x y, before (f x) (f y) = earlier x y) (values : List α) :
    sort before (values.map f) = (sort earlier values).map f := by
  induction values with
  | nil => rfl
  | cons x values inductionHypothesis =>
    rw [List.map_cons, sort, inductionHypothesis, insert_map told, sort]

/-- An element that is put in its place in a sorted list leaves it sorted. -/
theorem pairwise_insert {before : α → α → Bool}
    (asymmetric : ∀ x y, before x y = true → before y x = false)
    (transitive : ∀ x y z, before y x = false → before z y = false → before z x = false)
    (x : α) (values : List α) (sorted : values.Pairwise fun y z => before z y = false) :
    (insert before x values).Pairwise fun y z => before z y = false := by
  induction values with
  | nil => exact List.pairwise_singleton _ _
  | cons y values inductionHypothesis =>
    rw [List.pairwise_cons] at sorted
    unfold insert
    split
    · next passed =>
      rw [List.pairwise_cons]
      refine ⟨?_, inductionHypothesis sorted.2⟩
      intro z member
      rcases List.mem_cons.mp ((perm_insert before x values).mem_iff.mp member) with rfl | later
      · exact asymmetric y z passed
      · exact sorted.1 z later
    · next stopped =>
      have first : before y x = false := by simpa using stopped
      rw [List.pairwise_cons, List.pairwise_cons]
      refine ⟨?_, sorted⟩
      intro z member
      rcases List.mem_cons.mp member with rfl | later
      · exact first
      · exact transitive x y z first (sorted.1 z later)

/-- In a sorted list no element must stand before an earlier one. -/
theorem pairwise_sort {before : α → α → Bool}
    (asymmetric : ∀ x y, before x y = true → before y x = false)
    (transitive : ∀ x y z, before y x = false → before z y = false → before z x = false)
    (values : List α) : (sort before values).Pairwise fun y z => before z y = false := by
  induction values with
  | nil => exact .nil
  | cons x values inductionHypothesis =>
    exact pairwise_insert asymmetric transitive x _ inductionHypothesis

/-- Elements whose names are all different are sorted by name in the strict order of the
names. -/
theorem pairwise_sort_name (name : α → String) (values : List α)
    (distinct : (values.map name).Nodup) :
    (sort (fun left right => textBefore (name left) (name right)) values).Pairwise
      fun left right => textBefore (name left) (name right) = true := by
  let before (left right : α) : Bool := textBefore (name left) (name right)
  have asymmetric (x y : α) (first : before x y = true) : before y x = false := by
    simp only [before, textBefore, decide_eq_true_eq, decide_eq_false_iff_not, not_lt] at first ⊢
    exact first.le
  have transitive (x y z : α) (first : before y x = false) (second : before z y = false) :
      before z x = false := by
    simp only [before, textBefore, decide_eq_false_iff_not, not_lt] at first second ⊢
    exact first.trans second
  have sorted := pairwise_sort asymmetric transitive values
  have named := ((perm_sort before values).map name).nodup_iff.mpr distinct
  rw [List.Nodup, List.pairwise_map] at named
  refine (sorted.and named).imp ?_
  rintro x y ⟨notAfter, other⟩
  simp only [before, textBefore, decide_eq_true_eq, decide_eq_false_iff_not, not_lt] at notAfter ⊢
  exact lt_of_le_of_ne notAfter fun same => other (String.toList_injective same)

end Conformance.Order

/-!
## Stable sorting by a key

The stable order of a list by a key has the elements of each key in the order in which they
stood. That and the ascending keys determine it, so a sorted list does not depend on how
elements of different keys stood to each other, and sorting goes along with leaving elements
out.
-/

namespace Conformance.Order

variable {α κ : Type} [LinearOrder κ] [DecidableEq κ]

/-- A list holds the elements of another one in the stable order of a key: the keys ascend, and
the elements of each key stand as they stood. -/
structure IsStableSort (key : α → κ) (values sorted : List α) : Prop where
  perm : sorted.Perm values
  ascending : sorted.Pairwise fun x y => key x ≤ key y
  stable : ∀ k, (sorted.filter fun x => key x = k) = values.filter fun x => key x = k

/-- Two lists with ascending keys are equal if they hold the same elements of each key in the same
order. The induction is on one list; the head of the other one has its head's key, because each
of them is among the elements of the other list. -/
theorem eq_of_ascending (key : α → κ) (xs ys : List α)
    (ascends : xs.Pairwise fun x y => key x ≤ key y) (rises : ys.Pairwise fun x y => key x ≤ key y)
    (same : ∀ k, (xs.filter fun x => key x = k) = ys.filter fun x => key x = k) : xs = ys := by
  induction xs generalizing ys with
  | nil =>
    cases ys with
    | nil => rfl
    | cons y ys => simpa using same (key y)
  | cons x xs inductionHypothesis =>
    have classes (k : κ) (z : α) : (z ∈ x :: xs ∧ key z = k) ↔ (z ∈ ys ∧ key z = k) := by
      simpa using congrArg (z ∈ ·) (same k)
    cases ys with
    | nil => simpa using (classes (key x) x).mp ⟨List.mem_cons_self, rfl⟩
    | cons y ys =>
      rw [List.pairwise_cons] at ascends rises
      have below : key x ≤ key y := by
        rcases List.mem_cons.mp ((classes (key y) y).mpr ⟨List.mem_cons_self, rfl⟩).1 with
          rfl | behind
        · exact le_rfl
        · exact ascends.1 y behind
      have above : key y ≤ key x := by
        rcases List.mem_cons.mp ((classes (key x) x).mp ⟨List.mem_cons_self, rfl⟩).1 with
          rfl | behind
        · exact le_rfl
        · exact rises.1 x behind
      have level : key y = key x := le_antisymm above below
      have heads : x = y := by
        have first := same (key x)
        simp only [List.filter_cons, level, decide_true, if_true] at first
        exact (List.cons.inj first).1
      subst heads
      congr 1
      apply inductionHypothesis ys ascends.2 rises.2
      intro k
      have whole := same k
      by_cases here : key x = k
      · simpa [List.filter_cons, here] using whole
      · simpa [List.filter_cons, here] using whole

/-- Stable sorts of two lists that hold the same elements of each key in the same order are
equal. -/
theorem IsStableSort.unique {key : α → κ} {values others sorted arranged : List α}
    (sorts : IsStableSort key values sorted) (arranges : IsStableSort key others arranged)
    (same : ∀ k, (values.filter fun x => key x = k) = others.filter fun x => key x = k) :
    sorted = arranged := by
  apply eq_of_ascending key sorted arranged sorts.ascending arranges.ascending
  intro k
  rw [sorts.stable, same, arranges.stable]

/-- A part of a stable sort is the stable sort of that part. -/
theorem IsStableSort.filter {key : α → κ} {values sorted : List α}
    (sorts : IsStableSort key values sorted) (test : α → Bool) :
    IsStableSort key (values.filter test) (sorted.filter test) where
  perm := sorts.perm.filter test
  ascending := sorts.ascending.filter test
  stable k := by
    rw [List.filter_comm, sorts.stable k, List.filter_comm]

/-- In a stable order each element has a smaller key than a later one, or they have one key and stand as they
stood. -/
theorem IsStableSort.pairwise {key : α → κ} {values sorted : List α} (sorts : IsStableSort key values sorted)
    {stands : α → α → Prop} (stood : values.Pairwise stands) :
    sorted.Pairwise fun x y => key x < key y ∨ key x = key y ∧ stands x y := by
  rw [List.pairwise_iff_forall_sublist] at stood ⊢
  intro x y pair
  have ascends := (List.pairwise_iff_forall_sublist.mp sorts.ascending) pair
  rcases ascends.lt_or_eq with smaller | same
  · exact .inl smaller
  · refine .inr ⟨same, stood ?_⟩
    have level := pair.filter fun z => key z = key y
    rw [sorts.stable] at level
    have both : ([x, y].filter fun z => key z = key y) = [x, y] := by simp [same]
    rw [both] at level
    exact level.trans List.filter_sublist

/-- Sorting by the comparison of keys is stable. -/
theorem isStableSort_mergeSort (key : α → κ) (values : List α) :
    IsStableSort key values (values.mergeSort fun x y => decide (key x ≤ key y)) := by
  have transitive (x y z : α) (first : decide (key x ≤ key y) = true)
      (second : decide (key y ≤ key z) = true) : decide (key x ≤ key z) = true := by
    rw [decide_eq_true_iff] at first second ⊢
    exact first.trans second
  have total (x y : α) : (decide (key x ≤ key y) || decide (key y ≤ key x)) = true := by
    rw [Bool.or_eq_true, decide_eq_true_iff, decide_eq_true_iff]
    exact le_total _ _
  have perm := List.mergeSort_perm values fun x y => decide (key x ≤ key y)
  refine ⟨perm, ?_, ?_⟩
  · simpa using List.pairwise_mergeSort transitive total values
  · intro k
    -- The elements of one key are in order already, so sorting keeps them as a sublist.
    let level : List α := values.filter fun x => key x = k
    have levelled : level.Pairwise fun x y => decide (key x ≤ key y) = true := by
      refine List.pairwise_of_forall_mem_list ?_
      intro x first y second
      have low : key x = k := by simpa [level] using (List.mem_filter.mp first).2
      have high : key y = k := by simpa [level] using (List.mem_filter.mp second).2
      rw [decide_eq_true_iff, low, high]
    have kept := (List.sublist_mergeSort transitive total levelled List.filter_sublist).filter
      fun x => key x = k
    have settled : (level.filter fun x => key x = k) = level := by
      simp [level, List.filter_filter]
    rw [settled] at kept
    refine (kept.eq_of_length ?_).symm
    exact (perm.filter _).length_eq.symm

end Conformance.Order
