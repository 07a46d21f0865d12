import Conformance.Fix.Changes
import Conformance.Proofs.Audit.Selection

/-!
# What is handed over to the fixers

Values grouped by a key come as the keys in the order of their first values, each with the values
that have it. So the groups that are handed over to the fixers are the violations of an audit,
none of them lost and none twice. The violations of a file are in order among themselves already,
and putting them in order once more changes nothing.
-/

namespace Conformance.Audit

variable {κ ν : Type} [DecidableEq κ]

/-- A value is put into the group of its key, or into a group of its own behind all others. -/
theorem putGroup_map (key : κ) (value : ν) (keys : List κ) (values : κ → List ν)
    (distinct : keys.Nodup) :
    putGroup key value (keys.map fun other => (other, values other)) =
      (keys.map fun other => (other, values other ++ if key = other then [value] else [])) ++
        if key ∈ keys then [] else [(key, [value])] := by
  induction keys with
  | nil => simp [putGroup]
  | cons other keys inductionHypothesis =>
    rw [List.nodup_cons] at distinct
    rw [List.map_cons, List.map_cons, putGroup]
    by_cases found : other = key
    · subst found
      have untouched : ∀ later ∈ keys, other ≠ later :=
        fun later member same => distinct.1 (same ▸ member)
      simp only [if_true, List.mem_cons, true_or, List.append_nil, List.cons.injEq, true_and]
      refine List.map_congr_left fun later member => ?_
      rw [if_neg (untouched later member), List.append_nil]
    · rw [if_neg found, inductionHypothesis distinct.2]
      simp [Ne.symm found]

/-- One more element counts if it has not come before. -/
theorem eraseDups_concat (keys : List κ) (key : κ) :
    (keys ++ [key]).eraseDups = keys.eraseDups ++ if key ∈ keys then [] else [key] := by
  rw [List.eraseDups_append]
  have single : [key].removeAll keys = if key ∈ keys then [] else [key] := by
    by_cases member : key ∈ keys <;> simp [List.removeAll, member]
  rw [single]
  split <;> simp [List.eraseDups_cons]

/-- Of two different elements, in the order in which they come first, the first one comes before
the second one. -/
theorem pairwise_eraseDups (keys : List κ) :
    keys.eraseDups.Pairwise fun earlier later => keys.idxOf earlier < keys.idxOf later := by
  induction keys using List.reverseRecOn with
  | nil => exact .nil
  | append_singleton keys key inductionHypothesis =>
    have seen (other : κ) (member : other ∈ keys.eraseDups) :
        (keys ++ [key]).idxOf other = keys.idxOf other :=
      List.idxOf_append_of_mem (List.mem_eraseDups.mp member)
    rw [eraseDups_concat, List.pairwise_append]
    refine ⟨?_, ?_, ?_⟩
    · refine inductionHypothesis.imp_of_mem ?_
      intro earlier later first second before
      rwa [seen earlier first, seen later second]
    · split <;> simp
    · intro earlier first later second
      obtain ⟨fresh, rfl⟩ : key ∉ keys ∧ later = key := by simpa using second
      rw [seen earlier first, List.idxOf_append_of_notMem fresh]
      exact Nat.lt_add_right _ (List.idxOf_lt_length_of_mem (List.mem_eraseDups.mp first))

/-- What comes first at different places is different. -/
theorem nodup_eraseDups (keys : List κ) : keys.eraseDups.Nodup :=
  (pairwise_eraseDups keys).imp fun before same => (same ▸ before).false

/-- Groups are the keys in the order of their first values, each with the values that have it. The
induction is on the values from the last one on. -/
theorem groupBy_eq (key : ν → κ) (values : List ν) :
    groupBy key values = (values.map key).eraseDups.map fun wanted =>
      (wanted, values.filter fun value => key value = wanted) := by
  induction values using List.reverseRecOn with
  | nil => rfl
  | append_singleton values value inductionHypothesis =>
    rw [groupBy_concat, inductionHypothesis, putGroup_map _ _ _ _ (nodup_eraseDups _),
      List.map_append, List.map_singleton, eraseDups_concat, List.map_append]
    have added (wanted : κ) : ([value].filter fun value => key value = wanted) =
        if key value = wanted then [value] else [] := by
      by_cases same : key value = wanted <;> simp [same]
    simp only [List.filter_append, added]
    congr 1
    by_cases member : key value ∈ values.map key
    · rw [if_pos member, if_pos (List.mem_eraseDups.mpr member), List.map_nil]
    · have none : (values.filter fun other => key other = key value) = [] := by
        rw [List.filter_eq_nil_iff]
        intro other among same
        exact member (List.mem_map.mpr ⟨other, among, of_decide_eq_true same⟩)
      rw [if_neg member, if_neg fun listed => member (List.mem_eraseDups.mp listed),
        List.map_singleton, none, if_pos rfl, List.nil_append]

/-- Putting a value into a group adds it to what all groups have. -/
theorem perm_putGroup (key : κ) (value : ν) (groups : List (κ × List ν)) :
    ((putGroup key value groups).flatMap (·.2)).Perm (value :: groups.flatMap (·.2)) := by
  induction groups with
  | nil => exact .refl _
  | cons group groups inductionHypothesis =>
    obtain ⟨other, values⟩ := group
    unfold putGroup
    split
    · rw [List.flatMap_cons, List.flatMap_cons, List.append_assoc]
      exact List.perm_middle
    · rw [List.flatMap_cons, List.flatMap_cons]
      exact (inductionHypothesis.append_left values).trans List.perm_middle

/-- All groups together have the values that there are, each as often as it is there. -/
theorem perm_groupBy (key : ν → κ) (values : List ν) :
    ((groupBy key values).flatMap (·.2)).Perm values := by
  induction values using List.reverseRecOn with
  | nil => exact .refl _
  | append_singleton values value inductionHypothesis =>
    rw [groupBy_concat]
    exact ((perm_putGroup _ _ _).trans (inductionHypothesis.cons value)).trans
      (List.perm_append_singleton value values).symm

end Conformance.Audit

namespace Conformance.Fix

open Audit Conformance.Order

/-- The path of the file that a violation is in. -/
def fileOf (root : Path) (violation : Violation) : Path := root.join (.ofString violation.filePath)

/-- Groups hand violations over: all groups together are the violations; no file has two groups;
a file has a group exactly if it has a violation, and then all of them, in the canonical order
with ties as they stood; putting a group in order again changes nothing, so the fixers are offered
it as it stands; and the files come in the order of their first violations. -/
structure HandsOver (root : Path) (violations : List Violation)
    (groups : List (Path × List Violation)) : Prop where
  partition : (groups.flatMap (·.2)).Perm violations
  distinct : (groups.map (·.1)).Nodup
  exactly : ∀ file group, (file, group) ∈ groups ↔
    group ≠ [] ∧
      IsStableSort sortKey (violations.filter fun violation => fileOf root violation = file) group
  settled : ∀ file group, (file, group) ∈ groups → inOrder group = group
  offered : ∀ file group, (file, group) ∈ groups → ∀ fixers text,
    Changes.make fixers group text = Changes.offerEach fixers (.start text) group
  arrival : groups.Pairwise fun earlier later =>
    ((inOrder violations).map (fileOf root)).idxOf earlier.1 <
      ((inOrder violations).map (fileOf root)).idxOf later.1

/-- Putting violations in order twice is putting them in order once. -/
theorem inOrder_inOrder (violations : List Violation) :
    inOrder (inOrder violations) = inOrder violations :=
  (isStableSort_inOrder _).unique (isStableSort_inOrder violations)
    (isStableSort_inOrder violations).stable

/-- The groups by file are the files in the order of their first violations, each with its
violations in order. -/
theorem groupByFile_eq (root : Path) (violations : List Violation) :
    groupByFile root violations = ((inOrder violations).map (fileOf root)).eraseDups.map fun file =>
      (file, inOrder (violations.filter fun violation => fileOf root violation = file)) := by
  unfold groupByFile
  rw [groupBy_eq]
  simp only [inOrder_filter]
  rfl

/-- A group by file has the violations of its file in order, and at least one of them. -/
theorem mem_groupByFile_iff (root : Path) (violations : List Violation) (file : Path)
    (group : List Violation) :
    (file, group) ∈ groupByFile root violations ↔ group ≠ [] ∧
      group = inOrder (violations.filter fun violation => fileOf root violation = file) := by
  rw [groupByFile_eq, List.mem_map]
  constructor
  · rintro ⟨_, listed, same⟩
    obtain ⟨rfl, rfl⟩ := Prod.mk.inj same
    obtain ⟨violation, member, rfl⟩ := List.mem_map.mp (List.mem_eraseDups.mp listed)
    refine ⟨?_, rfl⟩
    rw [inOrder_filter]
    exact List.ne_nil_of_mem (List.mem_filter.mpr ⟨member, decide_eq_true rfl⟩)
  · rintro ⟨filled, rfl⟩
    refine ⟨file, ?_, rfl⟩
    obtain ⟨violation, member⟩ := List.exists_mem_of_ne_nil _ filled
    rw [inOrder_filter, List.mem_filter] at member
    exact List.mem_eraseDups.mpr
      (List.mem_map.mpr ⟨violation, member.1, of_decide_eq_true member.2⟩)

/-- Whatever the root and the violations are, grouping them by file hands them over. -/
theorem groupByFile_handsOver (root : Path) (violations : List Violation) :
    HandsOver root violations (groupByFile root violations) := by
  have settled (file : Path) (group : List Violation)
      (member : (file, group) ∈ groupByFile root violations) : inOrder group = group := by
    rw [((mem_groupByFile_iff root violations file group).mp member).2]
    exact inOrder_inOrder _
  have arrival := pairwise_eraseDups ((inOrder violations).map (fileOf root))
  refine ⟨?_, ?_, ?_, settled, ?_, ?_⟩
  · exact (perm_groupBy _ _).trans (isStableSort_inOrder violations).perm
  · rw [groupByFile_eq, List.Nodup, List.pairwise_map, List.pairwise_map]
    exact nodup_eraseDups _
  · intro file group
    rw [mem_groupByFile_iff]
    refine and_congr_right fun _ => ⟨?_, ?_⟩
    · rintro rfl
      exact isStableSort_inOrder _
    · intro sorts
      exact sorts.unique (isStableSort_inOrder _) fun _ => rfl
  · intro file group member fixers text
    rw [Changes.make, settled file group member]
  · rw [groupByFile_eq, List.pairwise_map]
    exact arrival

end Conformance.Fix
