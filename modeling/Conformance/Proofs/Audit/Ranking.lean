import Conformance.Audit.Ranking
import Conformance.Proofs.Audit.Ordering
import Conformance.Proofs.Order.Sorting
import Mathlib.Algebra.GroupWithZero.Nat
import Mathlib.Data.List.Dedup

/-!
# What rankings rank

The rules are counted in the order of their first violations, each once, and sorting by the counts is
stable. So the ranking of the rules is the one order of all broken rules that goes by how often they are
broken and, among equals, by which was broken first; the files are ranked alike.
-/

namespace Conformance

namespace Order

variable {α κ : Type} [LinearOrder κ] [DecidableEq κ]

/-- Sorting in place by an order of keys is the stable sort by the keys. -/
theorem isStableSort_sort {before : α → α → Bool} {key : α → κ}
    (told : ∀ x y, before x y = decide (key x < key y)) (values : List α) :
    IsStableSort key values (sort before values) := by
  have sorted : sort before values = values.mergeSort fun x y => decide (key x ≤ key y) := by
    apply sort_eq_mergeSort
    · intro x y
      rw [told, ← decide_not]
      exact decide_eq_decide.mpr not_lt.symm
    · intro x y z first second
      rw [decide_eq_true_iff] at first second ⊢
      exact first.trans second
    · intro x y
      rw [Bool.or_eq_true, decide_eq_true_iff, decide_eq_true_iff]
      exact le_total _ _
  rw [sorted]
  exact isStableSort_mergeSort key values

end Order

namespace Audit

/-- A ranking of names: each name is listed once, those that occur more often first, and of those that occur
equally often the one that occurs first. -/
structure IsRanking {τ : Type} [BEq τ] (names ranking : List τ) : Prop where
  distinct : ranking.Nodup
  complete : ∀ name, name ∈ ranking ↔ name ∈ names
  ordered : ranking.Pairwise fun first second => names.count second < names.count first ∨
    names.count first = names.count second ∧ names.idxOf first < names.idxOf second

variable {τ : Type} [BEq τ]

/-- There is one ranking of names only. -/
theorem IsRanking.unique {names ranking other : List τ} (ranks : IsRanking names ranking)
    (again : IsRanking names other) : ranking = other := by
  have shuffle : ranking.Perm other :=
    (List.perm_ext_iff_of_nodup ranks.distinct again.distinct).mpr fun name =>
      (ranks.complete name).trans (again.complete name).symm
  refine shuffle.eq_of_pairwise (fun first second _ _ before behind => ?_) ranks.ordered again.ordered
  omega

/-- A ranking is as long as there are different names. -/
theorem IsRanking.length_eq [DecidableEq τ] {names ranking : List τ} (ranks : IsRanking names ranking) :
    ranking.length = names.dedup.length := by
  have shuffle : ranking.Perm names.dedup :=
    (List.perm_ext_iff_of_nodup ranks.distinct names.nodup_dedup).mpr fun name => by
      rw [ranks.complete, List.mem_dedup]
  exact shuffle.length_eq

/-- Counting a violation adds one to the sum of the counts. -/
theorem sum_countRule (finding : Finding τ) (counts : List (RuleCount τ)) :
    ((countRule finding counts).map (·.count)).sum = (counts.map (·.count)).sum + 1 := by
  induction counts with
  | nil => rfl
  | cons item counts inductionHypothesis =>
    rw [countRule]
    split
    · simp only [List.map_cons, List.sum_cons]
      omega
    · simp only [List.map_cons, List.sum_cons, inductionHypothesis]
      omega

/-- The counts of the rules sum up to the number of violations. The induction is on the violations, for any
counts to begin with. -/
theorem sum_ruleCounts (findings : List (Finding τ)) :
    ((ruleCounts findings).map (·.count)).sum = findings.length := by
  have onward (counts : List (RuleCount τ)) :
      ((findings.foldl (fun counts finding => countRule finding counts) counts).map (·.count)).sum =
        (counts.map (·.count)).sum + findings.length := by
    induction findings generalizing counts with
    | nil => rfl
    | cons finding findings inductionHypothesis =>
      rw [List.foldl_cons, inductionHypothesis, sum_countRule, List.length_cons]
      omega
  simpa [ruleCounts] using onward []

/-- All broken rules, those that are broken most often first. -/
def rankedRules (findings : List (Finding τ)) : List (RuleCount τ) :=
  Order.sort (fun left right => left.count > right.count) (ruleCounts findings)

/-- The rules are ranked by their counts, from the highest one on. -/
theorem isStableSort_rankedRules (findings : List (Finding τ)) :
    Order.IsStableSort (fun item : RuleCount τ => -(item.count : ℤ)) (ruleCounts findings)
      (rankedRules findings) := by
  refine Order.isStableSort_sort (fun left right => ?_) _
  exact decide_eq_decide.mpr (by omega)

omit [BEq τ] in
/-- The files are ranked by their violations, from the highest number on. -/
theorem exists_isStableSort_topFiles (files : List (FileResultOf τ)) :
    ∃ sorted, Order.IsStableSort (fun file : FileResultOf τ => -(file.violations.length : ℤ)) files sorted ∧
      ∀ limit : Nat, topFiles limit files = sorted.take limit := by
  refine ⟨Order.sort (fun left right => left.violations.length > right.violations.length) files,
    Order.isStableSort_sort (fun left right => ?_) _, fun limit => ?_⟩
  · exact decide_eq_decide.mpr (by omega)
  · rw [topFiles, limited, if_neg (by omega), Int.toNat_natCast]

/-- The counts of some violations: each of their rules once, in the order of the first violations, with the
number of its violations and the message of the first one. -/
structure Counts (findings : List (Finding τ)) (counts : List (RuleCount τ)) : Prop where
  complete : ∀ name, name ∈ counts.map (·.ruleId) ↔ name ∈ findings.map (·.ruleId)
  ordered : counts.Pairwise fun first second =>
    (findings.map (·.ruleId)).idxOf first.ruleId < (findings.map (·.ruleId)).idxOf second.ruleId
  count : ∀ item ∈ counts, item.count = (findings.map (·.ruleId)).count item.ruleId
  message : ∀ item ∈ counts,
    (findings.find? (·.ruleId == item.ruleId)).map (·.message) = some item.message

/-- Each rule is counted once. -/
theorem Counts.distinct {findings : List (Finding τ)} {counts : List (RuleCount τ)}
    (counted : Counts findings counts) : (counts.map (·.ruleId)).Nodup := by
  rw [List.Nodup, List.pairwise_map]
  refine counted.ordered.imp ?_
  rintro first second before same
  rw [same] at before
  exact Nat.lt_irrefl _ before

section Lawful

variable [LawfulBEq τ]

/-- A further violation of a rule adds one to its count. -/
theorem countRule_of_mem {finding : Finding τ} {counts : List (RuleCount τ)}
    (known : finding.ruleId ∈ counts.map (·.ruleId)) (distinct : (counts.map (·.ruleId)).Nodup) :
    countRule finding counts = counts.map fun item =>
      if item.ruleId == finding.ruleId then { item with count := item.count + 1 } else item := by
  induction counts with
  | nil => cases known
  | cons item counts inductionHypothesis =>
    rw [List.map_cons, List.nodup_cons] at distinct
    rw [countRule, List.map_cons]
    by_cases same : item.ruleId = finding.ruleId
    · have others : counts.map (fun item =>
          if item.ruleId == finding.ruleId then { item with count := item.count + 1 } else item) = counts := by
        refine (List.map_congr_left fun other member => if_neg ?_).trans (List.map_id' counts)
        rw [beq_iff_eq, ← same]
        exact fun repeated => distinct.1 (List.mem_map.mpr ⟨other, member, repeated⟩)
      rw [others, beq_iff_eq.mpr same, if_pos rfl, if_pos rfl]
    · have passed : (item.ruleId == finding.ruleId) = false := beq_eq_false_iff_ne.mpr same
      have later : finding.ruleId ∈ counts.map (·.ruleId) := by
        rw [List.map_cons] at known
        exact List.mem_of_ne_of_mem (Ne.symm same) known
      rw [passed, inductionHypothesis later distinct.2]
      rfl

/-- The first violation of a rule puts the rule to the end. -/
theorem countRule_of_notMem {finding : Finding τ} {counts : List (RuleCount τ)}
    (fresh : finding.ruleId ∉ counts.map (·.ruleId)) :
    countRule finding counts = counts ++ [⟨finding.ruleId, 1, finding.message⟩] := by
  induction counts with
  | nil => rfl
  | cons item counts inductionHypothesis =>
    rw [List.map_cons, List.mem_cons, not_or] at fresh
    have passed : (item.ruleId == finding.ruleId) = false := beq_eq_false_iff_ne.mpr (Ne.symm fresh.1)
    rw [countRule, passed, inductionHypothesis fresh.2]
    rfl

/-- What is said about a counted rule by its place and its first message stays when violations are added. -/
theorem Counts.kept {findings : List (Finding τ)} {counts : List (RuleCount τ)}
    (counted : Counts findings counts) (more : List (Finding τ)) {item : RuleCount τ} (member : item ∈ counts) :
    ((findings ++ more).map (·.ruleId)).idxOf item.ruleId = (findings.map (·.ruleId)).idxOf item.ruleId ∧
      ((findings ++ more).find? (·.ruleId == item.ruleId)).map (·.message) = some item.message := by
  have listed := (counted.complete item.ruleId).mp (List.mem_map_of_mem member)
  obtain ⟨first, found, told⟩ := Option.map_eq_some_iff.mp (counted.message item member)
  constructor
  · rw [List.map_append, List.idxOf_append_of_mem listed]
  · rw [List.find?_append, found, Option.some_or, Option.map_some, told]

/-- One more violation of a rule is counted. -/
theorem Counts.again {findings : List (Finding τ)} {counts : List (RuleCount τ)} {finding : Finding τ}
    (counted : Counts findings counts) (known : finding.ruleId ∈ findings.map (·.ruleId)) :
    Counts (findings ++ [finding]) (countRule finding counts) := by
  let raise (item : RuleCount τ) : RuleCount τ :=
    if item.ruleId == finding.ruleId then { item with count := item.count + 1 } else item
  have same (item : RuleCount τ) : (raise item).ruleId = item.ruleId ∧
      (raise item).message = item.message := by
    by_cases here : item.ruleId == finding.ruleId <;> simp [raise, here]
  rw [countRule_of_mem ((counted.complete _).mpr known) counted.distinct]
  change Counts _ (counts.map raise)
  refine ⟨fun name => ?_, ?_, ?_, ?_⟩
  · have names : (counts.map raise).map (·.ruleId) = counts.map (·.ruleId) := by
      rw [List.map_map]
      exact List.map_congr_left fun item _ => (same item).1
    rw [names, counted.complete, List.map_append, List.mem_append]
    refine ⟨.inl, fun either => either.elim id fun last => ?_⟩
    rwa [List.mem_singleton.mp last]
  · rw [List.pairwise_map]
    refine counted.ordered.imp_of_mem fun {first second} member later before => ?_
    rwa [(same first).1, (same second).1, (counted.kept _ member).1, (counted.kept _ later).1]
  · intro raised listed
    obtain ⟨item, member, rfl⟩ := List.mem_map.mp listed
    have count := counted.count item member
    rw [(same item).1, List.map_append, List.count_append, ← count]
    by_cases here : item.ruleId = finding.ruleId
    · simp [raise, here]
    · simp [raise, here, Ne.symm here]
  · intro raised listed
    obtain ⟨item, member, rfl⟩ := List.mem_map.mp listed
    rw [(same item).1, (same item).2]
    exact (counted.kept _ member).2

/-- The first violation of a rule is counted. -/
theorem Counts.anew {findings : List (Finding τ)} {counts : List (RuleCount τ)} {finding : Finding τ}
    (counted : Counts findings counts) (fresh : finding.ruleId ∉ findings.map (·.ruleId)) :
    Counts (findings ++ [finding]) (countRule finding counts) := by
  have others (item : RuleCount τ) (member : item ∈ counts) : item.ruleId ≠ finding.ruleId := by
    intro same
    exact fresh (same ▸ (counted.complete _).mp (List.mem_map_of_mem member))
  rw [countRule_of_notMem (mt (counted.complete _).mp fresh)]
  refine ⟨fun name => ?_, ?_, ?_, ?_⟩
  · rw [List.map_append, List.map_append, List.mem_append, List.mem_append, counted.complete]
    rfl
  · rw [List.pairwise_append]
    refine ⟨counted.ordered.imp_of_mem fun {first second} member later before => ?_,
      List.pairwise_singleton _ _, fun item member last only => ?_⟩
    · rwa [(counted.kept _ member).1, (counted.kept _ later).1]
    · obtain rfl := List.mem_singleton.mp only
      have listed := (counted.complete item.ruleId).mp (List.mem_map_of_mem member)
      rw [(counted.kept _ member).1, List.map_append, List.idxOf_append_of_notMem fresh]
      exact Nat.lt_add_right _ (List.idxOf_lt_length_of_mem listed)
  · rw [List.forall_mem_append, List.forall_mem_singleton]
    refine ⟨fun item member => ?_, ?_⟩
    · rw [counted.count item member, List.map_append, List.count_append]
      simp [Ne.symm (others item member)]
    · rw [List.map_append, List.count_append, List.count_eq_zero_of_not_mem fresh]
      simp
  · rw [List.forall_mem_append, List.forall_mem_singleton]
    refine ⟨fun item member => (counted.kept _ member).2, ?_⟩
    have nobody : findings.find? (·.ruleId == finding.ruleId) = none := by
      rw [List.find?_eq_none]
      intro other member same
      exact fresh (List.mem_map.mpr ⟨other, member, beq_iff_eq.mp same⟩)
    rw [List.find?_append, nobody]
    simp

/-- Counting all violations gives their counts. The induction is on the violations from the last one on. -/
theorem counts_ruleCounts (findings : List (Finding τ)) : Counts findings (ruleCounts findings) := by
  induction findings using List.reverseRecOn with
  | nil => exact ⟨by simp [ruleCounts], .nil, by simp [ruleCounts], by simp [ruleCounts]⟩
  | append_singleton findings finding inductionHypothesis =>
    have last : ruleCounts (findings ++ [finding]) = countRule finding (ruleCounts findings) := by
      rw [ruleCounts, List.foldl_append]
      rfl
    rw [last]
    by_cases known : finding.ruleId ∈ findings.map (·.ruleId)
    · exact inductionHypothesis.again known
    · exact inductionHypothesis.anew known

/-- The names of the ranked rules are the ranking of the rules of all violations. -/
theorem isRanking_rankedRules (findings : List (Finding τ)) :
    IsRanking (findings.map (·.ruleId)) ((rankedRules findings).map (·.ruleId)) := by
  have counted := counts_ruleCounts findings
  have sorts := isStableSort_rankedRules findings
  refine ⟨?_, fun name => ?_, ?_⟩
  · exact (sorts.perm.map _).nodup_iff.mpr counted.distinct
  · rw [(sorts.perm.map _).mem_iff, counted.complete]
  · rw [List.pairwise_map]
    refine (sorts.pairwise counted.ordered).imp_of_mem fun {first second} member later order => ?_
    have count := counted.count first (sorts.perm.mem_iff.mp member)
    have other := counted.count second (sorts.perm.mem_iff.mp later)
    omega

end Lawful

/-- **A short account of a result ranks the broken rules and the files: it has the first ones, up to the
limit, of the one ranking of the rules of all violations, each with the number of its violations and the
message of the first one, and of the stable order of the files by their numbers of violations.** -/
theorem summarise_ranks (nameOf : Severity → String) (absent limit : Nat) (result : AuditResult) :
    let summary := summarise nameOf absent limit result
    let names := result.violations.map (·.ruleId)
    (∃! ranking, IsRanking names ranking ∧ summary.topRules.map (·.ruleId) = ranking.take limit ∧
      summary.topRules.length = min limit names.dedup.length) ∧
    (∀ item ∈ summary.topRules, item.count = names.count item.ruleId ∧
      ∃ first, result.violations.find? (·.ruleId == item.ruleId) = some first ∧
        item.message = first.message) ∧
    (names.dedup.length ≤ limit →
      (summary.topRules.map (·.count)).sum = result.violations.length) ∧
    ∃ sorted, Order.IsStableSort (fun file => -(file.violations.length : ℤ)) result.files sorted ∧
      summary.topFiles = (sorted.take limit).map fun file =>
        ⟨file.filePath, file.violations.length, file.score⟩ := by
  intro summary names
  have top : summary.topRules = (rankedRules result.violations).take limit := rfl
  have sorts := isStableSort_rankedRules result.violations
  have counted := counts_ruleCounts result.violations
  have ranks := isRanking_rankedRules result.violations
  have size : (rankedRules result.violations).length = names.dedup.length := by
    rw [← ranks.length_eq, List.length_map]
  refine ⟨⟨_, ⟨ranks, ?_, ?_⟩, fun other again => again.1.unique ranks⟩, fun item member => ?_, fun all => ?_, ?_⟩
  · rw [top, List.map_take]
  · rw [top, List.length_take, size]
  · have listed := sorts.perm.mem_iff.mp (List.mem_of_mem_take (top ▸ member))
    obtain ⟨first, found, told⟩ := Option.map_eq_some_iff.mp (counted.message item listed)
    exact ⟨counted.count item listed, first, found, told.symm⟩
  · rw [top, List.take_of_length_le (by rwa [size]), (sorts.perm.map _).sum_nat, sum_ruleCounts]
  · obtain ⟨sorted, stable, taken⟩ := exists_isStableSort_topFiles result.files
    refine ⟨sorted, stable, ?_⟩
    change (topFiles limit result.files).map _ = _
    rw [taken]

/-! A result is ranked in the same way when its texts are changed, as long as the same texts are equal. -/

/-- A broken rule with its texts changed. -/
def RuleCount.map {σ τ : Type} (f : σ → τ) (item : RuleCount σ) : RuleCount τ :=
  ⟨f item.ruleId, item.count, f item.message⟩

section Changed

variable {σ : Type} [BEq σ] {f : σ → τ}

/-- A violation is counted alike. -/
theorem countRule_map (same : ∀ x y, (f x == f y) = (x == y)) (finding : Finding σ)
    (counts : List (RuleCount σ)) :
    countRule (finding.map f) (counts.map (RuleCount.map f)) =
      (countRule finding counts).map (RuleCount.map f) := by
  induction counts with
  | nil => rfl
  | cons item counts inductionHypothesis =>
    rw [List.map_cons, countRule, countRule, inductionHypothesis]
    change (if (f item.ruleId == f finding.ruleId) = true then _ else _) = _
    rw [same]
    split <;> rfl

/-- The rules are ranked alike. -/
theorem topRules_map (same : ∀ x y, (f x == f y) = (x == y)) (limit : Int) (findings : List (Finding σ)) :
    topRules limit (findings.map (Finding.map f)) = (topRules limit findings).map (RuleCount.map f) := by
  have onward (counts : List (RuleCount σ)) :
      (findings.map (Finding.map f)).foldl (fun counts finding => countRule finding counts)
          (counts.map (RuleCount.map f)) =
        (findings.foldl (fun counts finding => countRule finding counts) counts).map (RuleCount.map f) := by
    induction findings generalizing counts with
    | nil => rfl
    | cons finding findings inductionHypothesis =>
      rw [List.map_cons, List.foldl_cons, List.foldl_cons, countRule_map same, inductionHypothesis]
  have counts : ruleCounts (findings.map (Finding.map f)) = (ruleCounts findings).map (RuleCount.map f) :=
    onward []
  rw [topRules, counts, Order.sort_map (fun _ _ => rfl), ← List.map_take]
  rfl

omit [BEq τ] [BEq σ] in
/-- The first images are the images of the first ones. -/
theorem limited_map (limit : Int) (values : List σ) :
    limited limit (values.map f) = (limited limit values).map f := by
  unfold limited
  rw [List.length_map, ← List.map_take, ← List.map_take]
  split <;> rfl

omit [BEq τ] [BEq σ] in
/-- The files are ranked alike. -/
theorem topFiles_map (limit : Int) (files : List (FileResultOf σ)) :
    topFiles limit (files.map (FileResultOf.map f)) = (topFiles limit files).map (FileResultOf.map f) := by
  have counts (file : FileResultOf σ) : (file.map f).violations.length = file.violations.length :=
    List.length_map _
  rw [topFiles, topFiles, Order.sort_map fun left right => by rw [counts, counts], limited_map]

end Changed

end Audit

end Conformance
