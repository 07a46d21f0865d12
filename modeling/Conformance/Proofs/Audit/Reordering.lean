import Conformance.Proofs.Audit.Scoring
import Conformance.Proofs.Audit.Selection

/-!
# The order of the files

Violations that the canonical order does not tell apart come from one file, if all files have
different paths. So the order in which the files are given decides nothing but the order of the
files' results.
-/

namespace Conformance.Audit

open Syntax

/-- Every violation in a file's result carries the file's path. -/
def Consistent (answer : FileResult) : Prop :=
  ∀ violation ∈ answer.violations, violation.filePath = answer.filePath

/-- What a file's result says is said of the file. -/
theorem consistent_of_validateFile {disk : Disk} {rules : List Rule}
    {typeCheck : Option Compiler.Context} {file : ScannedFile} {answer : FileResult}
    (validated : validateFile disk rules typeCheck file = .ok answer) :
    Consistent answer ∧ answer.filePath = file.relativePath := by
  simp only [validateFile] at validated
  cases read : readSource disk typeCheck file.path with
  | error skipped => simp [read] at validated
  | ok found =>
    simp only [read, Except.ok.injEq] at validated
    subst validated
    refine ⟨?_, rfl⟩
    intro violation member
    obtain ⟨rule, _, reported⟩ := List.mem_flatMap.mp member
    exact (Matching.allReports_matchRule rule found.1 found.2 file.relativePath violation
      reported).path

/-- Violations that are sorted by the same key stand in files with the same path. -/
theorem filePath_of_sortKey {left right : Violation} (same : sortKey left = sortKey right) :
    left.filePath = right.filePath := by
  have lists : left.filePath.toList = right.filePath.toList :=
    congrArg (fun key => (ofLex (ofLex key).2).1) same
  exact String.toList_injective lists

/-- Files with different paths have no violations with the same key. -/
theorem filter_sortKey_of_ne {left right : FileResult} (here : Consistent left)
    (there : Consistent right) (apart : left.filePath ≠ right.filePath)
    (k : ℤ ×ₗ List Char ×ₗ ℤ) :
    (left.violations.filter fun violation => sortKey violation = k) = [] ∨
      (right.violations.filter fun violation => sortKey violation = k) = [] := by
  by_contra both
  rw [not_or] at both
  obtain ⟨one, first⟩ := List.exists_mem_of_ne_nil _ both.1
  obtain ⟨other, second⟩ := List.exists_mem_of_ne_nil _ both.2
  obtain ⟨listed, key⟩ := List.mem_filter.mp first
  obtain ⟨found, told⟩ := List.mem_filter.mp second
  rw [decide_eq_true_iff] at key told
  apply apart
  rw [← here one listed, ← there other found]
  exact filePath_of_sortKey (key.trans told.symm)

/-- The violations of one key do not depend on the order of the files: they all come from one of
them. The induction is on the permutation, and only its exchange of two neighbours needs that
their paths differ. -/
theorem filter_sortKey_perm {answers others : List FileResult} (shuffle : answers.Perm others)
    (apart : (answers.map (·.filePath)).Nodup)
    (consistent : ∀ answer ∈ answers, Consistent answer)
    (k : ℤ ×ₗ List Char ×ₗ ℤ) :
    ((answers.flatMap (·.violations)).filter fun violation => sortKey violation = k) =
      (others.flatMap (·.violations)).filter fun violation => sortKey violation = k := by
  induction shuffle with
  | nil => rfl
  | cons answer _ inductionHypothesis =>
    rw [List.map_cons, List.nodup_cons] at apart
    rw [List.forall_mem_cons] at consistent
    rw [List.flatMap_cons, List.flatMap_cons, List.filter_append, List.filter_append,
      inductionHypothesis apart.2 consistent.2]
  | swap answer other rest =>
    simp only [List.map_cons, List.nodup_cons, List.mem_cons, not_or] at apart
    rw [List.forall_mem_cons, List.forall_mem_cons] at consistent
    simp only [List.flatMap_cons, List.filter_append]
    rcases filter_sortKey_of_ne consistent.1 consistent.2.1 apart.1.1 k with silent | silent
    · rw [silent, List.nil_append, List.nil_append]
    · rw [silent, List.nil_append, List.nil_append]
  | trans first _ firstHypothesis secondHypothesis =>
    rw [firstHypothesis apart consistent]
    apply secondHypothesis
    · exact (first.map _).nodup_iff.mp apart
    · intro answer member
      exact consistent answer (first.mem_iff.mpr member)

/-- The mean of the files' scores does not depend on their order. -/
theorem overallScore_perm {scores others : List Int} (shuffle : scores.Perm others) :
    overallScore scores = overallScore others :=
  binary.overallScore_perm shuffle

/-- Combined results depend on the order of the files only in the list of the files, if the paths
of the files are different and each result carries its file's path. -/
theorem combine_perm {answers others : List FileResult} (shuffle : answers.Perm others)
    (apart : (answers.map (·.filePath)).Nodup)
    (consistent : ∀ answer ∈ answers, Consistent answer) (limit : Option Int) :
    combine others limit = { combine answers limit with files := others } := by
  have ordered : inOrder (answers.flatMap (·.violations)) =
      inOrder (others.flatMap (·.violations)) :=
    (Order.isStableSort_inOrder _).unique (Order.isStableSort_inOrder _)
      (filter_sortKey_perm shuffle apart consistent)
  unfold combine
  rw [ordered, shuffle.length_eq, overallScore_perm (shuffle.map _)]

/-- The results are those of some of the files, in the same order. -/
theorem filePath_sublist (disk : Disk) (rules : List Rule) (typeCheck : Option Compiler.Context)
    (files : List ScannedFile) :
    List.Sublist ((resultsOf disk rules typeCheck files).map (·.filePath))
      (files.map (·.relativePath)) := by
  induction files with
  | nil => exact .slnil
  | cons file files inductionHypothesis =>
    simp only [resultsOf, List.filterMap_cons]
    cases validated : validateFile disk rules typeCheck file with
    | error skipped => exact inductionHypothesis.cons _
    | ok answer =>
      simp only [Except.toOption, List.map_cons, (consistent_of_validateFile validated).2]
      exact inductionHypothesis.cons_cons _

/-- If the files have different paths, an audit of them in another order has the same violations
in the same order, the same counts, score and tallies, and the same result for each file in the
place of the file. -/
theorem validate_perm (disk : Disk) (files shuffled : List ScannedFile) (rules : List Rule)
    (options : Options) (apart : (files.map (·.relativePath)).Nodup)
    (shuffle : shuffled.Perm files) :
    (∃ duplicate, validate disk files rules options = .error duplicate ∧
      validate disk shuffled rules options = .error duplicate) ∨
    ∃ answerOf : ScannedFile → Option FileResult, ∃ first second,
      validate disk files rules options = .ok first ∧
      validate disk shuffled rules options = .ok second ∧
      first.files = files.filterMap answerOf ∧ second.files = shuffled.filterMap answerOf ∧
      second = { first with files := second.files } := by
  unfold validate
  cases selectRules rules options with
  | error duplicate => exact .inl ⟨duplicate, rfl, rfl⟩
  | ok selected =>
    refine .inr ⟨fun file => (validateFile disk selected options.typeCheck file).toOption, _, _,
      rfl, rfl, rfl, rfl, ?_⟩
    apply combine_perm (shuffle.symm.filterMap _)
    · exact apart.sublist (filePath_sublist disk selected options.typeCheck files)
    · intro answer member
      obtain ⟨file, _, told⟩ := List.mem_filterMap.mp member
      cases validated : validateFile disk selected options.typeCheck file with
      | error skipped => simp [validated, Except.toOption] at told
      | ok found =>
        simp only [validated, Except.toOption, Option.some.injEq] at told
        exact told ▸ (consistent_of_validateFile validated).1

/-- Three files from the last to the first have the same four violations in the same order. -/
theorem validate_perm_reverse :
    ∃ first second,
      validate sampleSources sampleFiles sampleRules ⟨none, [], none, none⟩ = .ok first ∧
      validate sampleSources sampleFiles.reverse sampleRules ⟨none, [], none, none⟩ = .ok second ∧
      first.violations.length = 4 ∧ second.violations = first.violations := by
  have many : (validate sampleSources sampleFiles sampleRules ⟨none, [], none, none⟩).toOption.map
      (·.violations.length) = some 4 := by decide +kernel
  rcases validate_perm sampleSources sampleFiles sampleFiles.reverse sampleRules
      ⟨none, [], none, none⟩ (by decide) (List.reverse_perm sampleFiles) with
    ⟨duplicate, refused, _⟩ | ⟨_, first, second, validated, again, _, _, same⟩
  · rw [refused] at many
    cases many
  · rw [validated] at many
    exact ⟨first, second, validated, again, Option.some.inj many,
      congrArg (·.violations) same⟩

end Conformance.Audit
