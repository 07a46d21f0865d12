import Conformance.Audit.Validation
import Conformance.Proofs.Audit.Ordering
import Conformance.Proofs.Matching.Reporting
import Conformance.Proofs.Order.Sorting
import Mathlib.Data.List.Nodup

/-!
# Selected rules and their violations

The options of an audit select rules. Rules are matched one by one and know nothing of each
other, so selecting rules first and leaving out the violations of other rules afterwards come
to the same, for each file and for the whole project.
-/

namespace Conformance

namespace Order

/-- Violations in order are in the stable order of what they are sorted by. -/
theorem isStableSort_inOrder (violations : List Violation) :
    IsStableSort Audit.sortKey violations (Audit.inOrder violations) := by
  rw [Audit.inOrder_eq]
  exact isStableSort_mergeSort Audit.sortKey violations

end Order

namespace Audit

open Syntax

/-- No identifier is found twice exactly if all are different and none has been seen before. -/
theorem firstDuplicate?_eq_none_iff (seen : List String) (rules : List Rule) :
    firstDuplicate? seen rules = none ↔
      (∀ rule ∈ rules, rule.id ∉ seen) ∧ (rules.map (·.id)).Nodup := by
  induction rules generalizing seen with
  | nil => simp [firstDuplicate?]
  | cons rule rules inductionHypothesis =>
    by_cases repeated : rule.id ∈ seen
    · simp [firstDuplicate?, repeated]
    · have onward : firstDuplicate? seen (rule :: rules) = firstDuplicate? (rule.id :: seen) rules := by
        simp [firstDuplicate?, repeated]
      rw [onward, inductionHypothesis, List.forall_mem_cons, List.map_cons, List.nodup_cons]
      simp only [List.mem_cons, not_or, List.mem_map, not_exists, not_and]
      constructor
      · rintro ⟨fresh, distinct⟩
        exact ⟨⟨repeated, fun other member => (fresh other member).2⟩,
          fun other member => (fresh other member).1, distinct⟩
      · rintro ⟨⟨_, fresh⟩, apart, distinct⟩
        exact ⟨fun other member => ⟨apart other member, fresh other member⟩, distinct⟩

/-- Whether the options select a rule: it is grave enough, and its standard is allowed. -/
def Options.selects (options : Options) (rule : Rule) : Bool :=
  (options.minSeverity.all fun least => least.rank ≤ rule.severity.rank) &&
    (options.standards.isEmpty || options.standards.contains rule.standard)

/-- Whether the options select the rule of a violation. -/
def Options.admits (options : Options) (rules : List Rule) (violation : Violation) : Bool :=
  (rules.find? (·.id == violation.ruleId)).any options.selects

/-- Rules with different identifiers are all looked at, and those that the options select stay in
their order. -/
theorem selectRules_eq (rules : List Rule) (options : Options)
    (distinct : (rules.map (·.id)).Nodup) :
    selectRules rules options = .ok (rules.filter options.selects) := by
  have unique : firstDuplicate? [] rules = none :=
    (firstDuplicate?_eq_none_iff [] rules).mpr ⟨fun _ _ => List.not_mem_nil, distinct⟩
  have registered : Registry.ofRules rules = .ok ⟨rules, unique⟩ := by
    unfold Registry.ofRules
    split
    · next repeated => rw [unique] at repeated; cases repeated
    · rfl
  simp only [selectRules, registered, Registry.filter]
  congr 2
  funext rule
  unfold Options.selects Registry.isGrave Registry.isAllowed
  cases options.standards with
  | nil => simp
  | cons standard others => simp

/-- Among rules with different identifiers a rule is found by its own. -/
theorem find?_id (rules : List Rule) (distinct : (rules.map (·.id)).Nodup) (rule : Rule)
    (member : rule ∈ rules) : rules.find? (·.id == rule.id) = some rule := by
  obtain ⟨found, told⟩ : ∃ found, rules.find? (·.id == rule.id) = some found := by
    apply Option.isSome_iff_exists.mp
    rw [List.find?_isSome]
    exact ⟨rule, member, beq_self_eq_true rule.id⟩
  have same : found.id = rule.id := eq_of_beq (List.find?_some told :)
  rw [told, List.inj_on_of_nodup_map distinct (List.mem_of_find?_eq_some told) member same]

/-- Leaving rules out leaves their reports out and keeps the others in their order. The induction
is on a part of the rules, while the rule of a report is looked for among all of them. -/
theorem flatMap_filter_selects (options : Options) (rules : List Rule)
    (distinct : (rules.map (·.id)).Nodup) (reports : Rule → List Violation)
    (own : ∀ rule, ∀ violation ∈ reports rule, violation.ruleId = rule.id) (part : List Rule)
    (among : ∀ rule ∈ part, rule ∈ rules) :
    (part.filter options.selects).flatMap reports =
      (part.flatMap reports).filter (options.admits rules) := by
  induction part with
  | nil => rfl
  | cons rule part inductionHypothesis =>
    rw [List.forall_mem_cons] at among
    have onward := inductionHypothesis among.2
    have admitted : ∀ violation ∈ reports rule,
        options.admits rules violation = options.selects rule := by
      intro violation member
      unfold Options.admits
      rw [own rule violation member, find?_id rules distinct rule among.1, Option.any_some]
    rw [List.flatMap_cons, List.filter_append, ← onward, List.filter_congr admitted]
    cases selected : options.selects rule with
    | true => simp [selected]
    | false => simp [selected]

/-- The results of the files that can be read and parsed. -/
def resultsOf (disk : Disk) (rules : List Rule) (typeCheck : Option Compiler.Context)
    (files : List ScannedFile) : List FileResult :=
  files.filterMap fun file => (validateFile disk rules typeCheck file).toOption

/-- With rules that have different identifiers, validation combines the results of the files. -/
theorem validate_eq (disk : Disk) (files : List ScannedFile) (rules : List Rule)
    (options : Options) (distinct : (rules.map (·.id)).Nodup) :
    validate disk files rules options =
      .ok (combine (resultsOf disk (rules.filter options.selects) options.typeCheck files)
        options.maxViolations) := by
  simp only [validate, selectRules_eq rules options distinct, resultsOf]

/-- A file's result for some rules is that for all rules with fewer violations. -/
structure Narrows (admits : Violation → Bool) (narrow wide : FileResult) : Prop where
  filePath : narrow.filePath = wide.filePath
  lineCount : narrow.lineCount = wide.lineCount
  violations : narrow.violations = wide.violations.filter admits

/-- The files that have results do not depend on the rules, and selecting rules leaves the
violations of the others out. -/
theorem resultsOf_narrows (disk : Disk) (options : Options) (rules : List Rule)
    (distinct : (rules.map (·.id)).Nodup) (typeCheck : Option Compiler.Context)
    (files : List ScannedFile) :
    List.Forall₂ (Narrows (options.admits rules))
      (resultsOf disk (rules.filter options.selects) typeCheck files)
      (resultsOf disk rules typeCheck files) := by
  induction files with
  | nil => exact .nil
  | cons file files inductionHypothesis =>
    simp only [resultsOf, List.filterMap_cons, validateFile]
    cases readSource disk typeCheck file.path with
    | error skipped => exact inductionHypothesis
    | ok read =>
      refine .cons ⟨rfl, rfl, ?_⟩ inductionHypothesis
      apply flatMap_filter_selects options rules distinct
        (fun rule => Matching.matchRule rule read.1 read.2 file.relativePath) ?_ rules
        fun _ member => member
      intro rule violation member
      exact (Matching.allReports_matchRule rule read.1 read.2 file.relativePath violation
        member).ruleId

/-- Together the violations of narrower results are those of the wider ones that stay. -/
theorem flatMap_narrows {admits : Violation → Bool} {narrow wide : List FileResult}
    (narrows : List.Forall₂ (Narrows admits) narrow wide) :
    narrow.flatMap (·.violations) = (wide.flatMap (·.violations)).filter admits := by
  induction narrows with
  | nil => rfl
  | cons first _ inductionHypothesis =>
    rw [List.flatMap_cons, List.flatMap_cons, List.filter_append, inductionHypothesis,
      first.violations]

/-- Putting violations in order goes along with leaving some of them out. -/
theorem inOrder_filter (violations : List Violation) (test : Violation → Bool) :
    inOrder (violations.filter test) = (inOrder violations).filter test :=
  (Order.isStableSort_inOrder _).unique ((Order.isStableSort_inOrder violations).filter test)
    fun _ => rfl

/-- Every violation of some results has its rule among the rules. -/
theorem find?_of_mem_resultsOf (disk : Disk) (rules : List Rule)
    (distinct : (rules.map (·.id)).Nodup) (typeCheck : Option Compiler.Context)
    (files : List ScannedFile) :
    ∀ answer ∈ resultsOf disk rules typeCheck files, ∀ violation ∈ answer.violations,
      ∃ rule ∈ rules, rules.find? (·.id == violation.ruleId) = some rule := by
  intro answer listed violation member
  obtain ⟨file, _, told⟩ := List.mem_filterMap.mp listed
  simp only [validateFile] at told
  cases read : readSource disk typeCheck file.path with
  | error skipped => simp [read, Except.toOption] at told
  | ok found =>
    simp only [read, Except.toOption, Option.some.injEq] at told
    subst told
    obtain ⟨rule, among, reported⟩ := List.mem_flatMap.mp member
    have reports := Matching.allReports_matchRule rule found.1 found.2 file.relativePath violation
      reported
    refine ⟨rule, among, ?_⟩
    rw [reports.ruleId]
    exact find?_id rules distinct rule among

/-- Without a cap, an audit with a least severity and allowed standards has exactly the violations
of an unrestricted one whose rules are that grave and of those standards, in the same order, and
so has each of its files. -/
theorem validate_selected (disk : Disk) (files : List ScannedFile) (rules : List Rule)
    (options : Options) (distinct : (rules.map (·.id)).Nodup)
    (uncapped : options.maxViolations = none) :
    ∃ part whole, validate disk files rules options = .ok part ∧
      validate disk files rules ⟨none, [], none, options.typeCheck⟩ = .ok whole ∧
      (∀ violation ∈ whole.violations,
        ∃ rule ∈ rules, rules.find? (·.id == violation.ruleId) = some rule) ∧
      part.violations = whole.violations.filter (options.admits rules) ∧
      List.Forall₂ (Narrows (options.admits rules)) part.files whole.files := by
  have everything : rules.filter (Options.selects ⟨none, [], none, options.typeCheck⟩) = rules :=
    List.filter_eq_self.mpr fun _ _ => rfl
  have narrows := resultsOf_narrows disk options rules distinct options.typeCheck files
  refine ⟨_, _, validate_eq disk files rules options distinct,
    validate_eq disk files rules ⟨none, [], none, options.typeCheck⟩ distinct, ?_, ?_, ?_⟩
  · intro violation member
    rw [everything] at member
    have listed := (Order.isStableSort_inOrder _).perm.mem_iff.mp member
    obtain ⟨answer, among, inside⟩ := List.mem_flatMap.mp listed
    exact find?_of_mem_resultsOf disk rules distinct options.typeCheck files answer among
      violation inside
  · rw [everything, uncapped]
    simp only [combine, capped]
    rw [flatMap_narrows narrows, inOrder_filter]
  · rw [everything]
    exact narrows

/-- A disk with two sources and a file that is no text. -/
def sampleSources : Disk :=
  ⟨["w"], [(["w"], .directory), (["w", "a.ts"], .file (Text.encode "b;\na;\nb;\n".toList)),
    (["w", "b.ts"], .file (Text.encode "b;\n".toList)), (["w", "c.ts"], .file [255])]⟩

/-- The files of that disk. -/
def sampleFiles : List ScannedFile :=
  ["b.ts", "c.ts", "a.ts"].map fun name => ⟨⟨"/", ["w", name]⟩, name, ".ts", 3⟩

/-- A rule against a letter. -/
def letterRule (id : String) (standard : Standard) (severity : Severity) (letter : Char) : Rule :=
  ⟨id, "letter", standard, severity, "", "", "", some ⟨letter.toString, false, .char letter⟩, none,
    none, []⟩

/-- Rules of two standards and severities. -/
def sampleRules : List Rule :=
  [letterRule "tes-001" .testing .warning 'a', letterRule "sec-001" .security .error 'b']

/-- Of four violations one is of an allowed standard. -/
theorem validate_selected_testing :
    let options : Options := ⟨some .warning, [.testing], none, none⟩
    ∃ part whole, validate sampleSources sampleFiles sampleRules options = .ok part ∧
      validate sampleSources sampleFiles sampleRules ⟨none, [], none, none⟩ = .ok whole ∧
      part.violations.length = 1 ∧ whole.violations.length = 4 ∧
      part.violations = whole.violations.filter (options.admits sampleRules) := by
  intro options
  obtain ⟨part, whole, narrow, wide, _, violations, _⟩ :=
    validate_selected sampleSources sampleFiles sampleRules options (by decide) rfl
  have few : (validate sampleSources sampleFiles sampleRules options).toOption.map
      (·.violations.length) = some 1 := by decide +kernel
  have many : (validate sampleSources sampleFiles sampleRules ⟨none, [], none, none⟩).toOption.map
      (·.violations.length) = some 4 := by decide +kernel
  rw [narrow] at few
  rw [wide] at many
  exact ⟨part, whole, narrow, wide, Option.some.inj few, Option.some.inj many, violations⟩

end Audit

end Conformance
