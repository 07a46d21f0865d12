import Conformance.Proofs.Audit.Selection
import Mathlib.Algebra.GroupWithZero.Nat

/-!
# From the files to the project

The result of a project is put together from those of the files that can be read and parsed: the
violations of all of them in the canonical order, cut at the cap, with tallies of what is left.
The cap decides nothing about the files and their score.
-/

namespace Conformance.Audit

open Syntax

/-- Whether a file can be read and parsed. -/
def isReadable (disk : Disk) (typeCheck : Option Compiler.Context) (file : ScannedFile) : Bool :=
  (readSource disk typeCheck file.path).toOption.isSome

/-- How many of so many violations are kept. -/
def keptCount (limit : Option Int) (count : Nat) : Nat :=
  match limit with
  | none => count
  | some limit => min count limit.toNat

/-- How the result of a project goes back to its files. -/
structure Aggregates (disk : Disk) (files : List ScannedFile) (rules : List Rule)
    (options : Options) (result : AuditResult) : Prop where
  /-- Each file that can be read and parsed has its result, in the order of the files. -/
  files : List.Forall₂
    (fun file answer =>
      validateFile disk (rules.filter options.selects) options.typeCheck file = .ok answer)
    (files.filter (isReadable disk options.typeCheck)) result.files
  totalFiles : result.totalFiles = result.files.length
  /-- The first violations of all files in the canonical order are kept, and none that is dropped
  is graver. -/
  violations : ∃ sorted,
    Order.IsStableSort sortKey (result.files.flatMap (·.violations)) sorted ∧
    result.violations = sorted.take (keptCount options.maxViolations sorted.length) ∧
    ∀ kept ∈ result.violations,
      ∀ dropped ∈ sorted.drop (keptCount options.maxViolations sorted.length),
        dropped.severity.rank ≤ kept.severity.rank
  totalViolations : result.totalViolations = result.violations.length
  severities : result.bySeverity.map Prod.fst = ["error", "warning", "info"]
  bySeverity : (result.bySeverity.map Prod.snd).sum = result.violations.length
  byStandard : (result.byStandard.map Prod.snd).sum = result.violations.length

/-- Counting a key adds one to the sum of the counts. -/
theorem sum_countOne {κ : Type} [DecidableEq κ] (key : κ) (counts : List (κ × Nat)) :
    ((countOne key counts).map Prod.snd).sum = (counts.map Prod.snd).sum + 1 := by
  induction counts with
  | nil => rfl
  | cons count counts inductionHypothesis =>
    obtain ⟨other, many⟩ := count
    unfold countOne
    split
    · simp only [List.map_cons, List.sum_cons]
      omega
    · simp only [List.map_cons, List.sum_cons, inductionHypothesis]
      omega

/-- The counts of a tally sum up to the number of keys. The induction is on the keys, for any
counts to begin with. -/
theorem sum_tally {κ : Type} [DecidableEq κ] (keys : List κ) :
    ((tally keys).map Prod.snd).sum = keys.length := by
  have onward (counts : List (κ × Nat)) :
      ((keys.foldl (fun counts key => countOne key counts) counts).map Prod.snd).sum =
        (counts.map Prod.snd).sum + keys.length := by
    induction keys generalizing counts with
    | nil => rfl
    | cons key keys inductionHypothesis =>
      rw [List.foldl_cons, inductionHypothesis, sum_countOne, List.length_cons]
      omega
  simpa [tally] using onward []

/-- Counting a key raises its count and no other one. -/
theorem lookup_countOne {κ : Type} [DecidableEq κ] (key other : κ) (counts : List (κ × Nat)) :
    ((countOne key counts).lookup other).getD 0 =
      (counts.lookup other).getD 0 + if key = other then 1 else 0 := by
  induction counts with
  | nil =>
    by_cases same : other = key
    · simp [countOne, same]
    · have passed : (other == key) = false := beq_eq_false_iff_ne.mpr same
      simp [countOne, List.lookup_cons, passed, Ne.symm same]
  | cons count counts inductionHypothesis =>
    obtain ⟨first, many⟩ := count
    by_cases counted : first = key
    · subst counted
      by_cases same : other = first
      · simp [countOne, same]
      · have passed : (other == first) = false := beq_eq_false_iff_ne.mpr same
        simp [countOne, List.lookup_cons, passed, Ne.symm same]
    · by_cases here : other = first
      · simp [countOne, counted, here, Ne.symm counted]
      · have passed : (other == first) = false := beq_eq_false_iff_ne.mpr here
        simp [countOne, counted, List.lookup_cons, passed, inductionHypothesis]

/-- A tally has the number of occurrences of each key. The induction is on the keys, for any
counts to begin with. -/
theorem lookup_tally {κ : Type} [DecidableEq κ] (keys : List κ) (key : κ) :
    ((tally keys).lookup key).getD 0 = keys.count key := by
  have onward (counts : List (κ × Nat)) :
      ((keys.foldl (fun counts key => countOne key counts) counts).lookup key).getD 0 =
        (counts.lookup key).getD 0 + keys.count key := by
    induction keys generalizing counts with
    | nil => rfl
    | cons first keys inductionHypothesis =>
      rw [List.foldl_cons, inductionHypothesis, lookup_countOne, List.count_cons]
      simp only [beq_iff_eq]
      omega
  simpa [tally] using onward []

/-- The counts of the severities sum up to the number of violations, since each violation has
one of the severities. -/
theorem sum_tallyBySeverity (violations : List Violation) :
    ((tallyBySeverity violations).map Prod.snd).sum = violations.length := by
  induction violations with
  | nil => rfl
  | cons violation violations inductionHypothesis =>
    simp only [tallyBySeverity, Severity.all, List.map_cons, List.map_nil, List.sum_cons,
      List.sum_nil, List.countP_cons, List.length_cons] at inductionHypothesis ⊢
    cases violation.severity <;> simp <;> omega

/-- A cap of at least one keeps the first violations. -/
theorem capped_eq_take (limit : Option Int) (positive : ∀ cap ∈ limit, 1 ≤ cap)
    (violations : List Violation) :
    capped limit violations = violations.take (keptCount limit violations.length) := by
  cases limit with
  | none => simp [capped, keptCount]
  | some cap =>
    have least := positive cap rfl
    simp only [capped, limited, keptCount, if_neg (show ¬ cap < 0 by omega)]
    split
    · next many => rw [min_eq_right (by omega)]
    · next few => rw [min_eq_left (by omega), List.take_length]

/-- Whatever the cap is, what is kept stands at the front. -/
theorem capped_begins (limit : Option Int) (violations : List Violation) :
    capped limit violations <+: violations := by
  unfold capped
  split
  · split
    · unfold limited
      split
      · exact List.take_prefix _ _
      · exact List.take_prefix _ _
    · exact List.prefix_refl _
  · exact List.prefix_refl _

/-- What stands behind in the canonical order is not graver. -/
theorem rank_of_mem_drop {values sorted : List Violation}
    (sorts : Order.IsStableSort sortKey values sorted) (count : Nat) :
    ∀ kept ∈ sorted.take count, ∀ dropped ∈ sorted.drop count,
      dropped.severity.rank ≤ kept.severity.rank := by
  intro kept early dropped late
  have ascending := sorts.ascending
  rw [← List.take_append_drop count sorted, List.pairwise_append] at ascending
  have before := ascending.2.2 kept early dropped late
  simp only [sortKey, Prod.Lex.toLex_le_toLex] at before
  omega

/-- Each file that can be read and parsed has its result. -/
theorem forall₂_resultsOf (disk : Disk) (rules : List Rule)
    (typeCheck : Option Compiler.Context) (files : List ScannedFile) :
    List.Forall₂ (fun file answer => validateFile disk rules typeCheck file = .ok answer)
      (files.filter (isReadable disk typeCheck)) (resultsOf disk rules typeCheck files) := by
  induction files with
  | nil => exact .nil
  | cons file files inductionHypothesis =>
    cases read : readSource disk typeCheck file.path with
    | error skipped =>
      have refused : validateFile disk rules typeCheck file = .error skipped := by
        simp [validateFile, read]
      simpa [isReadable, resultsOf, read, refused, Except.toOption] using inductionHypothesis
    | ok found =>
      obtain ⟨answer, validated⟩ :
          ∃ answer, validateFile disk rules typeCheck file = .ok answer := by
        simp [validateFile, read]
      have kept : (file :: files).filter (isReadable disk typeCheck) =
          file :: files.filter (isReadable disk typeCheck) :=
        List.filter_cons_of_pos (by simp [isReadable, read, Except.toOption])
      have answered : resultsOf disk rules typeCheck (file :: files) =
          answer :: resultsOf disk rules typeCheck files := by
        simp [resultsOf, validated, Except.toOption]
      rw [kept, answered]
      exact .cons validated inductionHypothesis

/-- A file that cannot be read or parsed leaves no trace. -/
theorem resultsOf_skip (disk : Disk) (rules : List Rule) (typeCheck : Option Compiler.Context)
    (before after : List ScannedFile) (skipped : ScannedFile)
    (unreadable : isReadable disk typeCheck skipped = false) :
    resultsOf disk rules typeCheck (before ++ skipped :: after) =
      resultsOf disk rules typeCheck (before ++ after) := by
  have refused : (validateFile disk rules typeCheck skipped).toOption = none := by
    unfold isReadable at unreadable
    unfold validateFile
    cases read : readSource disk typeCheck skipped.path with
    | error reason => rfl
    | ok found => simp [read, Except.toOption] at unreadable
  unfold resultsOf
  rw [List.filterMap_append, List.filterMap_append, List.filterMap_cons, refused]

/-- Validation with rules that have different identifiers and a cap of at least one, if any, puts
the result together from the files that can be read and parsed. Other files change nothing, and
another cap changes only how much of the violations is kept. -/
theorem validate_aggregates (disk : Disk) (files : List ScannedFile) (rules : List Rule)
    (options : Options) (distinct : (rules.map (·.id)).Nodup)
    (positive : ∀ cap ∈ options.maxViolations, 1 ≤ cap) :
    ∃ result, validate disk files rules options = .ok result ∧
      Aggregates disk files rules options result ∧
      (∀ before skipped after, files = before ++ after →
        isReadable disk options.typeCheck skipped = false →
        validate disk (before ++ skipped :: after) rules options = .ok result) ∧
      ∀ limit, ∃ other,
        validate disk files rules { options with maxViolations := limit } = .ok other ∧
        other.files = result.files ∧ other.totalFiles = result.totalFiles ∧
        other.score = result.score ∧
        (other.violations <+: result.violations ∨ result.violations <+: other.violations) := by
  have validated := validate_eq disk files rules options distinct
  refine ⟨_, validated, ?_, ?_, ?_⟩
  · have sorts := Order.isStableSort_inOrder
      ((resultsOf disk (rules.filter options.selects) options.typeCheck files).flatMap
        (·.violations))
    have kept := capped_eq_take options.maxViolations positive
    refine ⟨forall₂_resultsOf .., rfl, ⟨_, sorts, kept _, ?_⟩, rfl, rfl, ?_, ?_⟩
    · simp only [combine, kept]
      exact rank_of_mem_drop sorts _
    · exact sum_tallyBySeverity _
    · simp only [combine, tallyByStandard, sum_tally, List.length_map]
  · rintro before skipped after rfl unreadable
    rw [validate_eq disk _ rules options distinct, resultsOf_skip _ _ _ _ _ _ unreadable]
  · intro limit
    refine ⟨_, validate_eq disk files rules _ distinct, rfl, rfl, rfl, ?_⟩
    exact List.prefix_or_prefix_of_prefix (capped_begins limit _)
      (capped_begins options.maxViolations _)

/-- Two of three files can be read, and two of their four violations are kept. -/
theorem validate_aggregates_capped :
    let options : Options := ⟨none, [], some 2, none⟩
    ∃ result, validate sampleSources sampleFiles sampleRules options = .ok result ∧
      result.files.length = 2 ∧ result.violations.length = 2 ∧
      Aggregates sampleSources sampleFiles sampleRules options result := by
  intro options
  obtain ⟨result, validated, aggregates, _⟩ :=
    validate_aggregates sampleSources sampleFiles sampleRules options (by decide) (by decide)
  have counts : (validate sampleSources sampleFiles sampleRules options).toOption.map
      (fun result => (result.files.length, result.violations.length)) = some (2, 2) := by
    decide +kernel
  rw [validated] at counts
  obtain ⟨files, violations⟩ := Prod.mk.inj (Option.some.inj counts)
  exact ⟨result, validated, files, violations, aggregates⟩

end Conformance.Audit
