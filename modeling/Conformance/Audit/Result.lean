import Conformance.Number.Binary64
import Conformance.Rule

/-!
# Results of an audit

What an audit says about each file and about the whole project. The texts of a result
have a type `τ` and the counts of its tallies a type `ν`: an audit makes strings and
numbers, while a stored result that is read back may hold other values in their places.
-/

namespace Conformance

/-- The violations and the score of one file. -/
structure FileResultOf (τ : Type) where
  filePath : τ
  violations : List (Finding τ)
  lineCount : Int
  score : Int
  deriving Repr, DecidableEq

/-- The violations and the score of a project. -/
structure ResultOf (τ ν : Type) where
  totalFiles : Int
  totalViolations : Int
  score : Int
  /-- How many violations each standard has, in the order of their first violations. -/
  byStandard : List (τ × ν)
  /-- How many violations each severity has. -/
  bySeverity : List (τ × ν)
  violations : List (Finding τ)
  files : List (FileResultOf τ)
  /-- How long the audit took, in thousandths of a second. -/
  milliseconds : Number.Binary64
  deriving Repr, DecidableEq

/-- What an audit says about one file. -/
abbrev FileResult := FileResultOf String

/-- What an audit says about a project. -/
abbrev AuditResult := ResultOf String Nat

/-- A violation with its texts changed. -/
def Finding.map {σ τ : Type} (f : σ → τ) (finding : Finding σ) : Finding τ :=
  { ruleId := f finding.ruleId
    filePath := f finding.filePath
    line := finding.line
    column := finding.column
    severity := finding.severity
    message := f finding.message
    codeSnippet := f finding.codeSnippet
    fixSuggestion := finding.fixSuggestion.map f
    ruleName := f finding.ruleName }

/-- The result of a file with its texts changed. -/
def FileResultOf.map {σ τ : Type} (f : σ → τ) (file : FileResultOf σ) : FileResultOf τ :=
  ⟨f file.filePath, file.violations.map (Finding.map f), file.lineCount, file.score⟩

/-- A result with its texts and counts changed. -/
def ResultOf.map {σ τ μ ν : Type} (f : σ → τ) (g : μ → ν) (result : ResultOf σ μ) : ResultOf τ ν :=
  { totalFiles := result.totalFiles
    totalViolations := result.totalViolations
    score := result.score
    byStandard := result.byStandard.map fun (name, count) => (f name, g count)
    bySeverity := result.bySeverity.map fun (name, count) => (f name, g count)
    violations := result.violations.map (Finding.map f)
    files := result.files.map (FileResultOf.map f)
    milliseconds := result.milliseconds }

end Conformance
