import Conformance.Audit.Result
import Conformance.Order.Stable

/-!
# Rankings

The rules that are broken most often, the files with most violations and the files with
the lowest scores. What is ranked equally keeps its order.
-/

namespace Conformance.Audit

/-- A broken rule: how often, and the message of its first violation. -/
structure RuleCount (τ : Type) where
  ruleId : τ
  count : Nat
  message : τ
  deriving Repr, DecidableEq

/-- Count one more violation of a rule. A new rule goes to the end. -/
def countRule {τ : Type} [BEq τ] (finding : Finding τ) : List (RuleCount τ) → List (RuleCount τ)
  | [] => [⟨finding.ruleId, 1, finding.message⟩]
  | item :: rest =>
    if item.ruleId == finding.ruleId then { item with count := item.count + 1 } :: rest
    else item :: countRule finding rest

/-- The broken rules in the order of their first violations. -/
def ruleCounts {τ : Type} [BEq τ] (findings : List (Finding τ)) : List (RuleCount τ) :=
  findings.foldl (fun counts finding => countRule finding counts) []

/-- The first elements of a list. A negative limit is counted from the end. -/
def limited {α : Type} (limit : Int) (xs : List α) : List α :=
  if limit < 0 then xs.take (xs.length - limit.natAbs) else xs.take limit.toNat

/-- The rules that are broken most often. -/
def topRules {τ : Type} [BEq τ] (limit : Int) (findings : List (Finding τ)) : List (RuleCount τ) :=
  (Order.sort (fun left right => left.count > right.count) (ruleCounts findings)).take limit.toNat

/-- The files with most violations. -/
def topFiles {τ : Type} (limit : Int) (files : List (FileResultOf τ)) : List (FileResultOf τ) :=
  limited limit
    (Order.sort (fun left right => left.violations.length > right.violations.length) files)

/-- The files with the lowest scores. -/
def lowestFiles {τ : Type} (limit : Int) (files : List (FileResultOf τ)) : List (FileResultOf τ) :=
  limited limit (Order.sort (fun left right => left.score < right.score) files)

/-- A ranked file. -/
structure FileRank (τ : Type) where
  file : τ
  violations : Nat
  score : Int
  deriving Repr, DecidableEq

/-- A short account of a result. -/
structure SummaryOf (τ ν : Type) where
  totalFiles : Int
  totalViolations : Int
  score : Int
  errors : ν
  warnings : ν
  infos : ν
  topRules : List (RuleCount τ)
  topFiles : List (FileRank τ)
  deriving Repr, DecidableEq

/-- The count of a name in a tally, or the value for an absent one. -/
def countOf {τ ν : Type} [BEq τ] (absent : ν) (name : τ) (counts : List (τ × ν)) : ν :=
  ((counts.find? fun (other, _) => other == name).map (·.2)).getD absent

/-- A short account of a result. The severities have the given names in its tally. -/
def summarise {τ ν : Type} [BEq τ] (nameOf : Severity → τ) (absent : ν) (limit : Int)
    (result : ResultOf τ ν) : SummaryOf τ ν :=
  { totalFiles := result.totalFiles
    totalViolations := result.totalViolations
    score := result.score
    errors := countOf absent (nameOf .error) result.bySeverity
    warnings := countOf absent (nameOf .warning) result.bySeverity
    infos := countOf absent (nameOf .info) result.bySeverity
    topRules := topRules limit result.violations
    topFiles := (topFiles limit result.files).map fun file =>
      ⟨file.filePath, file.violations.length, file.score⟩ }

end Conformance.Audit
