import Conformance.Audit.Result
import Conformance.Disk.Walk
import Conformance.Order.Stable

/-!
# The order of violations

Violations are shown gravest first, then by file, then by line; others keep their order.
Grouped by file they keep it too, and the files come in the order of their first
violations.
-/

namespace Conformance.Audit

/-- Whether a violation must be shown before another. -/
def shownBefore (left right : Violation) : Bool :=
  if left.severity.rank ≠ right.severity.rank then left.severity.rank > right.severity.rank
  else if left.filePath ≠ right.filePath then Order.textBefore left.filePath right.filePath
  else left.line < right.line

/-- Violations in the order in which they are shown. -/
def inOrder (violations : List Violation) : List Violation := Order.sort shownBefore violations

/-- Put a value into the group of its key. A new key goes to the end. -/
def putGroup {κ ν : Type} [DecidableEq κ] (key : κ) (value : ν) : List (κ × List ν) → List (κ × List ν)
  | [] => [(key, [value])]
  | (other, values) :: rest =>
    if other = key then (other, values ++ [value]) :: rest
    else (other, values) :: putGroup key value rest

/-- Values grouped by a key, in the order of their first values. -/
def groupBy {κ ν : Type} [DecidableEq κ] (key : ν → κ) (values : List ν) : List (κ × List ν) :=
  values.foldl (fun groups value => putGroup (key value) value groups) []

/-- Violations in order, grouped by the paths of their files below a root. -/
def groupByFile (root : Path) (violations : List Violation) : List (Path × List Violation) :=
  groupBy (fun violation => root.join (.ofString violation.filePath)) (inOrder violations)

/-!
## Tallies

How many violations there are of each standard and of each severity. The standard of a
violation is read off the identifier of its rule.
-/

/-- Count one more of a key. A new key goes to the end. -/
def countOne {κ : Type} [DecidableEq κ] (key : κ) : List (κ × Nat) → List (κ × Nat)
  | [] => [(key, 1)]
  | (other, count) :: rest =>
    if other = key then (other, count + 1) :: rest else (other, count) :: countOne key rest

/-- How often each key occurs, in the order of first occurrence. -/
def tally {κ : Type} [DecidableEq κ] (keys : List κ) : List (κ × Nat) :=
  keys.foldl (fun counts key => countOne key counts) []

/-- The name of the standard whose code begins an identifier; a beginning that is no
code stands for itself. -/
def standardOfRuleId (ruleId : String) : String :=
  let code := String.ofList (ruleId.toList.takeWhile (· != '-'))
  match Standard.ofCode? code with
  | some standard => standard.name
  | none => code

/-- The violations of each standard. -/
def tallyByStandard (violations : List Violation) : List (String × Nat) :=
  tally (violations.map fun violation => standardOfRuleId violation.ruleId)

/-- The violations of each severity; none is left out. -/
def tallyBySeverity (violations : List Violation) : List (String × Nat) :=
  Severity.all.map fun severity => (severity.name, violations.countP (·.severity == severity))

end Conformance.Audit
