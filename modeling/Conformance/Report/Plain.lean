import Conformance.Report.Stored
import Conformance.Text.Classes

/-!
# Plain reports

A result as text for a terminal: the score, the violations with their places and fixes,
and one line that counts them.
-/

namespace Conformance.Report

open Number

/-- The mark of a severity. -/
def severityMark : Severity → Char
  | .error => '✗'
  | .warning => '!'
  | .info => 'i'

/-- A number of seconds to one place. -/
def secondsText (milliseconds : Binary64) : List Char := (milliseconds.divNat 1000).fixed 1 ++ ['s']

/-- The count of a severity in a tally. -/
def severityCount (counts : List (Json × Json)) (severity : Severity) : Json :=
  ((counts.find? fun (name, _) => name == Json.string severity.name).map (·.2)).getD (.integer 0)

/-- The lines about a violation. -/
def findingLines (finding : Finding Json) : List (List Char) :=
  let label := Text.trimRight (finding.ruleId.shown ++ ' ' :: finding.ruleName.shown)
  let fix : List (List Char) := match finding.fixSuggestion with
    | some fix => if fix.isTrue then ["  fix: ".toList ++ fix.shown] else []
    | none => []
  [severityMark finding.severity :: ' ' :: label,
    ' ' :: ' ' :: finding.message.shown,
    ' ' :: ' ' :: finding.filePath.shown ++ ':' :: integerText finding.line ++ ':' ::
      integerText finding.column] ++ fix ++ [[]]

/-- The line that counts the violations. -/
def closingLine (result : StoredResult) : List Char :=
  let elapsed := secondsText result.milliseconds
  if result.violations.isEmpty then "No violations found in ".toList ++ elapsed
  else
    let count (severity : Severity) : List Char :=
      (severityCount result.bySeverity severity).shown ++ ' ' :: severity.name.toList
    integerText result.totalViolations ++
      (if result.totalViolations = 1 then " violation found (" else " violations found (").toList ++
      List.intercalate ", ".toList (Severity.all.map count) ++ ") in ".toList ++ elapsed

/-- A result as plain text. -/
def plain (result : StoredResult) : List Char :=
  Text.joinLines (
    ["Files: ".toList ++ integerText result.totalFiles ++ " audited".toList,
      "Compliance: ".toList ++ integerText result.score ++ "/100".toList, []] ++
    result.violations.flatMap findingLines ++ [closingLine result])

end Conformance.Report
