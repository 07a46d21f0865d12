import Conformance.Backup.Record
import Conformance.Number.Decimal
import Conformance.Text.Lines

/-!
# Reports of fix sessions

What a session has fixed, what has failed and which files it has changed.
-/

namespace Conformance.Fix

open Number

/-- What went wrong with a file. -/
structure FileError where
  file : String
  error : String
  deriving Repr, DecidableEq

/-- The account of a session. -/
structure Report where
  totalViolations : Int
  fixed : Int
  failed : Int
  skipped : Int
  filesModified : List String
  errors : List FileError
  /-- Whether nothing was to be written. -/
  dryRun : Bool
  backups : List BackupRecord
  manifestPath : Option String
  deriving Repr, DecidableEq

namespace Report

/-- A report in which nothing has happened. -/
def empty (dryRun : Bool) : Report := ⟨0, 0, 0, 0, [], [], dryRun, [], none⟩

/-- The share of the violations that are fixed; none of none is no share. -/
def successRate (report : Report) : Binary64 :=
  if report.totalViolations = 0 then .zero
  else .ofQuotient (decide (report.fixed < 0) != decide (report.totalViolations < 0))
    report.fixed.natAbs report.totalViolations.natAbs

/-- One more failure, with what went wrong. -/
def addFailure (report : Report) (file error : String) : Report :=
  { report with failed := report.failed + 1, errors := report.errors ++ [⟨file, error⟩] }

/-- A share in whole hundredths. -/
def percentText (share : Binary64) : List Char := (share.mul (.ofInt 100)).fixed 0 ++ ['%']

/-- Lines behind an empty one, unless there are none to introduce. -/
def paragraph (heading : List Char) (items : List (List Char)) : List (List Char) :=
  if items.isEmpty then [] else [[], heading] ++ items.map fun item => ' ' :: ' ' :: item

/-- A report as plain text. -/
def text (report : Report) : List Char :=
  let line (name : String) (value : List Char) : List Char := name.toList ++ ':' :: ' ' :: value
  let files := report.filesModified.map (·.toList)
  let manifest := match report.manifestPath with
    | some path => if path = "" then [] else [[], line "Backup manifest" path.toList]
    | none => []
  Text.joinLines (
    [(if report.dryRun then "Dry run: no files written" else "Auto-fix complete").toList,
      line "Violations" (integerText report.totalViolations),
      line "Fixed" (integerText report.fixed), line "Failed" (integerText report.failed),
      line "Skipped" (integerText report.skipped),
      line "Success rate" (percentText report.successRate)] ++
    paragraph ((if report.dryRun then "Would modify " else "Modified ").toList ++
      digits files.length ++ " files:".toList) files ++
    paragraph "Errors:".toList (report.errors.map fun error =>
      error.file.toList ++ ':' :: ' ' :: error.error.toList) ++ manifest)

end Report

end Conformance.Fix
