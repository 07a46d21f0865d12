import Conformance.Matching.Checks
import Conformance.Matching.Lines
import Conformance.Matching.Nodes

/-!
# Matching a rule

Three channels look for violations of a rule: its pattern on lines, the checks of its
standard, and its node test. A line that an earlier channel has reported is not reported
by a later one.
-/

namespace Conformance.Matching

open Syntax Text

/-- Whether a line is among the reported ones. -/
def reportsLine (violations : List Violation) (line : Int) : Bool := violations.any (·.line == line)

/-- The reports of the checks, and those of the node test on other lines. -/
def matchSyntax (rule : Rule) (file : SourceFile) (filePath : String) : List Violation :=
  let checked := checkStandard rule file filePath
  checked ++ (matchNodes rule file.source file.tree filePath).filter fun violation =>
    !reportsLine checked violation.line

/-- A violation with the lines around it, if it has no snippet of its own. -/
def withSnippet (lines : List (List Char)) (violation : Violation) : Violation :=
  if violation.codeSnippet = "" then
    { violation with codeSnippet := String.ofList (snippet lines violation.line) }
  else violation

/-- All violations of a rule in a file. The text is that of the lines; the path is the
one to be reported. -/
def matchRule (rule : Rule) (file : SourceFile) (text : List Char) (filePath : String) :
    List Violation :=
  let lines := lines text
  let onLines := matchLines rule lines filePath
  onLines ++ ((matchSyntax rule file filePath).filter fun violation =>
    !reportsLine onLines violation.line).map (withSnippet lines)

end Conformance.Matching
