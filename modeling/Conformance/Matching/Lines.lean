import Conformance.Rule
import Conformance.Text.Lines

/-!
# Snippets

The context of a violation: its line with one line before and one behind, as far as the
text has them.
-/

namespace Conformance.Matching

open Text

/-- The lines around a line counted from one. A line outside the text is taken for the
nearest one inside. -/
def snippet (lines : List (List Char)) (line : Int) : List Char :=
  if lines.isEmpty then []
  else
    let index := (max 0 (min (line - 1) (lines.length - 1))).toNat
    let first := index - 1
    let last := min (lines.length - 1) (index + 1)
    joinLines ((lines.drop first).take (last + 1 - first))

/-!
## Reporting a rule

A violation carries the identifier, name and severity of its rule, and the rule's own
message and fix where nothing more special is said.
-/

/-- Report a rule at a place of a file. An empty message stands for the rule's own. -/
def report (rule : Rule) (filePath : String) (line column : Int) (message : String)
    (fixSuggestion : Option String) (codeSnippet : List Char) : Violation :=
  { ruleId := rule.id
    filePath := filePath
    line := line
    column := column
    severity := rule.severity
    message := if message = "" then rule.message else message
    codeSnippet := String.ofList codeSnippet
    fixSuggestion := fixSuggestion.orElse fun _ => rule.fixTemplate
    ruleName := rule.name }

/-!
## The line channel

A rule with a pattern is reported once for every line that its pattern matches, at the
leftmost match.
-/

/-- The report of a pattern on one line, which is counted from one. -/
def matchLine (rule : Rule) (pattern : Pattern) (filePath : String) (lines : List (List Char))
    (number : Nat) (line : List Char) : Option Violation :=
  (pattern.search line).map fun found =>
    report rule filePath number (found.start + 1) "" none (snippet lines number)

/-- The reports on the lines from a number on. -/
def matchLinesFrom (rule : Rule) (pattern : Pattern) (filePath : String) (lines : List (List Char)) :
    Nat → List (List Char) → List Violation
  | _, [] => []
  | number, line :: rest =>
    (matchLine rule pattern filePath lines number line).toList ++
      matchLinesFrom rule pattern filePath lines (number + 1) rest

/-- The reports of a rule's pattern on all lines. -/
def matchLines (rule : Rule) (lines : List (List Char)) (filePath : String) : List Violation :=
  match rule.pattern with
  | none => []
  | some pattern => matchLinesFrom rule pattern filePath lines 1 lines

end Conformance.Matching
