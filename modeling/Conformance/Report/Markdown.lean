import Conformance.Audit.Ranking
import Conformance.Report.Plain

/-!
# Markdown reports

A result as a Markdown document: tables of the counts, the standards, the rules that are
broken most often and the files with most violations, and a list of all violations.
-/

namespace Conformance.Report

open Audit Number

/-- Why a result cannot be put into tables. -/
inductive TableError where
  /-- The id of a rule is a collection. -/
  | uncountableRule
  /-- The names of a tally have no common order. -/
  | unorderedNames
  deriving Repr, DecidableEq

/-- A row of a table. -/
def tableRow (cells : List (List Char)) : List Char :=
  '|' :: ' ' :: List.intercalate " | ".toList cells ++ [' ', '|']

/-- The lines of a table: its heading, its columns and its rows. -/
def table (heading : String) (columns : List String) (rows : List (List (List Char))) :
    List (List Char) :=
  [heading.toList, [], tableRow (columns.map (·.toList)),
    '|' :: columns.flatMap fun _ => "---|".toList] ++ rows.map tableRow ++ [[]]

/-- A table that is left out if it has no rows. -/
def tableIfAny (heading : String) (columns : List String) (rows : List (List (List Char))) :
    List (List Char) :=
  if rows.isEmpty then [] else table heading columns rows

/-- Whether a value is a text. -/
def isText (value : Json) : Bool := value.string?.isSome

/-- Whether a value is a number or a truth value. -/
def isNumber : Json → Bool
  | .bool _ => true
  | .integer _ => true
  | .number _ => true
  | _ => false

/-- The order of numbers. -/
def numberBefore (left right : Json) : Bool :=
  let binary : Json → Binary64
    | .number value => value
    | .integer value => .ofInt value
    | .bool value => .ofInt (if value then 1 else 0)
    | _ => .undefined
  match left.ratio?, right.ratio? with
  | some (a, b), some (c, d) => decide (a * d < c * b)
  | _, _ => (binary left).less (binary right)

/-- A tally in the order of its names, if they have one. -/
def inNameOrder (counts : List (Json × Json)) : Option (List (Json × Json)) :=
  if counts.length < 2 then some counts
  else if counts.all fun (name, _) => isText name then
    some (Order.sort (fun left right =>
      Order.textBefore (String.ofList left.1.shown) (String.ofList right.1.shown)) counts)
  else if counts.all fun (name, _) => isNumber name then
    some (Order.sort (fun left right => numberBefore left.1 right.1) counts)
  else none

/-- The row of each standard. -/
def standardRows (counts : List (Json × Json)) : List (List (List Char)) :=
  counts.map fun (name, count) => [name.shown, count.shown]

/-- The row of each rule. -/
def ruleRows (rules : List (RuleCount Json)) : List (List (List Char)) :=
  rules.map fun rule => [rule.ruleId.shown, digits rule.count, rule.message.shown]

/-- The row of each file. -/
def fileRows (files : List (FileRank Json)) : List (List (List Char)) :=
  files.map fun file =>
    ['\x60' :: file.file.shown ++ ['\x60'], digits file.violations, integerText file.score]

/-- The row of each count. -/
def countRows (summary : SummaryOf Json Json) : List (List (List Char)) :=
  [["Files".toList, integerText summary.totalFiles],
    ["Violations".toList, integerText summary.totalViolations],
    ["Compliance".toList, integerText summary.score ++ "/100".toList],
    ["Errors".toList, summary.errors.shown], ["Warnings".toList, summary.warnings.shown],
    ["Info".toList, summary.infos.shown]]

/-- The line about a violation. -/
def findingLine (finding : Finding Json) : List Char :=
  "- **".toList ++ finding.severity.name.toList ++ "** \x60".toList ++ finding.filePath.shown ++
    ':' :: integerText finding.line ++ "\x60 ".toList ++ finding.ruleId.shown ++ ": ".toList ++
    finding.message.shown

/-- How many rules and files are ranked. -/
def rankingLimit : Int := 10

/-- A short account of a stored result. -/
def summaryOf (result : StoredResult) : SummaryOf Json Json :=
  summarise (fun severity => .string severity.name) (.integer 0) rankingLimit result

/-- A result as a Markdown document. -/
def markdown (result : StoredResult) : Except TableError (List Char) :=
  if !result.violations.all fun finding => finding.ruleId.isKey then .error .uncountableRule
  else
    match inNameOrder result.byStandard with
    | none => .error .unorderedNames
    | some byStandard =>
      let summary := summaryOf result
      let list := if result.violations.isEmpty then []
        else ["## Violations".toList, []] ++ result.violations.map findingLine ++ [[]]
      .ok (Text.joinLines (
        ["# Standards Audit Report".toList, []] ++
        table "## Summary" ["Metric", "Value"] (countRows summary) ++
        tableIfAny "## By Standard" ["Standard", "Violations"] (standardRows byStandard) ++
        tableIfAny "## Top Rules" ["Rule", "Count", "Message"] (ruleRows summary.topRules) ++
        tableIfAny "## Top Files" ["File", "Violations", "Score"] (fileRows summary.topFiles) ++
        list))

end Conformance.Report
