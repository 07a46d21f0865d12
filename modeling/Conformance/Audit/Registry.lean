import Conformance.Audit.Ordering
import Conformance.Order.Stable

/-!
# Registries of rules

An ordered collection of rules whose identifiers are all different. It is made once and
then only asked.
-/

namespace Conformance.Audit

/-- Two rules have one identifier. -/
structure DuplicateRule where
  ruleId : String
  deriving Repr, DecidableEq

/-- What is said about a repeated identifier. -/
def DuplicateRule.message (error : DuplicateRule) : String := "Duplicate rule ID: " ++ error.ruleId

/-- The first identifier that an earlier rule has too. -/
def firstDuplicate? : (seen : List String) → List Rule → Option String
  | _, [] => none
  | seen, rule :: rest =>
    if seen.contains rule.id then some rule.id else firstDuplicate? (rule.id :: seen) rest

/-- Rules with identifiers that are all different. -/
structure Registry where
  rules : List Rule
  firstDuplicate_eq_none : firstDuplicate? [] rules = none

/-- How many rules there are. -/
structure RuleStatistics where
  total : Nat
  byStandard : List (String × Nat)
  bySeverity : List (String × Nat)
  deriving Repr, DecidableEq

namespace Registry

/-- The registry of some rules. -/
def ofRules (rules : List Rule) : Except DuplicateRule Registry :=
  match unique : firstDuplicate? [] rules with
  | some ruleId => .error ⟨ruleId⟩
  | none => .ok ⟨rules, unique⟩

/-- The rule with an identifier. -/
def get? (registry : Registry) (ruleId : String) : Option Rule :=
  registry.rules.find? (·.id == ruleId)

/-- Whether a rule has an identifier. -/
def contains (registry : Registry) (ruleId : String) : Bool := registry.rules.any (·.id == ruleId)

/-- The rules of a standard. -/
def byStandard (registry : Registry) (standard : Standard) : List Rule :=
  registry.rules.filter (·.standard == standard)

/-- The rules of a severity. -/
def bySeverity (registry : Registry) (severity : Severity) : List Rule :=
  registry.rules.filter (·.severity == severity)

/-- Whether a rule is grave enough. -/
def isGrave (least : Option Severity) (rule : Rule) : Bool :=
  least.all fun severity => severity.rank ≤ rule.severity.rank

/-- Whether a rule's standard is allowed; without a list all are. -/
def isAllowed (standards : Option (List Standard)) (rule : Rule) : Bool :=
  standards.all fun allowed => allowed.contains rule.standard

/-- The rules that are grave enough and of an allowed standard. -/
def filter (registry : Registry) (least : Option Severity) (standards : Option (List Standard)) :
    List Rule :=
  registry.rules.filter fun rule => isGrave least rule && isAllowed standards rule

/-- How many rules there are of each standard and severity. The standards are in the
order of their names, the severities in that of their first rules. -/
def statistics (registry : Registry) : RuleStatistics :=
  { total := registry.rules.length
    byStandard := Order.sort (fun left right => Order.textBefore left.1 right.1)
      (tally (registry.rules.map (·.standard.name)))
    bySeverity := tally (registry.rules.map (·.severity.name)) }

end Registry

end Conformance.Audit
