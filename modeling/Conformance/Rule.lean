import Conformance.Pattern.Basic
import Conformance.Standard
import Conformance.Syntax.Tree

/-!
# Rules

A rule says what to look for and how to report it. It can look at single lines with a
pattern and at the syntax tree with a test on nodes; the checks that belong to its
standard go by its name.
-/

namespace Conformance

/-- The node tests that rules can name. -/
inductive NodeTestKind where
  | anyType
  | varDeclaration
  | defaultExport
  | classComponent
  | debugCall
  | custom
  deriving Repr, DecidableEq

/-- The name of a kind of node test. -/
def NodeTestKind.name : NodeTestKind → String
  | .anyType => "any-type"
  | .varDeclaration => "var-declaration"
  | .defaultExport => "default-export"
  | .classComponent => "class-component"
  | .debugCall => "debug-call"
  | .custom => "custom"

/-- All kinds of node test. -/
def NodeTestKind.all : List NodeTestKind :=
  [.anyType, .varDeclaration, .defaultExport, .classComponent, .debugCall, .custom]

/-- The kind of node test of a name. -/
def NodeTestKind.ofName? (text : String) : Option NodeTestKind := all.find? (·.name == text)

/-- The answer of a node test: it can also fail at a node. -/
inductive TestAnswer where
  | hit
  | miss
  | failed
  deriving Repr, DecidableEq

/-- A test on the nodes of a syntax tree. -/
abbrev NodePredicate := Syntax.Node → TestAnswer

/-- A node test: one of the named ones, or one that a rule brings along. -/
inductive NodeTest where
  | builtin (kind : NodeTestKind)
  | custom (predicate : NodePredicate)

/-- The kind of a node test. -/
def NodeTest.kind : NodeTest → NodeTestKind
  | .builtin kind => kind
  | .custom _ => .custom

/-- Why a node test cannot be made. -/
inductive NodeTestError where
  /-- A test of the custom kind needs a predicate. -/
  | predicateMissing
  /-- A named test has its own predicate. -/
  | predicateGiven (kind : NodeTestKind)
  deriving Repr, DecidableEq

/-- What is said about a node test that cannot be made. -/
def NodeTestError.message : NodeTestError → String
  | .predicateMissing => "custom AST matcher requires a predicate"
  | .predicateGiven kind => "built-in AST matcher '" ++ kind.name ++ "' does not take a predicate"

/-- Make a node test. Exactly the custom kind takes a predicate. -/
def NodeTest.make (kind : NodeTestKind) (predicate : Option NodePredicate) :
    Except NodeTestError NodeTest :=
  match kind, predicate with
  | .custom, none => .error .predicateMissing
  | .custom, some predicate => .ok (.custom predicate)
  | kind, none => .ok (.builtin kind)
  | kind, some _ => .error (.predicateGiven kind)

/-- A rule that code can be checked against. -/
structure Rule where
  /-- The code of the standard and a number, unique in a registry. -/
  id : String
  name : String
  standard : Standard
  severity : Severity
  message : String
  /-- A text that breaks the rule. -/
  incorrect : String
  /-- A text that keeps it. -/
  correct : String
  /-- Looked for in every line. -/
  pattern : Option Pattern
  nodeTest : Option NodeTest
  fixTemplate : Option String
  tags : List String

/-- A place where a rule is broken, with texts of type `τ`. An audit makes texts; a
report that is read back may hold other values in their places. -/
structure Finding (τ : Type) where
  ruleId : τ
  filePath : τ
  line : Int
  column : Int
  severity : Severity
  message : τ
  codeSnippet : τ
  fixSuggestion : Option τ
  ruleName : τ
  deriving Repr, DecidableEq

/-- A place where a rule is broken. -/
abbrev Violation := Finding String

end Conformance
