import Conformance.Matching.Lines
import Conformance.Syntax.Facts

/-!
# The node channel

A rule with a node test is reported at every node that passes the test, in the order of
a walk over the tree. A test that fails at a node is as if that node did not pass.
-/

namespace Conformance.Matching

open Syntax

/-- The debugging methods of the console. -/
def debugMethods : List String := ["log", "debug", "info", "warn", "error"]

/-- Whether a node is a class whose heritage mentions a component. -/
def isClassComponent (source : List Char) (node : Node) : Bool :=
  node.isAny [.classDeclaration, .abstractClassDeclaration] &&
    (heritageText source node).any (Text.occursIn "Component".toList)

/-- Whether a node is a call of a debugging method of the console. -/
def isDebugCall (source : List Char) (node : Node) : Bool :=
  node.is .callExpression &&
    match node.child? .callee with
    | none => false
    | some callee =>
      callee.is .memberExpression && optionalText source (callee.child? .object) == "console" &&
        debugMethods.contains (optionalText source (callee.child? .property))

/-- The named node tests. -/
def passesNamed (source : List Char) (kind : NodeTestKind) (node : Node) : Bool :=
  match kind with
  | .anyType => isAnyType source node
  | .varDeclaration => node.is .variableDeclaration
  | .defaultExport => node.is .exportStatement && node.hasToken "default"
  | .classComponent => isClassComponent source node
  | .debugCall => isDebugCall source node
  | .custom => false

/-- What a node test answers at a node. -/
def testNode (source : List Char) (test : NodeTest) (node : Node) : TestAnswer :=
  match test with
  | .builtin kind => if passesNamed source kind node then .hit else .miss
  | .custom predicate => predicate node

/-- The most characters of a node that are shown. -/
def nodeSnippetLimit : Nat := 100

/-- The report of a node that passes the test of a rule. -/
def reportNode (rule : Rule) (source : List Char) (filePath : String) (node : Node) : Violation :=
  report rule filePath node.line (node.column source) "" none ((node.text source).take nodeSnippetLimit)

/-- The reports of a rule's node test on a tree. -/
def matchNodes (rule : Rule) (source : List Char) (tree : Node) (filePath : String) : List Violation :=
  match rule.nodeTest with
  | none => []
  | some test =>
    (tree.nodes.filter fun node => testNode source test node == .hit).map (reportNode rule source filePath)

end Conformance.Matching
