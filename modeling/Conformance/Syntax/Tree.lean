import Conformance.Syntax.Kind
import Conformance.Text.Utf8

/-!
# Syntax trees

A node covers a range of bytes of its source and knows the row of its first byte.
Its children lie inside it in source order. Comments are children of the innermost
node that began before them and ends behind them.
-/

namespace Conformance.Syntax

open Text

/-- Where a node stands: the bytes it covers, and how many line feeds precede it. -/
structure Span where
  startByte : Nat
  endByte : Nat
  row : Nat
  deriving Repr, DecidableEq

/-- A node of a syntax tree, with the role it plays in its parent. -/
inductive Node where
  | mk (kind : Kind) (role : Option Role) (span : Span) (children : List Node)

namespace Node

/-- What the node stands for. -/
def kind : Node → Kind
  | .mk kind _ _ _ => kind

/-- The part that the node plays in its parent. -/
def role : Node → Option Role
  | .mk _ role _ _ => role

/-- Where the node stands. -/
def span : Node → Span
  | .mk _ _ span _ => span

/-- The nodes directly below, in source order. -/
def children : Node → List Node
  | .mk _ _ _ children => children

/-- The same node in another role. -/
def withRole (role : Role) : Node → Node
  | .mk kind _ span children => .mk kind (some role) span children

/-- Whether the node is of a construct. -/
def is (node : Node) (construct : Construct) : Bool := node.kind == .construct construct

/-- Whether the node is of one of several constructs. -/
def isAny (node : Node) (constructs : List Construct) : Bool := constructs.any node.is

/-- Whether the node is a keyword or mark with the given text. -/
def isToken (node : Node) (text : String) : Bool := node.kind == .token text

/-- The children that are constructs. -/
def namedChildren (node : Node) : List Node :=
  node.children.filter fun child => match child.kind with
    | .construct _ => true
    | .token _ => false

/-- The first child in a role. -/
def child? (node : Node) (role : Role) : Option Node :=
  node.children.find? fun child => child.role == some role

/-- Whether some child is a keyword or mark with the given text. -/
def hasToken (node : Node) (text : String) : Bool := node.children.any (·.isToken text)

/-- The part of the source that the node covers. -/
def text (source : List Char) (node : Node) : List Char :=
  takeBytes (node.span.endByte - node.span.startByte) (dropBytes node.span.startByte source)

/-- The line of the node's first character; the first line is one. -/
def line (node : Node) : Nat := node.span.row + 1

mutual

/-- The node and everything below it, a parent before its children and children from
left to right. -/
def preorder : Node → List Node
  | .mk kind role span children => .mk kind role span children :: preorderAll children

/-- The nodes of several trees, one tree after the other. -/
def preorderAll : List Node → List Node
  | [] => []
  | node :: rest => preorder node ++ preorderAll rest

end

mutual

/-- How many nodes a tree has. -/
def count : Node → Nat
  | .mk _ _ _ children => 1 + countAll children

/-- How many nodes several trees have together. -/
def countAll : List Node → Nat
  | [] => 0
  | node :: rest => count node + countAll rest

end

/-- A walk with an explicit stack: take the top node, put its children in its place.
The number bounds the steps. -/
def walkStack : Nat → List Node → List Node
  | 0, _ => []
  | _, [] => []
  | steps + 1, node :: stack => node :: walkStack steps (node.children ++ stack)

/-- All nodes of a tree in the order of a walk with a stack. -/
def nodes (root : Node) : List Node := walkStack root.count [root]

end Node

/-- The part of a text behind its last line feed. -/
def afterLastBreak (bytes : List UInt8) : List UInt8 :=
  (bytes.reverse.takeWhile (· != 10)).reverse

/-- The number of bytes that do not continue a character. -/
def characterCount (bytes : List UInt8) : Nat :=
  (bytes.filter fun byte => byte.toNat / 64 != 2).length

/-- The column of the character that begins at a byte of the encoded source: one more
than the characters between it and the line feed before it. -/
def columnAt (bytes : List UInt8) (startByte : Nat) : Nat :=
  let before := afterLastBreak (bytes.take startByte)
  match decode before with
  | .ok text => text.length + 1
  | .error _ => characterCount before + 1

/-- The column of the node's first character, counted in characters from one. -/
def Node.column (source : List Char) (node : Node) : Nat :=
  columnAt (encode source) node.span.startByte

end Conformance.Syntax
