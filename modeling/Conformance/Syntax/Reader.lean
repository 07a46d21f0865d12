import Conformance.Syntax.Statement

/-!
# Reading a source

The rules are tied together by a bound on the depth of nesting, which the length of
the source determines. The root covers everything from the first token or comment to
the end of the source.
-/

namespace Conformance.Syntax

open Rule

/-- The rule for a construct that nests, given the reader of what nests in it. -/
def ruleFor (dialect : Dialect) (self : Self) : Goal → Rule
  | .statement => statementRule self
  | .block => blockRule self
  | .expression mode => expressionRule self dialect mode
  | .sequence mode => sequenceRule self mode
  | .binary mode least => binaryRule self mode least
  | .unary mode => unaryRule self dialect mode
  | .operand mode => operandRule self dialect true mode
  | .constructorOperand mode => operandRule self dialect false mode
  | .typeExpression => typeRule self
  | .comparedType => comparedTypeRule self
  | .primaryType => primaryTypeRule self
  | .pattern => patternRule self
  | .element => elementRule self

/-- Read a construct whose nesting is at most so deep. -/
def readNested (dialect : Dialect) : Nat → Self
  | 0 => fun _ _ => none
  | depth + 1 => fun goal cursor => ruleFor dialect (readNested dialect depth) goal cursor

/-- How deep constructs can nest in a source: each level takes a character, and at most
a few levels share one. -/
def depthBound (source : List Char) : Nat := 8 * source.length + 64

/-- The statements of a source, with the comments between them. -/
def statements (dialect : Dialect) (source : List Char) (start : Cursor) : List Node × Cursor :=
  match many (readNested dialect (depthBound source) .statement) start with
  | some result => result
  | none => ([], start)

/-- The first line of a source that names its interpreter. -/
def hashBang : Rule := fun cursor =>
  if cursor.startsWith "#!" then
    let stop := cursor.skipWhile (· != '\n')
    some ([leaf (.construct .hashBangLine) cursor stop], stop)
  else none

/-- Why a source is not read. -/
inductive ReadError where
  /-- No statement begins at this byte. -/
  | unexpected (byte : Nat)
  deriving Repr, DecidableEq

/-- The tree of a source. -/
def readTree (dialect : Dialect) (source : List Char) : Except ReadError Node :=
  let start := (Cursor.ofText source).skipWhile isGap
  let (interpreter, behind) := match hashBang start with
    | some result => result
    | none => ([], start)
  let (nodes, last) := statements dialect source behind
  let (comments, stop) := gap last
  if stop.rest.isEmpty then
    .ok (.mk (.construct .program) none ⟨start.byte, stop.byte, start.row⟩
      (interpreter ++ nodes ++ comments))
  else .error (.unexpected stop.byte)

end Conformance.Syntax
