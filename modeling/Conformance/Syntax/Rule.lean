import Conformance.Syntax.Cursor

/-!
# Rules of the grammar

A rule reads some nodes at a cursor, or does not apply there. The rules are plain
functions that receive, as `self`, the reader of nested constructs; the reader is tied
together at the end, with a bound on the depth of nesting. A construct takes in the
comments between its parts, while the comments before its first part stay outside.
-/

namespace Conformance.Syntax

/-- A rule reads nodes at a cursor, or does not apply. -/
abbrev Rule := Cursor → Option (List Node × Cursor)

/-- How an expression stands in its surroundings. -/
structure Mode where
  /-- The expression ends a statement, whose semicolon may be left out. -/
  ending : Bool
  /-- The keyword `in` belongs to the surrounding loop header. -/
  header : Bool
  /-- A colon behind a parenthesis belongs to a surrounding choice. -/
  branch : Bool
  deriving Repr, DecidableEq

/-- An expression within brackets of any kind. -/
def Mode.closed : Mode := ⟨false, false, false⟩

/-- An expression at the end of a statement. -/
def Mode.statement : Mode := ⟨true, false, false⟩

/-- The constructs that nest. -/
inductive Goal where
  | statement
  | block
  | expression (mode : Mode)
  | sequence (mode : Mode)
  | binary (mode : Mode) (least : Nat)
  | unary (mode : Mode)
  | operand (mode : Mode)
  | constructorOperand (mode : Mode)
  | typeExpression
  | comparedType
  | primaryType
  | pattern
  | element
  deriving Repr, DecidableEq

/-- The reader of nested constructs. -/
abbrev Self := Goal → Rule

/-- The dialect of a source: with markup elements, or with type assertions in angle
brackets. -/
inductive Dialect where
  | plain
  | markup
  deriving Repr, DecidableEq

namespace Rule

/-- Read nothing. -/
def nothing : Rule := fun cursor => some ([], cursor)

/-- Two rules one after the other. -/
def andThen (first second : Rule) : Rule := fun cursor =>
  match first cursor with
  | none => none
  | some (before, cursor) =>
    match second cursor with
    | none => none
    | some (after, cursor) => some (before ++ after, cursor)

/-- Several rules one after the other. -/
def all : List Rule → Rule
  | [] => nothing
  | [rule] => rule
  | rule :: rules => andThen rule (all rules)

/-- The first of several rules that applies. -/
def firstOf : List Rule → Rule
  | [] => fun _ => none
  | rule :: rules => fun cursor =>
    match rule cursor with
    | some result => some result
    | none => firstOf rules cursor

/-- A rule, or nothing. -/
def optional (rule : Rule) : Rule := fun cursor =>
  match rule cursor with
  | some result => some result
  | none => some ([], cursor)

/-- A rule as often as it applies and makes progress; the number bounds the passes. -/
def manyUpTo : Nat → Rule → Rule
  | 0, _ => nothing
  | bound + 1, rule => fun cursor =>
    match rule cursor with
    | none => some ([], cursor)
    | some (before, next) =>
      if next.left < cursor.left then
        match manyUpTo bound rule next with
        | some (after, next) => some (before ++ after, next)
        | none => some (before, next)
      else some ([], cursor)

/-- A rule as often as it applies. -/
def many (rule : Rule) : Rule := fun cursor => manyUpTo (cursor.left + 1) rule cursor

/-- One or more times a rule. -/
def atLeastOnce (rule : Rule) : Rule := andThen rule (many rule)

/-- A rule that is chosen by a look ahead. -/
def when (test : Cursor → Bool) (rule : Rule) : Rule := fun cursor =>
  if test cursor then rule cursor else none

/-- Whether a node is a comment. -/
def isComment (node : Node) : Bool := node.is .comment

/-- Put nodes into a construct that ends at a place. Comments before the first part
stay outside. -/
def wrap (construct : Construct) (nodes : List Node) (stop : Cursor) : List Node :=
  let lead := nodes.takeWhile isComment
  let parts := nodes.dropWhile isComment
  let span : Span := match parts.head?, parts.getLast? with
    | some first, some last => ⟨first.span.startByte, last.span.endByte, first.span.row⟩
    | _, _ => ⟨stop.byte, stop.byte, stop.row⟩
  lead ++ [.mk (.construct construct) none span parts]

/-- Read a construct from its parts. -/
def construct (construct : Construct) (parts : Rule) : Rule := fun cursor =>
  match parts cursor with
  | some (nodes, next) => some (wrap construct nodes next, next)
  | none => none

/-- Read some parts and, if what follows says so, take them with more parts into a
construct. -/
def extended (first : Rule) (more : Cursor → Option (Construct × Rule)) : Rule := fun cursor =>
  match first cursor with
  | none => none
  | some (before, next) =>
    match more next with
    | none => some (before, next)
    | some (kind, rule) =>
      match rule next with
      | none => none
      | some (after, stop) => some (wrap kind (before ++ after) stop, stop)

/-- Give a role to the nodes that a rule reads, comments apart. -/
def playing (role : Role) (rule : Rule) : Rule := fun cursor =>
  match rule cursor with
  | some (nodes, next) =>
    some (nodes.map fun node => if isComment node then node else node.withRole role, next)
  | none => none

/-- Read a leaf behind a gap. The recogniser says where the leaf ends. -/
def leafOf (kind : Kind) (recognise : Cursor → Option Cursor) : Rule := fun cursor =>
  let (comments, start) := gap cursor
  match recognise start with
  | some stop => some (comments ++ [leaf kind start stop], stop)
  | none => none

/-- A mark of punctuation. -/
def mark (text : String) : Rule :=
  leafOf (.token text) fun cursor =>
    if cursor.startsWith text then some (cursor.advance text.length) else none

/-- A keyword. -/
def word (text : String) : Rule :=
  leafOf (.token text) fun cursor =>
    match nameAt? cursor with
    | some (name, next) => if String.ofList name == text then some next else none
    | none => none

/-- One of several keywords. -/
def wordOf (texts : List String) : Rule := firstOf (texts.map word)

/-- A keyword that is a construct of its own. -/
def wordConstruct (kind : Construct) (text : String) : Rule :=
  leafOf (.construct kind) fun cursor =>
    match nameAt? cursor with
    | some (name, next) => if String.ofList name == text then some next else none
    | none => none

/-- The opening brace. -/
def openBrace : Rule := mark "\x7b"

/-- The closing brace. -/
def closeBrace : Rule := mark "\x7d"

/-- Items between commas, with at most one comma at the end. -/
def commaSeparated (item : Rule) : Rule :=
  optional (all [item, many (andThen (mark ",") item), optional (mark ",")])

/-- One or more items between commas. -/
def commaSeparated1 (item : Rule) : Rule := andThen item (many (andThen (mark ",") item))

/-- Items between commas where items may be missing. -/
def sparse (item : Rule) : Rule :=
  andThen (optional item) (many (andThen (mark ",") (optional item)))

end Rule

open Rule

/-- Keywords that cannot be names. -/
def reservedWords : List String := [
  "break", "case", "catch", "class", "const", "continue", "debugger", "default", "delete", "do",
  "else", "enum", "export", "extends", "false", "finally", "for", "function", "if", "import", "in",
  "instanceof", "new", "null", "return", "super", "switch", "this", "throw", "true", "try",
  "typeof", "var", "void", "while", "with"]

/-- Keywords that are also names. As a name such a keyword is a token below the name's
node. -/
def contextualWords : List String := [
  "get", "set", "async", "static", "let", "declare", "namespace", "type", "public", "private",
  "protected", "override", "readonly", "module", "any", "number", "boolean", "string", "symbol",
  "object"]

/-- A name of any kind in the given construct, keywords included. -/
def anyName (kind : Construct) : Rule :=
  leafOf (.construct kind) fun cursor => (nameAt? cursor).map (·.2)

/-- A name that is not a keyword. -/
def plainName (kind : Construct) : Rule :=
  leafOf (.construct kind) fun cursor =>
    match nameAt? cursor with
    | some (name, next) => if reservedWords.contains (String.ofList name) then none else some next
    | none => none

/-- A name in a place where contextual keywords are recognised. -/
def nameOrContextual (kind : Construct) : Rule := fun cursor =>
  let name := nextName cursor
  if reservedWords.contains name then none
  else if contextualWords.contains name then construct kind (word name) cursor
  else plainName kind cursor

/-- An identifier where an expression may stand. -/
def identifier : Rule := fun cursor =>
  if nextIsWord cursor "undefined" then wordConstruct .undefinedValue "undefined" cursor
  else nameOrContextual .identifier cursor

/-- The name that a declaration introduces. -/
def bindingName : Rule := plainName .identifier

/-- A semicolon, or its omission. The flag says whether an operand stands before. -/
def semicolonAfter (behindOperand : Bool) : Rule := fun cursor =>
  if semicolonOmitted behindOperand cursor then some ([], cursor) else mark ";" cursor

/-- The end of a statement behind an expression. -/
def semicolon : Rule := semicolonAfter true

/-- What a scan over code is inside of. -/
inductive ScanState where
  | code
  | quoted (quote : Char)
  | lineComment
  | blockComment
  deriving Repr, DecidableEq

/-- The text behind the parenthesis that closes the innermost of some open ones.
Quoted texts and comments are passed over. -/
def behindParenthesis (depth : Nat) (state : ScanState) : List Char → Option (List Char)
  | [] => none
  | [c] => if state = .code ∧ c = ')' ∧ depth ≤ 1 then some [] else none
  | c :: d :: rest =>
    match state with
    | .quoted quote =>
      if c = '\\' then behindParenthesis depth state rest
      else if c = quote then behindParenthesis depth .code (d :: rest)
      else behindParenthesis depth state (d :: rest)
    | .lineComment =>
      if c = '\n' then behindParenthesis depth .code (d :: rest)
      else behindParenthesis depth state (d :: rest)
    | .blockComment =>
      if c = '*' ∧ d = '/' then behindParenthesis depth .code rest
      else behindParenthesis depth state (d :: rest)
    | .code =>
      if c = '/' ∧ d = '/' then behindParenthesis depth .lineComment rest
      else if c = '/' ∧ d = '*' then behindParenthesis depth .blockComment rest
      else if c = '"' ∨ c = '\'' ∨ c = '\x60' then behindParenthesis depth (.quoted c) (d :: rest)
      else if c = '(' then behindParenthesis (depth + 1) .code (d :: rest)
      else if c = ')' then
        if depth ≤ 1 then some (d :: rest) else behindParenthesis (depth - 1) .code (d :: rest)
      else behindParenthesis depth .code (d :: rest)

/-- What follows the parenthesis that opens here and its partner. -/
inductive Behind where
  | arrow
  | colon
  | other
  | unknown
  deriving Repr, DecidableEq

/-- Look at the token behind the parentheses that open at a place. -/
def behindParentheses (start : Cursor) : Behind :=
  match behindParenthesis 0 .code start.rest with
  | none => .unknown
  | some rest =>
    let next := nextToken ⟨rest, 0, 0, rest.length⟩
    if next.startsWith "=>" then .arrow
    else if next.startsWith ":" then .colon
    else .other

end Conformance.Syntax
