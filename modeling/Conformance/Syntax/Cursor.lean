import Conformance.Syntax.Tree
import Conformance.Text.Classes

/-!
# Places in a source text

A cursor is the rest of the source together with its position in bytes and rows, and
with the number of characters left, which bounds every loop of the reader. Blanks and
comments may stand before any token; comments become nodes.
-/

namespace Conformance.Syntax

open Text

/-- A place in a source text. -/
structure Cursor where
  rest : List Char
  byte : Nat
  row : Nat
  left : Nat
  deriving Repr, DecidableEq

namespace Cursor

/-- The start of a source text. -/
def ofText (source : List Char) : Cursor := ⟨source, 0, 0, source.length⟩

/-- The place behind the given next character. -/
def step (cursor : Cursor) (c : Char) (rest : List Char) : Cursor :=
  ⟨rest, cursor.byte + charWidth c, if c = '\n' then cursor.row + 1 else cursor.row, cursor.left - 1⟩

/-- The place a number of characters ahead. -/
def advance : Nat → Cursor → Cursor
  | 0, cursor => cursor
  | count + 1, cursor =>
    match cursor.rest with
    | [] => cursor
    | c :: rest => advance count (cursor.step c rest)

/-- The place behind the longest run of characters that pass a test. -/
def skipWhile (test : Char → Bool) (cursor : Cursor) : Cursor :=
  cursor.advance (cursor.rest.takeWhile test).length

/-- Whether the rest begins with a text. -/
def startsWith (cursor : Cursor) (text : String) : Bool := text.toList.isPrefixOf cursor.rest

/-- The next character. -/
def peek? (cursor : Cursor) : Option Char := cursor.rest.head?

end Cursor

/-- Blanks between tokens: white space, and characters without width that editors
leave behind. -/
def isGap (c : Char) : Bool :=
  if c.toNat < 128 then (9 ≤ c.toNat && c.toNat ≤ 13) || c == ' '
  else isBlank c || c == '\ufeff' || c == '\u2060' || c == '\u200b'

/-- Characters that end a comment of one line. -/
def endsLineComment (c : Char) : Bool := c == '\n' || c == '\r' || c == '\u2028' || c == '\u2029'

/-- How many characters a block comment has behind its opening mark, to the end of
its closing mark. An unclosed one has no length. -/
def blockCommentLength? : List Char → Option Nat
  | [] => none
  | '*' :: '/' :: _ => some 2
  | _ :: rest => (blockCommentLength? rest).map (· + 1)

/-- The place behind the comment that begins here. -/
def commentEnd? (cursor : Cursor) : Option Cursor :=
  match cursor.rest with
  | '/' :: '/' :: rest => some (cursor.advance (2 + (rest.takeWhile fun c => !endsLineComment c).length))
  | '/' :: '*' :: rest => (blockCommentLength? rest).map fun count => cursor.advance (2 + count)
  | _ => none

/-- A node without children between two places. -/
def leaf (kind : Kind) (start stop : Cursor) : Node :=
  .mk kind none ⟨start.byte, stop.byte, start.row⟩ []

/-- The comments before the next token, and the place of that token. The number bounds
the comments and blank runs. -/
def gapFrom : Nat → Cursor → List Node × Cursor
  | 0, cursor => ([], cursor)
  | bound + 1, cursor =>
    match cursor.rest with
    | [] => ([], cursor)
    | c :: rest =>
      if isGap c then gapFrom bound (cursor.step c rest)
      else if c = '/' then
        match commentEnd? cursor with
        | some stop =>
          let (comments, next) := gapFrom bound stop
          (leaf (.construct .comment) cursor stop :: comments, next)
        | none => ([], cursor)
      else ([], cursor)

/-- The comments before the next token, and the place of that token. -/
def gap (cursor : Cursor) : List Node × Cursor := gapFrom cursor.left cursor

/-- The place of the next token. -/
def nextToken (cursor : Cursor) : Cursor := (gap cursor).2

/-- Whether the next token begins with a text. -/
def nextIs (cursor : Cursor) (text : String) : Bool := (nextToken cursor).startsWith text

/-- Characters that cannot be part of a name. -/
def isNameBarrier (c : Char) : Bool :=
  c.toNat ≤ 32 || ":;`\"'@#.,|^&<=>+-*/\\%?!~()[]\x7b\x7d".toList.contains c || isGap c

/-- Characters that can begin a name. -/
def isNameStart (c : Char) : Bool := !isNameBarrier c && !c.isDigit

/-- Characters that can continue a name. -/
def isNamePart (c : Char) : Bool := !isNameBarrier c

/-- How many characters an escaped character of a name has behind its backslash. -/
def nameEscapeLength? : List Char → Option Nat
  | 'u' :: '\x7b' :: rest =>
    match rest.dropWhile (fun c => c.isAlphanum) with
    | '\x7d' :: _ => some (3 + (rest.takeWhile (fun c => c.isAlphanum)).length)
    | _ => none
  | 'u' :: rest => if (rest.take 4).length = 4 ∧ (rest.take 4).all (·.isAlphanum) then some 5 else none
  | _ => none

/-- How many characters a name has; the number bounds its escapes. -/
def nameLength : Nat → (first : Bool) → List Char → Nat
  | 0, _, _ => 0
  | _, _, [] => 0
  | bound + 1, first, c :: rest =>
    if c = '\\' then
      match nameEscapeLength? rest with
      | some count => count + 1 + nameLength bound false (rest.drop count)
      | none => 0
    else if (if first then isNameStart c else isNamePart c) then 1 + nameLength bound false rest
    else 0

/-- The name or keyword that begins here, and the place behind it. -/
def nameAt? (cursor : Cursor) : Option (List Char × Cursor) :=
  match nameLength cursor.left true cursor.rest with
  | 0 => none
  | count => some (cursor.rest.take count, cursor.advance count)

/-- The name or keyword that the next token is. -/
def nextName (cursor : Cursor) : String :=
  match nameAt? (nextToken cursor) with
  | some (name, _) => String.ofList name
  | none => ""

/-- Whether the next token is a given keyword. -/
def nextIsWord (cursor : Cursor) (word : String) : Bool := nextName cursor == word

/-- The place behind the next token, if it is a name or keyword. -/
def behindName (cursor : Cursor) : Cursor :=
  match nameAt? (nextToken cursor) with
  | some (_, next) => next
  | none => cursor

/-- The place behind blanks and comments, as a semicolon is looked for. -/
def skipGap (cursor : Cursor) : Cursor := (gap cursor).2

/-- How the line goes on where a semicolon might have been left out. -/
inductive Continuity where
  /-- The text ends, a block closes, or a comment ends the line. -/
  | closed
  /-- The next token stands on the same line. -/
  | sameLine
  /-- The next token stands on a later line. -/
  | laterLine (next : Cursor)

/-- Look for the next token without leaving the line, and behind a line feed through
any gap. Behind an operand a comment is a blank like any other; elsewhere it ends the
line, unless a comma or an equals sign follows. -/
def continuity (behindOperand : Bool) : Nat → Cursor → Continuity
  | 0, _ => .closed
  | bound + 1, cursor =>
    match cursor.rest with
    | [] => .closed
    | c :: rest =>
      if c = '\x7d' then .closed
      else if c = '\n' then .laterLine (skipGap (cursor.step c rest))
      else if c = '/' then
        match commentEnd? cursor with
        | none => .sameLine
        | some stop =>
          let next := skipGap cursor
          if behindOperand then continuity behindOperand bound stop
          else if next.row = cursor.row ∧ next.rest ≠ [] ∧ !next.startsWith "\x7d" then .sameLine
          else if next.startsWith "," ∨ next.startsWith "=" then .sameLine
          else .closed
      else if isGap c then continuity behindOperand bound (cursor.step c rest)
      else .sameLine

/-- A letter of the Latin alphabet. -/
def isLetter (c : Char) : Bool := c.isAlpha

/-- Whether a token on a later line begins a statement of its own. Behind an operand
an opening parenthesis or bracket goes on with the expression, and so do binary
operators; a doubled sign and a lone negation do not. -/
def beginsStatement (behindOperand : Bool) (next : Cursor) : Bool :=
  match next.rest with
  | [] => true
  | c :: rest =>
    if ",.;*%><=?^|&/:".toList.contains c || c == '\x60' then false
    else if c = '(' ∨ c = '[' then !behindOperand
    else if c = '+' ∨ c = '-' then rest.head? == some c
    else if c = '!' then rest.head? != some '='
    else if next.startsWith "instanceof" then (rest.drop 9).head?.any isLetter
    else if next.startsWith "in" then (rest.drop 1).head?.any isLetter
    else true

/-- Whether a semicolon that was left out ends a statement here. -/
def semicolonOmitted (behindOperand : Bool) (cursor : Cursor) : Bool :=
  match continuity behindOperand (cursor.left + 1) cursor with
  | .closed => true
  | .sameLine => false
  | .laterLine next => beginsStatement behindOperand next

end Conformance.Syntax
