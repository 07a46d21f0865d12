/-!
# A place in a settings document

Settings are written in a language where line and column matter. A cursor is the text
ahead with the number of its first character, its line and its column. Behind the end of
the text a null character is seen, which no document can hold.
-/

namespace Conformance.Yaml

/-- A place in a document. -/
structure Cursor where
  ahead : List Char
  index : Nat
  line : Nat
  column : Nat
  deriving Repr, DecidableEq

/-- A character that ends a line. -/
def isBreak (c : Char) : Bool :=
  c == '\n' || c == '\r' || c == '\u0085' || c == '\u2028' || c == '\u2029'

/-- The end of a line or of the text. -/
def isBreakOrEnd (c : Char) : Bool := c == '\x00' || isBreak c

/-- A blank, or the end of a line or of the text. -/
def isSpaceOrEnd (c : Char) : Bool := c == ' ' || c == '\t' || isBreakOrEnd c

/-- Letters, digits, hyphen and underscore: the characters of names. -/
def isNameChar (c : Char) : Bool := c.isAlphanum || c == '-' || c == '_'

namespace Cursor

/-- The start of a document. -/
def start (text : List Char) : Cursor := ⟨text, 0, 0, 0⟩

/-- The next character. -/
def peek (cursor : Cursor) : Char := cursor.ahead.head?.getD '\x00'

/-- A character further ahead. -/
def peekAt (cursor : Cursor) (distance : Nat) : Char := (cursor.ahead[distance]?).getD '\x00'

/-- The place behind the next character. A byte order mark takes no column. -/
def step (cursor : Cursor) : Cursor :=
  match cursor.ahead with
  | [] => cursor
  | c :: rest =>
    if isBreak c && !(c == '\r' && rest.head? == some '\n') then
      ⟨rest, cursor.index + 1, cursor.line + 1, 0⟩
    else
      ⟨rest, cursor.index + 1, cursor.line, if c = '\uFEFF' then cursor.column else cursor.column + 1⟩

/-- The place behind a number of characters. -/
def skip : Nat → Cursor → Cursor
  | 0, cursor => cursor
  | count + 1, cursor => skip count cursor.step

/-- The characters ahead that pass a test. -/
def taken (cursor : Cursor) (test : Char → Bool) : List Char := cursor.ahead.takeWhile test

/-- The place behind the characters that pass a test. -/
def skipWhile (cursor : Cursor) (test : Char → Bool) : Cursor :=
  cursor.skip (cursor.taken test).length

/-- The place behind a line break, with the break as it counts: two of the breaks stand
for themselves, the others for a line feed. Where no break stands nothing is taken. -/
def lineBreak (cursor : Cursor) : List Char × Cursor :=
  match cursor.ahead with
  | '\r' :: '\n' :: _ => (['\n'], cursor.skip 2)
  | c :: _ =>
    if c = '\u2028' ∨ c = '\u2029' then ([c], cursor.step)
    else if isBreak c then (['\n'], cursor.step)
    else ([], cursor)
  | [] => ([], cursor)

/-- Whether the mark of a document's start or end stands here, set off by a blank. -/
def atDocumentMark (cursor : Cursor) : Bool :=
  (cursor.ahead.take 3 == ['-', '-', '-'] || cursor.ahead.take 3 == ['.', '.', '.']) &&
    isSpaceOrEnd (cursor.peekAt 3)

end Cursor

/-- Why settings cannot be read. -/
inductive YamlError where
  /-- The document breaks the rules of its language. -/
  | malformed
  /-- A text marked as a number is none. -/
  | badNumber
  /-- A text marked as a number is empty. -/
  | emptyNumber
  /-- A text marked as a truth value is none. -/
  | badWord
  /-- A date does not exist. -/
  | badDate
  /-- A text marked as a date is none. -/
  | noDate
  /-- An escape names a character that does not exist. -/
  | badCharacter
  deriving Repr, DecidableEq

end Conformance.Yaml
