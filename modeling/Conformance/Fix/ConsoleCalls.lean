import Conformance.Fix.Fixer
import Conformance.Text.Classes
import Conformance.Text.LetterCase
import Conformance.Text.Lines
import Conformance.Text.Search

/-!
# Commenting out console calls

Debugging calls of the console are put into comments and never deleted. A call that is
alone on its line gets a line comment; calls that share a line with other code get block
comments. A call that does not close on its line is left alone, and with it the line.
-/

namespace Conformance.Fix

open Text

/-- The debugging methods of the console. -/
def consoleMethods : List (List Char) :=
  ["log".toList, "warn".toList, "error".toList, "debug".toList, "info".toList]

/-- How many characters stand before the opening parenthesis of a console call at the
start of a text. -/
def callOpening? (text : List Char) : Option Nat :=
  match dropStart? "console.".toList text with
  | none => none
  | some rest =>
    (consoleMethods.find? fun method => (method ++ ['(']).isPrefixOf rest).map fun method =>
      "console.".length + method.length

/-- Whether a text has the beginning of a console call. -/
def hasConsoleCall : List Char → Bool
  | [] => false
  | c :: rest => (callOpening? (c :: rest)).isSome || hasConsoleCall rest

/-- A mark that opens and closes quoted text. -/
def isQuote (c : Char) : Bool := c == '\'' || c == '"' || c == '\x60'

/-- The length of a text up to the parenthesis that closes the first one. The state is
the depth of parentheses, the mark of an open quotation and the length so far. -/
def callEndFrom : (depth : Int) → (quote : Option Char) → (length : Nat) → List Char → Option Nat
  | _, _, _, [] => none
  | depth, some mark, length, '\\' :: rest =>
    match rest with
    | [] => none
    | _ :: rest => callEndFrom depth (some mark) (length + 2) rest
  | depth, some mark, length, c :: rest =>
    callEndFrom depth (if c = mark then none else some mark) (length + 1) rest
  | depth, none, length, c :: rest =>
    if isQuote c then callEndFrom depth (some c) (length + 1) rest
    else if c = '(' then callEndFrom (depth + 1) none (length + 1) rest
    else if c = ')' then
      if depth = 1 then some (length + 1) else callEndFrom (depth - 1) none (length + 1) rest
    else callEndFrom depth none (length + 1) rest

/-- The length of a call from its opening parenthesis on, the closing one included.
Quoted text is skipped. A call that does not close has none. -/
def callEnd? (text : List Char) : Option Nat := callEndFrom 0 none 0 text

/-- A part of a line. -/
structure Span where
  start : Nat
  stop : Nat
  deriving Repr, DecidableEq

/-- What stands in a part of a line. -/
def Span.of (line : List Char) (span : Span) : List Char :=
  (line.drop span.start).take (span.stop - span.start)

/-- The console calls from a position on. The characters before it are kept in reverse;
up to the covered position they belong to an earlier call. A call behind a line comment
is out of use already, and so is one directly behind the opening of a block comment. If a
call is left open there is no answer. -/
def spansFrom (covered : Nat) (before : List Char) (start : Nat) : List Char → Option (List Span)
  | [] => some []
  | c :: rest =>
    match callOpening? (c :: rest) with
    | none => spansFrom covered (c :: before) (start + 1) rest
    | some width =>
      if start < covered then spansFrom covered (c :: before) (start + 1) rest
      else if occursIn ['/', '/'] before then some []
      else if [' ', '*', '/'].isPrefixOf before then spansFrom covered (c :: before) (start + 1) rest
      else match callEnd? ((c :: rest).drop width) with
        | none => none
        | some length =>
          let closed := width + length
          let stop := start + closed + (if ((c :: rest).drop closed).head? = some ';' then 1 else 0)
          (spansFrom stop (c :: before) (start + 1) rest).map (⟨start, stop⟩ :: ·)

/-- The console calls on a line, each with a semicolon behind it, from left to right. -/
def callSpans (line : List Char) : Option (List Span) := spansFrom 0 [] 0 line

/-- A line with parts of it in block comments; the offset is that of its first
character. -/
def wrapSpans : List Span → (offset : Nat) → List Char → List Char
  | [], _, line => line
  | span :: spans, offset, line =>
    line.take (span.start - offset) ++ "/* ".toList ++
      (line.drop (span.start - offset)).take (span.stop - span.start) ++ " */".toList ++
        wrapSpans spans span.stop (line.drop (span.stop - offset))

/-- Whether a line without its leading blanks is a comment or a part of one. -/
def isCommentLine (text : List Char) : Bool :=
  ['/', '/'].isPrefixOf text || ['/', '*'].isPrefixOf text || ['*'].isPrefixOf text

/-- Whether a part is all of a line, blanks apart. -/
def isAlone (line : List Char) (span : Span) : Bool :=
  (trim (line.take span.start)).isEmpty && (trim (line.drop span.stop)).isEmpty

/-- A line with calls in the given parts commented out. A part that would close its own
comment leaves the line as it is. -/
def commentSpans (line : List Char) (spans : List Span) : List Char :=
  if spans.any fun span => occursIn ['*', '/'] (span.of line) then line
  else wrapSpans spans 0 line

/-- A line with its console calls commented out. -/
def commentLine (line : List Char) : List Char :=
  if isCommentLine (trimLeft line) then line
  else match callSpans line with
    | none => line
    | some [] => line
    | some [span] =>
      if isAlone line span then line.take span.start ++ "// ".toList ++ span.of line
      else commentSpans line [span]
    | some spans => commentSpans line spans

/-- A text with its console calls commented out. -/
def commentConsole (text : List Char) : List Char := joinLines ((splitLines text).map commentLine)

/-- Whether a violation is about the console. -/
def isAboutConsole (violation : Violation) : Bool :=
  mentions "console" violation.ruleName || occursIn "console".toList (lower violation.message.toList)

/-- The fixer that comments console calls out. -/
def consoleFixer : Fixer :=
  { kind := "DebugStatementFixer"
    name := "Comment out console statements"
    ruleName := "no-console"
    description := "Comments out console.log/debug/info/warn/error calls"
    claims := fun violation text => .ok (isAboutConsole violation && hasConsoleCall text)
    fix := fun _ text => .ofChange text (commentConsole text) }

end Conformance.Fix
