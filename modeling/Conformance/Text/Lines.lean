/-!
# Lines of a text

Two readings of "line". The strict one cuts a text at line feeds only and keeps
every piece, the empty one behind a final line feed included; joining with line
feeds undoes it. The wide one also ends a line at the other line boundaries of
the Unicode standard, takes a carriage return and the line feed behind it for one
boundary, and has no empty piece at the end.
-/

namespace Conformance.Text

/-- Cut a text at every occurrence of a separator. There is always one more piece
than there are separators. -/
def splitAt (separator : Char) : List Char → List (List Char)
  | [] => [[]]
  | c :: rest =>
    if c = separator then [] :: splitAt separator rest
    else match splitAt separator rest with
      | [] => [[c]]
      | piece :: pieces => (c :: piece) :: pieces

/-- The pieces of a text between its line feeds. -/
def splitLines (text : List Char) : List (List Char) := splitAt '\n' text

/-- The pieces put together again with a line feed between neighbours. -/
def joinLines (pieces : List (List Char)) : List Char := List.intercalate ['\n'] pieces

/-- Characters that end a line in the wide reading. -/
def isLineBoundary (c : Char) : Bool :=
  c == '\n' || c == '\r' || c == '\x0b' || c == '\x0c' || c == '\x1c' || c == '\x1d' ||
    c == '\x1e' || c == '\u0085' || c == '\u2028' || c == '\u2029'

/-- The lines of a text in the wide reading, without their boundaries. A text
that ends in a boundary has no empty line behind it. -/
def lines : List Char → List (List Char)
  | [] => []
  | '\r' :: '\n' :: rest => [] :: lines rest
  | c :: rest =>
    if isLineBoundary c then [] :: lines rest
    else match lines rest with
      | [] => [[c]]
      | line :: following => (c :: line) :: following

/-- Line ends as an editor stores them: a carriage return, alone or before a line
feed, becomes one line feed. -/
def normaliseLineEnds : List Char → List Char
  | [] => []
  | '\r' :: '\n' :: rest => '\n' :: normaliseLineEnds rest
  | c :: rest => (if c = '\r' then '\n' else c) :: normaliseLineEnds rest

end Conformance.Text
