import Conformance.Yaml.Cursor

/-!
# Scalars in a document

The four ways to write a text: plain, in single or double quotation marks, and as an
indented block. Each reads a text from a cursor and says where it ends. The counts bound
the steps; the length of the text ahead is always enough.
-/

namespace Conformance.Yaml

open Cursor

/-- Breaks with the indentation before them, up to a column. -/
def blockBreaks (indent : Nat) : Nat → Cursor → List Char × Cursor
  | 0, cursor => ([], cursor)
  | steps + 1, cursor =>
    if cursor.column < indent ∧ cursor.peek = ' ' then blockBreaks indent steps cursor.step
    else if isBreak cursor.peek then
      let (here, behind) := cursor.lineBreak
      let (more, stop) := blockBreaks indent steps behind
      (here ++ more, stop)
    else ([], cursor)

/-- Breaks and blanks before the first line of a block, and the widest column reached. -/
def leadingBreaks : Nat → (widest : Nat) → Cursor → List Char × Nat × Cursor
  | 0, widest, cursor => ([], widest, cursor)
  | steps + 1, widest, cursor =>
    if cursor.peek = ' ' then leadingBreaks steps (max widest cursor.step.column) cursor.step
    else if isBreak cursor.peek then
      let (here, behind) := cursor.lineBreak
      let (more, widest, stop) := leadingBreaks steps widest behind
      (here ++ more, widest, stop)
    else ([], widest, cursor)

/-- What happens to the breaks at the end of a block. -/
inductive Chomping where
  | strip
  | clip
  | keep
  deriving Repr, DecidableEq

/-- The lines of a block from its breaks and its first line on. -/
def blockLines (folded : Bool) (chomping : Chomping) (indent : Nat) :
    Nat → (breaks : List Char) → Cursor → List Char × Cursor
  | 0, _, cursor => ([], cursor)
  | steps + 1, breaks, cursor =>
    let leadingText := cursor.peek != ' ' && cursor.peek != '\t'
    let line := cursor.taken (!isBreakOrEnd ·)
    let (ending, cursor) := (cursor.skip line.length).lineBreak
    let (later, cursor) := blockBreaks indent cursor.ahead.length cursor
    if cursor.column = indent ∧ cursor.peek ≠ '\x00' then
      let joint :=
        if folded && ending == ['\n'] && leadingText && cursor.peek != ' ' && cursor.peek != '\t' then
          if later.isEmpty then [' '] else []
        else ending
      let (more, stop) := blockLines folded chomping indent steps later cursor
      (breaks ++ line ++ joint ++ more, stop)
    else
      let tail := match chomping with
        | .strip => []
        | .clip => ending
        | .keep => ending ++ later
      (breaks ++ line ++ tail, cursor)

/-- The sign of a block's chomping. -/
def chomping? (c : Char) : Option Chomping :=
  if c = '+' then some .keep else if c = '-' then some .strip else none

/-- The signs behind the mark of a block, in either order: chomping and indentation. -/
def blockHeader (cursor : Cursor) : Except YamlError (Chomping × Option Nat × Cursor) :=
  let digit (cursor : Cursor) : Except YamlError (Option Nat × Cursor) :=
    if cursor.peek = '0' then .error .malformed
    else if cursor.peek.isDigit then .ok (some (cursor.peek.toNat - 48), cursor.step)
    else .ok (none, cursor)
  let close (chomping : Chomping) (increment : Option Nat) (cursor : Cursor) :
      Except YamlError (Chomping × Option Nat × Cursor) :=
    if cursor.peek = ' ' ∨ isBreakOrEnd cursor.peek then .ok (chomping, increment, cursor)
    else .error .malformed
  match chomping? cursor.peek with
  | some chomping => do
    let (increment, cursor) ← digit cursor.step
    close chomping increment cursor
  | none => do
    let (increment, cursor) ← digit cursor
    match increment, chomping? cursor.peek with
    | some _, some chomping => close chomping increment cursor.step
    | _, _ => close .clip increment cursor

/-- The end of a line that may hold blanks and a comment. -/
def ignoredLine (cursor : Cursor) : Except YamlError Cursor :=
  let cursor := cursor.skipWhile (· == ' ')
  let cursor := if cursor.peek = '#' then cursor.skipWhile (!isBreakOrEnd ·) else cursor
  if isBreakOrEnd cursor.peek then .ok cursor.lineBreak.2 else .error .malformed

/-- A block behind its mark. The parent is the column of the collection around it. -/
def blockScalar (folded : Bool) (parent : Int) (cursor : Cursor) :
    Except YamlError (List Char × Cursor) := do
  let (chomping, increment, cursor) ← blockHeader cursor
  let cursor ← ignoredLine cursor
  let least := (max 1 (parent + 1)).toNat
  let (breaks, indent, cursor) := match increment with
    | none =>
      let (breaks, widest, cursor) := leadingBreaks cursor.ahead.length 0 cursor
      (breaks, max least widest, cursor)
    | some increment =>
      let indent := least + increment - 1
      let (breaks, cursor) := blockBreaks indent cursor.ahead.length cursor
      (breaks, indent, cursor)
  if cursor.column = indent ∧ cursor.peek ≠ '\x00' then
    pure (blockLines folded chomping indent (cursor.ahead.length + 1) breaks cursor)
  else
    pure (if chomping = .keep then breaks else [], cursor)

/-- Breaks inside quotation marks, with the blanks around them. -/
def quotedBreaks : Nat → Cursor → Except YamlError (List Char × Cursor)
  | 0, cursor => .ok ([], cursor)
  | steps + 1, cursor =>
    if cursor.atDocumentMark then .error .malformed
    else
      let cursor := cursor.skipWhile fun c => c == ' ' || c == '\t'
      if isBreak cursor.peek then do
        let (here, behind) := cursor.lineBreak
        let (more, stop) ← quotedBreaks steps behind
        pure (here ++ more, stop)
      else .ok ([], cursor)

/-- What a line break inside a flowing text amounts to: a blank, or the breaks behind
it. -/
def foldedBreak (ending later : List Char) : List Char :=
  if ending != ['\n'] then ending ++ later else if later.isEmpty then [' '] else later

/-- Characters with short escapes. -/
def shortEscapes : List (Char × Char) :=
  [('0', '\x00'), ('a', '\x07'), ('b', '\x08'), ('t', '\t'), ('\t', '\t'), ('n', '\n'), ('v', '\x0b'),
    ('f', '\x0c'), ('r', '\r'), ('e', '\x1b'), (' ', ' '), ('"', '"'), ('\\', '\\'), ('/', '/'),
    ('N', '\u0085'), ('_', '\u00a0'), ('L', '\u2028'), ('P', '\u2029')]

/-- The value of a hexadecimal digit. -/
def hexValue? (c : Char) : Option Nat :=
  if c.isDigit then some (c.toNat - 48)
  else if 'a' ≤ c ∧ c ≤ 'f' then some (c.toNat - 87)
  else if 'A' ≤ c ∧ c ≤ 'F' then some (c.toNat - 55)
  else none

/-- The number of digits behind an escape that names a character. -/
def escapeWidth? (c : Char) : Option Nat :=
  if c = 'x' then some 2 else if c = 'u' then some 4 else if c = 'U' then some 8 else none

/-- The character that a number of hexadecimal digits names. -/
def namedChar (width : Nat) (cursor : Cursor) : Except YamlError (Char × Cursor) :=
  match (cursor.ahead.take width).mapM hexValue? with
  | none => .error .malformed
  | some values =>
    if values.length ≠ width then .error .malformed
    else
      let code := values.foldl (fun total d => total * 16 + d) 0
      if code > 0x10FFFF then .error .badCharacter else .ok (Char.ofNat code, cursor.skip width)

/-- An escape in double quotation marks, behind its backslash. -/
def quotedEscape (cursor : Cursor) : Except YamlError (List Char × Cursor) :=
  match shortEscapes.lookup cursor.peek with
  | some c => .ok ([c], cursor.step)
  | none =>
    match escapeWidth? cursor.peek with
    | some width => (namedChar width cursor.step).map fun (c, cursor) => ([c], cursor)
    | none =>
      if isBreak cursor.peek then quotedBreaks cursor.ahead.length cursor.lineBreak.2
      else .error .malformed

/-- A text in quotation marks, behind the first one. -/
def quotedScalar (mark : Char) : Nat → Cursor → Except YamlError (List Char × Cursor)
  | 0, _ => .error .malformed
  | steps + 1, cursor =>
    let after (here : List Char) (cursor : Cursor) : Except YamlError (List Char × Cursor) :=
      (quotedScalar mark steps cursor).map fun (more, stop) => (here ++ more, stop)
    let c := cursor.peek
    if c = '\x00' then .error .malformed
    else if c = mark then
      if mark = '\'' ∧ cursor.peekAt 1 = '\'' then after ['\''] (cursor.skip 2)
      else .ok ([], cursor.step)
    else if c = '\\' ∧ mark = '"' then do
      let (here, cursor) ← quotedEscape cursor.step
      after here cursor
    else if c = ' ' ∨ c = '\t' ∨ isBreak c then do
      let blanks := cursor.taken fun c => c == ' ' || c == '\t'
      let cursor := cursor.skip blanks.length
      if isBreak cursor.peek then
        let (ending, cursor) := cursor.lineBreak
        let (later, cursor) ← quotedBreaks cursor.ahead.length cursor
        after (foldedBreak ending later) cursor
      else after blanks cursor
    else after [c] cursor.step

/-- Breaks and blanks behind a line of a plain text. There is no answer where a mark of
the document stands. -/
def plainBreaks : Nat → Cursor → Option (List Char) × Cursor
  | 0, cursor => (some [], cursor)
  | steps + 1, cursor =>
    if cursor.peek = ' ' then plainBreaks steps cursor.step
    else if isBreak cursor.peek then
      let (here, behind) := cursor.lineBreak
      if behind.atDocumentMark then (none, behind)
      else
        let (more, stop) := plainBreaks steps behind
        (more.map (here ++ ·), stop)
    else (some [], cursor)

/-- The space behind a piece of a plain text, and whether a line has ended in it. An
empty space ends the text. -/
def plainSpace (cursor : Cursor) : List Char × Bool × Cursor :=
  let blanks := cursor.taken (· == ' ')
  let cursor := cursor.skip blanks.length
  if isBreak cursor.peek then
    let (ending, cursor) := cursor.lineBreak
    if cursor.atDocumentMark then ([], true, cursor)
    else match plainBreaks cursor.ahead.length cursor with
      | (none, cursor) => ([], true, cursor)
      | (some later, cursor) => (foldedBreak ending later, true, cursor)
  else (blanks, false, cursor)

/-- A character that has a meaning of its own between brackets. -/
def isFlowMark (c : Char) : Bool := c == ',' || c == '[' || c == ']' || c == '\x7b' || c == '\x7d'

/-- The characters of a plain text up to a blank or a mark. -/
def plainPiece (inFlow : Bool) : List Char → List Char
  | [] => []
  | c :: rest =>
    let next := rest.head?.getD '\x00'
    if isSpaceOrEnd c || (c == ':' && (isSpaceOrEnd next || (inFlow && isFlowMark next))) ||
        (inFlow && (c == '?' || isFlowMark c)) then []
    else c :: plainPiece inFlow rest

/-- A plain text and whether a line has ended behind its last piece. The space is what
stands before the next piece. -/
def plainScalar (inFlow : Bool) (indent : Int) :
    Nat → (space : List Char) → (lineEnded : Bool) → Cursor → List Char × Bool × Cursor
  | 0, _, lineEnded, cursor => ([], lineEnded, cursor)
  | steps + 1, space, lineEnded, cursor =>
    if cursor.peek = '#' then ([], lineEnded, cursor)
    else
      let piece := plainPiece inFlow cursor.ahead
      if piece.isEmpty then ([], lineEnded, cursor)
      else
        let (next, ended, cursor) := plainSpace (cursor.skip piece.length)
        if next.isEmpty || cursor.peek == '#' || (!inFlow && decide ((cursor.column : Int) < indent)) then
          (space ++ piece, ended, cursor)
        else
          let (more, ended, stop) := plainScalar inFlow indent steps next ended cursor
          (space ++ piece ++ more, ended, stop)

end Conformance.Yaml
