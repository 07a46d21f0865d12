import Conformance.Pattern.Reader
import Conformance.Text.Classes
import Conformance.Text.Lines

/-!
# Sections of a standards document

A section begins at a heading of the second level and reaches to the next one. Its body
begins with the line feed behind the heading. Text before the first heading belongs to
no section.
-/

namespace Conformance.Document

open Text

/-- A section: its heading without blanks at its ends, and its body as it stands. -/
structure Section where
  heading : List Char
  body : List Char
  deriving Repr, DecidableEq

/-- The heading of a line that begins a section. -/
def heading? : List Char → Option (List Char)
  | '#' :: '#' :: ' ' :: c :: rest => some (trim (c :: rest))
  | _ => none

/-- The body of a section from the lines behind its heading, up to the next heading. -/
def bodyOf : List (List Char) → List Char
  | [] => []
  | line :: rest =>
    match heading? line with
    | some _ => ['\n']
    | none => '\n' :: line ++ bodyOf rest

/-- The sections that begin in some lines. -/
def sectionsOf : List (List Char) → List Section
  | [] => []
  | line :: rest =>
    match heading? line with
    | some heading => ⟨heading, bodyOf rest⟩ :: sectionsOf rest
    | none => sectionsOf rest

/-- The sections of a document, in order. -/
def sections (content : List Char) : List Section := sectionsOf (splitLines content)

/-!
## Examples in a section

A section shows how not to write something and how to write it, in fenced blocks. The
line before a fence says which of the two a block is. The first block of the right kind
behind one of the wrong kind makes a pair with the latest of those, described by the first
line of prose since the pair before.
-/

/-- What the line before a fence says about the block. -/
inductive Marker where
  | incorrect
  | correct
  deriving Repr, DecidableEq

/-- Words and signs of a block to be avoided. -/
def incorrectMarker : Pattern :=
  .ofText "❌|\\b(avoid|wrong|bad|incorrect|don'?t)\\b" ⟨true, false⟩

/-- Words and signs of a block to be preferred. -/
def correctMarker : Pattern := .ofText "✅|\\b(correct|good|prefer|better)\\b" ⟨true, false⟩

/-- The marker in a line. What is to be avoided is looked for first, so that the word
for it is not mistaken for its opposite. -/
def marker? (line : List Char) : Option Marker :=
  if incorrectMarker.occursIn line then some .incorrect
  else if correctMarker.occursIn line then some .correct
  else none

/-- The mark that opens and closes a block. -/
def fence : List Char := ['\x60', '\x60', '\x60']

/-- Whether a line opens or closes a block. -/
def isFence (line : List Char) : Bool := fence.isPrefixOf (trim line)

/-- Whether a line outside blocks describes what follows: not blank, no comment, no
heading and no marker. -/
def isProse (line : List Char) : Bool :=
  let text := trim line
  !text.isEmpty && !(['/', '/'].isPrefixOf text || ['#'].isPrefixOf text) && (marker? text).isNone

/-- The code of a block from its lines. -/
def codeOf (lines : List (List Char)) : List Char := trim (joinLines lines)

/-- Two examples of one thing, with what is said about them. -/
structure ExamplePair where
  incorrect : List Char
  correct : List Char
  description : List Char
  deriving Repr, DecidableEq

/-- What is remembered between lines: the description so far, the latest block to be
avoided, and the open block with its marker and its lines, the last line first. -/
structure Scan where
  description : List Char
  pending : Option (List Char)
  opened : Option (Option Marker × List (List Char))
  deriving Repr, DecidableEq

/-- What a closed block leaves behind, and the pair it completes. -/
def Scan.close (scan : Scan) (marker : Option Marker) (code : List Char) :
    Scan × Option ExamplePair :=
  match marker, scan.pending with
  | some .incorrect, _ => (⟨scan.description, some code, none⟩, none)
  | some .correct, some wrong => (⟨[], none, none⟩, some ⟨wrong, code, scan.description⟩)
  | _, pending => (⟨scan.description, pending, none⟩, none)

/-- What one line changes. The line before it is known, because it marks a block. -/
def Scan.step (scan : Scan) (before line : List Char) : Scan × Option ExamplePair :=
  if isFence line then
    match scan.opened with
    | some (marker, lines) => scan.close marker (codeOf lines.reverse)
    | none => ({ scan with opened := some (marker? before, []) }, none)
  else
    match scan.opened with
    | some (marker, lines) => ({ scan with opened := some (marker, line :: lines) }, none)
    | none =>
      if isProse line ∧ scan.description.isEmpty then ({ scan with description := trim line }, none)
      else (scan, none)

/-- The pairs that the lines complete. -/
def pairsFrom : Scan → (before : List Char) → List (List Char) → List ExamplePair
  | _, _, [] => []
  | scan, before, line :: rest =>
    let (next, pair) := scan.step before line
    pair.toList ++ pairsFrom next line rest

/-- The pairs of examples in a section, in order. -/
def examplePairs (body : List Char) : List ExamplePair :=
  pairsFrom ⟨[], none, none⟩ [] (splitLines body)

end Conformance.Document
