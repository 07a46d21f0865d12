import Conformance.Audit.Ordering
import Conformance.Number.Reading
import Conformance.Number.Sum
import Conformance.Pattern.Reader
import Conformance.Syntax.Source
import Conformance.Text.Lines

/-!
# Messages of the compiler

The compiler writes one message to a line: file, line and column in parentheses,
category, code and words. Lines of another form are left out.
-/

namespace Conformance.Compiler

open Syntax

/-- The form of a message. Its groups are file, line, column, category, code and words. -/
def messageForm : Pattern :=
  .ofText "^(.+?)\\((\\d+),(\\d+)\\): (error|warning) (TS\\d+): (.*)$"

/-- A line or column has more digits than can be read. -/
structure UnreadableNumber where
  text : List Char
  deriving Repr, DecidableEq

/-- The number of some digits. -/
def readNumber (text : List Char) : Except UnreadableNumber Nat :=
  match Number.integer? text with
  | some value => .ok value.toNat
  | none => .error ⟨text⟩

/-- The message in a line. Its file is resolved below the root of the project. -/
def messageOfLine (disk : Disk) (root : Path) (line : List Char) :
    Except UnreadableNumber (Option Diagnostic) :=
  match messageForm.matchStart (Text.trim line) with
  | none => .ok none
  | some found => do
    let part (index : Nat) : List Char := (found.group? index).getD []
    let path := root.join (.ofList (part 1))
    let lineNumber ← readNumber (part 2)
    let column ← readNumber (part 3)
    pure (some ⟨(disk.resolve path).path, lineNumber, column, String.ofList (part 4),
      String.ofList (part 5), String.ofList (part 6)⟩)

/-- The messages in an output, in order. -/
def messages (disk : Disk) (root : Path) (output : List Char) :
    Except UnreadableNumber (List Diagnostic) :=
  ((Text.lines output).mapM (messageOfLine disk root)).map fun found => found.filterMap id

/-- What one run of the compiler has said about a project. -/
structure Context where
  /-- The messages by the resolved paths of their files. -/
  diagnostics : List (Path × List Diagnostic)
  succeeded : Bool
  deriving Repr, DecidableEq

/-- Messages grouped by their files. -/
def Context.ofMessages (messages : List Diagnostic) (succeeded : Bool) : Context :=
  ⟨Audit.groupBy (·.path) messages, succeeded⟩

/-- The messages about a file. -/
def Context.forFile (context : Context) (disk : Disk) (path : Path) : List Diagnostic :=
  (context.diagnostics.lookup (disk.resolve path).path).getD []

/-- How many messages there are. -/
def Context.total (context : Context) : Nat :=
  Number.total (context.diagnostics.map fun (_, messages) => messages.length)

end Conformance.Compiler
