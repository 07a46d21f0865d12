import Conformance.Disk.Access
import Conformance.Document.Rules
import Conformance.Order.Stable
import Conformance.Text.Search

/-!
# Directories of standards

Every document of a directory that is named after a standard is read; the order is that
of the names. Upper and lower case are not told apart in names, so two documents can
define one standard.
-/

namespace Conformance.Document

open Text

/-- The standard that a file name stands for. -/
def standardOfFile? (name : String) : Option Standard :=
  let lowered := lower name.toList
  let ending := ".md".toList
  let stem := if endsWith ending lowered then lowered.take (lowered.length - ending.length) else lowered
  Standard.ofName? (String.ofList stem)

/-- Names of documents that define no standard. -/
def skippedDocuments : List String := ["readme.md", "index.md"]

/-- A document that has been read. -/
structure StandardDocument where
  standard : Standard
  path : Path
  content : List Char
  rules : List Rule

/-- Why the documents of a directory cannot be read. -/
inductive DirectoryError where
  | directoryMissing (path : Path)
  | unreadable (error : TextError)
  deriving Repr, DecidableEq

/-- What is said about unreadable documents. -/
def DirectoryError.message : DirectoryError → String
  | .directoryMissing path => "Standards directory not found: " ++ path.text
  | .unreadable error => error.message

/-- The names of documents in a directory, in order. -/
def documentNames (disk : Disk) (directory : Path) : List String :=
  Order.sort Order.textBefore
    (((disk.list directory).map (·.1)).filter fun name => endsWith ".md".toList name.toList)

/-- Read a document. -/
def readDocument (disk : Disk) (path : Path) (standard : Standard) :
    Except DirectoryError StandardDocument :=
  match disk.readText path with
  | .error error => .error (.unreadable error)
  | .ok content => .ok ⟨standard, path, content, rules content standard⟩

/-- Read those of the named documents that define a standard. -/
def readNamed (disk : Disk) (directory : Path) : List String → Except DirectoryError (List StandardDocument)
  | [] => .ok []
  | name :: rest =>
    if skippedDocuments.contains (String.ofList (lower name.toList)) then readNamed disk directory rest
    else match standardOfFile? name with
      | none => readNamed disk directory rest
      | some standard => do
        let document ← readDocument disk (directory.child name) standard
        let others ← readNamed disk directory rest
        pure (document :: others)

/-- Read all documents of a directory. -/
def readDirectory (disk : Disk) (directory : Path) : Except DirectoryError (List StandardDocument) :=
  if disk.isDirectory directory then readNamed disk directory (documentNames disk directory)
  else .error (.directoryMissing directory)

end Conformance.Document
