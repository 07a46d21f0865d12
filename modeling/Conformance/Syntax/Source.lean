import Conformance.Syntax.Facts
import Conformance.Disk.Path

/-!
# Source files

The dialect of a source follows from the ending of its file name. A parsed source keeps
its text and tree beside the facts, because node tests look at the tree itself.
-/

namespace Conformance.Syntax

/-- The endings of source files with their dialects. -/
def dialects : List (String × Dialect) :=
  [(".ts", .plain), (".mts", .plain), (".cts", .plain), (".tsx", .markup)]

/-- The endings of source files. -/
def supportedExtensions : List String := dialects.map (·.1)

/-- Why a file is not parsed. -/
inductive SourceError where
  /-- No dialect belongs to the ending. -/
  | unsupported (extension : String)
  | unreadable (fault : ReadError)
  deriving Repr, DecidableEq

/-- What is said about an unparsed file. -/
def SourceError.message : SourceError → String
  | .unsupported extension => "No grammar for extension '" ++ extension ++ "'"
  | .unreadable (.unexpected byte) => "No statement begins at byte " ++ toString byte

/-- The dialect that belongs to an ending. -/
def dialectOf (extension : String) : Except SourceError Dialect :=
  match dialects.lookup extension with
  | some dialect => .ok dialect
  | none => .error (.unsupported extension)

/-- One message of the compiler about a source. -/
structure Diagnostic where
  path : Path
  line : Nat
  column : Nat
  category : String
  code : String
  message : String
  deriving Repr, DecidableEq

/-- A source with its tree, its facts and the compiler's messages about it. -/
structure SourceFile where
  path : Path
  source : List Char
  tree : Node
  facts : Facts
  typeErrors : List Diagnostic

/-- Parse a source that has been read from a path. -/
def SourceFile.parse (path : Path) (source : List Char) (typeErrors : List Diagnostic) :
    Except SourceError SourceFile :=
  match dialectOf path.suffix with
  | .error fault => .error fault
  | .ok dialect =>
    match readTree dialect source with
    | .error fault => .error (.unreadable fault)
    | .ok tree => .ok ⟨path, source, tree, Facts.ofTree source tree, typeErrors⟩

/-- The components that are classes. -/
def Facts.classComponents (facts : Facts) : List ComponentFact := facts.components.filter (·.byClass)

/-- Whether a module is imported. -/
def Facts.importsModule (facts : Facts) (name : String) : Bool := facts.imports.any (·.module == name)

end Conformance.Syntax
