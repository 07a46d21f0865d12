import Conformance.Disk.Walk
import Conformance.Text.Lines
import Conformance.Text.Utf8

/-!
# Reading and writing

Access to files by their paths. Writing through a path goes to the location that the
path leads to. Storing puts a finished file in the place of the path's last name: no
state in between can be seen, and a link with that name is replaced and not followed.
-/

namespace Conformance

/-- Why a file cannot be read as a text. -/
inductive TextError where
  | access (error : DiskError)
  | encoding (error : Text.Utf8Error)
  deriving Repr, DecidableEq

/-- What is said about a file that cannot be read as a text. -/
def TextError.message : TextError → String
  | .access error => error.message
  | .encoding error => error.message

namespace Disk

/-- The bytes of the file that a path leads to. -/
def read (disk : Disk) (path : Path) : Except DiskError (List UInt8) :=
  match disk.follow path with
  | .error fault => .error ⟨fault, path⟩
  | .ok location =>
    match disk.entry? location with
    | some (.file bytes) => .ok bytes
    | some _ => .error ⟨.isDirectory, path⟩
    | none => .error ⟨.missing, path⟩

/-- The text of the file that a path leads to, with its line ends normalised. -/
def readText (disk : Disk) (path : Path) : Except TextError (List Char) :=
  match disk.read path with
  | .error error => .error (.access error)
  | .ok bytes =>
    match Text.decode bytes with
    | .error error => .error (.encoding error)
    | .ok text => .ok (Text.normaliseLineEnds text)

/-- Write bytes to the file that a path leads to. -/
def write (disk : Disk) (path : Path) (bytes : List UInt8) : Except DiskError Disk :=
  match disk.follow path with
  | .error fault => .error ⟨fault, path⟩
  | .ok location =>
    if disk.entry? location = some .directory then .error ⟨.isDirectory, path⟩
    else .ok (disk.put location (.file bytes))

/-- Make one directory, whose parent must be there. -/
def makeDirectory (disk : Disk) (path : Path) : Except DiskError Disk :=
  match disk.locate path with
  | .error fault => .error ⟨fault, path⟩
  | .ok location =>
    match disk.entry? location with
    | none => .ok (disk.put location .directory)
    | some _ => .error ⟨.exists, path⟩

/-- Make one directory, unless it is there already. -/
def ensureDirectory (disk : Disk) (path : Path) : Except DiskError Disk :=
  match disk.makeDirectory path with
  | .ok made => .ok made
  | .error error =>
    if error.fault ≠ .missing ∧ disk.isDirectory path then .ok disk else .error error

/-- Make a directory and those above it; the names stand in the order from the last. A
directory that is there already is left as it is. -/
def makeDirectoriesFrom (disk : Disk) (anchor : String) : List String → Except DiskError Disk
  | [] => .ok disk
  | name :: above =>
    let path : Path := ⟨anchor, (name :: above).reverse⟩
    match disk.ensureDirectory path with
    | .ok made => .ok made
    | .error error =>
      if error.fault = .missing then
        (makeDirectoriesFrom disk anchor above).bind fun disk => disk.ensureDirectory path
      else .error error

/-- Make a directory and those above it. -/
def makeDirectories (disk : Disk) (path : Path) : Except DiskError Disk :=
  disk.makeDirectoriesFrom path.anchor path.parts.reverse

/-- Put a finished file in the place of a path's last name. A path that only leads to
where it is or upwards has no place to put it in. -/
def replace (disk : Disk) (path : Path) (bytes : List UInt8) : Except DiskError Disk :=
  match disk.locate path with
  | .error fault => .error ⟨fault, path⟩
  | .ok location =>
    if path.name = "" ∨ path.name = ".." then .error ⟨.busy, path⟩
    else if disk.entry? location = some .directory then .error ⟨.isDirectory, path⟩
    else .ok (disk.put location (.file bytes))

/-- Put a finished file in the place of a path's last name, with the directories above. -/
def store (disk : Disk) (path : Path) (bytes : List UInt8) : Except DiskError Disk :=
  (disk.makeDirectories path.parent).bind fun disk => disk.replace path bytes

/-- Remove the directory at a path and everything below it. What is not a directory
stays. -/
def removeTree (disk : Disk) (path : Path) : Disk :=
  match disk.locate path with
  | .ok location =>
    if disk.entry? location = some .directory then disk.remove location else disk
  | .error _ => disk

/-- The names in the directory that a path leads to, with what stands there. -/
def list (disk : Disk) (path : Path) : List (String × Entry) :=
  match disk.follow path with
  | .ok location => disk.children location
  | .error _ => []

end Disk

end Conformance
