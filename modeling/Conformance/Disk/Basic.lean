import Conformance.Disk.Path
import Conformance.Text.Quoted

/-!
# Disks

What a disk holds: directories, regular files with their bytes, and links. An entry is
kept at its location, the names on the way from the top with no link among them. Two
paths can lead to one location, but what is stored at a location is stored once.
-/

namespace Conformance

/-- The names on the way from the top of a disk. -/
abbrev Location := List String

/-- Locations are the same if their names are. -/
instance : LawfulBEq Location := inferInstance

/-- The path of a location. -/
def Location.path (location : Location) : Path := ⟨"/", location⟩

/-- What stands at a location. -/
inductive Entry where
  | directory
  | file (bytes : List UInt8)
  | link (target : Path)
  deriving Repr, DecidableEq

/-- Why an access to a disk fails. -/
inductive DiskFault where
  | missing
  | notDirectory
  | isDirectory
  | exists
  | busy
  | linkLoop
  deriving Repr, DecidableEq

/-- The number of a fault. -/
def DiskFault.number : DiskFault → Nat
  | .missing => 2
  | .busy => 16
  | .exists => 17
  | .notDirectory => 20
  | .isDirectory => 21
  | .linkLoop => 40

/-- The words for a fault. -/
def DiskFault.message : DiskFault → String
  | .missing => "No such file or directory"
  | .exists => "File exists"
  | .busy => "Device or resource busy"
  | .notDirectory => "Not a directory"
  | .isDirectory => "Is a directory"
  | .linkLoop => "Too many levels of symbolic links"

/-- A failed access: the fault and the path that was asked for. -/
structure DiskError where
  fault : DiskFault
  path : Path
  deriving Repr, DecidableEq

/-- What is said about a failed access. -/
def DiskError.message (error : DiskError) : String :=
  "[Errno " ++ toString error.fault.number ++ "] " ++ error.fault.message ++ ": " ++
    String.ofList (Text.quoted error.path.text.toList)

/-- A disk: its entries, each at its own location, and the directory in which relative
paths begin. The top is a directory without an entry of its own. -/
structure Disk where
  workingDirectory : Location
  entries : List (Location × Entry)
  deriving Repr, DecidableEq

namespace Disk

/-- A disk with nothing on it. -/
def empty : Disk := ⟨[], []⟩

/-- The entry at a location. -/
def entry? (disk : Disk) (location : Location) : Option Entry :=
  if location = [] then some .directory else disk.entries.lookup location

/-- An entry put into a list of entries, in the place of one at the same location. -/
def putEntry (location : Location) (entry : Entry) : List (Location × Entry) → List (Location × Entry)
  | [] => [(location, entry)]
  | (other, old) :: rest =>
    if other = location then (other, entry) :: rest else (other, old) :: putEntry location entry rest

/-- Put an entry at a location. -/
def put (disk : Disk) (location : Location) (entry : Entry) : Disk :=
  { disk with entries := putEntry location entry disk.entries }

/-- Take the entry at a location away, with everything below it. -/
def remove (disk : Disk) (location : Location) : Disk :=
  { disk with entries := disk.entries.filter fun (other, _) => !location.isPrefixOf other }

/-- The names directly below a location, with what stands there. -/
def children (disk : Disk) (location : Location) : List (String × Entry) :=
  disk.entries.filterMap fun (other, entry) =>
    if other ≠ [] ∧ other.dropLast = location then some (other.getLast?.getD "", entry) else none

end Disk

end Conformance
