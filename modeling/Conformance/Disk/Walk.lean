import Conformance.Disk.Basic

/-!
# Finding what a path denotes

There are two ways to read a path, name by name. Following it to an entry replaces a link
by its target and fails where a name on the way is missing or is no directory; how many
links it may meet is limited, so a ring of links ends it. Resolving it has no such limit and
never fails: the target of a link is resolved on its own first, a missing name is taken as
it is written, and so is the rest behind a link that leads back to itself.
-/

namespace Conformance.Disk

/-- The most links that one walk follows. -/
def linkLimit : Nat := 40

/-- How far a walk comes without following a link. -/
inductive Walk where
  | arrived (location : Location)
  /-- A link in a directory, and the names behind it. -/
  | atLink (directory : Location) (name : String) (target : Path) (rest : List String)
  | failed (fault : DiskFault)

/-- The directory in which a path begins. -/
def origin (disk : Disk) (path : Path) : Location :=
  if path.isAbsolute then [] else disk.workingDirectory

/-- The directory in which the target of a link begins, if the link is in a directory. -/
def targetOrigin (directory : Location) (target : Path) : Location :=
  if target.isAbsolute then [] else directory

/-- Walk along names to the next link. The last name may be missing, and it may be a
link, if the last name is not to be followed. -/
def walk (disk : Disk) (followLast : Bool) : Location → List String → Walk
  | here, [] => .arrived here
  | here, name :: rest =>
    if name = ".." then walk disk followLast here.dropLast rest
    else
      let next := here ++ [name]
      match disk.entry? next with
      | none => if rest.isEmpty then .arrived next else .failed .missing
      | some .directory => walk disk followLast next rest
      | some (.file _) => if rest.isEmpty then .arrived next else .failed .notDirectory
      | some (.link target) =>
        if rest.isEmpty && !followLast then .arrived next else .atLink here name target rest

/-- Walk along names and through links. -/
def followFrom (disk : Disk) (followLast : Bool) :
    (links : Nat) → Location → List String → Except DiskFault Location
  | links, here, names =>
    match disk.walk followLast here names with
    | .arrived location => .ok location
    | .failed fault => .error fault
    | .atLink directory _ target rest =>
      match links with
      | 0 => .error .linkLoop
      | links + 1 =>
        followFrom disk followLast links (targetOrigin directory target) (target.parts ++ rest)

/-- The location that a path leads to, through every link on the way. -/
def follow (disk : Disk) (path : Path) : Except DiskFault Location :=
  followFrom disk true linkLimit (disk.origin path) path.parts

/-- The location of a path's last name itself, which may be a link. -/
def locate (disk : Disk) (path : Path) : Except DiskFault Location :=
  followFrom disk false linkLimit (disk.origin path) path.parts

/-- How the resolution of names comes out. -/
inductive Resolution where
  | settled (location : Location)
  /-- A link is met again while its own target is being resolved: where the link is, and the
  names behind it. -/
  | ring (link : Location) (rest : List String)
  deriving Repr, DecidableEq

/-- Resolve names, whatever is missing. The opened links are those whose targets are being
resolved; how the target of a further one is resolved is given. -/
def settle (disk : Disk) (enter : List Location → Location → List String → Resolution)
    (opened : List Location) : Location → List String → Resolution
  | here, [] => .settled here
  | here, name :: rest =>
    if name = ".." then settle disk enter opened here.dropLast rest
    else match disk.entry? (here ++ [name]) with
      | some (.link target) =>
        if here ++ [name] ∈ opened then .ring (here ++ [name]) rest
        else match enter ((here ++ [name]) :: opened) (targetOrigin here target) target.parts with
          | .settled location => settle disk enter opened location rest
          | .ring link names => .ring link (names ++ rest)
      | _ => settle disk enter opened (here ++ [name]) rest

/-- Resolve names through links in links, down to a depth. No more links can be open at a
time than there are entries. -/
def resolveFrom (disk : Disk) : (depth : Nat) → List Location → Location → List String → Resolution
  | 0 => disk.settle fun _ here names => .ring here names
  | depth + 1 => disk.settle (disk.resolveFrom depth)

/-- How the resolution of a path comes out. -/
def resolution (disk : Disk) (path : Path) : Resolution :=
  disk.resolveFrom disk.entries.length [] (disk.origin path) path.parts

/-- The location that names denote as they are written. -/
def written (here : Location) (names : List String) : Location :=
  names.foldl (fun here name => if name = ".." then here.dropLast else here ++ [name]) here

/-- The location that a path stands for, whether there is anything or not. Behind a ring of
links the names are taken as they are written. -/
def resolve (disk : Disk) (path : Path) : Location :=
  match disk.resolution path with
  | .settled location => location
  | .ring link rest => written link rest

/-- What a path leads to, through links. -/
def entryAt? (disk : Disk) (path : Path) : Option Entry :=
  match disk.follow path with
  | .ok location => disk.entry? location
  | .error _ => none

/-- Whether a path leads to a directory. -/
def isDirectory (disk : Disk) (path : Path) : Bool := disk.entryAt? path == some .directory

/-- Whether a path leads to a regular file. -/
def isFile (disk : Disk) (path : Path) : Bool :=
  match disk.entryAt? path with
  | some (.file _) => true
  | _ => false

/-- Whether a path leads to anything. -/
def isPresent (disk : Disk) (path : Path) : Bool := (disk.entryAt? path).isSome

/-- Whether the last name of a path is a link. -/
def isLink (disk : Disk) (path : Path) : Bool :=
  match disk.locate path with
  | .ok location =>
    match disk.entry? location with
    | some (.link _) => true
    | _ => false
  | .error _ => false

end Conformance.Disk
