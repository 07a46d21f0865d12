import Conformance.Audit.Ordering
import Conformance.Disk.Access
import Conformance.Number.Binary64
import Conformance.Number.Sum
import Conformance.Pattern.Basic

/-!
# Scanning a project

The source files of a project are found by walking its included directories from the top
down. The files of a directory come before its subdirectories, both in the order of their
names. Links are never followed, so the walk stays below its start and ends.
-/

namespace Conformance.Audit

/-- Where and what to scan. -/
structure ScanConfig where
  includeDirectories : List String
  excludeDirectories : List String
  extensions : List String
  deriving Repr, DecidableEq

/-- The usual directories of a project. -/
def defaultIncludeDirectories : List String := ["app", "components", "convex", "lib", "hooks", "providers"]

/-- Directories that hold no sources of the project's own. -/
def defaultExcludeDirectories : List String :=
  ["node_modules", ".next", ".git", "dist", "build", "coverage", "out", "_generated", ".convex", ".turbo"]

/-- The usual endings of sources. -/
def defaultExtensions : List String := [".ts", ".tsx"]

/-- The usual scan. -/
def ScanConfig.default : ScanConfig :=
  ⟨defaultIncludeDirectories, defaultExcludeDirectories, defaultExtensions⟩

/-- A file that has been found. -/
structure ScannedFile where
  path : Path
  /-- The path below the root of the scan. -/
  relativePath : String
  extension : String
  size : Nat
  deriving Repr, DecidableEq

/-- A file that has been found is not below the root of the scan. -/
structure OutsideRoot where
  path : Path
  deriving Repr, DecidableEq

/-- The path from a root to a path that is written below it. -/
def relativeTo? (root path : Path) : Option Path :=
  if path.anchor = root.anchor ∧ root.parts.isPrefixOf path.parts then
    some ⟨"", path.parts.drop root.parts.length⟩
  else none

/-- A regular file of a directory, if its ending is wanted. -/
def scanFile? (config : ScanConfig) (directory : Path) (name : String) (entry : Entry) :
    Option (Path × Nat) :=
  let path := directory.child name
  match entry with
  | .file bytes => if config.extensions.contains path.suffix then some (path, bytes.length) else none
  | _ => none

/-- The files below a directory at a location, with their sizes. The number bounds the
depth of the walk. -/
def filesBelow (disk : Disk) (config : ScanConfig) : (depth : Nat) → Location → Path → List (Path × Nat)
  | 0, _, _ => []
  | depth + 1, location, directory =>
    let entries := Order.sort (fun left right => Order.textBefore left.1 right.1) (disk.children location)
    (entries.filterMap fun (name, entry) => scanFile? config directory name entry) ++
      entries.flatMap fun (name, entry) =>
        if entry = .directory ∧ ¬ config.excludeDirectories.contains name then
          filesBelow disk config depth (location ++ [name]) (directory.child name)
        else []

/-- The files below one included directory. A link in its place is not followed. -/
def filesOf (disk : Disk) (config : ScanConfig) (start : Path) : List (Path × Nat) :=
  if disk.isLink start then []
  else match disk.follow start with
    | .error _ => []
    | .ok location =>
      if disk.entry? location = some .directory then
        filesBelow disk config (disk.entries.length + 1) location start
      else []

/-- What is known about a file that has been found. -/
def scanned (root : Path) (found : Path × Nat) : Except OutsideRoot ScannedFile :=
  match relativeTo? root found.1 with
  | some relative => .ok ⟨found.1, relative.text, found.1.suffix, found.2⟩
  | none => .error ⟨found.1⟩

/-- The source files of a project. -/
def scan (disk : Disk) (config : ScanConfig) (root : Path) : Except OutsideRoot (List ScannedFile) :=
  let root := (disk.resolve root).path
  (config.includeDirectories.flatMap fun directory =>
    filesOf disk config (root.join (.ofString directory))).mapM (scanned root)

/-- The files whose relative paths match a pattern. -/
def filterFiles (pattern : Pattern) (files : List ScannedFile) : List ScannedFile :=
  files.filter fun file => pattern.occursIn file.relativePath.toList

/-- The files by the directories that hold them. -/
def groupByDirectory (files : List ScannedFile) : List (String × List ScannedFile) :=
  groupBy (fun file => (Path.ofString file.relativePath).parent.text) files

/-- How many files there are, and how large. -/
structure FileStatistics where
  totalFiles : Nat
  totalSize : Nat
  byExtension : List (String × Nat)
  /-- The mean size, rounded; a half goes to the even neighbour. -/
  averageSize : Int
  deriving Repr, DecidableEq

/-- The summed size of files. -/
def totalSize (files : List ScannedFile) : Nat := Number.total (files.map (·.size))

/-- How many files there are, and how large. -/
def fileStatistics (files : List ScannedFile) : FileStatistics :=
  { totalFiles := files.length
    totalSize := totalSize files
    byExtension := (groupBy (·.extension) files).map fun (name, group) => (name, group.length)
    averageSize :=
      if files.isEmpty then 0
      else ((Number.Binary64.ofRatio (totalSize files) files.length).round?).getD 0 }

end Conformance.Audit
