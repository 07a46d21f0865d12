import Conformance.Command.Run

/-!
# The program

The parts of the real disk that a command line can reach are read into a disk, the command
is carried out on that, and what it has changed is written back. No other program is
started from here, so the compiler counts as missing.
-/

namespace Conformance.Main

open Command

/-- The bytes of a real file. -/
def bytesAt (path : String) : IO (List UInt8) := do return (← IO.FS.readBinFile path).toList

/-- What stands below a real directory, a link with the place that it leads to. What
cannot be read is left out. -/
partial def entriesBelow (location : Location) : IO (List (Location × Entry)) := do
  let directory ← IO.FS.realPath location.path.text
  let found ← (← directory.readDir).toList.mapM fun child => do
    let here := location ++ [child.fileName]
    try
      match (← child.path.symlinkMetadata).type with
      | .dir => return (here, .directory) :: (← entriesBelow here)
      | .file => return [(here, .file (← bytesAt child.path.toString))]
      | .symlink => return [(here, .link (.ofString (← IO.FS.realPath child.path).toString))]
      | .other => return []
    catch _ => return []
  return found.flatten

/-- Read what stands at a path. A path through a link becomes a link on the disk. -/
def readPath (disk : Disk) (path : Path) : IO Disk := do
  let here := disk.resolve path
  try
    let real ← IO.FS.realPath here.path.text
    let location := (Path.ofString real.toString).parts
    let isDirectory := (← real.metadata).type == .dir
    if (disk.entry? location).isSome && location != disk.workingDirectory then return disk
    let entries ← if isDirectory then entriesBelow location
      else pure [(location, Entry.file (← bytesAt real.toString))]
    let top : Location := if isDirectory then location else location.dropLast
    let disk := { disk with entries := disk.entries.filter fun (other, _) => !location.isPrefixOf other }
    let disk := (disk.makeDirectories (Location.path top)).toOption.getD disk
    let disk := { disk with entries := disk.entries ++ entries }
    if location = here then return disk
    else
      let disk := (disk.makeDirectories (Location.path here.dropLast)).toOption.getD disk
      return disk.put here (.link (Location.path location))
  catch _ => return disk

/-- The paths that the arguments may name, and the working directory if they name neither
a project nor a manifest. -/
def namedPaths (workingDirectory : Path) (arguments : List String) : List Path :=
  let named := arguments.map fun argument =>
    Path.ofString ((splitOption argument.toList).2.getD argument)
  let isRoot (argument : String) : Bool :=
    ["--project", "--manifest"].contains (splitOption argument.toList).1
  if arguments.any isRoot then named
  else workingDirectory :: named

/-- The paths that a settings file or a manifest names. -/
def mentionedPaths (disk : Disk) (path : Path) : List Path :=
  let settings := match Config.load disk path with
    | .ok config =>
      (config.standardsDirectory :: config.backupDirectory :: config.reportDirectory ::
        config.includeDirectories).map (Config.resolve path)
    | .error _ => []
  let records := match Manifest.load disk path with
    | .ok records => records.flatMap fun record =>
      [record.filePath, record.backupPath].filterMap fun named => named.string?.map Path.ofString
    | .error _ => []
  settings ++ records

/-- Read what a command line can reach. -/
def readDisk (workingDirectory : Path) (arguments : List String) : IO Disk := do
  let start := (Disk.empty.makeDirectories workingDirectory).toOption.getD .empty
  let named := namedPaths workingDirectory arguments
  let disk ← named.foldlM readPath { start with workingDirectory := workingDirectory.parts }
  (named.flatMap (mentionedPaths disk)).foldlM readPath disk

/-- Write the files and directories that are new or changed, and delete what is gone. -/
def writeChanges (old new : Disk) : IO Unit := do
  for (location, entry) in new.entries do
    if old.entry? location != some entry then
      match entry with
      | .directory => IO.FS.createDirAll location.path.text
      | .file bytes =>
        IO.FS.createDirAll (Location.path location.dropLast).text
        IO.FS.writeBinFile location.path.text (ByteArray.mk bytes.toArray)
      | .link _ => pure ()
  for (location, entry) in old.entries do
    if (new.entry? location).isNone then
      match entry with
      | .directory => pure ()
      | _ => IO.FS.removeFile location.path.text

end Conformance.Main

/-- Carry a command line out on the real disk. -/
def main (arguments : List String) : IO UInt32 := do
  let workingDirectory := Conformance.Path.ofString (← IO.currentDir).toString
  let unshared ← IO.FS.createTempDir
  try
    let clock := (← unshared.metadata).modified
    let now := Conformance.Moment.sinceEpoch clock.sec.toNat (clock.nsec.toNat / 1000)
    let disk ← Conformance.Main.readDisk workingDirectory arguments
    let surroundings : Conformance.Command.Surroundings :=
      ⟨fun _ _ => .missing, now, .ofString unshared.toString⟩
    let (ending, world) := Conformance.Command.execute surroundings arguments ⟨disk, []⟩
    Conformance.Main.writeChanges disk world.disk
    (← IO.getStdout).putStr (String.ofList ending.output)
    (← IO.getStderr).putStr (String.ofList ending.errorOutput)
    return UInt32.ofNat ending.exitCode
  finally
    IO.FS.removeDirAll unshared
