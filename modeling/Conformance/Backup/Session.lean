import Conformance.Backup.Record
import Conformance.Json.Printer
import Conformance.Time.Moment

/-!
# Backup sessions

A session keeps the bytes of files as they were before it changed them. Each content is
kept once, in an object named by its digest; each file is recorded once, at its first
backup, by the location that its path stands for.
-/

namespace Conformance

/-- A session: its directory and the records of its backups, oldest first. -/
structure BackupSession where
  directory : Path
  records : List BackupRecord
  deriving Repr, DecidableEq

namespace BackupSession

/-- A new session with a name below the directory of all backups. -/
def start (backups : Path) (name : String) : BackupSession := ⟨backups.join (.ofString name), []⟩

/-- Where the records of the session are stored. -/
def manifestPath (session : BackupSession) : Path := session.directory.child "manifest.json"

/-- Where the content with a digest is kept. -/
def objectPath (session : BackupSession) (hash : String) : Path :=
  ((session.directory.child "objects").child (String.ofList (hash.toList.take 2))).child hash

/-- The record of a file. -/
def find? (session : BackupSession) (disk : Disk) (path : Path) : Option BackupRecord :=
  let key := (disk.resolve path).path.text
  session.records.find? fun record => record.filePath == key

/-- Keep a content, unless there is something in its place. -/
def keep (session : BackupSession) (disk : Disk) (hash : String) (bytes : List UInt8) :
    Except DiskError Disk :=
  if disk.isPresent (session.objectPath hash) then .ok disk
  else disk.store (session.objectPath hash) bytes

/-- Back a file up. A file that has a record keeps it. -/
def backup (session : BackupSession) (now : Moment) (disk : Disk) (path : Path) :
    Except DiskError (BackupRecord × BackupSession × Disk) :=
  match session.find? disk path with
  | some record => .ok (record, session, disk)
  | none =>
    let path := (disk.resolve path).path
    match disk.read path with
    | .error error => .error error
    | .ok bytes =>
      let hash := Sha256.hexDigest bytes
      match session.keep disk hash bytes with
      | .error error => .error error
      | .ok disk =>
        let record : BackupRecord := ⟨now.stamp, path.text, (session.objectPath hash).text, hash⟩
        .ok (record, { session with records := session.records ++ [record] }, disk)

/-- Put a file back as it was at its first backup. -/
def restore (session : BackupSession) (disk : Disk) (path : Path) :
    Except RestoreError (BackupRecord × Disk) :=
  match session.find? disk path with
  | none => .error (.refused (.notRecorded path.text))
  | some record =>
    let (disk, result) := record.restore disk
    result.map fun _ => (record, disk)

/-- Put every recorded file back, up to the first that cannot be put back. -/
def restoreAll (session : BackupSession) (disk : Disk) : Disk × Except RestoreError Nat :=
  let (disk, result) := restoreEach (fun disk record => record.restore disk) disk session.records
  (disk, result.map fun _ => session.records.length)

/-- Whether the kept content of a file still has its digest. -/
def verify (session : BackupSession) (disk : Disk) (path : Path) : Bool :=
  match session.find? disk path with
  | none => false
  | some record => disk.hasHash (.ofString record.backupPath) record.hash

/-- A record as it is stored. -/
def recordJson (record : BackupRecord) : Json :=
  .object [("timestamp", .string record.timestamp), ("original_path", .string record.filePath),
    ("backup_path", .string record.backupPath), ("hash", .string record.hash)]

/-- The stored form of records. -/
def manifestText (records : List BackupRecord) : List Char :=
  (Json.array (records.map recordJson)).document

/-- Store the records of the session. -/
def saveManifest (session : BackupSession) (disk : Disk) : Except DiskError Disk :=
  (disk.makeDirectories session.directory).bind fun disk =>
    disk.store session.manifestPath (Text.encode (manifestText session.records))

/-- Take the directory of the session away. -/
def discard (session : BackupSession) (disk : Disk) : Disk := disk.removeTree session.directory

end BackupSession

end Conformance
