import Conformance.Backup.Session
import Conformance.Json.Reader

/-!
# Manifests

The stored records of a session. A manifest is a list of objects with exactly the four
fields of a record; what the fields hold is only looked at when a file is put back.
-/

namespace Conformance

/-- Why a manifest cannot be read at all. -/
inductive ManifestFault where
  | access (error : DiskError)
  | malformed
  deriving Repr, DecidableEq

/-- Why there are no records in a manifest. -/
inductive ManifestError where
  | unreadable (path : Path) (fault : ManifestFault)
  | notList (path : Path)
  | malformedEntry (path : Path)
  | undecodable (error : Text.Utf8Error)
  | oversized (error : Number.OversizedInteger)
  | tooDeep
  deriving Repr, DecidableEq

/-- What is said about a manifest. The detail tells the cause, where there is another
one. -/
def ManifestError.message (detail : String) : ManifestError → String
  | .unreadable path _ => "Cannot read backup manifest " ++ path.text ++ ": " ++ detail
  | .notList path => "Backup manifest " ++ path.text ++ " is not a list"
  | .malformedEntry path => "Malformed entry in backup manifest " ++ path.text ++ ": " ++ detail
  | .undecodable error => error.message
  | .oversized error => error.message
  | .tooDeep => "maximum recursion depth exceeded"

/-- Why restoring from a manifest is broken off. -/
inductive ManifestRestoreError where
  | manifest (error : ManifestError)
  | restore (error : RestoreError)
  deriving Repr, DecidableEq

namespace Manifest

/-- The record in an entry. -/
def record? : Json → Option (BackupRecordOf Json)
  | .object fields => do
    let timestamp ← Json.lookup "timestamp" fields
    let filePath ← Json.lookup "original_path" fields
    let backupPath ← Json.lookup "backup_path" fields
    let hash ← Json.lookup "hash" fields
    if fields.length = 4 then some ⟨timestamp, filePath, backupPath, hash⟩ else none
  | _ => none

/-- The records in a document. The path is only named in errors. -/
def ofDocument (path : Path) : Json → Except ManifestError (List (BackupRecordOf Json))
  | .array entries =>
    match entries.mapM record? with
    | some records => .ok records
    | none => .error (.malformedEntry path)
  | _ => .error (.notList path)

/-- The records in the text of a manifest. -/
def ofText (path : Path) (text : List Char) : Except ManifestError (List (BackupRecordOf Json)) :=
  match Json.read text with
  | .error .malformed => .error (.unreadable path .malformed)
  | .error (.oversized error) => .error (.oversized error)
  | .error .tooDeep => .error .tooDeep
  | .ok document => ofDocument path document

/-- The records in a manifest. -/
def load (disk : Disk) (path : Path) : Except ManifestError (List (BackupRecordOf Json)) :=
  match disk.readText path with
  | .error (.access error) => .error (.unreadable path (.access error))
  | .error (.encoding error) => .error (.undecodable error)
  | .ok text => ofText path text

/-- Put every file back that a manifest records, up to the first that cannot be put
back. The answer is what has been put back. -/
def restore (disk : Disk) (path : Path) :
    Disk × Except ManifestRestoreError (List (BackupRecordOf Json)) :=
  match load disk path with
  | .error error => (disk, .error (.manifest error))
  | .ok records =>
    let (disk, result) := restoreEach (fun disk record => record.restoreStored disk) disk records
    match result with
    | .ok _ => (disk, .ok records)
    | .error error => (disk, .error (.restore error))

end Manifest

end Conformance
