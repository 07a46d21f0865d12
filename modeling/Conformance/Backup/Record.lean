import Conformance.Disk.Access
import Conformance.Hash.Sha256
import Conformance.Json.Shown

/-!
# Records of backups

A record says where the bytes of a file are kept, and their digest. Putting a file back
reads the kept object and writes it only if it still has that digest, so nothing is
written that was not recorded.
-/

namespace Conformance

/-- Why a file cannot be put back. -/
inductive BackupError where
  | notRecorded (path : String)
  | objectMissing (file : String) (object : Path)
  | objectCorrupt (file : String)
  | mismatch (target : Path)
  deriving Repr, DecidableEq

/-- What is said about a file that cannot be put back. -/
def BackupError.message : BackupError → String
  | .notRecorded path => "No backup recorded for " ++ path
  | .objectMissing file object => "Backup object missing for " ++ file ++ ": " ++ object.text
  | .objectCorrupt file => "Backup object corrupt for " ++ file
  | .mismatch target => "Restored file does not match backup hash: " ++ target.text

/-- Why putting files back is broken off. -/
inductive RestoreError where
  | refused (error : BackupError)
  | access (error : DiskError)
  /-- A path in a record is no text. -/
  | wrongType
  deriving Repr, DecidableEq

/-- A record of a backup. The texts have a type `τ`: an audit records strings, while a
stored record that is read back may hold other values in their places. -/
structure BackupRecordOf (τ : Type) where
  timestamp : τ
  filePath : τ
  backupPath : τ
  hash : τ
  deriving Repr, DecidableEq

/-- A record of a backup. -/
abbrev BackupRecord := BackupRecordOf String

/-- A record with its texts changed. -/
def BackupRecordOf.map {σ τ : Type} (f : σ → τ) (record : BackupRecordOf σ) : BackupRecordOf τ :=
  ⟨f record.timestamp, f record.filePath, f record.backupPath, f record.hash⟩

namespace Disk

/-- Whether a path leads to a file with a digest. -/
def hasHash (disk : Disk) (path : Path) (hash : String) : Bool :=
  match disk.read path with
  | .ok bytes => Sha256.hexDigest bytes == hash
  | .error _ => false

/-- Put the bytes of an object in the place of a file, if they have the digest, and read them
back. The file is named in messages only. A digest that is no text is the digest of nothing,
and a missing target is a path that is no text. -/
def restoreObject (disk : Disk) (file : String) (object : Path) (hash : Option String)
    (target : Option Path) : Disk × Except RestoreError Unit :=
  if !disk.isFile object then (disk, .error (.refused (.objectMissing file object)))
  else
    match disk.read object with
    | .error error => (disk, .error (.access error))
    | .ok bytes =>
      let found := Sha256.hexDigest bytes
      if hash ≠ some found then (disk, .error (.refused (.objectCorrupt file)))
      else
        match target with
        | none => (disk, .error .wrongType)
        | some target =>
          match disk.store target bytes with
          | .error error => (disk, .error (.access error))
          | .ok disk =>
            match disk.read target with
            | .error error => (disk, .error (.access error))
            | .ok back =>
              if Sha256.hexDigest back = found then (disk, .ok ())
              else (disk, .error (.refused (.mismatch target)))

end Disk

/-- Put the file of a record back. -/
def BackupRecord.restore (disk : Disk) (record : BackupRecord) : Disk × Except RestoreError Unit :=
  disk.restoreObject record.filePath (.ofString record.backupPath) (some record.hash)
    (some (.ofString record.filePath))

/-- Put the file of a record back whose texts may be any values. -/
def BackupRecordOf.restoreStored (disk : Disk) (record : BackupRecordOf Json) :
    Disk × Except RestoreError Unit :=
  match record.backupPath.string? with
  | none => (disk, .error .wrongType)
  | some object =>
    disk.restoreObject (String.ofList record.filePath.shown) (.ofString object) record.hash.string?
      (record.filePath.string?.map .ofString)

/-- Put the files of several records back, one after the other, up to the first that
cannot be put back. -/
def restoreEach {α : Type} (restore : Disk → α → Disk × Except RestoreError Unit) :
    Disk → List α → Disk × Except RestoreError Unit
  | disk, [] => (disk, .ok ())
  | disk, record :: rest =>
    match restore disk record with
    | (disk, .error error) => (disk, .error error)
    | (disk, .ok ()) => restoreEach restore disk rest

end Conformance
