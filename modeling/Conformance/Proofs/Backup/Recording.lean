import Conformance.Backup.Manifest
import Conformance.Proofs.Backup.Keeping
import Conformance.Proofs.Disk.Places
import Conformance.Proofs.Disk.Storing
import Conformance.Proofs.Json.ReadingBack
import Conformance.Proofs.Text.Encoding

/-!
# Recorded files

What a record says of a file, and what the disk must still hold so that the file can be put
back: a place for it in a real directory, and the object with its digest. Neither depends on
what has become of the file since.
-/

namespace Conformance

variable {disk before after : Disk} {home location : Location} {held : Set (List UInt8)}
  {session : BackupSession} {record : BackupRecord} {bytes : List UInt8} {hash : String}

/-- A record tells the location of a file, the digest of a content and the object in which the
content is kept. -/
structure Tells (session : BackupSession) (record : BackupRecord) (location : Location)
    (bytes : List UInt8) : Prop where
  filePath : record.filePath = location.path.text
  hash : record.hash = Sha256.hexDigest bytes
  backupPath : record.backupPath = (session.objectPath (Sha256.hexDigest bytes)).text

/-- A file outside the home of a session has a place where it can be put back, and there is an
object with a digest. -/
structure Recoverable (home : Location) (disk : Disk) (location : Location) (hash : String) :
    Prop where
  named : location.Named
  apart : ¬ home <+: location
  real : disk.Real location.dropLast
  place : disk.TakesFile location
  object : HasObject home hash disk

/-- The path of an object is written. -/
theorem written_objectPath (written : session.directory.Written) (bytes : List UInt8) :
    (session.objectPath (Sha256.hexDigest bytes)).Written := by
  refine ⟨written.1, ?_⟩
  intro name member
  simp only [BackupSession.objectPath, Path.child, List.mem_append, List.mem_singleton] at member
  rcases member with ((above | rfl) | rfl) | rfl
  · exact written.2 name above
  · decide
  · exact (Sha256.isName_take_hexDigest bytes).1
  · exact (Sha256.isName_hexDigest bytes).1

/-- An object with the digest of a content is read as a content that has this digest. -/
theorem Opened.read_objectPath (opened : Opened held home session.directory disk)
    (object : HasObject home (Sha256.hexDigest bytes) disk) :
    ∃ kept ∈ held, Sha256.hexDigest kept = Sha256.hexDigest bytes ∧
      disk.read (session.objectPath (Sha256.hexDigest bytes)) = .ok kept :=
  opened.read_object object
    ⟨(Sha256.isName_take_hexDigest bytes).2, (Sha256.isName_hexDigest bytes).2⟩

/-- A record names the object that its content is kept in. -/
theorem Tells.ofString_backupPath (tells : Tells session record location bytes)
    (written : session.directory.Written) :
    Path.ofString record.backupPath = session.objectPath (Sha256.hexDigest bytes) := by
  rw [tells.backupPath, Path.ofString_text _ (written_objectPath written bytes)]

/-- A record whose object is there is verified. -/
theorem Tells.hasHash (tells : Tells session record location bytes)
    (written : session.directory.Written)
    (opened : Opened held home session.directory disk)
    (object : HasObject home (Sha256.hexDigest bytes) disk) :
    disk.hasHash (.ofString record.backupPath) record.hash = true := by
  obtain ⟨kept, _, digest, read⟩ := opened.read_objectPath object
  rw [tells.ofString_backupPath written, tells.hash, Disk.hasHash, read]
  simp [digest]

/-- The file of a record is put back with a content that has the digest of the recorded one. -/
theorem Tells.restore (tells : Tells session record location bytes)
    (written : session.directory.Written)
    (opened : Opened held home session.directory disk)
    (recoverable : Recoverable home disk location (Sha256.hexDigest bytes)) :
    ∃ kept ∈ held, Sha256.hexDigest kept = Sha256.hexDigest bytes ∧
      record.restore disk = (disk.put location (.file kept), .ok ()) := by
  obtain ⟨kept, member, digest, read⟩ := opened.read_objectPath recoverable.object
  refine ⟨kept, member, digest, ?_⟩
  have below := recoverable.place.below
  have flat : disk.entry? location ≠ some .directory := by
    rcases recoverable.place with vacant | ⟨old, standing⟩
    · simp [vacant]
    · simp [standing]
  have stored : disk.store location.path kept = .ok (disk.put location (.file kept)) :=
    Disk.store_path recoverable.named below recoverable.real flat kept
  have entry : Disk.entry? (disk.put location (.file kept)) location = some (.file kept) := by
    rw [Disk.entry_put disk location location _ below, if_pos rfl]
  have back : (disk.put location (.file kept)).read location.path = .ok kept := by
    refine (Disk.read_eq_ok _ kept).mpr ⟨location, ?_, (Disk.content_eq_some _ kept).mpr entry⟩
    have grown := Disk.grows_put_file location kept recoverable.place
    exact Disk.follow_path recoverable.named (recoverable.real.grows grown) (by simp [entry])
  have present := Disk.isFile_of_read _ kept read
  have target : Path.ofString record.filePath = location.path := by
    rw [tells.filePath, recoverable.named.ofString_text]
  simp [BackupRecord.restore, Disk.restoreObject, tells.ofString_backupPath written, present, read,
    tells.hash, digest, target, stored, back]

end Conformance

/-!
## Saved manifests

The records that a session stores are the records that are read back, and restoring from
them puts back what the session itself would put back.
-/

namespace Conformance

open BackupSession (recordJson manifestText)

/-- Records can be stored and read back. -/
theorem BackupSession.storable_records (room : Nat) (records : List BackupRecord) :
    (Json.array (records.map recordJson)).Storable (room + 2) := by
  induction records with
  | nil => trivial
  | cons record records inductionHypothesis =>
    have distinct : ["timestamp", "original_path", "backup_path", "hash"].Nodup := by decide
    exact ⟨⟨distinct, trivial, trivial, trivial, trivial, trivial⟩, inductionHypothesis⟩

namespace Manifest

/-- A stored record is the record with its texts as values. -/
theorem record_recordJson (record : BackupRecord) :
    record? (recordJson record) = some (record.map Json.string) := by
  simp [record?, recordJson, Json.lookup, BackupRecordOf.map]

/-- The stored form of records is read back as the records. -/
theorem ofText_manifestText (path : Path) (records : List BackupRecord) :
    ofText path (manifestText records) = .ok (records.map (BackupRecordOf.map Json.string)) := by
  have storable : (Json.array (records.map recordJson)).Storable nestingLimit :=
    BackupSession.storable_records _ records
  have inverse : record? ∘ recordJson = fun record => pure (record.map Json.string) :=
    funext record_recordJson
  have each : (records.map recordJson).mapM record? =
      some (records.map (BackupRecordOf.map Json.string)) := by
    rw [List.mapM_map, inverse]
    exact List.mapM_pure
  rw [ofText, manifestText, Json.read_document _ storable]
  simp [ofDocument, each]

variable {disk : Disk}

/-- A stored manifest is loaded as the records it was made of. -/
theorem load_of_read (path : Path) (records : List BackupRecord)
    (stored : disk.read path = .ok (Text.encode (manifestText records))) :
    load disk path = .ok (records.map (BackupRecordOf.map Json.string)) := by
  have plain : '\r' ∉ manifestText records := Json.return_not_mem_pretty _ 0
  have text : disk.readText path = .ok (manifestText records) := by
    simp [Disk.readText, stored, Text.normaliseLineEnds_plain _ plain]
  rw [load, text]
  exact ofText_manifestText path records

/-- A record whose texts are stored as texts is restored like the record itself. -/
theorem restoreStored_map (disk : Disk) (record : BackupRecord) :
    (record.map Json.string).restoreStored disk = record.restore disk := by
  simp [BackupRecordOf.restoreStored, BackupRecord.restore, BackupRecordOf.map, Json.string?,
    Json.shown]

/-- Restoring stored records one after the other is restoring the records. -/
theorem restoreEach_map (disk : Disk) (records : List BackupRecord) :
    restoreEach (fun disk record => record.restoreStored disk) disk
        (records.map (BackupRecordOf.map Json.string)) =
      restoreEach (fun disk record => record.restore disk) disk records := by
  induction records generalizing disk with
  | nil => rfl
  | cons record records inductionHypothesis =>
    simp only [List.map_cons, restoreEach, restoreStored_map]
    split
    · rfl
    · exact inductionHypothesis _

/-- Restoring from a stored manifest is restoring the records it was made of. -/
theorem restore_of_read (path : Path) (records : List BackupRecord) (restored : Disk)
    (stored : disk.read path = .ok (Text.encode (manifestText records)))
    (each : restoreEach (fun disk record => record.restore disk) disk records =
      (restored, .ok ())) :
    restore disk path = (restored, .ok (records.map (BackupRecordOf.map Json.string))) := by
  rw [restore, load_of_read path records stored]
  simp [restoreEach_map, each]

end Manifest

end Conformance

/-!
# Stored manifests are loaded

What a session stores as its manifest is loaded as the records of the session, whatever characters
their texts have. Where the manifest cannot be stored, that is due to the disk and the directory of
the session; the records have no part in it.
-/

namespace Conformance.BackupSession

variable {disk made : Disk} {directory : Path}

/-- Once the directory of the session is made, the manifest is stored in it. -/
theorem saveManifest_of_made (making : disk.makeDirectories directory = .ok made)
    (records : List BackupRecord) :
    (mk directory records).saveManifest disk =
      made.store (directory.child "manifest.json") (Text.encode (manifestText records)) := by
  rw [saveManifest, making]
  rfl

/-- Whether a manifest can be stored depends on the disk and the directory alone. If it can, it is
stored in one place, and its path leads there unless a link stood there before. -/
theorem saveManifest_cases (disk : Disk) (directory : Path) :
    (∃ error, ∀ records, (mk directory records).saveManifest disk = .error error) ∨
      ∃ location, ∀ records, ∃ saved, (mk directory records).saveManifest disk = .ok saved ∧
        saved.content? location = some (Text.encode (manifestText records)) ∧
          (saved.follow (directory.child "manifest.json") = .ok location ∨
            ∃ target, disk.entry? location = some (.link target)) := by
  cases making : disk.makeDirectories directory with
  | error error =>
    refine .inl ⟨error, fun records => ?_⟩
    rw [saveManifest, making]
    rfl
  | ok made =>
    have stores := saveManifest_of_made making
    have steady := (Disk.makeDirectories_adds _ making).added.grows.steady
    rcases Disk.store_cases made (directory.child "manifest.json") with ⟨error, refused⟩ | ⟨location, stored⟩
    · exact .inl ⟨error, fun records => (stores records).trans (refused _)⟩
    · refine .inr ⟨location, fun records => ?_⟩
      obtain ⟨saved, done, content, leads⟩ := stored (Text.encode (manifestText records))
      refine ⟨saved, (stores records).trans done, content, leads.imp_right ?_⟩
      rintro ⟨target, standing⟩
      exact ⟨target, (steady.links location target).mp standing⟩

/-- Unless nothing can be stored in the directory of a session at all, its records are stored in one
file, and from that file they are loaded as they were and in their order. The path of the manifest
leads to the file; only a link that the file has replaced can have been a part of the path itself. -/
theorem saved_records_load (disk : Disk) (directory : Path) :
    (∃ error, ∀ records, (mk directory records).saveManifest disk = .error error) ∨
      ∃ location, ∀ records : List BackupRecord, ∃ saved,
        (mk directory records).saveManifest disk = .ok saved ∧
          (saved.follow (mk directory records).manifestPath = .ok location ∨
            ∃ target, disk.entry? location = some (.link target)) ∧
          ∀ path, saved.follow path = .ok location →
            Manifest.load saved path = .ok (records.map (BackupRecordOf.map Json.string)) := by
  refine (saveManifest_cases disk directory).imp_right ?_
  rintro ⟨location, saves⟩
  refine ⟨location, fun records => ?_⟩
  obtain ⟨saved, done, content, leads⟩ := saves records
  refine ⟨saved, done, leads, fun path followed => ?_⟩
  exact Manifest.load_of_read path records ((Disk.read_eq_ok path _).mpr ⟨location, followed, content⟩)

/-- Records whose texts need every kind of escape. -/
def escapedRecords : List BackupRecord := [
  ⟨"2026-01-18T09:30:00+00:00", "/p/\"quoted\"\\ü.ts", "/w/\t\r\n\x08\x0c\x00\x7f", "e3b0"⟩,
  ⟨"", "/p/😀\u2028/a.ts", "/w/objects/e3/e3b0", "e3b0"⟩]

/-- The escaped records are stored below a directory that is made for them, and loaded as they were. -/
theorem saved_records_load_escaped :
    ∃ saved, (mk (.ofString "/w/s") escapedRecords).saveManifest .empty = .ok saved ∧
      Manifest.load saved (.ofString "/w/s/manifest.json") =
        .ok (escapedRecords.map (BackupRecordOf.map Json.string)) := by
  rcases saved_records_load .empty (.ofString "/w/s") with ⟨error, refused⟩ | ⟨location, saves⟩
  · cases refused []
  · obtain ⟨saved, done, leads, loads⟩ := saves escapedRecords
    refine ⟨saved, done, loads _ ?_⟩
    rcases leads with there | ⟨target, link⟩
    · exact there
    · cases location <;> cases link

end Conformance.BackupSession
