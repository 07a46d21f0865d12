import Conformance.Proofs.Backup.Recording

/-!
# What a session guards

The invariant of a session. Each record tells a file outside the home of the session and
keeps the content that it had at the start; a file outside that is not recorded still has
that content. Backing up, changing a recorded file, putting it back and storing the records
preserve this, so in the end every file can be put back as it was.

Contents are recognised by their digests, so this needs that no two of the contents that
are held have one digest.
-/

namespace Conformance

variable {start disk before after : Disk} {home location : Location}
  {held : Set (List UInt8)} {session : BackupSession}

/-- A file is recorded at its location. -/
def BackupSession.Records (session : BackupSession) (location : Location) : Prop :=
  ∃ record ∈ session.records, Path.ofString record.filePath = location.path

/-- A record tells a location outside the home of the session, the content that stood there
at the start, and the object in which it is kept. -/
structure Guards (held : Set (List UInt8)) (start : Disk) (session : BackupSession) (disk : Disk)
    (record : BackupRecord) (location : Location) (bytes : List UInt8) : Prop where
  named : location.Named
  apart : ¬ start.resolve session.directory <+: location
  content : start.content? location = some bytes
  member : bytes ∈ held
  real : disk.Real location.dropLast
  filePath : record.filePath = location.path.text
  hash : record.hash = Sha256.hexDigest bytes
  backupPath : record.backupPath = (session.objectPath record.hash).text
  object : HasObject (start.resolve session.directory) record.hash disk

/-- The invariant of a session. -/
structure Guarded (held : Set (List UInt8)) (start : Disk) (session : BackupSession)
    (disk : Disk) : Prop where
  formed : start.WellFormed
  written : session.directory.Written
  grown : start.Grows disk
  ready : Ready held start session disk
  outside : ∀ location, ¬ start.resolve session.directory <+: location →
    ¬ session.Records location → disk.content? location = start.content? location
  recorded : ∀ record ∈ session.records, ∃ location bytes,
    Guards held start session disk record location bytes

/-- A fresh session guards the disk that it starts on. -/
theorem BackupSession.Fresh.guarded (fresh : session.Fresh start) (formed : start.WellFormed) :
    Guarded held start session start where
  formed := formed
  written := fresh.written
  grown := .refl start
  ready := .untouched fresh rfl
  outside _ _ _ := rfl
  recorded record member := by
    rw [fresh.records] at member
    cases member

/-- A path that stands for a location outside the home of a session, where the content of the
start is among those held. -/
structure Subject (held : Set (List UInt8)) (start : Disk) (home : Location) (path : Path)
    (location : Location) : Prop where
  written : path.Written
  resolves : start.Resolves path location
  apart : ¬ home <+: location
  member : ∀ bytes, start.content? location = some bytes → bytes ∈ held

/-- A path that a session may be given: it resolves to a location outside the directory of
the session. -/
def BackupSession.Admits (session : BackupSession) (disk : Disk) (path : Path) : Prop :=
  path.Written ∧ disk.Resolves path (disk.resolve path) ∧
    ¬ disk.resolve session.directory <+: disk.resolve path

instance (session : BackupSession) (disk : Disk) (path : Path) :
    Decidable (session.Admits disk path) := inferInstanceAs (Decidable (_ ∧ _ ∧ ¬ _))

/-- No two of the contents have one digest. -/
def CollisionFree (contents : List (List UInt8)) : Prop :=
  ∀ left ∈ contents, ∀ right ∈ contents,
    Sha256.hexDigest left = Sha256.hexDigest right → left = right

instance (contents : List (List UInt8)) : Decidable (CollisionFree contents) :=
  inferInstanceAs (Decidable (∀ left ∈ contents, ∀ right ∈ contents, _ → _))

/-- The digest tells contents apart, if there is no collision among them. -/
theorem CollisionFree.injOn {contents : List (List UInt8)} (free : CollisionFree contents) :
    Set.InjOn Sha256.hexDigest {bytes | bytes ∈ contents} :=
  fun left inLeft right inRight same => free left inLeft right inRight same

/-- What a backup comes to: the file is recorded, and no file outside the home of the
session has changed. -/
structure BackedUp (held : Set (List UInt8)) (start : Disk) (session : BackupSession)
    (before : Disk) (location : Location) (next : BackupSession) (after : Disk) : Prop where
  directory : next.directory = session.directory
  guarded : Guarded held start next after
  steps : GrowsWithin (start.resolve session.directory) before after
  records : next.Records location

/-- A record stays as true as it was while its object stays where it is. -/
theorem Guards.transfer {other : BackupSession} {record : BackupRecord} {bytes : List UInt8}
    (guards : Guards held start session before record location bytes)
    (same : other.directory = session.directory) (grown : before.Grows after) :
    Guards held start other after record location bytes where
  named := guards.named
  apart := by
    rw [same]
    exact guards.apart
  content := guards.content
  member := guards.member
  real := guards.real.grows grown
  filePath := guards.filePath
  hash := guards.hash
  backupPath := by
    rw [guards.backupPath, BackupSession.objectPath, BackupSession.objectPath, same]
  object := by
    rw [same]
    exact guards.object.grows grown

/-- A record tells its location. -/
theorem Guards.ofString_filePath {record : BackupRecord} {bytes : List UInt8}
    (guards : Guards held start session disk record location bytes) :
    Path.ofString record.filePath = location.path := by
  rw [guards.filePath, guards.named.ofString_text]

/-- What a record that guards a file tells. -/
theorem Guards.tells {record : BackupRecord} {bytes : List UInt8}
    (guards : Guards held start session disk record location bytes) :
    Tells session record location bytes := by
  refine ⟨guards.filePath, guards.hash, ?_⟩
  rw [guards.backupPath, guards.hash]

/-- A file that is guarded can be put back in its place. -/
theorem Guards.recoverable {record : BackupRecord} {bytes : List UInt8}
    (guards : Guards held start session disk record location bytes)
    (grown : start.Grows disk) :
    Recoverable (start.resolve session.directory) disk location (Sha256.hexDigest bytes) where
  named := guards.named
  apart := guards.apart
  real := guards.real
  place :=
    .inr (grown.files location bytes ((Disk.content_eq_some location bytes).mp guards.content))
  object := by
    rw [← guards.hash]
    exact guards.object

namespace Guarded

/-- A location that is recorded is told by a record. -/
theorem guards_of_records (guarded : Guarded held start session disk)
    (records : session.Records location) :
    ∃ record ∈ session.records, ∃ bytes,
      Guards held start session disk record location bytes := by
  obtain ⟨record, member, told⟩ := records
  obtain ⟨place, bytes, guards⟩ := guarded.recorded record member
  obtain rfl : place = location := by
    rw [guards.ofString_filePath] at told
    exact congrArg Path.parts told
  exact ⟨record, member, bytes, guards⟩

/-- The working directory stays a real directory. -/
theorem real (guarded : Guarded held start session disk) :
    disk.Real disk.workingDirectory :=
  (guarded.formed.grows guarded.grown).real

/-- What is read through a path is the content of the location that it resolves to. -/
theorem content_of_read (guarded : Guarded held start session disk) (path : Path)
    (resolves : start.Resolves path location) (bytes : List UInt8)
    (read : disk.read path = .ok bytes) :
    disk.follow path = .ok location ∧ disk.content? location = some bytes := by
  obtain ⟨place, followed, content⟩ := (Disk.read_eq_ok path bytes).mp read
  have there := Disk.resolves_of_follow path place followed
  rw [guarded.grown.resolves_iff] at there
  obtain rfl : place = location := there.resolve.symm.trans resolves.resolve
  exact ⟨followed, content⟩

/-- A path that could be read at the start can be read, and so can the location that it
resolves to, while the content is that of the start. -/
theorem read_of_start (guarded : Guarded held start session disk) (path : Path)
    (written : path.Written) (resolves : start.Resolves path location)
    (content : disk.content? location = start.content? location) (bytes : List UInt8)
    (read : start.read path = .ok bytes) :
    disk.read path = .ok bytes ∧ disk.read location.path = .ok bytes := by
  obtain ⟨place, followed, first⟩ := (Disk.read_eq_ok path bytes).mp read
  obtain rfl : place = location :=
    (Disk.resolves_of_follow path place followed).resolve.symm.trans resolves.resolve
  have named := guarded.formed.resolves_named written resolves
  have clear := (guarded.formed.grows guarded.grown).resolves_linkless
    ((guarded.grown.resolves_iff path place).mpr resolves)
  have parent := (Disk.follow_real guarded.formed.real path place followed).grows guarded.grown
  have there := content.trans first
  exact ⟨(Disk.read_eq_ok path bytes).mpr ⟨place, guarded.grown.follows path place followed, there⟩,
    (Disk.read_place guarded.real named clear bytes).mpr ⟨there, parent⟩⟩

/-- Where something is recorded, the directory of the session is open. -/
theorem opened_of_records (guarded : Guarded held start session disk)
    (records : session.Records location) :
    session.Usable start ∧
      Opened held (start.resolve session.directory) session.directory disk := by
  cases guarded.ready with
  | opened usable opened => exact ⟨usable, opened⟩
  | untouched fresh same =>
    obtain ⟨record, member, _⟩ := records
    rw [fresh.records] at member
    cases member

/-- The record that is found for a path is one of the location that it resolves to. -/
theorem find_eq_some (path : Path) (resolves : disk.Resolves path location)
    (record : BackupRecord) (found : session.find? disk path = some record) :
    record ∈ session.records ∧ record.filePath = location.path.text := by
  rw [BackupSession.find?, resolves.resolve] at found
  exact ⟨List.mem_of_find?_eq_some found, by simpa using List.find?_some found⟩

/-- Where no record is found for a path, the location that it resolves to is not recorded. -/
theorem find_eq_none (guarded : Guarded held start session disk) (path : Path)
    (resolves : disk.Resolves path location) (absent : session.find? disk path = none) :
    ¬ session.Records location := by
  intro records
  obtain ⟨record, member, bytes, guards⟩ := guarded.guards_of_records records
  rw [BackupSession.find?, resolves.resolve] at absent
  have other := List.find?_eq_none.mp absent record member
  exact other (by simp [guards.filePath])

/-- A step that only adds to the home of the session is guarded. -/
theorem within (guarded : Guarded held start session before)
    (steps : GrowsWithin (start.resolve session.directory) before after)
    (ready : Ready held start session after) : Guarded held start session after where
  formed := guarded.formed
  written := guarded.written
  grown := guarded.grown.trans steps.grown
  ready := ready
  outside location apart unrecorded :=
    (steps.outside location apart).trans (guarded.outside location apart unrecorded)
  recorded record member := by
    obtain ⟨location, bytes, guards⟩ := guarded.recorded record member
    exact ⟨location, bytes, guards.transfer rfl steps.grown⟩

/-- A recorded file can be written. -/
theorem put (guarded : Guarded held start session disk) (records : session.Records location)
    (bytes : List UInt8) : Guarded held start session (disk.put location (.file bytes)) := by
  obtain ⟨record, member, old, guards⟩ := guarded.guards_of_records records
  obtain ⟨usable, opened⟩ := guarded.opened_of_records records
  obtain ⟨current, standing⟩ := guarded.grown.files location old
    ((Disk.content_eq_some location old).mp guards.content)
  have below : location ≠ [] := by
    rintro rfl
    simp at standing
  have grown := Disk.grows_put_file location bytes (.inr ⟨current, standing⟩)
  refine ⟨guarded.formed, guarded.written, guarded.grown.trans grown, .opened usable ?_, ?_, ?_⟩
  · exact opened.put_outside location _ below guards.apart grown
  · intro other apart unrecorded
    have elsewhere : other ≠ location := by
      rintro rfl
      exact unrecorded records
    rw [Disk.content_put_file disk location other bytes below, if_neg elsewhere]
    exact guarded.outside other apart unrecorded
  · intro other listed
    obtain ⟨place, kept, guards⟩ := guarded.recorded other listed
    exact ⟨place, kept, guards.transfer rfl grown⟩

/-- A backup records the file, or it fails and nothing is changed. It fails only where no
file can be read or the directory of the session cannot be made. -/
theorem backup (guarded : Guarded held start session disk) (now : Moment) (path : Path)
    (subject : Subject held start (start.resolve session.directory) path location) :
    (∃ record next after, session.backup now disk path = .ok (record, next, after) ∧
      BackedUp held start session disk location next after) ∨
    ((∀ bytes, disk.read location.path ≠ .ok bytes) ∨ ¬ session.Usable start) ∧
      ∃ error, session.backup now disk path = .error error := by
  have named := guarded.formed.resolves_named subject.written subject.resolves
  have resolves := (guarded.grown.resolves_iff path location).mpr subject.resolves
  unfold BackupSession.backup
  cases found : session.find? disk path with
  | some record =>
    obtain ⟨member, told⟩ := find_eq_some path resolves record found
    refine .inl ⟨record, session, disk, rfl, rfl, guarded, .refl _ disk, record, member, ?_⟩
    rw [told, named.ofString_text]
  | none =>
    have unrecorded := guarded.find_eq_none path resolves found
    simp only [resolves.resolve]
    cases read : disk.read location.path with
    | error error => exact .inr ⟨.inl (by simp), error, rfl⟩
    | ok bytes =>
      have clear := (guarded.formed.grows guarded.grown).resolves_linkless resolves
      obtain ⟨content, parent⟩ :=
        (Disk.read_place guarded.real named clear bytes).mp read
      rw [guarded.outside location subject.apart unrecorded] at content
      have member := subject.member bytes content
      rcases guarded.ready.keep guarded.real bytes member with
        ⟨after, kept, steps, usable, opened, object⟩ | ⟨unusable, error, refused⟩
      · simp only [kept]
        refine .inl ⟨_, _, after, rfl, rfl, ?_, steps, ?_⟩
        · refine ⟨guarded.formed, guarded.written, guarded.grown.trans steps.grown,
            .opened usable opened, ?_, ?_⟩
          · intro other apart absent
            rw [steps.outside other apart]
            apply guarded.outside other apart
            rintro ⟨record, listed, told⟩
            exact absent ⟨record, List.mem_append_left _ listed, told⟩
          · intro record listed
            rcases List.mem_append.mp listed with listed | listed
            · obtain ⟨place, old, guards⟩ := guarded.recorded record listed
              exact ⟨place, old, guards.transfer rfl steps.grown⟩
            · obtain rfl := List.mem_singleton.mp listed
              exact ⟨location, bytes, named, subject.apart, content, member,
                parent.grows steps.grown, rfl, rfl, rfl, object⟩
        · exact ⟨_, List.mem_append_right _ (List.mem_singleton_self _), named.ofString_text⟩
      · simp only [refused]
        exact .inr ⟨.inr unusable, error, rfl⟩

/-- A recorded file is put back as it was at the start. -/
theorem restore_record (guarded : Guarded held start session disk)
    (distinct : Set.InjOn Sha256.hexDigest held) {record : BackupRecord} {bytes : List UInt8}
    (listed : record ∈ session.records)
    (guards : Guards held start session disk record location bytes) :
    record.restore disk = (disk.put location (.file bytes), .ok ()) := by
  have records : session.Records location := ⟨record, listed, guards.ofString_filePath⟩
  obtain ⟨_, opened⟩ := guarded.opened_of_records records
  obtain ⟨kept, member, digest, restored⟩ :=
    guards.tells.restore guarded.written opened (guards.recoverable guarded.grown)
  rw [restored, distinct member guards.member digest]

/-- Putting a file back succeeds if it is recorded. -/
theorem restore (guarded : Guarded held start session disk)
    (distinct : Set.InjOn Sha256.hexDigest held) (path : Path)
    (resolves : disk.Resolves path location) (records : session.Records location) :
    ∃ record bytes, session.restore disk path =
        .ok (record, disk.put location (.file bytes)) ∧
      start.content? location = some bytes ∧
      Guarded held start session (disk.put location (.file bytes)) := by
  cases found : session.find? disk path with
  | none => exact absurd records (guarded.find_eq_none path resolves found)
  | some record =>
    obtain ⟨member, told⟩ := find_eq_some path resolves record found
    obtain ⟨place, bytes, guards⟩ := guarded.recorded record member
    obtain ⟨other, listed, _, named⟩ := guarded.guards_of_records records
    obtain rfl : place = location :=
      guards.named.text_injective named.named (guards.filePath.symm.trans told)
    refine ⟨record, bytes, ?_, guards.content, guarded.put records bytes⟩
    rw [BackupSession.restore, found]
    simp only [guarded.restore_record distinct member guards]
    rfl

/-- Putting recorded files back one after the other succeeds, and each of them is as it was
at the start. -/
theorem restoreEach (guarded : Guarded held start session disk)
    (distinct : Set.InjOn Sha256.hexDigest held) (records : List BackupRecord)
    (listed : ∀ record ∈ records, record ∈ session.records) :
    ∃ after, Conformance.restoreEach (fun disk record => record.restore disk) disk records =
        (after, .ok ()) ∧ Guarded held start session after ∧
      ∀ location : Location, ¬ start.resolve session.directory <+: location →
        after.content? location = disk.content? location ∧
            (∀ record ∈ records, Path.ofString record.filePath ≠ location.path) ∨
          after.content? location = start.content? location := by
  induction records generalizing disk with
  | nil => exact ⟨disk, rfl, guarded, fun _ _ => .inl ⟨rfl, by simp⟩⟩
  | cons record records inductionHypothesis =>
    have member := listed record List.mem_cons_self
    obtain ⟨place, bytes, guards⟩ := guarded.recorded record member
    have restored := guarded.restore_record distinct member guards
    have again := guarded.put ⟨record, member, guards.ofString_filePath⟩ bytes
    have below : place ≠ [] := by
      rintro rfl
      simpa [Disk.content?] using guards.content
    obtain ⟨after, each, final, contents⟩ := inductionHypothesis again fun other later =>
      listed other (List.mem_cons_of_mem _ later)
    refine ⟨after, ?_, final, ?_⟩
    · simp only [Conformance.restoreEach, restored, each]
    · intro location apart
      rcases contents location apart with ⟨kept, others⟩ | done
      · rw [Disk.content_put_file disk place location bytes below] at kept
        by_cases same : location = place
        · subst same
          rw [if_pos rfl] at kept
          exact .inr (kept.trans guards.content.symm)
        · rw [if_neg same] at kept
          refine .inl ⟨kept, ?_⟩
          intro other present
          rcases List.mem_cons.mp present with rfl | later
          · rw [guards.ofString_filePath]
            intro equal
            exact same (congrArg Path.parts equal).symm
          · exact others other later
      · exact .inr done

/-- Putting every recorded file back leaves every file outside the home of the session as
it was at the start. -/
theorem restoreAll (guarded : Guarded held start session disk)
    (distinct : Set.InjOn Sha256.hexDigest held) :
    ∃ after, Conformance.restoreEach (fun disk record => record.restore disk) disk
        session.records = (after, .ok ()) ∧ Guarded held start session after ∧
      ∀ location, ¬ start.resolve session.directory <+: location →
        after.content? location = start.content? location := by
  obtain ⟨after, each, final, contents⟩ := guarded.restoreEach distinct session.records
    fun _ member => member
  refine ⟨after, each, final, ?_⟩
  intro location apart
  rcases contents location apart with ⟨kept, others⟩ | done
  · rw [kept]
    apply guarded.outside location apart
    rintro ⟨record, member, told⟩
    exact others record member told
  · exact done

/-- Storing the records is guarded, and they are read as they were stored; it fails only
where the directory of the session cannot be made, and then nothing has been recorded or
changed at all. -/
theorem saveManifest (guarded : Guarded held start session disk) :
    (∃ after, session.saveManifest disk = .ok after ∧
      GrowsWithin (start.resolve session.directory) disk after ∧ session.Usable start ∧
      Guarded held start session after ∧
      after.read session.manifestPath =
        .ok (Text.encode (BackupSession.manifestText session.records))) ∨
    ¬ session.Usable start ∧ disk = start ∧ session.records = [] ∧
      ∃ error, session.saveManifest disk = .error error := by
  rcases guarded.ready.saveManifest guarded.real with
    ⟨after, saved, steps, usable, opened, read⟩ | refused
  · exact .inl ⟨after, saved, steps, usable, guarded.within steps (.opened usable opened), read⟩
  · exact .inr refused

end Guarded

end Conformance
