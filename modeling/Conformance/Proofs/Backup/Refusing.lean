import Conformance.Proofs.Backup.Recording
import Conformance.Proofs.Disk.Storing

/-!
# What is refused

A manifest may say anything: its paths may lead anywhere, also to the objects of other entries, and
the objects may be missing or damaged. Only contents with a recorded digest are written, each in
the place of an entry's file. An entry whose object is not what it should be ends the work there,
before anything is written for it.
-/

namespace Conformance

variable {disk turn after : Disk} {location : Location}

/-- There is no object that has the wanted digest. -/
def Disk.Unverified (disk : Disk) (object : Path) (hash : Option String) : Prop :=
  ∀ bytes, disk.read object = .ok bytes → hash ≠ some (Sha256.hexDigest bytes)

/-- Why an object that is not the wanted one is refused. -/
def Disk.refusal (disk : Disk) (file : String) (object : Path) : BackupError :=
  if disk.isFile object then .objectCorrupt file else .objectMissing file object

/-- How putting an object in the place of a file comes out. -/
inductive PutBack (disk : Disk) (file : String) (object : Path) (hash : Option String)
    (target : Option Path) : Disk × Except RestoreError Unit → Prop
  | refused (unverified : disk.Unverified object hash) :
      PutBack disk file object hash target (disk, .error (.refused (disk.refusal file object)))
  | unnamed (bytes : List UInt8) (read : disk.read object = .ok bytes)
      (verified : hash = some (Sha256.hexDigest bytes)) (untold : target = none) :
      PutBack disk file object hash target (disk, .error .wrongType)
  | blocked (bytes : List UInt8) (read : disk.read object = .ok bytes)
      (verified : hash = some (Sha256.hexDigest bytes)) (error : DiskError) :
      PutBack disk file object hash target (disk, .error (.access error))
  | stored (bytes : List UInt8) (read : disk.read object = .ok bytes)
      (verified : hash = some (Sha256.hexDigest bytes)) (path : Path) (told : target = some path)
      (after : Disk) (stored : disk.store path bytes = .ok after) :
      PutBack disk file object hash target (after, .ok ())
  | unread (bytes : List UInt8) (read : disk.read object = .ok bytes)
      (verified : hash = some (Sha256.hexDigest bytes)) (path : Path) (told : target = some path)
      (after : Disk) (stored : disk.store path bytes = .ok after) (error : DiskError) :
      PutBack disk file object hash target (after, .error (.access error))

/-- Putting an object in the place of a file comes out in one of these ways. What has been stored
is never found to be something else. -/
theorem Disk.restoreObject_putBack (disk : Disk) (file : String) (object : Path)
    (hash : Option String) (target : Option Path) :
    PutBack disk file object hash target (disk.restoreObject file object hash target) := by
  unfold restoreObject
  by_cases present : disk.isFile object = true
  · obtain ⟨bytes, read⟩ := disk.read_of_isFile object present
    simp only [present, Bool.not_true, Bool.false_eq_true, if_false, read]
    by_cases verified : hash = some (Sha256.hexDigest bytes)
    · rw [if_neg (not_not.mpr verified)]
      cases target with
      | none => exact .unnamed bytes read verified rfl
      | some path =>
        simp only
        cases stored : disk.store path bytes with
        | error error => exact .blocked bytes read verified error
        | ok after =>
          obtain ⟨_, _, _, again⟩ := store_spec stored
          simp only
          cases checked : after.read path with
          | error error => exact .unread bytes read verified path rfl after stored error
          | ok back =>
            simp only [again back checked, if_true]
            exact .stored bytes read verified path rfl after stored
    · rw [if_pos verified]
      have unverified : disk.Unverified object hash := by
        intro other again
        rwa [← Except.ok.inj (read.symm.trans again)]
      have refused : PutBack disk file object hash target
          (disk, .error (.refused (disk.refusal file object))) := .refused unverified
      rwa [refusal, if_pos present] at refused
  · have unverified : disk.Unverified object hash := fun bytes read =>
      absurd (disk.isFile_of_read object bytes read) present
    have refused : PutBack disk file object hash target
        (disk, .error (.refused (disk.refusal file object))) := .refused unverified
    rw [refusal, if_neg present] at refused
    simpa only [present, Bool.not_false, if_true] using refused

section

variable {file : String} {object : Path} {hash : Option String} {target : Option Path}
  {outcome : Disk × Except RestoreError Unit}

/-- A content with the wanted digest has been stored, or the work has failed and the disk is as it
was. -/
theorem PutBack.disk_cases (putBack : PutBack disk file object hash target outcome) :
    (outcome.1 = disk ∧ outcome.2 ≠ .ok ()) ∨ ∃ bytes path,
      hash = some (Sha256.hexDigest bytes) ∧ target = some path ∧
        disk.store path bytes = .ok outcome.1 := by
  cases putBack with
  | refused unverified => exact .inl ⟨rfl, by simp⟩
  | unnamed bytes read verified untold => exact .inl ⟨rfl, by simp⟩
  | blocked bytes read verified error => exact .inl ⟨rfl, by simp⟩
  | stored bytes read verified path told after stored =>
    exact .inr ⟨bytes, path, verified, told, stored⟩
  | unread bytes read verified path told after stored error =>
    exact .inr ⟨bytes, path, verified, told, stored⟩

/-- An object that is not the wanted one is refused, and nothing is changed. -/
theorem PutBack.of_unverified (putBack : PutBack disk file object hash target outcome)
    (unverified : disk.Unverified object hash) :
    outcome = (disk, .error (.refused (disk.refusal file object))) := by
  cases putBack with
  | refused _ => rfl
  | unnamed bytes read verified _ => exact absurd verified (unverified bytes read)
  | blocked bytes read verified _ => exact absurd verified (unverified bytes read)
  | stored bytes read verified => exact absurd verified (unverified bytes read)
  | unread bytes read verified => exact absurd verified (unverified bytes read)

/-- What is refused is an object that is not the wanted one. -/
theorem PutBack.of_refused {error : BackupError}
    (putBack : PutBack disk file object hash target (after, .error (.refused error))) :
    after = disk ∧ disk.Unverified object hash ∧ error = disk.refusal file object := by
  cases putBack with
  | refused unverified => exact ⟨rfl, unverified, rfl⟩

/-- Only a target that is missing is a path that is no text. -/
theorem PutBack.of_wrongType
    (putBack : PutBack disk file object hash target (after, .error .wrongType)) :
    target = none := by
  cases putBack with
  | unnamed _ _ _ untold => exact untold

end

/-- A value has a text if it is one. -/
theorem Json.string_eq_some (value : Json) (text : String) :
    value.string? = some text ↔ value = .string text := by
  cases value <;> simp [string?]

/-- An entry of a manifest asks for a content at a location: a file is stored there under its path,
and the content has its digest. -/
structure BackupRecordOf.Asks (record : BackupRecordOf Json) (disk : Disk) (location : Location)
    (bytes : List UInt8) : Prop where
  place : ∃ file, record.filePath = .string file ∧ disk.StoresAt (.ofString file) location
  hash : record.hash = .string (Sha256.hexDigest bytes)

namespace Manifest

variable {entries : List (BackupRecordOf Json)}

/-- The work on an entry comes out like putting its object in the place of its file, if it names
an object. -/
theorem restoreStored_cases (disk : Disk) (record : BackupRecordOf Json) :
    record.backupPath.string? = none ∧ record.restoreStored disk = (disk, .error .wrongType) ∨
    ∃ object, record.backupPath = .string object ∧
      PutBack disk (String.ofList record.filePath.shown) (.ofString object) record.hash.string?
        (record.filePath.string?.map .ofString) (record.restoreStored disk) := by
  unfold BackupRecordOf.restoreStored
  cases told : record.backupPath.string? with
  | none => exact .inl ⟨rfl, rfl⟩
  | some object =>
    exact .inr ⟨object, (Json.string_eq_some _ _).mp told, disk.restoreObject_putBack _ _ _ _⟩

/-- The work on an entry writes the content that it asks for and changes no other file, or it fails
and changes nothing. -/
theorem restoreStored_spec (disk : Disk) (record : BackupRecordOf Json) :
    ((record.restoreStored disk).1 = disk ∧ (record.restoreStored disk).2 ≠ .ok ()) ∨
    ∃ location bytes, record.Asks disk location bytes ∧
      ∀ other, (record.restoreStored disk).1.content? other =
        if other = location then some bytes else disk.content? other := by
  rcases restoreStored_cases disk record with ⟨_, mistaken⟩ | ⟨object, _, putBack⟩
  · rw [mistaken]
    exact .inl ⟨rfl, by simp⟩
  · rcases putBack.disk_cases with failed | ⟨bytes, path, verified, told, stored⟩
    · exact .inl failed
    · obtain ⟨location, storesAt, contents, _⟩ := Disk.store_spec stored
      obtain ⟨file, named, rfl⟩ := Option.map_eq_some_iff.mp told
      have asks : record.Asks disk location bytes :=
        ⟨⟨file, (Json.string_eq_some _ _).mp named, storesAt⟩,
          (Json.string_eq_some _ _).mp verified⟩
      exact .inr ⟨location, bytes, asks, contents⟩

/-- A file that the work on an entry changes is the one that the entry asks for. -/
theorem restoreStored_changes (disk : Disk) (record : BackupRecordOf Json) (location : Location)
    (changed : (record.restoreStored disk).1.content? location ≠ disk.content? location) :
    ∃ bytes, record.Asks disk location bytes ∧
      (record.restoreStored disk).1.content? location = some bytes := by
  rcases restoreStored_spec disk record with ⟨same, _⟩ | ⟨place, bytes, asks, contents⟩
  · rw [same] at changed
    exact absurd rfl changed
  · by_cases here : location = place
    · subst here
      exact ⟨bytes, asks, by rw [contents, if_pos rfl]⟩
    · rw [contents, if_neg here] at changed
      exact absurd rfl changed

/-- An entry whose object is not what it should be is refused, and nothing is changed. -/
theorem restoreStored_of_unverified {record : BackupRecordOf Json} {file object hash : String}
    (filePath : record.filePath = .string file) (backupPath : record.backupPath = .string object)
    (told : record.hash = .string hash)
    (unverified : disk.Unverified (.ofString object) (some hash)) :
    record.restoreStored disk =
      (disk, .error (.refused (disk.refusal file (.ofString object)))) := by
  rcases restoreStored_cases disk record with ⟨unnamed, _⟩ | ⟨other, named, putBack⟩
  · rw [backupPath] at unnamed
    cases unnamed
  · obtain rfl : object = other := Json.string.inj (backupPath.symm.trans named)
    rw [told] at putBack
    rw [putBack.of_unverified unverified, filePath, Json.shown, String.ofList_toList]

/-- All of the entries have been put back, which has turned one disk into another. -/
def Reaches (disk : Disk) (entries : List (BackupRecordOf Json)) (turn : Disk) : Prop :=
  restoreEach (fun disk record => record.restoreStored disk) disk entries = (turn, .ok ())

/-- Nothing is to be done for no entries. -/
theorem Reaches.nil (disk : Disk) : Reaches disk [] disk := rfl

/-- One entry is put back before the others. -/
theorem Reaches.cons {next : Disk} {record : BackupRecordOf Json}
    (first : record.restoreStored disk = (next, .ok ())) (reaches : Reaches next entries turn) :
    Reaches disk (record :: entries) turn := by
  unfold Reaches
  rw [restoreEach, first]
  exact reaches

/-- The entries before others have been put back before these. -/
theorem Reaches.split {later : List (BackupRecordOf Json)}
    (reaches : Reaches disk (entries ++ later) after) :
    ∃ turn, Reaches disk entries turn ∧ Reaches turn later after := by
  induction entries generalizing disk with
  | nil => exact ⟨disk, .nil disk, reaches⟩
  | cons record entries inductionHypothesis =>
    unfold Reaches at reaches
    rw [List.cons_append, restoreEach] at reaches
    generalize outcome : record.restoreStored disk = result at reaches
    rcases result with ⟨next, _ | ⟨⟨⟩⟩⟩
    · cases (Prod.mk.inj reaches).2
    · obtain ⟨turn, first, rest⟩ := inductionHypothesis reaches
      exact ⟨turn, .cons outcome first, rest⟩

/-- When an entry has been put back, its file holds the content that it asks for. -/
theorem Reaches.single {record : BackupRecordOf Json} (reaches : Reaches disk [record] after) :
    ∃ location bytes, record.Asks disk location bytes ∧
      after.content? location = some bytes := by
  unfold Reaches at reaches
  rw [restoreEach] at reaches
  have step := restoreStored_spec disk record
  generalize record.restoreStored disk = result at reaches step
  rcases result with ⟨next, _ | ⟨⟨⟩⟩⟩
  · cases (Prod.mk.inj reaches).2
  · obtain rfl : next = after := (Prod.mk.inj reaches).1
    rcases step with ⟨_, failed⟩ | ⟨location, bytes, asks, contents⟩
    · exact absurd rfl failed
    · exact ⟨location, bytes, asks, by rw [contents, if_pos rfl]⟩

/-- The work goes on behind the entries that have been put back. -/
theorem Reaches.onward (reaches : Reaches disk entries turn) (rest : List (BackupRecordOf Json)) :
    restoreEach (fun disk record => record.restoreStored disk) disk (entries ++ rest) =
      restoreEach (fun disk record => record.restoreStored disk) turn rest := by
  induction entries generalizing disk with
  | nil =>
    obtain rfl : disk = turn := (Prod.mk.inj reaches).1
    rfl
  | cons record entries inductionHypothesis =>
    unfold Reaches at reaches
    rw [restoreEach] at reaches
    rw [List.cons_append, restoreEach]
    generalize record.restoreStored disk = result at reaches ⊢
    rcases result with ⟨next, _ | ⟨⟨⟩⟩⟩
    · cases (Prod.mk.inj reaches).2
    · exact inductionHypothesis reaches

/-- Wherever the work ends, a file that has changed is one that an entry has asked for, and it
holds the content that this entry has asked for. -/
theorem restoreEach_changes (disk : Disk) (entries : List (BackupRecordOf Json))
    (location : Location)
    (changed : (restoreEach (fun disk record => record.restoreStored disk) disk
      entries).1.content? location ≠ disk.content? location) :
    ∃ earlier record later turn bytes, entries = earlier ++ record :: later ∧
      Reaches disk earlier turn ∧ record.Asks turn location bytes ∧
      (restoreEach (fun disk record => record.restoreStored disk) disk
        entries).1.content? location = some bytes := by
  induction entries generalizing disk with
  | nil => exact absurd rfl changed
  | cons record entries inductionHypothesis =>
    have step := restoreStored_changes disk record location
    rw [restoreEach] at changed ⊢
    generalize outcome : record.restoreStored disk = result at changed step
    rcases result with ⟨next, _ | ⟨⟨⟩⟩⟩
    · obtain ⟨bytes, asks, content⟩ := step changed
      exact ⟨[], record, entries, disk, bytes, rfl, .nil disk, asks, content⟩
    · simp only at changed step ⊢
      -- The last entry that changes the file is in the rest, or it is this one.
      by_cases again : (restoreEach (fun disk record => record.restoreStored disk) next
          entries).1.content? location = next.content? location
      · rw [again] at changed ⊢
        obtain ⟨bytes, asks, content⟩ := step changed
        exact ⟨[], record, entries, disk, bytes, rfl, .nil disk, asks, content⟩
      · obtain ⟨earlier, other, later, turn, bytes, rfl, reaches, asks, content⟩ :=
          inductionHypothesis next again
        exact ⟨record :: earlier, other, later, turn, bytes, rfl, .cons outcome reaches, asks,
          content⟩

/-- Where an object is refused, the work ends before anything is written for its entry. -/
theorem restoreEach_refused (entries : List (BackupRecordOf Json)) (error : BackupError)
    (refused : restoreEach (fun disk record => record.restoreStored disk) disk entries =
      (after, .error (.refused error))) :
    ∃ earlier record later object, entries = earlier ++ record :: later ∧
      Reaches disk earlier after ∧ record.backupPath = .string object ∧
      after.Unverified (.ofString object) record.hash.string? ∧
      error = after.refusal (String.ofList record.filePath.shown) (.ofString object) := by
  induction entries generalizing disk with
  | nil => cases (Prod.mk.inj refused).2
  | cons record entries inductionHypothesis =>
    have ways := restoreStored_cases disk record
    rw [restoreEach] at refused
    generalize outcome : record.restoreStored disk = result at refused ways
    rcases result with ⟨next, fault | ⟨⟨⟩⟩⟩
    · obtain ⟨rfl, same⟩ := Prod.mk.inj refused
      obtain rfl : fault = .refused error := Except.error.inj same
      rcases ways with ⟨_, mistaken⟩ | ⟨object, named, putBack⟩
      · cases (Prod.mk.inj mistaken).2
      · obtain ⟨rfl, unverified, reason⟩ := putBack.of_refused
        exact ⟨[], record, entries, object, rfl, .nil _, named, unverified, reason⟩
    · obtain ⟨earlier, other, later, object, rfl, reaches, found⟩ := inductionHypothesis refused
      exact ⟨record :: earlier, other, later, object, rfl, .cons outcome reaches, found⟩

/-- Whatever a manifest says and whatever has become of the objects, every file whose content has
changed when the work ends is one that an entry asks for, with a content that has the digest of
this entry. Where the work comes to an entry whose object is missing or has another digest, this
is refused there, with nothing written for the entry and nothing done for those behind it; and
nothing else is refused. An entry that has been put back has its content. -/
theorem restore_writes_recorded (disk : Disk) (path : Path)
    (entries : List (BackupRecordOf Json)) (loaded : load disk path = .ok entries) :
    let final := restore disk path
    (∀ location, final.1.content? location ≠ disk.content? location →
      ∃ earlier record later turn bytes, entries = earlier ++ record :: later ∧
        Reaches disk earlier turn ∧ record.Asks turn location bytes ∧
        final.1.content? location = some bytes) ∧
    (∀ earlier record later turn file object hash, entries = earlier ++ record :: later →
      Reaches disk earlier turn → record.filePath = .string file →
      record.backupPath = .string object → record.hash = .string hash →
      turn.Unverified (.ofString object) (some hash) →
      final = (turn, .error (.restore (.refused (turn.refusal file (.ofString object)))))) ∧
    (∀ error, final.2 = .error (.restore (.refused error)) →
      ∃ earlier record later object, entries = earlier ++ record :: later ∧
        Reaches disk earlier final.1 ∧ record.backupPath = .string object ∧
        final.1.Unverified (.ofString object) record.hash.string? ∧
        error = final.1.refusal (String.ofList record.filePath.shown) (.ofString object)) ∧
    ∀ earlier record after, Reaches disk (earlier ++ [record]) after →
      ∃ turn location bytes, Reaches disk earlier turn ∧ record.Asks turn location bytes ∧
        after.content? location = some bytes := by
  intro final
  generalize outcome : restoreEach (fun disk record => record.restoreStored disk) disk entries =
    result
  obtain ⟨after, said⟩ := result
  have ends : final = (after, match said with
      | .ok _ => .ok entries
      | .error error => .error (.restore error)) := by
    change restore disk path = _
    simp only [restore, loaded, outcome]
    cases said <;> rfl
  refine ⟨?_, ?_, ?_, ?_⟩
  · intro location changed
    have work := restoreEach_changes disk entries location
    rw [outcome] at work
    rw [ends] at changed ⊢
    exact work changed
  · intro earlier record later turn file object hash split reaches filePath backupPath told
      unverified
    have next := reaches.onward (record :: later)
    rw [← split, outcome, restoreEach,
      restoreStored_of_unverified filePath backupPath told unverified] at next
    obtain ⟨rfl, rfl⟩ := Prod.mk.inj next
    exact ends
  · intro error refused
    rw [ends] at refused ⊢
    cases said with
    | ok done => cases refused
    | error fault =>
      obtain rfl : fault = .refused error := by simpa using refused
      exact restoreEach_refused entries error outcome
  · intro earlier record after reaches
    obtain ⟨turn, first, last⟩ := reaches.split
    obtain ⟨location, bytes, asks, content⟩ := last.single
    exact ⟨turn, location, bytes, first, asks, content⟩

/-- Records of which the first one's file is the second one's object. -/
def crossedRecords : List BackupRecord :=
  [⟨"", "two", "one", Sha256.hexDigest [97]⟩, ⟨"", "b.ts", "two", Sha256.hexDigest [98]⟩,
    ⟨"", "c.ts", "one", Sha256.hexDigest [97]⟩]

/-- A disk with these records and their objects. -/
def crossedDisk : Disk :=
  ⟨["w"], [(["w"], .directory), (["w", "one"], .file [97]), (["w", "two"], .file [98]),
    (["w", "manifest.json"], .file (Text.encode (BackupSession.manifestText crossedRecords)))]⟩

/-- The first file is put back over the object of the second one, which is refused then; the
third one is not reached. -/
theorem restore_writes_recorded_crossed :
    let final := restore crossedDisk (.ofString "manifest.json")
    final.2 = .error (.restore (.refused (.objectCorrupt "b.ts"))) ∧
      final.1.content? ["w", "two"] = some [97] ∧ final.1.content? ["w", "b.ts"] = none ∧
      final.1.content? ["w", "c.ts"] = none ∧
      ∃ record ∈ crossedRecords, ∃ bytes, record.hash = Sha256.hexDigest bytes ∧
        final.1.content? ["w", "two"] = some bytes := by
  intro final
  have loaded : load crossedDisk (.ofString "manifest.json") =
      .ok (crossedRecords.map (BackupRecordOf.map Json.string)) := load_of_read _ _ rfl
  obtain ⟨changes, refuses, _⟩ :=
    restore_writes_recorded crossedDisk (.ofString "manifest.json") _ loaded
  let turn := crossedDisk.put ["w", "two"] (.file [97])
  have reaches : Reaches crossedDisk
      [BackupRecordOf.map Json.string ⟨"", "two", "one", Sha256.hexDigest [97]⟩] turn := by
    unfold Reaches
    decide +kernel
  have read : turn.read (.ofString "two") = .ok [97] := by decide
  have unverified : turn.Unverified (.ofString "two") (some (Sha256.hexDigest [98])) := by
    intro bytes again
    rw [← Except.ok.inj (read.symm.trans again)]
    decide +kernel
  have ends : final = (turn, .error (.restore (.refused (.objectCorrupt "b.ts")))) :=
    refuses _ _ _ turn "b.ts" "two" (Sha256.hexDigest [98]) rfl reaches rfl rfl rfl unverified
  have content : final.1.content? ["w", "two"] = some [97] := by
    rw [ends]
    decide
  obtain ⟨earlier, entry, later, _, bytes, split, _, asks, written⟩ :=
    changes ["w", "two"] (by rw [content]; decide)
  have listed : entry ∈ crossedRecords.map (BackupRecordOf.map Json.string) := by
    rw [split]
    exact List.mem_append_right _ List.mem_cons_self
  obtain ⟨record, member, rfl⟩ := List.mem_map.mp listed
  refine ⟨by rw [ends], content, ?_, ?_, record, member, bytes, Json.string.inj asks.hash, written⟩
  · rw [ends]
    decide
  · rw [ends]
    decide

end Manifest

end Conformance
