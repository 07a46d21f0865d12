import Conformance.Proofs.Backup.Guarding
import Conformance.Proofs.Backup.Tampering
import Mathlib.Data.List.Forall2
import Mathlib.Data.List.Nodup

/-!
# The course of a session

A session backs files up, puts them back, verifies them and stores its records, in any order,
while the files themselves are written and deleted by others. Beside the session stands a
ledger: each file at its first backup, with the bytes that it had then. The session keeps what
the ledger says: its records are the entries of the ledger, in their order, and each of them
can be put back.
-/

namespace Conformance

/-- The files that have been backed up, each with its bytes at the first time. -/
abbrev Ledger := List (Location × List UInt8)

/-- A ledger after a backup of a file. Only the first one is entered. -/
def Ledger.enter (ledger : Ledger) (location : Location) (content : Option (List UInt8)) :
    Ledger :=
  if location ∈ ledger.map Prod.fst then ledger
  else match content with
    | some bytes => ledger ++ [(location, bytes)]
    | none => ledger

/-- What is done in the course of a session: by the session, or to a file by others. -/
inductive Action where
  | backup (now : Moment) (path : Path)
  | restore (path : Path)
  | restoreAll
  | verify (path : Path)
  | saveManifest
  | write (path : Path) (bytes : List UInt8)
  | delete (path : Path)

/-- The path of the file that an action is about. -/
def Action.path? : Action → Option Path
  | .backup _ path => some path
  | .restore path => some path
  | .restoreAll => none
  | .verify path => some path
  | .saveManifest => none
  | .write path _ => some path
  | .delete path => some path

/-- How far a session has come. -/
structure Course where
  session : BackupSession
  disk : Disk
  ledger : Ledger

namespace Course

/-- The course of a session after an action. One that fails changes nothing, except that files
may have been put back before the one that cannot be. -/
def step (course : Course) : Action → Course
  | .backup now path =>
    match course.session.backup now course.disk path with
    | .error _ => course
    | .ok (_, session, disk) =>
      let location := course.disk.resolve path
      ⟨session, disk, course.ledger.enter location (course.disk.content? location)⟩
  | .restore path =>
    match course.session.restore course.disk path with
    | .error _ => course
    | .ok (_, disk) => { course with disk := disk }
  | .restoreAll => { course with disk := (course.session.restoreAll course.disk).1 }
  | .verify _ => course
  | .saveManifest =>
    match course.session.saveManifest course.disk with
    | .error _ => course
    | .ok disk => { course with disk := disk }
  | .write path bytes =>
    match course.disk.write path bytes with
    | .error _ => course
    | .ok disk => { course with disk := disk }
  | .delete path => { course with disk := course.disk.deleteFile path }

end Course

/-- What is related to a list item by item is related to one of its items. -/
theorem exists_of_forall₂ {α β : Type} {relation : α → β → Prop} {left : List α} {right : List β}
    (related : List.Forall₂ relation left right) :
    (∀ first ∈ left, ∃ second ∈ right, relation first second) ∧
      ∀ second ∈ right, ∃ first ∈ left, relation first second := by
  induction related with
  | nil => exact ⟨by simp, by simp⟩
  | cons here _ inductionHypothesis =>
    obtain ⟨forward, backward⟩ := inductionHypothesis
    refine ⟨?_, ?_⟩
    · intro first member
      rcases List.mem_cons.mp member with rfl | later
      · exact ⟨_, List.mem_cons_self, here⟩
      · obtain ⟨second, listed, related⟩ := forward first later
        exact ⟨second, List.mem_cons_of_mem _ listed, related⟩
    · intro second member
      rcases List.mem_cons.mp member with rfl | later
      · exact ⟨_, List.mem_cons_self, here⟩
      · obtain ⟨first, listed, related⟩ := backward second later
        exact ⟨first, List.mem_cons_of_mem _ listed, related⟩

/-- The contents that a ledger tells. -/
def Ledger.contents (ledger : Ledger) : Set (List UInt8) := {bytes | bytes ∈ ledger.map Prod.snd}

/-- The contents of a ledger are among those of a longer one. -/
theorem Ledger.contents_append (ledger more : Ledger) :
    ledger.contents ⊆ Ledger.contents (ledger ++ more) := by
  intro bytes member
  show bytes ∈ (ledger ++ more).map Prod.snd
  rw [List.map_append]
  exact List.mem_append_left _ member

/-- A session keeps what its ledger says, in a directory that was unused at the start. -/
structure Faithful (start : Disk) (begun : BackupSession) (course : Course) : Prop where
  directory : course.session.directory = begun.directory
  written : begun.directory.Written
  steady : start.Steady course.disk
  distinct : (course.ledger.map Prod.fst).Nodup
  records : List.Forall₂ (fun record item => Tells begun record item.1 item.2)
    course.session.records course.ledger
  recoverable : ∀ item ∈ course.ledger,
    Recoverable (start.resolve begun.directory) course.disk item.1 (Sha256.hexDigest item.2)
  ready : course.ledger = [] ∧ course.session.Unused course.disk ∨
    Opened course.ledger.contents (start.resolve begun.directory) begun.directory course.disk

variable {start disk after : Disk} {begun : BackupSession} {course : Course} {path : Path}
  {held : Set (List UInt8)} {home location : Location}

/-- An open directory is where the path of the directory resolves to. -/
theorem Opened.home_eq {directory : Path} (opened : Opened held home directory after)
    (steady : start.Steady after) : start.resolve directory = home :=
  ((steady.resolves_iff _ _).mp (Disk.resolves_of_follow _ _ opened.followed)).resolve

/-- An unused session is faithful to an empty ledger. -/
theorem BackupSession.Unused.faithful (unused : begun.Unused disk) :
    Faithful disk begun ⟨begun, disk, []⟩ where
  directory := rfl
  written := unused.written
  steady := .refl disk
  distinct := List.nodup_nil
  records := by
    rw [unused.records]
    exact .nil
  recoverable item member := by cases member
  ready := .inl ⟨rfl, unused⟩

namespace Faithful

/-- Where something is in the ledger, the directory of the session is open. -/
theorem opened (faithful : Faithful start begun course) (item : Location × List UInt8)
    (member : item ∈ course.ledger) :
    Opened course.ledger.contents (start.resolve begun.directory) begun.directory course.disk := by
  rcases faithful.ready with ⟨empty, _⟩ | opened
  · rw [empty] at member
    cases member
  · exact opened

/-- A file is in the ledger exactly if a record of it is found. -/
theorem find? (faithful : Faithful start begun course) (formed : start.WellFormed)
    (written : path.Written) (resolves : start.Resolves path location) :
    (∃ record bytes, course.session.find? course.disk path = some record ∧
      record ∈ course.session.records ∧ (location, bytes) ∈ course.ledger ∧
      Tells begun record location bytes) ∨
    course.session.find? course.disk path = none ∧ location ∉ course.ledger.map Prod.fst := by
  have named := formed.resolves_named written resolves
  have again := (faithful.steady.resolves_iff path location).mpr resolves
  obtain ⟨forward, backward⟩ := exists_of_forall₂ faithful.records
  cases found : course.session.find? course.disk path with
  | some record =>
    rw [BackupSession.find?, again.resolve] at found
    have listed := List.mem_of_find?_eq_some found
    have key : record.filePath = location.path.text := by simpa using List.find?_some found
    obtain ⟨⟨place, bytes⟩, member, tells⟩ := forward record listed
    -- Records are found by the text of a location, and that names one location only.
    obtain rfl : place = location := (faithful.recoverable _ member).named.text_injective named
      (tells.filePath.symm.trans key)
    exact .inl ⟨record, bytes, rfl, listed, member, tells⟩
  | none =>
    refine .inr ⟨rfl, ?_⟩
    intro listed
    obtain ⟨⟨place, bytes⟩, member, rfl⟩ := List.mem_map.mp listed
    obtain ⟨record, recorded, tells⟩ := backward _ member
    rw [BackupSession.find?, again.resolve] at found
    have other := List.find?_eq_none.mp found record recorded
    exact other (by simp [tells.filePath])

/-- A session stays faithful while files outside its directory change. -/
theorem alters (faithful : Faithful start begun course)
    (changes : AltersFiles (start.resolve begun.directory) course.disk after) :
    Faithful start begun { course with disk := after } where
  directory := faithful.directory
  written := faithful.written
  steady := faithful.steady.trans changes.steady
  distinct := faithful.distinct
  records := faithful.records
  recoverable item member := (faithful.recoverable item member).alters changes
  ready := by
    rcases faithful.ready with ⟨empty, unused⟩ | opened
    · refine .inl ⟨empty, unused.alters ?_ changes⟩
      intro place resolves
      rw [faithful.directory, faithful.steady.resolves_iff] at resolves
      exact resolves.resolve.symm
    · exact .inr (opened.alters changes)

/-- The file of a record is put back with a content from the ledger that has the recorded
digest. -/
theorem restore_record (faithful : Faithful start begun course) (record : BackupRecord)
    (listed : record ∈ course.session.records) :
    ∃ item ∈ course.ledger, ∃ kept ∈ course.ledger.contents,
      Tells begun record item.1 item.2 ∧ Sha256.hexDigest kept = Sha256.hexDigest item.2 ∧
      record.restore course.disk = (course.disk.put item.1 (.file kept), .ok ()) := by
  obtain ⟨item, member, tells⟩ := (exists_of_forall₂ faithful.records).1 record listed
  obtain ⟨kept, held, digest, restored⟩ := tells.restore faithful.written
    (faithful.opened item member) (faithful.recoverable item member)
  exact ⟨item, member, kept, held, tells, digest, restored⟩

/-- Putting recorded files back one after the other succeeds and alters only these. -/
theorem restoreEach (faithful : Faithful start begun course) (records : List BackupRecord)
    (listed : ∀ record ∈ records, record ∈ course.session.records) :
    ∃ after, Conformance.restoreEach (fun disk record => record.restore disk) course.disk records =
        (after, .ok ()) ∧
      AltersFiles (start.resolve begun.directory) course.disk after := by
  induction records generalizing course with
  | nil => exact ⟨course.disk, rfl, .refl _ _⟩
  | cons record records inductionHypothesis =>
    obtain ⟨item, member, kept, _, _, _, restored⟩ :=
      faithful.restore_record record (listed record List.mem_cons_self)
    have recoverable := faithful.recoverable item member
    have changes := AltersFiles.put recoverable.apart recoverable.place kept
    obtain ⟨after, each, more⟩ := inductionHypothesis (faithful.alters changes) fun other later =>
      listed other (List.mem_cons_of_mem _ later)
    exact ⟨after, by simp only [Conformance.restoreEach, restored, each], changes.trans more⟩

/-- A session whose directory has grown is faithful, with the contents of its ledger held. -/
theorem grows (faithful : Faithful start begun course)
    (steps : GrowsBelow (start.resolve begun.directory) course.disk after)
    (opened : Opened course.ledger.contents (start.resolve begun.directory) begun.directory
      after) :
    Faithful start begun { course with disk := after } where
  directory := faithful.directory
  written := faithful.written
  steady := faithful.steady.trans steps.grown.steady
  distinct := faithful.distinct
  records := faithful.records
  recoverable item member := (faithful.recoverable item member).grows steps
  ready := .inr opened

/-- Storing the records keeps a session faithful. -/
theorem saveManifest (faithful : Faithful start begun course) (formed : start.WellFormed) :
    Faithful start begun (course.step .saveManifest) := by
  unfold Course.step
  cases saved : course.session.saveManifest course.disk with
  | error error => exact faithful
  | ok after =>
    rcases faithful.ready with ⟨empty, unused⟩ | opened
    · have real := (formed.steady faithful.steady).real
      have ready : Ready course.ledger.contents course.disk course.session course.disk :=
        .untouched (unused.fresh real) rfl
      rcases ready.saveManifest real with
        ⟨other, again, steps, _, opened, _⟩ | ⟨_, _, _, error, refused⟩
      · obtain rfl : after = other := Except.ok.inj (saved.symm.trans again)
        have steady := faithful.steady.trans steps.grown.steady
        rw [faithful.directory] at opened
        have home := opened.home_eq steady
        refine ⟨faithful.directory, faithful.written, steady, faithful.distinct, faithful.records,
          ?_, .inr ?_⟩
        · simp [empty]
        · rw [home]
          exact opened
      · rw [saved] at refused
        cases refused
    · rw [← faithful.directory] at opened
      obtain ⟨other, again, steps, still, _⟩ := opened.saveManifest
      obtain rfl : after = other := Except.ok.inj (saved.symm.trans again)
      rw [faithful.directory] at steps still
      exact faithful.grows steps still

/-- Once a content is kept there is an object for it, and nothing else is lost. It fails only
where the directory of the session cannot be made. -/
theorem keep (faithful : Faithful start begun course) (formed : start.WellFormed)
    (bytes : List UInt8) (more : course.ledger.contents ⊆ held) (member : bytes ∈ held) :
    (∃ after, course.session.keep course.disk (Sha256.hexDigest bytes) bytes = .ok after ∧
      GrowsWithin (start.resolve begun.directory) course.disk after ∧
      Opened held (start.resolve begun.directory) begun.directory after ∧
      HasObject (start.resolve begun.directory) (Sha256.hexDigest bytes) after ∧
      ∀ item ∈ course.ledger,
        Recoverable (start.resolve begun.directory) after item.1 (Sha256.hexDigest item.2)) ∨
    ¬ course.session.Usable course.disk ∧
      ∃ error, course.session.keep course.disk (Sha256.hexDigest bytes) bytes = .error error := by
  have real := (formed.steady faithful.steady).real
  rcases faithful.ready with ⟨empty, unused⟩ | opened
  · -- Nothing is in the ledger, so there is no object that must be kept.
    have ready : Ready held course.disk course.session course.disk :=
      .untouched (unused.fresh real) rfl
    rcases ready.keep real bytes member with
      ⟨after, kept, steps, _, opened, object⟩ | refused
    · rw [faithful.directory] at steps opened object
      have home_eq := opened.home_eq (faithful.steady.trans steps.grown.steady)
      rw [← home_eq] at steps opened object
      exact .inl ⟨after, kept, steps, opened, object, by simp [empty]⟩
    · exact .inr refused
  · rw [← faithful.directory] at opened
    obtain ⟨after, kept, steps, still, object⟩ := (opened.widen more).keep real bytes member
    rw [faithful.directory] at steps still object
    exact .inl ⟨after, kept, steps.within, still, object, fun item listed =>
      (faithful.recoverable item listed).grows steps⟩

/-- A file in the ledger keeps its record when it is backed up again. -/
theorem backup_again (faithful : Faithful start begun course) (formed : start.WellFormed)
    (now : Moment) (written : path.Written) (resolves : start.Resolves path location)
    (listed : location ∈ course.ledger.map Prod.fst) :
    ∃ record ∈ course.session.records,
      course.session.backup now course.disk path = .ok (record, course.session, course.disk) := by
  rcases faithful.find? formed written resolves with
    ⟨record, bytes, found, recorded, _⟩ | ⟨_, absent⟩
  · exact ⟨record, recorded, by simp only [BackupSession.backup, found]⟩
  · exact absurd listed absent

/-- A session that records a file when it is entered in the ledger stays faithful. -/
theorem enter (faithful : Faithful start begun course) {record : BackupRecord}
    {bytes : List UInt8} (absent : location ∉ course.ledger.map Prod.fst)
    (tells : Tells begun record location bytes) (steady : start.Steady after)
    (recoverable : ∀ item ∈ course.ledger ++ [(location, bytes)],
      Recoverable (start.resolve begun.directory) after item.1 (Sha256.hexDigest item.2))
    (opened : Opened (Ledger.contents (course.ledger ++ [(location, bytes)]))
      (start.resolve begun.directory) begun.directory after) :
    Faithful start begun
      ⟨{ course.session with records := course.session.records ++ [record] }, after,
        course.ledger ++ [(location, bytes)]⟩ where
  directory := faithful.directory
  written := faithful.written
  steady := steady
  distinct := by
    rw [List.map_append, List.map_singleton, ← List.concat_eq_append]
    exact faithful.distinct.concat absent
  records := List.rel_append faithful.records (.cons tells .nil)
  recoverable := recoverable
  ready := .inr opened

/-- A file that is not in the ledger is recorded with the bytes that it has, or its backup
fails. It fails only where no file can be read or the directory of the session cannot be
made. -/
theorem backup_new (faithful : Faithful start begun course) (formed : start.WellFormed)
    (now : Moment) (admits : begun.Admits start path)
    (absent : start.resolve path ∉ course.ledger.map Prod.fst) :
    (∃ bytes record after, course.disk.content? (start.resolve path) = some bytes ∧
      course.session.backup now course.disk path =
        .ok (record, { course.session with records := course.session.records ++ [record] },
          after) ∧
      Faithful start begun
        ⟨{ course.session with records := course.session.records ++ [record] }, after,
          course.ledger ++ [(start.resolve path, bytes)]⟩) ∨
    ((∀ bytes, course.disk.read (start.resolve path).path ≠ .ok bytes) ∨
        ¬ course.session.Usable course.disk) ∧
      ∃ error, course.session.backup now course.disk path = .error error := by
  obtain ⟨written, resolves, apart⟩ := admits
  have steadyFormed := formed.steady faithful.steady
  have named := formed.resolves_named written resolves
  have again := (faithful.steady.resolves_iff path _).mpr resolves
  have clear := steadyFormed.resolves_linkless again
  rcases faithful.find? formed written resolves with ⟨_, bytes, _, _, member, _⟩ | ⟨unfound, _⟩
  · exact absurd (List.mem_map.mpr ⟨_, member, rfl⟩) absent
  · simp only [BackupSession.backup, unfound, again.resolve]
    cases read : course.disk.read (start.resolve path).path with
    | error error => exact .inr ⟨.inl (by simp), error, rfl⟩
    | ok bytes =>
      obtain ⟨content, parent⟩ := (Disk.read_place steadyFormed.real named clear bytes).mp read
      have more := course.ledger.contents_append [(start.resolve path, bytes)]
      rcases faithful.keep formed bytes more (by simp [Ledger.contents]) with
        ⟨after, kept, steps, opened, object, recoverable⟩ | ⟨unusable, error, refused⟩
      · simp only [kept]
        refine .inl ⟨bytes, _, after, content, rfl, ?_⟩
        have still := (steps.outside _ apart).trans content
        refine faithful.enter absent ⟨rfl, rfl, ?_⟩ (faithful.steady.trans steps.grown.steady) ?_
          opened
        · simp only [BackupSession.objectPath, faithful.directory]
        · intro item listed
          rcases List.mem_append.mp listed with listed | listed
          · exact recoverable item listed
          · rw [List.mem_singleton.mp listed]
            exact ⟨named, apart, parent.grows steps.grown,
              .inr ⟨bytes, (Disk.content_eq_some _ bytes).mp still⟩, object⟩
      · simp only [refused]
        exact .inr ⟨.inr unusable, error, rfl⟩

/-- A path stands for the location that it stood for at the start. -/
theorem resolve_eq (faithful : Faithful start begun course) (admits : begun.Admits start path) :
    course.disk.resolve path = start.resolve path :=
  ((faithful.steady.resolves_iff path _).mpr admits.2.1).resolve

/-- A backup of a file in the ledger or of a missing one leaves everything as it is. -/
theorem backup_idle (faithful : Faithful start begun course) (formed : start.WellFormed)
    (now : Moment) (admits : begun.Admits start path)
    (idle : start.resolve path ∈ course.ledger.map Prod.fst ∨
      course.disk.content? (start.resolve path) = none) :
    course.step (.backup now path) = course := by
  by_cases listed : start.resolve path ∈ course.ledger.map Prod.fst
  · obtain ⟨record, _, done⟩ := faithful.backup_again formed now admits.1 admits.2.1 listed
    simp only [Course.step, done, faithful.resolve_eq admits, Ledger.enter, if_pos listed]
  · rcases faithful.backup_new formed now admits listed with
      ⟨bytes, _, _, content, _⟩ | ⟨_, error, failed⟩
    · rw [idle.resolve_left listed] at content
      cases content
    · simp only [Course.step, failed]

/-- A backup keeps a session faithful. -/
theorem backup (faithful : Faithful start begun course) (formed : start.WellFormed)
    (now : Moment) (admits : begun.Admits start path) :
    Faithful start begun (course.step (.backup now path)) := by
  by_cases listed : start.resolve path ∈ course.ledger.map Prod.fst
  · rw [faithful.backup_idle formed now admits (.inl listed)]
    exact faithful
  · unfold Course.step
    rcases faithful.backup_new formed now admits listed with
      ⟨bytes, record, after, content, done, next⟩ | ⟨_, error, failed⟩
    · simp only [done, faithful.resolve_eq admits, Ledger.enter, if_neg listed, content]
      exact next
    · simp only [failed]
      exact faithful

/-- Every action keeps a session faithful. -/
theorem step (faithful : Faithful start begun course) (formed : start.WellFormed)
    (action : Action) (admits : ∀ path, action.path? = some path → begun.Admits start path) :
    Faithful start begun (course.step action) := by
  have real := (formed.steady faithful.steady).real
  -- A path leads, if anywhere, to the location that it stood for at the start.
  have outside (path : Path) (admitted : begun.Admits start path) (location : Location)
      (followed : course.disk.follow path = .ok location) :
      ¬ start.resolve begun.directory <+: location := by
    have resolves := Disk.resolves_of_follow path location followed
    rw [faithful.steady.resolves_iff] at resolves
    rw [← resolves.resolve]
    exact admitted.2.2
  cases action with
  | backup now path => exact faithful.backup formed now (admits path rfl)
  | restore path =>
    unfold Course.step
    rcases faithful.find? formed (admits path rfl).1 (admits path rfl).2.1 with
      ⟨record, _, found, listed, _⟩ | ⟨unfound, _⟩
    · obtain ⟨item, member, kept, _, _, _, restored⟩ := faithful.restore_record record listed
      have recoverable := faithful.recoverable item member
      simp only [BackupSession.restore, found, restored]
      exact faithful.alters (.put recoverable.apart recoverable.place kept)
    · simp only [BackupSession.restore, unfound]
      exact faithful
  | restoreAll =>
    obtain ⟨after, each, changes⟩ := faithful.restoreEach course.session.records fun _ => id
    unfold Course.step
    simp only [BackupSession.restoreAll, each]
    exact faithful.alters changes
  | verify path => exact faithful
  | saveManifest => exact faithful.saveManifest formed
  | write path bytes =>
    simp only [Course.step]
    cases written : course.disk.write path bytes with
    | error error => exact faithful
    | ok after =>
      exact faithful.alters (.write real path bytes (outside path (admits path rfl)) written)
  | delete path =>
    exact faithful.alters (.delete course.disk path (outside path (admits path rfl)))

/-- Any course of actions keeps a session faithful. -/
theorem run (faithful : Faithful start begun course) (formed : start.WellFormed)
    (actions : List Action)
    (admits : ∀ action ∈ actions, ∀ path, action.path? = some path → begun.Admits start path) :
    Faithful start begun (actions.foldl Course.step course) := by
  induction actions generalizing course with
  | nil => exact faithful
  | cons action actions inductionHypothesis =>
    exact inductionHypothesis (faithful.step formed action (admits action List.mem_cons_self))
      fun other member => admits other (List.mem_cons_of_mem _ member)

/-- The object of a recorded content is read as a content from the ledger with the same digest. -/
theorem read_object (faithful : Faithful start begun course) (item : Location × List UInt8)
    (member : item ∈ course.ledger) :
    ∃ kept ∈ course.ledger.contents, Sha256.hexDigest kept = Sha256.hexDigest item.2 ∧
      course.disk.read (begun.objectPath (Sha256.hexDigest item.2)) = .ok kept :=
  (faithful.opened item member).read_objectPath (faithful.recoverable item member).object

/-- The objects are those of the contents in the ledger, and nothing else stands among them. -/
theorem objects (faithful : Faithful start begun course)
    (resolves : start.Resolves begun.directory (start.resolve begun.directory))
    (names : List String) :
    (∃ kept, course.disk.content? (start.resolve begun.directory ++ "objects" :: names) =
      some kept) ↔
      ∃ item ∈ course.ledger, "objects" :: names = objectNames (Sha256.hexDigest item.2) := by
  simp only [Disk.content_eq_some]
  constructor
  · rintro ⟨kept, standing⟩
    rcases faithful.ready with ⟨_, unused⟩ | opened
    · rw [← faithful.steady.resolves_iff, ← faithful.directory] at resolves
      have vacant := unused.bare _ resolves ("objects" :: names) (by simp)
      rw [faithful.directory, standing] at vacant
      cases vacant
    · have allowed := opened.kept _ _ (by simp) standing
      generalize place : "objects" :: names = found at allowed
      cases allowed with
      | object bytes held =>
        obtain ⟨item, member, rfl⟩ := List.mem_map.mp held
        exact ⟨item, member, rfl⟩
      | manifest bytes => simp at place
  · rintro ⟨item, member, place⟩
    rw [place]
    exact (faithful.recoverable item member).object.object

/-- A file is verified exactly if it is in the ledger. -/
theorem verify_iff (faithful : Faithful start begun course) (formed : start.WellFormed)
    (written : path.Written) (resolves : start.Resolves path location) :
    course.session.verify course.disk path = true ↔ location ∈ course.ledger.map Prod.fst := by
  rcases faithful.find? formed written resolves with
    ⟨record, bytes, found, _, member, tells⟩ | ⟨unfound, absent⟩
  · have verified := tells.hasHash faithful.written (faithful.opened _ member)
      (faithful.recoverable _ member).object
    rw [BackupSession.verify, found]
    exact ⟨fun _ => List.mem_map.mpr ⟨_, member, rfl⟩, fun _ => verified⟩
  · rw [BackupSession.verify, unfound]
    exact ⟨fun verified => absurd verified Bool.false_ne_true, fun member => absurd member absent⟩

/-- A file is entered in the ledger with one content. -/
theorem unique (faithful : Faithful start begun course) {first second : List UInt8}
    (left : (location, first) ∈ course.ledger) (right : (location, second) ∈ course.ledger) :
    first = second :=
  (Prod.mk.inj (List.inj_on_of_nodup_map faithful.distinct left right rfl)).2

/-- A file in the ledger is put back as it was at its first backup. -/
theorem restore_first (faithful : Faithful start begun course) (formed : start.WellFormed)
    (collisionFree : CollisionFree (course.ledger.map Prod.snd)) (written : path.Written)
    (resolves : start.Resolves path location) {bytes : List UInt8}
    (member : (location, bytes) ∈ course.ledger) :
    ∃ record ∈ course.session.records, course.session.restore course.disk path =
      .ok (record, course.disk.put location (.file bytes)) := by
  rcases faithful.find? formed written resolves with
    ⟨record, first, found, listed, entered, tells⟩ | ⟨_, absent⟩
  · obtain rfl := faithful.unique entered member
    have recoverable := faithful.recoverable _ entered
    obtain ⟨kept, held, digest, restored⟩ :=
      tells.restore faithful.written (faithful.opened _ entered) recoverable
    obtain rfl : kept = first :=
      collisionFree kept held first (List.mem_map.mpr ⟨_, entered, rfl⟩) digest
    exact ⟨record, listed, by simp only [BackupSession.restore, found, restored]; rfl⟩
  · exact absurd (List.mem_map.mpr ⟨_, member, rfl⟩) absent

end Faithful

/-- After any course of actions on files outside its directory, a session holds one record for
each file that has been backed up, in the order of the first backups. The objects are those of
the first contents, so equal contents share one. Exactly the recorded files are verified, and
each of them is put back as it was at its first backup, whatever has become of it since. A file
that is there can be backed up where the directory of the session can be made. Backing up a
recorded file again, or one that is missing, changes nothing. -/
theorem course_keeps_ledger (session : BackupSession) (start : Disk) (actions : List Action)
    (formed : start.WellFormed) (unused : session.Unused start)
    (outside : ∀ action ∈ actions, ∀ path, action.path? = some path → session.Admits start path)
    (collisionFree : CollisionFree
      ((actions.foldl Course.step ⟨session, start, []⟩).ledger.map Prod.snd)) :
    let home := start.resolve session.directory
    let final := actions.foldl Course.step ⟨session, start, []⟩
    (final.ledger.map Prod.fst).Nodup ∧
    List.Forall₂ (fun record item => Tells session record item.1 item.2) final.session.records
      final.ledger ∧
    (∀ item ∈ final.ledger,
      final.disk.read (session.objectPath (Sha256.hexDigest item.2)) = .ok item.2) ∧
    (start.Resolves session.directory home → ∀ names,
      (∃ kept, final.disk.content? (home ++ "objects" :: names) = some kept) ↔
        ∃ item ∈ final.ledger, "objects" :: names = objectNames (Sha256.hexDigest item.2)) ∧
    ∀ path, session.Admits start path →
      (final.session.verify final.disk path = true ↔
        start.resolve path ∈ final.ledger.map Prod.fst) ∧
      (∀ bytes, (start.resolve path, bytes) ∈ final.ledger →
        ∃ record ∈ final.session.records, ∃ after,
          final.session.restore final.disk path = .ok (record, after) ∧
          ∀ location, after.content? location =
            if location = start.resolve path then some bytes
            else final.disk.content? location) ∧
      ∀ now,
        (start.resolve path ∈ final.ledger.map Prod.fst →
          ∃ record ∈ final.session.records, final.session.backup now final.disk path =
            .ok (record, final.session, final.disk)) ∧
        (start.resolve path ∉ final.ledger.map Prod.fst →
          (∃ bytes record after, final.disk.content? (start.resolve path) = some bytes ∧
            final.session.backup now final.disk path =
              .ok (record, { final.session with records := final.session.records ++ [record] },
                after)) ∨
          ((∀ bytes, final.disk.read (start.resolve path).path ≠ .ok bytes) ∨
              ¬ final.session.Usable final.disk) ∧
            ∃ error, final.session.backup now final.disk path = .error error) ∧
        ((start.resolve path ∈ final.ledger.map Prod.fst ∨
            final.disk.content? (start.resolve path) = none) →
          final.step (.backup now path) = final) := by
  have faithful := unused.faithful.run formed actions outside
  intro home final
  refine ⟨faithful.distinct, faithful.records, ?_, faithful.objects, ?_⟩
  · intro item member
    obtain ⟨kept, held, digest, read⟩ := faithful.read_object item member
    rw [read, collisionFree kept held item.2 (List.mem_map.mpr ⟨item, member, rfl⟩) digest]
  · intro path admits
    obtain ⟨written, resolves, _⟩ := id admits
    refine ⟨faithful.verify_iff formed written resolves, ?_, ?_⟩
    · intro bytes member
      obtain ⟨record, listed, restored⟩ :=
        faithful.restore_first formed collisionFree written resolves member
      refine ⟨record, listed, _, restored, ?_⟩
      intro location
      have below := (faithful.recoverable _ member).place.below
      rw [Disk.content_put_file final.disk _ location bytes below]
    · intro now
      refine ⟨faithful.backup_again formed now written resolves, ?_,
        faithful.backup_idle formed now admits⟩
      intro absent
      rcases faithful.backup_new formed now admits absent with
        ⟨bytes, record, after, content, done, _⟩ | failed
      · exact .inl ⟨bytes, record, after, content, done⟩
      · exact .inr failed

/-- A disk with two files of one content. -/
def twinDisk : Disk :=
  ⟨["w"], [(["w"], .directory), (["w", "a.ts"], .file [97]), (["w", "b.ts"], .file [97])]⟩

/-- A session whose directory has not been made. -/
def twinSession : BackupSession := .start (.ofString "backups") "s1"

/-- Both files are backed up, one of them again after it has changed, and a missing one is not.
Then one is gone and the other one has changed twice. -/
def twinActions : List Action :=
  [.backup (.sinceEpoch 0 0) (.ofString "a.ts"), .write (.ofString "a.ts") [98],
    .backup (.sinceEpoch 0 0) (.ofString "a.ts"), .backup (.sinceEpoch 0 0) (.ofString "c.ts"),
    .backup (.sinceEpoch 0 0) (.ofString "./b.ts"), .saveManifest, .delete (.ofString "b.ts"),
    .restore (.ofString "a.ts"), .restoreAll, .verify (.ofString "b.ts"),
    .write (.ofString "a.ts") [99], .delete (.ofString "b.ts")]

/-- The two files share one object, and both are put back from it. -/
theorem course_keeps_ledger_twins :
    let final := twinActions.foldl Course.step ⟨twinSession, twinDisk, []⟩
    final.ledger = [(["w", "a.ts"], [97]), (["w", "b.ts"], [97])] ∧
      final.disk.content? ["w", "a.ts"] = some [99] ∧ final.disk.content? ["w", "b.ts"] = none ∧
      final.session.verify final.disk (.ofString "b.ts") = true ∧
      final.session.verify final.disk (.ofString "c.ts") = false ∧
      ∀ name ∈ ["a.ts", "b.ts"], ∃ record ∈ final.session.records, ∃ after,
        final.session.restore final.disk (.ofString name) = .ok (record, after) ∧
        after.content? ["w", name] = some [97] := by
  intro final
  obtain ⟨ledger, changed, gone⟩ :
      final.ledger = [(["w", "a.ts"], [97]), (["w", "b.ts"], [97])] ∧
        final.disk.content? ["w", "a.ts"] = some [99] ∧
        final.disk.content? ["w", "b.ts"] = none := by decide +kernel
  have collisionFree : CollisionFree (final.ledger.map Prod.snd) := by
    rw [ledger]
    decide +kernel
  obtain ⟨_, _, _, _, each⟩ := course_keeps_ledger twinSession twinDisk twinActions (by decide)
    (by decide +kernel) (by decide +kernel) collisionFree
  have places : ∀ name ∈ ["a.ts", "b.ts"], twinSession.Admits twinDisk (.ofString name) ∧
      twinDisk.resolve (.ofString name) = ["w", name] ∧ (["w", name], [97]) ∈ final.ledger := by
    rw [ledger]
    decide
  refine ⟨ledger, changed, gone, ?_, ?_, ?_⟩
  · refine (each (.ofString "b.ts") (by decide)).1.mpr ?_
    change twinDisk.resolve (.ofString "b.ts") ∈ final.ledger.map Prod.fst
    rw [ledger]
    decide
  · refine Bool.eq_false_iff.mpr fun verified => ?_
    have listed : twinDisk.resolve (.ofString "c.ts") ∈ final.ledger.map Prod.fst :=
      (each (.ofString "c.ts") (by decide)).1.mp verified
    rw [ledger] at listed
    exact absurd listed (by decide)
  · intro name member
    obtain ⟨admits, place, entered⟩ := places name member
    rw [← place] at entered
    obtain ⟨record, listed, after, restored, contents⟩ := (each _ admits).2.1 [97] entered
    exact ⟨record, listed, after, restored, by rw [contents, place, if_pos rfl]⟩

end Conformance
