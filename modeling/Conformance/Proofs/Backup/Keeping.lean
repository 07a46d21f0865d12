import Conformance.Backup.Session
import Conformance.Proofs.Disk.Making
import Conformance.Proofs.Hash.Digits
import Mathlib.Data.Set.Function

/-!
# The directory of a session

What a session keeps stands below one directory, its home: each content in an object named
by its digest, in a directory named by the first two digits, and the stored records beside
them. Once the home is there, keeping a content and storing the records cannot fail, and
they change no file outside. On a disk where the home has not been made yet, they do what
they would do if it had been made before, or they fail and nothing is changed.

Disks have no limits here: no name is too long, nothing is forbidden and space does not run
out.
-/

namespace Conformance

variable {disk before between after start made : Disk} {home : Location}
  {held : Set (List UInt8)} {hash : String}

/-- The disk has grown, and no file outside a place has changed. -/
structure GrowsWithin (home : Location) (before after : Disk) : Prop where
  grown : before.Grows after
  outside : ∀ location, ¬ home <+: location → after.content? location = before.content? location

/-- Nothing has changed on the same disk. -/
theorem GrowsWithin.refl (home : Location) (disk : Disk) : GrowsWithin home disk disk :=
  ⟨.refl disk, fun _ _ => rfl⟩

/-- Growth within a place goes on. -/
theorem GrowsWithin.trans (first : GrowsWithin home before between)
    (second : GrowsWithin home between after) : GrowsWithin home before after :=
  ⟨first.grown.trans second.grown, fun location apart =>
    (second.outside location apart).trans (first.outside location apart)⟩

/-- Added directories change no file. -/
theorem Disk.AddsDirectories.growsWithin (added : before.AddsDirectories after)
    (home : Location) : GrowsWithin home before after :=
  ⟨added.grows, fun location _ => added.content location⟩

/-- The disk has grown below a place, and stays as it was outside. -/
structure GrowsBelow (home : Location) (before after : Disk) : Prop where
  grown : before.Grows after
  others : ∀ location, ¬ home <+: location → after.entry? location = before.entry? location

/-- Nothing has grown on the same disk. -/
theorem GrowsBelow.refl (home : Location) (disk : Disk) : GrowsBelow home disk disk :=
  ⟨.refl disk, fun _ _ => rfl⟩

/-- Growth below a place goes on. -/
theorem GrowsBelow.trans (first : GrowsBelow home before between)
    (second : GrowsBelow home between after) : GrowsBelow home before after :=
  ⟨first.grown.trans second.grown, fun location apart =>
    (second.others location apart).trans (first.others location apart)⟩

/-- Growth below a place changes no file outside. -/
theorem GrowsBelow.within (below : GrowsBelow home before after) :
    GrowsWithin home before after := by
  refine ⟨below.grown, ?_⟩
  intro location apart
  unfold Disk.content?
  rw [below.others location apart]

/-- What grows in one place below another grows below that. -/
theorem growsBelow_of_others {location : Location} (inside : home <+: location)
    (grown : before.Grows after)
    (others : ∀ other, other ≠ location → after.entry? other = before.entry? other) :
    GrowsBelow home before after := by
  refine ⟨grown, ?_⟩
  intro other apart
  apply others
  rintro rfl
  exact apart inside

/-- A file that is put below a place changes nothing outside. -/
theorem growsBelow_put (location : Location) (bytes : List UInt8) (inside : home <+: location)
    (place : disk.TakesFile location) : GrowsBelow home disk (disk.put location (.file bytes)) := by
  have below := place.below
  refine growsBelow_of_others inside (Disk.grows_put_file location bytes place) ?_
  intro other elsewhere
  rw [Disk.entry_put disk location other _ below, if_neg elsewhere]

/-- The directory of the objects whose digests begin alike. -/
def groupName (hash : String) : String := String.ofList (hash.toList.take 2)

/-- The names of the object with a digest, below the directory of a session. -/
def objectNames (hash : String) : List String := ["objects", groupName hash, hash]

/-- What may stand below the directory of a session, if all contents that it has kept are
among those held. -/
inductive Kept (held : Set (List UInt8)) : List String → Entry → Prop where
  | objects : Kept held ["objects"] .directory
  | group (name : String) : Kept held ["objects", name] .directory
  | object (bytes : List UInt8) (member : bytes ∈ held) :
      Kept held (objectNames (Sha256.hexDigest bytes)) (.file bytes)
  | manifest (bytes : List UInt8) : Kept held ["manifest.json"] (.file bytes)

/-- The directory of a session has been made, and nothing foreign stands below it. -/
structure Opened (held : Set (List UInt8)) (home : Location) (directory : Path) (disk : Disk) :
    Prop where
  followed : disk.follow directory = .ok home
  standing : disk.entry? home = some .directory
  kept : ∀ names entry, names ≠ [] → disk.entry? (home ++ names) = some entry →
    Kept held names entry

/-- There is an object with a digest. -/
structure HasObject (home : Location) (hash : String) (disk : Disk) : Prop where
  objects : disk.entry? (home ++ ["objects"]) = some .directory
  group : disk.entry? (home ++ ["objects", groupName hash]) = some .directory
  object : ∃ bytes, disk.entry? (home ++ objectNames hash) = some (.file bytes)

/-- Objects stay where they are. -/
theorem HasObject.grows (object : HasObject home hash before) (grown : before.Grows after) :
    HasObject home hash after where
  objects := grown.directories _ object.objects
  group := grown.directories _ object.group
  object := by
    obtain ⟨bytes, standing⟩ := object.object
    exact grown.files _ bytes standing

namespace Opened

variable {directory : Path}

/-- The directory stays open as long as nothing foreign is put below it. -/
theorem steady (opened : Opened held home directory before) (steady : before.Steady after)
    (kept : ∀ names entry, names ≠ [] → after.entry? (home ++ names) = some entry →
      before.entry? (home ++ names) = some entry ∨ Kept held names entry) :
    Opened held home directory after where
  followed := steady.follows directory home opened.followed
  standing := steady.directories home opened.standing
  kept names entry filled standing := by
    rcases kept names entry filled standing with before | new
    · exact opened.kept names entry filled before
    · exact new

/-- What may be kept may be kept among more. -/
theorem widen {wider : Set (List UInt8)} (opened : Opened held home directory disk)
    (more : held ⊆ wider) : Opened wider home directory disk where
  followed := opened.followed
  standing := opened.standing
  kept names entry filled standing := by
    cases opened.kept names entry filled standing with
    | objects => exact .objects
    | group name => exact .group name
    | object bytes member => exact .object bytes (more member)
    | manifest bytes => exact .manifest bytes

/-- What is new below the directory must be something to be kept. -/
theorem add (opened : Opened held home directory before) (grown : before.Grows after)
    (names : List String) (entry : Entry) (new : Kept held names entry)
    (standing : after.entry? (home ++ names) = some entry)
    (others : ∀ other, other ≠ home ++ names → after.entry? other = before.entry? other) :
    Opened held home directory after := by
  refine opened.steady grown.steady ?_
  intro found other _ present
  by_cases same : found = names
  · subst same
    rw [standing] at present
    rw [← Option.some.inj present]
    exact .inr new
  · have elsewhere : home ++ found ≠ home ++ names := fun equal =>
      same (List.append_cancel_left equal)
    rw [others _ elsewhere] at present
    exact .inl present

/-- What is put outside the directory does not touch it. -/
theorem put_outside (opened : Opened held home directory disk) (location : Location)
    (entry : Entry) (below : location ≠ []) (apart : ¬ home <+: location)
    (grown : disk.Grows (disk.put location entry)) :
    Opened held home directory (disk.put location entry) := by
  refine opened.steady grown.steady ?_
  intro names found _ standing
  have elsewhere : home ++ names ≠ location := by
    rintro rfl
    exact apart (List.prefix_append home names)
  rw [Disk.entry_put disk _ _ _ below, if_neg elsewhere] at standing
  exact .inl standing

/-- Where the objects stand, there is a directory or nothing. -/
theorem objects_kind (opened : Opened held home directory disk) :
    disk.entry? (home ++ ["objects"]) = none ∨
      disk.entry? (home ++ ["objects"]) = some .directory := by
  cases standing : disk.entry? (home ++ ["objects"]) with
  | none => exact .inl rfl
  | some entry =>
    have kept := opened.kept _ entry (by simp) standing
    generalize names : ["objects"] = place at kept
    cases kept with
    | manifest => simp at names
    | object => simp [objectNames] at names
    | group => exact .inr rfl
    | objects => exact .inr rfl

/-- Where the objects of a group stand, there is a directory or nothing. -/
theorem group_kind (opened : Opened held home directory disk) (name : String) :
    disk.entry? (home ++ ["objects", name]) = none ∨
      disk.entry? (home ++ ["objects", name]) = some .directory := by
  cases standing : disk.entry? (home ++ ["objects", name]) with
  | none => exact .inl rfl
  | some entry =>
    have kept := opened.kept _ entry (by simp) standing
    generalize names : ["objects", name] = place at kept
    cases kept with
    | manifest => simp at names
    | object => simp [objectNames] at names
    | group => exact .inr rfl
    | objects => exact .inr rfl

/-- In the place of an object there is a content with its digest, or nothing. -/
theorem object_kind (opened : Opened held home directory disk) (hash : String) :
    disk.entry? (home ++ objectNames hash) = none ∨
      ∃ bytes ∈ held, Sha256.hexDigest bytes = hash ∧
        disk.entry? (home ++ objectNames hash) = some (.file bytes) := by
  cases standing : disk.entry? (home ++ objectNames hash) with
  | none => exact .inl rfl
  | some entry =>
    have kept := opened.kept _ entry (by simp [objectNames]) standing
    generalize names : objectNames hash = place at kept
    cases kept with
    | objects => simp [objectNames] at names
    | group => simp [objectNames] at names
    | manifest => simp [objectNames] at names
    | object bytes member =>
      have same : Sha256.hexDigest bytes = hash := by
        simp only [objectNames, List.cons.injEq] at names
        exact names.2.2.1.symm
      exact .inr ⟨bytes, member, same, rfl⟩

/-- In the place of the stored records there is a file or nothing. -/
theorem manifest_kind (opened : Opened held home directory disk) :
    disk.entry? (home ++ ["manifest.json"]) = none ∨
      ∃ old, disk.entry? (home ++ ["manifest.json"]) = some (.file old) := by
  cases standing : disk.entry? (home ++ ["manifest.json"]) with
  | none => exact .inl rfl
  | some entry =>
    have kept := opened.kept _ entry (by simp) standing
    generalize names : ["manifest.json"] = place at kept
    cases kept with
    | objects => simp at names
    | group => simp at names
    | object => simp [objectNames] at names
    | manifest bytes => exact .inr ⟨bytes, rfl⟩

/-- The path of an object leads to it. -/
theorem follow_object (opened : Opened held home directory disk)
    (object : HasObject home hash disk) (proper : groupName hash ≠ ".." ∧ hash ≠ "..") :
    disk.follow (((directory.child "objects").child (groupName hash)).child hash) =
      .ok (home ++ objectNames hash) := by
  obtain ⟨bytes, standing⟩ := object.object
  have objects := Disk.follow_child directory home "objects" opened.followed opened.standing
    (by decide) (by simp [object.objects])
  have group := Disk.follow_child _ _ (groupName hash) objects object.objects proper.1
    (by simp [object.group])
  have places : home ++ objectNames hash = home ++ ["objects"] ++ [groupName hash] ++ [hash] := by
    simp [objectNames]
  rw [places] at standing ⊢
  refine Disk.follow_child _ _ hash group (by simpa using object.group) proper.2 ?_
  intro target
  rw [standing]
  simp

/-- If the path of an object leads to anything, there is that object. -/
theorem hasObject_of_isPresent (opened : Opened held home directory disk)
    (real : disk.Real disk.workingDirectory) (proper : groupName hash ≠ ".." ∧ hash ≠ "..")
    (present : disk.isPresent (((directory.child "objects").child (groupName hash)).child hash) =
      true) : HasObject home hash disk := by
  unfold Disk.isPresent Disk.entryAt? at present
  cases followed :
    disk.follow (((directory.child "objects").child (groupName hash)).child hash) with
  | error fault => simp [followed] at present
  | ok place =>
    obtain ⟨groupPlace, groupFollowed, groupStanding⟩ :=
      Disk.follow_of_follow_child real _ hash place followed
    obtain ⟨objectsPlace, objectsFollowed, objectsStanding⟩ :=
      Disk.follow_of_follow_child real _ (groupName hash) groupPlace groupFollowed
    have objects := Disk.follow_child directory home "objects" opened.followed opened.standing
      (by decide) (by rcases opened.objects_kind with kind | kind <;> simp [kind])
    rw [objectsFollowed] at objects
    obtain rfl := Except.ok.inj objects
    have group := Disk.follow_child _ _ (groupName hash) objectsFollowed objectsStanding proper.1
      (by rcases opened.group_kind (groupName hash) with kind | kind <;> simp [kind])
    rw [groupFollowed] at group
    obtain rfl := Except.ok.inj group
    have places : home ++ ["objects"] ++ [groupName hash] ++ [hash] = home ++ objectNames hash := by
      simp [objectNames]
    have last := Disk.follow_child _ _ hash groupFollowed groupStanding proper.2 (by
      rw [places]
      rcases opened.object_kind hash with kind | ⟨_, _, _, kind⟩ <;> simp [kind])
    rw [followed, places] at last
    obtain rfl := Except.ok.inj last
    refine ⟨objectsStanding, by simpa using groupStanding, ?_⟩
    rcases opened.object_kind hash with vacant | ⟨bytes, _, _, standing⟩
    · simp [followed, vacant] at present
    · exact ⟨bytes, standing⟩

/-- An object is read as a content that has its digest and has been kept. -/
theorem read_object (opened : Opened held home directory disk)
    (object : HasObject home hash disk) (proper : groupName hash ≠ ".." ∧ hash ≠ "..") :
    ∃ bytes ∈ held, Sha256.hexDigest bytes = hash ∧
      disk.read (((directory.child "objects").child (groupName hash)).child hash) = .ok bytes := by
  obtain ⟨found, standing⟩ := object.object
  rcases opened.object_kind hash with vacant | ⟨bytes, member, digest, content⟩
  · simp [vacant] at standing
  · refine ⟨bytes, member, digest, (Disk.read_eq_ok _ bytes).mpr ?_⟩
    exact ⟨_, opened.follow_object object proper, (Disk.content_eq_some _ bytes).mpr content⟩

/-- In an open directory the one for a group of objects can be made. -/
theorem makeGroup {session : BackupSession} (opened : Opened held home session.directory disk)
    (real : disk.Real disk.workingDirectory) (group : String) (down : group ≠ "..") :
    ∃ after, disk.makeDirectories ((session.directory.child "objects").child group) = .ok after ∧
      GrowsBelow home disk after ∧ Opened held home session.directory after ∧
      after.follow ((session.directory.child "objects").child group) =
        .ok (home ++ ["objects", group]) ∧
      after.entry? (home ++ ["objects"]) = some .directory ∧
      after.entry? (home ++ ["objects", group]) = some .directory := by
  have within : home ++ ["objects"] ++ [group] = home ++ ["objects", group] := by simp
  obtain ⟨first, firstMade, firstAdded, firstFollowed, firstStanding, firstElse⟩ :=
    Disk.makeDirectories_inside session.directory home "objects" opened.followed opened.standing
      (by decide) opened.objects_kind
  have firstOpened := opened.add firstAdded.grows ["objects"] .directory .objects firstStanding
    firstElse
  have kind := firstOpened.group_kind group
  rw [← within] at kind
  obtain ⟨second, secondMade, secondAdded, secondFollowed, secondStanding, secondElse⟩ :=
    Disk.makeDirectories_inside _ _ group firstFollowed firstStanding down kind
  rw [within] at secondFollowed secondStanding secondElse
  have secondOpened := firstOpened.add secondAdded.grows ["objects", group] .directory
    (.group group) secondStanding secondElse
  refine ⟨second, ?_, ?_, secondOpened, secondFollowed, ?_, secondStanding⟩
  · exact (Disk.makeDirectories_child real _ group down firstMade).trans secondMade
  · exact (growsBelow_of_others (List.prefix_append home _) firstAdded.grows firstElse).trans
      (growsBelow_of_others (List.prefix_append home _) secondAdded.grows secondElse)
  · exact secondAdded.grows.directories _ firstStanding

/-- An object that is put in its place in an open directory is there. -/
theorem put_object (opened : Opened held home directory disk) (bytes : List UInt8)
    (member : bytes ∈ held) (hash : Sha256.hexDigest bytes = digest)
    (objects : disk.entry? (home ++ ["objects"]) = some .directory)
    (group : disk.entry? (home ++ ["objects", groupName digest]) = some .directory) :
    GrowsBelow home disk (disk.put (home ++ objectNames digest) (.file bytes)) ∧
      Opened held home directory (disk.put (home ++ objectNames digest) (.file bytes)) ∧
      HasObject home digest (disk.put (home ++ objectNames digest) (.file bytes)) := by
  have below : home ++ objectNames digest ≠ [] := by simp [objectNames]
  have place : disk.TakesFile (home ++ objectNames digest) := by
    rcases opened.object_kind digest with vacant | ⟨old, _, _, standing⟩
    · exact .inl vacant
    · exact .inr ⟨old, standing⟩
  have steps := growsBelow_put (home ++ objectNames digest) bytes (List.prefix_append home _) place
  have put := Disk.entry_put disk (home ++ objectNames digest) (home ++ objectNames digest)
    (.file bytes) below
  rw [if_pos rfl] at put
  refine ⟨steps, ?_, ?_⟩
  · refine opened.add steps.grown (objectNames digest) (.file bytes) ?_ put ?_
    · rw [← hash]
      exact .object bytes member
    · intro other apart
      rw [Disk.entry_put disk _ other _ below, if_neg apart]
  · exact ⟨steps.grown.directories _ objects, steps.grown.directories _ group, bytes, put⟩

/-- In an open directory every content can be kept, and then there is an object for it. -/
theorem keep {session : BackupSession} (opened : Opened held home session.directory disk)
    (real : disk.Real disk.workingDirectory) (bytes : List UInt8) (member : bytes ∈ held) :
    ∃ after, session.keep disk (Sha256.hexDigest bytes) bytes = .ok after ∧
      GrowsBelow home disk after ∧ Opened held home session.directory after ∧
      HasObject home (Sha256.hexDigest bytes) after := by
  have digits := Sha256.isName_hexDigest bytes
  have group := Sha256.isName_take_hexDigest bytes
  generalize hash : Sha256.hexDigest bytes = digest at digits group
  by_cases present : disk.isPresent (session.objectPath digest) = true
  · refine ⟨disk, by simp [BackupSession.keep, present], .refl home disk, opened, ?_⟩
    exact opened.hasObject_of_isPresent real ⟨group.2, digits.2⟩ present
  · obtain ⟨made, making, steps, still, followed, objects, standing⟩ :=
      opened.makeGroup real (groupName digest) group.2
    obtain ⟨last, kept, object⟩ := still.put_object bytes member hash objects standing
    refine ⟨_, ?_, steps.trans last, kept, object⟩
    have flat : made.entry? (home ++ objectNames digest) ≠ some .directory := by
      rcases still.object_kind digest with vacant | ⟨old, _, _, there⟩
      · simp [vacant]
      · simp [there]
    have places : home ++ ["objects", groupName digest] ++ [digest] =
        home ++ objectNames digest := by
      simp [objectNames]
    rw [← places] at flat ⊢
    rw [BackupSession.keep, if_neg present]
    exact (Disk.store_child real _ digest bytes making).trans
      (Disk.store_in _ _ digest bytes followed standing digits.1 digits.2 flat)

/-- In an open directory the records can be stored, and they are read as they were stored. -/
theorem saveManifest {session : BackupSession}
    (opened : Opened held home session.directory disk) :
    ∃ after, session.saveManifest disk = .ok after ∧ GrowsBelow home disk after ∧
      Opened held home session.directory after ∧
      after.read session.manifestPath =
        .ok (Text.encode (BackupSession.manifestText session.records)) := by
  generalize bytes : Text.encode (BackupSession.manifestText session.records) = content
  have present := (Disk.isDirectory_iff session.directory).mpr
    ⟨home, opened.followed, opened.standing⟩
  have stored : disk.store session.manifestPath content =
      .ok (disk.put (home ++ ["manifest.json"]) (.file content)) := by
    refine Disk.store_in _ _ "manifest.json" content opened.followed opened.standing (by decide)
      (by decide) ?_
    rcases opened.manifest_kind with vacant | ⟨old, standing⟩ <;> simp_all
  have last := growsBelow_put (home ++ ["manifest.json"]) content
    (List.prefix_append home _) opened.manifest_kind
  have put := Disk.entry_put disk (home ++ ["manifest.json"]) (home ++ ["manifest.json"])
    (.file content) (by simp)
  rw [if_pos rfl] at put
  refine ⟨_, ?_, last, ?_, ?_⟩
  · rw [BackupSession.saveManifest, Disk.makeDirectories_of_isDirectory _ present, bytes]
    exact stored
  · refine opened.add last.grown ["manifest.json"] (.file content) (.manifest content) put ?_
    intro other apart
    rw [Disk.entry_put disk _ other _ (by simp), if_neg apart]
  · refine (Disk.read_eq_ok _ content).mpr ⟨home ++ ["manifest.json"], ?_, ?_⟩
    · exact Disk.follow_child _ home "manifest.json"
        (last.grown.follows _ home opened.followed) (last.grown.directories _ opened.standing)
        (by decide) (by simp [put])
    · exact (Disk.content_eq_some _ content).mpr put

end Opened

namespace BackupSession

variable {session : BackupSession}

/-- A session that has kept nothing yet. Once its directory is made, it is empty. -/
structure Fresh (session : BackupSession) (start : Disk) : Prop where
  records : session.records = []
  written : session.directory.Written
  empty : ∀ made, start.makeDirectories session.directory = .ok made →
    ∀ names, names ≠ [] → made.entry? (start.resolve session.directory ++ names) = none

/-- A session is fresh if nothing is listed below its directory once that is made. -/
theorem fresh_iff (session : BackupSession) (start : Disk) :
    session.Fresh start ↔ session.records = [] ∧ session.directory.Written ∧
      ∀ made ∈ (start.makeDirectories session.directory).toOption, ∀ item ∈ made.entries,
        start.resolve session.directory <+: item.1 →
          item.1 = start.resolve session.directory := by
  simp only [← Disk.bare_iff]
  constructor
  · rintro ⟨records, written, empty⟩
    refine ⟨records, written, ?_⟩
    intro made making
    apply empty
    cases result : start.makeDirectories session.directory with
    | error error => simp [result, Except.toOption] at making
    | ok other => simpa [result, Except.toOption] using making
  · rintro ⟨records, written, bare⟩
    exact ⟨records, written, fun made making => bare made (by simp [making, Except.toOption])⟩

instance (session : BackupSession) (start : Disk) : Decidable (session.Fresh start) :=
  decidable_of_iff' _ (fresh_iff session start)

/-- The directory of a session can be made. -/
def Usable (session : BackupSession) (start : Disk) : Prop :=
  ∃ made, start.makeDirectories session.directory = .ok made

/-- Once the directory of a fresh session is made, it is open. -/
theorem Fresh.opened (fresh : session.Fresh start) (real : start.Real start.workingDirectory)
    (making : start.makeDirectories session.directory = .ok made) :
    Opened held (start.resolve session.directory) session.directory made := by
  obtain ⟨added, present⟩ := Disk.makeDirectories_spec real session.directory making
  obtain ⟨place, followed, standing⟩ := (Disk.isDirectory_iff session.directory).mp present
  have resolves := (added.grows.resolves_iff session.directory place).mp
    (Disk.resolves_of_follow session.directory place followed)
  rw [resolves.resolve]
  refine ⟨followed, standing, ?_⟩
  intro names entry filled found
  have vacant := fresh.empty made making names filled
  rw [resolves.resolve, found] at vacant
  cases vacant

/-- Where an object is present, the directory of the session is. -/
theorem isDirectory_of_isPresent (real : start.Real start.workingDirectory)
    (present : start.isPresent (session.objectPath hash) = true) :
    start.isDirectory session.directory = true := by
  unfold Disk.isPresent Disk.entryAt? at present
  cases followed : start.follow (session.objectPath hash) with
  | error fault => simp [followed] at present
  | ok place =>
    obtain ⟨group, groupFollowed, _⟩ := Disk.follow_of_follow_child real _ hash place followed
    obtain ⟨objects, objectsFollowed, _⟩ :=
      Disk.follow_of_follow_child real _ (groupName hash) group groupFollowed
    exact (Disk.isDirectory_iff _).mpr
      (Disk.follow_of_follow_child real session.directory "objects" objects objectsFollowed)

/-- Keeping a content begins with making the directory of the session. -/
theorem Fresh.keep_eq (fresh : session.Fresh start) (real : start.Real start.workingDirectory)
    (making : start.makeDirectories session.directory = .ok made)
    (proper : groupName hash ≠ ".." ∧ hash ≠ "..") (bytes : List UInt8) :
    session.keep start hash bytes = session.keep made hash bytes := by
  by_cases standing : start.isDirectory session.directory = true
  · rw [Disk.makeDirectories_of_isDirectory _ standing] at making
    rw [Except.ok.inj making]
  · have opened : Opened ∅ (start.resolve session.directory) session.directory made :=
      fresh.opened real making
    have madeReal := real.grows (Disk.makeDirectories_spec real _ making).1.grows
    rw [← (Disk.makeDirectories_spec real _ making).1.workingDirectory] at madeReal
    have before : ¬ start.isPresent (session.objectPath hash) = true := fun present =>
      standing (isDirectory_of_isPresent real present)
    have after : ¬ made.isPresent (session.objectPath hash) = true := by
      intro present
      obtain ⟨bytes, found⟩ := (opened.hasObject_of_isPresent madeReal proper present).object
      rw [fresh.empty made making _ (by simp [objectNames])] at found
      cases found
    obtain ⟨inner, innerMade, _⟩ := Disk.makeDirectories_inside session.directory _ "objects"
      opened.followed opened.standing (by decide) opened.objects_kind
    have objects := Disk.makeDirectories_child real session.directory "objects" (by decide) making
    have first := Disk.makeDirectories_child real _ (groupName hash) proper.1
      (objects.trans innerMade)
    have second := Disk.makeDirectories_child madeReal _ (groupName hash) proper.1 innerMade
    have groups := first.trans second.symm
    rw [keep, keep, if_neg before, if_neg after]
    simp only [Disk.store, objectPath, Path.parent_child]
    exact congrArg (Except.bind · _) groups

/-- Storing the records begins with making the directory of the session. -/
theorem saveManifest_eq (real : start.Real start.workingDirectory)
    (making : start.makeDirectories session.directory = .ok made) :
    session.saveManifest start = session.saveManifest made := by
  have present := (Disk.makeDirectories_spec real session.directory making).2
  rw [saveManifest, saveManifest, making, Disk.makeDirectories_of_isDirectory _ present]

/-- Nothing can be kept where the directory of the session cannot be made. -/
theorem keep_refused (real : start.Real start.workingDirectory)
    (refused : ¬ session.Usable start) (bytes : List UInt8) :
    ∃ error, session.keep start hash bytes = .error error := by
  have absent : ¬ start.isPresent (session.objectPath hash) = true := fun present =>
    refused ⟨start, Disk.makeDirectories_of_isDirectory _ (isDirectory_of_isPresent real present)⟩
  cases groups : start.makeDirectories
      ((session.directory.child "objects").child (groupName hash)) with
  | ok made =>
    obtain ⟨_, objects⟩ := Disk.makeDirectories_above real _ (groupName hash) groups
    exact absurd (Disk.makeDirectories_above real session.directory "objects" objects) refused
  | error error =>
    refine ⟨error, ?_⟩
    have parent : (session.objectPath hash).parent =
        (session.directory.child "objects").child (groupName hash) := Path.parent_child _ hash
    rw [keep, if_neg absent, Disk.store, parent, groups]
    rfl

/-- No records can be stored where the directory of the session cannot be made. -/
theorem saveManifest_refused (refused : ¬ session.Usable start) :
    ∃ error, session.saveManifest start = .error error := by
  cases making : start.makeDirectories session.directory with
  | ok made => exact absurd ⟨made, making⟩ refused
  | error error => exact ⟨error, by rw [saveManifest, making]; rfl⟩

end BackupSession

/-- The directory of a session is open, or it has not been made yet and the disk is as it
was. -/
inductive Ready (held : Set (List UInt8)) (start : Disk) (session : BackupSession) (disk : Disk) :
    Prop where
  | untouched (fresh : session.Fresh start) (same : disk = start)
  | opened (usable : session.Usable start)
      (opened : Opened held (start.resolve session.directory) session.directory disk)

namespace Ready

variable {session : BackupSession}

/-- Keeping a content fails only if the directory of the session cannot be made, and then
the disk is as it was. -/
theorem keep (ready : Ready held start session disk) (real : disk.Real disk.workingDirectory)
    (bytes : List UInt8) (member : bytes ∈ held) :
    (∃ after, session.keep disk (Sha256.hexDigest bytes) bytes = .ok after ∧
      GrowsWithin (start.resolve session.directory) disk after ∧ session.Usable start ∧
      Opened held (start.resolve session.directory) session.directory after ∧
      HasObject (start.resolve session.directory) (Sha256.hexDigest bytes) after) ∨
    ¬ session.Usable start ∧ ∃ error,
      session.keep disk (Sha256.hexDigest bytes) bytes = .error error := by
  have digits := Sha256.isName_hexDigest bytes
  have group := Sha256.isName_take_hexDigest bytes
  cases ready with
  | opened usable opened =>
    obtain ⟨after, kept, within, again, object⟩ := opened.keep real bytes member
    exact .inl ⟨after, kept, within.within, usable, again, object⟩
  | untouched fresh same =>
    subst same
    by_cases usable : session.Usable disk
    · obtain ⟨made, making⟩ := usable
      have added := (Disk.makeDirectories_spec real _ making).1
      have madeReal := real.grows added.grows
      rw [← added.workingDirectory] at madeReal
      obtain ⟨after, kept, within, again, object⟩ :=
        (fresh.opened real making).keep madeReal bytes member
      refine .inl ⟨after, ?_, (added.growsWithin _).trans within.within, ⟨made, making⟩, again,
        object⟩
      rw [fresh.keep_eq real making ⟨group.2, digits.2⟩, kept]
    · exact .inr ⟨usable, BackupSession.keep_refused real usable bytes⟩

/-- Storing the records fails only if the directory of the session cannot be made, and then
the disk is as it was. -/
theorem saveManifest (ready : Ready held start session disk)
    (real : disk.Real disk.workingDirectory) :
    (∃ after, session.saveManifest disk = .ok after ∧
      GrowsWithin (start.resolve session.directory) disk after ∧ session.Usable start ∧
      Opened held (start.resolve session.directory) session.directory after ∧
      after.read session.manifestPath =
        .ok (Text.encode (BackupSession.manifestText session.records))) ∨
    ¬ session.Usable start ∧ disk = start ∧ session.records = [] ∧
      ∃ error, session.saveManifest disk = .error error := by
  cases ready with
  | opened usable opened =>
    obtain ⟨after, saved, within, again, read⟩ := opened.saveManifest
    exact .inl ⟨after, saved, within.within, usable, again, read⟩
  | untouched fresh same =>
    subst same
    by_cases usable : session.Usable disk
    · obtain ⟨made, making⟩ := usable
      have added := (Disk.makeDirectories_spec real _ making).1
      have opened : Opened held (disk.resolve session.directory) session.directory made :=
        fresh.opened real making
      obtain ⟨after, saved, within, again, read⟩ := opened.saveManifest
      refine .inl ⟨after, ?_, (added.growsWithin _).trans within.within, ⟨made, making⟩, again,
        read⟩
      rw [BackupSession.saveManifest_eq real making, saved]
    · exact .inr ⟨usable, rfl, fresh.records, BackupSession.saveManifest_refused usable⟩

end Ready

end Conformance
