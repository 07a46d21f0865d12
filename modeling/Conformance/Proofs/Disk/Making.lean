import Conformance.Proofs.Disk.Places
import Mathlib.Data.List.Induction

/-!
# Making directories and writing files

What the operations on a disk change. Making directories adds directories and ends with
the path leading to one; making those above first comes to the same. Writing and storing
put one file in one place, which is known where the directory of the file is.
-/

namespace Conformance

/-- A name below a path is its last one. -/
@[simp] theorem Path.name_child (path : Path) (name : String) :
    (path.child name).name = name := by
  simp [Path.name, Path.child]

/-- What is above a name below a path is that path. -/
@[simp] theorem Path.parent_child (path : Path) (name : String) :
    (path.child name).parent = path := by
  simp [Path.parent, Path.child]

namespace Disk

variable {disk made after : Disk}

/-- A path is a directory's if it leads to one. -/
theorem isDirectory_iff (path : Path) :
    disk.isDirectory path = true ↔
      ∃ location, disk.follow path = .ok location ∧
        disk.entry? location = some .directory := by
  unfold isDirectory entryAt?
  cases followed : disk.follow path with
  | error fault => simp
  | ok location => simp

/-- The last name of a path that can be followed is where the path leads, or a link. -/
theorem locate_of_follow (path : Path) (location : Location)
    (followed : disk.follow path = .ok location) :
    ∃ place, disk.locate path = .ok place ∧
      (place = location ∨ ∃ target, disk.entry? place = some (.link target)) := by
  apply followFrom_induction
    (fun links here names => ∃ place, disk.followFrom false links here names = .ok place ∧
      (place = location ∨ ∃ target, disk.entry? place = some (.link target)))
    ?_ ?_ linkLimit _ _ followed
  · intro links here names walked
    rcases walk_followLast names here with same | ⟨_, _, _, stopped, _, _⟩
    · exact ⟨location, followFrom_arrived _ _ _ _ _ (same.symm.trans walked), .inl rfl⟩
    · rw [stopped] at walked
      cases walked
  · intro links here names directory name target rest walked led
    rcases walk_followLast names here with same | ⟨place, last, aim, _, arrived, standing⟩
    · obtain ⟨place, reached, kind⟩ := led
      exact ⟨place, by rw [followFrom_atLink _ _ _ _ _ _ _ _ (same.symm.trans walked), reached], kind⟩
    · exact ⟨place ++ [last], followFrom_arrived _ _ _ _ _ arrived, .inr ⟨aim, standing⟩⟩

/-- A directory is made in an empty place. -/
theorem makeDirectory_eq_ok (path : Path) :
    disk.makeDirectory path = .ok made ↔
      ∃ location, disk.locate path = .ok location ∧ disk.entry? location = none ∧
        disk.put location .directory = made := by
  unfold makeDirectory
  cases located : disk.locate path with
  | error fault => simp
  | ok location =>
    cases standing : disk.entry? location <;> simp [standing]

/-- A directory that is there already is left as it is. -/
theorem ensureDirectory_of_isDirectory (path : Path) (present : disk.isDirectory path = true) :
    disk.ensureDirectory path = .ok disk := by
  obtain ⟨location, followed, standing⟩ := (isDirectory_iff path).mp present
  obtain ⟨place, located, kind⟩ := locate_of_follow path location followed
  have taken : ∃ entry, disk.entry? place = some entry := by
    rcases kind with rfl | ⟨target, link⟩
    · exact ⟨_, standing⟩
    · exact ⟨_, link⟩
  obtain ⟨entry, taken⟩ := taken
  simp [ensureDirectory, makeDirectory, located, taken, present]

/-- A directory that has been made sure of was there already, or it has been made in the empty
place that the path leads to. -/
theorem ensureDirectory_cases (path : Path) (ensured : disk.ensureDirectory path = .ok made) :
    made = disk ∧ disk.isDirectory path = true ∨
    ∃ location, disk.follow path = .ok location ∧ disk.entry? location = none ∧
      made = disk.put location .directory := by
  unfold ensureDirectory at ensured
  split at ensured
  · next result attempt =>
    obtain rfl : result = made := Except.ok.inj ensured
    obtain ⟨location, located, vacant, rfl⟩ := (makeDirectory_eq_ok path).mp attempt
    exact .inr ⟨location, follow_of_locate path location located (by simp [vacant]), vacant, rfl⟩
  · next error attempt =>
    split at ensured
    · next present => exact .inl ⟨(Except.ok.inj ensured).symm, present.2⟩
    · simp at ensured

/-- Once a directory has been made sure of, the path leads to one. -/
theorem isDirectory_of_ensureDirectory (path : Path)
    (ensured : disk.ensureDirectory path = .ok made) : made.isDirectory path = true := by
  rcases ensureDirectory_cases path ensured with
    ⟨rfl, present⟩ | ⟨location, followed, vacant, rfl⟩
  · exact present
  · have below : location ≠ [] := by
      rintro rfl
      simp at vacant
    refine (isDirectory_iff path).mpr ⟨location, ?_, ?_⟩
    · exact (addsDirectories_put location vacant).grows.follows path location followed
    · simp [entry_put, below]

/-- Making the directory below a path begins with that directory itself, and goes back to
the path only where a name is missing. -/
theorem makeDirectories_child_eq (path : Path) (name : String) :
    disk.makeDirectories (path.child name) =
      match disk.ensureDirectory (path.child name) with
      | .ok made => .ok made
      | .error error =>
        if error.fault = .missing then
          (disk.makeDirectories path).bind fun disk => disk.ensureDirectory (path.child name)
        else .error error := by
  have last : (path.child name).parts.reverse = name :: path.parts.reverse := by
    simp only [Path.child, List.reverse_append, List.reverse_cons, List.reverse_nil,
      List.nil_append, List.cons_append]
  have whole : (⟨path.anchor, (name :: path.parts.reverse).reverse⟩ : Path) = path.child name := by
    simp only [Path.child, List.reverse_cons, List.reverse_reverse]
  have anchored : (path.child name).anchor = path.anchor := rfl
  cases first : disk.ensureDirectory (path.child name) <;>
    simp only [makeDirectories, last, anchored, makeDirectoriesFrom, whole, first]

/-- A directory that is made is made sure of, on the disk itself or once those above it have been made. -/
theorem makeDirectories_cases {path : Path} {name : String}
    (making : disk.makeDirectories (path.child name) = .ok made) :
    disk.ensureDirectory (path.child name) = .ok made ∨
      ∃ between, disk.makeDirectories path = .ok between ∧
        between.ensureDirectory (path.child name) = .ok made := by
  rw [makeDirectories_child_eq] at making
  split at making
  · next result ensured =>
    rw [Except.ok.inj making] at ensured
    exact .inl ensured
  · split at making
    · cases above : disk.makeDirectories path with
      | error error => simp [above, Except.bind] at making
      | ok between =>
        simp only [above, Except.bind] at making
        exact .inr ⟨between, rfl, making⟩
    · simp at making

/-- The induction over the directories above a path. -/
theorem path_induction (motive : Path → Prop) (start : ∀ anchor, motive ⟨anchor, []⟩)
    (below : ∀ path name, motive path → motive (path.child name)) (path : Path) :
    motive path := by
  obtain ⟨anchor, parts⟩ := path
  induction parts using List.reverseRecOn with
  | nil => exact start anchor
  | append_singleton parts name inductionHypothesis =>
    exact below ⟨anchor, parts⟩ name inductionHypothesis

/-- Directories that are there already are left as they are. -/
theorem makeDirectories_of_isDirectory (path : Path) (present : disk.isDirectory path = true) :
    disk.makeDirectories path = .ok disk := by
  refine path_induction
    (fun path => disk.isDirectory path = true → disk.makeDirectories path = .ok disk)
    ?_ ?_ path present
  · intro anchor _
    rfl
  · intro path name _ present
    rw [makeDirectories_child_eq, ensureDirectory_of_isDirectory _ present]

/-- Directories are added to a disk along a path: each stands where a start of the path leads. -/
structure AddsAlong (path : Path) (before after : Disk) : Prop where
  added : AddsDirectories before after
  along : ∀ location, after.entry? location = before.entry? location ∨
    ∃ names, names <+: path.parts ∧ before.Resolves ⟨path.anchor, names⟩ location

/-- Nothing has been added along a path to the same disk. -/
theorem AddsAlong.refl (path : Path) (disk : Disk) : AddsAlong path disk disk :=
  ⟨.refl disk, fun _ => .inl rfl⟩

/-- Directories are added along a path in turn. -/
theorem AddsAlong.trans {path : Path} {between : Disk} (first : AddsAlong path disk between)
    (second : AddsAlong path between after) : AddsAlong path disk after := by
  refine ⟨first.added.trans second.added, ?_⟩
  intro location
  rcases second.along location with same | ⟨names, within, resolves⟩
  · rw [same]
    exact first.along location
  · exact .inr ⟨names, within, (first.added.grows.resolves_iff _ location).mp resolves⟩

/-- What is added along the start of a path is added along the path. -/
theorem AddsAlong.child {path : Path} (adds : AddsAlong path disk after) (name : String) :
    AddsAlong (path.child name) disk after := by
  refine ⟨adds.added, ?_⟩
  intro location
  rcases adds.along location with same | ⟨names, within, resolves⟩
  · exact .inl same
  · exact .inr ⟨names, within.trans (List.prefix_append _ _), resolves⟩

/-- A directory that has been made sure of is added along its path. -/
theorem ensureDirectory_adds (path : Path) (ensured : disk.ensureDirectory path = .ok made) :
    AddsAlong path disk made := by
  rcases ensureDirectory_cases path ensured with ⟨rfl, _⟩ | ⟨place, followed, vacant, rfl⟩
  · exact .refl path made
  · have below : place ≠ [] := by
      rintro rfl
      simp at vacant
    refine ⟨addsDirectories_put place vacant, ?_⟩
    intro location
    by_cases here : location = place
    · rw [here]
      exact .inr ⟨path.parts, List.prefix_refl _, resolves_of_follow path place followed⟩
    · rw [entry_put disk place location _ below, if_neg here]
      exact .inl rfl

/-- Directories that have been made are added along their path. -/
theorem makeDirectories_adds (path : Path) (making : disk.makeDirectories path = .ok made) :
    AddsAlong path disk made := by
  refine path_induction
    (fun path => ∀ made, disk.makeDirectories path = .ok made → AddsAlong path disk made)
    ?_ ?_ path made making
  · intro anchor made making
    obtain rfl : disk = made := Except.ok.inj making
    exact .refl _ disk
  · intro path name inductionHypothesis made making
    rcases makeDirectories_cases making with ensured | ⟨between, above, ensured⟩
    · exact ensureDirectory_adds _ ensured
    · exact ((inductionHypothesis between above).child name).trans (ensureDirectory_adds _ ensured)

/-- Once directories have been made, nothing else has been added, and the path leads to
one. -/
theorem makeDirectories_spec (real : disk.Real disk.workingDirectory) (path : Path)
    (making : disk.makeDirectories path = .ok made) :
    AddsDirectories disk made ∧ made.isDirectory path = true := by
  refine ⟨(makeDirectories_adds path making).added, ?_⟩
  refine path_induction (fun path => ∀ made, disk.makeDirectories path = .ok made →
    made.isDirectory path = true) ?_ ?_ path made making
  · intro anchor made making
    obtain rfl : disk = made := Except.ok.inj making
    have standing := real_origin real ⟨anchor, []⟩ _ (List.prefix_refl _)
    exact (isDirectory_iff _).mpr ⟨_, rfl, standing⟩
  · intro path name _ made making
    rcases makeDirectories_cases making with ensured | ⟨_, _, ensured⟩ <;>
      exact isDirectory_of_ensureDirectory _ ensured

/-- The directories above one that can be made can be made. -/
theorem makeDirectories_above (real : disk.Real disk.workingDirectory) (path : Path)
    (name : String) (making : disk.makeDirectories (path.child name) = .ok made) :
    ∃ between, disk.makeDirectories path = .ok between := by
  have present (found : ∃ location, disk.follow path = .ok location ∧
      disk.entry? location = some .directory) :
      ∃ between, disk.makeDirectories path = .ok between :=
    ⟨disk, makeDirectories_of_isDirectory path ((isDirectory_iff path).mpr found)⟩
  rcases makeDirectories_cases making with ensured | ⟨between, above, _⟩
  · unfold ensureDirectory at ensured
    split at ensured
    · next attempt =>
      obtain ⟨location, located, _⟩ := (makeDirectory_eq_ok _).mp attempt
      exact present (follow_of_locate_child real path name location located)
    · split at ensured
      · next child =>
        obtain ⟨location, followed, _⟩ := (isDirectory_iff _).mp child.2
        exact present (follow_of_follow_child real path name location followed)
      · simp at ensured
  · exact ⟨between, above⟩

/-- Making the directories above first and then the one below comes to the same as making
them at once.

Where the directory above was missing, the one below it was refused for that reason: any
other refusal would have lasted. -/
theorem makeDirectories_child (real : disk.Real disk.workingDirectory) (path : Path)
    (name : String) (down : name ≠ "..") (making : disk.makeDirectories path = .ok made) :
    disk.makeDirectories (path.child name) = made.makeDirectories (path.child name) := by
  by_cases standing : disk.isDirectory path = true
  · rw [makeDirectories_of_isDirectory path standing] at making
    rw [Except.ok.inj making]
  · obtain ⟨added, present⟩ := makeDirectories_spec real path making
    obtain ⟨location, followed, directory⟩ := (isDirectory_iff path).mp present
    have reached : made.locate (path.child name) = .ok (location ++ [name]) :=
      locate_child path location name followed directory down
    have after : made.makeDirectories (path.child name) =
        made.ensureDirectory (path.child name) := by
      rw [makeDirectories_child_eq]
      unfold ensureDirectory makeDirectory
      rw [reached]
      cases child : made.entry? (location ++ [name]) with
      | none => simp [child]
      | some entry =>
        by_cases also : made.isDirectory (path.child name) = true <;> simp [child, also]
    have missing : disk.locate (path.child name) = .error .missing := by
      cases located : disk.locate (path.child name) with
      | ok place =>
        exact absurd ((isDirectory_iff path).mpr
          (follow_of_locate_child real path name place located)) standing
      | error fault =>
        by_cases other : fault = .missing
        · rw [other]
        · rw [added.grows.refuses _ fault other located] at reached
          simp at reached
    have before : disk.ensureDirectory (path.child name) =
        .error ⟨.missing, path.child name⟩ := by
      simp [ensureDirectory, makeDirectory, missing]
    rw [makeDirectories_child_eq, before, making, after]
    rfl

/-- In a directory, one more is made in an empty place. -/
theorem makeDirectories_in (path : Path) (location : Location) (name : String)
    (followed : disk.follow path = .ok location)
    (standing : disk.entry? location = some .directory) (down : name ≠ "..")
    (vacant : disk.entry? (location ++ [name]) = none) :
    disk.makeDirectories (path.child name) = .ok (disk.put (location ++ [name]) .directory) := by
  have located : disk.locate (path.child name) = .ok (location ++ [name]) :=
    locate_child path location name followed standing down
  simp [makeDirectories_child_eq, ensureDirectory, makeDirectory, located, vacant]

/-- In a directory, one more is made sure of where nothing else stands. -/
theorem makeDirectories_inside (path : Path) (location : Location) (name : String)
    (followed : disk.follow path = .ok location)
    (standing : disk.entry? location = some .directory) (down : name ≠ "..")
    (kind : disk.entry? (location ++ [name]) = none ∨
      disk.entry? (location ++ [name]) = some .directory) :
    ∃ made, disk.makeDirectories (path.child name) = .ok made ∧ AddsDirectories disk made ∧
      made.follow (path.child name) = .ok (location ++ [name]) ∧
      made.entry? (location ++ [name]) = some .directory ∧
      ∀ other, other ≠ location ++ [name] → made.entry? other = disk.entry? other := by
  rcases kind with vacant | present
  · have added := addsDirectories_put (location ++ [name]) vacant
    have made := entry_put disk (location ++ [name]) (location ++ [name]) .directory (by simp)
    rw [if_pos rfl] at made
    refine ⟨_, makeDirectories_in path location name followed standing down vacant, added, ?_,
      made, ?_⟩
    · exact follow_child path location name (added.grows.follows path location followed)
        (added.grows.directories location standing) down (by simp [made])
    · intro other apart
      rw [entry_put disk _ other _ (by simp), if_neg apart]
  · have reached := follow_child path location name followed standing down (by simp [present])
    have directory := (isDirectory_iff (path.child name)).mpr ⟨_, reached, present⟩
    exact ⟨disk, makeDirectories_of_isDirectory _ directory, .refl disk, reached, present,
      fun _ _ => rfl⟩

/-- A walk from a real directory that follows the last name does not arrive at a link. -/
theorem walk_plain (names : List String) (here location : Location) (real : disk.Real here)
    (walked : disk.walk true here names = .arrived location) :
    ∀ target, disk.entry? location ≠ some (.link target) := by
  induction names generalizing here with
  | nil =>
    obtain rfl : here = location := by simpa [walk] using walked
    simp [real here (List.prefix_refl here)]
  | cons name rest inductionHypothesis =>
    by_cases up : name = ".."
    · simp only [walk, up, if_true] at walked
      exact inductionHypothesis _ (real.above (List.dropLast_prefix here)) walked
    · simp only [walk, up, if_false] at walked
      cases standing : disk.entry? (here ++ [name]) with
      | none => cases rest <;> simp_all
      | some entry =>
        cases entry with
        | directory =>
          simp only [standing] at walked
          exact inductionHypothesis _ (real.child name standing) walked
        | file bytes => cases rest <;> simp_all
        | link target => simp [standing] at walked

/-- A path that can be followed does not lead to a link. -/
theorem follow_plain (real : disk.Real disk.workingDirectory) (path : Path)
    (location : Location) (followed : disk.follow path = .ok location) :
    ∀ target, disk.entry? location ≠ some (.link target) := by
  refine followFrom_induction
    (fun _ here _ => disk.Real here → ∀ target, disk.entry? location ≠ some (.link target))
    ?_ ?_ linkLimit _ _ followed (real_origin real path)
  · intro _ here names walked real
    exact walk_plain names here location real walked
  · intro _ here names directory name target rest walked led real
    exact led (real_targetOrigin ((walk_real true names here real).2 _ _ _ _ walked) target)

/-- Bytes are written to the place that a path leads to. -/
theorem write_eq_ok (path : Path) (bytes : List UInt8) :
    disk.write path bytes = .ok after ↔
      ∃ location, disk.follow path = .ok location ∧
        disk.entry? location ≠ some .directory ∧
          disk.put location (.file bytes) = after := by
  unfold write
  cases followed : disk.follow path with
  | error fault => simp
  | ok location =>
    by_cases directory : disk.entry? location = some .directory <;> simp [directory]

/-- A place that is neither a directory nor a link is empty or holds a file. -/
theorem takesFile_of_flat (location : Location) (flat : disk.entry? location ≠ some .directory)
    (plain : ∀ target, disk.entry? location ≠ some (.link target)) :
    disk.TakesFile location := by
  unfold TakesFile
  cases standing : disk.entry? location with
  | none => exact .inl rfl
  | some entry =>
    cases entry with
    | directory => exact absurd standing flat
    | file bytes => exact .inr ⟨bytes, rfl⟩
    | link target => exact absurd standing (plain target)

/-- A file can be written in the place of a file. -/
theorem write_of_content (path : Path) (location : Location) (old bytes : List UInt8)
    (followed : disk.follow path = .ok location) (content : disk.content? location = some old) :
    disk.write path bytes = .ok (disk.put location (.file bytes)) := by
  rw [write_eq_ok]
  exact ⟨location, followed, by simp [(content_eq_some location old).mp content], rfl⟩

/-- Bytes that are put in the place of a file are read through the paths that lead to it. -/
theorem read_put (path : Path) (location : Location) (old bytes : List UInt8)
    (followed : disk.follow path = .ok location) (content : disk.content? location = some old) :
    (disk.put location (.file bytes)).read path = .ok bytes := by
  have standing := (content_eq_some location old).mp content
  have below : location ≠ [] := by
    rintro rfl
    cases standing
  have grown := grows_put_file location bytes (.inr ⟨old, standing⟩)
  refine (read_eq_ok path bytes).mpr ⟨location, grown.follows path location followed, ?_⟩
  rw [content_put_file disk location location bytes below, if_pos rfl]

/-- What has been written through a path is read through it. -/
theorem read_of_write (real : disk.Real disk.workingDirectory) (path : Path) (bytes : List UInt8)
    (written : disk.write path bytes = .ok after) : after.read path = .ok bytes := by
  obtain ⟨location, followed, flat, rfl⟩ := (write_eq_ok path bytes).mp written
  have takes := takesFile_of_flat location flat (follow_plain real path location followed)
  refine (read_eq_ok path bytes).mpr
    ⟨location, (grows_put_file location bytes takes).follows path location followed, ?_⟩
  rw [content_put_file disk location location bytes takes.below, if_pos rfl]

/-- In a directory, a file is stored under its name. -/
theorem store_in (path : Path) (location : Location) (name : String) (bytes : List UInt8)
    (followed : disk.follow path = .ok location)
    (standing : disk.entry? location = some .directory) (named : Path.IsName name)
    (down : name ≠ "..") (flat : disk.entry? (location ++ [name]) ≠ some .directory) :
    disk.store (path.child name) bytes = .ok (disk.put (location ++ [name]) (.file bytes)) := by
  have present : disk.isDirectory path = true :=
    (isDirectory_iff path).mpr ⟨location, followed, standing⟩
  have located : disk.locate (path.child name) = .ok (location ++ [name]) :=
    locate_child path location name followed standing down
  simp [store, makeDirectories_of_isDirectory path present, Except.bind, replace, located,
    named.1, down, flat]

/-- Storing a file begins with the directories above it. -/
theorem store_child (real : disk.Real disk.workingDirectory) (path : Path) (name : String)
    (bytes : List UInt8) (making : disk.makeDirectories path = .ok made) :
    disk.store (path.child name) bytes = made.store (path.child name) bytes := by
  have present := (makeDirectories_spec real path making).2
  have again := makeDirectories_of_isDirectory path present
  simp [store, making, again, Except.bind]

/-- A file is stored at its location in a real directory. -/
theorem store_path {location : Location} (named : location.Named) (below : location ≠ [])
    (real : disk.Real location.dropLast) (flat : disk.entry? location ≠ some .directory)
    (bytes : List UInt8) :
    disk.store location.path bytes = .ok (disk.put location (.file bytes)) := by
  obtain ⟨parent, name, rfl⟩ := (List.eq_nil_or_concat location).resolve_left below
  rw [List.concat_eq_append] at named real flat ⊢
  rw [List.dropLast_concat] at real
  have upper : Location.Named parent := fun other member => named other (by simp [member])
  have last := named name (by simp)
  have standing := real parent (List.prefix_refl parent)
  have followed : disk.follow (Location.path parent) = .ok parent :=
    follow_path upper (real.above (List.dropLast_prefix parent)) (by simp [standing])
  exact store_in (Location.path parent) parent name bytes followed standing last.1 last.2 flat

end Disk

end Conformance
