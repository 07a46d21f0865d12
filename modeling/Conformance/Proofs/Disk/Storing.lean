import Conformance.Proofs.Disk.Making

/-!
# Where files are stored

Storing replaces what has the last name of the path, a link as well. It is the place of that name
which is changed and no other file. The path leads there afterwards, unless it led through the
link that has been replaced; then it leads nowhere.
-/

namespace Conformance.Disk

variable {disk after : Disk} {path : Path} {location place : Location} {bytes : List UInt8}

/-- A place where a file is stored under a path: that of the last name, once the directories
above it are made. -/
def StoresAt (disk : Disk) (path : Path) (location : Location) : Prop :=
  ∃ made, disk.makeDirectories path.parent = .ok made ∧ made.locate path = .ok location

/-- A walk that ends at a place, or at a link before, goes the same way when a file has been put in
that place. If it went through there, it fails. -/
theorem walk_put (flat : disk.entry? location ≠ some .directory) (names : List String)
    (here : Location) (result : Walk) (walked : disk.walk false here names = result)
    (passed : ∀ fault, result ≠ .failed fault)
    (ends : ∀ other, result = .arrived other → other = location) :
    (disk.put location (.file bytes)).walk true here names = result ∨
      ∃ fault, (disk.put location (.file bytes)).walk true here names = .failed fault := by
  have below : location ≠ [] := by
    rintro rfl
    simp at flat
  induction names generalizing here with
  | nil => exact .inl walked
  | cons name rest inductionHypothesis =>
    by_cases up : name = ".."
    · simp only [walk, up, if_true] at walked ⊢
      exact inductionHypothesis _ walked
    · have entry := entry_put disk location (here ++ [name]) (.file bytes) below
      cases rest with
      | nil =>
        rw [walk_single false here name up (by simp)] at walked
        rw [if_pos (ends _ walked.symm)] at entry
        exact .inl (walked ▸ walk_single true here name up fun _ target => by simp [entry])
      | cons next more =>
        by_cases same : here ++ [name] = location
        · -- A link stood here, and the walk went through it. The file stops it.
          rw [if_pos same] at entry
          exact .inr ⟨.notDirectory, by simp [walk, up, entry]⟩
        · rw [if_neg same] at entry
          simp only [walk, up, if_false, entry] at walked ⊢
          cases standing : disk.entry? (here ++ [name]) with
          | none => exact absurd walked.symm (by simp [standing, passed])
          | some entry =>
            cases entry with
            | directory =>
              simp only [standing] at walked
              exact inductionHypothesis _ walked
            | file old => exact absurd walked.symm (by simp [standing, passed])
            | link target => exact .inl (by simpa [standing] using walked)

/-- Where a file has been put in the place of a path's last name, the path leads there or
nowhere. -/
theorem follow_put (flat : disk.entry? location ≠ some .directory)
    (located : disk.locate path = .ok location)
    (followed : (disk.put location (.file bytes)).follow path = .ok place) : place = location := by
  refine followFrom_induction
    (fun links here names =>
      (disk.put location (.file bytes)).followFrom true links here names = .ok place →
        place = location)
    ?_ ?_ linkLimit _ _ located followed
  · intro links here names walked led
    rcases walk_put flat names here _ walked (by simp) (by simp) with same | ⟨fault, failed⟩
    · rw [followFrom_arrived _ _ _ _ _ same] at led
      exact (Except.ok.inj led).symm
    · cases links <;> simp [followFrom, failed] at led
  · intro links here names directory name target rest walked inductionHypothesis led
    rcases walk_put flat names here _ walked (by simp) (by simp) with same | ⟨fault, failed⟩
    · rw [followFrom_atLink _ _ _ _ _ _ _ _ same] at led
      exact inductionHypothesis led
    · simp [followFrom, failed] at led

/-- Storing changes one file, and what is read through the path then is what has been stored. -/
theorem store_spec (stored : disk.store path bytes = .ok after) :
    ∃ location, disk.StoresAt path location ∧
      (∀ other, after.content? other =
        if other = location then some bytes else disk.content? other) ∧
      ∀ back, after.read path = .ok back → back = bytes := by
  unfold store at stored
  cases making : disk.makeDirectories path.parent with
  | error error => simp [making, Except.bind] at stored
  | ok made =>
    simp only [making, Except.bind, replace] at stored
    cases located : made.locate path with
    | error fault => simp [located] at stored
    | ok location =>
      simp only [located] at stored
      split at stored
      · cases stored
      · split at stored
        · cases stored
        · next flat =>
          obtain rfl := Except.ok.inj stored
          have below : location ≠ [] := by
            rintro rfl
            simp at flat
          have contents (other : Location) :=
            (content_put_file made location other bytes below).trans
              (congrArg _ ((makeDirectories_adds _ making).added.content other))
          refine ⟨location, ⟨made, making, located⟩, contents, ?_⟩
          intro back read
          obtain ⟨place, followed, content⟩ := (read_eq_ok path back).mp read
          rw [contents, if_pos (follow_put flat located followed)] at content
          exact (Option.some.inj content).symm

/-- Whether anything can be stored at a path depends on the disk and the path alone. If it can, every
content is stored in one place, and the path leads there unless a link stood there before. -/
theorem store_cases (disk : Disk) (path : Path) :
    (∃ error, ∀ bytes, disk.store path bytes = .error error) ∨
      ∃ location, ∀ bytes, ∃ after, disk.store path bytes = .ok after ∧
        after.content? location = some bytes ∧
          (after.follow path = .ok location ∨ ∃ target, disk.entry? location = some (.link target)) := by
  unfold store
  cases making : disk.makeDirectories path.parent with
  | error error => exact .inl ⟨error, fun _ => rfl⟩
  | ok made =>
    simp only [Except.bind, replace]
    cases located : made.locate path with
    | error fault => exact .inl ⟨⟨fault, path⟩, fun _ => rfl⟩
    | ok location =>
      dsimp only
      by_cases nameless : path.name = "" ∨ path.name = ".."
      · exact .inl ⟨⟨.busy, path⟩, fun _ => if_pos nameless⟩
      by_cases directory : made.entry? location = some .directory
      · exact .inl ⟨⟨.isDirectory, path⟩, fun _ => by rw [if_neg nameless, if_pos directory]⟩
      have steady := (makeDirectories_adds _ making).added.grows.steady
      have below : location ≠ [] := by
        rintro rfl
        exact directory rfl
      refine .inr ⟨location, fun bytes => ⟨made.put location (.file bytes), ?_, ?_, ?_⟩⟩
      · rw [if_neg nameless, if_neg directory]
      · rw [content_put_file made location location bytes below, if_pos rfl]
      · by_cases link : ∃ target, made.entry? location = some (.link target)
        · obtain ⟨target, standing⟩ := link
          exact .inr ⟨target, (steady.links location target).mp standing⟩
        · have plain := not_exists.mp link
          have grown := grows_put_file location bytes (takesFile_of_flat location directory plain)
          exact .inl (grown.follows path location (follow_of_locate path location located plain))

end Conformance.Disk
