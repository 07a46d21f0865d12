import Conformance.Proofs.Backup.Recording

/-!
# Changes from outside

Files outside the home of a session may come, go and change while it is at work. What it has
kept stays where it is then, and so do the places in which its files can be put back. A session
that has kept nothing yet stays unused.
-/

namespace Conformance

variable {disk before between after : Disk} {home location : Location}
  {held : Set (List UInt8)} {session : BackupSession} {hash : String}

/-- Only files outside a place have come, gone or changed. -/
structure AltersFiles (home : Location) (before after : Disk) : Prop where
  workingDirectory : after.workingDirectory = before.workingDirectory
  entries : ∀ location, after.entry? location = before.entry? location ∨
    ¬ home <+: location ∧ before.TakesFile location ∧ after.TakesFile location

namespace AltersFiles

/-- Nothing has changed on the same disk. -/
theorem refl (home : Location) (disk : Disk) : AltersFiles home disk disk :=
  ⟨rfl, fun _ => .inl rfl⟩

/-- A place takes a file as before. -/
theorem takesFile (alters : AltersFiles home before after) (takes : before.TakesFile location) :
    after.TakesFile location := by
  rcases alters.entries location with same | ⟨_, _, again⟩
  · unfold Disk.TakesFile
    rw [same]
    exact takes
  · exact again

/-- Changes go on. -/
theorem trans (first : AltersFiles home before between) (second : AltersFiles home between after) :
    AltersFiles home before after := by
  refine ⟨second.workingDirectory.trans first.workingDirectory, ?_⟩
  intro location
  rcases first.entries location with same | ⟨apart, takes, again⟩
  · rcases second.entries location with kept | ⟨apart, takes, again⟩
    · exact .inl (kept.trans same)
    · refine .inr ⟨apart, ?_, again⟩
      unfold Disk.TakesFile at takes ⊢
      rwa [← same]
  · exact .inr ⟨apart, takes, second.takesFile again⟩

/-- Paths keep their meaning. -/
theorem steady (alters : AltersFiles home before after) : before.Steady after where
  workingDirectory := alters.workingDirectory
  links location target := by
    rcases alters.entries location with same | ⟨_, vacant | ⟨_, old⟩, absent | ⟨_, new⟩⟩ <;>
      simp_all
  directories location standing := by
    rcases alters.entries location with same | ⟨_, vacant | ⟨_, old⟩, _⟩ <;> simp_all

/-- What stands below the place stays as it is. -/
theorem inside (alters : AltersFiles home before after) (names : List String) :
    after.entry? (home ++ names) = before.entry? (home ++ names) := by
  rcases alters.entries (home ++ names) with same | ⟨apart, _⟩
  · exact same
  · exact absurd (List.prefix_append home names) apart

/-- A file is put in an outside place that takes one. -/
theorem put (apart : ¬ home <+: location) (takes : disk.TakesFile location) (bytes : List UInt8) :
    AltersFiles home disk (disk.put location (.file bytes)) := by
  refine ⟨rfl, ?_⟩
  intro other
  have entry := Disk.entry_put disk location other (.file bytes) takes.below
  by_cases here : other = location
  · subst here
    rw [if_pos rfl] at entry
    exact .inr ⟨apart, takes, .inr ⟨bytes, entry⟩⟩
  · rw [if_neg here] at entry
    exact .inl entry

/-- Writing to an outside file changes only that. -/
theorem write (real : disk.Real disk.workingDirectory) (path : Path) (bytes : List UInt8)
    (apart : ∀ location, disk.follow path = .ok location → ¬ home <+: location)
    (written : disk.write path bytes = .ok after) : AltersFiles home disk after := by
  obtain ⟨location, followed, flat, rfl⟩ := (Disk.write_eq_ok path bytes).mp written
  exact put (apart location followed)
    (Disk.takesFile_of_flat location flat (Disk.follow_plain real path location followed)) bytes

end AltersFiles

/-- A disk without the regular file that a path leads to, if there is one. -/
def Disk.deleteFile (disk : Disk) (path : Path) : Disk :=
  match disk.follow path with
  | .error _ => disk
  | .ok location =>
    if (disk.content? location).isSome then
      { disk with entries := disk.entries.filter (·.1 ≠ location) }
    else disk

/-- What is taken out of a list of entries is not found there, and the others are. -/
theorem lookup_filter_ne (location other : Location) (entries : List (Location × Entry)) :
    (entries.filter (·.1 ≠ location)).lookup other =
      if other = location then none else entries.lookup other := by
  induction entries with
  | nil => simp
  | cons first rest inductionHypothesis =>
    obtain ⟨place, entry⟩ := first
    by_cases gone : place = location
    · subst gone
      rw [List.filter_cons_of_neg (by simp), inductionHypothesis]
      by_cases same : other = place
      · simp [same]
      · have passed : (other == place) = false := beq_eq_false_iff_ne.mpr same
        simp [same, List.lookup_cons, passed]
    · rw [List.filter_cons_of_pos (by simpa using gone), List.lookup_cons, List.lookup_cons,
        inductionHypothesis]
      by_cases here : other = place
      · subst here
        simp [gone]
      · have passed : (other == place) = false := beq_eq_false_iff_ne.mpr here
        simp [passed]

/-- Deleting an outside file changes only that. -/
theorem AltersFiles.delete (disk : Disk) (path : Path)
    (apart : ∀ location, disk.follow path = .ok location → ¬ home <+: location) :
    AltersFiles home disk (disk.deleteFile path) := by
  unfold Disk.deleteFile
  cases followed : disk.follow path with
  | error fault => exact refl home disk
  | ok location =>
    simp only
    split
    · next present =>
      obtain ⟨bytes, content⟩ := Option.isSome_iff_exists.mp present
      have standing := (Disk.content_eq_some location bytes).mp content
      refine ⟨rfl, ?_⟩
      intro other
      by_cases top : other = []
      · exact .inl (by simp [top])
      · rw [Disk.entry_below _ other top, Disk.entry_below disk other top, lookup_filter_ne]
        by_cases here : other = location
        · subst here
          refine .inr ⟨apart other followed, .inr ⟨bytes, standing⟩, .inl ?_⟩
          rw [Disk.entry_below _ other top, lookup_filter_ne, if_pos rfl]
        · exact .inl (if_neg here)
    · exact refl home disk

/-- An open directory stays open. -/
theorem Opened.alters {directory : Path} (opened : Opened held home directory before)
    (alters : AltersFiles home before after) : Opened held home directory after := by
  refine opened.steady alters.steady ?_
  intro names entry _ standing
  rw [alters.inside] at standing
  exact .inl standing

/-- A file that can be put back can still be put back after changes from outside. -/
theorem Recoverable.alters (recoverable : Recoverable home before location hash)
    (alters : AltersFiles home before after) : Recoverable home after location hash where
  named := recoverable.named
  apart := recoverable.apart
  real := recoverable.real.steady alters.steady
  place := alters.takesFile recoverable.place
  object := by
    obtain ⟨objects, group, object⟩ := recoverable.object
    exact ⟨by rwa [alters.inside], by rwa [alters.inside],
      by simpa only [alters.inside] using object⟩

/-- A file that can be put back can still be put back when the home of the session has grown. -/
theorem Recoverable.grows (recoverable : Recoverable home before location hash)
    (steps : GrowsBelow home before after) : Recoverable home after location hash where
  named := recoverable.named
  apart := recoverable.apart
  real := recoverable.real.grows steps.grown
  place := by
    unfold Disk.TakesFile
    rw [steps.others location recoverable.apart]
    exact recoverable.place
  object := recoverable.object.grows steps.grown

namespace BackupSession

/-- A session that has kept nothing yet: nothing stands below its directory, whether that has
been made or not, and its path does not lead through a place below it. -/
structure Unused (session : BackupSession) (disk : Disk) : Prop where
  records : session.records = []
  written : session.directory.Written
  bare : ∀ home, disk.Resolves session.directory home → ∀ names, names ≠ [] →
    disk.entry? (home ++ names) = none
  direct : ∀ home, disk.Resolves session.directory home →
    ∀ upper, upper <+: session.directory.parts → ∀ names, names ≠ [] →
      ¬ disk.Resolves ⟨session.directory.anchor, upper⟩ (home ++ names)

/-- A session is unused if nothing is listed below its directory and no start of its path resolves
to a place there. -/
theorem unused_iff (session : BackupSession) (disk : Disk) :
    session.Unused disk ↔ session.records = [] ∧ session.directory.Written ∧
      (disk.Resolves session.directory (disk.resolve session.directory) →
        (∀ item ∈ disk.entries, disk.resolve session.directory <+: item.1 →
          item.1 = disk.resolve session.directory) ∧
        ∀ upper ∈ session.directory.parts.inits,
          disk.Resolves ⟨session.directory.anchor, upper⟩
            (disk.resolve ⟨session.directory.anchor, upper⟩) →
          disk.resolve session.directory <+: disk.resolve ⟨session.directory.anchor, upper⟩ →
            disk.resolve ⟨session.directory.anchor, upper⟩ = disk.resolve session.directory) := by
  simp only [← Disk.bare_iff, List.mem_inits]
  constructor
  · rintro ⟨records, written, bare, direct⟩
    refine ⟨records, written, fun resolves => ⟨bare _ resolves, ?_⟩⟩
    rintro upper within led ⟨names, inside⟩
    by_contra other
    have filled : names ≠ [] := by
      rintro rfl
      exact other (by simpa using inside.symm)
    rw [← inside] at led
    exact direct _ resolves upper within names filled led
  · rintro ⟨records, written, settled⟩
    refine ⟨records, written, ?_, ?_⟩
    · intro home resolves
      obtain rfl := resolves.resolve
      exact (settled resolves).1
    · intro home resolves upper within names filled led
      obtain rfl := resolves.resolve
      have place := led.resolve
      have same := (settled resolves).2 upper within (place.symm ▸ led)
        (place.symm ▸ List.prefix_append _ _)
      exact filled (by simpa using place.symm.trans same)

instance (session : BackupSession) (disk : Disk) : Decidable (session.Unused disk) :=
  decidable_of_iff' _ (unused_iff session disk)

/-- An unused session is fresh: what is made along the path of its directory is not below it. -/
theorem Unused.fresh (unused : session.Unused disk) (real : disk.Real disk.workingDirectory) :
    session.Fresh disk where
  records := unused.records
  written := unused.written
  empty made making names filled := by
    obtain ⟨added, present⟩ := Disk.makeDirectories_spec real session.directory making
    obtain ⟨place, followed, _⟩ := (Disk.isDirectory_iff session.directory).mp present
    have resolves := (added.grows.resolves_iff session.directory place).mp
      (Disk.resolves_of_follow session.directory place followed)
    rw [resolves.resolve]
    rcases (Disk.makeDirectories_adds session.directory making).along (place ++ names) with
      same | ⟨upper, within, led⟩
    · rw [same]
      exact unused.bare place resolves names filled
    · exact absurd led (unused.direct place resolves upper within names filled)

/-- A session stays unused while files outside its directory change. -/
theorem Unused.alters (unused : session.Unused before)
    (only : ∀ place, before.Resolves session.directory place → place = home)
    (alters : AltersFiles home before after) : session.Unused after where
  records := unused.records
  written := unused.written
  bare place resolves names filled := by
    rw [alters.steady.resolves_iff] at resolves
    rw [only place resolves, alters.inside, ← only place resolves]
    exact unused.bare place resolves names filled
  direct place resolves upper within names filled := by
    rw [alters.steady.resolves_iff] at resolves ⊢
    exact unused.direct place resolves upper within names filled

end BackupSession

end Conformance
