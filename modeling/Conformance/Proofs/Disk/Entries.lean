import Conformance.Disk.Walk
import Mathlib.Data.List.Infix
import Mathlib.Data.List.Nodup

/-!
# Entries and growth of a disk

An entry that is put on a disk stands at its own location and leaves every other one as it
was. The regular files of a disk are read off by their contents.

A disk grows when directories stay directories, files stay files with whatever content, and
no link comes, goes or changes. Everything that a session does makes its disk grow, so
paths keep their meaning: that is what the later modules draw from growth. Where files are
taken away from outside, the disk is steady at least, and paths still keep their meaning.
-/

namespace Conformance.Disk

variable {disk before between after : Disk}

/-- The top is a directory on every disk. -/
@[simp] theorem entry_top (disk : Disk) : disk.entry? [] = some .directory := rfl

/-- Below the top an entry is the first that is listed for its location. -/
theorem entry_below (disk : Disk) (location : Location) (below : location ≠ []) :
    disk.entry? location = disk.entries.lookup location := if_neg below

/-- Below the top, something stands only where it is listed. -/
theorem mem_of_entry (location : Location) (entry : Entry) (below : location ≠ [])
    (standing : disk.entry? location = some entry) : (location, entry) ∈ disk.entries := by
  rw [entry_below disk location below] at standing
  obtain ⟨earlier, later, split, _⟩ := List.lookup_eq_some_iff.mp standing
  simp [split]

/-- Nothing stands below a place if nothing is listed there. -/
theorem bare_iff (disk : Disk) (place : Location) :
    (∀ names, names ≠ [] → disk.entry? (place ++ names) = none) ↔
      ∀ item ∈ disk.entries, place <+: item.1 → item.1 = place := by
  constructor
  · rintro bare item listed ⟨names, inside⟩
    by_contra other
    have filled : names ≠ [] := by
      rintro rfl
      exact other (by simpa using inside.symm)
    have vacant := bare names filled
    rw [inside, entry_below _ _ (by rw [← inside]; simp [filled])] at vacant
    simpa using List.lookup_eq_none_iff.mp vacant item listed
  · intro bare names filled
    cases standing : disk.entry? (place ++ names) with
    | none => rfl
    | some entry =>
      have listed := mem_of_entry _ entry (by simp [filled]) standing
      exact absurd (by simpa using bare _ listed (List.prefix_append _ _)) filled

/-- A put entry is found at its location; the others are found as before. The induction
follows the search for the place of the entry. -/
theorem lookup_putEntry (location other : Location) (entry : Entry)
    (entries : List (Location × Entry)) :
    (putEntry location entry entries).lookup other =
      if other = location then some entry else entries.lookup other := by
  induction entries with
  | nil =>
    by_cases same : other = location
    · simp [putEntry, same]
    · have passed : (other == location) = false := beq_eq_false_iff_ne.mpr same
      simp [putEntry, List.lookup_cons, passed, same]
  | cons first rest inductionHypothesis =>
    obtain ⟨standing, old⟩ := first
    by_cases found : standing = location
    · subst found
      by_cases same : other = standing
      · simp [putEntry, same]
      · have passed : (other == standing) = false := beq_eq_false_iff_ne.mpr same
        simp [putEntry, List.lookup_cons, passed, same]
    · by_cases here : other = standing
      · subst here
        simp [putEntry, found]
      · have passed : (other == standing) = false := beq_eq_false_iff_ne.mpr here
        simp [putEntry, found, List.lookup_cons, passed, inductionHypothesis]

/-- What stands on a disk after an entry has been put below the top. -/
theorem entry_put (disk : Disk) (location other : Location) (entry : Entry)
    (below : location ≠ []) :
    Disk.entry? (disk.put location entry) other =
      if other = location then some entry else disk.entry? other := by
  by_cases top : other = []
  · subst top
    simp [below.symm]
  · simp [ entry?, top, put, lookup_putEntry]

/-- The content of the regular file at a location, if there is one. -/
def content? (disk : Disk) (location : Location) : Option (List UInt8) :=
  match disk.entry? location with
  | some (.file bytes) => some bytes
  | _ => none

/-- A content is that of a file. -/
theorem content_eq_some (location : Location) (bytes : List UInt8) :
    disk.content? location = some bytes ↔ disk.entry? location = some (.file bytes) := by
  unfold content?
  split <;> simp_all

/-- A content is found where it is put, and the others stay. -/
theorem content_put_file (disk : Disk) (location other : Location) (bytes : List UInt8)
    (below : location ≠ []) :
    (disk.put location (.file bytes)).content? other =
      if other = location then some bytes else disk.content? other := by
  unfold content?
  rw [entry_put disk location other _ below]
  by_cases same : other = location <;> simp [same]

/-- A place where a file can stand: there is nothing or a file. -/
def TakesFile (disk : Disk) (location : Location) : Prop :=
  disk.entry? location = none ∨ ∃ old, disk.entry? location = some (.file old)

/-- The top takes no file. -/
theorem TakesFile.below {location : Location} (takes : disk.TakesFile location) :
    location ≠ [] := by
  rintro rfl
  simp [TakesFile] at takes

/-- One disk has grown into another. -/
structure Grows (before after : Disk) : Prop where
  workingDirectory : after.workingDirectory = before.workingDirectory
  links : ∀ location target,
    after.entry? location = some (.link target) ↔ before.entry? location = some (.link target)
  directories : ∀ location,
    before.entry? location = some .directory → after.entry? location = some .directory
  files : ∀ location bytes, before.entry? location = some (.file bytes) →
    ∃ current, after.entry? location = some (.file current)

/-- A disk has grown into itself. -/
theorem Grows.refl (disk : Disk) : Grows disk disk where
  workingDirectory := rfl
  links _ _ := Iff.rfl
  directories _ standing := standing
  files _ bytes standing := ⟨bytes, standing⟩

/-- Growth goes on. -/
theorem Grows.trans (first : Grows before between) (second : Grows between after) :
    Grows before after where
  workingDirectory := second.workingDirectory.trans first.workingDirectory
  links location target := (second.links location target).trans (first.links location target)
  directories location standing := second.directories location (first.directories location standing)
  files location bytes standing := by
    obtain ⟨current, between⟩ := first.files location bytes standing
    exact second.files location current between

/-- One disk has become another on which paths keep their meaning: directories stay directories,
and no link comes, goes or changes. Files may come and go. -/
structure Steady (before after : Disk) : Prop where
  workingDirectory : after.workingDirectory = before.workingDirectory
  links : ∀ location target,
    after.entry? location = some (.link target) ↔ before.entry? location = some (.link target)
  directories : ∀ location,
    before.entry? location = some .directory → after.entry? location = some .directory

/-- A disk is steady itself. -/
theorem Steady.refl (disk : Disk) : Steady disk disk := ⟨rfl, fun _ _ => Iff.rfl, fun _ => id⟩

/-- A disk that is steady in turn is steady. -/
theorem Steady.trans (first : Steady before between) (second : Steady between after) :
    Steady before after where
  workingDirectory := second.workingDirectory.trans first.workingDirectory
  links location target := (second.links location target).trans (first.links location target)
  directories location standing := second.directories location (first.directories location standing)

/-- A growing disk is steady. -/
theorem Grows.steady (grown : Grows before after) : Steady before after :=
  ⟨grown.workingDirectory, grown.links, grown.directories⟩

/-- A file in an empty place, or in the place of a file, makes a disk grow. -/
theorem grows_put_file (location : Location) (bytes : List UInt8)
    (place : disk.TakesFile location) : Grows disk (disk.put location (.file bytes)) := by
  have below := place.below
  refine ⟨rfl, ?_, ?_, ?_⟩
  · intro other target
    rw [entry_put disk location other _ below]
    by_cases same : other = location
    · rcases place with vacant | ⟨old, standing⟩ <;> simp_all
    · simp [same]
  · intro other standing
    rw [entry_put disk location other _ below]
    by_cases same : other = location
    · rcases place with vacant | ⟨old, taken⟩ <;> simp_all
    · simp [same, standing]
  · intro other old standing
    rw [entry_put disk location other _ below]
    by_cases same : other = location <;> simp [same, standing]

/-- Only directories have been added to a disk, each in an empty place. -/
structure AddsDirectories (before after : Disk) : Prop where
  workingDirectory : after.workingDirectory = before.workingDirectory
  entries : ∀ location, after.entry? location = before.entry? location ∨
    before.entry? location = none ∧ after.entry? location = some .directory

/-- Nothing has been added to a disk itself. -/
theorem AddsDirectories.refl (disk : Disk) : AddsDirectories disk disk :=
  ⟨rfl, fun _ => .inl rfl⟩

/-- Directories are added in turn. -/
theorem AddsDirectories.trans (first : AddsDirectories before between)
    (second : AddsDirectories between after) : AddsDirectories before after := by
  refine ⟨second.workingDirectory.trans first.workingDirectory, ?_⟩
  intro location
  rcases first.entries location with same | ⟨vacant, made⟩
  · rw [← same]
    exact second.entries location
  · rcases second.entries location with kept | ⟨absent, _⟩
    · exact .inr ⟨vacant, kept.trans made⟩
    · simp [made] at absent

/-- A directory that is put in an empty place is added. -/
theorem addsDirectories_put (location : Location) (vacant : disk.entry? location = none) :
    AddsDirectories disk (disk.put location .directory) := by
  have below : location ≠ [] := by
    rintro rfl
    simp at vacant
  refine ⟨rfl, ?_⟩
  intro other
  rw [entry_put disk location other _ below]
  by_cases same : other = location
  · exact .inr (by simp [same, vacant])
  · exact .inl (by simp [same])

/-- Added directories are growth. -/
theorem AddsDirectories.grows (added : AddsDirectories before after) : Grows before after where
  workingDirectory := added.workingDirectory
  links location target := by
    rcases added.entries location with same | ⟨vacant, made⟩
    · rw [same]
    · simp [vacant, made]
  directories location standing := by
    rcases added.entries location with same | ⟨vacant, _⟩
    · rw [same, standing]
    · simp [vacant] at standing
  files location bytes standing := by
    rcases added.entries location with same | ⟨vacant, _⟩
    · exact ⟨bytes, by rw [same, standing]⟩
    · simp [vacant] at standing

/-- Added directories leave the content of every file as it was. -/
theorem AddsDirectories.content (added : AddsDirectories before after) (location : Location) :
    after.content? location = before.content? location := by
  unfold content?
  rcases added.entries location with same | ⟨vacant, made⟩
  · rw [same]
  · rw [vacant, made]

/-- A location whose names are all directories. -/
def Real (disk : Disk) (location : Location) : Prop :=
  ∀ above, above <+: location → disk.entry? above = some .directory

instance (disk : Disk) (location : Location) : Decidable (disk.Real location) :=
  decidable_of_iff (∀ above ∈ location.inits, disk.entry? above = some .directory) (by
    simp [Real])

/-- The top is a real directory. -/
theorem real_top (disk : Disk) : disk.Real [] := by
  intro above within
  rw [List.prefix_nil.mp within]
  rfl

/-- What is above a real directory is one. -/
theorem Real.above {location upper : Location} (real : disk.Real location)
    (within : upper <+: location) : disk.Real upper :=
  fun above further => real above (further.trans within)

/-- A directory in a real directory is real. -/
theorem Real.child {location : Location} (real : disk.Real location) (name : String)
    (standing : disk.entry? (location ++ [name]) = some .directory) :
    disk.Real (location ++ [name]) := by
  intro above within
  rcases List.prefix_concat_iff.mp within with rfl | within
  · exact standing
  · exact real above within

/-- Real directories stay real on a steady disk. -/
theorem Real.steady {location : Location} (real : before.Real location)
    (steady : Steady before after) : after.Real location :=
  fun above within => steady.directories above (real above within)

/-- Real directories stay real. -/
theorem Real.grows {location : Location} (real : before.Real location)
    (grown : Grows before after) : after.Real location :=
  real.steady grown.steady

end Conformance.Disk

/-!
## What stands in a directory

On a disk on which every entry has its own location, the names that are listed for a directory
are all different, and listed with each is what stands at its place.
-/

namespace Conformance.Disk

variable {disk : Disk}

/-- No location is taken by two entries. -/
def Distinct (disk : Disk) : Prop := (disk.entries.map Prod.fst).Nodup

instance (disk : Disk) : Decidable disk.Distinct := inferInstanceAs (Decidable (List.Nodup _))

/-- A listed entry is the one that stands at its location. -/
theorem Distinct.entry_of_mem (distinct : disk.Distinct) {location : Location} {entry : Entry}
    (below : location ≠ []) (listed : (location, entry) ∈ disk.entries) :
    disk.entry? location = some entry := by
  rw [entry_below disk location below, List.lookup_eq_some_iff]
  obtain ⟨earlier, later, split⟩ := List.append_of_mem listed
  refine ⟨earlier, later, split, ?_⟩
  intro item member
  have apart : (disk.entries.map Prod.fst).Nodup := distinct
  rw [split, List.map_append, List.nodup_append] at apart
  have other := apart.2.2 item.1 (List.mem_map_of_mem member) location (by simp)
  simpa using Ne.symm other

/-- Names are listed for a directory with what stands at their places. -/
theorem Distinct.mem_children (distinct : disk.Distinct) (location : Location) (name : String)
    (entry : Entry) :
    (name, entry) ∈ disk.children location ↔ disk.entry? (location ++ [name]) = some entry := by
  rw [children, List.mem_filterMap]
  constructor
  · rintro ⟨⟨other, found⟩, listed, told⟩
    simp only at told
    split at told
    · next inside =>
      obtain ⟨rfl, rfl⟩ := Prod.mk.inj (Option.some.inj told)
      have split : location ++ [other.getLast?.getD ""] = other := by
        rw [← inside.2, List.getLast?_eq_some_getLast inside.1, Option.getD_some,
          List.dropLast_append_getLast]
      rw [split]
      exact distinct.entry_of_mem inside.1 listed
    · cases told
  · intro standing
    exact ⟨(location ++ [name], entry), mem_of_entry _ entry (by simp) standing, by simp⟩

/-- The names that are listed for a directory are all different. -/
theorem Distinct.nodup_children (distinct : disk.Distinct) (location : Location) :
    ((disk.children location).map Prod.fst).Nodup := by
  have apart : disk.entries.Pairwise fun item other => item.1 ≠ other.1 := by
    have listed : (disk.entries.map Prod.fst).Nodup := distinct
    rwa [List.Nodup, List.pairwise_map] at listed
  rw [children, List.Nodup, List.pairwise_map, List.pairwise_filterMap]
  refine apart.imp ?_
  rintro ⟨place, entry⟩ ⟨other, found⟩ differ item told thing said same
  simp only at told said
  split at told
  · next inside =>
    split at said
    · next within =>
      obtain rfl := Option.some.inj told
      obtain rfl := Option.some.inj said
      apply differ
      have whole (names : Location) (filled : names ≠ []) (parent : names.dropLast = location) :
          location ++ [names.getLast?.getD ""] = names := by
        rw [← parent, List.getLast?_eq_some_getLast filled, Option.getD_some,
          List.dropLast_append_getLast]
      simp only at same
      rw [← whole place inside.1 inside.2, ← whole other within.1 within.2, same]
    · cases said
  · cases told

end Conformance.Disk
