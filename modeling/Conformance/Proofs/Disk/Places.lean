import Conformance.Disk.Access
import Conformance.Proofs.Disk.Resolving
import Conformance.Proofs.Disk.Written

/-!
# Resolved places

A resolved path has no link on its way, and its names are the names of a disk. So it is
read back from its text, it leads to itself if it leads anywhere, and reading it tells the
content of the file that stands there.
-/

namespace Conformance

/-- The names of a location are names of entries: they can stand in a path, and none of
them leads upwards. -/
def Location.Named (location : Location) : Prop :=
  ∀ name ∈ location, Path.IsName name ∧ name ≠ ".."

instance (location : Location) : Decidable location.Named :=
  inferInstanceAs (Decidable (∀ name ∈ location, _ ∧ _))

/-- The path of a location is written. -/
theorem Location.Named.written {location : Location} (named : location.Named) :
    location.path.Written :=
  ⟨by simp [Location.path], fun name member => (named name member).1⟩

/-- The path of a location is read back from its text. -/
theorem Location.Named.ofString_text {location : Location} (named : location.Named) :
    Path.ofString location.path.text = location.path :=
  Path.ofString_text _ named.written

/-- Texts tell locations apart. -/
theorem Location.Named.text_injective {left right : Location} (first : left.Named)
    (second : right.Named) (same : left.path.text = right.path.text) : left = right := by
  have paths : left.path = right.path := by
    rw [← first.ofString_text, same, second.ofString_text]
  exact congrArg Path.parts paths

namespace Disk

variable {disk before after : Disk}

/-- What every disk is like on which paths are written: the working directory is a real
directory with names for its names, and so are the names in the targets of links. -/
structure WellFormed (disk : Disk) : Prop where
  real : disk.Real disk.workingDirectory
  named : disk.workingDirectory.Named
  targets : ∀ location target, disk.entry? location = some (.link target) → target.Written

/-- It is enough to look at the targets of the links that are listed. -/
theorem wellFormed_iff (disk : Disk) :
    disk.WellFormed ↔ disk.Real disk.workingDirectory ∧ disk.workingDirectory.Named ∧
      ∀ item ∈ disk.entries, ∀ target ∈ (match disk.entry? item.1 with
        | some (.link target) => [target]
        | _ => []), target.Written := by
  constructor
  · rintro ⟨real, named, targets⟩
    refine ⟨real, named, ?_⟩
    intro item _ target member
    apply targets item.1 target
    split at member
    · next other standing => rw [standing, List.mem_singleton.mp member]
    · simp at member
  · rintro ⟨real, named, targets⟩
    refine ⟨real, named, ?_⟩
    intro location target standing
    have below : location ≠ [] := by
      rintro rfl
      cases standing
    have listed := mem_of_entry location _ below standing
    exact targets _ listed target (by simp [standing])

instance (disk : Disk) : Decidable disk.WellFormed :=
  decidable_of_iff' _ (wellFormed_iff disk)

/-- A steady disk stays well formed. -/
theorem WellFormed.steady (formed : before.WellFormed) (steady : Steady before after) :
    after.WellFormed where
  real := by
    rw [steady.workingDirectory]
    exact formed.real.steady steady
  named := by
    rw [steady.workingDirectory]
    exact formed.named
  targets location target standing :=
    formed.targets location target ((steady.links location target).mp standing)

/-- Growth keeps a disk well formed. -/
theorem WellFormed.grows (formed : before.WellFormed) (grown : Grows before after) :
    after.WellFormed :=
  formed.steady grown.steady

/-- There is no link on the way to a location, and none at its end. -/
def Linkless (disk : Disk) (location : Location) : Prop :=
  ∀ above, above <+: location → ∀ target, disk.entry? above ≠ some (.link target)

/-- A real directory is reached without links. -/
theorem Real.linkless {location : Location} (real : disk.Real location) :
    disk.Linkless location := by
  intro above within target
  simp [real above within]

/-- The start of a way without links has no link on it. -/
theorem Linkless.above {location upper : Location} (linkless : disk.Linkless location)
    (within : upper <+: location) : disk.Linkless upper :=
  fun above further => linkless above (further.trans within)

/-- The place that names denote is reached without links. -/
theorem Leads.linkless {here location : Location} {names : List String} {links : Nat}
    (led : disk.Leads here names links location) (clear : disk.Linkless here) :
    disk.Linkless location := by
  induction led with
  | here location => exact clear
  | up here rest links location _ inductionHypothesis =>
    exact inductionHypothesis (clear.above (List.dropLast_prefix here))
  | down here name rest links location _ plain _ inductionHypothesis =>
    apply inductionHypothesis
    intro above within
    rcases List.prefix_concat_iff.mp within with rfl | within
    · exact plain
    · exact clear above within
  | through here name target rest inner links place location _ _ _ _
      insideHypothesis behindHypothesis =>
    apply behindHypothesis
    apply insideHypothesis
    unfold targetOrigin
    split
    · exact (real_top disk).linkless
    · exact clear

/-- The place that names denote has the names of entries. -/
theorem Leads.named {here location : Location} {names : List String} {links : Nat}
    (led : disk.Leads here names links location) (formed : disk.WellFormed)
    (start : here.Named) (written : ∀ name ∈ names, Path.IsName name) : location.Named := by
  induction led with
  | here location => exact start
  | up here rest links location _ inductionHypothesis =>
    apply inductionHypothesis
    · intro name member
      exact start name ((List.dropLast_prefix here).subset member)
    · intro name member
      exact written name (List.mem_cons_of_mem _ member)
  | down here name rest links location down _ _ inductionHypothesis =>
    apply inductionHypothesis
    · intro other member
      rcases List.mem_append.mp member with member | member
      · exact start other member
      · obtain rfl := List.mem_singleton.mp member
        exact ⟨written other List.mem_cons_self, down⟩
    · intro other member
      exact written other (List.mem_cons_of_mem _ member)
  | through here name target rest inner links place location _ standing _ _
      insideHypothesis behindHypothesis =>
    apply behindHypothesis
    · apply insideHypothesis
      · unfold targetOrigin
        split
        · intro other member
          simp at member
        · exact start
      · exact (formed.targets _ target standing).2
    · intro other member
      exact written other (List.mem_cons_of_mem _ member)

/-- A resolved place is reached without links. -/
theorem WellFormed.resolves_linkless (formed : disk.WellFormed) {path : Path}
    {location : Location} (resolves : disk.Resolves path location) :
    disk.Linkless location := by
  obtain ⟨links, led⟩ := (resolves_iff path location).mp resolves
  exact led.linkless (real_origin formed.real path).linkless

/-- A resolved place has the names of entries. -/
theorem WellFormed.resolves_named (formed : disk.WellFormed) {path : Path}
    {location : Location} (written : path.Written) (resolves : disk.Resolves path location) :
    location.Named := by
  obtain ⟨links, led⟩ := (resolves_iff path location).mp resolves
  apply led.named formed _ written.2
  unfold origin
  split
  · intro name member
    simp at member
  · exact formed.named

/-- A walk down a way without links arrives at its end, or it fails. -/
theorem walk_linkless (followLast : Bool) (names : List String) (here : Location)
    (down : ∀ name ∈ names, name ≠ "..") (clear : disk.Linkless (here ++ names)) :
    disk.walk followLast here names = .arrived (here ++ names) ∨
      ∃ fault, disk.walk followLast here names = .failed fault := by
  induction names generalizing here with
  | nil => exact .inl (by simp [walk])
  | cons name rest inductionHypothesis =>
    have first : name ≠ ".." := down name List.mem_cons_self
    have plain : ∀ target, disk.entry? (here ++ [name]) ≠ some (.link target) := by
      apply clear
      exact ⟨rest, by simp⟩
    simp only [walk, first, if_false]
    cases standing : disk.entry? (here ++ [name]) with
    | none => cases rest <;> simp
    | some entry =>
      cases entry with
      | directory =>
        have onward := inductionHypothesis (here ++ [name])
          (fun other member => down other (List.mem_cons_of_mem _ member))
          (by simpa using clear)
        simpa using onward
      | file bytes => cases rest <;> simp
      | link target => exact absurd standing (plain target)

/-- A walk down real directories arrives. The last name may be missing, and it may be a
link, if the last name is not to be followed. -/
theorem walk_down (followLast : Bool) (names : List String) (here : Location)
    (down : ∀ name ∈ names, name ≠ "..") (real : disk.Real (here ++ names).dropLast)
    (plain : followLast = true → ∀ target, disk.entry? (here ++ names) ≠ some (.link target)) :
    disk.walk followLast here names = .arrived (here ++ names) := by
  induction names generalizing here with
  | nil => simp [walk]
  | cons name rest inductionHypothesis =>
    have first : name ≠ ".." := down name List.mem_cons_self
    simp only [walk, first, if_false]
    cases rest with
    | nil =>
      cases standing : disk.entry? (here ++ [name]) with
      | none => simp
      | some entry =>
        cases entry with
        | directory => simp [walk]
        | file bytes => simp
        | link target =>
          cases followLast with
          | false => simp
          | true => exact absurd standing (plain rfl target)
    | cons next more =>
      have standing : disk.entry? (here ++ [name]) = some .directory := by
        apply real
        have split : here ++ name :: next :: more = (here ++ [name]) ++ (next :: more) := by simp
        rw [split, List.dropLast_append_of_ne_nil (by simp)]
        exact List.prefix_append _ _
      have onward := inductionHypothesis (here ++ [name])
        (fun other member => down other (List.mem_cons_of_mem _ member))
        (by simpa using real) (by simpa using plain)
      simpa [standing] using onward

/-- The path of a location without links leads nowhere else. -/
theorem follow_place {location place : Location} (named : location.Named)
    (clear : disk.Linkless location) (followed : disk.follow location.path = .ok place) :
    place = location := by
  change disk.followFrom true linkLimit [] location = .ok place at followed
  rcases walk_linkless true location [] (fun name member => (named name member).2) clear with
    arrived | ⟨fault, failed⟩
  · rw [followFrom_arrived _ _ _ _ _ arrived] at followed
    exact (Except.ok.inj followed).symm
  · simp [linkLimit, followFrom, failed] at followed

/-- The path of a location in a real directory leads to it, unless it is a link. -/
theorem follow_path {location : Location} (named : location.Named)
    (real : disk.Real location.dropLast)
    (plain : ∀ target, disk.entry? location ≠ some (.link target)) :
    disk.follow location.path = .ok location :=
  followFrom_arrived _ _ _ _ _
    (walk_down true location [] (fun name member => (named name member).2) real fun _ => plain)

/-- A path is read if it leads to a file. -/
theorem read_eq_ok (path : Path) (bytes : List UInt8) :
    disk.read path = .ok bytes ↔
      ∃ location, disk.follow path = .ok location ∧ disk.content? location = some bytes := by
  unfold read content?
  cases followed : disk.follow path with
  | error fault => simp
  | ok location =>
    cases standing : disk.entry? location with
    | none => simp [standing]
    | some entry => cases entry <;> simp [standing]

/-- A file that is present can be read. -/
theorem read_of_isFile (path : Path) (present : disk.isFile path = true) :
    ∃ bytes, disk.read path = .ok bytes := by
  unfold isFile entryAt? at present
  cases followed : disk.follow path with
  | error fault => simp [followed] at present
  | ok location =>
    cases standing : disk.entry? location with
    | none => simp [followed, standing] at present
    | some entry =>
      cases entry with
      | file bytes => exact ⟨bytes, by simp [read, followed, standing]⟩
      | directory => simp [followed, standing] at present
      | link target => simp [followed, standing] at present

/-- A file that can be read is present. -/
theorem isFile_of_read (path : Path) (bytes : List UInt8)
    (found : disk.read path = .ok bytes) : disk.isFile path = true := by
  obtain ⟨location, followed, content⟩ := (read_eq_ok path bytes).mp found
  have standing := (content_eq_some location bytes).mp content
  simp [isFile, entryAt?, followed, standing]

/-- A file that is present stays present on a grown disk. -/
theorem Grows.isFile (grown : Grows before after) (path : Path)
    (present : before.isFile path = true) : after.isFile path = true := by
  obtain ⟨bytes, read⟩ := read_of_isFile path present
  obtain ⟨location, followed, content⟩ := (read_eq_ok path bytes).mp read
  have standing := (content_eq_some location bytes).mp content
  obtain ⟨current, still⟩ := grown.files location bytes standing
  have again := grown.follows path location followed
  exact isFile_of_read path current ((read_eq_ok path current).mpr
    ⟨location, again, (content_eq_some location current).mpr still⟩)

/-- The path of a place without links is read if a file stands there in a real directory. -/
theorem read_place {location : Location} (real : disk.Real disk.workingDirectory)
    (named : location.Named) (clear : disk.Linkless location) (bytes : List UInt8) :
    disk.read location.path = .ok bytes ↔
      disk.content? location = some bytes ∧ disk.Real location.dropLast := by
  rw [read_eq_ok]
  constructor
  · rintro ⟨place, followed, content⟩
    obtain rfl := follow_place named clear followed
    exact ⟨content, follow_real real _ _ followed⟩
  · rintro ⟨content, parent⟩
    exact ⟨location, follow_path named parent (clear location (List.prefix_refl location)), content⟩

end Disk

end Conformance
