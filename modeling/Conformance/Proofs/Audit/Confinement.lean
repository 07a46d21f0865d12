import Conformance.Proofs.Audit.Scanning
import Conformance.Proofs.Disk.Places

/-!
# Where a scan stays

The walk below an included directory passes no link, so it stays below the place where it begins
and finds each file once. Where it begins is another matter: of the names that lead there only the
last is looked at. A scan stays below its root, and finds each file once, exactly if the included
directories keep it there and none of them leads into another.
-/

namespace Conformance

/-- The entries of a disk have names. -/
def Disk.Named (disk : Disk) : Prop := ∀ item ∈ disk.entries, Location.Named item.1

instance (disk : Disk) : Decidable disk.Named :=
  inferInstanceAs (Decidable (∀ item ∈ disk.entries, Location.Named item.1))

/-- No entry is named like the way upwards. -/
theorem Disk.Named.down {disk : Disk} (named : disk.Named) {location : Location} {name : String}
    {entry : Entry} (standing : disk.entry? (location ++ [name]) = some entry) : name ≠ ".." := by
  have listed := Disk.mem_of_entry _ entry (by simp) standing
  exact (named _ listed name (by simp)).2

namespace Audit

variable {disk : Disk} {config : ScanConfig} {location : Location} {names : List String}
  {bytes : List UInt8}

/-- Names lead from a directory to one that is walked with it. -/
inductive WalkedBelow (disk : Disk) (config : ScanConfig) : Location → List String → Prop where
  | here (location : Location) : WalkedBelow disk config location []
  | deeper {location : Location} {name : String} {names : List String}
      (standing : disk.entry? (location ++ [name]) = some .directory)
      (kept : name ∉ config.excludeDirectories)
      (walked : WalkedBelow disk config (location ++ [name]) names) :
      WalkedBelow disk config location (name :: names)

/-- The first name of a longer way to a file leads to a directory that is walked. -/
theorem foundBelow_cons_iff (further : names ≠ []) (name : String) :
    FoundBelow disk config location (name :: names) bytes ↔
      disk.entry? (location ++ [name]) = some .directory ∧ name ∉ config.excludeDirectories ∧
        FoundBelow disk config (location ++ [name]) names bytes := by
  constructor
  · intro found
    cases found with
    | file standing wanted => exact absurd rfl further
    | deeper standing kept found => exact ⟨standing, kept, found⟩
  · rintro ⟨standing, kept, found⟩
    exact .deeper standing kept found

/-- A way to a file leads through directories that are walked, and on from there. -/
theorem foundBelow_append_iff (further : names ≠ []) (upper : List String) :
    FoundBelow disk config location (upper ++ names) bytes ↔
      WalkedBelow disk config location upper ∧
        FoundBelow disk config (location ++ upper) names bytes := by
  induction upper generalizing location with
  | nil =>
    rw [List.nil_append, List.append_nil]
    exact ⟨fun found => ⟨.here location, found⟩, And.right⟩
  | cons name upper inductionHypothesis =>
    have longer : upper ++ names ≠ [] := by simp [further]
    have place : location ++ name :: upper = location ++ [name] ++ upper := by simp
    rw [List.cons_append, foundBelow_cons_iff longer, inductionHypothesis, place]
    constructor
    · rintro ⟨standing, kept, walked, found⟩
      exact ⟨.deeper standing kept walked, found⟩
    · rintro ⟨walked, found⟩
      cases walked with
      | deeper standing kept walked => exact ⟨standing, kept, walked, found⟩

/-- A path leads to a directory that is walked from where it leads to one. -/
theorem WalkedBelow.follow (walked : WalkedBelow disk config location names) (named : disk.Named)
    (start : Path) (followed : disk.follow start = .ok location)
    (standing : disk.entry? location = some .directory) :
    disk.follow (start.below names) = .ok (location ++ names) ∧
      disk.entry? (location ++ names) = some .directory := by
  induction walked generalizing start with
  | here location => simpa [Path.below] using ⟨followed, standing⟩
  | deeper inside kept walked inductionHypothesis =>
    have down := named.down inside
    have onward := Disk.follow_child start _ _ followed standing down (by simp [inside])
    simpa using inductionHypothesis (start.child _) onward inside

/-- No directory that is walked is a link. -/
theorem WalkedBelow.isLink (walked : WalkedBelow disk config location names) (named : disk.Named)
    (below : names ≠ []) (start : Path) (followed : disk.follow start = .ok location)
    (standing : disk.entry? location = some .directory) :
    disk.isLink (start.below names) = false := by
  induction walked generalizing start with
  | here location => exact absurd rfl below
  | @deeper location name names inside kept walked inductionHypothesis =>
    have down := named.down inside
    by_cases last : names = []
    · have located := Disk.locate_child start location name followed standing down
      have single : start.below [name] = start.child name := rfl
      simp [last, single, Disk.isLink, located, inside]
    · have onward := Disk.follow_child start _ _ followed standing down (by simp [inside])
      simpa using inductionHypothesis last (start.child name) onward inside

/-- A path leads to a file that is found below where it leads. -/
theorem FoundBelow.follow (found : FoundBelow disk config location names bytes)
    (named : disk.Named) (start : Path) (followed : disk.follow start = .ok location)
    (standing : disk.entry? location = some .directory) :
    disk.follow (start.below names) = .ok (location ++ names) := by
  induction found generalizing start with
  | file inside wanted =>
    exact Disk.follow_child start _ _ followed standing (named.down inside) (by simp [inside])
  | deeper inside kept found inductionHypothesis =>
    have onward := Disk.follow_child start _ _ followed standing (named.down inside) (by simp [inside])
    simpa using inductionHypothesis (start.child _) onward inside

/-- A path stands for the place of the file that is found with it. -/
theorem FoundBelow.resolve (found : FoundBelow disk config location names bytes)
    (named : disk.Named) (start : Path) (begins : Begins disk start location) :
    disk.resolve (start.below names) = location ++ names :=
  (Disk.resolves_of_follow _ _ (found.follow named start begins.2.1 begins.2.2)).resolve

/-- A path stands for a place below the root, and no directory between them is a link. -/
structure Confined (disk : Disk) (top : Location) (path : Path) : Prop where
  inside : top <+: disk.resolve path
  linkless : ∀ upper, upper ≠ [] → top ++ upper <+: path.parts.dropLast →
    disk.isLink (Location.path (top ++ upper)) = false

/-- A found file is confined if its place is below the root and no directory on the way to where
the walk begins is a link. -/
theorem FoundBelow.confined_iff (found : FoundBelow disk config location names bytes)
    (named : disk.Named) (top : Location) (start : Path) (absolute : start.anchor = "/")
    (begins : Begins disk start location) :
    Confined disk top (start.below names) ↔
      top <+: location ++ names ∧ ∀ upper, upper ≠ [] → top ++ upper <+: start.parts →
        disk.isLink (Location.path (top ++ upper)) = false := by
  have place := found.resolve named start begins
  obtain ⟨_, followed, standing⟩ := begins
  have above : (start.below names).parts.dropLast = start.parts ++ names.dropLast := by
    rw [Path.parts_below, List.dropLast_append_of_ne_nil found.ne_nil]
  constructor
  · rintro ⟨inside, linkless⟩
    rw [place] at inside
    rw [above] at linkless
    exact ⟨inside, fun upper below within =>
      linkless upper below (within.trans (List.prefix_append _ _))⟩
  · rintro ⟨inside, linkless⟩
    refine ⟨place ▸ inside, ?_⟩
    intro upper below within
    rw [above] at within
    rcases List.prefix_or_prefix_of_prefix within (List.prefix_append _ names.dropLast) with
      short | ⟨passed, reached⟩
    · exact linkless upper below short
    · by_cases here : passed = []
      · subst here
        rw [List.append_nil] at reached
        exact linkless upper below (reached ▸ List.prefix_refl _)
      · -- The walk has passed this directory.
        rw [← reached, List.prefix_append_right_inj] at within
        obtain ⟨rest, split⟩ := within
        have whole : passed ++ (rest ++ [names.getLast found.ne_nil]) = names := by
          rw [← List.append_assoc, split, List.dropLast_append_getLast]
        have walked := ((foundBelow_append_iff (by simp) passed).mp (whole ▸ found)).1
        have path : Location.path (top ++ upper) = start.below passed := by
          rw [Location.path, Path.below, absolute, reached]
        rw [path]
        exact walked.isLink named here start followed standing

/-- Where an included directory begins. -/
def startOf (top : Location) (directory : String) : Path :=
  top.path.join (.ofString directory)

/-- What is found below an included directory is below the root, and no directory on the way to the
included one is a link. -/
def Stays (disk : Disk) (config : ScanConfig) (top : Location) (directory : String) : Prop :=
  ∀ location names bytes, Begins disk (startOf top directory) location →
    FoundBelow disk config location names bytes →
      top <+: location ++ names ∧ ∀ upper, upper ≠ [] →
        top ++ upper <+: (startOf top directory).parts →
          disk.isLink (Location.path (top ++ upper)) = false

/-- A place is walked from another one, and something is found there. -/
def WalkedFrom (disk : Disk) (config : ScanConfig) (location place : Location) : Prop :=
  ∃ names, place = location ++ names ∧ WalkedBelow disk config location names ∧
    ∃ others bytes, FoundBelow disk config place others bytes

/-- One of two included directories is walked from the other, and something is found there. -/
def Overlap (disk : Disk) (config : ScanConfig) (top : Location) (directory other : String) : Prop :=
  ∃ location place, Begins disk (startOf top directory) location ∧
    Begins disk (startOf top other) place ∧
      (WalkedFrom disk config location place ∨ WalkedFrom disk config place location)

/-- Two places where walks begin have a file in common exactly if one is walked from the other. -/
theorem common_iff (location place : Location) :
    (∃ names others bytes more, FoundBelow disk config location names bytes ∧
      FoundBelow disk config place others more ∧ location ++ names = place ++ others) ↔
      WalkedFrom disk config location place ∨ WalkedFrom disk config place location := by
  constructor
  · rintro ⟨names, others, bytes, more, found, again, same⟩
    rcases List.append_eq_append_iff.mp same with ⟨upper, rfl, rfl⟩ | ⟨upper, rfl, rfl⟩
    · obtain ⟨walked, _⟩ := (foundBelow_append_iff again.ne_nil upper).mp found
      exact .inl ⟨upper, rfl, walked, others, more, again⟩
    · obtain ⟨walked, _⟩ := (foundBelow_append_iff found.ne_nil upper).mp again
      exact .inr ⟨upper, rfl, walked, names, bytes, found⟩
  · rintro (⟨upper, rfl, walked, names, bytes, found⟩ | ⟨upper, rfl, walked, names, bytes, found⟩)
    · exact ⟨upper ++ names, names, bytes, bytes,
        (foundBelow_append_iff found.ne_nil upper).mpr ⟨walked, found⟩, found, by simp⟩
    · exact ⟨names, upper ++ names, bytes, bytes, found,
        (foundBelow_append_iff found.ne_nil upper).mpr ⟨walked, found⟩, by simp⟩

/-- Files are told with the paths that have been found, which are written below the root. -/
theorem paths_of_scanned {top : Path} {found : List (Path × Nat)} {files : List ScannedFile}
    (told : List.Forall₂ (fun found file => scanned top found = .ok file) found files) :
    files.map (·.path) = found.map Prod.fst ∧ ∀ item ∈ found, item.1.anchor = top.anchor := by
  induction told with
  | nil => simp
  | cons first others inductionHypothesis =>
    obtain ⟨names, path, rfl⟩ := (scanned_eq_ok _ _ _).mp first
    refine ⟨?_, List.forall_mem_cons.mpr ⟨?_, inductionHypothesis.2⟩⟩
    · rw [List.map_cons, List.map_cons, inductionHypothesis.1, path, fileBelow]
    · rw [path, Path.below]

/-- What is found below an included directory is confined exactly if the directory keeps the scan
below the root. -/
theorem confined_filesOf_iff (distinct : disk.Distinct) (named : disk.Named) (top : Location)
    (directory : String) (absolute : ∀ found ∈ filesOf disk config (startOf top directory),
      found.1.anchor = "/") :
    (∀ found ∈ filesOf disk config (startOf top directory), Confined disk top found.1) ↔
      Stays disk config top directory := by
  constructor
  · intro confined location names bytes begins below
    have member := (mem_filesOf distinct (startOf top directory) _).mpr
      ⟨location, names, bytes, begins, below, rfl⟩
    exact (below.confined_iff named top (startOf top directory) (absolute _ member) begins).mp
      (confined _ member)
  · intro stays found member
    have anchor := absolute found member
    obtain ⟨location, names, bytes, begins, below, rfl⟩ := (mem_filesOf distinct _ _).mp member
    exact (below.confined_iff named top (startOf top directory) anchor begins).mpr
      (stays location names bytes begins below)

/-- The places that are found below two included directories differ exactly if neither directory is
walked from the other. -/
theorem apart_iff (distinct : disk.Distinct) (named : disk.Named) (top : Location)
    (directory other : String) :
    (∀ found ∈ filesOf disk config (startOf top directory),
      ∀ next ∈ filesOf disk config (startOf top other), disk.resolve found.1 ≠ disk.resolve next.1) ↔
    ¬ Overlap disk config top directory other := by
  constructor
  · rintro apart ⟨location, other, begins, again, walked⟩
    obtain ⟨names, others, bytes, more, below, further, same⟩ := (common_iff location other).mpr walked
    refine apart _ ((mem_filesOf distinct _ _).mpr ⟨location, names, bytes, begins, below, rfl⟩) _
      ((mem_filesOf distinct _ _).mpr ⟨other, others, more, again, further, rfl⟩) ?_
    rw [below.resolve named _ begins, further.resolve named _ again, same]
  · intro apart found member next among same
    obtain ⟨location, names, bytes, begins, below, rfl⟩ := (mem_filesOf distinct _ _).mp member
    obtain ⟨other, others, more, again, further, rfl⟩ := (mem_filesOf distinct _ _).mp among
    rw [below.resolve named _ begins, further.resolve named _ again] at same
    exact apart ⟨location, other, begins, again,
      (common_iff location other).mp ⟨names, others, bytes, more, below, further, same⟩⟩

/-- The places that are found below one included directory differ. -/
theorem pairwise_resolve_filesOf (distinct : disk.Distinct) (named : disk.Named) (start : Path) :
    (filesOf disk config start).Pairwise fun found other =>
      disk.resolve found.1 ≠ disk.resolve other.1 := by
  refine (pairwise_filesOf distinct start).imp_of_mem ?_
  intro found other member among before same
  obtain ⟨location, names, bytes, begins, below, rfl⟩ := (mem_filesOf distinct _ _).mp member
  obtain ⟨place, others, more, again, further, rfl⟩ := (mem_filesOf distinct _ _).mp among
  obtain rfl := begins.unique again
  rw [below.resolve named start begins, further.resolve named start again] at same
  exact before.ne (congrArg (start.parts ++ ·) (List.append_cancel_left same))

/-- A scan stays below its root and finds every file once exactly if every included directory keeps
it there and none of them is walked from another one. -/
theorem scan_confined_iff (disk : Disk) (config : ScanConfig) (root : Path)
    (files : List ScannedFile) (distinct : disk.Distinct) (named : disk.Named)
    (scans : scan disk config root = .ok files) :
    ((∀ file ∈ files, Confined disk (disk.resolve root) file.path) ∧
      (files.map fun file => disk.resolve file.path).Nodup) ↔
    ((∀ directory ∈ config.includeDirectories, Stays disk config (disk.resolve root) directory) ∧
      config.includeDirectories.Pairwise fun directory other =>
        ¬ Overlap disk config (disk.resolve root) directory other) := by
  let found := config.includeDirectories.flatMap fun directory =>
    filesOf disk config (startOf (disk.resolve root) directory)
  rw [scan, mapM_eq_ok] at scans
  obtain ⟨paths, anchors⟩ : files.map (·.path) = found.map Prod.fst ∧
      ∀ item ∈ found, item.1.anchor = "/" := paths_of_scanned scans
  have confined : (∀ file ∈ files, Confined disk (disk.resolve root) file.path) ↔
      ∀ directory ∈ config.includeDirectories, Stays disk config (disk.resolve root) directory := by
    have listed : (∀ file ∈ files, Confined disk (disk.resolve root) file.path) ↔
        ∀ item ∈ found, Confined disk (disk.resolve root) item.1 := by
      rw [← List.forall_mem_map (P := Confined disk (disk.resolve root)), paths, List.forall_mem_map]
    rw [listed, List.forall_mem_flatMap]
    refine forall₂_congr fun directory member => ?_
    apply confined_filesOf_iff distinct named
    exact fun item among => anchors item (List.mem_flatMap.mpr ⟨directory, member, among⟩)
  have apart : (files.map fun file => disk.resolve file.path).Nodup ↔
      config.includeDirectories.Pairwise fun directory other =>
        ¬ Overlap disk config (disk.resolve root) directory other := by
    have places : (files.map fun file => disk.resolve file.path) =
        found.map fun item => disk.resolve item.1 := by
      have resolved := congrArg (List.map disk.resolve) paths
      rwa [List.map_map, List.map_map] at resolved
    have each : ∀ directory ∈ config.includeDirectories,
        (filesOf disk config (startOf (disk.resolve root) directory)).Pairwise fun item other =>
          disk.resolve item.1 ≠ disk.resolve other.1 :=
      fun directory _ => pairwise_resolve_filesOf distinct named _
    rw [places, List.Nodup, List.pairwise_map, List.pairwise_flatMap]
    simp only [apart_iff distinct named]
    exact and_iff_right each
  rw [confined, apart]

/-- A project with a link that leads out of it. -/
def leakyDisk : Disk :=
  ⟨[], [(["p"], .directory), (["p", "l"], .link (.ofString "../o")), (["o"], .directory),
    (["o", "s"], .directory), (["o", "s", "a.ts"], .file [97])]⟩

/-- Through a link before the last name the included directory leads out of the project. -/
theorem scan_confined_iff_leaky :
    ¬ Stays leakyDisk ⟨["l/s"], [], [".ts"]⟩ (leakyDisk.resolve (.ofString "/p")) "l/s" := by
  let config : ScanConfig := ⟨["l/s"], [], [".ts"]⟩
  let file : ScannedFile := ⟨.ofString "/p/l/s/a.ts", "l/s/a.ts", ".ts", 1⟩
  have scans : scan leakyDisk config (.ofString "/p") = .ok [file] := by rfl
  have both := scan_confined_iff leakyDisk config (.ofString "/p") [file] (by decide) (by decide) scans
  intro stays
  have confined := (both.mpr ⟨by simpa [config] using stays, List.pairwise_singleton _ _⟩).1
  exact absurd (confined file (by simp)).inside (by decide)

/-- A directory that is included twice through a link is scanned outside the root, and twice. -/
theorem scan_leaves_root :
    ∃ files, scan leakyDisk ⟨["l/s", "l/s"], [], [".ts"]⟩ (.ofString "/p") = .ok files ∧
      (∃ file ∈ files, ¬ Confined leakyDisk (leakyDisk.resolve (.ofString "/p")) file.path) ∧
      ¬ (files.map fun file => leakyDisk.resolve file.path).Nodup := by
  let file : ScannedFile := ⟨.ofString "/p/l/s/a.ts", "l/s/a.ts", ".ts", 1⟩
  refine ⟨[file, file], by rfl, ⟨file, by simp, ?_⟩, by decide⟩
  intro confined
  exact absurd confined.inside (by decide)

/-- Under a resolved root an included directory with an ordinary name begins in its own place. -/
theorem begins_ordinary (formed : disk.WellFormed) {root : Path} (written : root.Written)
    {top : Location} (settled : disk.Resolves root top) {name : String}
    (ordinary : Path.IsName name ∧ name ≠ "..") {location : Location}
    (begins : Begins disk (startOf top name) location) :
    startOf top name = top.path.child name ∧ location = top ++ [name] := by
  have start : startOf top name = top.path.child name := join_ofString _ name ordinary.1
  rw [start] at begins
  obtain ⟨plain, followed, _⟩ := begins
  obtain ⟨parent, above, standing⟩ := Disk.follow_of_follow_child formed.real _ name location followed
  obtain rfl := Disk.follow_place (formed.resolves_named written settled)
    (formed.resolves_linkless settled) above
  have located := Disk.locate_child _ parent name above standing ordinary.2
  have flat : ∀ target, disk.entry? (parent ++ [name]) ≠ some (.link target) := by
    intro target link
    simp [Disk.isLink, located, link] at plain
  have direct := Disk.follow_child _ parent name above standing ordinary.2 flat
  exact ⟨start, Except.ok.inj (followed.symm.trans direct)⟩

/-- A scan of included directories with different ordinary names stays below its root and finds
every file once. -/
theorem scan_confined_of_ordinary (disk : Disk) (config : ScanConfig) (root : Path)
    (files : List ScannedFile) (formed : disk.WellFormed) (distinct : disk.Distinct)
    (named : disk.Named) (written : root.Written)
    (settled : disk.Resolves root (disk.resolve root))
    (ordinary : ∀ name ∈ config.includeDirectories, Path.IsName name ∧ name ≠ "..")
    (different : config.includeDirectories.Nodup) (scans : scan disk config root = .ok files) :
    (∀ file ∈ files, Confined disk (disk.resolve root) file.path) ∧
      (files.map fun file => disk.resolve file.path).Nodup := by
  apply (scan_confined_iff disk config root files distinct named scans).mpr
  constructor
  · intro name member location names bytes begins _
    obtain ⟨start, rfl⟩ := begins_ordinary formed written settled (ordinary name member) begins
    refine ⟨by simp [List.append_assoc], ?_⟩
    intro upper filled within
    rw [start] at begins within
    -- The only directory on the way is the included one.
    obtain ⟨first, rest, rfl⟩ := List.exists_cons_of_ne_nil filled
    have alone := (List.prefix_append_right_inj _).mp within
    obtain ⟨rfl, short⟩ := List.cons_prefix_cons.mp alone
    rw [List.prefix_nil.mp short]
    exact begins.1
  · refine different.imp_of_mem ?_
    rintro name other member among apart ⟨location, place, begins, again, walked⟩
    obtain ⟨_, rfl⟩ := begins_ordinary formed written settled (ordinary name member) begins
    obtain ⟨_, rfl⟩ := begins_ordinary formed written settled (ordinary other among) again
    rcases walked with ⟨names, same, _⟩ | ⟨names, same, _⟩
    · rw [List.append_assoc] at same
      exact apart (List.cons.inj (List.append_cancel_left same)).1.symm
    · rw [List.append_assoc] at same
      exact apart (List.cons.inj (List.append_cancel_left same)).1

end Audit

end Conformance
