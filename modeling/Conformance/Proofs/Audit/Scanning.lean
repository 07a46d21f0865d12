import Conformance.Audit.Scan
import Conformance.Proofs.Disk.Entries
import Conformance.Proofs.Disk.Written
import Conformance.Proofs.Order.Sorting
import Mathlib.Algebra.GroupWithZero.Nat
import Mathlib.Data.List.Forall2

/-!
# What a scan finds

A walk from an included directory finds exactly the wanted files that are reached from it through
directories that are not excluded. Links are neither found nor walked through, so the number of
entries bounds the depth of the walk. It comes upon the files in a strict order, so it finds none
twice.
-/

namespace Conformance

/-- The path that names lead to below a path. -/
def Path.below (path : Path) (names : List String) : Path := ⟨path.anchor, path.parts ++ names⟩

/-- Names below a name are below the path. -/
@[simp] theorem Path.below_child (path : Path) (name : String) (names : List String) :
    (path.child name).below names = path.below (name :: names) := by
  simp [below, child]

/-- The names below a path stand behind those of the path. -/
@[simp] theorem Path.parts_below (path : Path) (names : List String) :
    (path.below names).parts = path.parts ++ names := rfl

namespace Audit

variable {disk : Disk} {config : ScanConfig}

/-- Names lead from a directory to a wanted file, through directories that are not excluded. What
is passed and what is found are the entries themselves, so none of them is a link. -/
inductive FoundBelow (disk : Disk) (config : ScanConfig) :
    Location → List String → List UInt8 → Prop where
  | file {location : Location} {name : String} {bytes : List UInt8}
      (standing : disk.entry? (location ++ [name]) = some (.file bytes))
      (wanted : String.ofList (Path.suffixOf name.toList) ∈ config.extensions) :
      FoundBelow disk config location [name] bytes
  | deeper {location : Location} {name : String} {names : List String} {bytes : List UInt8}
      (standing : disk.entry? (location ++ [name]) = some .directory)
      (kept : name ∉ config.excludeDirectories)
      (found : FoundBelow disk config (location ++ [name]) names bytes) :
      FoundBelow disk config location (name :: names) bytes

/-- From the top down: the files of a directory stand in the order of their names, before those of
its subdirectories, which stand in the order of the subdirectories' names. -/
inductive VisitedBefore : List String → List String → Prop where
  | files {name other : String} (before : Order.textBefore name other = true) :
      VisitedBefore [name] [other]
  | fileFirst (name directory : String) {names : List String} (inside : names ≠ []) :
      VisitedBefore [name] (directory :: names)
  | directories {directory other : String} {names others : List String}
      (before : Order.textBefore directory other = true) (inside : names ≠ [])
      (within : others ≠ []) : VisitedBefore (directory :: names) (other :: others)
  | inside (directory : String) {names others : List String}
      (before : VisitedBefore names others) :
      VisitedBefore (directory :: names) (directory :: others)

/-- No text stands before itself. -/
theorem textBefore_self (text : String) : Order.textBefore text text = false := by
  simp [Order.textBefore]

/-- Nothing is visited before itself. -/
theorem VisitedBefore.ne {names others : List String} (before : VisitedBefore names others) :
    names ≠ others := by
  induction before with
  | files before =>
    rintro ⟨⟩
    simp [textBefore_self] at before
  | fileFirst name directory inside =>
    rintro ⟨⟩
    exact inside rfl
  | directories before inside within =>
    rintro ⟨⟩
    simp [textBefore_self] at before
  | inside directory before inductionHypothesis =>
    intro same
    exact inductionHypothesis (List.cons.inj same).2

/-- The order is the same from above. -/
theorem VisitedBefore.above {names others : List String} (before : VisitedBefore names others)
    (directories : List String) : VisitedBefore (directories ++ names) (directories ++ others) := by
  induction directories with
  | nil => exact before
  | cons directory directories inductionHypothesis => exact .inside directory inductionHypothesis

namespace FoundBelow

variable {location : Location} {names : List String} {bytes : List UInt8}

/-- Something is found at a name. -/
theorem ne_nil (found : FoundBelow disk config location names bytes) : names ≠ [] := by
  cases found <;> simp

/-- What is passed on the way is listed. -/
theorem listed (found : FoundBelow disk config location names bytes) :
    ∀ upper, upper <+: names → upper ≠ [] → location ++ upper ∈ disk.entries.map Prod.fst := by
  have entered {place : Location} {name : String} {entry : Entry}
      (standing : disk.entry? (place ++ [name]) = some entry) :
      place ++ [name] ∈ disk.entries.map Prod.fst :=
    List.mem_map_of_mem (Disk.mem_of_entry _ entry (by simp) standing)
  induction found with
  | file standing wanted =>
    intro upper within filled
    rcases List.prefix_cons_iff.mp within with rfl | ⟨rest, rfl, short⟩
    · exact absurd rfl filled
    · obtain rfl := List.prefix_nil.mp short
      exact entered standing
  | deeper standing kept found inductionHypothesis =>
    intro upper within filled
    rcases List.prefix_cons_iff.mp within with rfl | ⟨rest, rfl, further⟩
    · exact absurd rfl filled
    · by_cases last : rest = []
      · subst last
        exact entered standing
      · simpa using inductionHypothesis rest further last

/-- A way is not longer than there are entries. -/
theorem length_le (found : FoundBelow disk config location names bytes) :
    names.length ≤ disk.entries.length := by
  let place (count : Nat) : Location := location ++ names.take (count + 1)
  have distinct : ((List.range names.length).map place).Nodup := by
    refine List.nodup_range.map_on ?_
    intro count inside other within same
    have lengths := congrArg List.length (List.append_cancel_left same)
    simp only [List.mem_range] at inside within
    simp only [List.length_take] at lengths
    omega
  have entered : (List.range names.length).map place ⊆ disk.entries.map Prod.fst := by
    intro upper member
    obtain ⟨count, inside, rfl⟩ := List.mem_map.mp member
    apply found.listed _ (List.take_prefix _ _)
    have filled := found.ne_nil
    cases names with
    | nil => exact absurd rfl filled
    | cons name rest => simp
  simpa using (List.subperm_of_subset distinct entered).length_le

end FoundBelow

/-- The wanted files of a directory are those with a wanted ending. -/
theorem scanFile?_eq_some (directory : Path) (name : String) (entry : Entry) (found : Path × Nat) :
    scanFile? config directory name entry = some found ↔
      ∃ bytes, entry = .file bytes ∧
        String.ofList (Path.suffixOf name.toList) ∈ config.extensions ∧
          found = (directory.below [name], bytes.length) := by
  have last : (directory.child name).suffix = String.ofList (Path.suffixOf name.toList) := by
    simp [Path.suffix, Path.name, Path.child]
  cases entry with
  | file bytes =>
    have single : directory.below [name] = directory.child name := rfl
    simp [scanFile?, last, single, eq_comm]
  | directory => simp [scanFile?]
  | link target => simp [scanFile?]

/-- A walk down to some depth finds exactly the files on ways that are not longer. -/
theorem mem_filesBelow (distinct : disk.Distinct) (depth : Nat) (location : Location)
    (directory : Path) (found : Path × Nat) :
    found ∈ filesBelow disk config depth location directory ↔
      ∃ names bytes, names.length ≤ depth ∧ FoundBelow disk config location names bytes ∧
        found = (directory.below names, bytes.length) := by
  induction depth generalizing location directory with
  | zero =>
    constructor
    · intro member
      cases member
    · rintro ⟨names, bytes, short, below, _⟩
      exact absurd (List.length_eq_zero_iff.mp (Nat.le_zero.mp short)) below.ne_nil
  | succ depth inductionHypothesis =>
    simp only [filesBelow, List.mem_append, List.mem_filterMap, List.mem_flatMap, Order.mem_sort,
      Prod.exists, distinct.mem_children]
    constructor
    · rintro (⟨name, entry, standing, told⟩ | ⟨name, entry, standing, inside⟩)
      · obtain ⟨bytes, rfl, wanted, rfl⟩ := (scanFile?_eq_some directory name entry found).mp told
        exact ⟨[name], bytes, by simp, .file standing wanted, rfl⟩
      · split at inside
        · next kept =>
          obtain ⟨rfl, included⟩ := kept
          obtain ⟨names, bytes, short, below, rfl⟩ := (inductionHypothesis _ _).mp inside
          exact ⟨name :: names, bytes, by simpa using short,
            .deeper standing (by simpa using included) below, by simp⟩
        · cases inside
    · rintro ⟨names, bytes, short, below, rfl⟩
      cases below with
      | @file _ name _ standing wanted =>
        left
        exact ⟨name, .file bytes, standing,
          (scanFile?_eq_some directory name _ _).mpr ⟨bytes, rfl, wanted, rfl⟩⟩
      | @deeper _ name names _ standing kept below =>
        right
        refine ⟨name, .directory, standing, ?_⟩
        rw [if_pos ⟨rfl, by simpa using kept⟩, inductionHypothesis]
        exact ⟨names, bytes, by simpa using short, below, by simp⟩

/-- A walk comes upon the files in its order. -/
theorem pairwise_filesBelow (distinct : disk.Distinct) (depth : Nat) (location : Location)
    (directory : Path) :
    (filesBelow disk config depth location directory).Pairwise fun found other =>
      VisitedBefore found.1.parts other.1.parts := by
  induction depth generalizing location directory with
  | zero => exact .nil
  | succ depth inductionHypothesis =>
    have sorted := Order.pairwise_sort_name Prod.fst (disk.children location)
      (distinct.nodup_children location)
    -- What is found in a subdirectory lies below its name.
    have inside (name : String) (entry : Entry) : ∀ found ∈ (if entry = .directory ∧
        ¬ config.excludeDirectories.contains name then
          filesBelow disk config depth (location ++ [name]) (directory.child name) else []),
        ∃ names, names ≠ [] ∧ found.1 = directory.below (name :: names) := by
      intro found member
      split at member
      · obtain ⟨names, bytes, _, below, rfl⟩ := (mem_filesBelow distinct _ _ _ _).mp member
        exact ⟨names, below.ne_nil, by simp⟩
      · cases member
    rw [filesBelow, List.pairwise_append, List.pairwise_filterMap, List.pairwise_flatMap]
    refine ⟨?_, ⟨?_, ?_⟩, ?_⟩
    · refine sorted.imp ?_
      rintro ⟨name, entry⟩ ⟨other, thing⟩ before found told next said
      obtain ⟨_, _, _, rfl⟩ := (scanFile?_eq_some directory name entry found).mp told
      obtain ⟨_, _, _, rfl⟩ := (scanFile?_eq_some directory other thing next).mp said
      exact (VisitedBefore.files before).above directory.parts
    · rintro ⟨name, entry⟩ _
      dsimp only
      split
      · exact inductionHypothesis _ _
      · exact .nil
    · refine sorted.imp ?_
      rintro ⟨name, entry⟩ ⟨other, thing⟩ before found member next among
      obtain ⟨names, filled, below⟩ := inside name entry found member
      obtain ⟨others, occupied, further⟩ := inside other thing next among
      rw [below, further]
      exact (VisitedBefore.directories before filled occupied).above directory.parts
    · intro found member next among
      obtain ⟨⟨name, entry⟩, _, told⟩ := List.mem_filterMap.mp member
      obtain ⟨⟨other, thing⟩, _, within⟩ := List.mem_flatMap.mp among
      obtain ⟨_, _, _, rfl⟩ := (scanFile?_eq_some directory name entry found).mp told
      obtain ⟨names, filled, below⟩ := inside other thing next within
      rw [below]
      exact (VisitedBefore.fileFirst name other filled).above directory.parts

/-- A walk begins at a path that leads to a directory and whose last name is no link. -/
def Begins (disk : Disk) (start : Path) (location : Location) : Prop :=
  disk.isLink start = false ∧ disk.follow start = .ok location ∧
    disk.entry? location = some .directory

/-- A walk begins at one place. -/
theorem Begins.unique {start : Path} {location other : Location}
    (begins : Begins disk start location) (again : Begins disk start other) : location = other :=
  Except.ok.inj (begins.2.1.symm.trans again.2.1)

/-- The files of an included directory are those of the walk that begins there, if one does. -/
theorem filesOf_cases (disk : Disk) (config : ScanConfig) (start : Path) :
    (∃ location, Begins disk start location ∧ filesOf disk config start =
      filesBelow disk config (disk.entries.length + 1) location start) ∨
    (∀ location, ¬ Begins disk start location) ∧ filesOf disk config start = [] := by
  unfold filesOf Begins
  by_cases link : disk.isLink start = true
  · simp [link]
  · cases followed : disk.follow start with
    | error fault => simp
    | ok location =>
      by_cases standing : disk.entry? location = some .directory
      · simp [link, standing]
      · simp [link, standing]

/-- Below an included directory exactly the files are found that some way leads to. -/
theorem mem_filesOf (distinct : disk.Distinct) (start : Path) (found : Path × Nat) :
    found ∈ filesOf disk config start ↔
      ∃ location names bytes, Begins disk start location ∧
        FoundBelow disk config location names bytes ∧
          found = (start.below names, bytes.length) := by
  rcases filesOf_cases disk config start with ⟨location, begins, walked⟩ | ⟨none, walked⟩
  · rw [walked, mem_filesBelow distinct]
    constructor
    · rintro ⟨names, bytes, _, below, same⟩
      exact ⟨location, names, bytes, begins, below, same⟩
    · rintro ⟨other, names, bytes, again, below, same⟩
      obtain rfl := begins.unique again
      exact ⟨names, bytes, below.length_le.trans (Nat.le_succ _), below, same⟩
  · rw [walked]
    constructor
    · intro member
      cases member
    · rintro ⟨location, _, _, begins, _⟩
      exact absurd begins (none location)

/-- The walk below an included directory keeps its order. -/
theorem pairwise_filesOf (distinct : disk.Distinct) (start : Path) :
    (filesOf disk config start).Pairwise fun found other =>
      VisitedBefore found.1.parts other.1.parts := by
  rcases filesOf_cases disk config start with ⟨location, _, walked⟩ | ⟨_, walked⟩
  · rw [walked]
    exact pairwise_filesBelow distinct _ location start
  · rw [walked]
    exact .nil

/-- What is told of a file that names below the root lead to. -/
def fileBelow (top : Path) (names : List String) (size : Nat) : ScannedFile :=
  ⟨top.below names, (⟨"", names⟩ : Path).text, (top.below names).suffix, size⟩

/-- A file is told if it is written below the root. -/
theorem scanned_eq_ok (top : Path) (found : Path × Nat) (file : ScannedFile) :
    scanned top found = .ok file ↔
      ∃ names, found.1 = top.below names ∧ file = fileBelow top names found.2 := by
  obtain ⟨⟨anchor, parts⟩, size⟩ := found
  simp only [scanned, relativeTo?, List.isPrefixOf_iff_prefix]
  constructor
  · intro told
    split at told
    · next relative inside =>
      split at inside
      · next within =>
        obtain ⟨rfl, names, rfl⟩ := within
        obtain rfl := Option.some.inj inside
        refine ⟨names, rfl, ?_⟩
        simpa [fileBelow, Path.below] using (Except.ok.inj told).symm
      · cases inside
    · cases told
  · rintro ⟨names, same, rfl⟩
    obtain ⟨rfl, rfl⟩ := Path.mk.inj same
    simp [fileBelow, Path.below]

/-- What all succeeds for succeeds for the whole list. -/
theorem mapM_eq_ok {α β ε : Type} (action : α → Except ε β) (values : List α) (results : List β) :
    values.mapM action = .ok results ↔
      List.Forall₂ (fun value result => action value = .ok result) values results := by
  induction values generalizing results with
  | nil => simp [pure, Except.pure, eq_comm]
  | cons value values inductionHypothesis =>
    rw [List.mapM_cons, List.forall₂_cons_left_iff]
    simp only [← inductionHypothesis]
    cases action value with
    | error error => simp [bind, Except.bind]
    | ok result =>
      cases values.mapM action with
      | error error => simp [bind, Except.bind]
      | ok others => simp [bind, Except.bind, pure, Except.pure, eq_comm]

/-- The files of an included directory. -/
structure Lists (disk : Disk) (config : ScanConfig) (top : Path) (name : String)
    (block : List ScannedFile) : Prop where
  exact : ∀ file, file ∈ block ↔ ∃ location names bytes,
    Begins disk (top.child name) location ∧ FoundBelow disk config location names bytes ∧
      file = fileBelow top (name :: names) bytes.length
  ordered : block.Pairwise fun file other => VisitedBefore file.path.parts other.path.parts

/-- An ordinary name stands below the root as it is written. -/
theorem join_ofString (top : Path) (name : String) (ordinary : Path.IsName name) :
    top.join (.ofString name) = top.child name := by
  have written : (⟨"", [name]⟩ : Path).Written :=
    ⟨by simp, fun other member => List.mem_singleton.mp member ▸ ordinary⟩
  have read := Path.ofString_text ⟨"", [name]⟩ written
  have text : (⟨"", [name]⟩ : Path).text = name := by simp [Path.text]
  rw [text] at read
  simp [read, Path.join, Path.isAbsolute, Path.child]

/-- What is told of what is found below the root. -/
def tell (top : Path) (found : Path × Nat) : ScannedFile :=
  fileBelow top (found.1.parts.drop top.parts.length) found.2

/-- What is found below the root is told with its names from there. -/
@[simp] theorem tell_below (top : Path) (names : List String) (size : Nat) :
    tell top (top.below names, size) = fileBelow top names size := by
  simp [tell]

/-- What is told of the files of an included directory. -/
def tellAll (disk : Disk) (config : ScanConfig) (top : Path) (name : String) : List ScannedFile :=
  (filesOf disk config (top.child name)).map (tell top)

/-- Everything that is found is told. -/
theorem lists_tellAll (distinct : disk.Distinct) (top : Path) (name : String) :
    Lists disk config top name (tellAll disk config top name) := by
  have located : ∀ found ∈ filesOf disk config (top.child name), (tell top found).path = found.1 := by
    intro found member
    obtain ⟨_, names, _, _, _, rfl⟩ := (mem_filesOf distinct _ _).mp member
    rw [Path.below_child, tell_below, fileBelow]
  constructor
  · intro file
    rw [tellAll, List.mem_map]
    constructor
    · rintro ⟨found, member, rfl⟩
      obtain ⟨location, names, bytes, begins, below, rfl⟩ := (mem_filesOf distinct _ _).mp member
      exact ⟨location, names, bytes, begins, below, by rw [Path.below_child, tell_below]⟩
    · rintro ⟨location, names, bytes, begins, below, rfl⟩
      refine ⟨_, (mem_filesOf distinct _ _).mpr ⟨location, names, bytes, begins, below, rfl⟩, ?_⟩
      rw [Path.below_child, tell_below]
  · rw [tellAll, List.pairwise_map]
    refine (pairwise_filesOf distinct (top.child name)).imp_of_mem ?_
    intro found other member among before
    rwa [located found member, located other among]

/-- A scan tells of the included directories one after the other. -/
theorem scan_eq (disk : Disk) (config : ScanConfig) (root : Path) (distinct : disk.Distinct)
    (ordinary : ∀ name ∈ config.includeDirectories, Path.IsName name) :
    scan disk config root =
      .ok (config.includeDirectories.map (tellAll disk config (disk.resolve root).path)).flatten := by
  have starts : (config.includeDirectories.flatMap fun directory =>
      filesOf disk config ((disk.resolve root).path.join (.ofString directory))) =
        config.includeDirectories.flatMap fun directory =>
          filesOf disk config ((disk.resolve root).path.child directory) := by
    apply List.flatMap_congr
    intro name member
    rw [join_ofString _ _ (ordinary name member)]
  have together : (config.includeDirectories.map
      (tellAll disk config (disk.resolve root).path)).flatten =
        (config.includeDirectories.flatMap fun directory =>
          filesOf disk config ((disk.resolve root).path.child directory)).map
            (tell (disk.resolve root).path) := by
    rw [List.map_flatMap, List.flatMap_def]
    rfl
  rw [together, scan, starts, mapM_eq_ok, List.forall₂_map_right_iff, List.forall₂_same]
  intro found member
  obtain ⟨name, _, inside⟩ := List.mem_flatMap.mp member
  obtain ⟨_, names, _, _, _, rfl⟩ := (mem_filesOf distinct _ _).mp inside
  rw [Path.below_child, tell_below, scanned_eq_ok]
  exact ⟨name :: names, rfl, rfl⟩

/-- A scan of included directories with different ordinary names succeeds. Directory by directory,
in their order, it reports exactly the wanted files that are reached from the directory through
directories that are not excluded, from the top down, and no file twice. -/
theorem scan_exact (disk : Disk) (config : ScanConfig) (root : Path) (distinct : disk.Distinct)
    (ordinary : ∀ name ∈ config.includeDirectories, Path.IsName name ∧ name ≠ "..")
    (different : config.includeDirectories.Nodup) :
    ∃ blocks, scan disk config root = .ok blocks.flatten ∧
      List.Forall₂ (Lists disk config (disk.resolve root).path) config.includeDirectories blocks ∧
      (blocks.flatten.map (·.path)).Nodup ∧
      (fileStatistics blocks.flatten).totalFiles = blocks.flatten.length ∧
      (fileStatistics blocks.flatten).totalSize = (blocks.flatten.map (·.size)).sum := by
  have lists (name : String) : Lists disk config (disk.resolve root).path name
      (tellAll disk config (disk.resolve root).path name) := lists_tellAll distinct _ name
  refine ⟨config.includeDirectories.map (tellAll disk config (disk.resolve root).path),
    scan_eq disk config root distinct fun name member => (ordinary name member).1, ?_, ?_, rfl, ?_⟩
  · rw [List.forall₂_map_right_iff, List.forall₂_same]
    exact fun name _ => lists name
  · rw [← List.flatMap_def, List.map_flatMap, List.nodup_flatMap]
    constructor
    · intro name _
      rw [List.Nodup, List.pairwise_map]
      refine (lists name).ordered.imp ?_
      intro file other before same
      exact before.ne (congrArg Path.parts same)
    · refine different.imp ?_
      intro name other apart path here there
      obtain ⟨file, member, rfl⟩ := List.mem_map.mp here
      obtain ⟨next, among, same⟩ := List.mem_map.mp there
      obtain ⟨_, _, _, _, _, rfl⟩ := ((lists name).exact file).mp member
      obtain ⟨_, _, _, _, _, rfl⟩ := ((lists other).exact next).mp among
      have names := List.append_cancel_left (congrArg Path.parts same)
      exact apart (List.cons.inj names).1.symm
  · simp only [fileStatistics, totalSize, Number.total, List.sum]
    rfl

/-- A project with links in every place where they are passed over. -/
def linkedDisk : Disk :=
  ⟨[], [(["p"], .directory), (["p", "app"], .directory), (["p", "lib"], .link (.ofString "app")),
    (["p", "app", "up"], .link (.ofString "..")), (["p", "app", "sub"], .directory),
    (["p", "app", "sub", "c.ts"], .file [99, 99]), (["p", "app", "out"], .directory),
    (["p", "app", "out", "d.ts"], .file [100]), (["p", "app", "z.ts"], .file [97]),
    (["p", "app", "l.ts"], .link (.ofString "z.ts")), (["p", "app", "n.md"], .file [])]⟩

/-- Of the linked project one included directory is walked, and its two wanted files are told. -/
theorem scan_exact_linked :
    let config : ScanConfig := ⟨["lib", "app", "gone"], ["out"], [".ts"]⟩
    ∃ files, scan linkedDisk config (.ofString "/p") = .ok files ∧
      files.map (·.relativePath) = ["app/z.ts", "app/sub/c.ts"] ∧ (files.map (·.path)).Nodup := by
  intro config
  obtain ⟨blocks, scans, _, apart, _⟩ := scan_exact linkedDisk config (.ofString "/p") (by decide)
    (by decide) (by decide)
  have told : (scan linkedDisk config (.ofString "/p")).toOption.map (·.map (·.relativePath)) =
      some ["app/z.ts", "app/sub/c.ts"] := by decide +kernel
  rw [scans] at told
  exact ⟨blocks.flatten, scans, Option.some.inj told, apart⟩

end Audit

end Conformance
