import Conformance.Proofs.Audit.Registering
import Conformance.Proofs.Audit.Scanning
import Conformance.Proofs.Compiler.Recovering

/-!
# Projects that cannot be audited

An audit foresees that there are no standards, and that two rules have one identifier. It ends in any
other way exactly if a document of the standards cannot be read, if the compiler is asked and does not
answer, or if something is found that is not written below the root of the project.
-/

namespace Conformance

namespace Document

variable {disk : Disk} {directory : Path}

/-- Named documents are read exactly if each one that defines a standard can be read. -/
theorem succeeds_readNamed_iff (names : List String) :
    Succeeds (readNamed disk directory names) ↔ ∀ item ∈ names.filterMap standardNamed?, ∃ content,
      disk.readText (directory.child item.1) = .ok content := by
  constructor
  · induction names with
    | nil => simp
    | cons name names inductionHypothesis =>
      rw [readNamed_cons]
      cases told : standardNamed? name with
      | none =>
        rw [List.filterMap_cons_none told]
        exact inductionHypothesis
      | some item =>
        rw [List.filterMap_cons_some told, List.forall_mem_cons]
        intro succeeds
        obtain ⟨document, read, others⟩ := (succeeds_bind_iff _ _).mp succeeds
        refine ⟨?_, inductionHypothesis ((succeeds_map_iff _ _).mp others)⟩
        cases opened : disk.readText (directory.child item.1) with
        | ok content => exact ⟨content, rfl⟩
        | error error => simp [readDocument, opened] at read
  · intro readable
    exact ⟨_, readNamed_eq names readable⟩

/-- Named documents fail to be read for no other reason than that one of them cannot be read. -/
theorem readNamed_fails (names : List String) :
    FailsOnly (fun error => ∃ cause, error = .unreadable cause) (readNamed disk directory names) := by
  induction names with
  | nil => exact failsOnly_ok _ _
  | cons name names inductionHypothesis =>
    rw [readNamed_cons]
    cases standardNamed? name with
    | none => exact inductionHypothesis
    | some item =>
      refine FailsOnly.bind ?_ fun document => ?_
      · rw [readDocument]
        cases disk.readText (directory.child item.1) with
        | error error => exact (failsOnly_error_iff _ _).mpr ⟨error, rfl⟩
        | ok content => exact failsOnly_ok _ _
      · intro error failed
        cases others : readNamed disk directory names with
        | ok documents => simp [others, Except.map] at failed
        | error cause =>
          obtain rfl : cause = error := by simpa [others, Except.map] using failed
          exact inductionHypothesis cause others

end Document

namespace Audit

open Document

variable {program : Compiler.CompilerProgram} {disk : Disk} {root : Path} {config : Config}
  {calls : List Compiler.Invocation}

/-- A failure of an audit that is foreseen: there are no standards, or a rule is repeated. -/
def AuditFailure.Foreseen : AuditFailure → Prop
  | .standards (.directoryMissing _) => True
  | .duplicate _ => True
  | _ => False

/-- A registry is made of a directory, or fails to be made as foreseen, exactly if all documents of
the directory can be read. -/
theorem ofDirectory_foreseen_iff (disk : Disk) (directory : Path) :
    FailsOnly AuditFailure.Foreseen (Registry.ofDirectory disk directory) ↔
      (disk.isDirectory directory = true → Readable disk directory) := by
  by_cases present : disk.isDirectory directory = true
  · constructor
    · intro foreseen _
      refine (succeeds_readNamed_iff _).mp ?_
      cases read : readNamed disk directory (documentNames disk directory) with
      | ok documents => exact succeeds_ok documents
      | error error =>
        obtain ⟨cause, rfl⟩ := readNamed_fails _ error read
        have failed : Registry.ofDirectory disk directory = .error (.standards (.unreadable cause)) := by
          simp [Registry.ofDirectory, readDirectory, present, read]
        exact absurd (foreseen _ failed) id
    · intro readable
      rw [ofDirectory_eq present (readable present)]
      cases Registry.ofRules (rulesIn disk directory) with
      | error error => exact (failsOnly_error_iff _ _).mpr trivial
      | ok registry => exact failsOnly_ok _ _
  · simp [Registry.ofDirectory, readDirectory, present, AuditFailure.Foreseen]

/-- What is found on a walk is written below the directory in which the walk begins. -/
theorem below_of_mem_filesBelow {scanConfig : ScanConfig} {depth : Nat} {location : Location}
    {directory : Path} {found : Path × Nat}
    (member : found ∈ filesBelow disk scanConfig depth location directory) :
    ∃ names, found.1 = directory.below names := by
  induction depth generalizing location directory with
  | zero => cases member
  | succ depth inductionHypothesis =>
    rw [filesBelow, List.mem_append, List.mem_filterMap, List.mem_flatMap] at member
    rcases member with ⟨⟨name, entry⟩, _, told⟩ | ⟨⟨name, entry⟩, _, inside⟩
    · obtain ⟨_, _, _, rfl⟩ := (scanFile?_eq_some directory name entry found).mp told
      exact ⟨[name], rfl⟩
    · dsimp only at inside
      split at inside
      · obtain ⟨names, below⟩ := inductionHypothesis inside
        exact ⟨name :: names, by rw [below, Path.below_child]⟩
      · cases inside

/-- What is found from an included directory is written below it. -/
theorem below_of_mem_filesOf {scanConfig : ScanConfig} {start : Path} {found : Path × Nat}
    (member : found ∈ filesOf disk scanConfig start) : ∃ names, found.1 = start.below names := by
  rcases filesOf_cases disk scanConfig start with ⟨location, _, walked⟩ | ⟨_, walked⟩
  · rw [walked] at member
    exact below_of_mem_filesBelow member
  · rw [walked] at member
    cases member

/-- What is found from an included directory that is an absolute path is written below the root. -/
def FindsBelow (disk : Disk) (config : ScanConfig) (root : Path) : Prop :=
  ∀ name ∈ config.includeDirectories, (Path.ofString name).isAbsolute = true →
    ∀ found ∈ filesOf disk config (.ofString name), ∃ names,
      found.1 = (disk.resolve root).path.below names

/-- A file is told exactly if it is written below the root. -/
theorem succeeds_scanned_iff (top : Path) (found : Path × Nat) :
    Succeeds (scanned top found) ↔ ∃ names, found.1 = top.below names := by
  constructor
  · rintro ⟨file, told⟩
    obtain ⟨names, same, _⟩ := (scanned_eq_ok top found file).mp told
    exact ⟨names, same⟩
  · rintro ⟨names, same⟩
    exact ⟨_, (scanned_eq_ok top found _).mpr ⟨names, same, rfl⟩⟩

/-- A scan succeeds exactly if everything that it finds is written below the root. What is found from
a directory that is named from the root always is. -/
theorem succeeds_scan_iff (disk : Disk) (config : ScanConfig) (root : Path) :
    Succeeds (scan disk config root) ↔ FindsBelow disk config root := by
  simp only [scan, succeeds_mapM_iff, List.forall_mem_flatMap, succeeds_scanned_iff, FindsBelow]
  refine forall₂_congr fun name _ => ?_
  by_cases absolute : (Path.ofString name).isAbsolute = true
  · simp [Path.join, absolute]
  · refine iff_of_true (fun found member => ?_) (fun given => absurd given absolute)
    obtain ⟨names, below⟩ := below_of_mem_filesOf member
    exact ⟨(Path.ofString name).parts ++ names, by simp [below, Path.join, absolute, Path.below]⟩

/-- What the audit of a project with some settings relies on, beyond what it foresees. -/
structure Auditable (program : Compiler.CompilerProgram) (disk : Disk) (root : Path) (config : Config)
    (calls : List Compiler.Invocation) : Prop where
  readable : disk.isDirectory (Config.resolve root config.standardsDirectory) = true →
    Readable disk (Config.resolve root config.standardsDirectory)
  answered : Succeeds (Registry.ofProject disk root config) → config.typeCheck = true →
    Compiler.Answers program config.command disk root calls
  below : Succeeds (Registry.ofProject disk root config) → FindsBelow disk config.scanConfig root

/-- The compiler is asked with success exactly if it answers, where it is wanted. -/
theorem succeeds_typeCheck_iff :
    Succeeds (typeCheck program disk root config calls).1 ↔
      (config.typeCheck = true → Compiler.Answers program config.command disk root calls) := by
  unfold typeCheck
  by_cases wanted : config.typeCheck = true
  · rw [if_pos wanted, ← Compiler.succeeds_checkProject_iff]
    dsimp only
    cases (Compiler.checkProject program config.command disk root calls).1 with
    | error error => simp [wanted]
    | ok context => simp
  · simp [wanted]

/-- No failure of the compiler is foreseen. -/
theorem typeCheck_unforeseen :
    FailsOnly (fun failure => ¬ failure.Foreseen) (typeCheck program disk root config calls).1 := by
  unfold typeCheck
  by_cases wanted : config.typeCheck = true
  · rw [if_pos wanted]
    dsimp only
    cases (Compiler.checkProject program config.command disk root calls).1 with
    | error error => exact (failsOnly_error_iff _ _).mpr id
    | ok context => exact failsOnly_ok _ _
  · rw [if_neg wanted]
    exact failsOnly_ok _ _

/-- With a registry the audit of a project fails in no other way than that of its scan. -/
theorem validateProject_foreseen_iff (registry : Registry) (context : Option Compiler.Context) :
    FailsOnly AuditFailure.Foreseen (validateProject disk root config registry context) ↔
      FindsBelow disk config.scanConfig root := by
  rw [← succeeds_scan_iff, validateProject]
  cases scan disk config.scanConfig root with
  | error error => simp [AuditFailure.Foreseen]
  | ok files => simp [validate_eq disk files registry.rules _ registry.nodup_ids]

/-- The audit of a project makes its registry, asks the compiler and validates the files. -/
theorem auditProject_steps (program : Compiler.CompilerProgram) (disk : Disk) (root : Path)
    (config : Config) (calls : List Compiler.Invocation) :
    (auditProject program disk root config none calls).1 = (do
      let registry ← Registry.ofProject disk (disk.resolve root).path config
      let context ← (typeCheck program disk (disk.resolve root).path config calls).1
      validateProject disk (disk.resolve root).path config registry context) := by
  unfold auditProject
  dsimp only
  cases Registry.ofProject disk (disk.resolve root).path config with
  | error failure => rfl
  | ok registry =>
    rcases typeCheck program disk (disk.resolve root).path config calls with ⟨context, after⟩
    cases context <;> rfl

/-- A project is audited, or fails to be audited as foreseen, exactly if it is auditable. -/
theorem auditProject_foreseen_iff (program : Compiler.CompilerProgram) (disk : Disk) (root : Path)
    (config : Config) (calls : List Compiler.Invocation) :
    FailsOnly AuditFailure.Foreseen (auditProject program disk root config none calls).1 ↔
      Auditable program disk (disk.resolve root).path config calls := by
  rw [auditProject_steps]
  generalize (disk.resolve root).path = top
  rw [failsOnly_bind_iff, Registry.ofProject, ofDirectory_foreseen_iff]
  simp only [failsOnly_bind_iff, failsOnly_iff_succeeds typeCheck_unforeseen,
    validateProject_foreseen_iff, succeeds_typeCheck_iff]
  constructor
  · rintro ⟨readable, rest⟩
    refine ⟨readable, ?_, ?_⟩
    · rintro ⟨registry, made⟩
      exact (rest registry made).1
    · rintro ⟨registry, made⟩
      obtain ⟨answered, below⟩ := rest registry made
      obtain ⟨context, asked⟩ := succeeds_typeCheck_iff.mpr answered
      exact below context asked
  · intro auditable
    refine ⟨auditable.readable, fun registry made => ⟨auditable.answered ⟨registry, made⟩, ?_⟩⟩
    exact fun _ _ => auditable.below ⟨registry, made⟩

end Audit

end Conformance
