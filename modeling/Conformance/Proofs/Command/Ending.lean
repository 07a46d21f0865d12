import Conformance.Command.Run
import Conformance.Proofs.Audit.Failures
import Conformance.Proofs.Config.Loading
import Conformance.Proofs.Report.Reloading
import Mathlib.Data.List.Permutation

/-!
# How an audit ends

Each stage of a command that audits a project is told by what it gives and what it leaves of the world.
An audit calls the compiler and leaves the disk as it is, and only a change of the disk changes it. From
the stages follows how the whole command ends.
-/

namespace Conformance.Command

open Audit

variable {α β ε : Type}

/-- Two stages are one behind the other, unless the first one ends the command. -/
theorem run_bind (first : Task α) (second : α → Task β) (world : World) :
    (first >>= second).run.run world =
      match first.run.run world with
      | (.ok value, world) => (second value).run.run world
      | (.error ending, world) => (.error ending, world) := by
  change ExceptT.bindCont second (first.run.run world).1 (first.run.run world).2 = _
  rcases first.run.run world with ⟨_ | _, after⟩ <;> rfl

/-- A value is given at once. -/
theorem run_pure (value : α) (world : World) :
    (pure value : Task α).run.run world = (.ok value, world) := rfl

/-- The world is as it is. -/
theorem run_get (world : World) : (get : Task World).run.run world = (.ok world, world) := rfl

/-- The world is as it is set. -/
theorem run_set (after world : World) :
    (set after : Task PUnit).run.run world = (.ok ⟨⟩, after) := rfl

/-- Work that has been done gives its value, or ends the command. -/
theorem run_orEnd (ending : ε → Ending) (work : Except ε α) (world : World) :
    (orEnd ending work).run.run world = (work.mapError ending, world) := by
  cases work <;> rfl

/-- The root of a project is taken from the disk. -/
theorem run_projectRoot (project : Option Path) (world : World) :
    (projectRoot project).run.run world =
      (.ok (world.disk.resolve (project.getD ⟨"", []⟩)).path, world) := rfl

/-- The settings are those of the project with others put over them. -/
theorem run_settings (root : Path) (overrides : Config.Overrides) (world : World) :
    (settings root overrides).run.run world =
      (((Config.load world.disk root).map (·.override overrides)).mapError endOfSettings, world) := by
  simp only [settings, currentDisk, run_bind, run_get, run_pure, run_orEnd]
  cases Config.load world.disk root <;> rfl

/-- An audit leaves the disk as it is. -/
theorem run_audit (surroundings : Surroundings) (root : Path) (config : Config) (world : World) :
    (audit surroundings root config).run.run world =
      ((auditProject surroundings.compiler world.disk root config none world.calls).1.mapError endOfAudit,
        { world with
          calls := (auditProject surroundings.compiler world.disk root config none world.calls).2 }) := by
  simp only [audit, run_bind, run_get, run_set, run_orEnd]

/-- A change of the disk is made, or ends the command. -/
theorem run_changeDisk (ending : ε → Ending) (change : Disk → Except ε Disk) (world : World) :
    (changeDisk ending change).run.run world =
      match change world.disk with
      | .ok disk => (.ok (), { world with disk })
      | .error error => (.error (ending error), world) := by
  simp only [changeDisk, run_bind, run_get, run_orEnd]
  cases change world.disk <;> rfl

end Conformance.Command

/-!
## The end of the command

The command that audits a project is to end with its result, and with exit code 1 exactly if it is
strict and there are violations; where the settings or the standards cannot be used it is to complain
and end with exit code 2. It does exactly if nothing else goes wrong on the way: the settings file holds
a text of values that can be made, every document of the standards can be read, the compiler answers if
it is asked, and everything that is found is written below the root.
-/

namespace Conformance.Command

open Audit

variable {surroundings : Surroundings} {options : RunOptions} {world : World} {arguments : List String}
  {config : Config}

/-- The root of the project that is audited. -/
def RunOptions.root (options : RunOptions) (disk : Disk) : Path :=
  (disk.resolve (options.project.getD ⟨"", []⟩)).path

/-- What the options put over the settings of the project. -/
def RunOptions.overrides (options : RunOptions) : Config.Overrides :=
  { overridesOf options.standards options.severity with
    maxViolations := options.maxViolations
    typeCheck := if options.typeCheck then some true else none }

/-- The settings of the project that is audited, without the options. -/
def loaded (options : RunOptions) (world : World) : Except ConfigFailure Config :=
  Config.load world.disk (options.root world.disk)

/-- What comes of the audit with some settings of the project. -/
def audited (surroundings : Surroundings) (options : RunOptions) (world : World) (config : Config) :
    Except AuditFailure AuditResult :=
  (auditProject surroundings.compiler world.disk (options.root world.disk)
    (config.override options.overrides) none world.calls).1

/-- The command of an audit ends as its description says: with its result, and with exit code 1
exactly if it is strict and there are violations, or with a complaint about the settings or the
standards and exit code 2. Nothing else goes wrong with either, and no failure escapes. -/
structure EndsAsDescribed (surroundings : Surroundings) (options : RunOptions) (world : World)
    (ending : Ending) : Prop where
  settings : FailsOnly ConfigFailure.IsRefusal (loaded options world)
  audit : ∀ config, loaded options world = .ok config →
    FailsOnly AuditFailure.Foreseen (audited surroundings options world config)
  refused : ∀ error, loaded options world = .error (.refused error) →
    ending = .complained (.settings error) 2
  missing : ∀ config path, loaded options world = .ok config →
    audited surroundings options world config = .error (.standards (.directoryMissing path)) →
      ending = .complained (.standards (.directoryMissing path)) 2
  repeated : ∀ config error, loaded options world = .ok config →
    audited surroundings options world config = .error (.duplicate error) →
      ending = .complained (.duplicate error) 2
  finished : ∀ config result, loaded options world = .ok config →
    audited surroundings options world config = .ok result → ∃ output,
      ending = .finished output (if options.strict = true ∧ result.violations ≠ [] then 1 else 0)
  held : ∀ failure, ending ≠ .failed failure

/-- What the command of an audit relies on, beyond what it foresees. -/
structure Usable (surroundings : Surroundings) (options : RunOptions) (world : World) : Prop where
  settings : Config.UsableFile world.disk (options.root world.disk)
  project : ∀ config, loaded options world = .ok config →
    Auditable surroundings.compiler world.disk (world.disk.resolve (options.root world.disk)).path
      (config.override options.overrides) world.calls
  counts : ∀ config result, loaded options world = .ok config →
    audited surroundings options world config = .ok result →
      ∀ value ∈ result.stored.document.integers, Fits value

/-- Whatever is written at a path, with the directories above, is taken. -/
def Writable (disk : Disk) (path : Path) : Prop :=
  ∀ content, Succeeds ((disk.makeDirectories path.parent).bind (·.write path content))

/-- The command of an audit loads the settings, audits the project, stores the result and shows it.
What goes wrong first ends it. -/
theorem ending_run (surroundings : Surroundings)
    (parsed : Request.ofArguments world.disk arguments = .ok (.run options)) :
    (execute surroundings arguments world).1 =
      match loaded options world with
      | .error failure => endOfSettings failure
      | .ok config =>
        match audited surroundings options world config with
        | .error failure => endOfAudit failure
        | .ok result =>
          match result.stored.save world.disk
              (latestResult (options.root world.disk) (config.override options.overrides)) with
          | .error error => endOfSave error
          | .ok _ =>
            match render options.format result.stored with
            | .error error => .failed (.table error)
            | .ok text => .finished (text ++ ['\n'])
                (if options.strict && !result.violations.isEmpty then 1 else 0) := by
  simp only [execute, parsed, answer, run, run_bind, run_projectRoot, run_settings, loaded, audited,
    RunOptions.root, RunOptions.overrides]
  cases Config.load world.disk (world.disk.resolve (options.project.getD ⟨"", []⟩)).path with
  | error failure => rfl
  | ok config =>
    simp only [Except.map, Except.mapError, run_audit]
    cases (auditProject surroundings.compiler world.disk _ _ none world.calls).1 with
    | error failure => rfl
    | ok result =>
      simp only [run_changeDisk]
      cases result.stored.save world.disk _ with
      | error error => rfl
      | ok saved =>
        simp only [rendered, run_orEnd]
        cases render options.format result.stored <;> rfl

/-- The result of an audit can always be put into tables: its texts and the names of its tallies are
texts. -/
theorem succeeds_render (format : Format) (result : AuditResult) :
    Succeeds (render format result.stored) := by
  cases format with
  | plain => exact succeeds_ok _
  | json => exact succeeds_ok _
  | markdown =>
    have keys : result.stored.violations.all (fun finding => finding.ruleId.isKey) = true := by
      simp [AuditResult.stored, ResultOf.map, Finding.map, Json.isKey]
    obtain ⟨rows, ordered⟩ : ∃ rows, Report.inNameOrder result.stored.byStandard = some rows := by
      unfold Report.inNameOrder
      split
      · exact ⟨_, rfl⟩
      · have texts : ∀ entry ∈ result.stored.byStandard, Report.isText entry.1 = true := by
          intro entry member
          obtain ⟨count, _, rfl⟩ := List.mem_map.mp member
          rfl
        exact ⟨_, if_pos (List.all_eq_true.mpr texts)⟩
    simp only [render, Report.markdown, keys, ordered]
    exact succeeds_ok _

/-- A document can be written exactly if none of its integers is too long. -/
theorem unwritable?_eq_none_iff (document : Json) :
    document.unwritable? = none ↔ ∀ value ∈ document.integers, Fits value := by
  simp [Json.unwritable?, Number.unwritable?, Fits]

/-- Where anything is taken, a result is stored exactly if none of its integers is too long. -/
theorem Writable.succeeds_save_iff {disk : Disk} {path : Path} (writable : Writable disk path)
    (result : StoredResult) :
    Succeeds (result.save disk path) ↔ ∀ value ∈ result.document.integers, Fits value := by
  rw [← unwritable?_eq_none_iff]
  constructor
  · rintro ⟨saved, saves⟩
    unfold StoredResult.save at saves
    cases made : disk.makeDirectories path.parent with
    | error error => simp [made] at saves
    | ok made' =>
      cases long : result.document.unwritable? with
      | none => rfl
      | some error => simp [made, long] at saves
  · intro short
    rcases StoredResult.save_cases disk path with ⟨error, refused, _⟩ | saves
    · exact absurd (refused [] ▸ writable []) (not_succeeds_error error)
    · exact saves result short

/-- A path takes whatever is written, if the directories above can be made and it leads to no
directory. -/
theorem writable_of_follow {disk : Disk} {path : Path} (made : Disk) (location : Location)
    (makes : disk.makeDirectories path.parent = .ok made) (followed : made.follow path = .ok location)
    (free : made.entry? location ≠ some .directory) : Writable disk path := by
  intro content
  rw [makes]
  exact ⟨_, (Disk.write_eq_ok path content).mpr ⟨location, followed, free, rfl⟩⟩

/-- No result that is not stored is finished with. -/
theorem endOfSave_ne_finished (error : SaveError) (output : List Char) (exitCode : Nat) :
    endOfSave error ≠ .finished output exitCode := by
  cases error <;> simp [endOfSave]

/-- An audit that fails as foreseen is complained about. -/
theorem endOfAudit_of_foreseen {failure : AuditFailure} (foreseen : failure.Foreseen) :
    ∃ complaint, endOfAudit failure = .complained complaint 2 := by
  unfold endOfAudit
  split
  · exact ⟨_, rfl⟩
  · exact ⟨_, rfl⟩
  · simp_all [AuditFailure.Foreseen]

/-- An audit is finished with its result, if that can be stored. -/
theorem ending_of_result {result : AuditResult} (surroundings : Surroundings)
    (parsed : Request.ofArguments world.disk arguments = .ok (.run options))
    (settled : loaded options world = .ok config)
    (done : audited surroundings options world config = .ok result)
    (stored : Succeeds (result.stored.save world.disk
      (latestResult (options.root world.disk) (config.override options.overrides)))) :
    ∃ output, (execute surroundings arguments world).1 =
      .finished output (if options.strict = true ∧ result.violations ≠ [] then 1 else 0) := by
  obtain ⟨saved, stored⟩ := stored
  obtain ⟨text, shown⟩ := succeeds_render options.format result
  refine ⟨text ++ ['\n'], ?_⟩
  rw [ending_run surroundings parsed, settled]
  simp [done, stored, shown]

/-- A project with one source, in which a type is left open, and one document of standards. Its settings
say nothing. -/
def smallProject : World :=
  ⟨⟨["p"], [(["p"], .directory), (["p", ".audit"], .directory),
    (["p", ".audit", "config.yml"], .file [123, 125]), (["p", ".factory"], .directory),
    (["p", ".factory", "standards"], .directory),
    (["p", ".factory", "standards", "typescript.md"], .file []), (["p", "lib"], .directory),
    (["p", "lib", "a.ts"], .file (Text.encode "let y: any;".toList))]⟩, []⟩

/-- Surroundings without a compiler. -/
def withoutCompiler : Surroundings :=
  ⟨fun _ _ => .missing, ⟨⟨2026, 1, 18⟩, 9, 30, 0, 0, none⟩, ⟨"/", ["tmp"]⟩⟩

/-- The options of an audit that is strict and asks the compiler. -/
def strictly : RunOptions := { strict := true, typeCheck := true }

/-- A project whose settings file holds one byte that is no text. -/
def undecodableProject : World :=
  ⟨⟨["p"], [(["p"], .directory), (["p", ".audit"], .directory),
    (["p", ".audit", "config.yml"], .file [255]), (["p", ".factory"], .directory),
    (["p", ".factory", "standards"], .directory)]⟩, []⟩

end Conformance.Command
