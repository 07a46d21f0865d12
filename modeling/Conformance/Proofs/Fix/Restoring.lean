import Conformance.Proofs.Fix.Transaction

/-!
# Restoring after runs

A session can be used for several runs, and a run can be broken off by a fixer or by the
verifier. However the runs end, the stored manifest lists every file that has been changed,
and restoring from it, or rolling the session back, gives each file the bytes that it had
before the session touched it.

The manifest is missing only where the directory of the session cannot be made. Then
nothing has been backed up, so nothing has been changed either.
-/

namespace Conformance.Fix.State

variable {σ : Type} {held : Set (List UInt8)} {start : Disk} {directory : Path}
  {state : State σ} {session : BackupSession}

/-- The end of a run stores the records, also after an interruption, and changes nothing
else but the report. -/
theorem finish_cases (guarded : Guarded held start session state.disk)
    (running : state.session = some session) (broken : Option Interruption) :
    (∃ after, (state.finish broken).2 = { state with disk := after } ∧
      (state.finish broken).1 = (match broken with
        | some reason => .error reason
        | none => .ok { state.report with
            backups := session.records
            manifestPath := some session.manifestPath.text }) ∧
      GrowsWithin (start.resolve session.directory) state.disk after ∧ session.Usable start ∧
      Guarded held start session after ∧
      after.read session.manifestPath =
        .ok (Text.encode (BackupSession.manifestText session.records))) ∨
    ¬ session.Usable start ∧ state.disk = start ∧
      ∃ error, state.finish broken = (.error (.access error), state) := by
  rcases guarded.saveManifest with
    ⟨after, saved, steps, usable, again, read⟩ | ⟨unusable, same, _, error, refused⟩
  · refine .inl ⟨after, ?_, ?_, steps, usable, again, read⟩
    · simp only [finish, running, saved]
      cases broken <;> rfl
    · simp only [finish, running, saved]
      cases broken <;> rfl
  · refine .inr ⟨unusable, same, error, ?_⟩
    simp only [finish, running, refused]

/-- A state with an empty report for the next run. -/
def renew (state : State σ) : State σ := { state with report := .empty state.isDryRun }

/-- A run works on the files with an empty report and ends by storing the records. -/
theorem fixAll_eq (engine : Engine σ) (state : State σ) (groups : List (Path × List Violation)) :
    state.fixAll engine groups =
      (state.renew.fixEach engine groups).2.finish (state.renew.fixEach engine groups).1 := rfl

/-- A run keeps the disk guarded, however it ends. -/
theorem Safe.fixAll (safe : state.Safe held start directory)
    (distinct : Set.InjOn Sha256.hexDigest held) (engine : Engine σ)
    (groups : List (Path × List Violation))
    (subjects : ∀ group ∈ groups,
      Subject held start (start.resolve directory) group.1 (start.resolve group.1)) :
    (state.fixAll engine groups).2.Safe held start directory := by
  have renewed : state.renew.Safe held start directory := safe
  obtain ⟨session, running, same, guarded⟩ :=
    (renewed.fixEach engine (engine.restores_of_injOn distinct) groups subjects).1
  rw [fixAll_eq]
  rcases finish_cases guarded running (state.renew.fixEach engine groups).1 with
    ⟨after, stored, _, _, _, again, _⟩ | ⟨_, _, error, refused⟩
  · rw [stored]
    exact ⟨session, running, same, again⟩
  · rw [refused]
    exact ⟨session, running, same, guarded⟩

/-- A session that is used for one run after the other, whatever comes of them. -/
def fixRuns (state : State σ) (runs : List (Engine σ × List (Path × List Violation))) : State σ :=
  runs.foldl (fun state run => (state.fixAll run.1 run.2).2) state

/-- Runs keep the disk guarded. -/
theorem Safe.fixRuns (safe : state.Safe held start directory)
    (distinct : Set.InjOn Sha256.hexDigest held)
    (runs : List (Engine σ × List (Path × List Violation)))
    (subjects : ∀ group ∈ runs.flatMap Prod.snd,
      Subject held start (start.resolve directory) group.1 (start.resolve group.1)) :
    (state.fixRuns runs).Safe held start directory := by
  induction runs generalizing state with
  | nil => exact safe
  | cons run runs inductionHypothesis =>
    rw [List.flatMap_cons] at subjects
    have first := safe.fixAll distinct run.1 run.2 fun group member =>
      subjects group (List.mem_append_left _ member)
    exact inductionHypothesis first fun group member =>
      subjects group (List.mem_append_right _ member)

/-- The manifest on the disk of a state lists every file outside the home of the session
whose content is not that of the start. Restoring from it gives each listed file its content
of the start, and so does rolling the session back. -/
structure Restorable (start : Disk) (home : Location) (manifest : Path)
    (records : List BackupRecord) (state : State σ) : Prop where
  loaded : Manifest.load state.disk manifest =
    .ok (records.map (BackupRecordOf.map Json.string))
  lists : ∀ location : Location, ¬ home <+: location →
    state.disk.content? location ≠ start.content? location →
      ∃ record ∈ records, record.filePath = location.path.text
  recorded : ∀ record ∈ records, ∃ (location : Location) (bytes : List UInt8),
    record.filePath = location.path.text ∧ ¬ home <+: location ∧
      start.content? location = some bytes
  restored : ∃ after, Manifest.restore state.disk manifest =
      (after, .ok (records.map (BackupRecordOf.map Json.string))) ∧
    ∀ location : Location, ¬ home <+: location →
      after.content? location = start.content? location
  rolledBack : ∃ after, state.rollBackAll = (.ok records.length, { state with disk := after }) ∧
    ∀ location : Location, ¬ home <+: location →
      after.content? location = start.content? location

/-- A guarded disk on which the records are stored can be restored. -/
theorem restorable_of_guarded (guarded : Guarded held start session state.disk)
    (running : state.session = some session) (distinct : Set.InjOn Sha256.hexDigest held)
    (read : state.disk.read session.manifestPath =
      .ok (Text.encode (BackupSession.manifestText session.records))) :
    Restorable start (start.resolve session.directory) session.manifestPath session.records
      state := by
  obtain ⟨after, each, _, contents⟩ := guarded.restoreAll distinct
  refine ⟨Manifest.load_of_read _ _ read, ?_, ?_, ⟨after, ?_, contents⟩, ⟨after, ?_, contents⟩⟩
  · intro location apart changed
    have records : session.Records location := by
      by_contra unrecorded
      exact changed (guarded.outside location apart unrecorded)
    obtain ⟨record, member, _, guards⟩ := guarded.guards_of_records records
    exact ⟨record, member, guards.filePath⟩
  · intro record member
    obtain ⟨location, bytes, guards⟩ := guarded.recorded record member
    exact ⟨location, bytes, guards.filePath, guards.apart, guards.content⟩
  · exact Manifest.restore_of_read _ _ after read each
  · rw [rollBackAll, running]
    simp only [BackupSession.restoreAll, each]
    rfl

/-- However the last of several runs ends, every changed file can be restored, or nothing has
been changed at all because the directory of the session cannot be made. -/
theorem session_restorable (disk : Disk) (session : BackupSession) (verifier : σ)
    (begun : State σ) (formed : disk.WellFormed) (fresh : session.Fresh disk)
    (starts : State.start disk (some session) false verifier = .ok begun)
    (runs : List (Engine σ × List (Path × List Violation))) (engine : Engine σ)
    (groups : List (Path × List Violation))
    (outside : ∀ group ∈ runs.flatMap Prod.snd ++ groups, session.Admits disk group.1)
    (collisionFree : CollisionFree (originals disk (runs.flatMap Prod.snd ++ groups))) :
    let result := (begun.fixRuns runs).fixAll engine groups
    (∃ records, Restorable disk (disk.resolve session.directory) session.manifestPath records
      result.2) ∨
    result.2.disk = disk ∧ ¬ session.Usable disk ∧
      ∃ error, result.1 = .error (.access error) := by
  have subjects := subjects_of_admits _ outside
  have distinct := collisionFree.injOn
  generalize {bytes | bytes ∈ originals disk (runs.flatMap Prod.snd ++ groups)} = held
    at subjects distinct
  have begins := safe_of_start held formed fresh starts
  have used := begins.fixRuns distinct runs fun group member =>
    subjects group (List.mem_append_left _ member)
  have last := fun group member => subjects group (List.mem_append_right _ member)
  generalize begun.fixRuns runs = before at used
  have renewed : before.renew.Safe held disk session.directory := used
  obtain ⟨current, running, same, guarded⟩ :=
    (renewed.fixEach engine (engine.restores_of_injOn distinct) groups last).1
  have place : current.manifestPath = session.manifestPath := by
    rw [BackupSession.manifestPath, BackupSession.manifestPath, same]
  rw [fixAll_eq]
  rcases finish_cases guarded running (before.renew.fixEach engine groups).1 with
    ⟨after, stored, _, _, _, again, read⟩ | ⟨unusable, untouched, error, refused⟩
  · refine .inl ⟨current.records, ?_⟩
    rw [stored, ← place, ← same]
    exact restorable_of_guarded again running distinct read
  · refine .inr ⟨?_, ?_, error, ?_⟩
    · rw [refused, untouched]
    · rw [BackupSession.Usable, same] at unusable
      exact unusable
    · rw [refused]

/-- A disk with two files. -/
def sampleDisk : Disk :=
  ⟨["w"], [(["w"], .directory), (["w", "a.ts"], .file [97]), (["w", "b.ts"], .file [98])]⟩

/-- A session whose directory has not been made. -/
def sampleSession : BackupSession := .start (.ofString "backups") "s1"

/-- A fixer that claims everything and adds a mark. -/
def marking : Fixer :=
  { Fixer.blank with
    name := "mark"
    claims := fun _ _ => .ok true
    fix := fun _ text => .fixed (text ++ ['!']) }

/-- A violation in a file. -/
def sampleViolation (file : String) : Violation :=
  ⟨"tes-001", file, 1, 1, .warning, "", "", none, ""⟩

/-- A violation in each of two files. -/
def sampleGroups : List (Path × List Violation) :=
  ["a.ts", "b.ts"].map fun file => (.ofString file, [sampleViolation file])

/-- A verifier that accepts the first file, refuses the second one and then gives up. -/
def wavering : Verifier Nat := fun calls _ _ =>
  (if calls = 2 then .error (.other "stopped") else .ok (calls == 0), calls + 1)

/-- A run that commits one file and puts the other one back, and a second run that leaves a
text behind which has not been verified. -/
theorem session_restorable_wavering :
    let engine : Engine Nat := ⟨[marking], wavering, .sinceEpoch 0 0⟩
    let begun : State Nat := ⟨sampleDisk, some sampleSession, .empty false, 0⟩
    let result := (begun.fixRuns [(engine, sampleGroups)]).fixAll engine sampleGroups
    ∃ records, Restorable sampleDisk ["w", "backups", "s1"] sampleSession.manifestPath records
      result.2 := by
  rcases session_restorable sampleDisk sampleSession 0 _ (by decide) (by decide) rfl
      [(⟨[marking], wavering, .sinceEpoch 0 0⟩, sampleGroups)]
      ⟨[marking], wavering, .sinceEpoch 0 0⟩ sampleGroups (by decide) (by decide +kernel) with
    restorable | ⟨_, unusable, _⟩
  · exact restorable
  · exact absurd ⟨_, rfl⟩ unusable

end Conformance.Fix.State
