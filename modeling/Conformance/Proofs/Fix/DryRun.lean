import Conformance.Proofs.Fix.Restoring

/-!
# Dry runs

A dry run leaves the disk as it is, and its report foretells that of a run whose verifier
accepts everything. Only the latter begins with backups, so the two fail at different places,
but they fail for the same files.

The run makes directories for its backups, though. A path such as `backups/../a.ts` may lead to
a file only once they are made, and where they cannot be made the run ends without a report.
-/

namespace Conformance.Fix

/-- One report gives the same account as another one, up to what is said about failures. -/
structure Report.Foretells (trial actual : Report) : Prop where
  totalViolations : trial.totalViolations = actual.totalViolations
  fixed : trial.fixed = actual.fixed
  failed : trial.failed = actual.failed
  skipped : trial.skipped = actual.skipped
  filesModified : trial.filesModified = actual.filesModified
  failing : trial.errors.map FileError.file = actual.errors.map FileError.file

namespace Report.Foretells

variable {trial actual : Report}

/-- The share of the violations that are fixed is foretold. -/
theorem successRate (foretells : trial.Foretells actual) :
    trial.successRate = actual.successRate := by
  simp only [Report.successRate, foretells.totalViolations, foretells.fixed]

/-- Failures of one file may be told in different words. -/
theorem addFailure (foretells : trial.Foretells actual) (file error other : String) :
    (trial.addFailure file error).Foretells (actual.addFailure file other) where
  totalViolations := foretells.totalViolations
  fixed := foretells.fixed
  failed := congrArg (· + 1) foretells.failed
  skipped := foretells.skipped
  filesModified := foretells.filesModified
  failing := by simp only [Report.addFailure, List.map_append, foretells.failing, List.map_cons]

/-- Several failures of one file. -/
theorem addFailures (foretells : trial.Foretells actual) (file : String)
    (messages : List String) :
    (messages.foldl (fun report message => report.addFailure file message) trial).Foretells
      (messages.foldl (fun report message => report.addFailure file message) actual) := by
  induction messages generalizing trial actual with
  | nil => exact foretells
  | cons message messages inductionHypothesis =>
    exact inductionHypothesis (foretells.addFailure file message message)

end Report.Foretells

namespace State

variable {σ τ : Type} {held : Set (List UInt8)} {start disk : Disk} {directory : Path}
  {location : Location} {path : Path} {trial : State τ} {state : State σ}
  {session : BackupSession}

/-- What is done to a text is entered alike. -/
theorem enter_foretells (foretells : trial.report.Foretells state.report) (file : String)
    (changes : Changes) :
    (trial.enter file changes).report.Foretells (state.enter file changes).report := by
  have failures := foretells.addFailures file changes.failures
  exact ⟨failures.totalViolations, congrArg (· + (changes.applied : Int)) failures.fixed,
    failures.failed, congrArg (· + (changes.skipped : Int)) failures.skipped,
    failures.filesModified, failures.failing⟩

/-- A file that has been changed is entered alike. -/
theorem enterModified_foretells (foretells : trial.report.Foretells state.report)
    (file : String) :
    (trial.enterModified file).report.Foretells (state.enterModified file).report :=
  { foretells with filesModified := congrArg (· ++ [file]) foretells.filesModified }

/-- Violations are counted alike. -/
theorem count_foretells (foretells : trial.report.Foretells state.report)
    (violations : List Violation) :
    (trial.count violations).report.Foretells (state.count violations).report :=
  { foretells with
    totalViolations := congrArg (· + (violations.length : Int)) foretells.totalViolations }

/-- In a dry run, the work on a file begins with its text. -/
theorem fixFile_dry (dry : trial.session = none) (engine : Engine τ) (path : Path)
    (violations : List Violation) :
    trial.fixFile engine path violations =
      (trial.count violations).change engine path violations := by
  simp only [fixFile, backUp, dry, count]

/-- A dry run of one file leaves the disk as it is. -/
theorem fixFile_disk (dry : trial.session = none) (engine : Engine τ) (path : Path)
    (violations : List Violation) :
    (trial.fixFile engine path violations).2.session = none ∧
      (trial.fixFile engine path violations).2.disk = trial.disk := by
  rw [fixFile_dry dry, change_eq]
  have still : (trial.count violations).session = none := dry
  cases attempt engine.fixers (trial.count violations).disk path violations with
  | error reason => exact ⟨dry, rfl⟩
  | ok made =>
    obtain ⟨changes, broken⟩ := made
    cases broken with
    | some reason => exact ⟨dry, rfl⟩
    | none =>
      simp only [still]
      split <;> exact ⟨dry, rfl⟩

/-- A dry run of several files leaves the disk as it is. -/
theorem fixEach_disk (dry : trial.session = none) (engine : Engine τ)
    (groups : List (Path × List Violation)) :
    (trial.fixEach engine groups).2.session = none ∧
      (trial.fixEach engine groups).2.disk = trial.disk := by
  induction groups generalizing trial with
  | nil => exact ⟨dry, rfl⟩
  | cons group groups inductionHypothesis =>
    obtain ⟨path, violations⟩ := group
    obtain ⟨still, same⟩ := fixFile_disk dry engine path violations
    rcases fixEach_cases engine trial path violations groups with
      ⟨_, goesOn⟩ | ⟨reason, _, _, broken⟩
    · obtain ⟨sameDisk, sameSession, _⟩ := trial.afterFile_spec engine path violations
      rw [goesOn, ← same, ← sameDisk]
      exact inductionHypothesis (sameSession.trans still)
    · rw [broken]
      exact ⟨still, same⟩

/-- A dry run has nothing to store in the end. -/
theorem finish_dry (dry : trial.session = none) (broken : Option Interruption) :
    trial.finish broken = (match broken with
      | some reason => .error reason
      | none => .ok trial.report, trial) := by
  simp only [finish, dry]
  cases broken <;> rfl

/-- A dry run leaves the disk as it is. -/
theorem fixAll_disk (dry : trial.session = none) (engine : Engine τ)
    (groups : List (Path × List Violation)) :
    (trial.fixAll engine groups).2.disk = trial.disk := by
  have stillDry : trial.renew.session = none := dry
  obtain ⟨ended, same⟩ := fixEach_disk stillDry engine groups
  rw [fixAll_eq, finish_dry ended, same]
  rfl

/-- A verifier that accepts whatever it is shown. -/
def AcceptsAll (engine : Engine σ) : Prop :=
  ∀ calls disk path, (engine.verify calls disk path).1 = .ok true

/-- What accepts everything never needs to put a file back. -/
theorem AcceptsAll.restores {engine : Engine σ} (accepts : AcceptsAll engine)
    (held : Set (List UInt8)) : engine.Restores held := by
  intro calls disk path refused
  rw [accepts] at refused
  cases refused

/-- A changed text that is accepted is kept, and the file is entered as changed. -/
theorem commit_accepted (state : State σ) (guarded : Guarded held start session state.disk)
    (resolves : start.Resolves path location) (records : session.Records location)
    (engine : Engine σ) (accepts : AcceptsAll engine) (changes : Changes) (old : List UInt8)
    (read : state.disk.read path = .ok old) :
    (state.commit engine session path changes).1 = .ok true ∧
      (state.commit engine session path changes).2.report =
        (state.enterModified path.text).report := by
  obtain ⟨original, _, committed⟩ := commit_eq state guarded resolves records engine
    (accepts.restores held) changes old read
  have accepted := accepts state.verifier
    (state.disk.put location (.file (Text.encode changes.text))) path
  rw [committed]
  generalize engine.verify state.verifier
    (state.disk.put location (.file (Text.encode changes.text))) path = answer at accepted
  obtain ⟨verdict, verifier⟩ := answer
  obtain rfl : verdict = .ok true := accepted
  exact ⟨rfl, rfl⟩

/-- Two turns of a file come to the same: they give the same account, and either the same
answer or both a failure that concerns only this file. -/
structure Alike (turn : Except Interruption Bool × State τ)
    (other : Except Interruption Bool × State σ) : Prop where
  foretells : turn.2.report.Foretells other.2.report
  verdict : turn.1 = other.1 ∨ ∃ reason failure, turn.1 = .error reason ∧
    other.1 = .error failure ∧ reason.isLocal = true ∧ failure.isLocal = true

/-- An interruption that does not concern one file alone comes of both turns or of neither. -/
theorem Alike.broken_iff {turn : Except Interruption Bool × State τ}
    {other : Except Interruption Bool × State σ} (alike : Alike turn other)
    (reason : Interruption) (shared : reason.isLocal = false) :
    turn.1 = .error reason ↔ other.1 = .error reason := by
  rcases alike.verdict with same | ⟨one, failure, first, second, alone, aloneToo⟩
  · rw [same]
  · rw [first, second]
    constructor
    · intro equal
      rw [Except.error.inj equal, shared] at alone
      cases alone
    · intro equal
      rw [Except.error.inj equal, shared] at aloneToo
      cases aloneToo

/-- A failure that concerns only this file is entered after both turns. -/
theorem Alike.afterFile {rehearsal : Engine τ} {engine : Engine σ} {violations : List Violation}
    (alike : Alike (trial.fixFile rehearsal path violations)
      (state.fixFile engine path violations)) :
    (trial.afterFile rehearsal path violations).report.Foretells
      (state.afterFile engine path violations).report := by
  obtain ⟨foretells, verdict⟩ := alike
  unfold State.afterFile
  generalize trial.fixFile rehearsal path violations = turn at foretells verdict ⊢
  generalize state.fixFile engine path violations = actual at foretells verdict ⊢
  obtain ⟨answer, next⟩ := turn
  obtain ⟨other, later⟩ := actual
  rcases verdict with same | ⟨reason, failure, first, second, _, _⟩
  · obtain rfl : answer = other := same
    cases answer with
    | ok kept => exact foretells
    | error reason => exact foretells.addFailure path.text reason.message reason.message
  · obtain rfl : answer = .error reason := first
    obtain rfl : other = .error failure := second
    exact foretells.addFailure path.text reason.message failure.message

/-- The fixers make the same of a file on a guarded disk as at the start while its content is
that of the start, or the path leads to no file on either disk. -/
theorem attempt_alike (guarded : Guarded held start session disk) (written : path.Written)
    (resolves : start.Resolves path location)
    (content : disk.content? location = start.content? location)
    (unaided : disk.isFile path = true → start.isFile path = true) (fixers : List Fixer)
    (violations : List Violation) :
    attempt fixers start path violations = attempt fixers disk path violations ∨
      ∃ error other, attempt fixers start path violations = .error (.access error) ∧
        attempt fixers disk path violations = .error (.access other) := by
  cases read : start.read path with
  | ok bytes =>
    obtain ⟨again, _⟩ := guarded.read_of_start path written resolves content bytes read
    exact .inl (by simp only [attempt, read, again])
  | error error =>
    cases again : disk.read path with
    | ok bytes =>
      have present := unaided (Disk.isFile_of_read path bytes again)
      obtain ⟨old, found⟩ := Disk.read_of_isFile path present
      rw [read] at found
      cases found
    | error other => exact .inr ⟨error, other, by simp only [attempt, read],
        by simp only [attempt, again]⟩

/-- Changing a recorded file comes to the same as it does in a dry run, if every text is
accepted. -/
theorem change_alike (trial : State τ) (state : State σ)
    (guarded : Guarded held start session state.disk)
    (running : state.session = some session) (dry : trial.session = none)
    (untouched : trial.disk = start) (written : path.Written)
    (resolves : start.Resolves path location) (records : session.Records location)
    (content : state.disk.content? location = start.content? location)
    (unaided : state.disk.isFile path = true → start.isFile path = true)
    (rehearsal : Engine τ) (engine : Engine σ) (same : rehearsal.fixers = engine.fixers)
    (accepts : AcceptsAll engine) (foretells : trial.report.Foretells state.report)
    (violations : List Violation) :
    Alike (trial.change rehearsal path violations) (state.change engine path violations) := by
  rw [change_eq, change_eq, same, untouched]
  rcases attempt_alike guarded written resolves content unaided engine.fixers violations with
    agrees | ⟨error, other, first, second⟩
  · rw [agrees]
    cases tried : attempt engine.fixers state.disk path violations with
    | error reason => exact ⟨foretells, .inl rfl⟩
    | ok made =>
      obtain ⟨changes, broken⟩ := made
      have entered := enter_foretells foretells path.text changes
      cases broken with
      | some reason => exact ⟨entered, .inl rfl⟩
      | none =>
        by_cases idle : changes.applied = 0
        · simp only [idle, if_true]
          exact ⟨entered, .inl rfl⟩
        · obtain ⟨old, _, read, _⟩ := (attempt_eq_ok _ _ _ _ _).mp tried
          obtain ⟨kept, report⟩ := commit_accepted (state.enter path.text changes)
            guarded resolves records engine accepts changes old read
          simp only [idle, if_false, dry, running]
          refine ⟨?_, .inl kept.symm⟩
          rw [report]
          exact enterModified_foretells entered path.text
  · rw [first, second]
    exact ⟨foretells, .inr ⟨_, _, rfl, rfl, rfl, rfl⟩⟩

/-- The turn of a file comes to the same in a dry run, if the directory of the session can be
made and every text is accepted. Where the backup fails, the dry run cannot read the file
either. -/
theorem fixFile_alike (safe : state.Safe held start directory)
    (usable : ∃ made, start.makeDirectories directory = .ok made)
    (dry : trial.session = none) (untouched : trial.disk = start)
    (subject : Subject held start (start.resolve directory) path location)
    (content : state.disk.content? location = start.content? location) (rehearsal : Engine τ)
    (engine : Engine σ) (same : rehearsal.fixers = engine.fixers) (accepts : AcceptsAll engine)
    (foretells : trial.report.Foretells state.report) (violations : List Violation)
    (unaided : (state.fixFile engine path violations).2.disk.isFile path = true →
      start.isFile path = true) :
    Alike (trial.fixFile rehearsal path violations) (state.fixFile engine path violations) := by
  have counted := count_foretells foretells violations
  obtain ⟨session, running, rfl, guarded⟩ := safe
  rw [fixFile_dry dry]
  rcases fixFile_cases guarded running subject engine violations with
    ⟨_, next, disk, _, done, fixed⟩ | ⟨unreadable | unusable, error, _, fixed⟩
  · rw [fixed] at unaided ⊢
    obtain ⟨_, grown, _⟩ := change_safe ((state.count violations).backedUp next disk)
      done.guarded rfl subject.resolves done.records engine (accepts.restores held) violations
    exact change_alike (trial.count violations) ((state.count violations).backedUp next disk)
      done.guarded rfl dry untouched subject.written subject.resolves done.records
      ((done.steps.outside location subject.apart).trans content)
      (fun present => unaided (grown.isFile path present)) rehearsal engine same accepts counted
      violations
  · rw [fixed, change_eq]
    have unread : ∃ error, start.read path = .error error := by
      cases read : start.read path with
      | ok bytes =>
        obtain ⟨_, readable⟩ := guarded.read_of_start path subject.written subject.resolves
          content bytes read
        exact absurd readable (unreadable bytes)
      | error error => exact ⟨error, rfl⟩
    obtain ⟨fault, read⟩ := unread
    have tried : attempt rehearsal.fixers (trial.count violations).disk path violations =
        .error (.access fault) := by
      simp only [attempt, count, untouched, read]
    rw [tried]
    exact ⟨counted, .inr ⟨_, _, rfl, rfl, rfl, rfl⟩⟩
  · exact absurd usable unusable

/-- Work on several files comes to the same in a dry run. The induction is on the files: the run
has changed none of those that are still to come, so they are as the dry run sees them. -/
theorem fixEach_alike (safe : state.Safe held start directory)
    (usable : ∃ made, start.makeDirectories directory = .ok made)
    (dry : trial.session = none) (untouched : trial.disk = start) (rehearsal : Engine τ)
    (engine : Engine σ) (same : rehearsal.fixers = engine.fixers) (accepts : AcceptsAll engine)
    (foretells : trial.report.Foretells state.report) (groups : List (Path × List Violation))
    (subjects : ∀ group ∈ groups,
      Subject held start (start.resolve directory) group.1 (start.resolve group.1))
    (apart : (groups.map fun group => start.resolve group.1).Nodup)
    (contents : ∀ group ∈ groups, state.disk.content? (start.resolve group.1) =
      start.content? (start.resolve group.1))
    (unaided : ∀ group ∈ groups, (state.fixEach engine groups).2.disk.isFile group.1 = true →
      start.isFile group.1 = true) :
    (trial.fixEach rehearsal groups).1 = (state.fixEach engine groups).1 ∧
      (trial.fixEach rehearsal groups).2.report.Foretells
        (state.fixEach engine groups).2.report := by
  induction groups generalizing trial state with
  | nil => exact ⟨rfl, foretells⟩
  | cons group groups inductionHypothesis =>
    obtain ⟨path, violations⟩ := group
    have subject := subjects (path, violations) List.mem_cons_self
    have following (group : Path × List Violation) (member : group ∈ groups) :=
      subjects group (List.mem_cons_of_mem (path, violations) member)
    have content := contents (path, violations) List.mem_cons_self
    -- Nothing is lost later, so a file that this turn reaches is still there at the end.
    have turn (kept : (state.fixFile engine path violations).2.disk.Grows
        (state.fixEach engine ((path, violations) :: groups)).2.disk) :=
      fixFile_alike safe usable dry untouched subject content rehearsal engine same accepts
        foretells violations fun present =>
          unaided (path, violations) List.mem_cons_self (kept.isFile path present)
    rcases fixEach_cases engine state path violations groups with
      ⟨alone, goesOn⟩ | ⟨reason, broken, shared, ended⟩
    · obtain ⟨nextSafe, _, _⟩ :=
        safe.afterFile subject engine (accepts.restores held) violations
      obtain ⟨sameDisk, _, _⟩ := state.afterFile_spec engine path violations
      obtain ⟨_, further, _⟩ :=
        nextSafe.fixEach engine (accepts.restores held) groups following
      rw [goesOn, ← sameDisk] at turn
      rw [goesOn] at unaided ⊢
      have alike := turn further
      obtain ⟨trialDisk, trialSession, _⟩ := trial.afterFile_spec rehearsal path violations
      obtain ⟨stillDry, stillUntouched⟩ := fixFile_disk dry rehearsal path violations
      rw [fixEach_cons]
      · exact inductionHypothesis nextSafe (trialSession.trans stillDry)
          ((trialDisk.trans stillUntouched).trans untouched) alike.afterFile following
          (List.nodup_cons.mp apart).2
          (contents_afterFile safe engine (accepts.restores held) violations groups subjects apart
            contents)
          fun group member => unaided group (List.mem_cons_of_mem _ member)
      · intro reason broken
        by_contra shared
        rw [alike.broken_iff reason (by simpa using shared)] at broken
        exact shared (alone reason broken)
    · rw [ended] at turn ⊢
      have alike := turn (.refl _)
      rcases fixEach_cases rehearsal trial path violations groups with
        ⟨alone, _⟩ | ⟨other, brokenToo, _, endedToo⟩
      · have limited := alone reason ((alike.broken_iff reason shared).mpr broken)
        rw [shared] at limited
        cases limited
      · rw [(alike.broken_iff reason shared).mpr broken] at brokenToo
        rw [endedToo, ← Except.error.inj brokenToo]
        exact ⟨rfl, alike.foretells⟩

/-- What comes of a dry run foretells what comes of a run: the reports agree, or both are broken
off for the same reason. -/
inductive Foretold : Except Interruption Report → Except Interruption Report → Prop where
  | reports (trial actual : Report) (foretells : trial.Foretells actual)
      (rate : trial.successRate = actual.successRate) : Foretold (.ok trial) (.ok actual)
  | broken (reason : Interruption) : Foretold (.error reason) (.error reason)

/-- What is fixed is foretold. -/
theorem Foretold.fixed {trial actual : Except Interruption Report}
    (foretold : Foretold trial actual) : trial.map Report.fixed = actual.map Report.fixed := by
  cases foretold with
  | reports trial actual foretells _ => exact congrArg Except.ok foretells.fixed
  | broken reason => rfl

/-- What comes of a run is foretold by a dry run on the disk of the start, if the directory of
the session can be made. -/
theorem fixAll_foretold (safe : state.Safe held start directory)
    (usable : ∃ made, start.makeDirectories directory = .ok made)
    (dry : trial.session = none) (untouched : trial.disk = start) (rehearsal : Engine τ)
    (engine : Engine σ) (same : rehearsal.fixers = engine.fixers) (accepts : AcceptsAll engine)
    (groups : List (Path × List Violation))
    (subjects : ∀ group ∈ groups,
      Subject held start (start.resolve directory) group.1 (start.resolve group.1))
    (apart : (groups.map fun group => start.resolve group.1).Nodup)
    (contents : ∀ group ∈ groups, state.disk.content? (start.resolve group.1) =
      start.content? (start.resolve group.1))
    (unaided : ∀ group ∈ groups, (state.fixAll engine groups).2.disk.isFile group.1 = true →
      start.isFile group.1 = true) :
    Foretold (trial.fixAll rehearsal groups).1 (state.fixAll engine groups).1 := by
  have renewed : state.renew.Safe held start directory := safe
  have stillDry : trial.renew.session = none := dry
  have stillUntouched : trial.renew.disk = start := untouched
  have empty : trial.renew.report.Foretells state.renew.report := ⟨rfl, rfl, rfl, rfl, rfl, rfl⟩
  obtain ⟨current, running, rfl, guarded⟩ :=
    (renewed.fixEach engine (accepts.restores held) groups subjects).1
  have each := fixEach_alike renewed usable stillDry stillUntouched rehearsal engine same accepts
    empty groups subjects apart contents
  rw [fixAll_eq] at unaided ⊢
  rw [fixAll_eq, finish_dry (fixEach_disk stillDry rehearsal groups).1]
  rcases finish_cases guarded running (state.renew.fixEach engine groups).1 with
    ⟨after, stored, reported, steps, _⟩ | ⟨unusable, _⟩
  · rw [stored] at unaided
    obtain ⟨broken, foretells⟩ := each fun group member present =>
      unaided group member (steps.grown.isFile group.1 present)
    rw [reported, broken]
    cases (state.renew.fixEach engine groups).1 with
    | some reason => exact .broken reason
    | none => exact .reports _ _ { foretells with } foretells.successRate
  · exact absurd usable unusable

/-- A verifier that accepts everything. -/
def accepting : Verifier Unit := fun calls _ _ => (.ok true, calls)

/-- The disk with two files where the directory of the session cannot be made. -/
def blockedDisk : Disk := sampleDisk.put ["w", "backups"] (.file [98])

/-- A file that is named through the directory of the backups. -/
def throughBackups : List (Path × List Violation) :=
  [(.ofString "backups/../a.ts", [sampleViolation "a.ts"])]

end State

end Conformance.Fix
