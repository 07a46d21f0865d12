import Conformance.Fix.Session
import Conformance.Proofs.Backup.Guarding

/-!
# Work on one file

What a session does to one file, once the disk is guarded. Backing up comes first: only a
recorded file is changed. Where the text is changed, the file is written and verified, and
the answer of the verifier alone decides what is on the disk in the end.
-/

namespace Conformance.Fix

variable {σ : Type} {held : Set (List UInt8)} {start : Disk} {location : Location}
  {path : Path} {state : State σ} {session : BackupSession}

/-- The contents of the files that are to be worked on. -/
def originals (disk : Disk) (groups : List (Path × List Violation)) : List (List UInt8) :=
  groups.filterMap fun group => disk.content? (disk.resolve group.1)

/-- The paths that a session may be given stand for the locations that they resolve to, with
the contents of these among those to be worked on. -/
theorem subjects_of_admits (groups : List (Path × List Violation))
    (outside : ∀ group ∈ groups, session.Admits start group.1) :
    ∀ group ∈ groups, Subject {bytes | bytes ∈ originals start groups} start
      (start.resolve session.directory) group.1 (start.resolve group.1) := by
  intro group member
  obtain ⟨written, resolves, apart⟩ := outside group member
  refine ⟨written, resolves, apart, ?_⟩
  intro bytes content
  exact List.mem_filterMap.mpr ⟨group, member, content⟩

/-- The contents that are held can be put back wherever the verifier refuses a file: their
digests tell them apart, or it refuses none. -/
def Engine.Restores (engine : Engine σ) (held : Set (List UInt8)) : Prop :=
  ∀ calls disk path, (engine.verify calls disk path).1 = .ok false →
    Set.InjOn Sha256.hexDigest held

/-- Contents with different digests can be put back whatever the verifier says. -/
theorem Engine.restores_of_injOn (engine : Engine σ)
    (distinct : Set.InjOn Sha256.hexDigest held) : engine.Restores held :=
  fun _ _ _ _ => distinct

/-- What the fixers make of the file that a path leads to. -/
def attempt (fixers : List Fixer) (disk : Disk) (path : Path) (violations : List Violation) :
    Except Interruption (Changes × Option Interruption) :=
  match disk.read path with
  | .error error => .error (.access error)
  | .ok bytes =>
    match Text.decode bytes with
    | .error error => .error (.encoding error)
    | .ok text => .ok (Changes.make fixers violations text)

/-- What the fixers make of a file is made of its text. -/
theorem attempt_eq_ok (fixers : List Fixer) (disk : Disk) (violations : List Violation)
    (changes : Changes) (broken : Option Interruption) :
    attempt fixers disk path violations = .ok (changes, broken) ↔
      ∃ bytes text, disk.read path = .ok bytes ∧ Text.decode bytes = .ok text ∧
        Changes.make fixers violations text = (changes, broken) := by
  unfold attempt
  cases read : disk.read path with
  | error error => simp
  | ok bytes => cases decoded : Text.decode bytes <;> simp [decoded]

/-- Where the fixers cannot even begin, that concerns only this file. -/
theorem isLocal_of_attempt (fixers : List Fixer) (disk : Disk) (violations : List Violation)
    (reason : Interruption) (tried : attempt fixers disk path violations = .error reason) :
    reason.isLocal = true := by
  unfold attempt at tried
  cases read : disk.read path with
  | error error =>
    simp only [read] at tried
    rw [← Except.error.inj tried]
    rfl
  | ok bytes =>
    cases decoded : Text.decode bytes with
    | error error =>
      simp only [read, decoded] at tried
      rw [← Except.error.inj tried]
      rfl
    | ok text => simp [read, decoded] at tried

namespace State

/-- Changing a file begins with what the fixers make of it. -/
theorem change_eq (engine : Engine σ) (state : State σ) (path : Path)
    (violations : List Violation) :
    state.change engine path violations =
      match attempt engine.fixers state.disk path violations with
      | .error reason => (.error reason, state)
      | .ok (changes, some reason) => (.error reason, state.enter path.text changes)
      | .ok (changes, none) =>
        if changes.applied = 0 then (.ok false, state.enter path.text changes)
        else match state.session with
          | none => (.ok true, (state.enter path.text changes).enterModified path.text)
          | some session => (state.enter path.text changes).commit engine session path changes := by
  unfold change attempt
  cases state.disk.read path with
  | error error => rfl
  | ok bytes =>
    cases decoded : Text.decode bytes with
    | error error => simp [decoded]
    | ok text =>
      simp only [decoded]
      obtain ⟨changes, broken⟩ := Changes.make engine.fixers violations text
      cases broken <;> rfl

/-- A file that does not pass is put back as it was at the start. -/
theorem rollBack_eq (state : State σ) (guarded : Guarded held start session state.disk)
    (distinct : Set.InjOn Sha256.hexDigest held) (resolves : start.Resolves path location)
    (records : session.Records location) (applied : Nat) :
    ∃ bytes, start.content? location = some bytes ∧
      state.rollBack session path applied = (.ok false, { state with
        disk := state.disk.put location (.file bytes)
        report := { state.report with fixed := state.report.fixed - applied }.addFailure
          path.text rollbackMessage }) := by
  obtain ⟨record, bytes, restored, content, _⟩ := guarded.restore distinct path
    ((guarded.grown.resolves_iff path location).mpr resolves) records
  refine ⟨bytes, content, ?_⟩
  simp only [rollBack, restored]

/-- What the answer of the verifier makes of a state in which the changed text of a file is
written, if there was another content at the start. -/
def answered (state : State σ) (location : Location) (original : List UInt8) (path : Path)
    (changes : Changes) (answer : Except Interruption Bool × σ) :
    Except Interruption Bool × State σ :=
  let written : State σ := { state with
    disk := state.disk.put location (.file (Text.encode changes.text))
    verifier := answer.2 }
  match answer.1 with
  | .error reason => (.error reason, written)
  | .ok true => (.ok true, written.enterModified path.text)
  | .ok false => (.ok false, { written with
      disk := written.disk.put location (.file original)
      report := { written.report with
        fixed := written.report.fixed - changes.applied }.addFailure path.text rollbackMessage })

/-- The answer of the verifier is what is said about the file. -/
theorem answered_fst (state : State σ) (location : Location) (original : List UInt8)
    (path : Path) (changes : Changes) (answer : Except Interruption Bool × σ) :
    (state.answered location original path changes answer).1 = answer.1 := by
  obtain ⟨verdict, verifier⟩ := answer
  cases verdict with
  | error reason => rfl
  | ok passed => cases passed <;> rfl

/-- Only a refused text is replaced by the content of the start. -/
theorem answered_content (state : State σ) (location : Location) (original : List UInt8)
    (path : Path) (changes : Changes) (answer : Except Interruption Bool × σ)
    (below : location ≠ []) :
    (answer.1 = .ok false →
      (state.answered location original path changes answer).2.disk.content? location =
        some original) ∧
    (answer.1 ≠ .ok false →
      (state.answered location original path changes answer).2.disk.content? location =
        some (Text.encode changes.text)) := by
  have there (disk : Disk) (bytes : List UInt8) :
      (disk.put location (.file bytes)).content? location = some bytes := by
    rw [Disk.content_put_file disk location location bytes below, if_pos rfl]
  obtain ⟨verdict, verifier⟩ := answer
  cases verdict with
  | error reason => exact ⟨by simp, fun _ => there _ _⟩
  | ok passed =>
    cases passed with
    | true => exact ⟨by simp, fun _ => there _ _⟩
    | false => exact ⟨fun _ => there _ _, by simp⟩

/-- A changed text is written, and the verifier's answer decides what becomes of it. -/
theorem commit_eq (state : State σ) (guarded : Guarded held start session state.disk)
    (resolves : start.Resolves path location) (records : session.Records location)
    (engine : Engine σ) (restores : engine.Restores held) (changes : Changes)
    (old : List UInt8) (read : state.disk.read path = .ok old) :
    ∃ bytes, start.content? location = some bytes ∧
      state.commit engine session path changes =
        state.answered location bytes path changes (engine.verify state.verifier
          (state.disk.put location (.file (Text.encode changes.text))) path) := by
  obtain ⟨followed, content⟩ := guarded.content_of_read path resolves old read
  have written := Disk.write_of_content path location old (Text.encode changes.text) followed
    content
  have again := guarded.put records (Text.encode changes.text)
  obtain ⟨_, _, bytes, guards⟩ := guarded.guards_of_records records
  refine ⟨bytes, guards.content, ?_⟩
  rw [commit, written]
  cases verified : engine.verify state.verifier
      (state.disk.put location (.file (Text.encode changes.text))) path with
  | mk verdict verifier =>
    simp only [verified, answered]
    cases verdict with
    | error reason => rfl
    | ok passed =>
      cases passed with
      | true => rfl
      | false =>
        obtain ⟨other, content, back⟩ := rollBack_eq
          { state with
            disk := state.disk.put location (.file (Text.encode changes.text))
            verifier := verifier }
          again (restores _ _ _ (by rw [verified])) resolves records changes.applied
        obtain rfl : other = bytes := Option.some.inj (content.symm.trans guards.content)
        exact back

/-- A state with the violations of one more file counted. -/
def count (state : State σ) (violations : List Violation) : State σ :=
  { state with report :=
    { state.report with totalViolations := state.report.totalViolations + violations.length } }

/-- A state after a backup. -/
def backedUp (state : State σ) (session : BackupSession) (disk : Disk) : State σ :=
  { state with disk := disk, session := some session }

/-- Work on a file begins with its backup. Where that fails, nothing else is done; it fails
only where no file can be read or the directory of the session cannot be made. -/
theorem fixFile_cases (guarded : Guarded held start session state.disk)
    (running : state.session = some session)
    (subject : Subject held start (start.resolve session.directory) path location)
    (engine : Engine σ) (violations : List Violation) :
    (∃ record next disk, session.backup engine.now state.disk path = .ok (record, next, disk) ∧
      BackedUp held start session state.disk location next disk ∧
      state.fixFile engine path violations =
        change engine ((state.count violations).backedUp next disk) path violations) ∨
    ((∀ bytes, state.disk.read location.path ≠ .ok bytes) ∨ ¬ session.Usable start) ∧
      ∃ error, session.backup engine.now state.disk path = .error error ∧
        state.fixFile engine path violations =
          (.error (.access error), state.count violations) := by
  rcases guarded.backup engine.now path subject with
    ⟨record, next, disk, backup, done⟩ | ⟨why, error, refused⟩
  · refine .inl ⟨record, next, disk, backup, done, ?_⟩
    simp only [fixFile, backUp, running, backup, count, backedUp]
  · refine .inr ⟨why, error, refused, ?_⟩
    simp only [fixFile, backUp, running, refused, count]

/-- Once a file is recorded, it is left as it is, or its changed text is written and the
answer of the verifier decides. A file that is left as it is concerns no other file, unless a
claim is broken off. -/
theorem change_cases (state : State σ) (guarded : Guarded held start session state.disk)
    (running : state.session = some session) (resolves : start.Resolves path location)
    (records : session.Records location) (engine : Engine σ) (restores : engine.Restores held)
    (violations : List Violation) :
    (∃ verdict report, state.change engine path violations =
        (verdict, { state with report := report }) ∧
      (verdict = .ok false ∨ ∃ reason, verdict = .error reason ∧ (reason.isLocal = true ∨
        ∃ changes, attempt engine.fixers state.disk path violations =
          .ok (changes, some reason))) ∧
      ∀ changes, attempt engine.fixers state.disk path violations = .ok (changes, none) →
        changes.applied = 0) ∨
    ∃ changes bytes, attempt engine.fixers state.disk path violations = .ok (changes, none) ∧
      changes.applied ≠ 0 ∧ start.content? location = some bytes ∧
      state.change engine path violations =
        (state.enter path.text changes).answered location bytes path changes
          (engine.verify state.verifier
            (state.disk.put location (.file (Text.encode changes.text))) path) := by
  rw [change_eq]
  cases tried : attempt engine.fixers state.disk path violations with
  | error reason =>
    have alone := isLocal_of_attempt _ _ _ _ tried
    exact .inl ⟨_, state.report, rfl, .inr ⟨reason, rfl, .inl alone⟩, by simp⟩
  | ok made =>
    obtain ⟨changes, broken⟩ := made
    cases broken with
    | some reason =>
      exact .inl ⟨_, (state.enter path.text changes).report, rfl,
        .inr ⟨reason, rfl, .inr ⟨changes, rfl⟩⟩, by simp⟩
    | none =>
      by_cases idle : changes.applied = 0
      · refine .inl ⟨.ok false, (state.enter path.text changes).report, ?_, .inl rfl, ?_⟩
        · simp only [idle, if_true]
          rfl
        · intro others same
          obtain rfl : changes = others := by simpa using same
          exact idle
      · obtain ⟨old, _, read, _⟩ := (attempt_eq_ok _ _ _ _ _).mp tried
        obtain ⟨bytes, content, committed⟩ := commit_eq (state.enter path.text changes) guarded
          resolves records engine restores changes old read
        refine .inr ⟨changes, bytes, rfl, idle, content, ?_⟩
        simp only [idle, if_false, running]
        exact committed

/-- Whatever the verifier answers, the disk stays guarded, nothing on it is lost and no other
file is changed. -/
theorem answered_spec (state : State σ) (guarded : Guarded held start session state.disk)
    (records : session.Records location) (original : List UInt8) (path : Path)
    (changes : Changes) (answer : Except Interruption Bool × σ) :
    (state.answered location original path changes answer).2.session = state.session ∧
      Guarded held start session (state.answered location original path changes answer).2.disk ∧
      state.disk.Grows (state.answered location original path changes answer).2.disk ∧
      ∀ other, other ≠ location →
        (state.answered location original path changes answer).2.disk.content? other =
          state.disk.content? other := by
  obtain ⟨_, _, bytes, guards⟩ := guarded.guards_of_records records
  have below : location ≠ [] := by
    rintro rfl
    simpa [Disk.content?] using guards.content
  have grows {disk : Disk} (guarded : Guarded held start session disk) (written : List UInt8) :
      disk.Grows (disk.put location (.file written)) :=
    Disk.grows_put_file location written (.inr (guarded.grown.files location bytes
      ((Disk.content_eq_some location bytes).mp guards.content)))
  have elsewhere (disk : Disk) (bytes : List UInt8) (other : Location) (apart : other ≠ location) :
      (disk.put location (.file bytes)).content? other = disk.content? other := by
    rw [Disk.content_put_file disk location other bytes below, if_neg apart]
  have written := guarded.put records (Text.encode changes.text)
  have grown := grows guarded (Text.encode changes.text)
  obtain ⟨verdict, verifier⟩ := answer
  cases verdict with
  | error reason => exact ⟨rfl, written, grown, fun other apart => elsewhere _ _ other apart⟩
  | ok passed =>
    cases passed with
    | true => exact ⟨rfl, written, grown, fun other apart => elsewhere _ _ other apart⟩
    | false =>
      exact ⟨rfl, written.put records original, grown.trans (grows written original),
        fun other apart => (elsewhere _ _ other apart).trans (elsewhere _ _ other apart)⟩

/-- A state in which the session with a directory guards the disk. -/
def Safe (held : Set (List UInt8)) (start : Disk) (directory : Path) (state : State σ) : Prop :=
  ∃ session, state.session = some session ∧ session.directory = directory ∧
    Guarded held start session state.disk

/-- A fresh session guards the disk when it starts. -/
theorem safe_of_start {begun : State σ} {verifier : σ} (held : Set (List UInt8))
    (formed : start.WellFormed) (fresh : session.Fresh start)
    (starts : State.start start (some session) false verifier = .ok begun) :
    begun.Safe held start session.directory := by
  obtain rfl := Except.ok.inj starts
  exact ⟨session, rfl, rfl, fresh.guarded formed⟩

/-- Changing a recorded file keeps the disk guarded. Nothing on the disk is lost, and no other
file is changed. -/
theorem change_safe (state : State σ) (guarded : Guarded held start session state.disk)
    (running : state.session = some session) (resolves : start.Resolves path location)
    (records : session.Records location) (engine : Engine σ) (restores : engine.Restores held)
    (violations : List Violation) :
    (state.change engine path violations).2.Safe held start session.directory ∧
      state.disk.Grows (state.change engine path violations).2.disk ∧
      ∀ other, other ≠ location →
        (state.change engine path violations).2.disk.content? other =
          state.disk.content? other := by
  rcases change_cases state guarded running resolves records engine restores violations with
    ⟨verdict, report, changed, _⟩ | ⟨changes, bytes, _, _, _, changed⟩
  · rw [changed]
    exact ⟨⟨session, running, rfl, guarded⟩, .refl _, fun _ _ => rfl⟩
  · rw [changed]
    obtain ⟨kept, again, grown, others⟩ := answered_spec (state.enter path.text changes) guarded
      records bytes path changes
      (engine.verify state.verifier
        (state.disk.put location (.file (Text.encode changes.text))) path)
    exact ⟨⟨session, kept.trans running, rfl, again⟩, grown, others⟩

/-- Work on a file keeps the disk guarded, however it ends. Nothing on the disk is lost, and no
other file outside the home of the session is changed. -/
theorem Safe.fixFile {directory : Path} (safe : state.Safe held start directory)
    (subject : Subject held start (start.resolve directory) path location) (engine : Engine σ)
    (restores : engine.Restores held) (violations : List Violation) :
    (state.fixFile engine path violations).2.Safe held start directory ∧
      state.disk.Grows (state.fixFile engine path violations).2.disk ∧
      ∀ other, ¬ start.resolve directory <+: other → other ≠ location →
        (state.fixFile engine path violations).2.disk.content? other =
          state.disk.content? other := by
  obtain ⟨session, running, rfl, guarded⟩ := safe
  rcases fixFile_cases guarded running subject engine violations with
    ⟨_, next, disk, _, done, fixed⟩ | ⟨_, error, _, fixed⟩
  · obtain ⟨safe, grown, others⟩ := change_safe ((state.count violations).backedUp next disk)
      done.guarded rfl subject.resolves done.records engine restores violations
    rw [done.directory] at safe
    rw [fixed]
    exact ⟨safe, done.steps.grown.trans grown, fun other apart elsewhere =>
      (others other elsewhere).trans (done.steps.outside other apart)⟩
  · rw [fixed]
    exact ⟨⟨session, running, rfl, guarded⟩, .refl _, fun _ _ _ => rfl⟩

/-- A state after the turn of a file whose failure, if it is one, concerns no other file. -/
def afterFile (engine : Engine σ) (state : State σ) (path : Path) (violations : List Violation) :
    State σ :=
  match state.fixFile engine path violations with
  | (.ok _, next) => next
  | (.error reason, next) =>
    { next with report := next.report.addFailure path.text reason.message }

/-- The turn of a file changes what the work on it changes; a failure is only entered. -/
theorem afterFile_spec (engine : Engine σ) (state : State σ) (path : Path)
    (violations : List Violation) :
    (state.afterFile engine path violations).disk =
        (state.fixFile engine path violations).2.disk ∧
      (state.afterFile engine path violations).session =
        (state.fixFile engine path violations).2.session ∧
      (state.afterFile engine path violations).report.filesModified =
        (state.fixFile engine path violations).2.report.filesModified := by
  unfold afterFile
  split
  · next fixed => rw [fixed]; exact ⟨rfl, rfl, rfl⟩
  · next fixed => rw [fixed]; exact ⟨rfl, rfl, rfl⟩

/-- After a file, the work goes on, or it ends with an interruption that does not concern this
file alone. -/
theorem fixEach_cases (engine : Engine σ) (state : State σ) (path : Path)
    (violations : List Violation) (groups : List (Path × List Violation)) :
    (∀ reason, (state.fixFile engine path violations).1 = .error reason →
        reason.isLocal = true) ∧
      state.fixEach engine ((path, violations) :: groups) =
        (state.afterFile engine path violations).fixEach engine groups ∨
      ∃ reason, (state.fixFile engine path violations).1 = .error reason ∧
        reason.isLocal = false ∧
        state.fixEach engine ((path, violations) :: groups) =
          (some reason, (state.fixFile engine path violations).2) := by
  rw [State.fixEach, afterFile]
  cases fixed : state.fixFile engine path violations with
  | mk verdict next =>
    cases verdict with
    | ok kept => exact .inl ⟨by simp, rfl⟩
    | error reason =>
      cases alone : reason.isLocal with
      | true => exact .inl ⟨by simp [alone], by simp only [alone, if_true]⟩
      | false => exact .inr ⟨reason, rfl, alone, by simp [alone]⟩

/-- After a file that concerns no other one, the work goes on. -/
theorem fixEach_cons (engine : Engine σ) (state : State σ) (path : Path)
    (violations : List Violation) (groups : List (Path × List Violation))
    (alone : ∀ reason, (state.fixFile engine path violations).1 = .error reason →
      reason.isLocal = true) :
    state.fixEach engine ((path, violations) :: groups) =
      (state.afterFile engine path violations).fixEach engine groups := by
  rcases fixEach_cases engine state path violations groups with
    ⟨_, goesOn⟩ | ⟨reason, broken, shared, _⟩
  · exact goesOn
  · rw [alone reason broken] at shared
    cases shared

/-- The turn of a file keeps the disk guarded. -/
theorem Safe.afterFile {directory : Path} (safe : state.Safe held start directory)
    (subject : Subject held start (start.resolve directory) path location) (engine : Engine σ)
    (restores : engine.Restores held) (violations : List Violation) :
    (state.afterFile engine path violations).Safe held start directory ∧
      state.disk.Grows (state.afterFile engine path violations).disk ∧
      ∀ other, ¬ start.resolve directory <+: other → other ≠ location →
        (state.afterFile engine path violations).disk.content? other =
          state.disk.content? other := by
  obtain ⟨sameDisk, sameSession, _⟩ := state.afterFile_spec engine path violations
  rw [Safe, sameDisk, sameSession]
  exact safe.fixFile subject engine restores violations

/-- After the turn of a file, those that are still to come are as they were at the start, if
they were so before. -/
theorem contents_afterFile {directory : Path} (safe : state.Safe held start directory)
    (engine : Engine σ) (restores : engine.Restores held) (violations : List Violation)
    (groups : List (Path × List Violation))
    (subjects : ∀ group ∈ (path, violations) :: groups,
      Subject held start (start.resolve directory) group.1 (start.resolve group.1))
    (apart : (((path, violations) :: groups).map fun group => start.resolve group.1).Nodup)
    (contents : ∀ group ∈ (path, violations) :: groups,
      state.disk.content? (start.resolve group.1) = start.content? (start.resolve group.1)) :
    ∀ group ∈ groups, (state.afterFile engine path violations).disk.content?
      (start.resolve group.1) = start.content? (start.resolve group.1) := by
  intro group member
  have listed := List.mem_cons_of_mem (path, violations) member
  have other : start.resolve group.1 ≠ start.resolve path := by
    intro same
    exact (List.nodup_cons.mp apart).1 (List.mem_map.mpr ⟨group, member, same⟩)
  obtain ⟨_, _, elsewhere⟩ := safe.afterFile (subjects (path, violations) List.mem_cons_self)
    engine restores violations
  rw [elsewhere _ (subjects group listed).apart other]
  exact contents group listed

/-- Work on several files keeps the disk guarded. Nothing on the disk is lost, and no file but
them outside the home of the session is changed. -/
theorem Safe.fixEach {directory : Path} (safe : state.Safe held start directory)
    (engine : Engine σ) (restores : engine.Restores held)
    (groups : List (Path × List Violation))
    (subjects : ∀ group ∈ groups,
      Subject held start (start.resolve directory) group.1 (start.resolve group.1)) :
    (state.fixEach engine groups).2.Safe held start directory ∧
      state.disk.Grows (state.fixEach engine groups).2.disk ∧
      ∀ other, ¬ start.resolve directory <+: other →
        (∀ group ∈ groups, start.resolve group.1 ≠ other) →
          (state.fixEach engine groups).2.disk.content? other = state.disk.content? other := by
  induction groups generalizing state with
  | nil => exact ⟨safe, .refl _, fun _ _ _ => rfl⟩
  | cons group groups inductionHypothesis =>
    obtain ⟨path, violations⟩ := group
    have subject := subjects (path, violations) List.mem_cons_self
    rcases fixEach_cases engine state path violations groups with
      ⟨_, goesOn⟩ | ⟨reason, _, _, broken⟩
    · obtain ⟨next, grown, elsewhere⟩ := safe.afterFile subject engine restores violations
      obtain ⟨final, further, others⟩ := inductionHypothesis next fun group member =>
        subjects group (List.mem_cons_of_mem _ member)
      rw [goesOn]
      refine ⟨final, grown.trans further, ?_⟩
      intro other apart absent
      have here := absent (path, violations) List.mem_cons_self
      rw [others other apart fun group member => absent group (List.mem_cons_of_mem _ member)]
      exact elsewhere other apart (Ne.symm here)
    · obtain ⟨next, grown, elsewhere⟩ := safe.fixFile subject engine restores violations
      rw [broken]
      refine ⟨next, grown, ?_⟩
      intro other apart absent
      exact elsewhere other apart (Ne.symm (absent (path, violations) List.mem_cons_self))

end State

end Conformance.Fix
