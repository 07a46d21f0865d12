import Conformance.Proofs.Fix.Restoring
import Conformance.Proofs.Fix.Revising

/-!
# Outcomes of a run

Where no claim is broken off and the verifier always answers, a run comes to its end, and
each file holds either the revised text that the verifier has accepted or its bytes from
before. Which of the two depends on the file and on what the verifier says in the file's
turn.
-/

namespace Conformance.Fix.State

variable {σ : Type} {held : Set (List UInt8)} {start : Disk} {directory : Path}
  {location : Location} {path : Path} {state : State σ} {session : BackupSession}

/-- Failures of fixers do not enter a file as changed. -/
@[simp] theorem enter_filesModified (state : State σ) (file : String) (changes : Changes) :
    (state.enter file changes).report.filesModified = state.report.filesModified := by
  have failures (messages : List String) (report : Report) :
      (messages.foldl (fun report message => report.addFailure file message) report).filesModified =
        report.filesModified := by
    induction messages generalizing report with
    | nil => rfl
    | cons message messages inductionHypothesis => exact inductionHypothesis _
  exact failures changes.failures state.report

/-- The file that an answer adds to those that have been changed, if it says that a change is
kept. -/
def keptFile (path : Path) : Except Interruption Bool → List String
  | .ok true => [path.text]
  | _ => []

/-- An answer adds no file but the one that it is about. -/
theorem eq_of_mem_keptFile (verdict : Except Interruption Bool) (name : String)
    (member : name ∈ keptFile path verdict) : name = path.text := by
  unfold keptFile at member
  split at member
  · exact List.mem_singleton.mp member
  · cases member

/-- A file that is put back, or that cannot be, is not entered as changed. -/
theorem rollBack_filesModified (state : State σ) (session : BackupSession) (path : Path)
    (applied : Nat) :
    (state.rollBack session path applied).2.report.filesModified =
      state.report.filesModified ++ keptFile path (state.rollBack session path applied).1 := by
  simp only [rollBack]
  cases session.restore state.disk path <;> exact (List.append_nil _).symm

/-- A file is entered as changed where the change is kept. -/
theorem commit_filesModified (engine : Engine σ) (state : State σ) (session : BackupSession)
    (path : Path) (changes : Changes) :
    (state.commit engine session path changes).2.report.filesModified =
      state.report.filesModified ++
        keptFile path (state.commit engine session path changes).1 := by
  unfold commit
  cases state.disk.write path (Text.encode changes.text) with
  | error error => exact (List.append_nil _).symm
  | ok disk =>
    cases verified : engine.verify state.verifier disk path with
    | mk verdict verifier =>
      simp only [verified]
      cases verdict with
      | error reason => exact (List.append_nil _).symm
      | ok passed =>
        cases passed with
        | true => rfl
        | false => exact rollBack_filesModified _ session path changes.applied

/-- Changing a file enters it as changed if the answer is that its change is kept. -/
theorem change_filesModified (engine : Engine σ) (state : State σ) (path : Path)
    (violations : List Violation) :
    (state.change engine path violations).2.report.filesModified =
      state.report.filesModified ++ keptFile path (state.change engine path violations).1 := by
  rw [change_eq]
  cases attempt engine.fixers state.disk path violations with
  | error reason => exact (List.append_nil _).symm
  | ok made =>
    obtain ⟨changes, broken⟩ := made
    have entered := state.enter_filesModified path.text changes
    cases broken with
    | some reason => exact entered.trans (List.append_nil _).symm
    | none =>
      simp only
      split
      · exact entered.trans (List.append_nil _).symm
      · split
        · exact congrArg (· ++ [path.text]) entered
        · rw [commit_filesModified, entered]

/-- A backup leaves the report as it is. -/
theorem backUp_report (state next : State σ) (now : Moment) (path : Path)
    (backup : state.backUp now path = .ok next) : next.report = state.report := by
  unfold backUp at backup
  split at backup
  · rw [← Except.ok.inj backup]
  · split at backup
    · cases backup
    · rw [← Except.ok.inj backup]

/-- A turn begins with the count of its violations and the backup of its file. -/
theorem fixFile_eq (engine : Engine σ) (state : State σ) (path : Path)
    (violations : List Violation) :
    state.fixFile engine path violations =
      match (state.count violations).backUp engine.now path with
      | .error reason => (.error reason, state.count violations)
      | .ok next => next.change engine path violations := rfl

/-- A file is entered as changed if the answer is that its change is kept. -/
theorem fixFile_filesModified (engine : Engine σ) (state : State σ) (path : Path)
    (violations : List Violation) :
    (state.fixFile engine path violations).2.report.filesModified =
      state.report.filesModified ++ keptFile path (state.fixFile engine path violations).1 := by
  rw [fixFile_eq]
  cases backup : (state.count violations).backUp engine.now path with
  | error reason => exact (List.append_nil _).symm
  | ok next =>
    have same := backUp_report _ next engine.now path backup
    have changed := next.change_filesModified engine path violations
    rw [same] at changed
    exact changed

/-- The disk that is presented to the verifier when the turn of a file comes, if one is. -/
def presented (engine : Engine σ) (state : State σ) (path : Path)
    (violations : List Violation) : Option Disk :=
  match state.backUp engine.now path with
  | .error _ => none
  | .ok state =>
    match attempt engine.fixers state.disk path violations with
    | .ok (changes, none) =>
      if changes.applied = 0 then none
      else (state.disk.write path (Text.encode changes.text)).toOption
    | _ => none

/-- What is presented to the verifier after a backup is what the fixers make of the file. -/
theorem presented_of_backup (running : state.session = some session) (engine : Engine σ)
    (violations : List Violation) (record : BackupRecord) (next : BackupSession) (disk : Disk)
    (backup : session.backup engine.now state.disk path = .ok (record, next, disk)) :
    state.presented engine path violations =
      match attempt engine.fixers disk path violations with
      | .ok (changes, none) =>
        if changes.applied = 0 then none
        else (disk.write path (Text.encode changes.text)).toOption
      | _ => none := by
  simp only [presented, backUp, running, backup]

/-- The verifier accepts a file when its turn comes. -/
def Accepts (engine : Engine σ) (state : State σ) (path : Path)
    (violations : List Violation) : Prop :=
  ∃ shown, state.presented engine path violations = some shown ∧
    (engine.verify state.verifier shown path).1 = .ok true

/-- The verifier always answers. -/
def Answers (engine : Engine σ) : Prop :=
  ∀ calls disk path, ∃ answer, (engine.verify calls disk path).1 = .ok answer

/-- A file holds the revised text that the verifier has been shown in its turn and has
accepted. -/
def Committed (engine : Engine σ) (turn : State σ) (path : Path) (violations : List Violation)
    (location : Location) (original : Option (List UInt8)) (after : Disk) : Prop :=
  ∃ bytes text shown, original = some bytes ∧ Text.decode bytes = .ok text ∧
    Applies engine.fixers violations text ∧
    after.content? location = some (Text.encode (revised engine.fixers violations text)) ∧
    turn.presented engine path violations = some shown ∧
    shown.read path = .ok (Text.encode (revised engine.fixers violations text)) ∧
    (engine.verify turn.verifier shown path).1 = .ok true

/-- The verifier is shown a disk with the changed text of a file, made of what the file holds by
then, and its answer decides: a refused text is replaced by the content of the start, any other
stays. -/
structure Decides (engine : Engine σ) (start : Disk) (state : State σ) (path : Path)
    (violations : List Violation) (location : Location)
    (result : Except Interruption Bool × State σ) (shown : Disk) : Prop where
  presented : state.presented engine path violations = some shown
  change : ∃ bytes text changes, state.disk.content? location = some bytes ∧
    Text.decode bytes = .ok text ∧
    Changes.make engine.fixers violations text = (changes, none) ∧ changes.applied ≠ 0 ∧
    shown.read path = .ok (Text.encode changes.text) ∧
    shown.content? location = some (Text.encode changes.text)
  answer : result.1 = (engine.verify state.verifier shown path).1
  refused : (engine.verify state.verifier shown path).1 = .ok false →
    result.2.disk.content? location = start.content? location
  kept : (engine.verify state.verifier shown path).1 ≠ .ok false →
    result.2.disk.content? location = shown.content? location

/-- The verifier is not asked in the turn of a file, which stays as it is. Nothing is changed, or the turn is
broken off by a failure that concerns only this file or by the claim of a fixer. -/
structure Unasked (engine : Engine σ) (state : State σ) (path : Path) (violations : List Violation)
    (location : Location) (result : Except Interruption Bool × State σ) : Prop where
  unseen : state.presented engine path violations = none
  verdict : result.1 = .ok false ∨ ∃ reason, result.1 = .error reason ∧
    (reason.isLocal = true ∨ ∃ text changes,
      Changes.make engine.fixers violations text = (changes, some reason))
  same : result.2.disk.content? location = state.disk.content? location

section Turn

variable {engine : Engine σ} {violations : List Violation} {record : BackupRecord} {next : BackupSession}
  {disk : Disk} {changes : Changes}

/-- A backup leaves the content of its file as it is. -/
theorem content_of_backedUp (done : BackedUp held start session state.disk location next disk)
    (subject : Subject held start (start.resolve session.directory) path location) :
    disk.content? location = state.disk.content? location :=
  done.steps.outside location subject.apart

/-- What the fixers make of a file that has been backed up is shown to the verifier, whose answer decides. -/
theorem decides_of_made (running : state.session = some session)
    (subject : Subject held start (start.resolve session.directory) path location)
    (backup : session.backup engine.now state.disk path = .ok (record, next, disk))
    (done : BackedUp held start session state.disk location next disk)
    (made : attempt engine.fixers disk path violations = .ok (changes, none)) (applied : changes.applied ≠ 0)
    {bytes : List UInt8} (first : start.content? location = some bytes) :
    let shown := disk.put location (.file (Text.encode changes.text))
    Decides engine start state path violations location
      ((((state.count violations).backedUp next disk).enter path.text changes).answered location bytes path
        changes (engine.verify state.verifier shown path)) shown := by
  intro shown
  obtain ⟨old, text, read, decoded, make⟩ := (attempt_eq_ok _ _ _ _ _).mp made
  obtain ⟨followed, there⟩ := done.guarded.content_of_read path subject.resolves old read
  have below : location ≠ [] := by
    rintro rfl
    simp [Disk.content?] at there
  have holds : shown.content? location = some (Text.encode changes.text) := by
    rw [Disk.content_put_file disk location location _ below, if_pos rfl]
  obtain ⟨refused, kept⟩ := State.answered_content
    (((state.count violations).backedUp next disk).enter path.text changes) location bytes path changes
    (engine.verify state.verifier shown path) below
  constructor
  · have written := Disk.write_of_content path location old (Text.encode changes.text) followed there
    rw [presented_of_backup running engine violations record next disk backup, made]
    simp only [applied, if_false, written]
    rfl
  · exact ⟨old, text, changes, (content_of_backedUp done subject).symm.trans there, decoded, make, applied,
      Disk.read_put path location old _ followed there, holds⟩
  · exact answered_fst ..
  · intro answer
    rw [first]
    exact refused answer
  · intro answer
    rw [holds]
    exact kept answer

/-- Where the fixers change nothing in a file that has been backed up, or break off, the verifier is not asked. -/
theorem unasked_of_idle (running : state.session = some session)
    (subject : Subject held start (start.resolve session.directory) path location)
    (backup : session.backup engine.now state.disk path = .ok (record, next, disk))
    (done : BackedUp held start session state.disk location next disk)
    (idle : ∀ changes, attempt engine.fixers disk path violations = .ok (changes, none) → changes.applied = 0)
    {verdict : Except Interruption Bool} (verdicts : verdict = .ok false ∨ ∃ reason, verdict = .error reason ∧
      (reason.isLocal = true ∨ ∃ changes, attempt engine.fixers disk path violations =
        .ok (changes, some reason))) {after : State σ} (unmoved : after.disk = disk) :
    Unasked engine state path violations location (verdict, after) := by
  constructor
  · rw [presented_of_backup running engine violations record next disk backup]
    split
    · next changes made => rw [if_pos (idle changes made)]
    · rfl
  · rcases verdicts with refused | ⟨reason, broken, alone | ⟨changes, made⟩⟩
    · exact .inl refused
    · exact .inr ⟨reason, broken, .inl alone⟩
    · obtain ⟨_, text, _, _, make⟩ := (attempt_eq_ok _ _ _ _ _).mp made
      exact .inr ⟨reason, broken, .inr ⟨text, changes, make⟩⟩
  · rw [unmoved]
    exact content_of_backedUp done subject

/-- The turn of one file, which may have been changed before. The verifier decides about its changed text, or it is
not asked. -/
theorem fixFile_decides (safe : state.Safe held start directory)
    (subject : Subject held start (start.resolve directory) path location) (engine : Engine σ)
    (restores : engine.Restores held) (violations : List Violation) :
    (∃ shown, Decides engine start state path violations location
      (state.fixFile engine path violations) shown) ∨
    Unasked engine state path violations location (state.fixFile engine path violations) := by
  obtain ⟨session, running, rfl, guarded⟩ := safe
  rcases fixFile_cases guarded running subject engine violations with
    ⟨record, next, disk, backup, done, fixed⟩ | ⟨_, error, backup, fixed⟩
  · rw [fixed]
    rcases change_cases ((state.count violations).backedUp next disk)
      done.guarded rfl subject.resolves done.records engine restores violations with
      ⟨verdict, report, changed, verdicts, idle⟩ | ⟨changes, bytes, made, applied, first, changed⟩
    · rw [changed]
      exact .inr (unasked_of_idle running subject backup done idle verdicts rfl)
    · rw [changed]
      exact .inl ⟨_, decides_of_made running subject backup done made applied first⟩
  · rw [fixed]
    refine .inr ⟨?_, .inr ⟨_, rfl, .inl rfl⟩, rfl⟩
    simp only [presented, backUp, running, backup]

end Turn

/-- The turn of one file where the verifier answers. The change is kept exactly if the verifier
accepts it; otherwise the file is as it was at the start, and only this file is concerned. -/
theorem fixFile_outcome (safe : state.Safe held start directory)
    (subject : Subject held start (start.resolve directory) path location)
    (content : state.disk.content? location = start.content? location) (engine : Engine σ)
    (restores : engine.Restores held) (decided : Decided engine.fixers) (answers : Answers engine)
    (violations : List Violation) :
    ((state.fixFile engine path violations).1 = .ok true ∧
      Committed engine state path violations location (start.content? location)
        (state.fixFile engine path violations).2.disk) ∨
    ((state.fixFile engine path violations).1 = .ok false ∨
      ∃ reason, (state.fixFile engine path violations).1 = .error reason ∧
        reason.isLocal = true) ∧
      ¬ state.Accepts engine path violations ∧
      (state.fixFile engine path violations).2.disk.content? location =
        start.content? location := by
  rcases fixFile_decides safe subject engine restores violations with
    ⟨shown, decides⟩ | ⟨unseen, verdict, same⟩
  · obtain ⟨bytes, text, changes, there, decoded, make, applied, read, holds⟩ := decides.change
    have first := content.symm.trans there
    obtain ⟨others, offered, revision, applies⟩ := Changes.make_spec decided violations text
    obtain rfl : others = changes := by simpa [offered] using make
    obtain ⟨answer, answered⟩ := answers state.verifier shown path
    have said := decides.answer.trans answered
    cases answer with
    | true =>
      refine .inl ⟨said, bytes, text, shown, first, decoded, applies.mp applied, ?_,
        decides.presented, ?_, answered⟩
      · rw [← revision, ← holds]
        exact decides.kept (by simp [answered])
      · rw [← revision]
        exact read
    | false =>
      refine .inr ⟨.inl said, ?_, decides.refused answered⟩
      rintro ⟨other, again, accepted⟩
      obtain rfl := Option.some.inj (decides.presented.symm.trans again)
      rw [answered] at accepted
      cases accepted
  · refine .inr ⟨?_, ?_, same.trans content⟩
    · rcases verdict with refused | ⟨reason, broken, alone | ⟨text, changes, make⟩⟩
      · exact .inl refused
      · exact .inr ⟨reason, broken, alone⟩
      · obtain ⟨_, offered, _⟩ := Changes.make_spec decided violations text
        simp [offered] at make
    · rintro ⟨shown, present, _⟩
      rw [unseen] at present
      cases present

/-- A change that is kept has been accepted. -/
theorem Committed.accepts {engine : Engine σ} {violations : List Violation}
    {original : Option (List UInt8)} {after : Disk}
    (committed : Committed engine state path violations location original after) :
    state.Accepts engine path violations := by
  obtain ⟨_, _, shown, _, _, _, _, present, _, accepted⟩ := committed
  exact ⟨shown, present, accepted⟩

/-- The verifier is shown the revised text of every file that can be read and that a fixer
applies to, if the directory of the session can be made. -/
theorem presented_of_read (safe : state.Safe held start directory)
    (subject : Subject held start (start.resolve directory) path location)
    (content : state.disk.content? location = start.content? location) (engine : Engine σ)
    (decided : Decided engine.fixers) (violations : List Violation) (bytes : List UInt8)
    (text : List Char) (usable : ∃ made, start.makeDirectories directory = .ok made)
    (read : start.read path = .ok bytes) (decoded : Text.decode bytes = .ok text)
    (applies : Applies engine.fixers violations text) :
    ∃ shown, state.presented engine path violations = some shown ∧
      shown.read path = .ok (Text.encode (revised engine.fixers violations text)) := by
  obtain ⟨session, running, rfl, guarded⟩ := safe
  rcases guarded.backup engine.now path subject with
    ⟨record, next, disk, backup, done⟩ | ⟨unreadable | unusable, _⟩
  · have there := (done.steps.outside location subject.apart).trans content
    obtain ⟨again, _⟩ := done.guarded.read_of_start path subject.written subject.resolves there
      bytes read
    obtain ⟨followed, holds⟩ := done.guarded.content_of_read path subject.resolves bytes again
    obtain ⟨changes, made, revision, applied⟩ := Changes.make_spec decided violations text
    have tried : attempt engine.fixers disk path violations = .ok (changes, none) :=
      (attempt_eq_ok _ _ _ _ _).mpr ⟨bytes, text, again, decoded, made⟩
    have written := Disk.write_of_content path location bytes (Text.encode changes.text) followed
      holds
    refine ⟨disk.put location (.file (Text.encode changes.text)), ?_, ?_⟩
    · rw [presented_of_backup running engine violations record next disk backup, tried]
      simp only [written, applied.mpr applies, if_false]
      rfl
    · rw [← revision]
      exact Disk.read_put path location bytes _ followed holds
  · obtain ⟨_, readable⟩ := guarded.read_of_start path subject.written subject.resolves content
      bytes read
    exact absurd readable (unreadable bytes)
  · exact absurd usable unusable

/-- Work on several files enters only these as changed, and no file is taken back. -/
theorem fixEach_filesModified (engine : Engine σ) (state : State σ)
    (groups : List (Path × List Violation)) :
    state.report.filesModified ⊆ (state.fixEach engine groups).2.report.filesModified ∧
      ∀ name ∈ (state.fixEach engine groups).2.report.filesModified,
        name ∈ state.report.filesModified ∨ ∃ group ∈ groups, name = group.1.text := by
  induction groups generalizing state with
  | nil => exact ⟨fun _ member => member, fun _ member => .inl member⟩
  | cons group groups inductionHypothesis =>
    obtain ⟨path, violations⟩ := group
    have entered := state.fixFile_filesModified engine path violations
    have named (name : String) (member : name ∈
        (state.fixFile engine path violations).2.report.filesModified) :
        name ∈ state.report.filesModified ∨ name = path.text := by
      rw [entered] at member
      rcases List.mem_append.mp member with before | here
      · exact .inl before
      · exact .inr (eq_of_mem_keptFile _ name here)
    have kept : state.report.filesModified ⊆
        (state.fixFile engine path violations).2.report.filesModified := by
      rw [entered]
      exact List.subset_append_left _ _
    rcases fixEach_cases engine state path violations groups with
      ⟨_, goesOn⟩ | ⟨reason, _, _, broken⟩
    · obtain ⟨grown, only⟩ := inductionHypothesis (state.afterFile engine path violations)
      obtain ⟨_, _, sameFiles⟩ := state.afterFile_spec engine path violations
      rw [sameFiles] at grown only
      rw [goesOn]
      refine ⟨fun name member => grown (kept member), ?_⟩
      intro name member
      rcases only name member with before | ⟨group, listed, told⟩
      · rcases named name before with earlier | told
        · exact .inl earlier
        · exact .inr ⟨_, List.mem_cons_self, told⟩
      · exact .inr ⟨group, List.mem_cons_of_mem _ listed, told⟩
    · rw [broken]
      refine ⟨kept, ?_⟩
      intro name member
      rcases named name member with before | told
      · exact .inl before
      · exact .inr ⟨_, List.mem_cons_self, told⟩

/-- What has become of a file at the end: its change was accepted in its turn and is kept, or
it was not, and the file is as it was at the start. -/
def Outcome (engine : Engine σ) (start : Disk) (turn : State σ) (path : Path)
    (violations : List Violation) (final : State σ) : Prop :=
  path.text ∈ final.report.filesModified ∧
      Committed engine turn path violations (start.resolve path)
        (start.content? (start.resolve path)) final.disk ∨
    path.text ∉ final.report.filesModified ∧ ¬ turn.Accepts engine path violations ∧
      final.disk.content? (start.resolve path) = start.content? (start.resolve path)

/-- An outcome depends on the disk at the end only by the content of the file, and on the
report only by whether the file is entered. -/
theorem Outcome.transfer {engine : Engine σ} {turn after final : State σ}
    {violations : List Violation} (outcome : Outcome engine start turn path violations after)
    (content : final.disk.content? (start.resolve path) =
      after.disk.content? (start.resolve path))
    (entered : path.text ∈ final.report.filesModified ↔
      path.text ∈ after.report.filesModified) :
    Outcome engine start turn path violations final := by
  unfold Outcome Committed at outcome ⊢
  rw [content, entered]
  exact outcome

/-- A file whose outcome is known is entered as changed exactly if it is one of text, a fixer
applies to it and the verifier accepts it. -/
theorem Outcome.entered_iff {engine : Engine σ} {turn final : State σ}
    {violations : List Violation} (outcome : Outcome engine start turn path violations final) :
    path.text ∈ final.report.filesModified ↔
      ∃ bytes text, start.content? (start.resolve path) = some bytes ∧
        Text.decode bytes = .ok text ∧ Applies engine.fixers violations text ∧
        turn.Accepts engine path violations := by
  rcases outcome with ⟨entered, committed⟩ | ⟨absent, unaccepted, _⟩
  · have accepted := committed.accepts
    obtain ⟨bytes, text, _, content, decoded, applies, _⟩ := committed
    exact iff_of_true entered ⟨bytes, text, content, decoded, applies, accepted⟩
  · refine iff_of_false absent ?_
    rintro ⟨_, _, _, _, _, accepted⟩
    exact unaccepted accepted

/-- After its turn, a file has its outcome. -/
theorem outcome_of_turn (safe : state.Safe held start directory)
    (subject : Subject held start (start.resolve directory) path (start.resolve path))
    (content : state.disk.content? (start.resolve path) = start.content? (start.resolve path))
    (engine : Engine σ) (restores : engine.Restores held) (decided : Decided engine.fixers)
    (answers : Answers engine) (violations : List Violation)
    (new : path.text ∉ state.report.filesModified) :
    (∀ reason, (state.fixFile engine path violations).1 = .error reason →
      reason.isLocal = true) ∧
      Outcome engine start state path violations (state.afterFile engine path violations) := by
  obtain ⟨sameDisk, _, sameFiles⟩ := state.afterFile_spec engine path violations
  have entered := state.fixFile_filesModified engine path violations
  rw [← sameFiles] at entered
  unfold Outcome
  rw [sameDisk, entered]
  rcases fixFile_outcome safe subject content engine restores decided answers violations with
    ⟨kept, committed⟩ | ⟨refused | ⟨reason, broken, alone⟩, unaccepted, same⟩
  · rw [kept]
    exact ⟨by simp, .inl ⟨by simp [keptFile], committed⟩⟩
  · rw [refused]
    exact ⟨by simp, .inr ⟨by simp [keptFile, new], unaccepted, same⟩⟩
  · rw [broken]
    refine ⟨?_, .inr ⟨by simp [keptFile, new], unaccepted, same⟩⟩
    intro other equal
    rw [← Except.error.inj equal]
    exact alone

/-- Work on several files comes to its end, and each file has its outcome. The induction is on
the files: what has been worked on before does not touch the file whose turn it is, and
neither does what comes later. -/
theorem fixEach_outcomes (safe : state.Safe held start directory) (engine : Engine σ)
    (restores : engine.Restores held) (decided : Decided engine.fixers) (answers : Answers engine)
    (groups : List (Path × List Violation))
    (subjects : ∀ group ∈ groups,
      Subject held start (start.resolve directory) group.1 (start.resolve group.1))
    (apart : (groups.map fun group => start.resolve group.1).Nodup)
    (contents : ∀ group ∈ groups, state.disk.content? (start.resolve group.1) =
      start.content? (start.resolve group.1))
    (names : ∀ group ∈ groups, group.1.text ∉ state.report.filesModified) :
    (state.fixEach engine groups).1 = none ∧
      ∀ earlier path violations later, groups = earlier ++ (path, violations) :: later →
        Outcome engine start (state.fixEach engine earlier).2 path violations
          (state.fixEach engine groups).2 := by
  induction groups generalizing state with
  | nil => exact ⟨rfl, by simp⟩
  | cons group groups inductionHypothesis =>
    obtain ⟨path, violations⟩ := group
    have subject := subjects (path, violations) List.mem_cons_self
    have following (group : Path × List Violation) (member : group ∈ groups) :=
      subjects group (List.mem_cons_of_mem (path, violations) member)
    obtain ⟨alone, outcome⟩ := outcome_of_turn safe subject
      (contents (path, violations) List.mem_cons_self) engine restores decided answers violations
      (names (path, violations) List.mem_cons_self)
    obtain ⟨nextSafe, _, _⟩ := safe.afterFile subject engine restores violations
    obtain ⟨_, _, sameFiles⟩ := state.afterFile_spec engine path violations
    obtain ⟨absent, apartLater⟩ := List.nodup_cons.mp apart
    have other (group : Path × List Violation) (member : group ∈ groups) :
        start.resolve group.1 ≠ start.resolve path := fun same =>
      absent (List.mem_map.mpr ⟨group, member, same⟩)
    have text (group : Path × List Violation) (member : group ∈ groups) :
        group.1.text ≠ path.text := by
      intro same
      apply other group member
      rw [← Path.ofString_text _ (following group member).written, same,
        Path.ofString_text _ subject.written]
    obtain ⟨ended, outcomes⟩ := inductionHypothesis nextSafe following apartLater
      (contents_afterFile safe engine restores violations groups subjects apart contents)
      (by
        intro group member listed
        rw [sameFiles, fixFile_filesModified] at listed
        rcases List.mem_append.mp listed with before | here
        · exact names group (List.mem_cons_of_mem _ member) before
        · exact text group member (eq_of_mem_keptFile _ _ here))
    rw [fixEach_cons engine state path violations groups alone]
    refine ⟨ended, ?_⟩
    intro earlier thisPath thisViolations later split
    cases earlier with
    | nil =>
      obtain ⟨⟨rfl, rfl⟩, rfl⟩ : (path = thisPath ∧ violations = thisViolations) ∧
          groups = later := by simpa using split
      apply outcome.transfer
      · exact (nextSafe.fixEach engine restores groups following).2.2 _ subject.apart other
      · obtain ⟨grown, only⟩ :=
          fixEach_filesModified engine (state.afterFile engine path violations) groups
        refine ⟨?_, fun member => grown member⟩
        intro member
        rcases only _ member with before | ⟨group, listed, told⟩
        · exact before
        · exact absurd told.symm (text group listed)
    | cons first earlier =>
      obtain ⟨rfl, rest⟩ := List.cons.inj split
      rw [fixEach_cons engine state path violations earlier alone]
      exact outcomes earlier thisPath thisViolations later rest

/-- The end of a run that has not been broken off reports what has been done, if the directory
of the session can be made, and changes no file outside. -/
theorem finish_none (guarded : Guarded held start session state.disk)
    (running : state.session = some session) :
    (state.finish none).2.report = state.report ∧
      (∀ location, ¬ start.resolve session.directory <+: location →
        (state.finish none).2.disk.content? location = state.disk.content? location) ∧
      (session.Usable start → (state.finish none).1 = .ok { state.report with
        backups := session.records
        manifestPath := some session.manifestPath.text }) := by
  rcases finish_cases guarded running none with
    ⟨after, stored, reported, steps, _, _, _⟩ | ⟨unusable, _, error, refused⟩
  · rw [stored, reported]
    exact ⟨rfl, steps.outside, fun _ => rfl⟩
  · rw [refused]
    exact ⟨rfl, fun _ _ => rfl, fun usable => absurd usable unusable⟩

/-- A run in which no claim is broken off and the verifier always answers comes to its end if
the directory of the session can be made. For each file, either the path is entered as changed
and the file holds the revised text that the verifier has accepted, or it is not and the file
is as it was. The former happens exactly if the file is one of text, a fixer applies to it and
the verifier accepts it in its turn; it is asked about every such file that can be read. No
other file outside the directory of the session has changed. -/
theorem transaction_outcome (disk : Disk) (session : BackupSession) (verifier : σ)
    (begun : State σ) (formed : disk.WellFormed) (fresh : session.Fresh disk)
    (starts : State.start disk (some session) false verifier = .ok begun) (engine : Engine σ)
    (groups : List (Path × List Violation))
    (outside : ∀ group ∈ groups, session.Admits disk group.1)
    (apart : (groups.map fun group => disk.resolve group.1).Nodup)
    (collisionFree : CollisionFree (originals disk groups))
    (decided : Decided engine.fixers) (answers : Answers engine) :
    let final := (begun.fixAll engine groups).2
    (session.Usable disk → ∃ report, (begun.fixAll engine groups).1 = .ok report ∧
      report.filesModified = final.report.filesModified) ∧
    (∀ location, ¬ disk.resolve session.directory <+: location →
      (∀ group ∈ groups, disk.resolve group.1 ≠ location) →
        final.disk.content? location = disk.content? location) ∧
    ∀ earlier path violations later, groups = earlier ++ (path, violations) :: later →
      let turn := (begun.fixEach engine earlier).2
      Outcome engine disk turn path violations final ∧
      (path.text ∈ final.report.filesModified ↔
        ∃ bytes text, disk.content? (disk.resolve path) = some bytes ∧
          Text.decode bytes = .ok text ∧ Applies engine.fixers violations text ∧
          turn.Accepts engine path violations) ∧
      ∀ bytes text, session.Usable disk → disk.read path = .ok bytes →
        Text.decode bytes = .ok text → Applies engine.fixers violations text →
          ∃ shown, turn.presented engine path violations = some shown ∧
            shown.read path = .ok (Text.encode (revised engine.fixers violations text)) := by
  obtain rfl := Except.ok.inj starts
  have subjects := subjects_of_admits groups outside
  have restores := engine.restores_of_injOn collisionFree.injOn
  generalize {bytes | bytes ∈ originals disk groups} = held at subjects restores
  have begins := safe_of_start held formed fresh starts
  obtain ⟨ended, outcomes⟩ := fixEach_outcomes begins engine restores decided answers groups
    subjects apart (fun _ _ => rfl) (fun _ _ => List.not_mem_nil)
  obtain ⟨⟨current, running, same, guarded⟩, _, elsewhere⟩ :=
    begins.fixEach engine restores groups subjects
  have ends := finish_none guarded running
  rw [← ended, same] at ends
  obtain ⟨reported, unchanged, completed⟩ := ends
  have run : fixAll engine (⟨disk, some session, .empty false, verifier⟩ : State σ) groups =
      (fixEach engine ⟨disk, some session, .empty false, verifier⟩ groups).2.finish
        (fixEach engine ⟨disk, some session, .empty false, verifier⟩ groups).1 := rfl
  rw [run]
  refine ⟨?_, ?_, ?_⟩
  · intro usable
    rw [BackupSession.Usable, same] at completed
    exact ⟨_, completed usable, by rw [reported]⟩
  · intro location apart absent
    exact (unchanged location apart).trans (elsewhere location apart absent)
  · intro earlier path violations later split
    have member : (path, violations) ∈ groups := by simp [split]
    have subject := subjects _ member
    have outcome := (outcomes earlier path violations later split).transfer
      (unchanged _ subject.apart) (by rw [reported])
    have before (group : Path × List Violation) (listed : group ∈ earlier) : group ∈ groups := by
      rw [split]
      exact List.mem_append_left _ listed
    refine ⟨outcome, outcome.entered_iff, ?_⟩
    intro bytes text usable read decoded applies
    obtain ⟨turnSafe, _, untouched⟩ := begins.fixEach engine restores earlier fun group listed =>
      subjects group (before group listed)
    refine presented_of_read turnSafe subject ?_ engine decided violations bytes text usable read
      decoded applies
    apply untouched _ subject.apart
    intro group listed same
    rw [split, List.map_append, List.map_cons, List.nodup_append] at apart
    exact apart.2.2 _ (List.mem_map_of_mem listed) _ List.mem_cons_self same

/-- A verifier that accepts every other file. -/
def alternating : Verifier Nat := fun calls _ _ => (.ok (calls % 2 == 0), calls + 1)

/-- A run in which the first of two files is changed and the second is put back. -/
theorem transaction_outcome_alternating :
    let engine : Engine Nat := ⟨[marking], alternating, .sinceEpoch 0 0⟩
    let begun : State Nat := ⟨sampleDisk, some sampleSession, .empty false, 0⟩
    let final := (begun.fixAll engine sampleGroups).2
    final.report.filesModified = ["a.ts"] ∧
      ∀ earlier path violations later,
        sampleGroups = earlier ++ (path, violations) :: later →
          Outcome engine sampleDisk (begun.fixEach engine earlier).2 path violations final := by
  have whole := transaction_outcome sampleDisk sampleSession 0 _ (by decide) (by decide) rfl
    ⟨[marking], alternating, .sinceEpoch 0 0⟩ sampleGroups (by decide) (by decide)
    (by decide +kernel)
    (by
      intro fixer member violation text
      rw [List.mem_singleton.mp member]
      exact ⟨true, rfl⟩)
    (fun calls _ _ => ⟨calls % 2 == 0, rfl⟩)
  refine ⟨by decide +kernel, ?_⟩
  intro earlier path violations later split
  exact (whole.2.2 earlier path violations later split).1

end Conformance.Fix.State
