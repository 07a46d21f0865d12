import Conformance.Proofs.Backup.Refusing
import Conformance.Proofs.Fix.Outcomes
import Mathlib.Algebra.GroupWithZero.Nat
import Mathlib.Data.List.Nodup

/-!
# The account of a run

A report counts what has become of the violations. Each turn of a file adds to it: fixes only
if the change of the file is kept, and never more than the violations that the file has. So
the counts of a whole run fit together, whatever the session holds, in a dry run and in one
that writes. It does not matter whether two paths lead to one file, since a turn is counted for
the path that is given.
-/

namespace Conformance.Fix

/-- What is added to an account: violations that are offered, those of them that are fixed,
failures, violations with nothing to change, and changed files. -/
structure Report.Adds (before after : Report) (offered made failures idle : Nat)
    (files : List String) : Prop where
  totalViolations : after.totalViolations = before.totalViolations + offered
  fixed : after.fixed = before.fixed + made
  failed : after.failed = before.failed + failures
  skipped : after.skipped = before.skipped + idle
  filesModified : after.filesModified = before.filesModified ++ files
  errors : ∃ errors, after.errors = before.errors ++ errors ∧ errors.length = failures

namespace Report

variable {before between after : Report} {files : List String}

/-- Nothing is added to the same account. -/
theorem Adds.refl (report : Report) : Adds report report 0 0 0 0 [] :=
  ⟨by simp, by simp, by simp, by simp, by simp, [], by simp, rfl⟩

/-- What is added in turn is added together. -/
theorem Adds.trans {offered made failures idle more corrected worse left : Nat}
    {others : List String} (first : Adds before between offered made failures idle files)
    (second : Adds between after more corrected worse left others) :
    Adds before after (offered + more) (made + corrected) (failures + worse) (idle + left)
      (files ++ others) where
  totalViolations := by rw [second.totalViolations, first.totalViolations]; omega
  fixed := by rw [second.fixed, first.fixed]; omega
  failed := by rw [second.failed, first.failed]; omega
  skipped := by rw [second.skipped, first.skipped]; omega
  filesModified := by rw [second.filesModified, first.filesModified, List.append_assoc]
  errors := by
    obtain ⟨errors, entered, many⟩ := first.errors
    obtain ⟨further, added, more⟩ := second.errors
    exact ⟨errors ++ further, by rw [added, entered, List.append_assoc],
      by rw [List.length_append, many, more]⟩

/-- A failure is counted and recorded. -/
theorem addFailure_adds (report : Report) (file error : String) :
    Adds report (report.addFailure file error) 0 0 1 0 [] :=
  ⟨by simp [addFailure], by simp [addFailure], rfl, by simp [addFailure], by simp [addFailure],
    [⟨file, error⟩], rfl, rfl⟩

/-- Several failures are counted and recorded. -/
theorem addFailures_adds (report : Report) (file : String) (messages : List String) :
    Adds report (messages.foldl (fun report message => report.addFailure file message) report)
      0 0 messages.length 0 [] := by
  induction messages generalizing report with
  | nil => exact .refl report
  | cons message messages inductionHypothesis =>
    have both := (report.addFailure_adds file message).trans
      (inductionHypothesis (report.addFailure file message))
    rwa [Nat.add_comm 1] at both

/-- A share of the violations is fixed if no more are fixed than there are. -/
theorem isShare_successRate (report : Report) (least : 0 ≤ report.fixed)
    (most : report.fixed ≤ report.totalViolations) : report.successRate.IsShare := by
  unfold successRate
  split
  · exact Number.Binary64.isShare_zero
  · have positive :
        (decide (report.fixed < 0) != decide (report.totalViolations < 0)) = false := by
      simp [Int.not_lt.mpr least, Int.not_lt.mpr (Int.le_trans least most)]
    rw [positive]
    exact Number.Binary64.isShare_ofQuotient _ _ (by omega) (by omega)

end Report

/-- A file of a session that cannot be put back concerns no other file. -/
theorem isLocal_of_restore (session : BackupSession) (disk : Disk) (path : Path)
    (error : RestoreError) (refused : session.restore disk path = .error error) :
    (Interruption.ofRestore error).isLocal = true := by
  cases error with
  | refused error => rfl
  | access error => rfl
  | wrongType =>
    unfold BackupSession.restore at refused
    split at refused
    · cases refused
    · next record _ =>
      have putBack := disk.restoreObject_putBack record.filePath (.ofString record.backupPath)
        (some record.hash) (some (.ofString record.filePath))
      rw [← BackupRecord.restore] at putBack
      generalize record.restore disk = outcome at refused putBack
      rcases outcome with ⟨after, fault | done⟩
      · obtain rfl : fault = .wrongType := Except.error.inj refused
        cases putBack.of_wrongType
      · cases refused

/-- The text of the file that a path leads to. -/
def textAt (disk : Disk) (path : Path) : Option (List Char) :=
  match disk.read path with
  | .ok bytes => (Text.decode bytes).toOption
  | .error _ => none

namespace State

variable {σ : Type}

/-- What is done to a text is counted. -/
theorem enter_adds (state : State σ) (file : String) (changes : Changes) :
    state.report.Adds (state.enter file changes).report 0 changes.applied
      changes.failures.length changes.skipped [] := by
  have failures := state.report.addFailures_adds file changes.failures
  exact ⟨failures.totalViolations, by simp [enter, failures.fixed], failures.failed,
    by simp [enter, failures.skipped], failures.filesModified, failures.errors⟩

/-- A state after the work on a file has come to a result: a failure is entered. -/
def settled (path : Path) : Except Interruption Bool × State σ → State σ
  | (.ok _, next) => next
  | (.error reason, next) =>
    { next with report := next.report.addFailure path.text reason.message }

/-- How many fixes count for an answer: none, unless it says that the change is kept. -/
def credit (made : Nat) : Except Interruption Bool → Nat
  | .ok true => made
  | _ => 0

/-- The work on a file with so many violations offered, of which so many are fixed in its text,
has come to a result that is counted right. -/
structure Counted (before : Report) (path : Path) (offered made : Nat)
    (result : Except Interruption Bool × State σ) : Prop where
  alone : ∀ reason, result.1 = .error reason → reason.isLocal = true
  adds : ∃ failed skipped,
    before.Adds (settled path result).report 0 (credit made result.1) failed skipped
      (keptFile path result.1) ∧
    (0 < offered → credit made result.1 + failed + skipped ≤ offered)
  filled : result.1 = .ok true → 0 < made

variable {before : Report} {path : Path} {offered made : Nat}

/-- A failure before the work on the text is one of the violations that are offered. -/
theorem counted_of_failure (state : State σ) (path : Path) (reason : Interruption)
    (alone : reason.isLocal = true) :
    Counted state.report path offered made (.error reason, state) where
  alone other same := by
    rw [← Except.error.inj same]
    exact alone
  adds := ⟨1, 0, state.report.addFailure_adds path.text reason.message, fun some => by
    simp only [credit]
    omega⟩
  filled kept := by cases kept

/-- A changed text that is refused is taken out of the count again, and one failure is counted
for all of its fixes, also where the file cannot be put back. -/
theorem rollBack_counted (state : State σ) (session : BackupSession) (path : Path)
    (failed skipped : Nat) (adds : before.Adds state.report 0 made failed skipped [])
    (fits : made + failed + skipped ≤ offered) (some : 0 < made) :
    Counted before path offered made (state.rollBack session path made) := by
  have taken : before.Adds { state.report with fixed := state.report.fixed - made } 0 0 failed
      skipped [] :=
    ⟨adds.totalViolations, by simp [adds.fixed], adds.failed, adds.skipped, adds.filesModified,
      adds.errors⟩
  have closed (message : String) := taken.trans (Report.addFailure_adds
    { state.report with fixed := state.report.fixed - made } path.text message)
  have room : 0 + (failed + 1) + (skipped + 0) ≤ offered := by omega
  unfold rollBack
  simp only
  cases restored : session.restore state.disk path with
  | error error =>
    refine ⟨?_, ⟨failed + 1, skipped + 0, closed _, fun _ => room⟩, by simp⟩
    intro reason same
    rw [← Except.error.inj same]
    exact isLocal_of_restore session state.disk path error restored
  | ok back => exact ⟨by simp, ⟨failed + 1, skipped + 0, closed _, fun _ => room⟩, by simp⟩

/-- A changed text is counted if the verifier accepts it. It can be written, since the file has
just been read. -/
theorem commit_counted (engine : Engine σ) (answers : Answers engine) (state : State σ)
    (session : BackupSession) (path : Path) (changes : Changes) (failed skipped : Nat)
    (old : List UInt8) (read : state.disk.read path = .ok old)
    (adds : before.Adds state.report 0 changes.applied failed skipped [])
    (fits : changes.applied + failed + skipped ≤ offered) (some : 0 < changes.applied) :
    Counted before path offered changes.applied (state.commit engine session path changes) := by
  obtain ⟨location, followed, content⟩ := (Disk.read_eq_ok path old).mp read
  have written := Disk.write_of_content path location old (Text.encode changes.text) followed
    content
  unfold commit
  simp only [written]
  obtain ⟨answer, answered⟩ := answers state.verifier
    (state.disk.put location (.file (Text.encode changes.text))) path
  cases verified : engine.verify state.verifier
      (state.disk.put location (.file (Text.encode changes.text))) path with
  | mk said verifier =>
    simp only [verified] at answered ⊢
    obtain rfl : said = .ok answer := answered
    cases answer with
    | true =>
      refine ⟨by simp, ⟨failed, skipped, ?_, fun _ => fits⟩, fun _ => some⟩
      exact { adds with
        filesModified := by simp [settled, enterModified, adds.filesModified, keptFile] }
    | false => exact rollBack_counted _ session path failed skipped adds fits some

/-- The work on the text of a file is counted right. -/
theorem change_counted (engine : Engine σ) (decided : Decided engine.fixers)
    (answers : Answers engine) (state : State σ) (path : Path) (violations : List Violation) :
    Counted state.report path violations.length
      (((textAt state.disk path).map (fixes engine.fixers violations)).getD 0)
      (state.change engine path violations) := by
  rw [change_eq]
  cases tried : attempt engine.fixers state.disk path violations with
  | error reason => exact counted_of_failure state path reason (isLocal_of_attempt _ _ _ _ tried)
  | ok result =>
    obtain ⟨changes, broken⟩ := result
    obtain ⟨bytes, text, read, decoded, make⟩ := (attempt_eq_ok _ _ _ _ _).mp tried
    obtain ⟨_, unbroken⟩ := Changes.make_of_decided decided violations text
    obtain rfl : none = broken := congrArg Prod.snd (unbroken.symm.trans make)
    obtain ⟨_, applied, handled⟩ := Changes.make_unbroken violations text changes make
    have found : textAt state.disk path = .some text := by
      simp [textAt, read, decoded, Except.toOption]
    have adds := state.enter_adds path.text changes
    have fits : changes.applied + changes.failures.length + changes.skipped ≤
        violations.length := by
      rw [Changes.handled] at handled
      omega
    rw [found, Option.map_some, Option.getD_some, ← applied]
    by_cases idle : changes.applied = 0
    · simp only [idle, if_true] at adds fits ⊢
      exact ⟨by simp, ⟨_, _, adds, fun _ => fits⟩, by simp⟩
    · have filled := Nat.pos_of_ne_zero idle
      simp only [idle, if_false]
      cases running : state.session with
      | none =>
        refine ⟨by simp, ⟨_, _, ?_, fun _ => fits⟩, fun _ => filled⟩
        exact { adds with
          filesModified := by simp [settled, enterModified, keptFile] }
      | some session =>
        exact commit_counted engine answers (state.enter path.text changes) session path changes _ _
          bytes read adds fits filled

/-- A backup takes no part in the report. -/
theorem backUp_count (state : State σ) (now : Moment) (path : Path)
    (violations : List Violation) :
    (state.count violations).backUp now path =
      (state.backUp now path).map (·.count violations) := by
  obtain ⟨disk, session, report, verifier⟩ := state
  cases session with
  | none => rfl
  | some session =>
    simp only [backUp, count]
    cases session.backup now disk path <;> rfl

/-- A backup that fails concerns no other file. -/
theorem isLocal_of_backUp (state : State σ) (now : Moment) (path : Path) (reason : Interruption)
    (failed : state.backUp now path = .error reason) : reason.isLocal = true := by
  unfold backUp at failed
  split at failed
  · cases failed
  · split at failed
    · rw [← Except.error.inj failed]
      rfl
    · cases failed

end State

/-- The turn of a file in a run. -/
structure Turn (σ : Type) where
  state : State σ
  path : Path
  violations : List Violation

namespace Turn

variable {σ : Type}

/-- What the work on the file comes to. -/
def verdict (engine : Engine σ) (turn : Turn σ) : Except Interruption Bool :=
  (turn.state.fixFile engine turn.path turn.violations).1

/-- How many violations are fixed in the text of the file, as it is after its backup. -/
def made (engine : Engine σ) (turn : Turn σ) : Nat :=
  match turn.state.backUp engine.now turn.path with
  | .error _ => 0
  | .ok next =>
    ((textAt next.disk turn.path).map (fixes engine.fixers turn.violations)).getD 0

/-- Whether the change of the file is kept. -/
def isKept (engine : Engine σ) (turn : Turn σ) : Bool :=
  match turn.verdict engine with
  | .ok kept => kept
  | .error _ => false

/-- A change is kept if the work on the file says so. -/
theorem isKept_iff (engine : Engine σ) (turn : Turn σ) :
    turn.isKept engine = true ↔ turn.verdict engine = .ok true := by
  unfold isKept
  cases turn.verdict engine <;> simp

/-- The turn of one file is counted right. -/
theorem counted (engine : Engine σ) (decided : Decided engine.fixers)
    (answers : State.Answers engine) (turn : Turn σ) :
    State.Counted (turn.state.count turn.violations).report turn.path turn.violations.length
      (turn.made engine) (turn.state.fixFile engine turn.path turn.violations) := by
  obtain ⟨state, path, violations⟩ := turn
  have begun : state.fixFile engine path violations =
      match (state.count violations).backUp engine.now path with
      | .error reason => (.error reason, state.count violations)
      | .ok next => next.change engine path violations := rfl
  simp only [begun, made, State.backUp_count]
  cases backup : state.backUp engine.now path with
  | error reason =>
    exact State.counted_of_failure _ path reason (state.isLocal_of_backUp _ _ _ backup)
  | ok next =>
    have same : (next.count violations).report = (state.count violations).report := by
      simp only [State.count, State.backUp_report state next engine.now path backup]
    rw [← same]
    exact State.change_counted engine decided answers (next.count violations) path violations

end Turn

/-- The turns in which a change is kept. -/
def kept {σ : Type} (engine : Engine σ) (turns : List (Turn σ)) : List (Turn σ) :=
  turns.filter (·.isKept engine)

/-- The turns in which a change is kept are those among the first ones and those among the rest. -/
theorem kept_append {σ : Type} (engine : Engine σ) (turns more : List (Turn σ)) :
    kept engine (turns ++ more) = kept engine turns ++ kept engine more :=
  List.filter_append turns more

/-- The fixes of one turn count if its change is kept. -/
theorem credit_verdict {σ : Type} (engine : Engine σ) (turn : Turn σ) :
    State.credit (turn.made engine) (turn.verdict engine) =
      ((kept engine [turn]).map (·.made engine)).sum := by
  unfold kept Turn.isKept
  cases verdict : turn.verdict engine with
  | error reason => simp [State.credit, verdict]
  | ok kept => cases kept <;> simp [State.credit, verdict]

/-- The file of one turn is entered as changed if its change is kept. -/
theorem keptFile_verdict {σ : Type} (engine : Engine σ) (turn : Turn σ) :
    State.keptFile turn.path (turn.verdict engine) =
      (kept engine [turn]).map (·.path.text) := by
  unfold kept Turn.isKept
  cases verdict : turn.verdict engine with
  | error reason => simp [State.keptFile, verdict]
  | ok kept => cases kept <;> simp [State.keptFile, verdict]

/-- What an account of several turns says: the fixes of those in which a change is kept are
counted, and the violations of all of them are enough for what is counted. -/
structure Balances {σ : Type} (engine : Engine σ) (before after : Report)
    (turns : List (Turn σ)) : Prop where
  adds : ∃ failed skipped, before.Adds after (turns.map (·.violations.length)).sum
      ((kept engine turns).map (·.made engine)).sum failed skipped
      ((kept engine turns).map (·.path.text)) ∧
    ((kept engine turns).map (·.made engine)).sum + failed + skipped ≤
      (turns.map (·.violations.length)).sum
  filled : ∀ turn ∈ kept engine turns, 0 < turn.made engine

/-- Accounts that balance in turn balance together. -/
theorem Balances.trans {σ : Type} {engine : Engine σ} {before between after : Report}
    {turns more : List (Turn σ)} (first : Balances engine before between turns)
    (second : Balances engine between after more) :
    Balances engine before after (turns ++ more) := by
  obtain ⟨failed, skipped, adds, fits⟩ := first.adds
  obtain ⟨worse, idle, added, room⟩ := second.adds
  have keeps := kept_append engine turns more
  refine ⟨⟨failed + worse, skipped + idle, ?_, ?_⟩, ?_⟩
  · simpa only [keeps, List.map_append, List.sum_append_nat] using adds.trans added
  · simp only [keeps, List.map_append, List.sum_append_nat]
    omega
  · intro turn member
    rw [keeps] at member
    rcases List.mem_append.mp member with early | late
    · exact first.filled turn early
    · exact second.filled turn late

namespace State

variable {σ : Type}

/-- The account of one turn balances. -/
theorem afterFile_balances (engine : Engine σ) (decided : Decided engine.fixers)
    (answers : Answers engine) (turn : Turn σ) (nonempty : turn.violations ≠ []) :
    Balances engine turn.state.report
      (turn.state.afterFile engine turn.path turn.violations).report [turn] := by
  have counted := turn.counted engine decided answers
  obtain ⟨failed, skipped, added, room⟩ := counted.adds
  have fits := room (List.length_pos_iff.mpr nonempty)
  have offered : turn.state.report.Adds (turn.state.count turn.violations).report
      turn.violations.length 0 0 0 [] :=
    ⟨rfl, by simp [count], by simp [count], by simp [count], by simp [count], [],
      by simp [count], rfl⟩
  have settles : turn.state.afterFile engine turn.path turn.violations =
      settled turn.path (turn.state.fixFile engine turn.path turn.violations) := by
    unfold afterFile settled
    rfl
  have whole := offered.trans added
  rw [← settles, ← Turn.verdict, credit_verdict, keptFile_verdict] at whole
  rw [← Turn.verdict, credit_verdict] at fits
  refine ⟨⟨failed, skipped, by simpa using whole, by simpa using fits⟩, ?_⟩
  intro other member
  obtain ⟨listed, keeps⟩ := List.mem_filter.mp member
  rw [List.mem_singleton.mp listed] at keeps ⊢
  exact counted.filled ((turn.isKept_iff engine).mp keeps)

/-- The turns of a run, where a state and a file determine the next state. -/
def turns (next : State σ → Path → List Violation → State σ) :
    State σ → List (Path × List Violation) → List (Turn σ)
  | _, [] => []
  | state, (path, violations) :: groups =>
    ⟨state, path, violations⟩ :: turns next (next state path violations) groups

/-- Each file has one turn, in the order in which the files are given. -/
theorem turns_files (next : State σ → Path → List Violation → State σ) (state : State σ)
    (groups : List (Path × List Violation)) :
    (turns next state groups).map (fun turn => (turn.path, turn.violations)) = groups := by
  induction groups generalizing state with
  | nil => rfl
  | cons group groups inductionHypothesis =>
    simp only [turns, List.map_cons, inductionHypothesis]

/-- The work on several files comes to its end, and the account of it balances. The induction is
on the files, each of which has the account of its turn. -/
theorem fixEach_balances (engine : Engine σ) (decided : Decided engine.fixers)
    (answers : Answers engine) (state : State σ) (groups : List (Path × List Violation))
    (nonempty : ∀ group ∈ groups, group.2 ≠ []) :
    (state.fixEach engine groups).1 = none ∧
      Balances engine state.report (state.fixEach engine groups).2.report
        (turns (afterFile engine) state groups) := by
  induction groups generalizing state with
  | nil => exact ⟨rfl, ⟨0, 0, .refl _, Nat.le_refl _⟩, by simp [turns, kept]⟩
  | cons group groups inductionHypothesis =>
    let turn : Turn σ := ⟨state, group.1, group.2⟩
    have here := nonempty group List.mem_cons_self
    have counted := turn.counted engine decided answers
    have balances := afterFile_balances engine decided answers turn here
    obtain ⟨ended, following⟩ := inductionHypothesis (state.afterFile engine group.1 group.2)
      fun group member => nonempty group (List.mem_cons_of_mem _ member)
    have goesOn := fixEach_cons engine state group.1 group.2 groups counted.alone
    rw [goesOn]
    exact ⟨ended, balances.trans following⟩

/-- The end of a run that has not been broken off keeps the counts, unless the records cannot be
stored. -/
theorem finish_none_counts (state : State σ) :
    (∃ backups manifest, (state.finish none).1 =
      .ok { state.report with backups := backups, manifestPath := manifest }) ∨
    ∃ session error, state.session = some session ∧
      session.saveManifest state.disk = .error error ∧
      (state.finish none).1 = .error (.access error) := by
  cases running : state.session with
  | none => exact .inl ⟨state.report.backups, state.report.manifestPath, by simp [finish, running]⟩
  | some session =>
    cases stored : session.saveManifest state.disk with
    | error error => exact .inr ⟨session, error, rfl, stored, by simp [finish, running, stored]⟩
    | ok disk =>
      exact .inl ⟨session.records, some session.manifestPath.text,
        by simp [finish, running, stored]⟩

end State

/-- The counts of a report about some turns fit together. Every changed file is listed for the
turn in which it was changed, and what is fixed is fixed there. -/
structure Report.Balanced {σ : Type} (engine : Engine σ) (turns : List (Turn σ))
    (report : Report) : Prop where
  totalViolations : report.totalViolations = (turns.map (·.violations.length)).sum
  errors : report.failed = report.errors.length
  filesModified : report.filesModified =
    (turns.filter (·.path.text ∈ report.filesModified)).map (·.path.text)
  fixed : report.fixed =
    ((turns.filter (·.path.text ∈ report.filesModified)).map (·.made engine)).sum
  bounded : report.fixed + report.failed + report.skipped ≤ report.totalViolations
  isShare : report.successRate.IsShare
  changed : 0 < report.fixed ↔ report.filesModified ≠ []

/-- An account that balances makes an empty report one whose counts fit together, if no file has
two turns. -/
theorem Balances.balanced {σ : Type} {engine : Engine σ} {dryRun : Bool} {report : Report}
    {turns : List (Turn σ)} (balances : Balances engine (.empty dryRun) report turns)
    (apart : (turns.map (·.path.text)).Nodup) : report.Balanced engine turns := by
  obtain ⟨failed, skipped, adds, fits⟩ := balances.adds
  have files : report.filesModified = (kept engine turns).map (·.path.text) :=
    adds.filesModified
  have same : turns.filter (·.path.text ∈ report.filesModified) = kept engine turns := by
    apply List.filter_congr
    intro turn member
    rw [Bool.eq_iff_iff, decide_eq_true_iff, files, List.mem_map]
    constructor
    · rintro ⟨other, keeps, told⟩
      obtain ⟨listed, keeps⟩ := List.mem_filter.mp keeps
      rwa [← List.inj_on_of_nodup_map apart listed member told]
    · intro keeps
      exact ⟨turn, List.mem_filter.mpr ⟨member, keeps⟩, rfl⟩
  have fixed : report.fixed = ((kept engine turns).map (·.made engine)).sum := by
    simpa [Report.empty] using adds.fixed
  have total : report.totalViolations = (turns.map (·.violations.length)).sum := by
    simpa [Report.empty] using adds.totalViolations
  have lost : report.failed = failed := by simpa [Report.empty] using adds.failed
  have idle : report.skipped = skipped := by simpa [Report.empty] using adds.skipped
  obtain ⟨errors, entered, many⟩ := adds.errors
  refine ⟨total, ?_, ?_, ?_, ?_, ?_, ?_⟩
  · rw [lost, entered]
    simp [Report.empty, many]
  · rw [same, files]
  · rw [same, fixed]
  · omega
  · exact report.isShare_successRate (by omega) (by omega)
  · rw [fixed, files, Ne, List.map_eq_nil_iff]
    cases some : kept engine turns with
    | nil => simp
    | cons turn rest =>
      have filled := balances.filled turn (by rw [some]; exact List.mem_cons_self)
      simp only [List.map_cons, List.sum_cons]
      exact iff_of_true (by omega) (by simp)

namespace State

variable {σ : Type}

/-- Where every file has violations, no claim is broken off and the verifier always answers, a
run ends with a report whose counts fit together, or with the failure to store the records. -/
theorem report_balanced (engine : Engine σ) (decided : Decided engine.fixers)
    (answers : Answers engine) (state : State σ) (groups : List (Path × List Violation))
    (written : ∀ group ∈ groups, group.1.Written) (apart : (groups.map Prod.fst).Nodup)
    (nonempty : ∀ group ∈ groups, group.2 ≠ []) :
    (∃ report, (state.fixAll engine groups).1 = .ok report ∧
      report.Balanced engine (turns (afterFile engine) state.renew groups)) ∨
    ∃ session error, (state.renew.fixEach engine groups).2.session = some session ∧
      session.saveManifest (state.renew.fixEach engine groups).2.disk = .error error ∧
      (state.fixAll engine groups).1 = .error (.access error) := by
  obtain ⟨ended, balances⟩ :=
    fixEach_balances engine decided answers state.renew groups nonempty
  have names : ((turns (afterFile engine) state.renew groups).map (·.path.text)).Nodup := by
    have texts : (turns (afterFile engine) state.renew groups).map (·.path.text) =
        (groups.map Prod.fst).map Path.text := by
      conv_rhs => rw [← turns_files (afterFile engine) state.renew groups]
      rw [List.map_map, List.map_map]
      rfl
    rw [texts]
    refine List.Nodup.map_on ?_ apart
    intro path member other listed told
    obtain ⟨group, among, rfl⟩ := List.mem_map.mp member
    obtain ⟨second, there, rfl⟩ := List.mem_map.mp listed
    rw [← Path.ofString_text _ (written group among), told,
      Path.ofString_text _ (written second there)]
  have balanced := balances.balanced names
  rw [fixAll_eq, ended]
  rcases finish_none_counts (state.renew.fixEach engine groups).2 with
    ⟨backups, manifest, reported⟩ | failed
  · exact .inl ⟨_, reported, balanced.totalViolations, balanced.errors, balanced.filesModified,
      balanced.fixed, balanced.bounded, balanced.isShare, balanced.changed⟩
  · exact .inr failed

/-- A run in which one of two files is put back: its fix is not counted, and its failure is. -/
theorem report_balanced_alternating :
    let engine : Engine Nat := ⟨[marking], alternating, .sinceEpoch 0 0⟩
    let begun : State Nat := ⟨sampleDisk, some sampleSession, .empty false, 0⟩
    ∃ report, (begun.fixAll engine sampleGroups).1 = .ok report ∧
      report.fixed = 1 ∧ report.failed = 1 ∧
      report.Balanced engine (turns (afterFile engine) begun.renew sampleGroups) := by
  intro engine begun
  have counts : ((begun.fixAll engine sampleGroups).1.toOption.map fun report =>
      (report.fixed, report.failed)) = some (1, 1) := by decide +kernel
  have decided : Decided engine.fixers := by
    intro fixer member violation text
    rw [List.mem_singleton.mp member]
    exact ⟨true, rfl⟩
  rcases report_balanced engine decided (fun calls _ _ => ⟨calls % 2 == 0, rfl⟩) begun sampleGroups
      (by decide) (by decide) (by decide) with
    ⟨report, reported, balanced⟩ | ⟨_, error, _, _, refused⟩
  · rw [reported] at counts
    obtain ⟨fixed, failed⟩ := Prod.mk.inj (Option.some.inj counts)
    exact ⟨report, reported, fixed, failed, balanced⟩
  · rw [refused] at counts
    cases counts

end State

end Conformance.Fix
