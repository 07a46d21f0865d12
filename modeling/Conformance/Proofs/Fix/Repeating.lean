import Conformance.Proofs.Fix.Accounting

/-!
# Repeated work on files

Several calls of one session, each for one file, where a file may have several calls. A file is
recorded at its first call and keeps that record. So a refused call puts back the content of
the start, and takes the changes of earlier calls of the same file with it. What is on the
disk is told by the calls that have been accepted since the last refused one.
-/

namespace Conformance.Fix

variable {σ : Type}

namespace Turn

/-- What the verifier says about the file, if it is asked. -/
def answer (engine : Engine σ) (turn : Turn σ) : Option (Except Interruption Bool) :=
  (turn.state.presented engine turn.path turn.violations).map fun shown =>
    (engine.verify turn.state.verifier shown turn.path).1

/-- The verifier is asked about the file and accepts it. -/
def IsAccepted (engine : Engine σ) (turn : Turn σ) : Prop :=
  turn.answer engine = some (.ok true)

/-- The verifier is asked about the file and refuses it. -/
def IsRefused (engine : Engine σ) (turn : Turn σ) : Prop :=
  turn.answer engine = some (.ok false)

instance (engine : Engine σ) (turn : Turn σ) : Decidable (turn.IsAccepted engine) :=
  inferInstanceAs (Decidable (_ = _))

instance (engine : Engine σ) (turn : Turn σ) : Decidable (turn.IsRefused engine) :=
  inferInstanceAs (Decidable (_ = _))

end Turn

namespace State

/-- A state after a call for one file, however it ends. -/
def afterCall (engine : Engine σ) (state : State σ) (path : Path) (violations : List Violation) :
    State σ :=
  (state.fixFile engine path violations).2

/-- A state after several calls, one after the other. -/
def afterCalls (engine : Engine σ) : State σ → List (Path × List Violation) → State σ
  | state, [] => state
  | state, (path, violations) :: calls =>
    afterCalls engine (state.afterCall engine path violations) calls

end State

/-- A changed file holds the revised text that the verifier has been shown. -/
structure Turn.Revises (engine : Engine σ) (turn : Turn σ) (location : Location)
    (after : Disk) : Prop where
  revised : ∃ bytes text, turn.state.disk.content? location = some bytes ∧
    Text.decode bytes = .ok text ∧ Applies engine.fixers turn.violations text ∧
    after.content? location = some (Text.encode (revised engine.fixers turn.violations text))
  shown : ∃ shown, turn.state.presented engine turn.path turn.violations = some shown ∧
    shown.content? location = after.content? location

/-- What a call does to the files outside the home of a session: a refused one puts the content
of the start back, an accepted one leaves the revised text, and any other leaves its file as it
is. No other file is touched. -/
structure Turn.Undoes (engine : Engine σ) (start : Disk) (home : Location) (turn : Turn σ)
    (after : Disk) : Prop where
  kept : turn.verdict engine = .ok true ↔ turn.IsAccepted engine
  refused : turn.IsRefused engine →
    after.content? (start.resolve turn.path) = start.content? (start.resolve turn.path)
  accepted : turn.IsAccepted engine → turn.Revises engine (start.resolve turn.path) after
  unasked : turn.answer engine = none →
    after.content? (start.resolve turn.path) = turn.state.disk.content? (start.resolve turn.path)
  elsewhere : ∀ location, ¬ home <+: location → location ≠ start.resolve turn.path →
    after.content? location = turn.state.disk.content? location

variable {held : Set (List UInt8)} {start : Disk} {directory : Path}

/-- What a call of a safe session does to the files. -/
theorem Turn.undoes (turn : Turn σ) (safe : turn.state.Safe held start directory)
    (subject : Subject held start (start.resolve directory) turn.path (start.resolve turn.path))
    (engine : Engine σ) (restores : engine.Restores held) :
    turn.Undoes engine start (start.resolve directory)
      (turn.state.afterCall engine turn.path turn.violations).disk := by
  have elsewhere := (safe.fixFile subject engine restores turn.violations).2.2
  rcases State.fixFile_decides safe subject engine restores turn.violations with
    ⟨shown, decides⟩ | ⟨unseen, verdict, same⟩
  · have answered : turn.answer engine =
        some (engine.verify turn.state.verifier shown turn.path).1 := by
      rw [answer, decides.presented]
      rfl
    refine ⟨?_, ?_, ?_, ?_, elsewhere⟩
    · rw [verdict, decides.answer, IsAccepted, answered, Option.some.injEq]
    · intro refused
      exact decides.refused (Option.some.inj (answered.symm.trans refused))
    · intro accepted
      have said := Option.some.inj (answered.symm.trans accepted)
      have stays := decides.kept (by simp [said])
      obtain ⟨bytes, text, changes, there, decoded, make, applied, _, holds⟩ := decides.change
      obtain ⟨revision, fixed, _⟩ := Changes.make_unbroken turn.violations text changes make
      rw [fixed] at applied
      rw [revision] at holds
      exact ⟨⟨bytes, text, there, decoded, (fixes_ne_zero _ text).mp applied, stays.trans holds⟩,
        shown, decides.presented, stays.symm⟩
    · intro none
      rw [answered] at none
      cases none
  · have unasked : turn.answer engine = none := by rw [answer, unseen, Option.map_none]
    refine ⟨iff_of_false ?_ ?_, ?_, ?_, fun _ => same, elsewhere⟩
    · rcases verdict with refused | ⟨reason, broken, _⟩
      · rw [Turn.verdict, refused]
        simp
      · rw [Turn.verdict, broken]
        simp
    · simp [IsAccepted, unasked]
    · simp [IsRefused, unasked]
    · simp [IsAccepted, unasked]

/-- The accepted calls of a file since its last refused one, after one more call. -/
def stand (engine : Engine σ) (start : Disk) (location : Location) (standing : List (Turn σ))
    (turn : Turn σ) : List (Turn σ) :=
  if start.resolve turn.path = location then
    if turn.IsAccepted engine then standing ++ [turn]
    else if turn.IsRefused engine then []
    else standing
  else standing

/-- The accepted calls of a file since its last refused one. -/
def standing (engine : Engine σ) (start : Disk) (location : Location) (turns : List (Turn σ)) :
    List (Turn σ) :=
  turns.foldl (stand engine start location) []

/-- A text after the revisions of several calls. -/
def revisedBy (fixers : List Fixer) (turns : List (Turn σ)) (text : List Char) : List Char :=
  turns.foldl (fun text turn => revised fixers turn.violations text) text

/-- A file holds its content of the start with the revisions of the calls that stand, and the
verifier has accepted what it holds. -/
structure Stands (engine : Engine σ) (start disk : Disk) (location : Location)
    (standing : List (Turn σ)) : Prop where
  idle : standing = [] → disk.content? location = start.content? location
  changed : ∀ earlier last, standing = earlier ++ [last] →
    (∃ bytes text, start.content? location = some bytes ∧ Text.decode bytes = .ok text ∧
      disk.content? location =
        some (Text.encode (revisedBy engine.fixers standing text))) ∧
    last.IsAccepted engine ∧
    ∃ shown, last.state.presented engine last.path last.violations = some shown ∧
      shown.content? location = disk.content? location

variable {engine : Engine σ} {disk after : Disk} {home location : Location}
  {left : List (Turn σ)}

/-- A verifier that always answers accepts a file, refuses it or is not asked. -/
theorem Turn.answer_cases (turn : Turn σ) (answers : State.Answers engine) :
    turn.answer engine = none ∨ turn.IsAccepted engine ∨ turn.IsRefused engine := by
  unfold IsAccepted IsRefused answer
  cases turn.state.presented engine turn.path turn.violations with
  | none => exact .inl rfl
  | some shown =>
    obtain ⟨said, answered⟩ := answers turn.state.verifier shown turn.path
    cases said with
    | true => exact .inr (.inl (congrArg some answered))
    | false => exact .inr (.inr (congrArg some answered))

/-- An accepted file is not refused. -/
theorem Turn.IsAccepted.not_isRefused {turn : Turn σ} (accepted : turn.IsAccepted engine) :
    ¬ turn.IsRefused engine := by
  intro refused
  cases accepted.symm.trans refused

/-- What a file holds depends only on its content. -/
theorem Stands.transfer (stands : Stands engine start disk location left)
    (same : after.content? location = disk.content? location) :
    Stands engine start after location left := by
  obtain ⟨idle, changed⟩ := stands
  rw [← same] at idle changed
  exact ⟨idle, changed⟩

/-- A file whose changes all stand is one of text, where the text is the revised one. -/
theorem Stands.text (stands : Stands engine start disk location left) (bytes : List UInt8)
    (text : List Char) (content : disk.content? location = some bytes)
    (decoded : Text.decode bytes = .ok text) :
    ∃ original first, start.content? location = some original ∧
      Text.decode original = .ok first ∧ text = revisedBy engine.fixers left first := by
  rcases List.eq_nil_or_concat left with rfl | ⟨earlier, last, rfl⟩
  · exact ⟨bytes, text, (stands.idle rfl).symm.trans content, decoded, rfl⟩
  · obtain ⟨⟨original, first, there, read, holds⟩, _⟩ :=
      stands.changed earlier last (List.concat_eq_append)
    obtain rfl := Option.some.inj (content.symm.trans holds)
    rw [Text.decode_encode] at decoded
    exact ⟨original, first, there, read, (Except.ok.inj decoded).symm⟩

/-- After one more call, a file holds its content of the start with the revisions of the calls
that stand by then. The cases are the answers of the verifier about the file. -/
theorem Stands.stand (turn : Turn σ) (undoes : turn.Undoes engine start home after)
    (answers : State.Answers engine) (apart : ¬ home <+: location)
    (stands : Stands engine start turn.state.disk location left) :
    Stands engine start after location (stand engine start location left turn) := by
  unfold Fix.stand
  by_cases here : start.resolve turn.path = location
  · subst here
    rw [if_pos rfl]
    rcases turn.answer_cases answers with unasked | accepted | refused
    · rw [if_neg (by simp [Turn.IsAccepted, unasked]), if_neg (by simp [Turn.IsRefused, unasked])]
      exact stands.transfer (undoes.unasked unasked)
    · rw [if_pos accepted]
      obtain ⟨⟨bytes, text, content, decoded, _, holds⟩, shows⟩ := undoes.accepted accepted
      obtain ⟨original, first, there, read, rfl⟩ := stands.text bytes text content decoded
      refine ⟨by simp, ?_⟩
      intro earlier last split
      obtain ⟨rfl, rfl⟩ : left = earlier ∧ turn = last := by
        simpa using List.append_inj' split rfl
      refine ⟨⟨original, first, there, read, ?_⟩, accepted, shows⟩
      rw [holds, revisedBy, revisedBy, List.foldl_append]
      rfl
    · rw [if_neg (fun accepted => accepted.not_isRefused refused), if_pos refused]
      exact ⟨fun _ => undoes.refused refused, by simp⟩
  · rw [if_neg here]
    exact stands.transfer (undoes.elsewhere location apart (Ne.symm here))

/-- A call that stands goes on to stand while no call of the same file is refused. -/
theorem mem_foldl_stand (turn : Turn σ) (standing later : List (Turn σ))
    (member : turn ∈ standing)
    (unrefused : ∀ next ∈ later, start.resolve next.path = location →
      ¬ next.IsRefused engine) :
    turn ∈ later.foldl (stand engine start location) standing := by
  induction later generalizing standing with
  | nil => exact member
  | cons next later inductionHypothesis =>
    refine inductionHypothesis _ ?_ fun other listed =>
      unrefused other (List.mem_cons_of_mem _ listed)
    unfold stand
    split
    · next here =>
      split
      · exact List.mem_append_left _ member
      · rw [if_neg (unrefused next List.mem_cons_self here)]
        exact member
    · exact member

/-- An accepted call stands until a call of the same file is refused. -/
theorem mem_standing_of_accepted (earlier later : List (Turn σ)) (turn : Turn σ)
    (accepted : turn.IsAccepted engine)
    (unrefused : ∀ next ∈ later, start.resolve next.path = start.resolve turn.path →
      ¬ next.IsRefused engine) :
    turn ∈ standing engine start (start.resolve turn.path) (earlier ++ turn :: later) := by
  rw [standing, List.foldl_append, List.foldl_cons]
  refine mem_foldl_stand turn _ later ?_ unrefused
  rw [stand, if_pos rfl, if_pos accepted]
  exact List.mem_append_right _ List.mem_cons_self

namespace State

/-- Several calls of a safe session. Before each of them and in the end a file is as the calls
that stand by then have left it. The induction is on the calls, with the calls that stand
before them general. -/
theorem afterCalls_stand {state : State σ} (safe : state.Safe held start directory)
    (restores : engine.Restores held) (answers : Answers engine)
    (calls : List (Path × List Violation))
    (subjects : ∀ call ∈ calls,
      Subject held start (start.resolve directory) call.1 (start.resolve call.1))
    (before : Location → List (Turn σ))
    (stands : ∀ location, ¬ start.resolve directory <+: location →
      Stands engine start state.disk location (before location)) :
    (∀ earlier turn later, turns (afterCall engine) state calls = earlier ++ turn :: later →
      turn.Undoes engine start (start.resolve directory)
        (turn.state.afterCall engine turn.path turn.violations).disk ∧
      ∀ location, ¬ start.resolve directory <+: location →
        Stands engine start turn.state.disk location
          (earlier.foldl (stand engine start location) (before location))) ∧
    ∀ location, ¬ start.resolve directory <+: location →
      Stands engine start (state.afterCalls engine calls).disk location
        ((turns (afterCall engine) state calls).foldl (stand engine start location)
          (before location)) := by
  induction calls generalizing state before with
  | nil => exact ⟨by simp [turns], stands⟩
  | cons call calls inductionHypothesis =>
    obtain ⟨path, violations⟩ := call
    have subject := subjects (path, violations) List.mem_cons_self
    have undoes := Turn.undoes ⟨state, path, violations⟩ safe subject engine restores
    have again : (state.afterCall engine path violations).Safe held start directory :=
      (safe.fixFile subject engine restores violations).1
    obtain ⟨each, final⟩ := inductionHypothesis again
      (fun call member => subjects call (List.mem_cons_of_mem _ member))
      (fun location => stand engine start location (before location) ⟨state, path, violations⟩)
      fun location apart => Stands.stand ⟨state, path, violations⟩ undoes answers apart
        (stands location apart)
    refine ⟨?_, final⟩
    intro earlier turn later split
    cases earlier with
    | nil =>
      obtain ⟨rfl, _⟩ := List.cons.inj split
      exact ⟨undoes, stands⟩
    | cons first earlier =>
      obtain ⟨rfl, rest⟩ := List.cons.inj split
      exact each earlier turn later rest

/-- Several calls enter the files of those in which a change is kept. -/
theorem afterCalls_filesModified (engine : Engine σ) (state : State σ)
    (calls : List (Path × List Violation)) :
    (state.afterCalls engine calls).report.filesModified = state.report.filesModified ++
      (kept engine (turns (afterCall engine) state calls)).map (·.path.text) := by
  induction calls generalizing state with
  | nil => simp [turns, kept, afterCalls]
  | cons call calls inductionHypothesis =>
    let turn : Turn σ := ⟨state, call.1, call.2⟩
    have entered := state.fixFile_filesModified engine call.1 call.2
    have verdict : keptFile call.1 (state.fixFile engine call.1 call.2).1 =
        (kept engine [turn]).map (·.path.text) := keptFile_verdict engine turn
    have keeps := kept_append engine [turn]
      (turns (afterCall engine) (state.afterCall engine call.1 call.2) calls)
    rw [afterCalls, inductionHypothesis, afterCall, entered, verdict, List.append_assoc,
      ← List.map_append]
    exact congrArg _ (congrArg _ keeps.symm)

/-- Several calls count the fixes of those in which a change is kept, if no claim is broken
off. -/
theorem afterCalls_fixed (engine : Engine σ) (decided : Decided engine.fixers)
    (answers : Answers engine) (state : State σ) (calls : List (Path × List Violation)) :
    (state.afterCalls engine calls).report.fixed = state.report.fixed +
      ((kept engine (turns (afterCall engine) state calls)).map (·.made engine)).sum := by
  induction calls generalizing state with
  | nil => simp [turns, kept, afterCalls]
  | cons call calls inductionHypothesis =>
    let turn : Turn σ := ⟨state, call.1, call.2⟩
    obtain ⟨_, _, adds, _⟩ := (turn.counted engine decided answers).adds
    have settles : (settled call.1 (state.fixFile engine call.1 call.2)).report.fixed =
        (state.afterCall engine call.1 call.2).report.fixed := by
      unfold settled afterCall
      split <;> simp_all [Report.addFailure]
    have counted : (state.afterCall engine call.1 call.2).report.fixed =
        state.report.fixed + ((kept engine [turn]).map (·.made engine)).sum := by
      rw [← settles, ← credit_verdict]
      exact adds.fixed
    have keeps := kept_append engine [turn]
      (turns (afterCall engine) (state.afterCall engine call.1 call.2) calls)
    have added : turns (afterCall engine) state (call :: calls) =
        [turn] ++ turns (afterCall engine) (state.afterCall engine call.1 call.2) calls := rfl
    rw [afterCalls, inductionHypothesis, counted, added, keeps, List.map_append,
      List.sum_append_nat]
    omega

/-- Several calls of a fresh session whose verifier always answers. A refused call puts the
content of the start back; it is that from before the call if no other call stands. Each file
holds its content of the start with the revisions of the calls that stand. The files of the
kept calls are entered as changed and their fixes are counted, and each of them stands until a
call of its file is refused. -/
theorem repeated_calls_outcome (disk : Disk) (session : BackupSession) (verifier : σ)
    (begun : State σ) (formed : disk.WellFormed) (fresh : session.Fresh disk)
    (starts : State.start disk (some session) false verifier = .ok begun) (engine : Engine σ)
    (answers : Answers engine) (calls : List (Path × List Violation))
    (outside : ∀ call ∈ calls, session.Admits disk call.1)
    (collisionFree : CollisionFree (originals disk calls)) :
    let home := disk.resolve session.directory
    let history := turns (afterCall engine) begun calls
    let final := begun.afterCalls engine calls
    (∀ earlier turn later, history = earlier ++ turn :: later →
      turn.Undoes engine disk home (turn.state.afterCall engine turn.path turn.violations).disk ∧
      Stands engine disk turn.state.disk (disk.resolve turn.path)
        (standing engine disk (disk.resolve turn.path) earlier) ∧
      (turn ∈ kept engine history →
        (∀ next ∈ later, disk.resolve next.path = disk.resolve turn.path →
          ¬ next.IsRefused engine) →
        turn ∈ standing engine disk (disk.resolve turn.path) history)) ∧
    (∀ location, ¬ home <+: location →
      Stands engine disk final.disk location (standing engine disk location history)) ∧
    final.report.filesModified = (kept engine history).map (·.path.text) ∧
    (Decided engine.fixers →
      final.report.fixed = ((kept engine history).map (·.made engine)).sum) := by
  obtain rfl := Except.ok.inj starts
  have subjects := subjects_of_admits calls outside
  have restores := engine.restores_of_injOn collisionFree.injOn
  generalize {bytes | bytes ∈ originals disk calls} = held at subjects restores
  have begins := safe_of_start held formed fresh starts
  obtain ⟨each, final⟩ := afterCalls_stand begins restores answers calls subjects (fun _ => [])
    fun location _ => ⟨fun _ => rfl, by simp⟩
  refine ⟨?_, final, ?_, ?_⟩
  · intro earlier turn later split
    obtain ⟨undoes, stands⟩ := each earlier turn later split
    have member : (turn.path, turn.violations) ∈ calls := by
      rw [← turns_files (afterCall engine) _ calls, split]
      exact List.mem_map.mpr ⟨turn, by simp, rfl⟩
    refine ⟨undoes, stands _ (subjects _ member).apart, ?_⟩
    intro keeps unrefused
    have accepted := undoes.kept.mp ((turn.isKept_iff engine).mp (List.mem_filter.mp keeps).2)
    rw [split]
    exact mem_standing_of_accepted earlier later turn accepted unrefused
  · rw [afterCalls_filesModified]
    rfl
  · intro decided
    rw [afterCalls_fixed engine decided answers]
    exact Int.zero_add _

/-- Two calls for a file, of which the second is refused, and one for another file. -/
def sampleCalls : List (Path × List Violation) :=
  ["a.ts", "a.ts", "b.ts"].map fun file => (.ofString file, [sampleViolation file])

/-- Only the last of three calls stands, so the first file is as it was at the start. -/
theorem repeated_calls_outcome_alternating :
    let engine : Engine Nat := ⟨[marking], alternating, .sinceEpoch 0 0⟩
    let begun : State Nat := ⟨sampleDisk, some sampleSession, .empty false, 0⟩
    let final := begun.afterCalls engine sampleCalls
    final.disk.content? ["w", "a.ts"] = some [97] ∧
      Stands engine sampleDisk final.disk ["w", "b.ts"]
        (standing engine sampleDisk ["w", "b.ts"] (turns (afterCall engine) begun sampleCalls)) := by
  intro engine begun final
  obtain ⟨_, stands, _⟩ := repeated_calls_outcome sampleDisk sampleSession 0 begun (by decide)
    (by decide) rfl engine (fun calls _ _ => ⟨calls % 2 == 0, rfl⟩) sampleCalls (by decide)
    (by decide +kernel)
  have none : standing engine sampleDisk ["w", "a.ts"]
      (turns (afterCall engine) begun sampleCalls) = [] := List.isEmpty_iff.mp (by decide +kernel)
  exact ⟨(stands ["w", "a.ts"] (by decide)).idle none, stands ["w", "b.ts"] (by decide)⟩

/-- A fixer that claims a text of one letter and gives up on any other. -/
def stumbling : Fixer :=
  { marking with
    claims := fun _ text => if text.length = 1 then .ok true else .error (.other "stopped") }

/-- A refused call does not put back what its file held just before it, although that had been
accepted and stays entered as changed. And a fix is counted that is not on the disk where a
claim is broken off. -/
theorem earlier_change_lost :
    let engine : Engine Nat := ⟨[marking], alternating, .sinceEpoch 0 0⟩
    let begun : State Nat := ⟨sampleDisk, some sampleSession, .empty false, 0⟩
    let path : Path := .ofString "a.ts"
    let first := begun.afterCall engine path [sampleViolation "a.ts"]
    let second := first.afterCall engine path [sampleViolation "a.ts"]
    let broken := begun.afterCall ⟨[stumbling], alternating, .sinceEpoch 0 0⟩ path
      [sampleViolation "a.ts", sampleViolation "a.ts"]
    (sampleDisk.WellFormed ∧ sampleSession.Fresh sampleDisk ∧
      sampleSession.Admits sampleDisk path ∧ Answers engine ∧ Decided engine.fixers) ∧
    (Turn.mk begun path [sampleViolation "a.ts"]).IsAccepted engine ∧
    (Turn.mk first path [sampleViolation "a.ts"]).IsRefused engine ∧
    first.disk.content? ["w", "a.ts"] = some [97, 33] ∧
    second.disk.content? ["w", "a.ts"] = some [97] ∧
    second.report.filesModified = ["a.ts"] ∧ second.report.fixed = 1 ∧
    broken.disk.content? ["w", "a.ts"] = some [97] ∧ broken.report.fixed = 1 := by
  refine ⟨⟨by decide, by decide, by decide, fun calls _ _ => ⟨calls % 2 == 0, rfl⟩, ?_⟩, ?_⟩
  · intro fixer member violation text
    rw [List.mem_singleton.mp member]
    exact ⟨true, rfl⟩
  · decide +kernel

end State

end Conformance.Fix
