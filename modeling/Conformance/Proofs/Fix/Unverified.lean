import Conformance.Proofs.Fix.Outcomes

/-!
# Texts that have not been verified

After the work on a file, it holds its bytes from before or bytes that the verifier has
accepted, with one exception: where the verifier gives up instead of answering, what has been
written stays.
-/

namespace Conformance.Fix.State

variable {σ : Type}

/-- After the work on a file, it holds what it held before or what the verifier has
accepted. -/
def Trusted (engine : Engine σ) (before : State σ) (path : Path) (violations : List Violation)
    (location : Location) (after : State σ) : Prop :=
  after.disk.content? location = before.disk.content? location ∨
    ∃ shown, before.presented engine path violations = some shown ∧
      (engine.verify before.verifier shown path).1 = .ok true ∧
      after.disk.content? location = shown.content? location

/-- The verifier gives up on a file whose bytes are not those from before. -/
def GivesUp (engine : Engine σ) (before : State σ) (path : Path) (violations : List Violation)
    (location : Location) (shown : Disk) : Prop :=
  before.presented engine path violations = some shown ∧
    (∃ reason, (engine.verify before.verifier shown path).1 = .error reason) ∧
    shown.content? location ≠ before.disk.content? location

variable {start : Disk} {location : Location} {path : Path} {state : State σ}

/-- Where the verifier decides about a file, it is trusted exactly if the verifier does not give
up on it. The cases are the three answers of the verifier. -/
theorem Decides.trusts_iff {engine : Engine σ} {violations : List Violation}
    {result : Except Interruption Bool × State σ} {shown : Disk}
    (decides : Decides engine start state path violations location result shown)
    (content : state.disk.content? location = start.content? location) :
    Trusted engine state path violations location result.2 ↔
      ∀ other, ¬ GivesUp engine state path violations location other := by
  have only (other : Disk) (present : state.presented engine path violations = some other) :
      other = shown := Option.some.inj (present.symm.trans decides.presented)
  constructor
  · rintro trusted other ⟨present, ⟨reason, broken⟩, changed⟩
    obtain rfl := only other present
    have stays := decides.kept (by simp [broken])
    rcases trusted with before | ⟨again, presentedAgain, accepted, _⟩
    · exact changed (stays.symm.trans before)
    · obtain rfl := only again presentedAgain
      rw [broken] at accepted
      cases accepted
  · intro never
    cases said : (engine.verify state.verifier shown path).1 with
    | ok answer =>
      cases answer with
      | true => exact .inr ⟨shown, decides.presented, said, decides.kept (by simp [said])⟩
      | false => exact .inl ((decides.refused said).trans content.symm)
    | error reason =>
      have same : shown.content? location = state.disk.content? location := by
        by_contra changed
        exact never shown ⟨decides.presented, ⟨reason, said⟩, changed⟩
      exact .inl ((decides.kept (by simp [said])).trans same)

/-- Where the verifier gives up on a file that it decides about, the file holds what it has been
shown. -/
theorem Decides.of_givesUp {engine : Engine σ} {violations : List Violation}
    {result : Except Interruption Bool × State σ} {shown other : Disk}
    (decides : Decides engine start state path violations location result shown)
    (givesUp : GivesUp engine state path violations location other) :
    result.2.disk.content? location = other.content? location := by
  obtain ⟨present, ⟨reason, broken⟩, _⟩ := givesUp
  obtain rfl := Option.some.inj (present.symm.trans decides.presented)
  exact decides.kept (by simp [broken])

/-- The work on a file in a fresh session leaves it trusted exactly if the verifier does not
give up on it. If it does, the file holds what the verifier has been shown. -/
theorem trusted_iff (disk : Disk) (session : BackupSession) (verifier : σ) (begun : State σ)
    (formed : disk.WellFormed) (fresh : session.Fresh disk)
    (starts : State.start disk (some session) false verifier = .ok begun) (engine : Engine σ)
    (path : Path) (violations : List Violation) (outside : session.Admits disk path) :
    let after := (begun.fixFile engine path violations).2
    (Trusted engine begun path violations (disk.resolve path) after ↔
      ∀ shown, ¬ GivesUp engine begun path violations (disk.resolve path) shown) ∧
    ∀ shown, GivesUp engine begun path violations (disk.resolve path) shown →
      after.disk.content? (disk.resolve path) = shown.content? (disk.resolve path) := by
  obtain rfl := Except.ok.inj starts
  obtain ⟨written, resolves, apart⟩ := outside
  generalize held : {bytes | disk.content? (disk.resolve path) = some bytes} = contents
  have distinct : Set.InjOn Sha256.hexDigest contents := by
    intro left inLeft right inRight _
    rw [← held] at inLeft inRight
    exact Option.some.inj (inLeft.symm.trans inRight)
  have subject : Subject contents disk (disk.resolve session.directory) path
      (disk.resolve path) := ⟨written, resolves, apart, fun bytes content => by
    rw [← held]
    exact content⟩
  have safe := safe_of_start contents formed fresh starts
  rcases fixFile_decides safe subject engine (engine.restores_of_injOn distinct)
    violations with ⟨shown, decides⟩ | ⟨unseen, _, same⟩
  · exact ⟨decides.trusts_iff rfl, fun _ givesUp => decides.of_givesUp givesUp⟩
  · have never (shown : Disk) : ¬ GivesUp engine
        (⟨disk, some session, .empty false, verifier⟩ : State σ) path violations
        (disk.resolve path) shown := by
      rintro ⟨present, _⟩
      rw [unseen] at present
      cases present
    exact ⟨⟨fun _ => never, fun _ => .inl same⟩, fun shown givesUp => absurd givesUp (never shown)⟩

/-- A verifier that breaks down. -/
def failing : Verifier Unit := fun calls _ _ => (.error (.system "verifier failed"), calls)

/-- A file that a refusing verifier has been asked about is trusted. -/
theorem trusted_iff_refused :
    let engine : Engine Nat := ⟨[marking], wavering, .sinceEpoch 0 0⟩
    let begun : State Nat := ⟨sampleDisk, some sampleSession, .empty false, 1⟩
    Trusted engine begun (.ofString "a.ts") [sampleViolation "a.ts"] ["w", "a.ts"]
      (begun.fixFile engine (.ofString "a.ts") [sampleViolation "a.ts"]).2 := by
  apply (trusted_iff sampleDisk sampleSession 1 _ (by decide) (by decide) rfl
    ⟨[marking], wavering, .sinceEpoch 0 0⟩ (.ofString "a.ts") [sampleViolation "a.ts"]
    (by decide)).1.mpr
  rintro shown ⟨_, ⟨reason, broken⟩, _⟩
  cases broken

/-- Where the verifier breaks down, a file is left with a text that nothing has accepted. -/
theorem untrusted_of_failing :
    let engine : Engine Unit := ⟨[marking], failing, .sinceEpoch 0 0⟩
    let begun : State Unit := ⟨sampleDisk, some sampleSession, .empty false, ()⟩
    let after := (begun.fixFile engine (.ofString "a.ts") [sampleViolation "a.ts"]).2
    sampleDisk.WellFormed ∧ sampleSession.Fresh sampleDisk ∧
      sampleSession.Admits sampleDisk (.ofString "a.ts") ∧
      after.disk.content? ["w", "a.ts"] = some [97, 33] ∧
      ¬ Trusted engine begun (.ofString "a.ts") [sampleViolation "a.ts"] ["w", "a.ts"] after := by
  intro engine begun after
  have left : after.disk.content? ["w", "a.ts"] = some [97, 33] := by decide +kernel
  refine ⟨by decide, by decide, by decide, left, ?_⟩
  rintro (before | ⟨shown, _, accepted, _⟩)
  · rw [left] at before
    exact absurd before (by decide)
  · cases accepted

end Conformance.Fix.State
