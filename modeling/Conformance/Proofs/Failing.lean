/-!
# Ways to fail

What is known about work that can fail: that it fails in foreseen ways only, or that it does not fail
at all. Work in several steps is told from its steps.
-/

namespace Conformance

variable {ε α β : Type}

/-- Work fails, if it does, in foreseen ways only. -/
def FailsOnly (foreseen : ε → Prop) (work : Except ε α) : Prop :=
  ∀ error, work = .error error → foreseen error

/-- Work does not fail. -/
def Succeeds (work : Except ε α) : Prop := ∃ value, work = .ok value

/-- What has succeeded does not fail. -/
@[simp] theorem failsOnly_ok (foreseen : ε → Prop) (value : α) :
    FailsOnly foreseen (.ok value : Except ε α) := by
  intro error failed
  cases failed

/-- A failure is foreseen or not. -/
@[simp] theorem failsOnly_error_iff (foreseen : ε → Prop) (error : ε) :
    FailsOnly foreseen (.error error : Except ε α) ↔ foreseen error := by
  constructor
  · intro only
    exact only error rfl
  · rintro expected _ ⟨⟩
    exact expected

/-- What has succeeded succeeds. -/
@[simp] theorem succeeds_ok (value : α) : Succeeds (.ok value : Except ε α) := ⟨value, rfl⟩

/-- Work of whose result something is told succeeds. -/
theorem exists_of_told {work : Except ε α} {known : β} (test : α → β)
    (told : work.toOption.map test = some known) : ∃ value, work = .ok value ∧ test value = known := by
  cases work with
  | error error => cases told
  | ok value => exact ⟨value, rfl, Option.some.inj told⟩

/-- A failure is no success. -/
@[simp] theorem not_succeeds_error (error : ε) : ¬ Succeeds (.error error : Except ε α) := by
  rintro ⟨value, succeeded⟩
  cases succeeded

/-- Work whose failures are all unforeseen fails in foreseen ways only if it does not fail. -/
theorem failsOnly_iff_succeeds {foreseen : ε → Prop} {work : Except ε α}
    (never : FailsOnly (fun error => ¬ foreseen error) work) :
    FailsOnly foreseen work ↔ Succeeds work := by
  cases work with
  | error error => simpa using never error rfl
  | ok value => simp

/-- Two steps fail in foreseen ways only exactly if the first one does and the second one does with its
result. -/
theorem failsOnly_bind_iff {foreseen : ε → Prop} (work : Except ε α) (next : α → Except ε β) :
    FailsOnly foreseen (work >>= next) ↔
      FailsOnly foreseen work ∧ ∀ value, work = .ok value → FailsOnly foreseen (next value) := by
  cases work with
  | error error =>
    constructor
    · intro only
      exact ⟨(failsOnly_error_iff _ _).mpr (only error rfl), fun _ succeeded => by cases succeeded⟩
    · rintro ⟨first, _⟩
      exact (failsOnly_error_iff _ _).mpr (first error rfl)
  | ok value =>
    constructor
    · intro only
      exact ⟨failsOnly_ok _ _, fun _ succeeded => Except.ok.inj succeeded ▸ only⟩
    · rintro ⟨_, second⟩
      exact second value rfl

/-- Two steps fail in foreseen ways only if each of them does. -/
theorem FailsOnly.bind {foreseen : ε → Prop} {work : Except ε α} {next : α → Except ε β}
    (first : FailsOnly foreseen work) (second : ∀ value, FailsOnly foreseen (next value)) :
    FailsOnly foreseen (work >>= next) :=
  (failsOnly_bind_iff work next).mpr ⟨first, fun value _ => second value⟩

/-- A change of the result fails in the same ways. -/
@[simp] theorem failsOnly_map_iff (foreseen : ε → Prop) (work : Except ε α) (change : α → β) :
    FailsOnly foreseen (work.map change) ↔ FailsOnly foreseen work := by
  cases work with
  | error error => simp [Except.map]
  | ok value => simp [Except.map]

/-- Work on a list fails in foreseen ways only if the work on each element does. -/
theorem FailsOnly.mapM {foreseen : ε → Prop} {work : α → Except ε β}
    (each : ∀ value, FailsOnly foreseen (work value)) (values : List α) :
    FailsOnly foreseen (values.mapM work) := by
  induction values with
  | nil => exact failsOnly_ok foreseen []
  | cons value values inductionHypothesis =>
    rw [List.mapM_cons]
    exact (each value).bind fun _ => inductionHypothesis.bind fun _ => failsOnly_ok foreseen _

/-- Two steps give a result exactly if the second one gives it from the result of the first one. -/
theorem bind_eq_ok_iff (work : Except ε α) (next : α → Except ε β) (result : β) :
    work >>= next = .ok result ↔ ∃ value, work = .ok value ∧ next value = .ok result := by
  cases work with
  | error error =>
    constructor
    · intro succeeded
      cases succeeded
    · rintro ⟨_, ⟨⟩, _⟩
  | ok value =>
    constructor
    · intro succeeded
      exact ⟨value, rfl, succeeded⟩
    · rintro ⟨_, ⟨⟩, succeeded⟩
      exact succeeded

/-- Two steps succeed exactly if the first one does and the second one does with its result. -/
theorem succeeds_bind_iff (work : Except ε α) (next : α → Except ε β) :
    Succeeds (work >>= next) ↔ ∃ value, work = .ok value ∧ Succeeds (next value) := by
  simp only [Succeeds, bind_eq_ok_iff]
  constructor
  · rintro ⟨result, value, worked, rest⟩
    exact ⟨value, worked, result, rest⟩
  · rintro ⟨value, worked, result, rest⟩
    exact ⟨result, value, worked, rest⟩

/-- A change of the result does not fail. -/
@[simp] theorem succeeds_map_iff (work : Except ε α) (change : α → β) :
    Succeeds (work.map change) ↔ Succeeds work := by
  cases work with
  | error error => simp [Except.map]
  | ok value => simp [Except.map]

/-- Other words for the error do not make it a success. -/
@[simp] theorem succeeds_mapError_iff {δ : Type} (work : Except ε α) (change : ε → δ) :
    Succeeds (work.mapError change) ↔ Succeeds work := by
  cases work with
  | error error => exact iff_of_false (not_succeeds_error _) (not_succeeds_error _)
  | ok value => exact iff_of_true (succeeds_ok value) (succeeds_ok value)

/-- Work fails as foreseen in other words exactly if it fails with what these words are foreseen for. -/
theorem failsOnly_mapError_iff {δ : Type} (foreseen : δ → Prop) (work : Except ε α) (change : ε → δ) :
    FailsOnly foreseen (work.mapError change) ↔ FailsOnly (fun error => foreseen (change error)) work := by
  cases work with
  | error error =>
    exact (failsOnly_error_iff foreseen _).trans
      (failsOnly_error_iff (fun error => foreseen (change error)) error).symm
  | ok value => exact iff_of_true (failsOnly_ok foreseen value) (failsOnly_ok _ value)

/-- Work on a list succeeds exactly if the work on each element does. -/
theorem succeeds_mapM_iff (work : α → Except ε β) (values : List α) :
    Succeeds (values.mapM work) ↔ ∀ value ∈ values, Succeeds (work value) := by
  induction values with
  | nil => simp [pure, Except.pure]
  | cons value values inductionHypothesis =>
    rw [List.mapM_cons, succeeds_bind_iff, List.forall_mem_cons, ← inductionHypothesis]
    constructor
    · rintro ⟨result, worked, rest⟩
      obtain ⟨results, others, _⟩ := (succeeds_bind_iff _ _).mp rest
      exact ⟨⟨result, worked⟩, ⟨results, others⟩⟩
    · rintro ⟨⟨result, worked⟩, ⟨results, others⟩⟩
      exact ⟨result, worked, (succeeds_bind_iff _ _).mpr ⟨results, others, succeeds_ok _⟩⟩

/-!
## Faults

What goes wrong first is what work fails with. So work in several steps, each of which can fail, is
told from the list of what can go wrong.
-/

/-- What goes wrong in work. -/
def fault? : Except ε α → Option ε
  | .ok _ => none
  | .error error => some error

/-- Nothing goes wrong in what has succeeded. -/
@[simp] theorem fault?_ok (value : α) : fault? (.ok value : Except ε α) = none := rfl

/-- A failure goes wrong. -/
@[simp] theorem fault?_error (error : ε) : fault? (.error error : Except ε α) = some error := rfl

/-- What goes wrong is the failure. -/
theorem fault?_eq_some_iff (work : Except ε α) (error : ε) :
    fault? work = some error ↔ work = .error error := by
  cases work <;> simp

/-- A change of the result does not change what goes wrong. -/
@[simp] theorem fault?_map (work : Except ε α) (change : α → β) :
    fault? (work.map change) = fault? work := by
  cases work <;> rfl

/-- If what goes wrong in the second step does not depend on the first one, it is what goes wrong where
nothing goes wrong in the first one. -/
theorem fault?_bind {work : Except ε α} {next : α → Except ε β} {later : Option ε}
    (same : ∀ value, work = .ok value → fault? (next value) = later) :
    fault? (work >>= next) = (fault? work).or later := by
  cases work with
  | error error => rfl
  | ok value => exact same value rfl

/-- What is found first is found at the first element or behind it. -/
theorem findSome?_cons_or (test : α → Option ε) (value : α) (values : List α) :
    (value :: values).findSome? test = (test value).or (values.findSome? test) := by
  cases found : test value <;> simp [found]

/-- What is found first in the parts of values is found at the first value in whose parts it is. -/
theorem findSome?_flatMap (test : β → Option ε) (parts : α → List β) (values : List α) :
    (values.flatMap parts).findSome? test = values.findSome? fun value => (parts value).findSome? test := by
  induction values with
  | nil => rfl
  | cons value values inductionHypothesis =>
    rw [List.flatMap_cons, List.findSome?_append, inductionHypothesis, findSome?_cons_or]

/-- In work on a list the first element decides at which something goes wrong. -/
theorem fault?_mapM (work : α → Except ε β) (values : List α) :
    fault? (values.mapM work) = values.findSome? fun value => fault? (work value) := by
  induction values with
  | nil => rfl
  | cons value values inductionHypothesis =>
    rw [List.mapM_cons, findSome?_cons_or, ← inductionHypothesis]
    refine fault?_bind fun result _ => ?_
    exact (fault?_bind fun results _ => fault?_ok (result :: results)).trans Option.or_none

/-- Work fails in foreseen ways only if what goes wrong is foreseen. -/
theorem failsOnly_iff_fault (foreseen : ε → Prop) (work : Except ε α) :
    FailsOnly foreseen work ↔ ∀ error, fault? work = some error → foreseen error := by
  simp only [FailsOnly, fault?_eq_some_iff]

/-- The first fault is foreseen exactly if a foreseen one stands in front of every unforeseen one. -/
theorem first_foreseen_iff (foreseen : ε → Prop) (test : α → Option ε) (values : List α) :
    (∀ error, values.findSome? test = some error → foreseen error) ↔
      ∀ before value after, values = before ++ value :: after →
        (∃ error, test value = some error ∧ ¬ foreseen error) →
          ∃ other ∈ before, ∃ error, test other = some error ∧ foreseen error := by
  constructor
  · rintro only before value after rfl ⟨error, found, unforeseen⟩
    cases earlier : before.findSome? test with
    | none =>
      have first : (before ++ value :: after).findSome? test = some error := by
        rw [List.findSome?_append, earlier, List.findSome?_cons, found]
        rfl
      exact absurd (only error first) unforeseen
    | some other =>
      have first : (before ++ value :: after).findSome? test = some other := by
        rw [List.findSome?_append, earlier]
        rfl
      obtain ⟨place, member, tested⟩ := List.exists_of_findSome?_eq_some earlier
      exact ⟨place, member, other, tested, only other first⟩
  · intro ahead error first
    obtain ⟨before, value, after, rfl, found, quiet⟩ := List.findSome?_eq_some_iff.mp first
    refine Classical.byContradiction fun unforeseen => ?_
    obtain ⟨other, member, fault, tested, _⟩ := ahead before value after rfl ⟨error, found, unforeseen⟩
    rw [quiet other member] at tested
    cases tested

end Conformance
