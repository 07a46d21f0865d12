import Conformance.Proofs.Command.Ending

/-!
# Saved results that are loaded or refused

A file may hold any bytes, and as a document any values. Reading a result from a document goes through
its places in a fixed order, and the first place with a fault decides. Every fault is a refusal, with one
exception: a number that is beyond the numbers of its kind. So a file is loaded or refused as long as its
document is not nested too deep and no such number comes to be read.
-/

namespace Conformance

open Number

/-- A failure that is told as a refused value. The others come from the disk, from the depth of a
document and from numbers that are beyond all numbers of their kind. -/
def LoadError.IsRefusal : LoadError → Prop
  | .encoding _ | .malformed | .oversized _ => True
  | .unfit reason => reason ≠ .unbounded
  | .access _ | .tooDeep => False

namespace StoredResult

/-- What is asked of a place in a document. -/
inductive Demand where
  | fields
  | items
  | present
  | integer
  | severity
  | tally
  | number

/-- A place in a document: what is asked of it, and what it holds. -/
structure Place where
  demand : Demand
  content : Option Json

/-- What is wrong with a value. -/
def Demand.fault? (value : Json) : Demand → Option UnfitDocument
  | fields => Conformance.fault? (fieldsOf value)
  | items => Conformance.fault? (itemsOf value)
  | present => none
  | integer => Conformance.fault? (integerOf value)
  | severity => Conformance.fault? (severityOf value)
  | tally => Conformance.fault? (StoredResult.tally value)
  | number => Conformance.fault? (numberOf value)

/-- What is wrong with a place. -/
def Place.fault? (place : Place) : Option UnfitDocument :=
  match place.content with
  | none => some .missingField
  | some value => place.demand.fault? value

/-- A place is refused. -/
def Place.Refused (place : Place) : Prop := ∃ reason, place.fault? = some reason ∧ reason ≠ .unbounded

/-- A place holds a number that is beyond the numbers of its kind: an infinite one where an integer is
wanted, or an integer that is too large where a number is wanted. -/
def Place.Unbounded (place : Place) : Prop :=
  match place.demand with
  | .integer => ∃ negative, place.content = some (.number (.infinite negative))
  | .number => ∃ value negative, place.content = some (.integer value) ∧
    Binary64.ofInt value = .infinite negative
  | _ => False

/-- What a field holds that may be missing. -/
def optional (usual : Json) (name : String) (value : Json) : Option Json :=
  some ((value.field? name).getD usual)

/-- The places of a list in a field: the list itself and those of its items. -/
def placesOfItems (name : String) (places : Json → List Place) (value : Json) : List Place :=
  let found := (value.field? name).getD (.array [])
  ⟨.items, some found⟩ :: ((itemsOf found).toOption.getD []).flatMap places

/-- The places of a violation. -/
def placesOfFinding (value : Json) : List Place :=
  [⟨.fields, some value⟩, ⟨.present, value.field? "rule_id"⟩, ⟨.present, value.field? "file_path"⟩,
    ⟨.integer, value.field? "line"⟩, ⟨.integer, value.field? "column"⟩,
    ⟨.severity, value.field? "severity"⟩, ⟨.present, value.field? "message"⟩]

/-- The places of the result of a file. -/
def placesOfFile (value : Json) : List Place :=
  [⟨.fields, some value⟩, ⟨.present, value.field? "file_path"⟩] ++
    placesOfItems "violations" placesOfFinding value ++
      [⟨.integer, value.field? "line_count"⟩, ⟨.integer, value.field? "compliance_score"⟩]

/-- The places of a document behind its summary. -/
def placesBehind (summary document : Json) : List Place :=
  [⟨.integer, summary.field? "total_files"⟩, ⟨.integer, summary.field? "total_violations"⟩,
      ⟨.integer, summary.field? "compliance_score"⟩,
      ⟨.tally, optional (.object []) "violations_by_standard" summary⟩,
      ⟨.tally, optional (.object []) "violations_by_severity" summary⟩] ++
    placesOfItems "violations" placesOfFinding document ++ placesOfItems "files" placesOfFile document ++
      [⟨.number, optional (.number .zero) "execution_time_ms" summary⟩]

/-- The places of a document in the order in which they are read. -/
def places (document : Json) : List Place :=
  ⟨.fields, some document⟩ :: ⟨.fields, document.field? "summary"⟩ ::
    placesBehind ((document.field? "summary").getD .null) document

variable {α β : Type} {fields : List (String × Json)} {name : String} {later : Option UnfitDocument}

/-- Reading a field that must be there goes wrong at its place or later. -/
theorem fault?_field {next : Json → Except UnfitDocument β}
    (same : ∀ value, fault? (next value) = later) :
    fault? (field name fields >>= next) = (Place.fault? ⟨.present, Json.lookup name fields⟩).or later := by
  unfold field
  cases Json.lookup name fields with
  | none => rfl
  | some value => exact same value

/-- Reading what a field holds that must be there goes wrong at its place or later. -/
theorem fault?_demanded (demand : Demand) {read : Json → Except UnfitDocument α}
    {next : α → Except UnfitDocument β} (asked : ∀ value, demand.fault? value = fault? (read value))
    (same : ∀ value result, Json.lookup name fields = some value → read value = .ok result →
      fault? (next result) = later) :
    fault? (field name fields >>= fun value => read value >>= next) =
      (Place.fault? ⟨demand, Json.lookup name fields⟩).or later := by
  unfold field
  cases held : Json.lookup name fields with
  | none => rfl
  | some value =>
    have told : Place.fault? ⟨demand, some value⟩ = fault? (read value) := asked value
    rw [told]
    change fault? (read value >>= next) = _
    exact fault?_bind fun result given => same value result held given

/-- Reading the items of a list goes wrong at their places or later. -/
theorem fault?_items {places : Json → List Place} {read : Json → Except UnfitDocument α}
    {next : List α → Except UnfitDocument β}
    (each : ∀ item, fault? (read item) = (places item).findSome? Place.fault?)
    (same : ∀ results, fault? (next results) = later) :
    fault? (itemsOf (fieldOr (.array []) name fields) >>= fun items => items.mapM read >>= next) =
      ((placesOfItems name places (.object fields)).findSome? Place.fault?).or later := by
  have found : (Json.field? name (.object fields)).getD (.array []) = fieldOr (.array []) name fields := rfl
  rw [placesOfItems, found]
  simp only [findSome?_cons_or, Option.or_assoc, findSome?_flatMap, ← each, ← fault?_mapM]
  refine fault?_bind fun items listed => ?_
  rw [listed]
  exact fault?_bind fun results _ => same results

/-- Reading a violation goes wrong at its places. -/
theorem fault?_finding (value : Json) :
    fault? (finding value) = (placesOfFinding value).findSome? Place.fault? := by
  cases value with
  | object fields =>
    have steps : fault? (finding (.object fields)) = _ :=
      fault?_field fun _ => fault?_field fun _ => fault?_demanded .integer (fun _ => rfl) fun _ _ _ _ =>
        fault?_demanded .integer (fun _ => rfl) fun _ _ _ _ =>
          fault?_demanded .severity (fun _ => rfl) fun _ _ _ _ => fault?_field fun _ => fault?_ok _
    rw [steps]
    simp only [placesOfFinding, findSome?_cons_or, List.findSome?_nil]
    rfl
  | _ => rfl

/-- Reading violations goes wrong at their places. -/
theorem fault?_findings (fields : List (String × Json)) :
    fault? (findings fields) =
      (placesOfItems "violations" placesOfFinding (.object fields)).findSome? Place.fault? := by
  have whole : findings fields = itemsOf (fieldOr (.array []) "violations" fields) >>= fun items =>
      items.mapM finding >>= pure := by simp [findings]
  rw [whole]
  exact (fault?_items fault?_finding fun results => fault?_ok results).trans Option.or_none

/-- Reading the result of a file goes wrong at its places. -/
theorem fault?_file (value : Json) :
    fault? (file value) = (placesOfFile value).findSome? Place.fault? := by
  cases value with
  | object fields =>
    have steps : fault? (file (.object fields)) = _ :=
      fault?_field fun _ => fault?_bind fun _ _ => fault?_demanded .integer (fun _ => rfl) fun _ _ _ _ =>
        fault?_demanded .integer (fun _ => rfl) fun _ _ _ _ => fault?_ok _
    rw [steps, fault?_findings]
    simp only [placesOfFile, List.findSome?_append, findSome?_cons_or, List.findSome?_nil,
      Option.or_assoc, Option.or_none]
    rfl
  | _ => rfl

/-- Reading a result goes wrong at the first of its places with a fault. -/
theorem fault?_ofDocument (document : Json) :
    fault? (ofDocument document) = (places document).findSome? Place.fault? := by
  cases document with
  | object fields =>
    have summarised : fault? (ofDocument (.object fields)) =
        (Place.fault? ⟨.fields, Json.lookup "summary" fields⟩).or
          ((placesBehind ((Json.lookup "summary" fields).getD .null) (.object fields)).findSome?
            Place.fault?) := by
      refine fault?_demanded .fields (fun _ => rfl) fun value summary held opened => ?_
      obtain rfl : value = .object summary := by
        cases value <;> cases opened
        rfl
      refine Eq.trans (fault?_demanded .integer (fun _ => rfl) fun _ _ _ _ =>
        fault?_demanded .integer (fun _ => rfl) fun _ _ _ _ =>
          fault?_demanded .integer (fun _ => rfl) fun _ _ _ _ => fault?_bind fun _ _ =>
            fault?_bind fun _ _ => fault?_bind fun _ _ => fault?_items fault?_file fun _ =>
              fault?_bind fun _ _ => fault?_ok _) ?_
      rw [fault?_findings, held]
      simp only [placesBehind, List.findSome?_append, findSome?_cons_or, List.findSome?_nil,
        Option.or_assoc, Option.or_none]
      rfl
    rw [summarised, places, findSome?_cons_or, findSome?_cons_or]
    rfl
  | _ => rfl

/-- An integer is beyond all integers exactly if it is an infinite number. -/
theorem integerOf_unbounded_iff (value : Json) :
    integerOf value = .error .unbounded ↔ ∃ negative, value = .number (.infinite negative) := by
  cases value with
  | number value => cases value <;> simp [integerOf, Binary64.truncate?, Binary64.ratio?]
  | string text => cases whole : integer? text.toList <;> cases long : oversized? text.toList <;>
      simp [integerOf, whole, long]
  | _ => simp [integerOf]

/-- A number is beyond all numbers exactly if it is an integer that is too large. -/
theorem numberOf_unbounded_iff (value : Json) :
    numberOf value = .error .unbounded ↔
      ∃ whole negative, value = .integer whole ∧ Binary64.ofInt whole = .infinite negative := by
  cases value with
  | integer whole => cases made : Binary64.ofInt whole <;> simp [numberOf, made]
  | string text => cases read : binary? text.toList <;> simp [numberOf, read]
  | _ => simp [numberOf]

/-- No number is asked for in the items of a list. -/
theorem bounded_itemsOf (value : Json) : FailsOnly (· ≠ .unbounded) (itemsOf value) := by
  cases value <;> simp [itemsOf]

/-- No number is asked for in an entry of a tally. -/
theorem bounded_pairOf (position : Nat) (entry : Json) :
    FailsOnly (· ≠ .unbounded) (pairOf position entry) := by
  unfold pairOf
  split
  · next error failed => exact (failsOnly_error_iff _ _).mpr (bounded_itemsOf entry error failed)
  · split <;> simp
  · simp

/-- No number is asked for in a tally. The induction is on the entries. -/
theorem bounded_tally (value : Json) : FailsOnly (· ≠ .unbounded) (tally value) := by
  have each (position : Nat) (counts : List (Json × Json)) (entries : List Json) :
      FailsOnly (· ≠ .unbounded) (tallyFrom position counts entries) := by
    induction entries generalizing position counts with
    | nil => exact failsOnly_ok _ _
    | cons entry entries inductionHypothesis =>
      rw [tallyFrom]
      split
      · next error failed =>
        exact (failsOnly_error_iff _ _).mpr (bounded_pairOf position entry error failed)
      · exact inductionHypothesis _ _
  unfold tally
  split
  · exact failsOnly_ok _ _
  · split
    · next error failed => exact (failsOnly_error_iff _ _).mpr (bounded_itemsOf _ error failed)
    · exact each _ _ _

/-- A severity is known or refused. -/
theorem bounded_severityOf (value : Json) : FailsOnly (· ≠ .unbounded) (severityOf value) := by
  unfold severityOf
  split <;> simp

/-- The fields of a value are there or refused. -/
theorem bounded_fieldsOf (value : Json) : FailsOnly (· ≠ .unbounded) (fieldsOf value) := by
  cases value <;> simp [fieldsOf]

/-- The only fault of a place that is not refused is a number beyond the numbers of its kind. The cases
are what is asked of the place. -/
theorem Place.fault?_unbounded_iff (place : Place) :
    place.fault? = some .unbounded ↔ place.Unbounded := by
  obtain ⟨demand, _ | value⟩ := place
  · cases demand <;> simp [Place.fault?, Unbounded]
  have never {γ : Type} {work : Except UnfitDocument γ} (bounded : FailsOnly (· ≠ .unbounded) work) :
      Conformance.fault? work ≠ some .unbounded :=
    fun found => (failsOnly_iff_fault _ _).mp bounded _ found rfl
  cases demand with
  | fields => exact iff_of_false (never (bounded_fieldsOf value)) id
  | items => exact iff_of_false (never (bounded_itemsOf value)) id
  | present => exact iff_of_false (by simp [Place.fault?, Demand.fault?]) id
  | integer => simp [Place.fault?, Demand.fault?, Unbounded, fault?_eq_some_iff, integerOf_unbounded_iff]
  | severity => exact iff_of_false (never (bounded_severityOf value)) id
  | tally => exact iff_of_false (never (bounded_tally value)) id
  | number => simp [Place.fault?, Demand.fault?, Unbounded, fault?_eq_some_iff, numberOf_unbounded_iff]

/-- A number beyond the numbers of its kind does not break a document if another place is refused before
it. -/
def Regular (document : Json) : Prop :=
  ∀ before place after, places document = before ++ place :: after → place.Unbounded →
    ∃ other ∈ before, other.Refused

/-- A result is read or refused exactly if every number beyond the numbers of its kind stands behind a
place that is refused. -/
theorem refuses_ofDocument_iff (document : Json) :
    FailsOnly (· ≠ .unbounded) (ofDocument document) ↔ Regular document := by
  have unbounded (place : Place) :
      (∃ reason, place.fault? = some reason ∧ ¬ reason ≠ .unbounded) ↔ place.Unbounded := by
    simp [← Place.fault?_unbounded_iff]
  rw [failsOnly_iff_fault, fault?_ofDocument, first_foreseen_iff]
  simp only [unbounded]
  rfl

/-- A text is not nested too deep, and every number beyond the numbers of its kind stands behind a place
that is refused. -/
structure Sound (text : List Char) : Prop where
  shallow : Json.read text ≠ .error .tooDeep
  regular : ∀ document, Json.read text = .ok document → Regular document

/-- A result is read from a text or refused exactly if the text is sound. -/
theorem refuses_ofText_iff (text : List Char) :
    FailsOnly LoadError.IsRefusal (ofText text) ↔ Sound text := by
  unfold ofText
  cases read : Json.read text with
  | error fault =>
    cases fault with
    | tooDeep => exact iff_of_false (by simp [LoadError.IsRefusal]) fun sound => sound.shallow read
    | _ => exact iff_of_true (by simp [LoadError.IsRefusal]) ⟨by simp [read], by simp [read]⟩
  | ok document =>
    have sound_iff : Sound text ↔ FailsOnly (· ≠ .unbounded) (ofDocument document) := by
      refine Iff.trans ⟨fun sound => sound.regular document read, fun regular => ?_⟩
        (refuses_ofDocument_iff document).symm
      refine ⟨by simp [read], fun other same => ?_⟩
      obtain ⟨⟩ := read.symm.trans same
      exact regular
    rw [sound_iff]
    dsimp only
    cases ofDocument document <;> simp [LoadError.IsRefusal]

variable {disk : Disk} {path : Path} {bytes : List UInt8}

/-- A result is loaded from a file or refused exactly if the file is no text or a sound one. -/
theorem refuses_load_iff (read : disk.read path = .ok bytes) :
    FailsOnly LoadError.IsRefusal (load disk path) ↔
      ∀ text, Text.decode bytes = .ok text → Sound (Text.normaliseLineEnds text) := by
  unfold load Disk.readText
  rw [read]
  cases decoded : Text.decode bytes with
  | error error => simp [decoded, LoadError.IsRefusal]
  | ok text => simp [decoded, refuses_ofText_iff]

end StoredResult

namespace Command

variable {disk : Disk} {path : Path} {bytes : List UInt8} {arguments : List String} {world : World}

/-- A command line asks for a report, and the result is stored at a path. -/
def Shows (arguments : List String) (world : World) (path : Path) : Prop :=
  ∃ options, Request.ofArguments world.disk arguments = .ok (.report options) ∧
    (inputOf (world.disk.resolve (options.project.getD ⟨"", []⟩)).path options).run.run world =
      (.ok path, world)

/-- A report ends where the stored result cannot be loaded. -/
theorem execute_of_shows (surroundings : Surroundings) {error : LoadError}
    (shows : Shows arguments world path) (failed : StoredResult.load world.disk path = .error error) :
    execute surroundings arguments world = (endOfLoad path error, world) := by
  obtain ⟨options, parsed, input⟩ := shows
  have ending : (report options).run.run world = (.error (endOfLoad path error), world) := by
    simp only [report, currentDisk, run_bind, run_get, run_pure, run_orEnd, run_projectRoot, input, failed]
    rfl
  simp only [execute, parsed, answer, ending]

/-- A complaint with exit code 2 is the end exactly for a refusal. -/
theorem endOfLoad_complains_iff (path : Path) (error : LoadError) :
    endOfLoad path error = .complained (.notResult path error) 2 ↔ error.IsRefusal := by
  cases error with
  | unfit reason => cases reason <;> simp [endOfLoad, LoadError.IsRefusal]
  | _ => simp [endOfLoad, LoadError.IsRefusal]

/-- **A stored result is loaded or refused exactly if its file is no text, or a text that is not nested too
deep and in which every number beyond the numbers of its kind stands behind a place that is refused. The
report complains about it and ends with exit code 2 exactly if it is refused.** -/
theorem stored_result_loaded_or_refused (read : disk.read path = .ok bytes) :
    (FailsOnly LoadError.IsRefusal (StoredResult.load disk path) ↔
      ∀ text, Text.decode bytes = .ok text → StoredResult.Sound (Text.normaliseLineEnds text)) ∧
    ∀ error, StoredResult.load disk path = .error error → ∀ surroundings arguments world,
      world.disk = disk → Shows arguments world path →
        ((execute surroundings arguments world).1 = .complained (.notResult path error) 2 ↔
          error.IsRefusal) := by
  refine ⟨StoredResult.refuses_load_iff read, ?_⟩
  rintro error failed surroundings arguments world rfl shows
  rw [execute_of_shows surroundings shows failed, endOfLoad_complains_iff]

/-- A world in which a text is stored as the last result. -/
def holding (text : String) : World :=
  ⟨⟨[], [([".audit-reports"], .directory),
    ([".audit-reports", "latest.json"], .file (Text.encode text.toList))]⟩, []⟩

/-- The last result in this world. -/
def lastResult : Path := .ofString "/.audit-reports/latest.json"

/-- A document without a summary is refused, and the report complains about it. -/
theorem empty_result_refused :
    ∃ error, StoredResult.load (holding "\x7b\x7d").disk lastResult = .error error ∧
      (execute withoutCompiler ["report"] (holding "\x7b\x7d")).1 =
        .complained (.notResult lastResult error) 2 := by
  have read : (holding "\x7b\x7d").disk.read lastResult = .ok (Text.encode ['\x7b', '\x7d']) := by
    decide +kernel
  have failed : StoredResult.load (holding "\x7b\x7d").disk lastResult =
      .error (.unfit .missingField) := (fault?_eq_some_iff _ _).mp (by decide +kernel)
  have parsed : Request.ofArguments (holding "\x7b\x7d").disk ["report"] =
      .ok (.report ⟨none, none, .markdown, none⟩) := by cbv
  have shows : Shows ["report"] (holding "\x7b\x7d") lastResult := ⟨_, parsed, rfl⟩
  have ends := (stored_result_loaded_or_refused read).2 _ failed withoutCompiler _ _ rfl shows
  exact ⟨_, failed, ends.mpr (by simp [LoadError.IsRefusal])⟩

/-- A world whose last result counts files without end. -/
def infiniteCount : World := holding "\x7b\"summary\": \x7b\"total_files\": Infinity\x7d\x7d"

/-- A document whose count of files is infinite is neither loaded nor refused, and the report fails. -/
theorem infinite_count_escapes :
    StoredResult.load infiniteCount.disk lastResult = .error (.unfit .unbounded) ∧
      ¬ FailsOnly LoadError.IsRefusal (StoredResult.load infiniteCount.disk lastResult) ∧
      (execute withoutCompiler ["report"] infiniteCount).1 = .failed (.load (.unfit .unbounded)) := by
  have escapes : StoredResult.load infiniteCount.disk lastResult = .error (.unfit .unbounded) :=
    (fault?_eq_some_iff _ _).mp (by decide +kernel)
  exact ⟨escapes, fun refuses => refuses _ escapes rfl, by decide +kernel⟩

end Command

end Conformance
