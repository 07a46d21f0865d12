import Conformance.Command.Run
import Conformance.Proofs.Disk.Making
import Conformance.Proofs.Document.Numbering
import Conformance.Proofs.Json.ReadingBack
import Conformance.Proofs.Text.Encoding
import Mathlib.Algebra.Group.Int.Defs
import Mathlib.Algebra.Group.Nat.Defs

/-!
# Saved results

A result that has been saved is loaded as it was, whatever characters its texts have, as long as
its integers have not too many digits. So every report about the loaded result says the same.
-/

namespace Conformance

open Number

/-- Every severity is found by its name. -/
@[simp] theorem Severity.ofName?_name (severity : Severity) :
    Severity.ofName? severity.name = some severity := by
  cases severity <;> decide

/-- The integers of a violation. -/
def Finding.integers {τ : Type} (finding : Finding τ) : List Int := [finding.line, finding.column]

/-- The integers of the result of a file. -/
def FileResultOf.integers {τ : Type} (file : FileResultOf τ) : List Int :=
  file.lineCount :: file.score :: file.violations.flatMap Finding.integers

/-- The integers of a result. -/
def ResultOf.integers {τ : Type} (result : ResultOf τ Int) : List Int :=
  [result.totalFiles, result.totalViolations, result.score] ++ result.byStandard.map Prod.snd ++
    result.bySeverity.map Prod.snd ++ result.violations.flatMap Finding.integers ++
      result.files.flatMap FileResultOf.integers

/-- An integer has no more digits than are read. -/
def Fits (value : Int) : Prop := (digits value.natAbs).length ≤ integerTextLimit

instance (value : Int) : Decidable (Fits value) := inferInstanceAs (Decidable (_ ≤ _))

/-- A result of texts and integers in the form that is stored. -/
def ResultOf.asStored (result : ResultOf String Int) : StoredResult := result.map .string .integer

namespace StoredResult

/-- A stored violation is read back. -/
theorem finding_findingJson (violation : Finding String) :
    finding (findingJson (violation.map .string)) = .ok (violation.map .string) := by
  cases fix : violation.fixSuggestion <;>
    simp [finding, findingJson, Finding.map, fieldsOf, field, fieldOr, Json.lookup, integerOf,
      severityOf, Json.string?, fix, bind, Except.bind, pure, Except.pure]

/-- Stored violations are read back from their field. -/
theorem findings_stored (violations : List (Finding String)) (fields : List (String × Json))
    (stored : Json.lookup "violations" fields =
      some (.array ((violations.map (Finding.map .string)).map findingJson))) :
    findings fields = .ok (violations.map (Finding.map .string)) := by
  have inverse : finding ∘ findingJson ∘ Finding.map .string =
      fun violation => pure (violation.map .string) := funext finding_findingJson
  have each : ((violations.map (Finding.map .string)).map findingJson).mapM finding =
      .ok (violations.map (Finding.map .string)) := by
    rw [List.map_map, List.mapM_map, inverse]
    exact List.mapM_pure
  simpa [findings, fieldOr, stored, itemsOf, bind, Except.bind] using each

/-- The stored result of a file is read back. -/
theorem file_fileJson (result : FileResultOf String) :
    file (fileJson (result.map .string)) = .ok (result.map .string) := by
  have inside := findings_stored result.violations
    [("file_path", .string result.filePath), ("line_count", .integer result.lineCount),
      ("compliance_score", .integer result.score),
      ("violations", .array ((result.violations.map (Finding.map .string)).map findingJson))]
    (by simp [Json.lookup])
  rw [file, fileJson, FileResultOf.map, fieldsOf]
  simp only [bind, Except.bind, inside]
  simp [field, Json.lookup, integerOf, pure, Except.pure]

/-- A stored tally is read back. -/
theorem tally_tallyJson (counts : List (String × Int)) :
    tally (tallyJson (counts.map fun (name, count) => (Json.string name, Json.integer count))) =
      .ok (counts.map fun (name, count) => (Json.string name, Json.integer count)) := by
  simp [tally, tallyJson, nameText, Function.comp_def]

/-- The document of a result holds that result. -/
theorem ofDocument_document (result : ResultOf String Int) :
    ofDocument result.asStored.document = .ok result.asStored := by
  have inverse : file ∘ fileJson ∘ FileResultOf.map .string =
      fun stored => pure (stored.map .string) := funext file_fileJson
  have files : ((result.files.map (FileResultOf.map .string)).map fileJson).mapM file =
      .ok (result.files.map (FileResultOf.map .string)) := by
    rw [List.map_map, List.mapM_map, inverse]
    exact List.mapM_pure
  have violations (summary others : Json) := findings_stored result.violations
    [("summary", summary),
      ("violations", .array ((result.violations.map (Finding.map .string)).map findingJson)),
      ("files", others)] (by simp [Json.lookup])
  have standards := tally_tallyJson result.byStandard
  have severities := tally_tallyJson result.bySeverity
  rw [ofDocument, document, ResultOf.asStored, ResultOf.map, fieldsOf]
  simp only [bind, Except.bind, violations]
  simp [-List.map_map, -List.mapM_map, field, fieldOr, fieldsOf, itemsOf, Json.lookup, integerOf,
    numberOf, standards, severities, files, pure, Except.pure]

variable {room : Nat}

/-- A violation can be stored if its integers are not too long. -/
theorem storable_findingJson (violation : Finding String)
    (fits : ∀ value ∈ violation.integers, Fits value) :
    (findingJson (violation.map .string)).Storable (room + 1) := by
  simp only [Finding.integers, List.forall_mem_cons] at fits
  obtain ⟨line, column, _⟩ := fits
  have fix : ((violation.fixSuggestion.map Json.string).getD .null).Storable room := by
    cases violation.fixSuggestion <;> trivial
  have names : ["rule_id", "rule_name", "file_path", "line", "column", "severity", "message",
    "code_snippet", "fix_suggestion"].Nodup := by decide
  exact ⟨names, trivial, trivial, trivial, line, column, trivial, trivial, trivial, fix, trivial⟩

/-- Violations can be stored if their integers are not too long. -/
theorem storable_findings (violations : List (Finding String))
    (fits : ∀ value ∈ violations.flatMap Finding.integers, Fits value) :
    Json.StorableItems ((violations.map (Finding.map .string)).map findingJson) (room + 1) := by
  apply Json.storableItems_of_forall
  intro item member
  simp only [List.map_map, List.mem_map, Function.comp] at member
  obtain ⟨violation, inside, rfl⟩ := member
  apply storable_findingJson
  exact fun value among => fits value (List.mem_flatMap.mpr ⟨violation, inside, among⟩)

/-- The result of a file can be stored if its integers are not too long. -/
theorem storable_fileJson (file : FileResultOf String)
    (fits : ∀ value ∈ file.integers, Fits value) :
    (fileJson (file.map .string)).Storable (room + 3) := by
  simp only [FileResultOf.integers, List.forall_mem_cons] at fits
  obtain ⟨lines, score, inside⟩ := fits
  have names : ["file_path", "line_count", "compliance_score", "violations"].Nodup := by decide
  exact ⟨names, trivial, lines, score, storable_findings file.violations inside, trivial⟩

/-- A tally can be stored if its names are all different and its counts are not too long. -/
theorem storable_tallyJson (counts : List (String × Int)) (names : (counts.map Prod.fst).Nodup)
    (fits : ∀ value ∈ counts.map Prod.snd, Fits value) :
    (tallyJson (counts.map fun (name, count) =>
      (Json.string name, Json.integer count))).Storable (room + 1) := by
  have fields : tallyJson (counts.map fun (name, count) => (Json.string name, Json.integer count)) =
      .object (counts.map fun (name, count) => (name, Json.integer count)) := by
    simp [tallyJson, nameText, Function.comp_def]
  rw [fields]
  refine ⟨by simpa [Function.comp_def] using names, ?_⟩
  apply Json.storableFields_of_forall
  intro field member
  obtain ⟨⟨name, count⟩, inside, rfl⟩ := List.mem_map.mp member
  exact fits count (List.mem_map.mpr ⟨_, inside, rfl⟩)

/-- A result can be stored if the names of each tally are all different, its integers are not too
long and its time is read back. -/
theorem storable_document (result : ResultOf String Int)
    (standards : (result.byStandard.map Prod.fst).Nodup)
    (severities : (result.bySeverity.map Prod.fst).Nodup)
    (fits : ∀ value ∈ result.integers, Fits value) (time : Json.ReadBack result.milliseconds) :
    result.asStored.document.Storable (room + 5) := by
  simp only [ResultOf.integers, List.forall_mem_append, List.forall_mem_cons] at fits
  obtain ⟨⟨⟨⟨⟨files, violations, score, _⟩, byStandard⟩, bySeverity⟩, found⟩, inFiles⟩ := fits
  have parts : ["summary", "violations", "files"].Nodup := by decide
  have names : ["total_files", "total_violations", "compliance_score", "violations_by_standard",
    "violations_by_severity", "execution_time_ms"].Nodup := by decide
  have each : Json.StorableItems ((result.files.map (FileResultOf.map .string)).map fileJson)
      (room + 3) := by
    apply Json.storableItems_of_forall
    intro item member
    simp only [List.map_map, List.mem_map, Function.comp] at member
    obtain ⟨file, inside, rfl⟩ := member
    apply storable_fileJson
    exact fun value among => inFiles value (List.mem_flatMap.mpr ⟨file, inside, among⟩)
  exact ⟨parts, ⟨names, files, violations, score,
    storable_tallyJson result.byStandard standards byStandard,
    storable_tallyJson result.bySeverity severities bySeverity, time, trivial⟩,
    storable_findings result.violations found, each, trivial⟩

/-- The text of a result, with its last line end, is read as that result. -/
theorem ofText_text (result : ResultOf String Int)
    (standards : (result.byStandard.map Prod.fst).Nodup)
    (severities : (result.bySeverity.map Prod.fst).Nodup)
    (fits : ∀ value ∈ result.integers, Fits value) (time : Json.ReadBack result.milliseconds) :
    ofText (result.asStored.text ++ ['\n']) = .ok result.asStored := by
  have storable : result.asStored.document.Storable nestingLimit :=
    storable_document result standards severities fits time
  have read := Json.read_document_append result.asStored.document storable ['\n']
    (Json.stops_lineBreak 0 []) rfl
  rw [ofText, text, read]
  simp only [ofDocument_document]

/-- A text whose first count is too long is refused. -/
theorem ofText_refused (result : ResultOf String Int) (long : ¬ Fits result.totalFiles) :
    ofText (result.asStored.text ++ ['\n']) =
      .error (.oversized ⟨(digits result.totalFiles.natAbs).length⟩) := by
  let fault : Json.Fault := .oversized ⟨(digits result.totalFiles.natAbs).length⟩
  obtain ⟨counts, parts, shape⟩ : ∃ counts parts, result.asStored.document =
      .object (("summary", .object (("total_files", .integer result.totalFiles) :: counts)) :: parts) :=
    ⟨_, _, rfl⟩
  have count (fuel room : Nat) (rest : List Char) (stops : Json.Stops rest) :
      Json.value (fuel + 1) room (integerText result.totalFiles ++ rest) = .error fault := by
    rw [Json.value_integerText stops, if_pos (Nat.lt_of_not_le long)]
  have solid (rest : List Char) : Json.skipSpace (integerText result.totalFiles ++ rest) =
      integerText result.totalFiles ++ rest := by
    obtain ⟨c, more, written, first, _⟩ := Json.numeral_head
      (Json.integerText_ne_nil result.totalFiles) (Json.isNumeral_of_mem_integerText _)
    rw [written, List.cons_append, Json.skipSpace_cons c _ first]
  have summary (fuel room : Nat) (rest : List Char) (_ : Json.Stops rest) :=
    Json.value_object_refused "total_files" (.integer result.totalFiles) counts 1 (fuel + 1) room rest
      fault solid (count fuel room)
  have whole (fuel room : Nat) := Json.value_object_refused "summary" _ parts 0 (fuel + 3) (room + 1)
    ['\n'] fault (fun _ => rfl) (summary fuel room)
  -- Even the opening marks of the document are enough for the reader's bound.
  obtain ⟨fuel, bound⟩ : ∃ fuel,
      (result.asStored.text ++ ['\n']).length + 1 = fuel + 3 + 2 := by
    refine ⟨(result.asStored.text ++ ['\n']).length - 4, ?_⟩
    have enough : 4 ≤ (result.asStored.text ++ ['\n']).length := by
      simp [text, Json.document, shape, Json.pretty, Json.lineBreak]
    omega
  have skipped : Json.skipSpace (result.asStored.text ++ ['\n']) = result.asStored.text ++ ['\n'] := by
    rw [text, shape]
    rfl
  have refused : Json.read (result.asStored.text ++ ['\n']) = .error fault := by
    have room : nestingLimit = 988 + 1 + 1 := rfl
    rw [Json.read, bound, skipped, text, Json.document, shape, room, whole]
    rfl
  rw [ofText, refused]

variable {disk saved : Disk} {path : Path}

/-- What has been saved is read as text. -/
theorem readText_of_save (real : disk.Real disk.workingDirectory) (result : StoredResult)
    (saves : result.save disk path = .ok saved) :
    saved.readText path = .ok (result.text ++ ['\n']) := by
  unfold save at saves
  cases making : disk.makeDirectories path.parent with
  | error error => simp [making] at saves
  | ok made =>
    cases long : result.document.unwritable? with
    | some error => simp [making, long] at saves
    | none =>
      cases writing : made.write path (Text.encode (result.text ++ ['\n'])) with
      | error error => simp [making, long, writing, Except.mapError] at saves
      | ok written =>
        obtain rfl : written = saved := by simpa [making, long, writing, Except.mapError] using saves
        have grown := (Disk.makeDirectories_adds _ making).added.grows
        have still : made.Real made.workingDirectory := by
          rw [grown.workingDirectory]
          exact real.steady grown.steady
        have read := Disk.read_of_write still path _ writing
        have plain : '\r' ∉ result.text := Json.return_not_mem_pretty _ 0
        have whole : '\r' ∉ result.text ++ ['\n'] := by simp [plain]
        simp [Disk.readText, read, Text.normaliseLineEnds_plain _ whole]

/-- Whether anything can be written at a path, with the directories above, depends on the disk and
the path alone. If it can, every result is saved that has no integer that is too long. -/
theorem save_cases (disk : Disk) (path : Path) :
    (∃ error, (∀ content, (disk.makeDirectories path.parent).bind (·.write path content) = .error error) ∧
      ∀ result : StoredResult, result.document.unwritable? = none →
        result.save disk path = .error (.access error)) ∨
    ∀ result : StoredResult, result.document.unwritable? = none →
      ∃ saved, result.save disk path = .ok saved := by
  unfold save
  cases disk.makeDirectories path.parent with
  | error error => exact .inl ⟨error, fun _ => rfl, fun _ _ => rfl⟩
  | ok made =>
    simp only [Except.bind, Disk.write]
    cases made.follow path with
    | error fault =>
      refine .inl ⟨⟨fault, path⟩, fun _ => rfl, fun result writable => ?_⟩
      simp [writable, Except.mapError]
    | ok location =>
      by_cases directory : made.entry? location = some .directory
      · refine .inl ⟨⟨.isDirectory, path⟩, fun _ => if_pos directory, fun result writable => ?_⟩
        simp [writable, directory, Except.mapError]
      · exact .inr fun result writable => ⟨_, by simp [writable, directory, Except.mapError]; rfl⟩

/-- A result that has an integer that is too long is not saved. -/
theorem save_refused (disk : Disk) (path : Path) {made : Disk} {result : StoredResult}
    {error : OversizedInteger} (makes : disk.makeDirectories path.parent = .ok made)
    (long : result.document.unwritable? = some error) :
    result.save disk path = .error (.oversized error) := by
  simp [save, makes, long]

/-- What has been saved is loaded from its text. -/
theorem load_of_save (real : disk.Real disk.workingDirectory) (result : StoredResult)
    (saves : result.save disk path = .ok saved) :
    load saved path = ofText (result.text ++ ['\n']) := by
  rw [load, readText_of_save real result saves]

/-- Where anything can be written a result is saved and loaded as it was, if its integers are not
too long and its time is read back; the names of its tallies are all different, as those of a
dictionary are. So every report about the loaded result is the one about the result itself. -/
theorem load_save (disk : Disk) (path : Path) (real : disk.Real disk.workingDirectory)
    (result : ResultOf String Int) (standards : (result.byStandard.map Prod.fst).Nodup)
    (severities : (result.bySeverity.map Prod.fst).Nodup)
    (fits : ∀ value ∈ result.integers, Fits value) (time : Json.ReadBack result.milliseconds) :
    (∃ error, (∀ content, (disk.makeDirectories path.parent).bind (·.write path content) = .error error) ∧
      result.asStored.save disk path = .error (.access error)) ∨
      ∃ saved, result.asStored.save disk path = .ok saved ∧
        load saved path = .ok result.asStored ∧
        ∀ loaded, load saved path = .ok loaded → ∀ format,
          Command.render format loaded = Command.render format result.asStored := by
  have writable := (@storable_document 0 result standards severities fits time).writable
  rcases save_cases disk path with ⟨error, refused, unsaved⟩ | saves
  · exact .inl ⟨error, refused, unsaved _ writable⟩
  · obtain ⟨saved, saves⟩ := saves result.asStored writable
    have loads : load saved path = .ok result.asStored := by
      rw [load_of_save real _ saves, ofText_text result standards severities fits time]
    refine .inr ⟨saved, saves, loads, ?_⟩
    intro loaded again format
    rw [Except.ok.inj (loads.symm.trans again)]

/-- A result with one violation, whose texts need every kind of escape. -/
def escapedResult : ResultOf String Int :=
  let finding : Finding String := ⟨"typ-001", "lib/ü.ts", -3, 4, .warning, "say \"no\"\r\n", "\t\\", some "",
    "😀\u2028"⟩
  ⟨1, 1, 97, [("typescript", 1)], [("error", 0), ("warning", 1), ("info", 0)], [finding],
    [⟨"lib/ü.ts", [finding, { finding with fixSuggestion := none }], 12, 97⟩], .ofRatio 25 2⟩

/-- The escaped result is saved in a directory that is made for it, and loaded as it was. -/
theorem load_save_escaped :
    ∃ saved, escapedResult.asStored.save .empty (.ofString "/out/latest.json") = .ok saved ∧
      load saved (.ofString "/out/latest.json") = .ok escapedResult.asStored := by
  have time : Json.ReadBack escapedResult.milliseconds := ⟨⟨_, _, _, rfl⟩, rfl⟩
  rcases load_save .empty (.ofString "/out/latest.json") (by decide) escapedResult (by decide)
    (by decide) (by decide) time with ⟨error, refused, _⟩ | ⟨saved, saves, loads, _⟩
  · cases refused []
  · exact ⟨saved, saves, loads⟩

/-- A result with a count of one digit too many. -/
def longResult : ResultOf String Int := ⟨10 ^ integerTextLimit, 0, 0, [], [], [], [], .zero⟩

/-- A result with a count of one digit too many is not saved, and it is not loaded from its text
either. -/
theorem long_result_refused :
    longResult.asStored.save .empty (.ofString "/latest.json") =
        .error (.oversized ⟨integerTextLimit + 1⟩) ∧
      ofText (longResult.asStored.text ++ ['\n']) = .error (.oversized ⟨integerTextLimit + 1⟩) := by
  have size : (digits longResult.totalFiles.natAbs).length = integerTextLimit + 1 := by
    have ten : (10 : Int).natAbs = 10 := rfl
    rw [longResult, Int.natAbs_pow, ten, length_digits_pow]
  have long : ¬ Fits longResult.totalFiles := by
    rw [Fits, size]
    exact Nat.not_succ_le_self _
  constructor
  · have makes : Disk.empty.makeDirectories (Path.ofString "/latest.json").parent = .ok .empty := rfl
    apply save_refused _ _ makes
    rw [← size]
    obtain ⟨others, integers⟩ : ∃ others, longResult.asStored.document.integers =
      longResult.totalFiles :: others := ⟨_, rfl⟩
    rw [Json.unwritable?, integers, List.findSome?_cons, unwritable?, if_pos (Nat.lt_of_not_le long)]
  · rw [ofText_refused longResult long, size]

end StoredResult

end Conformance
