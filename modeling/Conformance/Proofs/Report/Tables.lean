import Conformance.Proofs.Audit.Ranking
import Conformance.Proofs.Json.Numerals
import Conformance.Proofs.Report.Reloading

/-!
# Tables of a report

A table is read line by line, and a line is cut into cells at its bars, unless a bar stands directly behind a
backslash. A row that is put together from texts is one line with a cell for each text exactly if no line ends
in a text and each bar in it stands behind a backslash. A Markdown report puts the texts of a result into the
rows of its tables as they are, so it depends on these texts whether its rows fit below their columns.
-/

namespace Conformance.Report

open Audit Number Text

/-! The cells of a row, and which texts fit into them. -/

/-- The pieces of a line between its bars. A bar directly behind a backslash is a character like any other;
whether the first character stands behind one is given. -/
def barPieces : (escaped : Bool) → List Char → List (List Char)
  | _, [] => [[]]
  | escaped, c :: rest =>
    if c = '|' ∧ escaped = false then [] :: barPieces false rest
    else match barPieces (c == '\\') rest with
      | [] => [[c]]
      | piece :: pieces => (c :: piece) :: pieces

/-- The cells of a row: the pieces between its first bar and its last one. -/
def cells (row : List Char) : List (List Char) := (barPieces false row).tail.dropLast

/-- A bar behind a backslash is in its cell. -/
example : cells "| a \\| b | 2 |".toList = [" a \\| b ".toList, " 2 ".toList] := by decide +kernel

/-- A line is a row of a table with some columns: no line ends in it, and it has as many cells as the row of
the columns. -/
structure IsRowOf (columns : List String) (line : List Char) : Prop where
  feed : '\n' ∉ line
  carriage : '\r' ∉ line
  cells : (cells line).length = (Report.cells (tableRow (columns.map (·.toList)))).length

/-- A text fits into a cell: each bar in it stands directly behind a backslash, and no line ends in it. -/
structure FitsCell (text : List Char) : Prop where
  escaped : ∀ before behind, text = before ++ '|' :: behind → before.getLast? = some '\\'
  feed : '\n' ∉ text
  carriage : '\r' ∉ text

/-- How many bars of a text separate cells. -/
def barCount : (escaped : Bool) → List Char → Nat
  | _, [] => 0
  | escaped, c :: rest => (if c = '|' ∧ escaped = false then 1 else 0) + barCount (c == '\\') rest

/-- There is one more piece than there are bars between them. -/
theorem length_barPieces (escaped : Bool) (line : List Char) :
    (barPieces escaped line).length = barCount escaped line + 1 := by
  induction line generalizing escaped with
  | nil => rfl
  | cons c rest inductionHypothesis =>
    rw [barPieces, barCount]
    have further := inductionHypothesis (c == '\\')
    split
    · next bar =>
      obtain ⟨rfl, _⟩ := bar
      have plain : ('|' == '\\') = false := by decide
      rw [List.length_cons, inductionHypothesis, plain]
      omega
    · cases behind : barPieces (c == '\\') rest with
      | nil =>
        rw [behind] at further
        cases further
      | cons piece pieces =>
        rw [behind] at further
        simp only [List.length_cons] at further ⊢
        omega

/-- Between the first and the last bar there are fewer cells than bars. -/
theorem length_cells (row : List Char) : (cells row).length = barCount false row - 1 := by
  rw [cells, List.length_dropLast, List.length_tail, length_barPieces]
  omega

/-- Behind a character that is no bar only that character matters. -/
theorem barCount_append {c : Char} (other : c ≠ '|') (escaped : Bool) (first second : List Char) :
    barCount escaped (first ++ c :: second) = barCount escaped first + barCount (c == '\\') second := by
  induction first generalizing escaped with
  | nil => simp [barCount, other]
  | cons d first inductionHypothesis =>
    rw [List.cons_append, barCount, barCount, inductionHypothesis, Nat.add_assoc]

/-- A text has no bars that separate cells exactly if each bar stands behind a backslash. -/
theorem barCount_eq_zero_iff {escaped : Bool} {text : List Char} :
    barCount escaped text = 0 ↔ ∀ before behind, text = before ++ '|' :: behind →
      before = [] ∧ escaped = true ∨ before.getLast? = some '\\' := by
  induction text generalizing escaped with
  | nil => simp [barCount]
  | cons c rest inductionHypothesis =>
    rw [barCount, Nat.add_eq_zero_iff, inductionHypothesis]
    constructor
    · rintro ⟨first, further⟩ before behind whole
      cases before with
      | nil =>
        obtain ⟨rfl, _⟩ := List.cons.inj whole
        exact .inl ⟨rfl, by simpa using first⟩
      | cons d before =>
        obtain ⟨rfl, rest'⟩ := List.cons.inj whole
        refine .inr ?_
        rcases further before behind rest' with ⟨rfl, backslash⟩ | last
        · exact congrArg some (beq_iff_eq.mp backslash)
        · rw [List.getLast?_cons, last]
          rfl
    · intro all
      constructor
      · by_contra counted
        obtain ⟨rfl, free⟩ : c = '|' ∧ escaped = false := by simpa using counted
        rcases all [] rest rfl with ⟨_, escape⟩ | last
        · exact absurd (free.symm.trans escape) Bool.false_ne_true
        · cases last
      · intro before behind whole
        rcases all (c :: before) behind (congrArg (c :: ·) whole) with ⟨empty, _⟩ | last
        · cases empty
        · cases before with
          | nil => exact .inl ⟨rfl, beq_iff_eq.mpr (Option.some.inj last)⟩
          | cons d before => exact .inr (by rwa [List.getLast?_cons_cons] at last)

/-- A text fits into a cell exactly if it has no bar that separates cells, and no line ends in it. -/
theorem fitsCell_iff {text : List Char} :
    FitsCell text ↔ barCount false text = 0 ∧ '\n' ∉ text ∧ '\r' ∉ text := by
  rw [barCount_eq_zero_iff]
  constructor
  · intro fits
    exact ⟨fun before behind whole => .inr (fits.escaped before behind whole), fits.feed, fits.carriage⟩
  · rintro ⟨bars, feed, carriage⟩
    exact ⟨fun before behind whole => (bars before behind whole).resolve_left (by simp), feed, carriage⟩

/-- A text without bars and line ends fits into a cell. -/
theorem fitsCell_of_forall {text : List Char} (plain : ∀ c ∈ text, c ∉ ['|', '\n', '\r']) : FitsCell text := by
  have lacks (c : Char) (mark : c ∈ ['|', '\n', '\r']) : c ∉ text := fun member => plain c member mark
  refine ⟨fun before behind whole => ?_, lacks '\n' (by simp), lacks '\r' (by simp)⟩
  exact absurd (whole ▸ List.mem_append_right before List.mem_cons_self) (lacks '|' (by simp))

/-- Numbers fit into cells. -/
theorem fitsCell_integerText (value : Int) : FitsCell (integerText value) := by
  refine fitsCell_of_forall fun c member mark => ?_
  have marks : ∀ c ∈ ['|', '\n', '\r'], ¬ Json.IsNumeral c := by simp [Json.IsNumeral]
  exact marks c mark (Json.isNumeral_of_mem_integerText value c member)

/-- Numbers fit into cells. -/
theorem fitsCell_digits (value : Nat) : FitsCell (digits value) :=
  fitsCell_integerText value

/-- A text between two marks that are neither bars nor line ends fits into a cell exactly if it does so
alone. -/
theorem fitsCell_between {text : List Char} {mark : Char} (plain : mark ∉ ['|', '\n', '\r', '\\']) :
    FitsCell (mark :: text ++ [mark]) ↔ FitsCell text := by
  simp only [List.mem_cons, List.not_mem_nil, or_false, not_or] at plain
  obtain ⟨bar, feed, carriage, backslash⟩ := plain
  have free : (mark == '\\') = false := beq_eq_false_iff_ne.mpr backslash
  have bars : barCount false (mark :: text ++ [mark]) = barCount false text := by
    rw [List.cons_append, ← List.nil_append (mark :: (text ++ [mark])), barCount_append bar, free,
      barCount_append bar]
    simp [barCount]
  rw [fitsCell_iff, fitsCell_iff, bars]
  simp [Ne.symm feed, Ne.symm carriage]

/-- A row of one text. -/
theorem tableRow_singleton (text : List Char) : tableRow [text] = '|' :: ' ' :: (text ++ ' ' :: ['|']) := by
  simp [tableRow]

/-- A row of several texts goes on with the row of the others. -/
theorem tableRow_cons_cons (text next : List Char) (texts : List (List Char)) :
    tableRow (text :: next :: texts) = '|' :: ' ' :: (text ++ ' ' :: tableRow (next :: texts)) := by
  have between : " | ".toList = [' ', '|', ' '] := by decide
  simp [tableRow, List.intercalate_cons_cons, between]

/-- The first text of a row has its bars behind that of the row. -/
theorem barCount_first (text rest : List Char) :
    barCount false ('|' :: ' ' :: (text ++ ' ' :: rest)) = 1 + barCount false text + barCount false rest := by
  have blank : (' ' == '\\') = false := by decide
  rw [barCount, barCount, blank, barCount_append (by decide), blank]
  simp [Nat.add_assoc]

/-- A row of texts has the bars between and around the texts, and those of the texts. -/
theorem barCount_tableRow {texts : List (List Char)} (filled : texts ≠ []) :
    barCount false (tableRow texts) = texts.length + 1 + (texts.map (barCount false)).sum := by
  induction texts with
  | nil => exact absurd rfl filled
  | cons text texts inductionHypothesis =>
    cases texts with
    | nil =>
      rw [tableRow_singleton, barCount_first]
      simp [barCount]
      omega
    | cons next texts =>
      rw [tableRow_cons_cons, barCount_first, inductionHypothesis (List.cons_ne_nil _ _)]
      simp only [List.map_cons, List.sum_cons, List.length_cons]
      omega

/-- A character that no row has of its own is in a row exactly if it is in one of its texts. -/
theorem mem_tableRow_iff {c : Char} (bar : c ≠ '|') (blank : c ≠ ' ') {texts : List (List Char)}
    (filled : texts ≠ []) : c ∈ tableRow texts ↔ ∃ text ∈ texts, c ∈ text := by
  induction texts with
  | nil => exact absurd rfl filled
  | cons text texts inductionHypothesis =>
    cases texts with
    | nil => simp [tableRow_singleton, bar, blank]
    | cons next texts =>
      rw [tableRow_cons_cons]
      simp [bar, blank, inductionHypothesis (List.cons_ne_nil _ _)]

/-- A row of texts is one line with a cell for each column exactly if each of its texts fits into a cell. -/
theorem isRowOf_tableRow_iff {columns : List String} {texts : List (List Char)} (filled : columns ≠ [])
    (size : texts.length = columns.length) (plain : ∀ column ∈ columns, FitsCell column.toList) :
    IsRowOf columns (tableRow texts) ↔ ∀ text ∈ texts, FitsCell text := by
  have filled' : texts ≠ [] := by
    rintro rfl
    exact filled (List.length_eq_zero_iff.mp size.symm)
  have heads : ((columns.map (·.toList)).map (barCount false)).sum = 0 := by
    rw [List.sum_eq_zero_iff_forall_eq_nat, List.forall_mem_map, List.forall_mem_map]
    exact fun column member => (fitsCell_iff.mp (plain column member)).1
  have own : (texts.map (barCount false)).sum = 0 ↔ ∀ text ∈ texts, barCount false text = 0 := by
    rw [List.sum_eq_zero_iff_forall_eq_nat, List.forall_mem_map]
  have count : (cells (tableRow texts)).length = (cells (tableRow (columns.map (·.toList)))).length ↔
      ∀ text ∈ texts, barCount false text = 0 := by
    rw [length_cells, length_cells, barCount_tableRow filled', barCount_tableRow (by simpa using filled), heads,
      List.length_map, size, ← own]
    omega
  have feed := mem_tableRow_iff (c := '\n') (by decide) (by decide) filled'
  have carriage := mem_tableRow_iff (c := '\r') (by decide) (by decide) filled'
  constructor
  · rintro ⟨noFeed, noCarriage, same⟩ text member
    refine fitsCell_iff.mpr ⟨count.mp same text member, fun within => ?_, fun within => ?_⟩
    · exact noFeed (feed.mpr ⟨text, member, within⟩)
    · exact noCarriage (carriage.mpr ⟨text, member, within⟩)
  · intro fits
    refine ⟨fun within => ?_, fun within => ?_, count.mpr fun text member => (fitsCell_iff.mp (fits text member)).1⟩
    · obtain ⟨text, member, inside⟩ := feed.mp within
      exact (fits text member).feed inside
    · obtain ⟨text, member, inside⟩ := carriage.mp within
      exact (fits text member).carriage inside

/-! The tables of a report, and which of them are well-formed. -/

/-- A table of a report: its heading, its columns and the texts of its rows. -/
structure Table where
  heading : String
  columns : List String
  rows : List (List (List Char))

/-- The lines of a table, of which there are none if it has no rows. -/
def Table.lines (table : Table) : List (List Char) := tableIfAny table.heading table.columns table.rows

/-- A table whose rows are all one line with as many cells as the row of its columns. -/
def Table.WellFormed (table : Table) : Prop := ∀ texts ∈ table.rows, IsRowOf table.columns (tableRow texts)

/-- A table whose columns fit into cells, and whose rows have a text for each of them. -/
structure Table.Regular (table : Table) : Prop where
  filled : table.columns ≠ []
  plain : ∀ column ∈ table.columns, FitsCell column.toList
  size : ∀ texts ∈ table.rows, texts.length = table.columns.length

/-- A regular table is well-formed exactly if all texts in its rows fit into cells. -/
theorem Table.Regular.wellFormed_iff {table : Table} (regular : table.Regular) :
    table.WellFormed ↔ ∀ texts ∈ table.rows, ∀ text ∈ texts, FitsCell text :=
  forall₂_congr fun texts member => isRowOf_tableRow_iff regular.filled (regular.size texts member) regular.plain

/-- The rules and files that a report ranks. -/
def ranked (result : ResultOf String Int) : SummaryOf String Int :=
  summarise Severity.name 0 rankingLimit result

/-- The table of the standards. -/
def standardsTable (result : ResultOf String Int) : Table :=
  ⟨"## By Standard", ["Standard", "Violations"],
    (Order.sort (fun left right => Order.textBefore left.1 right.1) result.byStandard).map
      fun (name, count) => [name.toList, integerText count]⟩

/-- The table of the rules that are broken most often. -/
def rulesTable (result : ResultOf String Int) : Table :=
  ⟨"## Top Rules", ["Rule", "Count", "Message"],
    (ranked result).topRules.map fun rule => [rule.ruleId.toList, digits rule.count, rule.message.toList]⟩

/-- The table of the files with most violations. -/
def filesTable (result : ResultOf String Int) : Table :=
  ⟨"## Top Files", ["File", "Violations", "Score"],
    (ranked result).topFiles.map fun file =>
      ['\x60' :: file.file.toList ++ ['\x60'], digits file.violations, integerText file.score]⟩

/-- The tables of the standards, the rules and the files. -/
def tables (result : ResultOf String Int) : List Table :=
  [standardsTable result, rulesTable result, filesTable result]

/-- An entry of a tally in the form that is stored. -/
def storedEntry (entry : String × Int) : Json × Json := (.string entry.1, .integer entry.2)

/-- A tally of texts is put into the order of its names. -/
theorem inNameOrder_stored (counts : List (String × Int)) :
    inNameOrder (counts.map storedEntry) =
      some ((Order.sort (fun left right => Order.textBefore left.1 right.1) counts).map storedEntry) := by
  unfold inNameOrder
  split
  · next few =>
    rw [List.length_map] at few
    cases counts with
    | nil => rfl
    | cons entry others =>
      obtain rfl : others = [] := List.length_eq_zero_iff.mp (by rw [List.length_cons] at few; omega)
      rfl
  · have texts : ∀ entry ∈ counts.map storedEntry, isText entry.1 = true := by
      rw [List.forall_mem_map]
      exact fun entry _ => rfl
    refine (if_pos (List.all_eq_true.mpr texts)).trans (congrArg some (Order.sort_map ?_ counts))
    intro left right
    simp [storedEntry, Json.shown]

/-- Stored texts are the same values exactly if they are the same texts. -/
theorem beq_string (first second : String) : (Json.string first == Json.string second) = (first == second) := by
  rfl

/-- The rows of the standards are those of the tally in the order of its names. -/
theorem standardRows_stored (result : ResultOf String Int) :
    (inNameOrder result.asStored.byStandard).map standardRows = some (standardsTable result).rows := by
  have ordered : inNameOrder result.asStored.byStandard = _ := inNameOrder_stored result.byStandard
  rw [ordered, Option.map_some, standardRows, List.map_map]
  rfl

/-- The rows of the rules are those of the rules that a report ranks. -/
theorem ruleRows_stored (result : ResultOf String Int) :
    ruleRows (summaryOf result.asStored).topRules = (rulesTable result).rows := by
  have ranks : (summaryOf result.asStored).topRules = (ranked result).topRules.map (RuleCount.map .string) :=
    topRules_map beq_string rankingLimit result.violations
  rw [ranks, ruleRows, List.map_map]
  rfl

/-- The rows of the files are those of the files that a report ranks. -/
theorem fileRows_stored (result : ResultOf String Int) :
    fileRows (summaryOf result.asStored).topFiles = (filesTable result).rows := by
  have ranks : topFiles rankingLimit result.asStored.files = _ :=
    topFiles_map (f := Json.string) rankingLimit result.files
  rw [summaryOf, summarise, ranks, fileRows, List.map_map, List.map_map, filesTable, ranked, summarise, List.map_map]
  refine List.map_congr_left fun file _ => ?_
  simp [FileResultOf.map, Json.shown]

/-- A report has the tables among its lines. -/
theorem markdown_stored (result : ResultOf String Int) : ∃ front behind,
    markdown result.asStored = .ok (joinLines (front ++ (tables result).flatMap Table.lines ++ behind)) := by
  have keys : result.asStored.violations.all (fun finding => finding.ruleId.isKey) = true := by
    simp [ResultOf.asStored, ResultOf.map, Finding.map, Json.isKey]
  obtain ⟨byStandard, ordered, rows⟩ := Option.map_eq_some_iff.mp (standardRows_stored result)
  refine ⟨["# Standards Audit Report".toList, []] ++
      table "## Summary" ["Metric", "Value"] (countRows (summaryOf result.asStored)),
    if result.asStored.violations.isEmpty then []
      else ["## Violations".toList, []] ++ result.asStored.violations.map findingLine ++ [[]], ?_⟩
  rw [markdown, keys, Bool.not_true, if_neg Bool.false_ne_true, ordered]
  dsimp only
  rw [rows, ruleRows_stored, fileRows_stored]
  simp only [tables, Table.lines, List.flatMap_cons, List.flatMap_nil, List.append_nil, List.append_assoc]
  rfl

/-- The columns of the tables fit into cells, and their rows have a text for each column. -/
theorem regular_tables (result : ResultOf String Int) : ∀ table ∈ tables result, table.Regular := by
  have marks : ∀ column ∈ ["Standard", "Violations", "Rule", "Count", "Message", "File", "Score"],
      ∀ c ∈ column.toList, c ∉ ['|', '\n', '\r'] := by
    simp
  have plain (columns : List String)
      (listed : columns ⊆ ["Standard", "Violations", "Rule", "Count", "Message", "File", "Score"]) :
      ∀ column ∈ columns, FitsCell column.toList :=
    fun column member => fitsCell_of_forall (marks column (listed member))
  rw [tables, List.forall_mem_cons, List.forall_mem_cons, List.forall_mem_singleton]
  refine ⟨⟨List.cons_ne_nil _ _, plain _ ?_, ?_⟩, ⟨List.cons_ne_nil _ _, plain _ ?_, ?_⟩,
    ⟨List.cons_ne_nil _ _, plain _ ?_, ?_⟩⟩
  any_goals exact List.forall_mem_map.mpr fun _ _ => rfl
  all_goals simp [standardsTable, rulesTable, filesTable]

/-- The table of the standards is well-formed exactly if their names fit into cells. -/
theorem standardsTable_wellFormed_iff (result : ResultOf String Int) :
    (standardsTable result).WellFormed ↔ ∀ entry ∈ result.byStandard, FitsCell entry.1.toList := by
  have regular := regular_tables result (standardsTable result) (by simp [tables])
  rw [regular.wellFormed_iff, standardsTable, List.forall_mem_map]
  simp [fitsCell_integerText, Order.mem_sort]

/-- The table of the rules is well-formed exactly if their ids and messages fit into cells. -/
theorem rulesTable_wellFormed_iff (result : ResultOf String Int) :
    (rulesTable result).WellFormed ↔
      ∀ rule ∈ (ranked result).topRules, FitsCell rule.ruleId.toList ∧ FitsCell rule.message.toList := by
  have regular := regular_tables result (rulesTable result) (by simp [tables])
  rw [regular.wellFormed_iff, rulesTable, List.forall_mem_map]
  simp [fitsCell_digits]

/-- The table of the files is well-formed exactly if their paths fit into cells. -/
theorem filesTable_wellFormed_iff (result : ResultOf String Int) :
    (filesTable result).WellFormed ↔ ∀ file ∈ (ranked result).topFiles, FitsCell file.file.toList := by
  have regular := regular_tables result (filesTable result) (by simp [tables])
  have quoted (text : List Char) : FitsCell ('\x60' :: text ++ ['\x60']) ↔ FitsCell text :=
    fitsCell_between (by decide)
  rw [regular.wellFormed_iff, filesTable, List.forall_mem_map]
  simp only [List.forall_mem_cons, quoted, fitsCell_digits, fitsCell_integerText, true_and]
  simp

/-- **A report has the tables of the standards, the rules and the files among its lines. Their rows are all
one line with as many cells as the row of the columns exactly if the names of the standards, the ids and
messages of the ranked rules and the paths of the ranked files fit into cells.** -/
theorem report_tables_wellFormed_iff (result : ResultOf String Int) :
    (∃ front behind, markdown result.asStored =
      .ok (joinLines (front ++ (tables result).flatMap Table.lines ++ behind))) ∧
    ((∀ table ∈ tables result, table.WellFormed) ↔
      (∀ entry ∈ result.byStandard, FitsCell entry.1.toList) ∧
      (∀ rule ∈ (ranked result).topRules, FitsCell rule.ruleId.toList ∧ FitsCell rule.message.toList) ∧
      ∀ file ∈ (ranked result).topFiles, FitsCell file.file.toList) := by
  refine ⟨markdown_stored result, ?_⟩
  rw [tables, List.forall_mem_cons, List.forall_mem_cons, List.forall_mem_singleton,
    standardsTable_wellFormed_iff, rulesTable_wellFormed_iff, filesTable_wellFormed_iff]

/-- A result with one violation, whose message is what a compiler says about a union of types. -/
def unionResult : ResultOf String Int :=
  let message := "TS2322: Type 'string | number' is not assignable to type 'boolean'."
  let finding : Finding String := ⟨"typ-001", "lib/a.ts", 1, 7, .error, message, "", none, "type-errors"⟩
  ⟨1, 1, 90, [("typescript", 1)], [("error", 1), ("warning", 0), ("info", 0)], [finding],
    [⟨"lib/a.ts", [finding], 2, 90⟩], .zero⟩

/-- A bar in a message makes a cell of its own: the row of the rule has four cells below three columns. -/
theorem union_message_splits_cell :
    ∃ text row, markdown unionResult.asStored = .ok text ∧ row ∈ splitLines text ∧
      row = "| typ-001 | 1 | TS2322: Type 'string | number' is not assignable to type 'boolean'. |".toList ∧
      tableRow (["Rule", "Count", "Message"].map (·.toList)) ∈ splitLines text ∧
      (cells row).length = 4 ∧ ¬ IsRowOf ["Rule", "Count", "Message"] row := by
  refine ⟨_, _, rfl, ?_, rfl, ?_, ?_, ?_⟩
  · decide +kernel
  · decide +kernel
  · decide +kernel
  · intro isRow
    exact absurd isRow.cells (by decide +kernel)

end Conformance.Report
