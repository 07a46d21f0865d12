import Conformance.Proofs.Compiler.Recovering

/-!
# Two outputs

The compiler writes to two outputs, and both are read as one text. So the last line of the first output
goes on with the first line of the second one, unless a boundary ends it. Both together say the same as
one after the other in a few cases only, which are told here from what the two lines are.
-/

namespace Conformance.Compiler

open Syntax Text

/-- What stands behind the file of a message has no parenthesis before its words but the first. -/
theorem exists_opening {line column code : List Char} (category : Category) (lineRun : IsDigitRun line)
    (columnRun : IsDigitRun column) (codeRun : IsDigitRun code) :
    ∃ opening, '(' ∉ opening ∧ ∀ words,
      layoutBehind line column category code words = '(' :: (opening ++ words) := by
  refine ⟨line ++ ',' :: (column ++ ')' :: ':' :: ' ' :: (category.name ++ ' ' ::
    ('T' :: 'S' :: code ++ [':', ' ']))), ?_, fun words => by simp [layoutBehind]⟩
  have named : '(' ∉ category.name := by cases category <;> decide
  simp [lineRun.parenthesis_not_mem, columnRun.parenthesis_not_mem, codeRun.parenthesis_not_mem, named]

/-- What is put behind a message is put behind its words: no other parts reach from the file over its
parenthesis. -/
theorem IsReadAs.append {text file line column : List Char} {category : Category} {code words : List Char}
    (reads : IsReadAs text file line column category code words) (more : List Char) :
    IsReadAs (text ++ more) file line column category code (words ++ more) := by
  obtain ⟨⟨rfl, filled, lineRun, columnRun, codeRun⟩, shortest⟩ := reads
  refine ⟨⟨by simp [layout, layoutBehind], filled, lineRun, columnRun, codeRun⟩, ?_⟩
  intro other inner second kind number others message
  by_contra shorter
  obtain ⟨opening, free, opened⟩ :=
    exists_opening kind message.line_digits message.column_digits message.code_digits
  obtain ⟨begun, _, begins⟩ := exists_opening category lineRun columnRun codeRun
  -- The shorter file would have its numbers and category inside the file of the message.
  have inside (gap : List Char) (within : file = other ++ '(' :: (opening ++ gap)) : False := by
    have earlier : IsMessage (layout file line column category code words) other inner second kind number
        (gap ++ layoutBehind line column category code words) := by
      refine ⟨?_, message.file_ne_nil, message.line_digits, message.column_digits, message.code_digits⟩
      rw [layout, layout, opened, within]
      simp
    exact shorter (shortest earlier)
  have whole := message.whole
  rw [layout, layout, opened, begins, List.append_assoc] at whole
  rcases List.append_eq_append_iff.mp whole with ⟨gap, longer, _⟩ | ⟨gap, split, onward⟩
  · exact shorter (by rw [longer, List.length_append]; omega)
  · cases gap with
    | nil => exact shorter (by rw [split, List.append_nil])
    | cons c gap =>
      obtain ⟨rfl, beyond⟩ := List.cons.inj onward
      have reach : opening <+: gap := (prefix_append_cons_iff free).mp ⟨others, beyond⟩
      obtain ⟨rest, rfl⟩ := reach
      exact inside rest split

variable {disk : Disk} {root : Path}

/-- What some lines say, if all of them can be read. -/
def heard (disk : Disk) (root : Path) (texts : List (List Char)) : Option (List Diagnostic) :=
  (texts.mapM (messageOfLine disk root)).toOption.map fun found => found.filterMap id

/-- An output says what its lines say. -/
theorem messages_toOption (output : List Char) :
    (messages disk root output).toOption = heard disk root (lines output) := by
  rw [messages, heard]
  cases (lines output).mapM (messageOfLine disk root) <;> rfl

/-- Lines behind lines say what both say. -/
theorem heard_append (first second : List (List Char)) :
    heard disk root (first ++ second) =
      (heard disk root first).bind fun found => (heard disk root second).map (found ++ ·) := by
  simp only [heard, List.mapM_append]
  cases first.mapM (messageOfLine disk root) with
  | error error => rfl
  | ok found =>
    cases second.mapM (messageOfLine disk root) with
    | error error => rfl
    | ok others => simp [bind, Except.bind, pure, Except.pure, Except.toOption]

/-- A line says its message. -/
theorem heard_singleton (text : List Char) :
    heard disk root [text] = (messageOfLine disk root text).toOption.map Option.toList := by
  rw [heard, List.mapM_cons, List.mapM_nil]
  cases messageOfLine disk root text with
  | error error => rfl
  | ok found => cases found <;> rfl

/-- A line says one message at most. -/
theorem length_heard_singleton_le {text : List Char} {found : List Diagnostic}
    (said : heard disk root [text] = some found) : found.length ≤ 1 := by
  rw [heard_singleton, Option.map_eq_some_iff] at said
  obtain ⟨message, _, rfl⟩ := said
  cases message <;> simp

/-- A line can be read: the numbers of a message in it are not too long. -/
def Readable (text : List Char) : Prop :=
  ∀ file line column category code words, IsReadAs (trim text) file line column category code words →
    line.length ≤ Number.integerTextLimit ∧ column.length ≤ Number.integerTextLimit

/-- Lines say nothing exactly if one of them cannot be read. -/
theorem heard_eq_none_iff {texts : List (List Char)} (each : ∀ text ∈ texts, OneLine text) :
    heard disk root texts = none ↔ ∃ text ∈ texts, ¬ Readable text := by
  have readable : Succeeds (texts.mapM (messageOfLine disk root)) ↔ ∀ text ∈ texts, Readable text :=
    (succeeds_mapM_iff _ _).trans
      (forall₂_congr fun text member => succeeds_messageOfLine_iff (each text member) disk root)
  have failed : heard disk root texts = none ↔ ¬ Succeeds (texts.mapM (messageOfLine disk root)) := by
    rw [heard]
    cases texts.mapM (messageOfLine disk root) <;> simp [Except.toOption]
  rw [failed, readable]
  simp

/-- Between the same messages one message at most is told from its groups. -/
theorem ofMessages_inj {before inner others after : List Diagnostic} {succeeded : Bool}
    (short : inner.length ≤ 1) (same : Context.ofMessages (before ++ inner ++ after) succeeded =
      .ofMessages (before ++ others ++ after) succeeded) : inner = others := by
  have groups : Audit.groupBy (·.path) (before ++ inner ++ after) =
      Audit.groupBy (·.path) (before ++ others ++ after) := congrArg Context.diagnostics same
  have sizes : inner.length = others.length := by
    have total := congrArg (fun groups => Number.total (groups.map fun group => group.2.length)) groups
    simp only [Audit.total_groupBy, List.length_append] at total
    omega
  cases inner with
  | nil => exact (List.length_eq_zero_iff.mp sizes.symm).symm
  | cons found rest =>
    obtain rfl : rest = [] := by simpa using short
    obtain ⟨other, rfl⟩ := List.length_eq_one_iff.mp sizes.symm
    have kept := congrArg (fun groups => (groups.lookup found.path).getD []) groups
    simp only [Audit.lookup_groupBy, List.filter_append] at kept
    have middle := List.append_cancel_left (List.append_cancel_right kept)
    by_cases path : other.path = found.path
    · simpa [path] using middle
    · simp [path] at middle

/-- Lines between the same lines give the same context exactly if they say the same or one of the lines
around them cannot be read. -/
theorem context_eq_iff {before inner others after : List (List Char)} {succeeded : Bool}
    (each : ∀ text ∈ before ++ after, OneLine text)
    (short : ∀ found, heard disk root inner = some found → found.length ≤ 1) :
    (heard disk root (before ++ inner ++ after)).map (Context.ofMessages · succeeded) =
        (heard disk root (before ++ others ++ after)).map (Context.ofMessages · succeeded) ↔
      (∃ text ∈ before ++ after, ¬ Readable text) ∨ heard disk root inner = heard disk root others := by
  have around : heard disk root (before ++ after) = none ↔ ∃ text ∈ before ++ after, ¬ Readable text :=
    heard_eq_none_iff each
  rw [← around]
  simp only [heard_append]
  cases heard disk root before with
  | none => simp
  | some first =>
    cases heard disk root after with
    | none => simp
    | some last =>
      cases found : heard disk root inner with
      | none => cases heard disk root others <;> simp
      | some said =>
        cases heard disk root others with
        | none => simp
        | some other =>
          suffices told : Context.ofMessages (first ++ said ++ last) succeeded =
              .ofMessages (first ++ other ++ last) succeeded ↔ said = other by simpa using told
          exact ⟨ofMessages_inj (short said found), fun same => by rw [same]⟩

/-!
## Where the outputs meet

The last line of the first output and the first line of the second one are read as one line.
-/

variable {last first : List Char}

/-- A line of another form says nothing. -/
theorem heard_other {text : List Char} (other : ¬ HasForm (trim text)) :
    heard disk root [text] = some [] := by
  rw [heard_singleton, messageOfLine_of_not_hasForm other]
  rfl

/-- A line that is read as a message says it, if its numbers can be read. -/
theorem heard_message {text file line column : List Char} {category : Category} {code words : List Char}
    (oneLine : OneLine text) (reads : IsReadAs (trim text) file line column category code words) :
    heard disk root [text] = (readNumber line).toOption.bind fun line =>
      (readNumber column).toOption.map fun column =>
        [⟨(disk.resolve (root.join (.ofList file))).path, line, column, String.ofList category.name,
          String.ofList ('T' :: 'S' :: code), String.ofList words⟩] := by
  have plain : '\n' ∉ trim text := fun member => oneLine.feed_not_mem (mem_of_mem_trim member)
  rw [heard_singleton, messageOfLine_of_isReadAs reads plain]
  cases readNumber line with
  | error error => rfl
  | ok line => cases readNumber column <;> rfl

/-- Behind a message everything belongs to its words. So nothing is lost exactly if it cannot be read
or is followed by blanks. -/
theorem heard_behind_message (lastLine : OneLine last) (firstLine : OneLine first)
    (form : HasForm (trim last)) :
    heard disk root [last ++ first] = heard disk root [last, first] ↔
      heard disk root [last] = none ∨ trim first = [] := by
  obtain ⟨file, line, column, category, code, words, reads⟩ := exists_isReadAs form
  have filled : trim last ≠ [] := List.ne_nil_of_mem form.parenthesis_mem
  obtain ⟨more, joined, blank⟩ := exists_trim_append filled first
  have whole := reads.append more
  rw [← joined] at whole
  have apart : heard disk root [last, first] =
      (heard disk root [last]).bind fun found => (heard disk root [first]).map (found ++ ·) :=
    heard_append [last] [first]
  rw [apart, heard_message ((oneLine_append _ _).mpr ⟨lastLine, firstLine⟩) whole,
    heard_message lastLine reads]
  cases readNumber line with
  | error error => simp [Except.toOption]
  | ok line =>
    cases readNumber column with
    | error error => simp [Except.toOption]
    | ok column =>
      by_cases empty : trim first = []
      · have other : ¬ HasForm (trim first) := fun form => List.ne_nil_of_mem form.parenthesis_mem empty
        simp [Except.toOption, empty, blank.mpr empty, heard_other other]
      · have longer : more ≠ [] := mt blank.mp empty
        cases heard disk root [first] <;> simp [Except.toOption, empty, longer]

/-- A text has another form exactly if its line says nothing and can be read. -/
theorem heard_eq_some_nil_iff {text : List Char} (oneLine : OneLine text) :
    heard disk root [text] = some [] ↔ ¬ HasForm (trim text) := by
  refine ⟨fun silent form => ?_, heard_other⟩
  obtain ⟨file, line, column, category, code, words, reads⟩ := exists_isReadAs form
  rw [heard_message oneLine reads] at silent
  cases lineRead : readNumber line <;> cases columnRead : readNumber column <;>
    simp [lineRead, columnRead, Except.toOption] at silent

/-- The two lines say together what they say one after the other: behind a message that can be read there
are blanks only, two lines of another form make no message, and a message says the same with the other
line in front of it. -/
structure Harmless (disk : Disk) (root : Path) (last first : List Char) : Prop where
  message : HasForm (trim last) → Readable last → trim first = []
  other : ¬ HasForm (trim last) → ¬ HasForm (trim first) → ¬ HasForm (trim (last ++ first))
  second : ¬ HasForm (trim last) → HasForm (trim first) →
    heard disk root [last ++ first] = heard disk root [first]

/-- Two lines say the same together as one after the other exactly if their meeting is harmless. The cases
are what the lines are. -/
theorem heard_meeting_iff (lastLine : OneLine last) (firstLine : OneLine first) :
    heard disk root [last ++ first] = heard disk root [last, first] ↔ Harmless disk root last first := by
  by_cases form : HasForm (trim last)
  · have unread : heard disk root [last] = none ↔ ¬ Readable last := by
      rw [heard_eq_none_iff (List.forall_mem_singleton.mpr lastLine)]
      simp
    rw [heard_behind_message lastLine firstLine form, unread, ← imp_iff_not_or]
    exact ⟨fun blank => ⟨fun _ => blank, absurd form, absurd form⟩, fun harmless => harmless.message form⟩
  · have apart : heard disk root [last, first] = heard disk root [first] := by
      rw [← List.singleton_append, heard_append, heard_other form]
      cases heard disk root [first] <;> rfl
    rw [apart]
    by_cases second : HasForm (trim first)
    · exact ⟨fun same => ⟨(absurd · form), fun _ => absurd second, fun _ _ => same⟩,
        fun harmless => harmless.second form second⟩
    · rw [heard_other second, heard_eq_some_nil_iff ((oneLine_append _ _).mpr ⟨lastLine, firstLine⟩)]
      exact ⟨fun other => ⟨(absurd · form), fun _ _ => other, fun _ => (absurd · second)⟩,
        fun harmless => harmless.other form second⟩

/-- The outputs meet within a line: no boundary ends the first one, and the second one is not empty. -/
structure Meet (output errors : List Char) (before : List (List Char)) (last first : List Char)
    (after : List (List Char)) : Prop where
  within : ∀ c ∈ output.getLast?, isLineBoundary c = false
  output : lines output = before ++ [last]
  errors : lines errors = first :: after

/-- A completed check with the two outputs read one after the other. -/
def contextApart (disk : Disk) (root : Path) (returnCode : Int) (output errors : List Char) :
    Except UnreadableNumber Context := do
  let first ← messages disk root output
  let second ← messages disk root errors
  pure (.ofMessages (first ++ second) (returnCode == 0))

/-- The context of two outputs that are read one after the other. -/
theorem contextApart_toOption (returnCode : Int) (output errors : List Char) :
    (contextApart disk root returnCode output errors).toOption =
      (heard disk root (lines output ++ lines errors)).map (Context.ofMessages · (returnCode == 0)) := by
  rw [heard_append, ← messages_toOption, ← messages_toOption, contextApart]
  cases messages disk root output with
  | error error => rfl
  | ok found => cases messages disk root errors <;> rfl

/-- The context of two outputs that are read as one. -/
theorem contextOfResponse_toOption (returnCode : Int) (output errors : List Char) :
    (contextOfResponse disk root (.completed returnCode output errors)).toOption =
      (heard disk root (lines (output ++ errors))).map (Context.ofMessages · (returnCode == 0)) := by
  rw [← messages_toOption, contextOfResponse]
  cases messages disk root (output ++ errors) <;> rfl

/-- Outputs that do not meet within a line say the same together. -/
theorem heard_of_closed {output errors : List Char}
    (closed : (∀ c ∈ output.getLast?, isLineBoundary c = true) ∨ errors = []) :
    heard disk root (lines (output ++ errors)) = heard disk root (lines output ++ lines errors) := by
  rcases closed with ending | rfl
  · obtain ⟨behind, gap, whole⟩ : ∃ behind, (errors = behind ∨ errors = '\n' :: behind) ∧
        lines (output ++ errors) = lines output ++ lines behind := lines_append_of_closed ending
    rw [whole]
    rcases gap with rfl | rfl
    · rfl
    · have empty : lines ('\n' :: behind) = [] :: lines behind := lines_boundary (by decide) rfl
      have silent : heard disk root [[]] = some [] :=
        heard_other fun form => List.not_mem_nil form.parenthesis_mem
      rw [empty, heard_append, heard_append, ← List.singleton_append, heard_append, silent]
      cases heard disk root (lines behind) <;> simp
  · rw [List.append_nil]
    exact congrArg _ (List.append_nil _).symm

/-- Outputs that meet within a line have the other lines in common. -/
theorem Meet.lines_append {output errors : List Char} {before after : List (List Char)}
    (meet : Meet output errors before last first after) :
    lines (output ++ errors) = before ++ [last ++ first] ++ after := by
  have filled : output ≠ [] := by
    rintro rfl
    exact absurd meet.output.symm (List.append_ne_nil_of_right_ne_nil _ (List.cons_ne_nil _ _))
  obtain ⟨others, ending, cut, whole⟩ := lines_append_of_open filled meet.within meet.errors
  obtain ⟨rfl, same⟩ := List.append_inj' (cut.symm.trans meet.output) rfl
  obtain rfl := List.singleton_inj.mp same
  rw [whole, List.append_assoc, List.singleton_append]

/-- Outputs meet in one place only. -/
theorem Meet.unique {output errors ending beginning : List Char}
    {before after others following : List (List Char)}
    (meet : Meet output errors before last first after)
    (again : Meet output errors others ending beginning following) :
    before = others ∧ last = ending ∧ first = beginning ∧ after = following := by
  obtain ⟨same, line⟩ := List.append_inj' (meet.output.symm.trans again.output) rfl
  exact ⟨same, List.singleton_inj.mp line, List.cons.inj (meet.errors.symm.trans again.errors)⟩

/-- Outputs that meet within a line give the same context together exactly if a line elsewhere cannot be
read or their meeting is harmless. -/
theorem Meet.context_eq_iff {output errors : List Char} {before after : List (List Char)} {succeeded : Bool}
    (meet : Meet output errors before last first after) :
    (heard disk root (lines (output ++ errors))).map (Context.ofMessages · succeeded) =
        (heard disk root (lines output ++ lines errors)).map (Context.ofMessages · succeeded) ↔
      (∃ text ∈ before ++ after, ¬ Readable text) ∨ Harmless disk root last first := by
  have written : ∀ text ∈ before ++ [last], OneLine text := fun text member =>
    oneLine_of_mem_lines (meet.output ▸ member)
  have complained : ∀ text ∈ first :: after, OneLine text := fun text member =>
    oneLine_of_mem_lines (meet.errors ▸ member)
  obtain ⟨beforeLines, lastLine⟩ := List.forall_mem_append.mp written
  obtain ⟨firstLine, afterLines⟩ := List.forall_mem_cons.mp complained
  have apart : lines output ++ lines errors = before ++ [last, first] ++ after := by
    rw [meet.output, meet.errors]
    simp
  rw [meet.lines_append, apart, Compiler.context_eq_iff
    (List.forall_mem_append.mpr ⟨beforeLines, afterLines⟩) fun _ => length_heard_singleton_le,
    heard_meeting_iff (lastLine last List.mem_cons_self) firstLine]

/-- Outputs that do not meet within a line are apart: a boundary ends the first one, or the second one is
empty. -/
theorem closed_of_not_meet {output errors : List Char}
    (never : ∀ before last first after, ¬ Meet output errors before last first after) :
    (∀ c ∈ output.getLast?, isLineBoundary c = true) ∨ errors = [] := by
  by_cases empty : errors = []
  · exact .inr empty
  · refine .inl fun c ending => ?_
    by_contra opened
    have within : ∀ d ∈ output.getLast?, isLineBoundary d = false := by
      rintro d same
      obtain rfl := Option.some.inj (ending.symm.trans same)
      exact Bool.eq_false_iff.mpr opened
    have filled : output ≠ [] := by
      rintro rfl
      cases ending
    obtain ⟨first, after, behind⟩ := List.exists_cons_of_ne_nil (mt lines_eq_nil_iff.mp empty)
    obtain ⟨before, last, cut, _⟩ := lines_append_of_open filled within behind
    exact never before last first after ⟨within, cut, behind⟩

/-- **Two outputs that are read as one text give the same context as one after the other exactly if they do
not meet within a line, or a line elsewhere cannot be read, or their meeting is harmless.** -/
theorem outputs_told_apart_iff (program : CompilerProgram) (command : Command) (disk : Disk) (root : Path)
    (calls : List Invocation) {words : List String} (cut : Compiler.words command.text = .ok words)
    {returnCode : Int} {output errors : List Char}
    (answer : program calls.length ⟨words ++ checkArguments, (disk.resolve root).path, command.timeout⟩ =
      .completed returnCode output errors) :
    (checkProject program command disk root calls).1.toOption =
        (contextApart disk (disk.resolve root).path returnCode output errors).toOption ↔
      ∀ before last first after, Meet output errors before last first after →
        (∃ text ∈ before ++ after, ¬ Readable text) ∨
          Harmless disk (disk.resolve root).path last first := by
  have checked : (checkProject program command disk root calls).1 =
      contextOfResponse disk (disk.resolve root).path (.completed returnCode output errors) := by
    rw [checkProject, cut]
    simp only [call, answer]
  rw [checked, contextOfResponse_toOption, contextApart_toOption]
  by_cases meeting : ∃ before last first after, Meet output errors before last first after
  · obtain ⟨before, last, first, after, meet⟩ := meeting
    rw [meet.context_eq_iff]
    refine ⟨?_, fun told => told before last first after meet⟩
    rintro told others ending beginning following again
    obtain ⟨rfl, rfl, rfl, rfl⟩ := meet.unique again
    exact told
  · have never : ∀ before last first after, ¬ Meet output errors before last first after :=
      fun before last first after meet => meeting ⟨before, last, first, after, meet⟩
    rw [heard_of_closed (closed_of_not_meet never)]
    exact iff_of_true rfl fun before last first after meet => absurd meet (never _ _ _ _)

/-- Two outputs without messages and without line ends give the same context together. -/
theorem told_apart_without_messages :
    (checkProject (fun _ _ => .completed 0 "found".toList "nothing".toList) ⟨"tsc", 60⟩ ⟨[], []⟩ ⟨"", []⟩
      []).1.toOption =
        (contextApart ⟨[], []⟩ (Disk.resolve ⟨[], []⟩ ⟨"", []⟩).path 0 "found".toList
          "nothing".toList).toOption := by
  refine (outputs_told_apart_iff (fun _ _ => .completed 0 "found".toList "nothing".toList) ⟨"tsc", 60⟩
    ⟨[], []⟩ ⟨"", []⟩ [] (show words "tsc" = .ok ["tsc"] by decide +kernel) rfl).mpr ?_
  rintro before last first after ⟨_, output, errors⟩
  have found : lines "found".toList = [] ++ ["found".toList] := by decide +kernel
  have nothing : lines "nothing".toList = ["nothing".toList] := by decide +kernel
  obtain ⟨rfl, same⟩ := List.append_inj' (found.symm.trans output) rfl
  obtain rfl := List.singleton_inj.mp same
  obtain ⟨rfl, rfl⟩ := List.cons.inj (nothing.symm.trans errors)
  exact .inr ⟨fun form => absurd form.parenthesis_mem (by decide +kernel),
    fun _ _ form => absurd form.parenthesis_mem (by decide +kernel),
    fun _ form => absurd form.parenthesis_mem (by decide +kernel)⟩

/-- A compiler that ends its first output without a line feed. -/
def tornOutputs : CompilerProgram := fun _ _ =>
  .completed 2 "a.ts(1,2): error TS1: one".toList "b.ts(3,4): error TS2: two\n".toList

/-- The message of the second output is lost in the words of the first one. -/
theorem message_lost :
    (checkProject tornOutputs ⟨"tsc", 60⟩ ⟨[], []⟩ ⟨"", []⟩ []).1.toOption.map (·.total) = some 1 ∧
      (contextApart ⟨[], []⟩ (Disk.resolve ⟨[], []⟩ ⟨"", []⟩).path 2 "a.ts(1,2): error TS1: one".toList
        "b.ts(3,4): error TS2: two\n".toList).toOption.map (·.total) = some 2 :=
  ⟨by decide +kernel, by decide +kernel⟩

/-- A line feed behind the first output keeps both messages. -/
example : (checkProject (fun _ _ => .completed 2 "a.ts(1,2): error TS1: one\n".toList
    "b.ts(3,4): error TS2: two\n".toList) ⟨"tsc", 60⟩ ⟨[], []⟩ ⟨"", []⟩ []).1.toOption.map (·.total) = some 2 := by
  decide +kernel

end Conformance.Compiler
