import Conformance.Compiler.Check
import Conformance.Proofs.Audit.Ordering
import Conformance.Proofs.Compiler.Messages
import Conformance.Proofs.Failing
import Conformance.Proofs.Number.Digits

/-!
# What the compiler answers

A check of a project comes to an end if its command can be cut into words, the system does not
refuse the call, and no message in the answer has a number that is too long to be read. No answer at
all is an end, too.
-/

namespace Conformance.Compiler

open Text

/-- Every message in an output has a line and a column that are not too long to be read. -/
def NumbersReadable (output : List Char) : Prop :=
  ∀ text ∈ lines output, ∀ file line column category code words,
    IsReadAs (trim text) file line column category code words →
      line.length ≤ Number.integerTextLimit ∧ column.length ≤ Number.integerTextLimit

/-- What comes of a call can be used. -/
def Response.Usable : Response → Prop
  | .completed _ standardOutput standardError => NumbersReadable (standardOutput ++ standardError)
  | .missing => True
  | .timedOut => True
  | .refused _ => False

/-- A run of digits is read exactly if it is not too long. -/
theorem succeeds_readNumber_iff {text : List Char} (run : IsDigitRun text) :
    Succeeds (readNumber text) ↔ text.length ≤ Number.integerTextLimit := by
  rw [readNumber, Number.integer?_of_digits run.1 run.2]
  by_cases short : text.length ≤ Number.integerTextLimit
  · simp [short, Nat.not_lt.mpr short]
  · simp [short, Nat.not_le.mp short]

/-- A line is read exactly if the numbers of a message in it are not too long. -/
theorem succeeds_messageOfLine_iff {text : List Char} (oneLine : OneLine text) (disk : Disk)
    (root : Path) :
    Succeeds (messageOfLine disk root text) ↔ ∀ file line column category code words,
      IsReadAs (trim text) file line column category code words →
        line.length ≤ Number.integerTextLimit ∧ column.length ≤ Number.integerTextLimit := by
  have plain : '\n' ∉ trim text := fun member => oneLine.feed_not_mem (mem_of_mem_trim member)
  have read {file line column : List Char} {category : Category} {code words : List Char}
      (reads : IsReadAs (trim text) file line column category code words) :
      Succeeds (messageOfLine disk root text) ↔
        line.length ≤ Number.integerTextLimit ∧ column.length ≤ Number.integerTextLimit := by
    rw [messageOfLine_of_isReadAs reads plain, ← succeeds_readNumber_iff reads.1.line_digits,
      ← succeeds_readNumber_iff reads.1.column_digits]
    constructor
    · intro succeeds
      obtain ⟨first, lineRead, rest⟩ := (succeeds_bind_iff _ _).mp succeeds
      obtain ⟨second, columnRead, _⟩ := (succeeds_bind_iff _ _).mp rest
      exact ⟨⟨first, lineRead⟩, ⟨second, columnRead⟩⟩
    · rintro ⟨⟨first, lineRead⟩, ⟨second, columnRead⟩⟩
      rw [lineRead, columnRead]
      exact succeeds_ok _
  constructor
  · intro succeeds file line column category code words reads
    exact (read reads).mp succeeds
  · intro short
    by_cases form : HasForm (trim text)
    · obtain ⟨file, line, column, category, code, words, reads⟩ := exists_isReadAs form
      exact (read reads).mpr (short file line column category code words reads)
    · rw [messageOfLine_of_not_hasForm form]
      exact succeeds_ok _

/-- An output is read exactly if its numbers are not too long. -/
theorem succeeds_messages_iff (disk : Disk) (root : Path) (output : List Char) :
    Succeeds (messages disk root output) ↔ NumbersReadable output := by
  rw [messages, succeeds_map_iff, succeeds_mapM_iff]
  exact forall₂_congr fun text member => succeeds_messageOfLine_iff (oneLine_of_mem_lines member) disk root

/-- The system answers the call for a project, and its answer can be used. -/
def Answers (program : CompilerProgram) (command : Command) (disk : Disk) (root : Path)
    (calls : List Invocation) : Prop :=
  ∃ words, Compiler.words command.text = .ok words ∧
    (program calls.length
      ⟨words ++ checkArguments, (disk.resolve root).path, command.timeout⟩).Usable

/-- A response is read exactly if it can be used. -/
theorem succeeds_contextOfResponse_iff (disk : Disk) (root : Path) (response : Response) :
    Succeeds (contextOfResponse disk root response) ↔ response.Usable := by
  cases response with
  | completed returnCode standardOutput standardError =>
    rw [Response.Usable, ← succeeds_messages_iff disk root, contextOfResponse]
    cases messages disk root (standardOutput ++ standardError) <;> simp
  | missing => simp [contextOfResponse, Response.Usable]
  | timedOut => simp [contextOfResponse, Response.Usable]
  | refused message => simp [contextOfResponse, Response.Usable]

/-- A check of a project comes to an end exactly if the compiler answers. -/
theorem succeeds_checkProject_iff (program : CompilerProgram) (command : Command) (disk : Disk)
    (root : Path) (calls : List Invocation) :
    Succeeds (checkProject program command disk root calls).1 ↔
      Answers program command disk root calls := by
  unfold checkProject Answers
  cases words command.text with
  | error error => simp
  | ok words => simp [call, succeeds_contextOfResponse_iff]

end Conformance.Compiler

/-!
## Messages by their files

What the compiler writes are messages and other lines in any order. Every message is found again in
its group, whichever way its file is written, as long as its numbers are not too long to be read. A
number that is too long is no message of its own: it ends the whole check.
-/

namespace Conformance.Compiler

open Syntax Text

namespace PrintedMessage

/-- The numbers of a message are not too long to be read. -/
def Readable (message : PrintedMessage) : Prop :=
  (Number.digits message.line).length ≤ Number.integerTextLimit ∧
    (Number.digits message.column).length ≤ Number.integerTextLimit

instance (message : PrintedMessage) : Decidable message.Readable :=
  inferInstanceAs (Decidable (_ ∧ _))

/-- The resolved file of a message, below the root of a project. -/
def place (message : PrintedMessage) (disk : Disk) (root : Path) : Path :=
  (disk.resolve (root.join (.ofList message.file))).path

/-- What a message says. -/
def diagnostic (message : PrintedMessage) (disk : Disk) (root : Path) : Diagnostic :=
  ⟨message.place disk root, message.line, message.column, String.ofList message.category.name,
    String.ofList ('T' :: 'S' :: message.code), String.ofList message.words⟩

end PrintedMessage

/-- A line that has not the form of a message, however it is indented. -/
structure OtherLine where
  text : List Char
  oneLine : OneLine text
  other : ¬ HasForm (trim text)

/-- A line of the compiler. -/
inductive OutputLine where
  | found (message : PrintedMessage)
  | other (line : OtherLine)

/-- The text of a line. -/
def OutputLine.text : OutputLine → List Char
  | .found message => message.text
  | .other line => line.text

/-- The message in a line. -/
def OutputLine.message? : OutputLine → Option PrintedMessage
  | .found message => some message
  | .other _ => none

/-- What the compiler writes, line by line. -/
def output (printed : List OutputLine) : List Char := printed.flatMap fun line => line.text ++ ['\n']

/-- The messages that the compiler writes. -/
def printedMessages (printed : List OutputLine) : List PrintedMessage :=
  printed.filterMap OutputLine.message?

/-- The digits of a number are a run of digits. -/
theorem isDigitRun_digits (value : Nat) : IsDigitRun (Number.digits value) :=
  ⟨Number.digits_ne_nil value, Number.isDecimalDigit_of_mem_digits value⟩

/-- No digit ends a line. -/
theorem IsDigitRun.oneLine {text : List Char} (run : IsDigitRun text) : OneLine text := by
  intro c member
  by_contra ends
  have digit := run.2 c member
  simp only [Bool.not_eq_false, isLineBoundary, Bool.or_eq_true, beq_iff_eq] at ends
  rcases ends with ((((((((rfl | rfl) | rfl) | rfl) | rfl) | rfl) | rfl) | rfl) | rfl) | rfl
  all_goals exact absurd digit (by decide +kernel)

/-- The name of a category is on one line. -/
theorem Category.oneLine (category : Category) : OneLine category.name := by
  cases category <;> decide

namespace PrintedMessage

/-- A message is printed on one line. -/
theorem oneLine (message : PrintedMessage) : OneLine message.text := by
  have line := (isDigitRun_digits message.line).oneLine
  have column := (isDigitRun_digits message.column).oneLine
  have code := message.code_digits.oneLine
  simp [text, layout, layoutBehind, message.file_oneLine, line, column, message.category.oneLine, code,
    message.words_oneLine, isLineBoundary]

/-- A message has no blanks at its ends. -/
theorem trim_text (message : PrintedMessage) : trim message.text = message.text := by
  refine trim_eq_self ?_ ?_
  · obtain ⟨first, others, file⟩ := List.exists_cons_of_ne_nil message.file_ne_nil
    have begins := message.file_begins
    rw [file] at begins
    simpa [text, layout, file] using begins
  · have whole : message.text = layout message.file (Number.digits message.line)
        (Number.digits message.column) message.category message.code [] ++ message.words := by
      simp [text, layout, layoutBehind]
    intro c last
    rw [whole, List.getLast?_append_of_ne_nil _ message.words_ne_nil] at last
    exact message.words_end c last

end PrintedMessage

/-- A printed message is read back, if its numbers are. -/
theorem messageOfLine_text (message : PrintedMessage) (disk : Disk) (root : Path) :
    messageOfLine disk root message.text = (do
      let line ← readNumber (Number.digits message.line)
      let column ← readNumber (Number.digits message.column)
      pure (some { message.diagnostic disk root with line := line, column := column })) := by
  have reads := isReadAs_of_open message.category message.words message.file_ne_nil message.file_open
    (isDigitRun_digits message.line) (isDigitRun_digits message.column) message.code_digits
  have whole : trim message.text = layout message.file (Number.digits message.line)
      (Number.digits message.column) message.category message.code message.words := message.trim_text
  rw [messageOfLine_of_isReadAs (by rw [whole]; exact reads)
    (by rw [message.trim_text]; exact message.oneLine.feed_not_mem)]
  rfl

/-- A line of another form holds no message. -/
theorem messageOfLine_other (line : OtherLine) (disk : Disk) (root : Path) :
    messageOfLine disk root line.text = .ok none :=
  messageOfLine_of_not_hasForm line.other disk root

/-- The digits of a number that are not too many are read as the number. -/
theorem readNumber_digits (value : Nat) :
    readNumber (Number.digits value) =
      if (Number.digits value).length ≤ Number.integerTextLimit then .ok value
      else .error ⟨Number.digits value⟩ := by
  rw [readNumber, Number.integer?_digits]
  by_cases short : (Number.digits value).length ≤ Number.integerTextLimit
  · rw [if_neg (Nat.not_lt.mpr short), if_pos short]
    rfl
  · rw [if_pos (Nat.not_le.mp short), if_neg short]

/-- The lines of the compiler are read one by one. -/
theorem lines_output (printed : List OutputLine) :
    lines (output printed) = printed.map OutputLine.text := by
  induction printed with
  | nil => rfl
  | cons line printed inductionHypothesis =>
    have oneLine : OneLine line.text := by
      cases line with
      | found message => exact message.oneLine
      | other line => exact line.oneLine
    have split : output (line :: printed) = line.text ++ '\n' :: output printed := by
      simp [output]
    rw [split, lines_append_feed oneLine, inductionHypothesis, List.map_cons]

/-- A line whose numbers can be read gives its message. -/
theorem messageOfLine_line {line : OutputLine} (readable : ∀ message ∈ line.message?, message.Readable)
    (disk : Disk) (root : Path) :
    messageOfLine disk root line.text = .ok (line.message?.map (·.diagnostic disk root)) := by
  cases line with
  | found message =>
    obtain ⟨line, column⟩ := readable message rfl
    rw [OutputLine.text, messageOfLine_text, readNumber_digits, readNumber_digits, if_pos line,
      if_pos column]
    rfl
  | other line => exact messageOfLine_other line disk root

/-- A line with a number that is too long is an error. -/
theorem messageOfLine_unread {line : OutputLine}
    (tooLong : ¬ ∀ message ∈ line.message?, message.Readable) (disk : Disk) (root : Path) :
    ∃ text, messageOfLine disk root line.text = .error ⟨text⟩ := by
  cases line with
  | found message =>
    rw [OutputLine.text, messageOfLine_text, readNumber_digits, readNumber_digits]
    by_cases line : (Number.digits message.line).length ≤ Number.integerTextLimit
    · have column : ¬ (Number.digits message.column).length ≤ Number.integerTextLimit := by
        intro column
        refine tooLong fun other found => ?_
        cases found
        exact ⟨line, column⟩
      rw [if_pos line, if_neg column]
      exact ⟨_, rfl⟩
    · rw [if_neg line]
      exact ⟨_, rfl⟩
  | other line => exact absurd (by simp [OutputLine.message?]) tooLong

/-- The messages in what the compiler writes are those that it printed, in order. -/
theorem messages_output {printed : List OutputLine}
    (readable : ∀ message ∈ printedMessages printed, message.Readable) (disk : Disk) (root : Path) :
    messages disk root (output printed) =
      .ok ((printedMessages printed).map (·.diagnostic disk root)) := by
  have each : ∀ line ∈ printed, ∀ message ∈ line.message?, message.Readable :=
    fun line member message found => readable message (List.mem_filterMap.mpr ⟨line, member, found⟩)
  have read : (printed.map OutputLine.text).mapM (messageOfLine disk root) =
      .ok (printed.map fun line => line.message?.map (·.diagnostic disk root)) := by
    clear readable
    induction printed with
    | nil => rfl
    | cons line printed inductionHypothesis =>
      obtain ⟨first, others⟩ := List.forall_mem_cons.mp each
      rw [List.map_cons, List.mapM_cons, messageOfLine_line first, inductionHypothesis others]
      rfl
  rw [messages, lines_output, read]
  simp [Except.map, printedMessages, List.filterMap_map, List.map_filterMap]

/-- One message with a number that is too long leaves nothing to be read. The induction is on the
lines: those before it are read, and the first such message is the error. -/
theorem messages_unread {printed : List OutputLine}
    (tooLong : ∃ message ∈ printedMessages printed, ¬ message.Readable) (disk : Disk) (root : Path) :
    ∃ text, messages disk root (output printed) = .error ⟨text⟩ := by
  have ended : ∃ text, (printed.map OutputLine.text).mapM (messageOfLine disk root) = .error ⟨text⟩ := by
    induction printed with
    | nil => simp [printedMessages] at tooLong
    | cons line printed inductionHypothesis =>
      rw [List.map_cons, List.mapM_cons]
      by_cases readable : ∀ message ∈ line.message?, message.Readable
      · have later : ∃ message ∈ printedMessages printed, ¬ message.Readable := by
          obtain ⟨message, member, long⟩ := tooLong
          obtain ⟨other, listed, found⟩ := List.mem_filterMap.mp member
          rcases List.mem_cons.mp listed with rfl | listed
          · exact absurd (readable message found) long
          · exact ⟨message, List.mem_filterMap.mpr ⟨other, listed, found⟩, long⟩
        obtain ⟨text, error⟩ := inductionHypothesis later
        exact ⟨text, by rw [messageOfLine_line readable, error]; rfl⟩
      · obtain ⟨text, error⟩ := messageOfLine_unread readable disk root
        exact ⟨text, by rw [error]; rfl⟩
  obtain ⟨text, error⟩ := ended
  exact ⟨text, by rw [messages, lines_output, error]; rfl⟩

/-- **Every message is found again by its file.** -/
theorem messages_recovered (program : CompilerProgram) (command : Command) (disk : Disk) (root : Path)
    (calls : List Invocation) {words : List String} (cut : Compiler.words command.text = .ok words)
    {printed : List OutputLine} {returnCode : Int}
    (answer : program calls.length
        ⟨words ++ checkArguments, (disk.resolve root).path, command.timeout⟩ =
      .completed returnCode (output printed) [])
    (readable : ∀ message ∈ printedMessages printed, message.Readable) :
    ∃ context, (checkProject program command disk root calls).1 = .ok context ∧
      context.succeeded = (returnCode == 0) ∧
      (∀ path, context.forFile disk path =
        ((printedMessages printed).filter fun message =>
          message.place disk (disk.resolve root).path = (disk.resolve path).path).map
            (·.diagnostic disk (disk.resolve root).path)) ∧
      context.total = (printedMessages printed).length := by
  have read := messages_output readable disk (disk.resolve root).path
  refine ⟨.ofMessages ((printedMessages printed).map (·.diagnostic disk (disk.resolve root).path))
    (returnCode == 0), ?_, rfl, fun path => ?_, ?_⟩
  · rw [checkProject, cut]
    simp [call, answer, contextOfResponse, read]
  · rw [Context.forFile, Context.ofMessages, Audit.lookup_groupBy, List.filter_map]
    rfl
  · rw [Context.total, Context.ofMessages]
    exact (Audit.total_groupBy _ _).trans (List.length_map _)

/-- What is said about a page. -/
def pageWords : List Char := "Type (A) is not assignable to type (B): no".toList

/-- A message about a page, whose file begins with a character that is no blank. -/
def pageMessage (first : Char) (rest : List Char) (solid : isBlank first = false)
    (oneLine : OneLine (first :: rest)) (opened : ¬ numbersEnd <:+: first :: rest) (line : Nat) :
    PrintedMessage where
  file := first :: rest
  line := line
  column := 5
  category := .error
  code := "2322".toList
  words := pageWords
  file_ne_nil := List.cons_ne_nil first rest
  file_begins := by
    rintro c ⟨⟩
    exact solid
  file_oneLine := oneLine
  file_open := opened
  code_digits := by decide +kernel
  words_ne_nil := by decide +kernel
  words_oneLine := by decide +kernel
  words_end := by
    have last : pageWords.getLast? = some 'o' := by decide +kernel
    rw [last]
    rintro c ⟨⟩
    decide

/-- A message has a parenthesis in it. -/
theorem HasForm.parenthesis_mem {text : List Char} (form : HasForm text) : '(' ∈ text := by
  obtain ⟨file, line, column, category, code, words, whole, _⟩ := form
  rw [whole]
  simp [layout, layoutBehind]

/-- A line that counts the messages. -/
def countLine : OtherLine where
  text := "Found 2 errors.".toList
  oneLine := by decide +kernel
  other := fun form => absurd form.parenthesis_mem (by decide +kernel)

/-- Two messages about a page in a directory whose name is in parentheses. Its file is written from the
root of the project and through a link. -/
def twoSpellings : List OutputLine :=
  [.found (pageMessage 'a' "pp/(shop)/page.tsx".toList (by decide) (by decide +kernel)
      (by decide +kernel) 3),
    .other countLine,
    .found (pageMessage '/' "q/app/(shop)/page.tsx".toList (by decide) (by decide +kernel)
      (by decide +kernel) 9)]

/-- Both messages are found under the one file. -/
theorem messages_recovered_spellings :
    ∃ context, (checkProject (fun _ _ => .completed 2 (output twoSpellings) []) ⟨"tsc", 60⟩
        ⟨["p"], [(["p"], .directory), (["q"], .link ⟨"", ["p"]⟩)]⟩ ⟨"", []⟩ []).1 = .ok context ∧
      (context.forFile ⟨["p"], [(["p"], .directory), (["q"], .link ⟨"", ["p"]⟩)]⟩
        ⟨"", ["app", "(shop)", "page.tsx"]⟩).map (·.line) = [3, 9] ∧ context.total = 2 := by
  obtain ⟨context, checked, _, files, total⟩ :=
    messages_recovered (fun _ _ => .completed 2 (output twoSpellings) []) ⟨"tsc", 60⟩
      ⟨["p"], [(["p"], .directory), (["q"], .link ⟨"", ["p"]⟩)]⟩ ⟨"", []⟩ []
      (show words "tsc" = .ok ["tsc"] by decide +kernel) rfl (by decide +kernel)
  refine ⟨context, checked, ?_, total⟩
  rw [files]
  decide +kernel

/-- One message with a line number. -/
def oneMessage (line : Nat) : List OutputLine :=
  [.found (pageMessage 'a' [] (by decide) (by decide) (by decide) line)]

/-- A line number that is too long to be read ends the check. -/
theorem oneMessage_unread {line : Nat}
    (tooLong : ¬ (Number.digits line).length ≤ Number.integerTextLimit) :
    ∃ text, (checkProject (fun _ _ => .completed 2 (output (oneMessage line)) []) ⟨"tsc", 60⟩ ⟨[], []⟩
      ⟨"", []⟩ []).1 = .error (.number ⟨text⟩) := by
  have cut : Compiler.words "tsc" = .ok ["tsc"] := by decide +kernel
  have long : ∃ message ∈ printedMessages (oneMessage line), ¬ message.Readable :=
    ⟨_, List.mem_singleton.mpr rfl, fun readable => tooLong readable.1⟩
  obtain ⟨text, unread⟩ := messages_unread long ⟨[], []⟩ (Disk.resolve ⟨[], []⟩ ⟨"", []⟩).path
  refine ⟨text, ?_⟩
  rw [checkProject, cut]
  simp only [call, contextOfResponse, List.append_nil, unread]

/-- No context is given when the line has one digit more than can be read. -/
theorem long_line_ends_check :
    ∃ text, (checkProject (fun _ _ => .completed 2 (output (oneMessage (10 ^ 4300))) []) ⟨"tsc", 60⟩
      ⟨[], []⟩ ⟨"", []⟩ []).1 = .error (.number ⟨text⟩) := by
  have length := Number.length_digits_pow 4300
  have limit : Number.integerTextLimit = 4300 := rfl
  exact oneMessage_unread (by omega)

end Conformance.Compiler
