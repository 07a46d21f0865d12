import Conformance.Number.Sum
import Conformance.Proofs.Text.Parts
import Mathlib.Data.List.Basic
import Mathlib.Data.List.Induction
import Mathlib.Tactic.Common

/-!
# Places in a text

A place is told by a line and a column, both counted from one. It moves on with every character
that is passed; which characters begin a new line is a matter of the reading. A character stands in
the wide lines of a text at the place behind the characters before it, if every character of the
wide reading that ends a line counts. With line feeds alone that is the same place exactly as long
as no other boundary has been passed.
-/

namespace Conformance.Text

variable {breaks : Char → Bool}

/-- The place behind some characters. -/
def placeBehind (breaks : Char → Bool) (passed : List Char) : Nat × Nat :=
  passed.foldl (fun place c => if breaks c then (place.1 + 1, 1) else (place.1, place.2 + 1)) (1, 1)

/-- A place that is on an earlier line than another one, or on the same line in no later column. -/
def NoLater (place other : Nat × Nat) : Prop := place.1 < other.1 ∨ place.1 = other.1 ∧ place.2 ≤ other.2

/-- How many characters some lines take, each with its boundary. -/
def extent (lines : List (List Char)) : Nat := Number.total (lines.map (·.length + 1))

@[simp] theorem extent_nil : extent [] = 0 := rfl

@[simp] theorem extent_cons (line : List Char) (lines : List (List Char)) :
    extent (line :: lines) = line.length + 1 + extent lines := rfl

/-- Lines behind lines take what both take. -/
theorem extent_append (first second : List (List Char)) :
    extent (first ++ second) = extent first + extent second := by
  unfold extent
  rw [List.map_append, Number.total_append]

/-- The character at an index stands in a line at a column: the lines before that line and the
columns before that column make up the index, and from the column on the text goes on with what the
line holds. A boundary stands one column behind the line that it ends. -/
def Stands (text : List Char) (index : Nat) (place : Nat × Nat) : Prop :=
  ∃ earlier held later, lines text = earlier ++ held :: later ∧ place.1 = earlier.length + 1 ∧
    1 ≤ place.2 ∧ place.2 ≤ held.length + 1 ∧ index + 1 = extent earlier + place.2 ∧
    held.drop (place.2 - 1) <+: text.drop index

/-- One more character is passed. -/
theorem placeBehind_concat (passed : List Char) (c : Char) :
    placeBehind breaks (passed ++ [c]) =
      if breaks c then ((placeBehind breaks passed).1 + 1, 1)
      else ((placeBehind breaks passed).1, (placeBehind breaks passed).2 + 1) := by
  unfold placeBehind
  rw [List.foldl_append]
  rfl

/-- Passing more characters leads to no earlier place. -/
theorem noLater_placeBehind (passed further : List Char) :
    NoLater (placeBehind breaks passed) (placeBehind breaks (passed ++ further)) := by
  induction further using List.reverseRecOn with
  | nil =>
    rw [List.append_nil]
    exact .inr ⟨rfl, Nat.le_refl _⟩
  | append_singleton further c inductionHypothesis =>
    rw [← List.append_assoc, placeBehind_concat]
    unfold NoLater at inductionHypothesis ⊢
    split <;> dsimp only <;> omega

/-- A place that is no later than another one is on no later line. -/
theorem NoLater.line_le {place other : Nat × Nat} (order : NoLater place other) : place.1 ≤ other.1 := by
  rcases order with before | ⟨same, _⟩
  · exact Nat.le_of_lt before
  · exact Nat.le_of_eq same

/-- The line is one more than the breaks that have been passed. -/
theorem placeBehind_fst (passed : List Char) :
    (placeBehind breaks passed).1 = passed.countP breaks + 1 := by
  induction passed using List.reverseRecOn with
  | nil => rfl
  | append_singleton passed c inductionHypothesis =>
    rw [placeBehind_concat, List.countP_append]
    by_cases last : breaks c
    · simp [last, inductionHypothesis]
    · simp [last, inductionHypothesis]

/-- The column is one more than the characters that have been passed since the last break. -/
theorem placeBehind_snd (passed : List Char) :
    (placeBehind breaks passed).2 = (passed.reverse.takeWhile fun c => !breaks c).length + 1 := by
  induction passed using List.reverseRecOn with
  | nil => rfl
  | append_singleton passed c inductionHypothesis =>
    rw [placeBehind_concat, List.reverse_append, List.reverse_singleton, List.singleton_append]
    by_cases last : breaks c
    · simp [last]
    · simp [last, inductionHypothesis]

/-- Lines and columns are counted from one. -/
theorem exists_placeBehind (breaks : Char → Bool) (passed : List Char) :
    ∃ line column, placeBehind breaks passed = (line + 1, column + 1) :=
  ⟨_, _, Prod.ext (placeBehind_fst passed) (placeBehind_snd passed)⟩

/-- One more character is passed first. It counts in the column only as long as the line is the
first one. -/
theorem placeBehind_cons (c : Char) (passed : List Char) :
    placeBehind breaks (c :: passed) =
      if breaks c then ((placeBehind breaks passed).1 + 1, (placeBehind breaks passed).2)
      else ((placeBehind breaks passed).1,
        if (placeBehind breaks passed).1 = 1 then (placeBehind breaks passed).2 + 1
        else (placeBehind breaks passed).2) := by
  induction passed using List.reverseRecOn with
  | nil =>
    by_cases first : breaks c
    · simp [placeBehind, first]
    · simp [placeBehind, first]
  | append_singleton passed d inductionHypothesis =>
    rw [← List.cons_append, placeBehind_concat, placeBehind_concat, inductionHypothesis]
    have counted : (placeBehind breaks passed).1 = passed.countP breaks + 1 :=
      placeBehind_fst passed
    by_cases first : breaks c
    · by_cases last : breaks d
      · simp [first, last]
      · simp [first, last]
    · by_cases last : breaks d
      · simp [first, last, counted]
      · by_cases line : (placeBehind breaks passed).1 = 1
        · simp [first, last, line]
        · simp [first, last, line]

/-- Characters that break no line move the place on in its line. -/
theorem placeBehind_append {more : List Char} (within : ∀ c ∈ more, breaks c = false) (passed : List Char) :
    placeBehind breaks (passed ++ more) =
      ((placeBehind breaks passed).1, (placeBehind breaks passed).2 + more.length) := by
  induction more using List.reverseRecOn with
  | nil => rw [List.append_nil]; rfl
  | append_singleton more c inductionHypothesis =>
    obtain ⟨before, last⟩ := List.forall_mem_append.mp within
    rw [← List.append_assoc, placeBehind_concat, last c List.mem_cons_self, if_neg Bool.false_ne_true,
      inductionHypothesis before, List.length_append]
    rfl

/-- The line of a place goes on from its column as the text does up to the next line feed. -/
theorem splitLines_placeBehind (passed ahead : List Char) :
    ∃ held, (splitLines (passed ++ ahead))[(placeBehind (· == '\n') passed).1 - 1]? = some held ∧
      held.drop ((placeBehind (· == '\n') passed).2 - 1) = ahead.takeWhile (· != '\n') := by
  induction passed with
  | nil => exact ⟨_, head?_splitAt ahead, rfl⟩
  | cons c passed inductionHypothesis =>
    obtain ⟨held, there, same⟩ := inductionHypothesis
    obtain ⟨line, column, place⟩ := exists_placeBehind (· == '\n') passed
    rw [place] at there same
    rw [placeBehind_cons, place, List.cons_append]
    by_cases feed : c = '\n'
    · subst feed
      rw [if_pos (beq_self_eq_true '\n')]
      exact ⟨held, there, same⟩
    · obtain ⟨piece, pieces, cut, cutAll⟩ := splitAt_cons feed (passed ++ ahead)
      unfold splitLines at there ⊢
      rw [cut] at there
      rw [if_neg (by simpa using feed), cutAll]
      cases line with
      | zero =>
        obtain rfl := Option.some.inj there
        exact ⟨c :: piece, rfl, same⟩
      | succ line => exact ⟨held, there, same⟩

/-- Two readings tell the same place if no character that has been passed breaks a line in the wider
one alone. -/
theorem placeBehind_eq_iff {wide : Char → Bool} (wider : ∀ c, breaks c = true → wide c = true)
    (passed : List Char) :
    placeBehind breaks passed = placeBehind wide passed ↔
      ∀ c ∈ passed, wide c = true → breaks c = true := by
  constructor
  · intro same c member ends
    have counts := congrArg Prod.fst same
    rw [placeBehind_fst, placeBehind_fst, List.countP_eq_length_filter,
      List.countP_eq_length_filter] at counts
    have kept : passed.filter breaks = passed.filter wide :=
      (List.monotone_filter_right passed wider).eq_of_length (Nat.succ.inj counts)
    have listed : c ∈ passed.filter wide := List.mem_filter.mpr ⟨member, ends⟩
    rw [← kept] at listed
    exact (List.mem_filter.mp listed).2
  · intro only
    refine List.foldl_ext _ _ _ fun place c member => ?_
    by_cases ends : breaks c
    · simp [ends, wider c ends]
    · simp [ends, mt (only c member) ends]

/-- A carriage return and a line feed end one line. -/
theorem lines_return_feed (rest : List Char) : lines ('\r' :: '\n' :: rest) = [] :: lines rest := by
  rw [lines.eq_def]
  rfl

/-- A boundary ends an empty line, unless it is the first half of one. -/
theorem lines_boundary_of_apart {c : Char} {rest : List Char}
    (apart : ∀ more, c = '\r' → rest = '\n' :: more → False) (ends : isLineBoundary c = true) :
    lines (c :: rest) = [] :: lines rest := by
  rw [lines.eq_def]
  split
  · contradiction
  · next same =>
    obtain ⟨rfl, rfl⟩ := List.cons.inj same
    exact (apart _ rfl rfl).elim
  · next same =>
    obtain ⟨rfl, rfl⟩ := List.cons.inj same
    rw [if_pos ends]

/-- Where no carriage return stands, a boundary ends an empty line. -/
theorem lines_boundary {c : Char} {rest : List Char} (plain : c ≠ '\r')
    (ends : isLineBoundary c = true) : lines (c :: rest) = [] :: lines rest :=
  lines_boundary_of_apart (fun _ same _ => plain same) ends

/-- Any other character begins the first line of the rest. -/
theorem lines_within {c : Char} {rest : List Char} (within : isLineBoundary c = false) :
    lines (c :: rest) = match lines rest with
      | [] => [[c]]
      | line :: following => (c :: line) :: following := by
  rw [lines.eq_def]
  split
  · contradiction
  · next same =>
    cases same
    exact absurd within (by decide)
  · next same =>
    cases same
    rw [within]
    rfl

/-- A text on one line. -/
def OneLine (text : List Char) : Prop := ∀ c ∈ text, isLineBoundary c = false

instance (text : List Char) : Decidable (OneLine text) :=
  List.decidableBAll (fun c => isLineBoundary c = false) text

/-- One more character keeps a text on one line, unless it ends the line. -/
@[simp] theorem oneLine_cons (c : Char) (text : List Char) :
    OneLine (c :: text) ↔ isLineBoundary c = false ∧ OneLine text := List.forall_mem_cons

/-- Two texts on one line are on one line together. -/
@[simp] theorem oneLine_append (first second : List Char) :
    OneLine (first ++ second) ↔ OneLine first ∧ OneLine second := List.forall_mem_append

/-- A text on one line holds no line feed. -/
theorem OneLine.feed_not_mem {text : List Char} (line : OneLine text) : '\n' ∉ text := by
  intro member
  exact absurd (line '\n' member) (by decide)

/-- A text on one line and a line feed are the first line. -/
theorem lines_append_feed {line : List Char} (within : OneLine line) (rest : List Char) :
    lines (line ++ '\n' :: rest) = line :: lines rest := by
  induction line with
  | nil => exact lines_boundary (by decide) rfl
  | cons c line inductionHypothesis =>
    obtain ⟨first, others⟩ := List.forall_mem_cons.mp within
    rw [List.cons_append, lines_within first, inductionHypothesis others]

/-- Every line of a text is on one line. -/
theorem oneLine_of_mem_lines {text line : List Char} (member : line ∈ lines text) : OneLine line := by
  induction text using lines.induct generalizing line with
  | case1 => cases member
  | case2 rest inductionHypothesis =>
    rw [lines_return_feed] at member
    rcases List.mem_cons.mp member with rfl | member
    · exact List.forall_mem_nil _
    · exact inductionHypothesis member
  | case3 c rest apart ends inductionHypothesis =>
    rw [lines_boundary_of_apart apart ends] at member
    rcases List.mem_cons.mp member with rfl | member
    · exact List.forall_mem_nil _
    · exact inductionHypothesis member
  | case4 c rest _ within last =>
    rw [lines_within (Bool.eq_false_iff.mpr within), last, List.mem_singleton] at member
    subst member
    exact List.forall_mem_singleton.mpr (Bool.eq_false_iff.mpr within)
  | case5 c rest _ within piece pieces first inductionHypothesis =>
    rw [lines_within (Bool.eq_false_iff.mpr within), first] at member
    rw [first, List.forall_mem_cons] at inductionHypothesis
    rcases List.mem_cons.mp member with rfl | member
    · exact List.forall_mem_cons.mpr ⟨Bool.eq_false_iff.mpr within, inductionHypothesis.1⟩
    · exact inductionHypothesis.2 _ member

/-- A text that is not empty has a first line, and begins with what that line holds. -/
theorem lines_begin {text : List Char} (plain : '\r' ∉ text) (filled : text ≠ []) :
    ∃ held later, lines text = held :: later ∧ held <+: text := by
  induction text with
  | nil => exact absurd rfl filled
  | cons c rest inductionHypothesis =>
    simp only [List.mem_cons, not_or] at plain
    cases ends : isLineBoundary c with
    | true => exact ⟨[], lines rest, lines_boundary (Ne.symm plain.1) ends, List.nil_prefix⟩
    | false =>
      rw [lines_within ends]
      by_cases more : rest = []
      · subst more
        exact ⟨[c], [], rfl, List.prefix_rfl⟩
      · obtain ⟨held, later, cut, begins⟩ := inductionHypothesis plain.2 more
        rw [cut]
        exact ⟨c :: held, later, rfl, List.prefix_cons_iff.mpr (.inr ⟨held, rfl, begins⟩)⟩

/-- A boundary that is put before a text is an empty line before all others. -/
theorem Stands.boundary {c : Char} {rest : List Char} {index : Nat} {place : Nat × Nat}
    (stands : Stands rest index place) (plain : c ≠ '\r') (ends : isLineBoundary c = true) :
    Stands (c :: rest) (index + 1) (place.1 + 1, place.2) := by
  obtain ⟨earlier, held, later, cut, line, first, last, sum, onward⟩ := stands
  refine ⟨[] :: earlier, held, later, ?_, congrArg (· + 1) line, first, last, ?_, onward⟩
  · rw [lines_boundary plain ends, cut]
    rfl
  · rw [extent_cons, List.length_nil]
    dsimp only
    omega

/-- Any other character that is put before a text makes its first line longer. -/
theorem Stands.within {c : Char} {rest : List Char} {index : Nat} {place : Nat × Nat}
    (stands : Stands rest index place) (within : isLineBoundary c = false) :
    Stands (c :: rest) (index + 1) (place.1, if place.1 = 1 then place.2 + 1 else place.2) := by
  obtain ⟨earlier, held, later, cut, line, first, last, sum, onward⟩ := stands
  cases earlier with
  | nil =>
    have top : place.1 = 1 := line
    rw [extent_nil] at sum
    rw [if_pos top]
    refine ⟨[], c :: held, later, ?_, line, Nat.le_add_left 1 _, Nat.succ_le_succ last, ?_, ?_⟩
    · rw [lines_within within, cut]
      rfl
    · rw [extent_nil]
      dsimp only
      omega
    · have behind : place.2 = (place.2 - 1) + 1 := by omega
      rw [Nat.add_sub_cancel, behind, List.drop_succ_cons, List.drop_succ_cons]
      exact onward
  | cons shortest earlier =>
    have below : place.1 ≠ 1 := by
      rw [line]
      exact Nat.succ_ne_succ_iff.mpr (Nat.succ_ne_zero _)
    rw [if_neg below]
    refine ⟨(c :: shortest) :: earlier, held, later, ?_, line, first, last, ?_, onward⟩
    · rw [lines_within within, cut]
      rfl
    · rw [extent_cons] at sum ⊢
      rw [List.length_cons]
      dsimp only
      omega

/-- Every character stands at the place behind the characters before it. -/
theorem stands_placeBehind {text : List Char} (plain : '\r' ∉ text) {index : Nat}
    (inside : index < text.length) :
    Stands text index (placeBehind isLineBoundary (text.take index)) := by
  induction text generalizing index with
  | nil => cases inside
  | cons c rest inductionHypothesis =>
    cases index with
    | zero =>
      obtain ⟨held, later, cut, begins⟩ := lines_begin plain (List.cons_ne_nil c rest)
      exact ⟨[], held, later, cut, rfl, Nat.le_refl 1, Nat.le_add_left 1 _, rfl, begins⟩
    | succ index =>
      simp only [List.mem_cons, not_or] at plain
      have stands := inductionHypothesis plain.2 (Nat.lt_of_succ_lt_succ inside)
      rw [List.take_succ_cons, placeBehind_cons]
      split
      · next ends => exact stands.boundary (Ne.symm plain.1) ends
      · next ends => exact stands.within (Bool.eq_false_iff.mpr ends)

/-- Of two places of a character neither is on the earlier line. -/
theorem Stands.line_le {text : List Char} {index : Nat} {place other : Nat × Nat}
    (stands : Stands text index place) (again : Stands text index other) : place.1 ≤ other.1 := by
  obtain ⟨earlier, held, later, cut, line, first, last, sum, _⟩ := stands
  obtain ⟨others, found, following, divided, row, begins, ends, total, _⟩ := again
  by_contra above
  have start : others ++ [found] <+: earlier ++ held :: later :=
    ⟨following, by rw [← cut, divided, List.append_assoc, List.singleton_append]⟩
  obtain ⟨between, rfl⟩ := List.prefix_of_prefix_length_le start (List.prefix_append _ _) (by
    rw [List.length_append, List.length_singleton]
    omega)
  rw [extent_append, extent_append, extent_cons, extent_nil] at sum
  omega

/-- A character stands at one place only. -/
theorem Stands.unique {text : List Char} {index : Nat} {place other : Nat × Nat}
    (stands : Stands text index place) (again : Stands text index other) : place = other := by
  have line : place.1 = other.1 := Nat.le_antisymm (stands.line_le again) (again.line_le stands)
  obtain ⟨earlier, held, later, cut, row, _, _, sum, _⟩ := stands
  obtain ⟨others, found, following, divided, number, _, _, total, _⟩ := again
  have same : earlier = others := by
    refine List.append_inj_left (cut.symm.trans divided) ?_
    omega
  rw [same] at sum
  exact Prod.ext line (by omega)

/-- A character stands at the place behind the characters before it, and at no other. -/
theorem stands_iff {text : List Char} (plain : '\r' ∉ text) {index : Nat}
    (inside : index < text.length) (place : Nat × Nat) :
    Stands text index place ↔ place = placeBehind isLineBoundary (text.take index) := by
  have stands := stands_placeBehind plain inside
  constructor
  · intro elsewhere
    exact elsewhere.unique stands
  · rintro rfl
    exact stands

/-- Normalised line ends leave no carriage return. -/
theorem return_not_mem_normaliseLineEnds (text : List Char) : '\r' ∉ normaliseLineEnds text := by
  induction text using normaliseLineEnds.induct with
  | case1 => simp [normaliseLineEnds]
  | case2 rest inductionHypothesis => simp [normaliseLineEnds, inductionHypothesis]
  | case3 c rest _ inductionHypothesis =>
    rw [normaliseLineEnds]
    · by_cases back : c = '\r'
      · simp [back, inductionHypothesis]
      · simp [back, Ne.symm back, inductionHypothesis]
    · assumption

/-- No lines are the lines of nothing. -/
theorem lines_eq_nil_iff {text : List Char} : lines text = [] ↔ text = [] := by
  cases text with
  | nil => exact iff_of_true rfl rfl
  | cons c rest =>
    refine iff_of_false ?_ (List.cons_ne_nil c rest)
    rw [lines.eq_def]
    split
    · contradiction
    · exact List.cons_ne_nil _ _
    · split
      · exact List.cons_ne_nil _ _
      · split <;> exact List.cons_ne_nil _ _

/-- A boundary ends an empty line, whatever follows behind the text. -/
theorem lines_boundary_append {c d : Char} {more : List Char}
    (apart : ∀ others, c = '\r' → d :: more = '\n' :: others → False) (ends : isLineBoundary c = true)
    (rest : List Char) : lines (c :: d :: more ++ rest) = [] :: lines (d :: more ++ rest) := by
  refine lines_boundary_of_apart ?_ ends
  rintro others rfl same
  obtain ⟨rfl, _⟩ := List.cons.inj same
  exact apart more rfl rfl

/-- The last line of a text that does not end in a boundary goes on with the first line behind it. The
induction is on the lines. -/
theorem lines_append_of_open {text rest first : List Char} {after : List (List Char)}
    (filled : text ≠ []) (ending : ∀ c ∈ text.getLast?, isLineBoundary c = false)
    (behind : lines rest = first :: after) :
    ∃ before last, lines text = before ++ [last] ∧
      lines (text ++ rest) = before ++ (last ++ first) :: after := by
  induction text using lines.induct with
  | case1 => exact absurd rfl filled
  | case2 more inductionHypothesis =>
    cases more with
    | nil => exact absurd (ending '\n' rfl) (by decide)
    | cons c more =>
      obtain ⟨before, last, cut, whole⟩ := inductionHypothesis (List.cons_ne_nil c more) ending
      refine ⟨[] :: before, last, ?_, ?_⟩
      · rw [lines_return_feed, cut]
        rfl
      · rw [List.cons_append, List.cons_append, lines_return_feed, whole]
        rfl
  | case3 c more apart ends inductionHypothesis =>
    cases more with
    | nil => exact absurd (ending c rfl) (by simp [ends])
    | cons d more =>
      obtain ⟨before, last, cut, whole⟩ := inductionHypothesis (List.cons_ne_nil d more) ending
      refine ⟨[] :: before, last, ?_, ?_⟩
      · rw [lines_boundary_of_apart apart ends, cut]
        rfl
      · rw [lines_boundary_append apart ends, whole]
        rfl
  | case4 c more apart within none =>
    obtain rfl := lines_eq_nil_iff.mp none
    refine ⟨[], [c], ?_, ?_⟩
    · rw [lines_within (Bool.eq_false_iff.mpr within), none]
      rfl
    · rw [List.singleton_append, lines_within (Bool.eq_false_iff.mpr within), behind]
      rfl
  | case5 c more apart within piece pieces some inductionHypothesis =>
    have going : more ≠ [] := by
      rintro rfl
      cases some
    obtain ⟨before, last, cut, whole⟩ := inductionHypothesis going (by
      obtain ⟨d, others, rfl⟩ := List.exists_cons_of_ne_nil going
      exact ending)
    rw [List.cons_append, lines_within (Bool.eq_false_iff.mpr within),
      lines_within (Bool.eq_false_iff.mpr within), cut, whole]
    cases before with
    | nil => exact ⟨[], c :: last, rfl, rfl⟩
    | cons line before => exact ⟨(c :: line) :: before, last, rfl, rfl⟩

/-- Behind a boundary the lines of a text are followed by those behind it. Only a line feed behind a
carriage return is no line of its own. -/
theorem lines_append_of_closed {text rest : List Char}
    (ending : ∀ c ∈ text.getLast?, isLineBoundary c = true) :
    ∃ behind, (rest = behind ∨ rest = '\n' :: behind) ∧
      lines (text ++ rest) = lines text ++ lines behind := by
  induction text using lines.induct with
  | case1 => exact ⟨rest, .inl rfl, rfl⟩
  | case2 more inductionHypothesis =>
    cases more with
    | nil => exact ⟨rest, .inl rfl, lines_return_feed rest⟩
    | cons c more =>
      obtain ⟨behind, gap, whole⟩ := inductionHypothesis ending
      refine ⟨behind, gap, ?_⟩
      rw [List.cons_append, List.cons_append, lines_return_feed, lines_return_feed, whole]
      rfl
  | case3 c more apart ends inductionHypothesis =>
    cases more with
    | nil =>
      by_cases half : ∃ behind, c = '\r' ∧ rest = '\n' :: behind
      · obtain ⟨behind, rfl, rfl⟩ := half
        exact ⟨behind, .inr rfl, lines_return_feed behind⟩
      · have whole : ∀ more, c = '\r' → rest = '\n' :: more → False :=
          fun more first second => half ⟨more, first, second⟩
        refine ⟨rest, .inl rfl, ?_⟩
        rw [List.singleton_append, lines_boundary_of_apart whole ends, lines_boundary_of_apart apart ends]
        rfl
    | cons d more =>
      obtain ⟨behind, gap, whole⟩ := inductionHypothesis ending
      refine ⟨behind, gap, ?_⟩
      rw [lines_boundary_append apart ends, lines_boundary_of_apart apart ends, whole]
      rfl
  | case4 c more apart within none =>
    obtain rfl := lines_eq_nil_iff.mp none
    exact absurd (ending c rfl) within
  | case5 c more apart within piece pieces some inductionHypothesis =>
    have going : more ≠ [] := by
      rintro rfl
      cases some
    obtain ⟨behind, gap, whole⟩ := inductionHypothesis (by
      obtain ⟨d, others, rfl⟩ := List.exists_cons_of_ne_nil going
      exact ending)
    refine ⟨behind, gap, ?_⟩
    rw [List.cons_append, lines_within (Bool.eq_false_iff.mpr within),
      lines_within (Bool.eq_false_iff.mpr within), whole, some]
    rfl

end Conformance.Text
