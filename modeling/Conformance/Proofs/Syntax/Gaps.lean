import Conformance.Syntax.Rule
import Mathlib.Data.List.TakeWhile
import Mathlib.Tactic.Common

/-!
# Gaps before tokens

Blanks and comments lead from a place in a text to the next token. Where they lead depends on the text
alone, and they end where no blank or comment begins, so there is one such place. A text of whole lines
leads to the same token whatever is behind it, unless it has no token of its own, or a block comment is
left open in it.
-/

namespace Conformance.Syntax

open Text

/-- How many characters the comment has that begins a text. -/
def commentLength? : List Char → Option Nat
  | '/' :: '/' :: rest => some (2 + (rest.takeWhile fun c => !endsLineComment c).length)
  | '/' :: '*' :: rest => (blockCommentLength? rest).map (2 + ·)
  | _ => none

/-- Blanks and comments lead from a text to a later part of it. -/
inductive Skips : List Char → List Char → Prop where
  | nothing (text : List Char) : Skips text text
  | blank {c : Char} {rest stop : List Char} (blank : isGap c = true) (onward : Skips rest stop) :
      Skips (c :: rest) stop
  | comment {text stop : List Char} {count : Nat} (found : commentLength? text = some count)
      (onward : Skips (text.drop count) stop) : Skips text stop

/-- A text that ends, or begins with a token: no blank and no comment begins it. -/
structure NoGap (text : List Char) : Prop where
  visible : ∀ c ∈ text.head?, isGap c = false
  plain : commentLength? text = none

/-- A text of whole lines. -/
def Ended (text : List Char) : Prop := ∀ c ∈ text.getLast?, c = '\n'

/-- The character that the first token of a text begins with. -/
def firstCharacter? (text : List Char) : Option Char := (nextToken (Cursor.ofText text)).peek?

/-! The comment that begins a text. -/

/-- A comment begins with a stroke. -/
theorem commentLength?_cons_of_ne {c : Char} (other : c ≠ '/') (rest : List Char) :
    commentLength? (c :: rest) = none := by
  unfold commentLength?
  split
  · next same =>
    exact absurd (List.cons.inj same).1 other
  · next same =>
    exact absurd (List.cons.inj same).1 other
  · rfl

/-- A comment has its opening mark. -/
theorem two_le_of_commentLength? {text : List Char} {count : Nat} (found : commentLength? text = some count) :
    2 ≤ count := by
  unfold commentLength? at found
  split at found
  · cases found
    exact Nat.le_add_right _ _
  · obtain ⟨inner, _, rfl⟩ := Option.map_eq_some_iff.mp found
    exact Nat.le_add_right _ _
  · cases found

/-- A blank does not begin a comment. -/
theorem isGap_of_commentLength? {c : Char} {rest : List Char} {count : Nat}
    (found : commentLength? (c :: rest) = some count) : isGap c = false := by
  by_cases stroke : c = '/'
  · rw [stroke]
    decide
  · rw [commentLength?_cons_of_ne stroke] at found
    cases found

/-- A block comment that is closed is closed whatever is behind it. -/
theorem blockCommentLength?_append {text : List Char} {count : Nat}
    (found : blockCommentLength? text = some count) (more : List Char) :
    blockCommentLength? (text ++ more) = some count ∧ count ≤ text.length := by
  induction text using blockCommentLength?.induct generalizing count with
  | case1 => cases found
  | case2 rest =>
    cases found
    exact ⟨rfl, by simp⟩
  | case3 c rest other inductionHypothesis =>
    rw [blockCommentLength?, Option.map_eq_some_iff] at found
    · obtain ⟨inner, found, rfl⟩ := found
      obtain ⟨same, within⟩ := inductionHypothesis found
      have behind : ∀ tail, c = '*' → rest ++ more = '/' :: tail → False := by
        intro tail star begins
        cases rest with
        | nil => cases found
        | cons d rest =>
          obtain ⟨rfl, _⟩ := List.cons.inj begins
          exact other rest star rfl
      rw [List.cons_append, blockCommentLength?, same]
      · exact ⟨rfl, Nat.succ_le_succ within⟩
      · exact behind
    · exact other

/-- A block comment that is left open in whole lines is closed where what is behind them closes it. -/
theorem blockCommentLength?_append_of_open {text : List Char} (left : blockCommentLength? text = none)
    (ended : text.getLast? = some '\n') (more : List Char) :
    blockCommentLength? (text ++ more) = (blockCommentLength? more).map (· + text.length) := by
  induction text using blockCommentLength?.induct with
  | case1 => cases ended
  | case2 rest => cases left
  | case3 c rest other inductionHypothesis =>
    rw [blockCommentLength?, Option.map_eq_none_iff] at left
    · have behind : ∀ tail, c = '*' → rest ++ more = '/' :: tail → False := by
        intro tail star begins
        cases rest with
        | nil =>
          rw [star] at ended
          exact absurd ended (by decide)
        | cons d rest =>
          obtain ⟨rfl, _⟩ := List.cons.inj begins
          exact other rest star rfl
      have onward :
          blockCommentLength? (rest ++ more) = (blockCommentLength? more).map (· + rest.length) := by
        cases rest with
        | nil => simp
        | cons d rest =>
          rw [List.getLast?_cons_cons] at ended
          exact inductionHypothesis left ended
      rw [List.cons_append, blockCommentLength?, onward, Option.map_map]
      · rfl
      · exact behind
    · exact other

namespace Ended

variable {text : List Char}

/-- A text of whole lines that is not empty ends with a line feed. -/
theorem getLast? (ended : Ended text) (filled : text ≠ []) : text.getLast? = some '\n' := by
  obtain ⟨c, last⟩ := Option.isSome_iff_exists.mp (List.getLast?_isSome.mpr filled)
  rw [last, ended c last]

/-- The rest of whole lines is one of whole lines. -/
theorem drop (ended : Ended text) (count : Nat) : Ended (text.drop count) := by
  intro c last
  rw [List.getLast?_drop] at last
  split at last
  · cases last
  · exact ended c last

/-- The rest of whole lines behind a character. -/
theorem tail {c : Char} (ended : Ended (c :: text)) : Ended text := ended.drop 1

/-- Behind a character that is no line feed whole lines go on. -/
theorem exists_cons {c : Char} (ended : Ended (c :: text)) (other : c ≠ '\n') :
    ∃ d rest, text = d :: rest := by
  cases text with
  | nil => exact absurd (ended c rfl) other
  | cons d rest => exact ⟨d, rest, rfl⟩

end Ended

/-- A comment in whole lines is the same whatever is behind them. -/
theorem commentLength?_append {text : List Char} {count : Nat} (found : commentLength? text = some count)
    (ended : Ended text) (more : List Char) :
    commentLength? (text ++ more) = some count ∧ count ≤ text.length := by
  unfold commentLength? at found
  split at found
  · next rest =>
    cases found
    obtain ⟨d, others, rfl⟩ := ended.tail.exists_cons (by decide)
    have feed := List.mem_of_getLast? (ended.tail.tail.getLast? (List.cons_ne_nil d others))
    have stops : (d :: others).takeWhile (fun c => !endsLineComment c) ≠ d :: others := by
      intro whole
      exact absurd (List.takeWhile_eq_self_iff.mp whole '\n' feed) (by decide)
    have shorter := (List.takeWhile_prefix (fun c => !endsLineComment c) (l := d :: others)).length_le
    have unlike : ((d :: others).takeWhile fun c => !endsLineComment c).length ≠ (d :: others).length :=
      fun same => stops ((List.takeWhile_prefix _).eq_of_length same)
    constructor
    · rw [List.cons_append, List.cons_append, commentLength?, List.takeWhile_append, if_neg unlike]
    · simp only [List.length_cons] at shorter ⊢
      omega
  · next rest =>
    obtain ⟨inner, closed, rfl⟩ := Option.map_eq_some_iff.mp found
    obtain ⟨same, within⟩ := blockCommentLength?_append closed more
    constructor
    · rw [List.cons_append, List.cons_append, commentLength?, same]
      rfl
    · simp only [List.length_cons]
      omega
  · cases found

/-! Where a gap leads. -/

namespace Skips

variable {text next stop other more : List Char}

/-- Blanks and comments behind blanks and comments. -/
theorem trans (first : Skips text next) (second : Skips next stop) : Skips text stop := by
  induction first with
  | nothing => exact second
  | blank blank _ inductionHypothesis => exact .blank blank (inductionHypothesis second)
  | comment found _ inductionHypothesis => exact .comment found (inductionHypothesis second)

/-- There is one place where a gap ends. -/
theorem unique (first : Skips text stop) (ends : NoGap stop) (second : Skips text other) (too : NoGap other) :
    stop = other := by
  induction first with
  | nothing text =>
    cases second with
    | nothing => rfl
    | blank blank => exact absurd (ends.visible _ rfl) (by rw [blank]; decide)
    | comment found => exact absurd (ends.plain.symm.trans found) nofun
  | blank blank _ inductionHypothesis =>
    cases second with
    | nothing => exact absurd (too.visible _ rfl) (by rw [blank]; decide)
    | blank _ onward => exact inductionHypothesis ends onward
    | comment found => exact absurd (isGap_of_commentLength? found) (by rw [blank]; decide)
  | comment found _ inductionHypothesis =>
    cases second with
    | nothing => exact absurd (too.plain.symm.trans found) nofun
    | blank blank => exact absurd (isGap_of_commentLength? found) (by rw [blank]; decide)
    | comment again onward =>
      cases found.symm.trans again
      exact inductionHypothesis ends onward

/-- What whole lines lead to is whole lines. -/
theorem ended (skips : Skips text stop) (ended : Ended text) : Ended stop := by
  induction skips with
  | nothing => exact ended
  | blank _ _ inductionHypothesis => exact inductionHypothesis ended.tail
  | comment _ _ inductionHypothesis => exact inductionHypothesis (ended.drop _)

/-- Whole lines lead to the same whatever is behind them. -/
theorem append (skips : Skips text stop) (ended : Ended text) (more : List Char) :
    Skips (text ++ more) (stop ++ more) := by
  induction skips with
  | nothing => exact .nothing _
  | blank blank _ inductionHypothesis => exact .blank blank (inductionHypothesis ended.tail)
  | comment found _ inductionHypothesis =>
    obtain ⟨same, within⟩ := commentLength?_append found ended more
    refine .comment same ?_
    rw [List.drop_append_of_le_length within]
    exact inductionHypothesis (ended.drop _)

end Skips

/-- Whole lines that begin with a token begin with it whatever is behind them, unless they open a block
comment and leave it open. -/
theorem NoGap.append_or {text : List Char} (begins : NoGap text) (ended : Ended text) (filled : text ≠ []) :
    (∀ more, NoGap (text ++ more)) ∨
      ∃ inner, text = '/' :: '*' :: inner ∧ blockCommentLength? inner = none ∧
        inner.getLast? = some '\n' := by
  obtain ⟨c, rest, rfl⟩ := List.exists_cons_of_ne_nil filled
  by_cases stroke : c = '/'
  · subst stroke
    obtain ⟨d, others, rfl⟩ := ended.exists_cons (by decide)
    have notStroke : d ≠ '/' := by
      rintro rfl
      cases begins.plain
    by_cases star : d = '*'
    · subst star
      obtain ⟨e, inner, rfl⟩ := ended.tail.exists_cons (by decide)
      exact .inr ⟨e :: inner, rfl, Option.map_eq_none_iff.mp begins.plain,
        ended.tail.tail.getLast? (List.cons_ne_nil e inner)⟩
    · refine .inl fun more => ⟨begins.visible, ?_⟩
      rw [List.cons_append, List.cons_append, commentLength?]
      · exact fun _ same => notStroke (List.cons.inj (List.cons.inj same).2).1
      · exact fun _ same => star (List.cons.inj (List.cons.inj same).2).1
  · exact .inl fun more => ⟨begins.visible, commentLength?_cons_of_ne stroke _⟩

/-- Blanks lead to what is behind them. -/
theorem skips_dropWhile (text : List Char) : Skips text (text.dropWhile isGap) := by
  induction text with
  | nil => exact .nothing _
  | cons c rest inductionHypothesis =>
    rw [List.dropWhile_cons]
    split
    · next blank => exact .blank blank inductionHypothesis
    · exact .nothing _

/-! The reader's places. -/

namespace Cursor

variable {cursor : Cursor}

/-- The number of characters left is that of the rest. -/
def Whole (cursor : Cursor) : Prop := cursor.left = cursor.rest.length

theorem whole_ofText (text : List Char) : (ofText text).Whole := rfl

/-- The place behind the next character. -/
theorem Whole.step (whole : cursor.Whole) {c : Char} {rest : List Char} (ahead : cursor.rest = c :: rest) :
    (cursor.step c rest).Whole := by
  rw [Whole, ahead] at whole
  exact congrArg (· - 1) whole

/-- The place some characters ahead. -/
theorem Whole.advance (whole : cursor.Whole) (count : Nat) : (cursor.advance count).Whole := by
  induction count generalizing cursor with
  | zero => exact whole
  | succ count inductionHypothesis =>
    unfold Cursor.advance
    split
    · exact whole
    · next c rest ahead => exact inductionHypothesis (whole.step ahead)

/-- What is left some characters ahead. -/
theorem rest_advance (cursor : Cursor) (count : Nat) :
    (cursor.advance count).rest = cursor.rest.drop count := by
  induction count generalizing cursor with
  | zero => rfl
  | succ count inductionHypothesis =>
    unfold advance
    split
    · next ahead => rw [ahead, List.drop_nil]
    · next c rest ahead => rw [inductionHypothesis, ahead, step, List.drop_succ_cons]

/-- What is left behind a run of characters. -/
theorem rest_skipWhile (test : Char → Bool) (cursor : Cursor) :
    (cursor.skipWhile test).rest = cursor.rest.dropWhile test := by
  rw [skipWhile, rest_advance]
  nth_rewrite 2 [← List.takeWhile_append_dropWhile (p := test) (l := cursor.rest)]
  rw [List.drop_left]

end Cursor

/-- A comment ends as many characters ahead as it has. -/
theorem commentEnd?_eq (cursor : Cursor) :
    commentEnd? cursor = (commentLength? cursor.rest).map fun count => cursor.advance count := by
  unfold commentEnd?
  split
  · next ahead =>
    rw [ahead]
    rfl
  · next ahead =>
    rw [ahead, commentLength?, Option.map_map]
    rfl
  · next line block =>
    rw [commentLength?]
    · rfl
    · exact line
    · exact block

/-- What is read in a gap are comments, each as a leaf. -/
theorem exists_of_mem_gapFrom {bound : Nat} {cursor : Cursor} {node : Node} (member : node ∈ (gapFrom bound cursor).1) :
    ∃ start stop, node = leaf (.construct .comment) start stop := by
  induction bound generalizing cursor with
  | zero => cases member
  | succ bound inductionHypothesis =>
    unfold gapFrom at member
    split at member
    · cases member
    · split at member
      · exact inductionHypothesis member
      · split at member
        · split at member
          · rcases List.mem_cons.mp member with rfl | member
            · exact ⟨_, _, rfl⟩
            · exact inductionHypothesis member
          · cases member
        · cases member

/-- What is read in a gap are comments. -/
theorem isComment_of_mem_gapFrom {bound : Nat} {cursor : Cursor} :
    ∀ node ∈ (gapFrom bound cursor).1, Rule.isComment node = true := by
  intro node member
  obtain ⟨_, _, rfl⟩ := exists_of_mem_gapFrom member
  rfl

/-- Blanks and comments are passed, as far as the bound allows. -/
theorem skips_gapFrom (bound : Nat) (cursor : Cursor) : Skips cursor.rest (gapFrom bound cursor).2.rest := by
  induction bound generalizing cursor with
  | zero => exact .nothing _
  | succ bound inductionHypothesis =>
    unfold gapFrom
    split
    · exact .nothing _
    · next c rest ahead =>
      split
      · next blank =>
        rw [ahead]
        exact .blank blank (inductionHypothesis (cursor.step c rest))
      · split
        · split
          · next stop ends =>
            rw [commentEnd?_eq, Option.map_eq_some_iff] at ends
            obtain ⟨count, found, rfl⟩ := ends
            have onward := inductionHypothesis (cursor.advance count)
            rw [Cursor.rest_advance] at onward
            exact .comment found onward
          · exact .nothing _
        · exact .nothing _

/-- With a bound for all characters, all blanks and comments are passed. -/
theorem noGap_gapFrom {bound : Nat} {cursor : Cursor} (enough : cursor.rest.length ≤ bound) :
    NoGap (gapFrom bound cursor).2.rest := by
  induction bound generalizing cursor with
  | zero =>
    have empty : cursor.rest = [] := List.length_eq_zero_iff.mp (Nat.le_zero.mp enough)
    rw [gapFrom, empty]
    exact ⟨nofun, rfl⟩
  | succ bound inductionHypothesis =>
    unfold gapFrom
    split
    · next ahead =>
      rw [ahead]
      exact ⟨nofun, rfl⟩
    · next c rest ahead =>
      have visible : isGap c = false → ∀ d ∈ cursor.rest.head?, isGap d = false := by
        rintro shown d member
        rw [ahead] at member
        cases member
        exact shown
      split
      · refine inductionHypothesis ?_
        rw [ahead, List.length_cons] at enough
        exact Nat.le_of_succ_le_succ enough
      · next shown =>
        rw [Bool.not_eq_true] at shown
        split
        · split
          · next stop ends =>
            rw [commentEnd?_eq, Option.map_eq_some_iff] at ends
            obtain ⟨count, found, rfl⟩ := ends
            have passes := two_le_of_commentLength? found
            apply inductionHypothesis
            rw [Cursor.rest_advance, List.length_drop]
            omega
          · next ends =>
            rw [commentEnd?_eq, Option.map_eq_none_iff] at ends
            exact ⟨visible shown, ends⟩
        · next other =>
          refine ⟨visible shown, ?_⟩
          rw [ahead]
          exact commentLength?_cons_of_ne other rest

/-- A gap is passed without losing count. -/
theorem whole_gapFrom {bound : Nat} {cursor : Cursor} (whole : cursor.Whole) :
    (gapFrom bound cursor).2.Whole := by
  induction bound generalizing cursor with
  | zero => exact whole
  | succ bound inductionHypothesis =>
    unfold gapFrom
    split
    · exact whole
    · next c rest ahead =>
      split
      · exact inductionHypothesis (whole.step ahead)
      · split
        · split
          · next stop ends =>
            rw [commentEnd?_eq, Option.map_eq_some_iff] at ends
            obtain ⟨count, _, rfl⟩ := ends
            exact inductionHypothesis (whole.advance count)
          · exact whole
        · exact whole

namespace Cursor.Whole

variable {cursor : Cursor} {stop : List Char}

/-- The place of the next token. -/
theorem nextToken (whole : cursor.Whole) : (Syntax.nextToken cursor).Whole := whole_gapFrom whole

/-- The next token is where blanks and comments lead. -/
theorem rest_nextToken_iff (whole : cursor.Whole) :
    (Syntax.nextToken cursor).rest = stop ↔ Skips cursor.rest stop ∧ NoGap stop := by
  have ends : NoGap (Syntax.nextToken cursor).rest := noGap_gapFrom (Nat.le_of_eq (Eq.symm whole))
  have leads : Skips cursor.rest (Syntax.nextToken cursor).rest := skips_gapFrom cursor.left cursor
  constructor
  · rintro rfl
    exact ⟨leads, ends⟩
  · rintro ⟨skips, noGap⟩
    exact leads.unique ends skips noGap

/-- Blanks at the beginning are part of the gap. -/
theorem rest_nextToken_skipWhile (whole : cursor.Whole) :
    (Syntax.nextToken (cursor.skipWhile isGap)).rest = (Syntax.nextToken cursor).rest := by
  obtain ⟨leads, ends⟩ := (whole.advance (cursor.rest.takeWhile isGap).length).rest_nextToken_iff.mp rfl
  refine (whole.rest_nextToken_iff.mpr ⟨.trans ?_ leads, ends⟩).symm
  rw [← Cursor.skipWhile, Cursor.rest_skipWhile]
  exact skips_dropWhile cursor.rest

end Cursor.Whole

/-! Texts in whole lines. -/

section Lines

variable {front inserted more back : List Char}

/-- Whole lines without a token lead to the token behind them. -/
theorem skips_of_firstCharacter?_eq_none (only : firstCharacter? front = none) (ended : Ended front)
    (more : List Char) : Skips (front ++ more) more := by
  have empty : (nextToken (Cursor.ofText front)).rest = [] := List.head?_eq_none_iff.mp only
  exact ((Cursor.whole_ofText front).rest_nextToken_iff.mp empty).1.append ended more

/-- The text of a first character. -/
theorem firstCharacter?_eq {text stop : List Char} (skips : Skips text stop) (ends : NoGap stop) :
    firstCharacter? text = stop.head? :=
  congrArg List.head? ((Cursor.whole_ofText text).rest_nextToken_iff.mpr ⟨skips, ends⟩)

/-- Where blanks and comments lead there is the first token. -/
theorem firstCharacter?_of_skips {text stop : List Char} (skips : Skips text stop) :
    firstCharacter? text = firstCharacter? stop := by
  obtain ⟨leads, ends⟩ := (Cursor.whole_ofText stop).rest_nextToken_iff.mp rfl
  exact firstCharacter?_eq (skips.trans leads) ends

/-- Whole lines that are inserted behind a token, or behind a block comment that is left open and that they
do not close, do not change the first token. -/
theorem firstCharacter?_insert (filled : firstCharacter? front ≠ none) (ended : Ended front)
    (left : blockCommentLength? inserted = none) (whole : inserted.getLast? = some '\n') (back : List Char) :
    firstCharacter? (front ++ (inserted ++ back)) = firstCharacter? (front ++ back) := by
  have token : (nextToken (Cursor.ofText front)).rest ≠ [] := fun empty => filled (congrArg List.head? empty)
  obtain ⟨leads, ends⟩ := (Cursor.whole_ofText front).rest_nextToken_iff.mp rfl
  change Skips front _ at leads
  rw [firstCharacter?_of_skips (leads.append ended (inserted ++ back)),
    firstCharacter?_of_skips (leads.append ended back)]
  rcases ends.append_or (leads.ended ended) token with begins | ⟨inner, same, opened, last⟩
  · rw [firstCharacter?_eq (.nothing _) (begins _), firstCharacter?_eq (.nothing _) (begins _),
      List.head?_append, Option.or_of_isSome (List.isSome_head?.mpr token), List.head?_append,
      Option.or_of_isSome (List.isSome_head?.mpr token)]
  · rw [same]
    have length (more : List Char) : commentLength? ('/' :: '*' :: inner ++ more) =
        (blockCommentLength? more).map fun count => 2 + (count + inner.length) := by
      rw [List.cons_append, List.cons_append, commentLength?, blockCommentLength?_append_of_open opened last,
        Option.map_map]
      rfl
    have onward (count : Nat) (more : List Char) :
        ('/' :: '*' :: inner ++ more).drop (2 + (count + inner.length)) = more.drop count := by
      have size : 2 + (count + inner.length) = ('/' :: '*' :: inner).length + count := by
        simp only [List.length_cons]
        omega
      rw [size, ← List.drop_drop, List.drop_left]
    have behind := length back
    have further := length (inserted ++ back)
    rw [blockCommentLength?_append_of_open left whole, Option.map_map] at further
    cases closes : blockCommentLength? back with
    | none =>
      rw [closes] at behind further
      have visible (more : List Char) : ∀ c ∈ ('/' :: '*' :: inner ++ more).head?, isGap c = false := by
        rintro c ⟨⟩
        decide
      rw [firstCharacter?_eq (.nothing _) ⟨visible _, behind⟩,
        firstCharacter?_eq (.nothing _) ⟨visible _, further⟩]
      rfl
    | some count =>
      rw [closes] at behind further
      rw [firstCharacter?_of_skips (.comment behind (.nothing _)),
        firstCharacter?_of_skips (.comment further (.nothing _))]
      dsimp only [Function.comp_apply]
      rw [onward, onward, Nat.add_comm, ← List.drop_drop, List.drop_left]

end Lines

end Conformance.Syntax
