import Conformance.Fix.Changes
import Conformance.Proofs.Fix.MergedHeads
import Conformance.Proofs.Fix.ReturnTypePatterns

/-!
# The heads that get return types

A text with return types is the text itself with return types at some heads in it. Behind each of these heads
stands a body that does not mention returning up to its first closing brace. A head counts as asynchronous
exactly if the letters of that word stand in front of it with blanks behind them: in front of the word for a
function, or in front of the parameters of an arrow function.
-/

namespace Conformance.Fix

open Text Regex Pattern

variable {text before behind inner rest front : List Char} {head : Head} {segments second : List Segment}

/-- The word for returning. -/
def returnWord : List Char := "return".toList

/-- A text mentions returning if the letters of the word stand in it. -/
theorem mentionsReturn_iff : mentionsReturn text = true ↔ returnWord <:+: text := occursIn_iff

/-- A body that does not mention returning up to its first closing brace. -/
structure QuietBody (text inner rest : List Char) : Prop where
  split : text = '\x7b' :: (inner ++ '\x7d' :: rest)
  closes : '\x7d' ∉ inner
  quiet : ¬ returnWord <:+: inner

/-- A text with the word for asynchronous and blanks at its end. -/
def EndsAsync (text : List Char) : Prop :=
  ∃ (before : List Char) (gap : Gap), text = before ++ ("async".toList ++ gap.val)

/-- What is written of a head where the word for asynchronous may end. -/
def Head.lead : Head → List Char
  | function async .. => asyncText async
  | arrow afterWord name afterName afterSign async .. =>
    "const".toList ++ (afterWord.val ++ (name.val ++ (afterName.val ++ '=' :: (afterSign.val ++ asyncText async))))

/-! One pass. -/

/-- Heads stand behind characters that are no heads. -/
theorem split_behind_plain {back : List Segment} {front : List Segment}
    (same : text.map .plain ++ segments = front ++ .head head :: back) :
    ∃ later, front = text.map .plain ++ later ∧ segments = later ++ .head head :: back := by
  induction text generalizing front with
  | nil => exact ⟨front, rfl, same⟩
  | cons c text inductionHypothesis =>
    cases front with
    | nil => cases same
    | cons segment front =>
      obtain ⟨rfl, further⟩ := List.cons.inj same
      obtain ⟨later, rfl, split⟩ := inductionHypothesis further
      exact ⟨later, rfl, split⟩

/-- The heads that a pass over a text finds, with the match that each of them comes from. -/
structure Pass (replacement : Match → List Char) (isArrow : Bool) (stretches : List Stretch)
    (segments : List Segment) : Prop where
  bare : bareText segments = textOf stretches
  typed : typedText segments = stretches.flatMap (Stretch.replaced replacement)
  kind : ∀ one, .head one ∈ segments → one.isArrow = isArrow
  behind : ∀ front head back, segments = front ++ .head head :: back →
    (∃ inner rest, QuietBody (bareText back) inner rest) ∧ ∃ earlier found later tail,
      stretches = earlier ++ .taken found :: later ∧ textOf earlier = bareText front ∧
        found.text = head.bare ++ tail
  complete : ∀ found, .taken found ∈ stretches → mentionsReturn (groupText found 4) = false →
    ∃ one, .head one ∈ segments

variable {replacement : Match → List Char} {isArrow : Bool} {stretches : List Stretch}

/-- A pass over characters that stay, and then over more. -/
theorem Pass.kept {stretch : Stretch} (text : List Char) (onward : Pass replacement isArrow stretches segments)
    (same : stretch.text = text) (stays : stretch.replaced replacement = text)
    (mentioned : ∀ found, stretch = .taken found → mentionsReturn (groupText found 4) = true) :
    Pass replacement isArrow (stretch :: stretches) (text.map .plain ++ segments) := by
  refine ⟨?_, ?_, ?_, ?_, ?_⟩
  · rw [bareText_append, bareText_map_plain, onward.bare, textOf_cons, same]
  · rw [typedText_append, typedText_map_plain, onward.typed, List.flatMap_cons, stays]
  · intro one member
    rcases List.mem_append.mp member with plain | later
    · obtain ⟨_, _, same⟩ := List.mem_map.mp plain
      cases same
    · exact onward.kind one later
  · intro front head back split
    obtain ⟨front, rfl, rest⟩ := split_behind_plain split
    obtain ⟨body, earlier, found, later, tail, rfl, front_, begins⟩ := onward.behind front head back rest
    refine ⟨body, stretch :: earlier, found, later, tail, rfl, ?_, begins⟩
    rw [textOf_cons, same, front_, bareText_append, bareText_map_plain]
  · intro found member quiet
    rcases List.mem_cons.mp member with here | later
    · rw [mentioned found here.symm] at quiet
      cases quiet
    · obtain ⟨one, member⟩ := onward.complete found later quiet
      exact ⟨one, List.mem_append_right _ member⟩

/-- A pass over a head that gets its return type, and then over more. -/
theorem Pass.changed {found : Match} {body : List Char} (onward : Pass replacement isArrow stretches segments)
    (function : IsFunction isArrow replacement found head body) (quiet : mentionsReturn body = false) :
    Pass replacement isArrow (.taken found :: stretches)
      (.head head :: (('\x7b' :: (body ++ ['\x7d'])).map .plain ++ segments)) := by
  refine ⟨?_, ?_, ?_, ?_, fun _ _ _ => ⟨head, List.mem_cons_self⟩⟩
  · rw [bareText_head, bareText_append, bareText_map_plain, onward.bare, textOf_cons, Stretch.text, function.text,
      List.append_assoc]
  · rw [typedText_head, typedText_append, typedText_map_plain, onward.typed, List.flatMap_cons, Stretch.replaced,
      function.replaced, quiet, if_neg Bool.false_ne_true, List.append_assoc]
  · intro one member
    rcases List.mem_cons.mp member with same | member
    · cases same
      exact function.kind
    · rcases List.mem_append.mp member with plain | later
      · obtain ⟨_, _, same⟩ := List.mem_map.mp plain
        cases same
      · exact onward.kind one later
  · intro front one back split
    cases front with
    | nil =>
      obtain ⟨same, rfl⟩ := List.cons.inj split
      cases same
      refine ⟨⟨body, bareText segments, ?_, function.closes, ?_⟩, [], found, stretches, _, rfl, rfl, function.text⟩
      · rw [bareText_append, bareText_map_plain, List.cons_append, List.append_assoc]
        rfl
      · rw [← mentionsReturn_iff, quiet]
        exact Bool.false_ne_true
    | cons segment front =>
      obtain ⟨rfl, further⟩ := List.cons.inj split
      obtain ⟨front, rfl, rest⟩ := split_behind_plain further
      obtain ⟨body_, earlier, found_, later, tail, rfl, front_, begins⟩ := onward.behind front one back rest
      refine ⟨body_, .taken found :: earlier, found_, later, tail, rfl, ?_, begins⟩
      rw [textOf_cons, Stretch.text, front_, function.text, bareText_head, bareText_append, bareText_map_plain,
        List.append_assoc]

variable {pattern : Pattern}

/-- A pattern finds functions of one kind, and nothing else. -/
def FindsFunctions (pattern : Pattern) (isArrow : Bool) (replacement : Match → List Char) : Prop :=
  ∀ {place : Place} {found : Match} {front rest : List Char},
    FoundAt pattern.ignoreCase pattern.regex place found front rest →
      ∃ head body, IsFunction isArrow replacement found head body

/-- The heads of a text that has been searched through. The induction is on the search. -/
theorem exists_pass (finds : FindsFunctions pattern isArrow replacement) {place : Place}
    (sweep : Sweep pattern.ignoreCase pattern.regex place stretches) :
    ∃ segments, Pass replacement isArrow stretches segments := by
  induction sweep with
  | ended _ =>
    refine ⟨[], rfl, rfl, fun _ member => absurd member List.not_mem_nil, fun front head back split => ?_,
      fun _ member => absurd member List.not_mem_nil⟩
    exact absurd split.symm (by simp)
  | @passed _ c _ _ _ _ _ inductionHypothesis =>
    obtain ⟨segments, onward⟩ := inductionHypothesis
    exact ⟨_, onward.kept [c] rfl rfl nofun⟩
  | @taken _ found _ _ _ matched _ inductionHypothesis =>
    obtain ⟨segments, onward⟩ := inductionHypothesis
    obtain ⟨_, there⟩ := foundAt_matchAt matched
    obtain ⟨head, body, function⟩ := finds there
    cases mentions : mentionsReturn body with
    | true =>
      refine ⟨_, onward.kept found.text rfl ?_ ?_⟩
      · rw [Stretch.replaced, function.replaced, mentions, if_pos rfl]
      · rintro _ ⟨⟩
        rw [function.group, mentions]
    | false => exact ⟨_, onward.changed function mentions⟩

/-- The heads of a text whose functions get their return types. -/
theorem exists_replaced (finds : FindsFunctions pattern isArrow replacement) (text : List Char) :
    ∃ stretches segments, Sweep pattern.ignoreCase pattern.regex (startOf text) stretches ∧
      pattern.allMatches text = stretches.filterMap Stretch.match? ∧ Pass replacement isArrow stretches segments ∧
        bareText segments = text ∧ typedText segments = pattern.replaceAll replacement text := by
  have filled : ∀ place found, matchAt pattern.ignoreCase pattern.regex place = some found → found.text ≠ [] := by
    intro place found matched
    obtain ⟨_, there⟩ := foundAt_matchAt matched
    obtain ⟨head, body, function⟩ := finds there
    rw [function.text]
    simp
  obtain ⟨stretches, sweep, all, replaced⟩ := exists_sweep filled (Nat.lt_succ_self (startOf text).ahead.length)
  obtain ⟨segments, pass⟩ := exists_pass finds sweep
  refine ⟨stretches, segments, sweep, all, pass, pass.bare.trans sweep.textOf_eq, pass.typed.trans ?_⟩
  exact (replaced replacement).symm

/-- A function that is found without the word for asynchronous does not have it in front of it. -/
theorem not_endsAsync {place : Place} {earlier later : List Stretch} {found : Match}
    (sweep : Sweep simpleFunction.ignoreCase simpleFunction.regex place (earlier ++ .taken found :: later))
    (begins : found.text = 'f' :: rest) : ¬ EndsAsync (textOf earlier) := by
  rintro ⟨before, gap, same⟩
  have ends : ∀ one, .taken one ∈ earlier → one.text.getLast? = some '\x7d' := by
    intro one member
    obtain ⟨_, _, there⟩ := sweep.foundAt (List.mem_append_left _ member)
    obtain ⟨head, body, function⟩ := found_simpleFunction there
    rw [function.text, ← List.cons_append, ← List.append_assoc, List.getLast?_concat]
  have free : '\x7d' ∉ "async".toList ++ gap.val := isMark_brace.not_mem_asyncText (some gap)
  obtain ⟨front, rfl, _⟩ := passed_behind ends free same
  rw [List.append_assoc] at sweep
  -- The letters of the word have been passed, although the function is found behind them.
  obtain ⟨start, here⟩ : ∃ start, Sweep false simpleFunction.regex start
      (("async".toList ++ gap.val).map .passed ++ .taken found :: later) := by
    rw [simpleFunction_eq.1] at sweep
    exact ⟨_, sweep.behind⟩
  have ahead := here.textOf_eq
  have there := here.behind
  rw [textOf_append, textOf_passed, textOf_cons, Stretch.text, begins, List.cons_append] at ahead
  rw [textOf_passed, textOf_cons, Stretch.text, begins, List.cons_append] at there
  refine matchAt_async ahead.symm there.matched ?_
  obtain ⟨tail, word⟩ : ∃ tail, "async".toList ++ gap.val = 'a' :: tail := ⟨_, rfl⟩
  rw [word] at here
  exact here.unmatched

/-! Bodies in front of which and in which heads have got their return types. -/

theorem returnWord_ne_nil : returnWord ≠ [] := by decide +kernel

/-- The word has letters only. -/
theorem isWord_of_mem_returnWord : ∀ c ∈ returnWord, isWord c = true := List.all_eq_true.mp (by decide +kernel)

/-- The word has no blanks. -/
theorem visible_of_mem_returnWord : ∀ c ∈ returnWord, isBlank c = false := by
  have visible : returnWord.all (!isBlank ·) = true := by decide +kernel
  intro c member
  simpa using List.all_eq_true.mp visible c member

/-- A mark parts what mentions returning. -/
theorem mentions_mark_iff {mark : Char} (isMark : IsMark mark) :
    returnWord <:+: before ++ mark :: behind ↔ returnWord <:+: before ∨ returnWord <:+: behind :=
  infix_append_cons_iff returnWord_ne_nil (isMark.not_mem_word isWord_of_mem_returnWord)

/-- A blank parts what mentions returning. -/
theorem mentions_blank_iff {c : Char} (blank : isBlank c = true) :
    returnWord <:+: before ++ c :: behind ↔ returnWord <:+: before ∨ returnWord <:+: behind := by
  refine infix_append_cons_iff returnWord_ne_nil fun member => ?_
  rw [visible_of_mem_returnWord c member] at blank
  cases blank

/-- Blanks in front of a text do not mention returning. -/
theorem mentions_behind_blanks {gap : List Char} (blank : ∀ c ∈ gap, isBlank c = true) :
    returnWord <:+: gap ++ behind ↔ returnWord <:+: behind := by
  induction gap with
  | nil => rfl
  | cons c gap inductionHypothesis =>
    obtain ⟨here, others⟩ := List.forall_mem_cons.mp blank
    rw [← inductionHypothesis others, List.cons_append, ← List.nil_append (c :: (gap ++ behind)),
      mentions_blank_iff here, or_iff_right]
    exact fun nothing => returnWord_ne_nil (List.eq_nil_of_infix_nil nothing)

/-- Blanks between two texts part what mentions returning. -/
theorem mentions_gap_iff (gap : Gap) :
    returnWord <:+: before ++ (gap.val ++ behind) ↔ returnWord <:+: before ∨ returnWord <:+: behind := by
  obtain ⟨c, others, split⟩ := List.exists_cons_of_ne_nil gap.property.1
  have blank := gap.property.2
  rw [split] at blank ⊢
  obtain ⟨here, further⟩ := List.forall_mem_cons.mp blank
  rw [List.cons_append, mentions_blank_iff here, mentions_behind_blanks further]

/-- Blanks behind a text do not mention returning. -/
theorem mentions_before_blanks (gap : Blanks) : returnWord <:+: before ++ gap.val ↔ returnWord <:+: before := by
  by_cases empty : gap.val = []
  · rw [empty, List.append_nil]
  · have parted : returnWord <:+: before ++ (gap.val ++ []) ↔ _ := mentions_gap_iff ⟨gap.val, empty, gap.property⟩
    rw [List.append_nil] at parted
    rw [parted, or_iff_left]
    exact fun nothing => returnWord_ne_nil (List.eq_nil_of_infix_nil nothing)

/-- What mentions returning up to the parameters of a head does so with single blanks as well. -/
theorem mentions_spacedOpening (mentions : returnWord <:+: before ++ head.opening) :
    returnWord <:+: before ++ head.spacedOpening := by
  cases head with
  | function async first name second =>
    rw [Head.opening_function, ← List.append_assoc, ← List.append_assoc, mentions_gap_iff,
      mentions_before_blanks] at mentions
    rwa [Head.spacedOpening_function, ← List.append_assoc, ← List.append_assoc, mentions_blank_iff (by decide)]
  | arrow first name second third async =>
    rw [Head.opening_arrow, ← List.append_assoc, mentions_gap_iff, ← List.append_assoc,
      mentions_mark_iff ⟨by decide, by decide⟩, mentions_before_blanks, mentions_behind_blanks third.property]
      at mentions
    rw [Head.spacedOpening_arrow, ← List.append_assoc, mentions_blank_iff (by decide),
      mentions_blank_iff (by decide)]
    refine mentions.imp id (Or.imp id fun asynchronous => ?_)
    exact asynchronous.trans ((List.suffix_cons ' ' _).trans (List.suffix_cons '=' _)).isInfix

/-- What stands between parameters and body does not mention returning. -/
theorem mentions_behind_joint : returnWord <:+: head.joint ++ behind ↔ returnWord <:+: behind := by
  cases head with
  | function _ _ _ _ _ gap => exact mentions_behind_blanks gap.property
  | arrow _ _ _ _ _ _ first second =>
    have sign : returnWord <:+: '=' :: '>' :: (second.val ++ behind) ↔ returnWord <:+: behind := by
      rw [← List.nil_append ('=' :: _), mentions_mark_iff ⟨by decide, by decide⟩,
        ← List.nil_append ('>' :: _), mentions_mark_iff ⟨by decide, by decide⟩,
        mentions_behind_blanks second.property]
      simp [returnWord_ne_nil]
    rw [Head.joint, List.append_assoc, mentions_behind_blanks first.property, List.cons_append, List.cons_append, sign]

/-- What mentions returning behind or in a head does so with its return type as well. -/
theorem mentions_typed {other : List Char} (later : returnWord <:+: behind → returnWord <:+: other)
    (mentions : returnWord <:+: before ++ (head.bare ++ behind)) :
    returnWord <:+: before ++ (head.typed ++ other) := by
  rw [Head.bare, List.append_assoc, List.cons_append, List.append_assoc, List.cons_append, ← List.append_assoc,
    mentions_mark_iff ⟨by decide, by decide⟩, mentions_mark_iff isMark_close, mentions_behind_joint] at mentions
  rw [Head.typed, List.append_assoc, List.cons_append, List.append_assoc, List.cons_append, ← List.append_assoc,
    mentions_mark_iff ⟨by decide, by decide⟩, mentions_mark_iff isMark_close]
  refine mentions.imp mentions_spacedOpening (Or.imp id fun behind => ?_)
  exact (later behind).trans (List.suffix_append _ _).isInfix

/-- A closing brace that is not among the parameters of a head is not in it. -/
theorem not_mem_bare (free : '\x7d' ∉ head.parameters.val) : '\x7d' ∉ head.bare := by
  simp only [Head.bare, List.mem_append, List.mem_cons, not_or]
  exact ⟨isMark_brace.not_mem_opening (by decide) head, by decide, free, by decide,
    isMark_brace.not_mem_joint (by decide) (by decide) head⟩

/-- Nor is it in the head with its return type. -/
theorem not_mem_typed (free : '\x7d' ∉ head.parameters.val) : '\x7d' ∉ head.typed := by
  rw [Head.typed, List.mem_append, List.mem_cons, List.mem_append, List.mem_cons]
  simp only [not_or]
  exact ⟨isMark_brace.not_mem_spacedOpening (by decide) head, by decide, free, by decide,
    not_mem_type rfl head⟩

/-- A text up to its first closing brace goes on behind a head without one. -/
theorem behind_typed (free : '\x7d' ∉ head.parameters.val)
    (same : head.typed ++ behind = inner ++ '\x7d' :: rest) :
    ∃ later, inner = head.typed ++ later ∧ behind = later ++ '\x7d' :: rest := by
  rcases List.append_eq_append_iff.mp same with ⟨later, rfl, split⟩ | ⟨later, split, ahead⟩
  · exact ⟨later, rfl, split⟩
  · cases later with
    | nil => exact ⟨[], by rw [split, List.append_nil, List.append_nil], ahead.symm⟩
    | cons c later =>
      obtain ⟨rfl, _⟩ := List.cons.inj ahead
      refine absurd ?_ (not_mem_typed free)
      rw [split]
      exact List.mem_append_right _ List.mem_cons_self

/-- A closing brace among the parameters of a head stands behind the same text without the return type. -/
theorem exists_bare_inner_parameters (within : '\x7d' ∈ head.parameters.val)
    (same : head.typed ++ behind = inner ++ '\x7d' :: rest) (closes : '\x7d' ∉ inner) :
    ∃ inner' rest', bareText (.head head :: segments) = inner' ++ '\x7d' :: rest' ∧ '\x7d' ∉ inner' ∧
      ∀ before, returnWord <:+: before ++ inner' → returnWord <:+: before ++ inner := by
  obtain ⟨given, others, split, free⟩ := List.eq_append_cons_of_mem within
  have apart : '\x7d' ∉ head.spacedOpening ++ '(' :: given := by
    simp only [List.mem_append, List.mem_cons, not_or]
    exact ⟨isMark_brace.not_mem_spacedOpening (by decide) head, by decide, free⟩
  rw [Head.typed, split] at same
  obtain ⟨rfl, _⟩ := append_cons_inj apart closes (by simpa using same)
  refine ⟨head.opening ++ '(' :: given, others ++ ')' :: (head.joint ++ bareText segments), ?_, ?_, ?_⟩
  · rw [bareText_head, Head.bare, split]
    simp
  · simp only [List.mem_append, List.mem_cons, not_or]
    exact ⟨isMark_brace.not_mem_opening (by decide) head, by decide, free⟩
  · intro before mentions
    rw [← List.append_assoc, mentions_mark_iff ⟨by decide, by decide⟩] at mentions ⊢
    exact mentions.imp mentions_spacedOpening id

/-- A text up to its first closing brace, with return types at some heads in it, mentions returning if it does so
without these return types. The induction is on the parts, and any text may stand in front of them. -/
theorem exists_bare_inner (same : typedText segments = inner ++ '\x7d' :: rest) (closes : '\x7d' ∉ inner) :
    ∃ inner' rest', bareText segments = inner' ++ '\x7d' :: rest' ∧ '\x7d' ∉ inner' ∧
      ∀ before, returnWord <:+: before ++ inner' → returnWord <:+: before ++ inner := by
  induction segments generalizing inner with
  | nil => exact absurd same (by simp)
  | cons segment segments inductionHypothesis =>
    cases segment with
    | plain c =>
      rw [typedText_plain] at same
      cases inner with
      | nil =>
        obtain ⟨rfl, _⟩ := List.cons.inj same
        exact ⟨[], bareText segments, rfl, List.not_mem_nil, fun _ => id⟩
      | cons d inner =>
        obtain ⟨rfl, further⟩ := List.cons.inj same
        rw [List.mem_cons, not_or] at closes
        obtain ⟨inner', rest', split, apart, onward⟩ := inductionHypothesis further closes.2
        refine ⟨c :: inner', rest', congrArg (c :: ·) split, ?_, fun before mentions => ?_⟩
        · rw [List.mem_cons, not_or]
          exact ⟨closes.1, apart⟩
        · rw [List.append_cons] at mentions ⊢
          exact onward _ mentions
    | head one =>
      rw [typedText_head] at same
      by_cases within : '\x7d' ∈ one.parameters.val
      · exact exists_bare_inner_parameters within same closes
      · obtain ⟨inner, rfl, further⟩ := behind_typed within same
        rw [List.mem_append, not_or] at closes
        obtain ⟨inner', rest', split, apart, onward⟩ := inductionHypothesis further closes.2
        refine ⟨one.bare ++ inner', rest', ?_, ?_, fun before mentions => ?_⟩
        · rw [bareText_head, split, List.append_assoc]
        · rw [List.mem_append, not_or]
          exact ⟨not_mem_bare within, apart⟩
        · exact mentions_typed (fun later => onward [] later) mentions

/-- A body that does not mention returning does not do so without the return types in it either. -/
theorem exists_quiet_bare (body : QuietBody (typedText segments) inner rest) :
    ∃ inner rest, QuietBody (bareText segments) inner rest := by
  have split := body.split
  cases segments with
  | nil => cases split
  | cons segment segments =>
    cases segment with
    | plain c =>
      obtain ⟨rfl, further⟩ := List.cons.inj split
      obtain ⟨inner', rest', bare, apart, mentions⟩ := exists_bare_inner further body.closes
      exact ⟨inner', rest', congrArg ('\x7b' :: ·) bare, apart, fun mentioned => body.quiet (mentions [] mentioned)⟩
    | head one =>
      obtain ⟨c, letter, _, _, begins⟩ := exists_first_letter one
      rw [typedText_head, begins] at split
      rw [(List.cons.inj split).1] at letter
      exact absurd letter (by decide)

/-! Both passes. -/

/-- The word for asynchronous does not end behind blanks that stand behind a mark. -/
theorem not_endsAsync_behind {mark : Char} (isMark : IsMark mark) (gap : Blanks) :
    ¬ EndsAsync (before ++ mark :: gap.val) := by
  rintro ⟨other, asyncGap, same⟩
  have free : mark ∉ "async".toList ++ asyncGap.val := isMark.not_mem_asyncText (some asyncGap)
  rcases List.append_eq_append_iff.mp same with ⟨passed, rfl, ahead⟩ | ⟨passed, _, ahead⟩
  · cases passed with
    | nil =>
      rw [List.nil_append] at ahead
      exact free (ahead ▸ List.mem_cons_self)
    | cons c passed =>
      obtain ⟨_, behind⟩ := List.cons.inj ahead
      have blank := gap.property 'a' (by rw [behind]; exact List.mem_append_right _ List.mem_cons_self)
      exact absurd blank (by decide)
  · rw [ahead] at free
    exact free (List.mem_append_right _ List.mem_cons_self)

/-- A head is asynchronous if the word for that ends where it may stand. -/
theorem endsAsync_lead_iff (apart : head.isArrow = false → head.isAsync = false → ¬ EndsAsync before) :
    EndsAsync (before ++ head.lead) ↔ head.isAsync = true := by
  cases head with
  | function async =>
    cases async with
    | none =>
      rw [Head.lead, asyncText_none, List.append_nil]
      exact iff_of_false (apart rfl rfl) Bool.false_ne_true
    | some gap => exact iff_of_true ⟨before, gap, rfl⟩ rfl
  | arrow first name second third async =>
    rw [Head.lead, ← List.append_assoc, ← List.append_assoc, ← List.append_assoc, ← List.append_assoc]
    cases async with
    | none =>
      rw [asyncText_none, List.append_nil]
      exact iff_of_false (not_endsAsync_behind ⟨by decide, by decide⟩ third) Bool.false_ne_true
    | some gap =>
      rw [List.append_cons, ← List.append_assoc]
      exact iff_of_true ⟨_, gap, rfl⟩ rfl

/-- The heads of a text that get return types, with what stands around them. -/
structure Annotated (text output : List Char) (segments : List Segment) : Prop where
  bare : bareText segments = text
  typed : typedText segments = output
  body : ∀ front head back, segments = front ++ .head head :: back →
    ∃ inner rest, QuietBody (bareText back) inner rest
  async : ∀ front head back, segments = front ++ .head head :: back →
    (EndsAsync (bareText front ++ head.lead) ↔ head.isAsync = true)

/-- A text with return types is the text itself with return types at some heads. -/
theorem exists_annotated_addReturnTypes (text : List Char) :
    ∃ segments, Annotated text (addReturnTypes text) segments := by
  obtain ⟨stretches, first, sweep, _, functions, bare, between⟩ := exists_replaced found_simpleFunction text
  obtain ⟨_, second, _, _, arrows, later, typed⟩ :=
    exists_replaced found_simpleArrow (simpleFunction.replaceAll typedFunction text)
  obtain ⟨merged, both⟩ := exists_merged (between.trans later.symm) arrows.kind
  refine ⟨merged, both.texts.1.trans bare, both.texts.2.1.trans typed, ?_, ?_⟩
  all_goals
    rintro front head back rfl
    rcases both.split with ⟨front', back', second', rfl, same, rest⟩ | ⟨front', back', first', rfl, rest⟩
  · rw [rest.texts.1]
    exact (functions.behind front' head back' rfl).1
  · obtain ⟨inner, behind, body⟩ := (arrows.behind front' head back' rfl).1
    rw [← rest.texts.2.2] at body
    rw [rest.texts.1]
    exact exists_quiet_bare body
  · rw [same]
    refine endsAsync_lead_iff fun _ plain => ?_
    obtain ⟨earlier, found, others, tail, rfl, front_, begins⟩ := (functions.behind front' head back' rfl).2
    rw [← front_]
    have letter : ∃ onward, head.bare = 'f' :: onward := by
      have kind := functions.kind head (List.mem_append_right _ List.mem_cons_self)
      cases head with
      | function async =>
        cases async with
        | none => exact ⟨_, rfl⟩
        | some gap => cases plain
      | arrow => cases kind
    obtain ⟨onward, letter⟩ := letter
    rw [letter] at begins
    exact not_endsAsync sweep begins
  · refine endsAsync_lead_iff fun function _ => ?_
    rw [arrows.kind head (List.mem_append_right _ List.mem_cons_self)] at function
    cases function

/-- A text that stays as it is has no such heads. -/
theorem annotated_self (text : List Char) : Annotated text text (text.map .plain) := by
  have none : ∀ front head back, text.map Segment.plain ≠ front ++ .head head :: back := by
    intro front head back same
    rw [← List.append_nil (text.map _)] at same
    obtain ⟨later, _, nothing⟩ := split_behind_plain same
    exact absurd nothing.symm (by simp)
  exact ⟨bareText_map_plain text, typedText_map_plain text, fun front head back same => absurd same (none _ _ _),
    fun front head back same => absurd same (none _ _ _)⟩

/-- What the fixer makes of a text. -/
theorem text_apply_returnTypeFixer (violation : Violation) (text : List Char) :
    ((Changes.start text).apply returnTypeFixer violation).text =
      if fetchingFunction.occursIn text then text else addReturnTypes text := by
  rw [Changes.apply, Changes.start, returnTypeFixer]
  dsimp only
  cases fetchingFunction.occursIn text with
  | true => rfl
  | false =>
    rw [if_neg Bool.false_ne_true, if_neg Bool.false_ne_true]
    by_cases same : addReturnTypes text = text
    · rw [Outcome.ofChange, if_pos same, same]
    · rw [Outcome.ofChange, if_neg same]

/-- What the fixer makes of a text is the text itself with return types at some heads. -/
theorem exists_annotated (violation : Violation) (text : List Char) : ∃ segments,
    Annotated text ((Changes.start text).apply returnTypeFixer violation).text segments := by
  rw [text_apply_returnTypeFixer]
  split
  · exact ⟨_, annotated_self text⟩
  · exact exists_annotated_addReturnTypes text

/-- A text that changes has a head that gets a return type. -/
theorem exists_head (changed : typedText segments ≠ bareText segments) :
    ∃ front head back, segments = front ++ .head head :: back := by
  induction segments with
  | nil => exact absurd rfl changed
  | cons segment segments inductionHypothesis =>
    cases segment with
    | plain c =>
      obtain ⟨front, head, back, rfl⟩ := inductionHypothesis fun same => changed (congrArg (c :: ·) same)
      exact ⟨.plain c :: front, head, back, rfl⟩
    | head one => exact ⟨[], one, segments, rfl⟩

/-- A violation about a return type. -/
def missingReturnType : Violation :=
  ⟨"TS-002", "lib/a.ts", 1, 1, .warning, "", "", none, "explicit-return-type"⟩

end Conformance.Fix
