import Conformance.Pattern.Basic
import Mathlib.Data.List.Basic
import Mathlib.Tactic.Common

/-!
# What a pattern takes

Which texts an expression reads is told by its form alone. A match takes a text that its expression
reads; that holds for every expression and whatever is to be matched behind it. Which of several
texts is taken depends on the order of the choices, so for the other direction it is said of an
expression what it takes first: a repetition that is greedy takes all that it can, and one that is not
takes the least behind which the rest matches.
-/

namespace Conformance.Regex

open Text

variable {β : Type} {ignoreCase : Bool} {next : Continuation β} {place : Place}
  {captures : List Capture} {result : β} {taken rest : List Char}

/-- The place behind some characters, with the given ones ahead. -/
def Place.past (place : Place) (taken rest : List Char) : Place :=
  ⟨taken.getLast?.or place.before, rest, place.offset + taken.length⟩

/-- Behind nothing nothing has changed. -/
theorem Place.past_nil (place : Place) : place.past [] place.ahead = place := rfl

/-- The place behind a character and others. -/
theorem Place.past_step (place : Place) (c : Char) (between taken rest : List Char) :
    (place.step c between).past taken rest = place.past (c :: taken) rest := by
  cases taken with
  | nil => rfl
  | cons d taken =>
    simp only [Place.past, Place.step, List.length_cons, List.getLast?_cons_cons]
    cases found : (d :: taken).getLast? with
    | none => simp at found
    | some last =>
      rw [Option.some_or, Option.some_or, Nat.add_assoc, Nat.add_comm 1]

/-- The place behind one text and another one. -/
theorem Place.past_past (place : Place) (first between second rest : List Char) :
    (place.past first between).past second rest = place.past (first ++ second) rest := by
  induction first generalizing place with
  | nil => rfl
  | cons c first inductionHypothesis =>
    rw [List.cons_append, ← place.past_step c [], ← place.past_step c [], inductionHypothesis]

/-- The texts that an expression reads. What stands around them is left out of account, and so is
what the groups have matched. -/
inductive Reads (ignoreCase : Bool) : Regex → List Char → Prop where
  | empty : Reads ignoreCase .empty []
  | char {wanted c : Char} (same : (c == wanted || (ignoreCase && sameLetter c wanted)) = true) :
      Reads ignoreCase (.char wanted) [c]
  | anyChar {c : Char} (within : c ≠ '\n') : Reads ignoreCase .anyChar [c]
  | oneOf {negated : Bool} {items : List SetItem} {c : Char}
      (member : (items.any (itemMatches ignoreCase c) != negated) = true) :
      Reads ignoreCase (.oneOf negated items) [c]
  | seq {first second : Regex} {before behind : List Char} (begins : Reads ignoreCase first before)
      (goesOn : Reads ignoreCase second behind) : Reads ignoreCase (.seq first second) (before ++ behind)
  | left {first second : Regex} {text : List Char} (reads : Reads ignoreCase first text) :
      Reads ignoreCase (.either first second) text
  | right {first second : Regex} {text : List Char} (reads : Reads ignoreCase second text) :
      Reads ignoreCase (.either first second) text
  | loop {body : Regex} {least : Nat} {most : Option Nat} {greedy : Bool} {parts : List (List Char)}
      (passes : ∀ part ∈ parts, Reads ignoreCase body part) (enough : least ≤ parts.length)
      (within : ∀ limit ∈ most, parts.length ≤ limit) :
      Reads ignoreCase (.loop body least most greedy) parts.flatten
  | group {index : Nat} {body : Regex} {text : List Char} (reads : Reads ignoreCase body text) :
      Reads ignoreCase (.group index body) text
  | again {index : Nat} (text : List Char) : Reads ignoreCase (.again index) text
  | textStart : Reads ignoreCase .textStart []
  | textEnd : Reads ignoreCase .textEnd []
  | lineStart : Reads ignoreCase .lineStart []
  | lineEnd : Reads ignoreCase .lineEnd []
  | wordEdge : Reads ignoreCase .wordEdge []
  | notWordEdge : Reads ignoreCase .notWordEdge []

/-- One expression and then another one read one text and then another one. -/
theorem reads_seq_iff {first second : Regex} {text : List Char} :
    Reads ignoreCase (.seq first second) text ↔
      ∃ before behind, text = before ++ behind ∧ Reads ignoreCase first before ∧
        Reads ignoreCase second behind := by
  constructor
  · rintro (_ | _ | _ | _ | ⟨begins, goesOn⟩)
    exact ⟨_, _, rfl, begins, goesOn⟩
  · rintro ⟨before, behind, rfl, begins, goesOn⟩
    exact .seq begins goesOn

/-- One of two expressions reads what either of them reads. -/
theorem reads_either_iff {first second : Regex} {text : List Char} :
    Reads ignoreCase (.either first second) text ↔
      Reads ignoreCase first text ∨ Reads ignoreCase second text := by
  constructor
  · intro reads
    cases reads with
    | left reads => exact .inl reads
    | right reads => exact .inr reads
  · rintro (reads | reads)
    · exact .left reads
    · exact .right reads

/-- A group reads what its body reads. -/
theorem reads_group_iff {index : Nat} {body : Regex} {text : List Char} :
    Reads ignoreCase (.group index body) text ↔ Reads ignoreCase body text := by
  constructor
  · intro reads
    cases reads with
    | group reads => exact reads
  · exact .group

/-- A character reads itself. -/
theorem reads_char_iff {wanted : Char} {text : List Char} :
    Reads false (.char wanted) text ↔ text = [wanted] := by
  constructor
  · intro reads
    cases reads with
    | char same => simpa using same
  · rintro rfl
    exact .char (by simp)

/-- A repetition of single characters reads characters that pass the test, and as many as are
needed. -/
theorem reads_loop {body : Regex} {test : Char → Prop}
    (single : ∀ text, Reads ignoreCase body text → ∃ c, text = [c] ∧ test c) {least : Nat}
    {most : Option Nat} {greedy : Bool} {text : List Char}
    (reads : Reads ignoreCase (.loop body least most greedy) text) :
    least ≤ text.length ∧ ∀ c ∈ text, test c := by
  cases reads with
  | loop passes enough within =>
    next parts =>
    have spelled : ∃ letters : List Char, parts = letters.map (fun c => [c]) ∧ ∀ c ∈ letters, test c := by
      clear enough within
      induction parts with
      | nil => exact ⟨[], rfl, by simp⟩
      | cons part parts inductionHypothesis =>
        obtain ⟨first, others⟩ := List.forall_mem_cons.mp passes
        obtain ⟨c, rfl, passed⟩ := single part first
        obtain ⟨letters, rfl, all⟩ := inductionHypothesis others
        exact ⟨c :: letters, rfl, List.forall_mem_cons.mpr ⟨passed, all⟩⟩
    obtain ⟨letters, rfl, all⟩ := spelled
    have whole : (letters.map fun c => [c]).flatten = letters := by
      rw [← List.flatMap_def, List.flatMap_singleton']
    rw [whole]
    exact ⟨by simpa using enough, all⟩

/-- From a place some text is read, and what is to be matched behind it has a result. -/
def Leads (reads : List Char → Prop) (next : Continuation β) (place : Place) (result : β) : Prop :=
  ∃ taken rest captures, place.ahead = taken ++ rest ∧ reads taken ∧
    next (place.past taken rest) captures = some result

/-- Where nothing is taken, what is to be matched has its result at the place itself. -/
theorem leads_here {reads : List Char → Prop} (nothing : reads [])
    (matched : next place captures = some result) : Leads reads next place result :=
  ⟨[], place.ahead, captures, rfl, nothing, matched⟩

/-- Nothing is taken where a condition is met. -/
theorem leads_when {reads : List Char → Prop} {condition : Prop} [Decidable condition]
    (nothing : reads [])
    (matched : (if condition then next place captures else none) = some result) :
    Leads reads next place result := by
  split at matched
  · exact leads_here nothing matched
  · cases matched

/-- What is read can be told less exactly. -/
theorem Leads.imp {reads others : List Char → Prop} (leads : Leads reads next place result)
    (weaker : ∀ text, reads text → others text) : Leads others next place result := by
  obtain ⟨taken, rest, found, ahead, read, matched⟩ := leads
  exact ⟨taken, rest, found, ahead, weaker taken read, matched⟩

/-- One text is read and then another one. -/
theorem Leads.andThen {reads others : List Char → Prop} {between : Continuation β}
    (leads : Leads reads between place result)
    (onward : ∀ {place captures}, between place captures = some result →
      Leads others next place result) :
    Leads (fun text => ∃ before behind, text = before ++ behind ∧ reads before ∧ others behind) next
      place result := by
  obtain ⟨before, middle, found, ahead, first, matched⟩ := leads
  obtain ⟨behind, rest, others, further, second, done⟩ := onward matched
  obtain rfl : middle = behind ++ rest := further
  refine ⟨before ++ behind, rest, others, ?_, ⟨before, behind, rfl, first, second⟩, ?_⟩
  · rw [ahead, List.append_assoc]
  · rwa [Place.past_past] at done

/-- A character that is consumed passes the test. -/
theorem leads_consume {test : Char → Bool} {reads : List Char → Prop}
    (passes : ∀ c, test c = true → reads [c])
    (matched : consume test next place captures = some result) : Leads reads next place result := by
  unfold consume at matched
  split at matched
  · next c rest ahead =>
    split at matched
    · next tested => exact ⟨[c], rest, captures, ahead, passes c tested, matched⟩
    · cases matched
  · cases matched

/-- A text that is consumed is taken. -/
theorem leads_consumeText {text : List Char}
    (matched : consumeText ignoreCase text next place captures = some result) :
    Leads (fun _ => True) next place result := by
  induction text generalizing place captures with
  | nil => exact leads_here trivial matched
  | cons c text inductionHypothesis =>
    have first : Leads (fun _ => True) _ place result := leads_consume (fun _ _ => trivial) matched
    exact (first.andThen inductionHypothesis).imp fun _ _ => trivial

/-- The passes of a repetition: as many as are needed, and no more than are allowed. -/
def Passes (reads : List Char → Prop) (least : Nat) (most : Option Nat) (text : List Char) : Prop :=
  ∃ parts : List (List Char), text = parts.flatten ∧ (∀ part ∈ parts, reads part) ∧
    least ≤ parts.length ∧ ∀ limit ∈ most, parts.length ≤ limit

/-- No pass at all, where none is needed. -/
theorem passes_nil {reads : List Char → Prop} {most : Option Nat} : Passes reads 0 most [] :=
  ⟨[], rfl, by simp, Nat.le_refl 0, by simp⟩

/-- One more pass, where one is allowed. -/
theorem Passes.cons {reads : List Char → Prop} {least : Nat} {most : Option Nat}
    {before behind : List Char} (allowed : most ≠ some 0) (first : reads before)
    (others : Passes reads (least - 1) (most.map (· - 1)) behind) :
    Passes reads least most (before ++ behind) := by
  obtain ⟨parts, rfl, passes, enough, within⟩ := others
  refine ⟨before :: parts, rfl, List.forall_mem_cons.mpr ⟨first, passes⟩, ?_, ?_⟩
  · rw [List.length_cons]
    omega
  · rintro limit rfl
    have fewer := within (limit - 1) rfl
    have some_ : limit ≠ 0 := fun none => allowed (congrArg some none)
    rw [List.length_cons]
    omega

section Passes

variable {body : Continuation β → Continuation β} {greedy : Bool} {bound least : Nat} {most : Option Nat}

/-- What is to be matched behind a pass of a repetition that begins at a place: further passes, or what follows the
repetition if the pass has taken nothing and no more are needed. -/
def behindPass (body : Continuation β → Continuation β) (greedy : Bool) (next : Continuation β)
    (bound least : Nat) (most : Option Nat) (place : Place) : Continuation β := fun place' captures =>
  if place'.offset = place.offset ∧ least ≤ 1 then next place' captures
  else repeated body greedy next bound (least - 1) (most.map (· - 1)) place' captures

/-- A repetition that may have a pass has one first if it is greedy, and ends first if it is not. -/
theorem repeated_succ {another : Option β} (pass : another = if most = some 0 then none
      else body (behindPass body greedy next bound least most place) place captures) :
    repeated body greedy next (bound + 1) least most place captures =
      if least > 0 then another
      else if greedy then another.or (next place captures)
      else (next place captures).or another := by
  rw [repeated, pass]
  simp only [Option.orElse_eq_or]
  rfl

/-- A repetition ends where it has the passes that it needs, or it goes on with a pass that is allowed. -/
theorem repeated_cases (matched : repeated body greedy next bound least most place captures = some result) :
    least = 0 ∧ next place captures = some result ∨ ∃ fewer, bound = fewer + 1 ∧ most ≠ some 0 ∧
      body (behindPass body greedy next fewer least most place) place captures = some result := by
  cases bound with
  | zero =>
    rw [repeated] at matched
    split at matched
    · next none => exact .inl ⟨none, matched⟩
    · cases matched
  | succ bound =>
    obtain ⟨another, pass⟩ : ∃ another, another = if most = some 0 then none
      else body (behindPass body greedy next bound least most place) place captures := ⟨_, rfl⟩
    have further (more : another = some result) : ∃ fewer, bound + 1 = fewer + 1 ∧ most ≠ some 0 ∧
        body (behindPass body greedy next fewer least most place) place captures = some result := by
      rw [pass] at more
      split at more
      · cases more
      · next allowed => exact ⟨bound, rfl, allowed, more⟩
    rw [repeated_succ pass] at matched
    split at matched
    · exact .inr (further matched)
    · next enough =>
      have none : least = 0 := by omega
      split at matched
      · rcases Option.or_eq_some_iff.mp matched with more | ⟨_, done⟩
        · exact .inr (further more)
        · exact .inl ⟨none, done⟩
      · rcases Option.or_eq_some_iff.mp matched with done | ⟨_, more⟩
        · exact .inl ⟨none, done⟩
        · exact .inr (further more)

/-- A repetition that may have a pass matches if it can end or go on with one. -/
theorem repeated_ne_none_iff : repeated body greedy next (bound + 1) least most place captures ≠ none ↔
    least = 0 ∧ next place captures ≠ none ∨ most ≠ some 0 ∧
      body (behindPass body greedy next bound least most place) place captures ≠ none := by
  constructor
  · intro matched
    obtain ⟨result, found⟩ := Option.ne_none_iff_exists'.mp matched
    rcases repeated_cases found with ⟨none, done⟩ | ⟨_, ⟨⟩, allowed, more⟩
    · exact .inl ⟨none, by simp [done]⟩
    · exact .inr ⟨allowed, by simp [more]⟩
  · rw [repeated_succ rfl]
    rintro (⟨rfl, done⟩ | ⟨allowed, more⟩)
    · cases greedy <;> simp [done]
    · rw [if_neg allowed]
      split
      · exact more
      · cases greedy <;> simp [more]

/-- A repetition takes the texts of its passes. The induction is on the bound of the passes. -/
theorem leads_repeated {reads : List Char → Prop} (bodyLeads : ∀ {next place captures},
      body next place captures = some result → Leads reads next place result)
    (matched : repeated body greedy next bound least most place captures = some result) :
    Leads (Passes reads least most) next place result := by
  induction bound generalizing least most place captures with
  | zero =>
    rcases repeated_cases matched with ⟨rfl, done⟩ | ⟨_, none, _⟩
    · exact leads_here passes_nil done
    · cases none
  | succ bound inductionHypothesis =>
    rcases repeated_cases matched with ⟨rfl, done⟩ | ⟨_, ⟨⟩, allowed, more⟩
    · exact leads_here passes_nil done
    · refine (Leads.andThen (bodyLeads more) fun {behind found} onward =>
        (?_ : Leads (Passes reads (least - 1) (most.map (· - 1))) next behind result)).imp ?_
      · unfold behindPass at onward
        split at onward
        · next ended =>
          have none : least - 1 = 0 := by omega
          rw [none]
          exact leads_here passes_nil onward
        · exact inductionHypothesis onward
      · rintro text ⟨before, behind, rfl, first, others⟩
        exact Passes.cons allowed first others

end Passes

/-- A match takes a text that its expression reads. -/
theorem leads_run {regex : Regex} (matched : run ignoreCase regex next place captures = some result) :
    Leads (Reads ignoreCase regex) next place result := by
  induction regex generalizing next place captures with
  | empty => exact leads_here .empty matched
  | char wanted => exact leads_consume (fun _ => .char) matched
  | anyChar => exact leads_consume (fun c within => .anyChar (bne_iff_ne.mp within)) matched
  | oneOf negated items => exact leads_consume (fun _ => .oneOf) matched
  | seq first second firstLeads secondLeads =>
    refine ((firstLeads matched).andThen secondLeads).imp ?_
    rintro text ⟨before, behind, rfl, begins, goesOn⟩
    exact .seq begins goesOn
  | either first second firstLeads secondLeads =>
    rw [run] at matched
    dsimp only at matched
    rw [Option.orElse_eq_or] at matched
    rcases Option.or_eq_some_iff.mp matched with one | ⟨_, other⟩
    · exact (firstLeads one).imp fun _ => .left
    · exact (secondLeads other).imp fun _ => .right
  | loop body least most greedy bodyLeads =>
    refine (leads_repeated bodyLeads matched).imp ?_
    rintro text ⟨parts, rfl, passes, enough, within⟩
    exact .loop passes enough within
  | group index body bodyLeads =>
    obtain ⟨taken, rest, _, ahead, reads, onward⟩ := bodyLeads matched
    exact ⟨taken, rest, _, ahead, .group reads, onward⟩
  | again index =>
    rw [run] at matched
    dsimp only at matched
    split at matched
    · exact (leads_consumeText matched).imp fun text _ => .again text
    · cases matched
  | textStart => exact leads_when .textStart matched
  | textEnd => exact leads_when .textEnd matched
  | lineStart => exact leads_when .lineStart matched
  | lineEnd => exact leads_when .lineEnd matched
  | wordEdge => exact leads_when .wordEdge matched
  | notWordEdge =>
    rw [run] at matched
    dsimp only at matched
    split at matched
    · cases matched
    · exact leads_here .notWordEdge matched

/-- A greedy repetition takes what it can. -/
example : (matchAt false (.seq (.loop (.either (.char 'a') .wordEdge) 0 none true) (.char 'b'))
    ⟨none, ['a', 'a', 'b', 'c'], 0⟩).map (·.text) = some ['a', 'a', 'b'] := by
  cbv

/-- An expression takes a text before any other one, with the given rest ahead, and remembers the
given groups. Whatever is to be matched behind it, if that has a result there, it is the result. -/
def TakesFirst (ignoreCase : Bool) (regex : Regex) (taken rest : List Char)
    (found : Nat → List Capture) : Prop :=
  ∀ (β : Type) (next : Continuation β) (place : Place) (captures : List Capture) (result : β),
    place.ahead = taken ++ rest →
    next (place.past taken rest) (found place.offset ++ captures) = some result →
    run ignoreCase regex next place captures = some result

/-- A character takes itself. -/
theorem takesFirst_char (c : Char) (rest : List Char) :
    TakesFirst ignoreCase (.char c) [c] rest fun _ => [] := by
  intro β next place captures result ahead matched
  have stepped : place.past [c] rest = place.step c rest := rfl
  rw [stepped] at matched
  rw [run, consume, ahead]
  simpa using matched

/-- One expression and then another one take what each of them takes. -/
theorem TakesFirst.seq {first second : Regex} {before behind rest : List Char}
    {found more : Nat → List Capture} (begins : TakesFirst ignoreCase first before (behind ++ rest) found)
    (goesOn : TakesFirst ignoreCase second behind rest more) :
    TakesFirst ignoreCase (.seq first second) (before ++ behind) rest fun start =>
      more (start + before.length) ++ found start := by
  intro β next place captures result ahead matched
  refine begins β _ place captures result (ahead.trans (List.append_assoc ..)) ?_
  refine goesOn β next (place.past before (behind ++ rest)) _ result rfl ?_
  rwa [Place.past_past, ← List.append_assoc]

/-- The first of two expressions is taken, where it can be. -/
theorem TakesFirst.left {first second : Regex} {found : Nat → List Capture}
    (takes : TakesFirst ignoreCase first taken rest found) :
    TakesFirst ignoreCase (.either first second) taken rest found := by
  intro β next place captures result ahead matched
  have one := takes β next place captures result ahead matched
  rw [run]
  dsimp only
  rw [one]
  rfl

/-- The second of two expressions is taken, where the first reads nothing that is ahead. -/
theorem TakesFirst.right {first second : Regex} {found : Nat → List Capture}
    (other : ∀ text, text <+: taken ++ rest → ¬ Reads ignoreCase first text)
    (takes : TakesFirst ignoreCase second taken rest found) :
    TakesFirst ignoreCase (.either first second) taken rest found := by
  intro β next place captures result ahead matched
  have refused : run ignoreCase first next place captures = none := by
    rw [Option.eq_none_iff_forall_ne_some]
    intro result matched
    obtain ⟨text, behind, _, begins, reads, _⟩ := leads_run matched
    exact other text ⟨behind, begins.symm.trans ahead⟩ reads
  rw [run]
  dsimp only
  rw [refused]
  exact takes β next place captures result ahead matched

/-- A group takes what its body takes, and remembers it. -/
theorem TakesFirst.group (index : Nat) {body : Regex} {found : Nat → List Capture}
    (takes : TakesFirst ignoreCase body taken rest found) :
    TakesFirst ignoreCase (.group index body) taken rest fun start =>
      ⟨index, start, taken⟩ :: found start := by
  intro β next place captures result ahead matched
  refine takes β _ place captures result ahead ?_
  have length : (place.past taken rest).offset - place.offset = taken.length :=
    Nat.add_sub_cancel_left ..
  rw [length, ahead, List.take_left]
  exact matched

/-- One pass that may be missing takes what its body takes. -/
theorem TakesFirst.once {body : Regex} {found : Nat → List Capture}
    (takes : TakesFirst ignoreCase body taken rest found) (filled : taken ≠ []) :
    TakesFirst ignoreCase (.loop body 0 (some 1) true) taken rest found := by
  intro β next place captures result ahead matched
  have moved : (place.past taken rest).offset ≠ place.offset := by
    have positive := List.length_pos_iff.mpr filled
    change place.offset + taken.length ≠ place.offset
    omega
  have first := takes β (behindPass (run ignoreCase body) true next place.ahead.length 0 (some 1) place) place
    captures result ahead (by
      rw [behindPass, if_neg fun both => moved both.1]
      cases place.ahead.length <;> simp [repeated, matched])
  rw [run]
  dsimp only
  rw [repeated_succ rfl, first, if_neg (Nat.lt_irrefl 0), if_pos rfl, if_neg (by decide : ¬ some 1 = some 0)]
  rfl

/-- Something is matched if something is matched behind what is taken first, whatever is captured. -/
theorem TakesFirst.ne_none {first second : Regex} {found : Nat → List Capture}
    (takes : TakesFirst ignoreCase first taken rest found) (ahead : place.ahead = taken ++ rest)
    (onward : ∀ captures, run ignoreCase second next (place.past taken rest) captures ≠ none) :
    run ignoreCase (.seq first second) next place captures ≠ none := by
  obtain ⟨result, matched⟩ := Option.ne_none_iff_exists'.mp (onward (found place.offset ++ captures))
  rw [run, takes _ _ place captures result ahead matched]
  exact Option.some_ne_none result

/-- A greedy repetition of single characters goes on as far as it can. The induction is on the
characters that are taken. -/
theorem repeated_greedy {test : Char → Bool} {bound least : Nat} (passes : ∀ c ∈ taken, test c = true)
    (stops : ∀ c ∈ rest.head?, test c = false) (enough : least ≤ taken.length)
    (bounded : taken.length ≤ bound) (ahead : place.ahead = taken ++ rest)
    (matched : next (place.past taken rest) captures = some result) :
    repeated (consume test) true next bound least none place captures = some result := by
  induction taken generalizing place bound least with
  | nil =>
    obtain rfl : least = 0 := Nat.le_zero.mp enough
    obtain rfl : place.ahead = rest := ahead
    rw [Place.past_nil] at matched
    cases bound with
    | zero =>
      rw [repeated]
      exact matched
    | succ bound =>
      have stopped (next : Continuation β) : consume test next place captures = none := by
        unfold consume
        split
        · next c rest begins =>
          rw [if_neg]
          rw [stops c (by rw [begins]; rfl)]
          exact Bool.false_ne_true
        · rfl
      rw [repeated]
      simp [stopped, matched]
  | cons c taken inductionHypothesis =>
    cases bound with
    | zero => cases bounded
    | succ bound =>
      have tested := passes c List.mem_cons_self
      rw [← place.past_step c (taken ++ rest)] at matched
      have onward : repeated (consume test) true next bound (least - 1) none
          (place.step c (taken ++ rest)) captures = some result :=
        inductionHypothesis (fun d member => passes d (List.mem_cons_of_mem _ member))
          (by rw [List.length_cons] at enough; omega) (Nat.le_of_succ_le_succ bounded) rfl matched
      rw [repeated]
      simp [consume, ahead, tested, Place.step] at onward ⊢
      rw [onward]
      simp

/-- A repetition of single characters that is not greedy stops at the first place behind which the
rest matches. The induction is on the characters that are taken. -/
theorem repeated_lazy {test : Char → Bool} {bound least : Nat} (passes : ∀ c ∈ taken, test c = true)
    (enough : least ≤ taken.length) (bounded : taken.length ≤ bound)
    (ahead : place.ahead = taken ++ rest)
    (earlier : ∀ before behind, taken = before ++ behind → behind ≠ [] → least ≤ before.length →
      next (place.past before (behind ++ rest)) captures = none)
    (matched : next (place.past taken rest) captures = some result) :
    repeated (consume test) false next bound least none place captures = some result := by
  induction taken generalizing place bound least with
  | nil =>
    obtain rfl : least = 0 := Nat.le_zero.mp enough
    obtain rfl : place.ahead = rest := ahead
    rw [Place.past_nil] at matched
    cases bound with
    | zero =>
      rw [repeated]
      exact matched
    | succ bound =>
      rw [repeated]
      simp [matched]
  | cons c taken inductionHypothesis =>
    cases bound with
    | zero => cases bounded
    | succ bound =>
      have tested := passes c List.mem_cons_self
      rw [← place.past_step c (taken ++ rest)] at matched
      have onward : repeated (consume test) false next bound (least - 1) none
          (place.step c (taken ++ rest)) captures = some result := by
        refine inductionHypothesis (fun d member => passes d (List.mem_cons_of_mem _ member))
          (by rw [List.length_cons] at enough; omega) (Nat.le_of_succ_le_succ bounded) rfl ?_ matched
        intro before behind split filled long
        rw [place.past_step]
        refine earlier (c :: before) behind (by rw [split]; rfl) filled ?_
        rw [List.length_cons]
        omega
      have here (none : least = 0) : next place captures = Option.none := by
        have first := earlier [] (c :: taken) rfl (List.cons_ne_nil _ _) (Nat.le_of_eq none)
        rwa [← ahead, Place.past_nil] at first
      rw [repeated]
      simp [consume, ahead, tested, Place.step] at onward ⊢
      rw [onward]
      by_cases none : least = 0
      · simp [none, here none]
      · simp [Nat.pos_of_ne_zero none]

/-- A group that repeats any character and is not greedy takes a text on one line, if what follows
takes the text behind it and reads nothing that begins inside it. -/
theorem TakesFirst.upTo (index least : Nat) {following : Regex} {behind : List Char}
    {found : Nat → List Capture} (plain : '\n' ∉ taken) (enough : least ≤ taken.length)
    (earlier : ∀ before skipped, taken = before ++ skipped → skipped ≠ [] → least ≤ before.length →
      ∀ text, text <+: skipped ++ (behind ++ rest) → ¬ Reads ignoreCase following text)
    (takes : TakesFirst ignoreCase following behind rest found) :
    TakesFirst ignoreCase (.seq (.group index (.loop .anyChar least none false)) following)
      (taken ++ behind) rest fun start =>
        found (start + taken.length) ++ [⟨index, start, taken⟩] := by
  intro β next place captures result ahead matched
  rw [List.append_assoc] at ahead
  have bounded : taken.length ≤ place.ahead.length + least + 1 := by
    rw [ahead, List.length_append]
    omega
  rw [run, run]
  dsimp only
  rw [run]
  refine repeated_lazy (fun c member => bne_iff_ne.mpr fun feed => plain (feed ▸ member)) enough
    bounded ahead ?_ ?_
  · intro before skipped split filled long
    rw [Option.eq_none_iff_forall_ne_some]
    intro result matched
    obtain ⟨text, others, _, begins, reads, _⟩ := leads_run matched
    exact earlier before skipped split filled long text ⟨others, begins.symm⟩ reads
  · have length : (place.past taken (behind ++ rest)).offset - place.offset = taken.length :=
      Nat.add_sub_cancel_left ..
    rw [length, ahead, List.take_left]
    refine takes β next (place.past taken (behind ++ rest)) _ result rfl ?_
    rwa [Place.past_past, List.append_cons]

/-- What an expression takes first is its match at a place. -/
theorem TakesFirst.matchAt {regex : Regex} {found : Nat → List Capture}
    (takes : TakesFirst ignoreCase regex taken rest found) (ahead : place.ahead = taken ++ rest) :
    matchAt ignoreCase regex place =
      some ⟨place.offset, place.offset + taken.length, taken, found place.offset⟩ := by
  refine takes _ _ place [] _ ahead ?_
  have length : (place.past taken rest).offset = place.offset + taken.length := rfl
  rw [length, Nat.add_sub_cancel_left, ahead, List.take_left, List.append_nil]

/-- At the start of a text its start is taken. -/
theorem matchAt_textStart (regex : Regex) (before : Option Char) (text : List Char) :
    matchAt ignoreCase (.seq .textStart regex) ⟨before, text, 0⟩ =
      matchAt ignoreCase regex ⟨before, text, 0⟩ := rfl

end Conformance.Regex
