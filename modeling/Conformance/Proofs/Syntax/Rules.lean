import Conformance.Proofs.Syntax.Layout

/-!
# Rules that lay out what they read

A rule lays out its nodes if they lie between the place where it begins and the place where it
ends. The ways of putting rules together keep that.
-/

namespace Conformance.Syntax

open Cursor

/-- What is read lies between a place and the end of what is read. -/
def Yields (start : Cursor) (result : Option (List Node × Cursor)) : Prop :=
  ∀ nodes stop, result = some (nodes, stop) → Laid start nodes stop

/-- A rule whose nodes lie between its beginning and its end, wherever it begins. -/
def LaysOut (rule : Rule) : Prop := ∀ start, Yields start (rule start)

/-- Rules that all lay out what they read. -/
@[reducible] def EachLaysOut : List Rule → Prop
  | [] => True
  | [rule] => LaysOut rule
  | rule :: rules => LaysOut rule ∧ EachLaysOut rules

/-- Nothing has been read. -/
theorem yields_none (start : Cursor) : Yields start none := by
  intro nodes stop impossible
  cases impossible

/-- Nodes that have been read. -/
theorem yields_some {start stop : Cursor} {nodes : List Node} (laid : Laid start nodes stop) :
    Yields start (some (nodes, stop)) := by
  rintro _ _ ⟨⟩
  exact laid

/-- One of two things that have been read. -/
theorem yields_ite {start : Cursor} {condition : Prop} [Decidable condition]
    {first second : Option (List Node × Cursor)} (holds : Yields start first)
    (fails : Yields start second) : Yields start (if condition then first else second) := by
  split
  · exact holds
  · exact fails

/-- What has been read, or something else where nothing has. -/
theorem yields_otherwise {start : Cursor} {first second : Option (List Node × Cursor)} :
    Yields start first → Yields start second → Yields start (match first with
      | some result => some result
      | none => second) := by
  intro reads fails
  split
  · exact reads
  · exact fails

/-- What is read behind something that has been read. -/
theorem yields_readingOn {start : Cursor} {result : Option (List Node × Cursor)}
    {rest : List Node → Cursor → Option (List Node × Cursor)} :
    Yields start result →
      (∀ before next, Laid start before next → Yields start (rest before next)) →
      Yields start (match result with
        | none => none
        | some (before, next) => rest before next) := by
  intro begins goesOn
  split
  · exact yields_none start
  · next before next => exact goesOn before next (begins before next rfl)

/-- What has been read, perhaps with something behind it in a construct. -/
theorem yields_taken {start next : Cursor} {before : List Node} {kind : Construct}
    {result : Option (List Node × Cursor)} :
    Laid start before next → Yields next result →
      Yields start (match result with
        | some (parts, stop) => some (Rule.wrap kind (before ++ parts) stop, stop)
        | none => some (before, next)) := by
  intro laid further
  split
  · next parts stop => exact yields_some ((laid.append (further parts stop rfl)).wrap kind)
  · exact yields_some laid

/-- Nodes that go on with what is read behind them, or end where nothing is read. -/
theorem laid_takenIn {start cursor : Cursor} {before : List Node}
    {result : Option (List Node × Cursor)} {rest : List Node → Cursor → List Node × Cursor} :
    Laid start before cursor → Yields cursor result →
      (∀ parts next, Laid start (before ++ parts) next →
        Laid start (rest parts next).1 (rest parts next).2) →
      Laid start (match result with
        | some (parts, next) => rest parts next
        | none => (before, cursor)).1 (match result with
        | some (parts, next) => rest parts next
        | none => (before, cursor)).2 := by
  intro laid further goesOn
  split
  · next parts next => exact goesOn parts next (laid.append (further parts next rfl))
  · exact laid

/-- What goes on behind nodes that have been read. -/
theorem Yields.map {start next : Cursor} {before : List Node}
    {result : Option (List Node × Cursor)} (laid : Laid start before next)
    (further : Yields next result) :
    Yields start (result.map fun (nodes, stop) => (before ++ nodes, stop)) := by
  intro nodes stop read
  obtain ⟨_, found, joined⟩ := Option.map_eq_some_iff.mp read
  cases joined
  exact laid.append (further _ _ found)

namespace LaysOut

variable {rule first second : Rule} {rules : List Rule}

/-- What a rule reads that lays out its nodes. -/
theorem yields {start : Cursor} (laysOut : LaysOut rule) : Yields start (rule start) :=
  laysOut start

/-- A rule that never applies. -/
theorem never : LaysOut fun _ => none := yields_none

/-- Nothing lies anywhere. -/
theorem nothing : LaysOut Rule.nothing := by
  intro start
  exact yields_some (.none (.refl start))

/-- Two rules one after the other. -/
theorem andThen (begins : LaysOut first) (ends : LaysOut second) :
    LaysOut (Rule.andThen first second) := by
  intro start
  unfold Rule.andThen
  split
  · exact yields_none start
  · next before next read =>
    split
    · exact yields_none start
    · next after stop further =>
      exact yields_some ((begins start before next read).append (ends next after stop further))

/-- Several rules one after the other. -/
theorem all (each : EachLaysOut rules) : LaysOut (Rule.all rules) := by
  induction rules with
  | nil => exact nothing
  | cons rule rules inductionHypothesis =>
    cases rules with
    | nil => exact each
    | cons second others => exact andThen each.1 (inductionHypothesis each.2)

/-- The first rule that applies. -/
theorem firstOf (each : EachLaysOut rules) : LaysOut (Rule.firstOf rules) := by
  induction rules with
  | nil => exact yields_none
  | cons rule rules inductionHypothesis =>
    obtain ⟨here, others⟩ : LaysOut rule ∧ EachLaysOut rules := by
      cases rules with
      | nil => exact ⟨each, trivial⟩
      | cons second others => exact each
    exact fun start => yields_otherwise (here start) (inductionHypothesis others start)

/-- A rule that need not apply. -/
theorem optional (laysOut : LaysOut rule) : LaysOut (Rule.optional rule) :=
  fun start => yields_otherwise (laysOut start) (yields_some (.none (.refl start)))

/-- A rule so many times at most. -/
theorem manyUpTo (laysOut : LaysOut rule) (bound : Nat) : LaysOut (Rule.manyUpTo bound rule) := by
  induction bound with
  | zero => exact nothing
  | succ bound inductionHypothesis =>
    intro start
    unfold Rule.manyUpTo
    split
    · exact yields_some (.none (.refl start))
    · next before next read =>
      have laid := laysOut start before next read
      split
      · split
        · next after stop further =>
          exact yields_some (laid.append (inductionHypothesis next after stop further))
        · exact yields_some laid
      · exact yields_some (.none (.refl start))

/-- A rule as often as it applies. -/
theorem many (laysOut : LaysOut rule) : LaysOut (Rule.many rule) :=
  fun start => manyUpTo laysOut (start.left + 1) start

/-- A rule one or more times. -/
theorem atLeastOnce (laysOut : LaysOut rule) : LaysOut (Rule.atLeastOnce rule) :=
  andThen laysOut (many laysOut)

/-- A rule that a look ahead chooses. -/
theorem when (test : Cursor → Bool) (laysOut : LaysOut rule) : LaysOut (Rule.when test rule) := by
  intro start
  unfold Rule.when
  split
  · exact laysOut start
  · exact yields_none start

/-- A rule or another one. -/
theorem ite {condition : Cursor → Prop} [∀ start, Decidable (condition start)]
    (holds : LaysOut first) (fails : LaysOut second) :
    LaysOut fun start => if condition start then first start else second start := by
  intro start
  dsimp only
  split
  · exact holds start
  · exact fails start

/-- One of two rules. -/
theorem chosen (condition : Prop) [Decidable condition] (holds : LaysOut first)
    (fails : LaysOut second) : LaysOut (if condition then first else second) := by
  split
  · exact holds
  · exact fails

/-- A rule that goes on behind what another one reads, or looks at where that one ends. -/
theorem readingOn {rest : Cursor → List Node → Cursor → Option (List Node × Cursor)}
    (begins : LaysOut first)
    (goesOn : ∀ start before next, Laid start before next → Yields start (rest start before next)) :
    LaysOut fun start => match first start with
      | none => none
      | some (before, next) => rest start before next :=
  fun start => yields_readingOn (begins start) (goesOn start)

/-- The parts of a construct. -/
theorem construct {kind : Construct} (parts : LaysOut rule) :
    LaysOut (Rule.construct kind rule) := by
  intro start
  unfold Rule.construct
  split
  · next nodes stop read => exact yields_some ((parts start nodes stop read).wrap kind)
  · exact yields_none start

/-- Parts that may be taken into a construct with further ones. -/
theorem extended {more : Cursor → Option (Construct × Rule)} (begins : LaysOut first)
    (goesOn : ∀ next kind further, more next = some (kind, further) → LaysOut further) :
    LaysOut (Rule.extended first more) := by
  intro start
  unfold Rule.extended
  split
  · exact yields_none start
  · next before next read =>
    have laid := begins start before next read
    split
    · exact yields_some laid
    · next kind further chosen =>
      split
      · exact yields_none start
      · next after stop behind =>
        exact yields_some ((laid.append (goesOn next kind further chosen next after stop behind)).wrap
          kind)

/-- Parts that are taken into a construct with further ones if a look ahead says so. -/
theorem extendedIf {test : Cursor → Bool} {kind : Construct} (begins : LaysOut first)
    (goesOn : LaysOut second) :
    LaysOut (Rule.extended first fun next => if test next then some (kind, second) else none) := by
  refine extended begins ?_
  intro next other further chosen
  split at chosen
  · cases chosen
    exact goesOn
  · cases chosen

/-- Parts that are taken into one of two constructs with further ones. -/
theorem extendedEither {condition : Cursor → Prop} [∀ next, Decidable (condition next)]
    {kind other : Construct} (begins : LaysOut rule) (holds : LaysOut first)
    (fails : LaysOut second) :
    LaysOut (Rule.extended rule fun next =>
      if condition next then some (kind, first) else some (other, second)) := by
  refine extended begins ?_
  intro next chosen further found
  split at found
  · cases found
    exact holds
  · cases found
    exact fails

/-- Nodes that are given a role. -/
theorem playing {role : Role} (laysOut : LaysOut rule) : LaysOut (Rule.playing role rule) := by
  intro start
  unfold Rule.playing
  split
  · next nodes stop read =>
    refine yields_some ((laysOut start nodes stop read).map _ ?_)
    intro node
    split
    · exact .inl rfl
    · exact .inr ⟨role, rfl⟩
  · exact yields_none start

end LaysOut

/-! Gaps, leaves and words. -/

namespace Cursor

/-- The place behind a comment. -/
theorem reaches_commentEnd {cursor stop : Cursor} (ends : commentEnd? cursor = some stop) :
    cursor.Reaches stop := by
  unfold commentEnd? at ends
  split at ends
  · cases ends
    exact reaches_advance _ cursor
  · obtain ⟨count, _, rfl⟩ := Option.map_eq_some_iff.mp ends
    exact reaches_advance _ cursor
  · cases ends

end Cursor

/-- Comments before a token lie between the place where the gap begins and the token. -/
theorem laid_gapFrom (bound : Nat) (cursor : Cursor) :
    Laid cursor (gapFrom bound cursor).1 (gapFrom bound cursor).2 := by
  induction bound generalizing cursor with
  | zero => exact .none (.refl cursor)
  | succ bound inductionHypothesis =>
    unfold gapFrom
    split
    · exact .none (.refl cursor)
    · next c rest ahead =>
      split
      · exact (inductionHypothesis (cursor.step c rest)).behind (reaches_step cursor c rest ahead)
      · split
        · split
          · next stop ends =>
            exact (Laid.leaf (.construct .comment) (reaches_commentEnd ends)).append
              (inductionHypothesis stop)
          · exact .none (.refl cursor)
        · exact .none (.refl cursor)

/-- Comments before a token lie between the place where the gap begins and the token. -/
theorem laid_gap (cursor : Cursor) : Laid cursor (gap cursor).1 (gap cursor).2 :=
  laid_gapFrom cursor.left cursor

/-- A recogniser that looks for the end of a leaf ahead. -/
def EndsAhead (recognise : Cursor → Option Cursor) : Prop :=
  ∀ start stop, recognise start = some stop → start.Reaches stop

namespace Cursor

/-- The place of the next token. -/
theorem reaches_nextToken (cursor : Cursor) : cursor.Reaches (nextToken cursor) :=
  (laid_gap cursor).reaches

/-- The place behind a name. -/
theorem reaches_nameAt {cursor stop : Cursor} {name : List Char}
    (found : nameAt? cursor = some (name, stop)) : cursor.Reaches stop := by
  unfold nameAt? at found
  split at found
  · cases found
  · cases found
    exact reaches_advance _ cursor

/-- The place behind the next token, if it is a name. -/
theorem reaches_behindName (cursor : Cursor) : cursor.Reaches (behindName cursor) := by
  unfold behindName
  split
  · next name stop found => exact (reaches_nextToken cursor).trans (reaches_nameAt found)
  · exact .refl cursor

end Cursor

namespace LaysOut

/-- A leaf behind a gap. -/
theorem leafOf {kind : Kind} {recognise : Cursor → Option Cursor} (ahead : EndsAhead recognise) :
    LaysOut (Rule.leafOf kind recognise) := by
  intro start
  unfold Rule.leafOf
  dsimp only
  split
  · next stop found =>
    exact yields_some ((laid_gap start).append (.leaf kind (ahead _ stop found)))
  · exact yields_none start

/-- A mark of punctuation. -/
theorem mark {text : String} : LaysOut (Rule.mark text) := by
  apply leafOf
  intro start stop found
  dsimp only at found
  split at found
  · cases found
    exact reaches_advance _ start
  · cases found

end LaysOut

/-- The recogniser of a word ends behind the name that it finds. -/
theorem endsAhead_word (accepts : List Char → Bool) :
    EndsAhead fun cursor => match nameAt? cursor with
      | some (name, next) => if accepts name then some next else none
      | none => none := by
  intro start stop found
  dsimp only at found
  split at found
  · next name next told =>
    split at found
    · cases found
      exact reaches_nameAt told
    · cases found
  · cases found

/-- The recogniser of any name. -/
theorem endsAhead_name : EndsAhead fun cursor => (nameAt? cursor).map (·.2) := by
  intro start stop found
  obtain ⟨⟨name, next⟩, told, rfl⟩ := Option.map_eq_some_iff.mp found
  exact reaches_nameAt told

namespace LaysOut

variable {rule : Rule}

/-- A keyword. -/
theorem word {text : String} : LaysOut (Rule.word text) :=
  leafOf (endsAhead_word (String.ofList · == text))

/-- One of several keywords. -/
theorem wordOf (texts : List String) : LaysOut (Rule.wordOf texts) := by
  unfold Rule.wordOf
  apply firstOf
  induction texts with
  | nil => trivial
  | cons text texts inductionHypothesis =>
    cases texts with
    | nil => exact word
    | cons second others => exact ⟨word, inductionHypothesis⟩

/-- A keyword that is a construct. -/
theorem wordConstruct {kind : Construct} {text : String} :
    LaysOut (Rule.wordConstruct kind text) :=
  leafOf (endsAhead_word (String.ofList · == text))

/-- The opening brace. -/
theorem openBrace : LaysOut Rule.openBrace := mark

/-- The closing brace. -/
theorem closeBrace : LaysOut Rule.closeBrace := mark

/-- Items between commas. -/
theorem commaSeparated (item : LaysOut rule) : LaysOut (Rule.commaSeparated rule) :=
  optional (all ⟨item, many (andThen mark item), optional mark⟩)

/-- One or more items between commas. -/
theorem commaSeparated1 (item : LaysOut rule) : LaysOut (Rule.commaSeparated1 rule) :=
  andThen item (many (andThen mark item))

/-- Items between commas, of which some may be missing. -/
theorem sparse (item : LaysOut rule) : LaysOut (Rule.sparse rule) :=
  andThen (optional item) (many (andThen mark (optional item)))

/-- A name of any kind. -/
theorem anyName {kind : Construct} : LaysOut (Syntax.anyName kind) := leafOf endsAhead_name

/-- A name that is no keyword. -/
theorem plainName {kind : Construct} : LaysOut (Syntax.plainName kind) := by
  apply leafOf
  intro start stop found
  dsimp only at found
  split at found
  · next name next told =>
    split at found
    · cases found
    · cases found
      exact reaches_nameAt told
  · cases found

/-- A name where contextual keywords are recognised. -/
theorem nameOrContextual {kind : Construct} : LaysOut (Syntax.nameOrContextual kind) := by
  intro start
  unfold Syntax.nameOrContextual
  dsimp only
  split
  · exact yields_none start
  · split
    · exact construct word start
    · exact plainName start

/-- An identifier. -/
theorem identifier : LaysOut Syntax.identifier := ite wordConstruct nameOrContextual

/-- The name that a declaration introduces. -/
theorem bindingName : LaysOut Syntax.bindingName := plainName

/-- A semicolon, or its omission. -/
theorem semicolonAfter {behindOperand : Bool} : LaysOut (Syntax.semicolonAfter behindOperand) :=
  ite nothing mark

/-- The end of a statement behind an expression. -/
theorem semicolon : LaysOut Syntax.semicolon := semicolonAfter

end LaysOut

end Conformance.Syntax
