import Conformance.Proofs.Syntax.Rules
import Conformance.Syntax.Signature

/-!
# Literals and signatures lay out their nodes

Each rule of the grammar is put together from rules that lay out what they read. Where a rule
reads what nests in it, it lays out its nodes if the reader of nested constructs does so.
-/

namespace Conformance.Syntax

open Cursor

/-! Literals. -/

/-- The parts of a quoted text lie one behind the other. -/
theorem laid_quotedParts (plain : Char → Bool) (bound : Nat) (cursor : Cursor) :
    Laid cursor (quotedParts plain bound cursor).1 (quotedParts plain bound cursor).2 := by
  induction bound generalizing cursor with
  | zero => exact .none (.refl cursor)
  | succ bound inductionHypothesis =>
    unfold quotedParts
    split
    · exact (Laid.leaf _ (reaches_advance _ cursor)).append (inductionHypothesis _)
    · split
      · exact (Laid.leaf _ (reaches_skipWhile _ cursor)).append (inductionHypothesis _)
      · exact .none (.refl cursor)
    · exact .none (.refl cursor)

namespace LaysOut

/-- A text between quotes. -/
theorem quotedText {quote : Char} : LaysOut (Syntax.quotedText quote) := by
  intro start
  unfold Syntax.quotedText
  dsimp only
  split
  · next c rest ahead =>
    split
    · split
      · next d after behind =>
        split
        · have opens := reaches_step (gap start).2 c rest ahead
          have parts := laid_quotedParts (fun c => c != quote && c != '\n' && c != '\r')
            (((gap start).2.step c rest).left + 1) ((gap start).2.step c rest)
          have closes := reaches_step _ d after behind
          exact yields_some ((laid_gap start).append
            ((((Laid.leaf _ opens).append parts).append (.leaf _ closes)).wrap .stringLiteral))
        · exact yields_none start
      · exact yields_none start
    · exact yields_none start
  · exact yields_none start

/-- A quoted text. -/
theorem stringLiteral : LaysOut Syntax.stringLiteral := firstOf ⟨quotedText, quotedText⟩

/-- The parts of a template. -/
theorem templateParts {hole : Rule} (holes : LaysOut hole) (bound : Nat) :
    LaysOut (Syntax.templateParts hole bound) := by
  induction bound with
  | zero => exact yields_none
  | succ bound inductionHypothesis =>
    intro start
    unfold Syntax.templateParts
    split
    · exact yields_none start
    · next rest ahead => exact yields_some (.leaf _ (reaches_step start _ rest ahead))
    · exact Yields.map (.leaf _ (reaches_advance _ start)) (inductionHypothesis _)
    · split
      · exact yields_none start
      · next nodes next read =>
        exact Yields.map (holes start nodes next read) (inductionHypothesis next)
    · next c rest _ _ _ ahead =>
      have passes := (reaches_step start c rest ahead).trans
        (reaches_skipWhile (fun c => c != '\x60' && c != '\\' && c != '$') (start.step c rest))
      exact Yields.map (.leaf _ passes) (inductionHypothesis _)

/-- A template. -/
theorem templateOf {kind hole : Construct} {inside : Rule} (holes : LaysOut inside) :
    LaysOut (Syntax.templateOf kind hole inside) := by
  intro start
  unfold Syntax.templateOf
  dsimp only
  split
  · next rest ahead =>
    split
    · next parts stop read =>
      have opens := reaches_step (gap start).2 '\x60' rest ahead
      have between : LaysOut (Rule.construct hole (Rule.all [Rule.mark "$\x7b", inside,
          Rule.closeBrace])) :=
        construct (all ⟨mark, holes, closeBrace⟩)
      have body := templateParts between _ _ parts stop read
      exact yields_some ((laid_gap start).append (((Laid.leaf _ opens).append body).wrap kind))
    · exact yields_none start
  · exact yields_none start

/-- A number. -/
theorem numberLiteral : LaysOut Syntax.numberLiteral := by
  apply leafOf
  intro start stop found
  obtain ⟨_, taken⟩ := Option.ite_none_right_eq_some.mp found
  cases taken
  exact reaches_advance _ start

/-- A regular expression. -/
theorem regexLiteral : LaysOut Syntax.regexLiteral := by
  intro start
  unfold Syntax.regexLiteral
  dsimp only
  split
  · next rest ahead =>
    split
    · exact yields_none start
    · next count _ =>
      refine yields_some ((laid_gap start).append (Laid.wrap .regex ?_))
      have opens := Laid.leaf (.token "/") (reaches_step (gap start).2 '/' rest ahead)
      have body := Laid.leaf (.construct .regexPattern)
        (reaches_advance count ((gap start).2.step '/' rest))
      have closes := Laid.leaf (.token "/")
        (reaches_advance 1 (((gap start).2.step '/' rest).advance count))
      have flags := reaches_skipWhile (fun c => c.isLower)
        ((((gap start).2.step '/' rest).advance count).advance 1)
      have before := (opens.append body).append closes
      split
      · exact before.append (.leaf _ flags)
      · exact before.append (.none flags)
  · exact yields_none start

/-! Names, annotations and signatures. -/

/-- The name of a property. -/
theorem propertyIdentifier : LaysOut Syntax.propertyIdentifier :=
  fun start => yields_ite (construct word start) (anyName start)

/-- A private name. -/
theorem privateName : LaysOut Syntax.privateName := by
  apply leafOf
  intro start stop found
  dsimp only at found
  split at found
  · next rest ahead =>
    obtain ⟨⟨name, next⟩, told, rfl⟩ := Option.map_eq_some_iff.mp found
    exact (reaches_step start '#' rest ahead).trans (reaches_nameAt told)
  · cases found

/-- The value of a module. -/
theorem importedModule : LaysOut Syntax.importedModule :=
  construct (all ⟨playing wordConstruct, playing (construct (all ⟨mark, stringLiteral, mark⟩))⟩)

/-- A name behind a point. -/
theorem pointedMember : LaysOut Syntax.pointedMember :=
  all ⟨firstOf ⟨mark, construct mark⟩, playing (firstOf ⟨privateName, anyName⟩)⟩

end LaysOut

/-- Names behind points lie behind the object. -/
theorem laid_membersBehind {start cursor : Cursor} {before : List Node} (bound : Nat)
    (laid : Laid start before cursor) :
    Laid start (membersBehind bound before cursor).1 (membersBehind bound before cursor).2 := by
  induction bound generalizing before cursor with
  | zero => exact laid
  | succ bound inductionHypothesis =>
    exact laid_takenIn laid (LaysOut.pointedMember cursor) fun _ _ taken =>
      inductionHypothesis (taken.wrap _)

namespace LaysOut

/-- A module, or what it holds under a name. -/
theorem importedValue : LaysOut Syntax.importedValue :=
  readingOn importedModule fun _ _ next laid =>
    yields_some (laid_membersBehind (next.left + 1) laid)

/-- The name of a type. -/
theorem typeName : LaysOut Syntax.typeName := anyName

/-- A word that says something about a type. -/
theorem subject : LaysOut Syntax.subject := firstOf ⟨wordConstruct, anyName⟩

/-- A word of accessibility. -/
theorem accessibility : LaysOut Syntax.accessibility := ite (construct (wordOf _)) never

/-- A keyword that modifies a member. -/
theorem modifier {text : String} : LaysOut (Syntax.modifier text) := ite word never

/-- The mark of an overriding member. -/
theorem overrideModifier : LaysOut Syntax.overrideModifier := construct modifier

variable {self : Self} (nested : ∀ goal, LaysOut (self goal))
include nested

/-- A template in an expression. -/
theorem templateString : LaysOut (Syntax.templateString self) := templateOf (nested _)

/-- A template in a type. -/
theorem templateType : LaysOut (Syntax.templateType self) := templateOf (nested _)

/-- A name in brackets. -/
theorem computedName : LaysOut (Syntax.computedName self) := construct (all ⟨mark, nested _, mark⟩)

/-- The name of a member. -/
theorem memberName : LaysOut (Syntax.memberName self) :=
  firstOf ⟨propertyIdentifier, privateName, stringLiteral, numberLiteral, computedName nested⟩

/-- A type behind a colon. -/
theorem annotatedType : LaysOut (Syntax.annotatedType self) := by
  intro start
  unfold Syntax.annotatedType
  dsimp only
  split
  · exact construct (andThen mark importedValue) start
  · exact construct (andThen mark (nested _)) start

/-- A statement that a value has a type. -/
theorem typePredicate : LaysOut (Syntax.typePredicate self) :=
  construct (all ⟨playing subject, word, nested _⟩)

/-- A statement that a call assures. -/
theorem assertion : LaysOut (Syntax.assertion self) :=
  construct (all ⟨word, firstOf ⟨when _ (typePredicate nested), subject⟩⟩)

/-- What a call returns. -/
theorem annotatedReturn : LaysOut (Syntax.annotatedReturn self) :=
  when _ (ite (construct (all ⟨mark, assertion nested⟩))
    (ite (construct (all ⟨mark, typePredicate nested⟩)) (annotatedType nested)))

/-- A type parameter. -/
theorem typeParameter : LaysOut (Syntax.typeParameter self) :=
  construct (all ⟨many (ite never (wordOf _)), playing typeName,
    optional (construct (all ⟨word, nested _⟩)), optional (construct (all ⟨mark, nested _⟩))⟩)

/-- Type parameters in angle brackets. -/
theorem typeParameters : LaysOut (Syntax.typeParameters self) :=
  construct (all ⟨mark, commaSeparated (typeParameter nested), mark⟩)

/-- Type arguments in angle brackets. -/
theorem typeArguments : LaysOut (Syntax.typeArguments self) :=
  construct (all ⟨mark, commaSeparated (nested _), mark⟩)

/-- A decorator. -/
theorem decorator : LaysOut (Syntax.decorator self) := construct (all ⟨mark, nested _⟩)

/-- A value behind an equals sign. -/
theorem initializer {mode : Mode} : LaysOut (Syntax.initializer self mode) :=
  andThen mark (playing (nested _))

/-- One parameter. -/
theorem parameter : LaysOut (Syntax.parameter self) :=
  have back : LaysOut (Rule.all [Rule.optional (Syntax.annotatedType self),
      Rule.optional (Syntax.initializer self Mode.closed)]) :=
    all ⟨optional (annotatedType nested), optional (initializer nested)⟩
  extendedEither (all ⟨many (decorator nested), optional accessibility, optional overrideModifier,
    optional modifier, playing (firstOf ⟨wordConstruct, nested _⟩)⟩) (all ⟨mark, back⟩) back

/-- A list of parameters. -/
theorem formalParameters : LaysOut (Syntax.formalParameters self) :=
  construct (all ⟨mark, commaSeparated (parameter nested), mark⟩)

/-- A call signature. -/
theorem callSignature : LaysOut (Syntax.callSignature self) :=
  all ⟨optional (typeParameters nested), playing (formalParameters nested),
    optional (playing (annotatedReturn nested))⟩

/-- A pattern with a default. -/
theorem patternWithDefault : LaysOut (Syntax.patternWithDefault self) :=
  extendedIf (nested _) (all ⟨mark, nested _⟩)

/-- A binding pattern in braces. -/
theorem objectPattern : LaysOut (Syntax.objectPattern self) := by
  refine construct (all ⟨openBrace, sparse (ite (construct (all ⟨mark, nested _⟩)) ?_), closeBrace⟩)
  refine readingOn (memberName nested) fun start _ _ _ => ?_
  split
  · exact yields (construct (all ⟨memberName nested, mark, playing (patternWithDefault nested)⟩))
  · split
    · exact yields (construct (all ⟨nameOrContextual, mark, nested _⟩))
    · exact nameOrContextual start

/-- A binding pattern in brackets. -/
theorem arrayPattern : LaysOut (Syntax.arrayPattern self) :=
  construct (all ⟨mark, sparse (patternWithDefault nested), mark⟩)

/-- A pattern. -/
theorem patternRule : LaysOut (Syntax.patternRule self) :=
  ite (objectPattern nested) (ite (arrayPattern nested)
    (ite (construct (all ⟨mark, nested _⟩)) (ite (nested _) identifier)))

end LaysOut

end Conformance.Syntax
