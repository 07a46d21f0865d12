import Conformance.Proofs.Syntax.TypeExpression
import Conformance.Syntax.Expression

/-!
# Elements and expressions lay out their nodes

The text between the tags of an element, the members and calls behind an operand and the
operators behind an expression lie one behind the other.
-/

namespace Conformance.Syntax

open Cursor

variable {start cursor : Cursor} {before : List Node}

/-! Markup elements. -/

/-- The members behind a tag name lie behind it. -/
theorem laid_tagMembers (bound : Nat) (laid : Laid start before cursor) :
    Laid start (tagMembers bound before cursor).1 (tagMembers bound before cursor).2 := by
  induction bound generalizing before cursor with
  | zero => exact laid
  | succ bound inductionHypothesis =>
    have member : LaysOut (Rule.all [Rule.mark ".",
        Rule.playing .property (Syntax.anyName .propertyIdentifier)]) :=
      .all ⟨.mark, .playing .anyName⟩
    unfold tagMembers
    split
    · exact laid_takenIn laid (member cursor) fun _ _ taken => inductionHypothesis (taken.wrap _)
    · exact laid

/-- Plain text and character references lie one behind the other. -/
theorem laid_referencedText (kind : Construct) (plain : Char → Bool) (bound : Nat)
    (cursor : Cursor) :
    Laid cursor (referencedText kind plain bound cursor).1
      (referencedText kind plain bound cursor).2 := by
  induction bound generalizing cursor with
  | zero => exact .none (.refl cursor)
  | succ bound inductionHypothesis =>
    unfold referencedText
    split
    · exact .none (.refl cursor)
    · next c rest ahead =>
      dsimp only
      split
      · exact (Laid.leaf _ (reaches_advance _ cursor)).append (inductionHypothesis _)
      · split
        · have passes := (reaches_step cursor c rest ahead).trans
            (reaches_skipWhile (fun d => plain d && d != '&') (cursor.step c rest))
          exact (Laid.leaf _ passes).append (inductionHypothesis _)
        · exact .none (.refl cursor)

namespace LaysOut

/-- A tag or attribute name. -/
theorem tagWord {kind : Construct} : LaysOut (Syntax.tagWord kind) := by
  apply leafOf
  intro start stop found
  dsimp only at found
  split at found
  · cases found
  · cases found
    exact reaches_advance _ start

/-- The name of a tag. -/
theorem tagName : LaysOut Syntax.tagName :=
  readingOn tagWord fun _ _ next laid => yields_ite
    (yields (construct (all ⟨tagWord, mark, tagWord⟩)))
    (yields_some (laid_tagMembers (next.left + 1) laid))

/-- The name of an attribute. -/
theorem attributeName : LaysOut Syntax.attributeName :=
  readingOn tagWord fun _ _ _ laid => yields_ite
    (yields (construct (all ⟨tagWord, mark, tagWord⟩))) (yields_some laid)

/-- A quoted attribute value. -/
theorem attributeText : LaysOut Syntax.attributeText := by
  intro start
  unfold Syntax.attributeText
  dsimp only
  split
  · next quote rest ahead =>
    split
    · split
      · next close after behind =>
        have opens := reaches_step (gap start).2 quote rest ahead
        have parts := laid_referencedText .stringFragment (· != quote)
          (((gap start).2.step quote rest).left + 1) ((gap start).2.step quote rest)
        have closes := reaches_step _ close after behind
        exact yields_some ((laid_gap start).append
          ((((Laid.leaf _ opens).append parts).append (.leaf _ closes)).wrap .stringLiteral))
      · exact yields_none start
    · exact yields_none start
  · exact yields_none start

/-- The closing tag. -/
theorem closingTag : LaysOut Syntax.closingTag :=
  construct (all ⟨mark, optional (playing tagName), mark⟩)

variable {self : Self} (nested : ∀ goal, LaysOut (self goal))
include nested

/-- An expression in braces. -/
theorem embedded : LaysOut (Syntax.embedded self) :=
  construct (all ⟨openBrace, optional (firstOf ⟨construct (all ⟨mark, nested _⟩), nested _⟩),
    closeBrace⟩)

/-- An attribute. -/
theorem tagAttribute : LaysOut (Syntax.tagAttribute self) :=
  ite (embedded nested) (construct (all ⟨attributeName, optional (andThen mark
    (firstOf ⟨attributeText, embedded nested, nested _⟩))⟩))

/-- The inside of an opening tag. -/
theorem tagInside : LaysOut (Syntax.tagInside self) :=
  optional (all ⟨playing tagName, optional (typeArguments nested), many (tagAttribute nested)⟩)

/-- What stands between the tags. -/
theorem elementContent (bound : Nat) : LaysOut (Syntax.elementContent self bound) := by
  induction bound with
  | zero => exact yields_none
  | succ bound inductionHypothesis =>
    intro start
    unfold Syntax.elementContent
    split
    · exact yields_none start
    · dsimp only
      split
      · split
        · exact yields_some (.none (.refl start))
        · exact yields_readingOn (nested _ start) fun _ next laid =>
            Yields.map laid (inductionHypothesis next)
      · split
        · exact yields_readingOn (embedded nested start) fun _ next laid =>
            Yields.map laid (inductionHypothesis next)
        · have text := laid_referencedText .jsxText (fun c => c != '<' && c != '\x7b')
            (start.left + 1) start
          split
          · refine Yields.map ?_ (inductionHypothesis _)
            split
            · exact text
            · exact .none text.reaches
          · exact yields_none start

/-- An element. -/
theorem elementRule : LaysOut (Syntax.elementRule self) := by
  have front : LaysOut (Rule.all [Rule.mark "<", Syntax.tagInside self]) :=
    all ⟨mark, tagInside nested⟩
  refine readingOn front fun start nodes next laid => ?_
  split
  · split
    · next parts stop read => exact yields_some ((laid.append (mark next parts stop read)).wrap _)
    · exact yields_none start
  · split
    · exact yields_none start
    · next parts inner read =>
      have opening := (laid.append (mark next parts inner read)).wrap .jsxOpeningElement
      split
      · exact yields_none start
      · next content last between =>
        have inside := opening.append (elementContent nested _ inner content last between)
        split
        · exact yields_none start
        · next closing stop ends =>
          exact yields_some ((inside.append (closingTag last closing stop ends)).wrap .jsxElement)

/-! Expressions. -/

/-- Arguments of a call. -/
theorem arguments : LaysOut (Syntax.arguments self) :=
  construct (all ⟨mark, sparse (ite (construct (all ⟨mark, nested _⟩)) (nested _)), mark⟩)

/-- A list of values. -/
theorem arrayLiteral : LaysOut (Syntax.arrayLiteral self) :=
  construct (all ⟨mark, sparse (ite (construct (all ⟨mark, nested _⟩)) (nested _)), mark⟩)

/-- A member of an object literal. -/
theorem objectMember : LaysOut (Syntax.objectMember self) := by
  refine ite (construct (all ⟨mark, nested _⟩)) fun start =>
    yields_otherwise (methodDefinition nested start) ?_
  split
  · exact yields_none start
  · exact yields_ite (yields (construct (all ⟨memberName nested, mark, playing (nested _)⟩)))
      (nameOrContextual start)

/-- An object literal. -/
theorem objectLiteral : LaysOut (Syntax.objectLiteral self) :=
  construct (all ⟨openBrace, sparse (objectMember nested), closeBrace⟩)

/-- An expression in parentheses. -/
theorem parenthesized : LaysOut (Syntax.parenthesized self) :=
  construct (all ⟨mark, nested _, optional (annotatedType nested), mark⟩)

/-- A function in an expression. -/
theorem functionExpression : LaysOut (Syntax.functionExpression self) := by
  have head : LaysOut (Rule.all [Rule.optional (Rule.word "async"), Rule.word "function"]) :=
    all ⟨optional word, word⟩
  refine readingOn head fun start _ _ _ => ?_
  dsimp only
  exact yields (construct (all ⟨head, optional mark, optional (playing bindingName),
    callSignature nested, playing (nested _)⟩))

/-- What an arrow function computes. -/
theorem arrowBody {mode : Mode} : LaysOut (Syntax.arrowBody self mode) :=
  ite (playing (nested _)) (playing (nested _))

/-- An arrow function with a parameter list. -/
theorem arrowWithSignature {mode : Mode} : LaysOut (Syntax.arrowWithSignature self mode) :=
  construct (all ⟨optional word, callSignature nested, mark, arrowBody nested⟩)

/-- An arrow function with one bare parameter. -/
theorem arrowWithName {mode : Mode} : LaysOut (Syntax.arrowWithName self mode) :=
  construct (all ⟨optional (when _ word), identifier, mark, arrowBody nested⟩)

/-- An instance of a class. -/
theorem newExpression {mode : Mode} : LaysOut (Syntax.newExpression self mode) :=
  construct (all ⟨word, nested _, optional (when _ (typeArguments nested)),
    optional (ite never (arguments nested))⟩)

omit nested in
/-- A property of the running code. -/
theorem metaProperty : LaysOut Syntax.metaProperty :=
  firstOf ⟨construct (all ⟨word, mark, word⟩), construct (all ⟨word, mark, word⟩)⟩

/-- An operand without anything behind it. -/
theorem primaryRule {dialect : Dialect} {mode : Mode} :
    LaysOut (Syntax.primaryRule self dialect mode) := by
  intro start
  unfold Syntax.primaryRule
  dsimp only
  split
  · exact yields_none start
  · refine yields_ite (parenthesized nested start) (yields_ite (arrayLiteral nested start)
      (yields_ite (objectLiteral nested start) (yields_ite (stringLiteral start)
      (yields_ite (templateString nested start) (yields_ite (regexLiteral start)
      (yields_ite (privateName start) (yields_ite (classExpression nested start)
      (yields_ite (yields_ite (nested _ start) (yields_none start))
      (yields_ite (numberLiteral start) ?_)))))))))
    exact yields_ite (wordConstruct start) (yields_ite (wordConstruct start)
      (yields_ite (wordConstruct start) (yields_ite (wordConstruct start)
      (yields_ite (wordConstruct start) (yields_ite (functionExpression nested start)
      (yields_ite (classExpression nested start)
      (yields_ite (yields (firstOf ⟨metaProperty, newExpression nested⟩))
      (yields_ite (yields (firstOf ⟨metaProperty, wordConstruct⟩))
      (yields_ite (functionExpression nested start) (identifier start))))))))))

end LaysOut

/-- What stands behind an operand lies behind it. -/
def Follows (start : Cursor) (result : Option (Construct × List Node × Cursor)) : Prop :=
  ∀ kind nodes stop, result = some (kind, nodes, stop) → Laid start nodes stop

/-- Nothing stands behind an operand. -/
theorem follows_none (start : Cursor) : Follows start none := by
  intro kind nodes stop impossible
  cases impossible

/-- What a rule reads behind an operand that has been read up to a place. -/
theorem follows_map {next : Cursor} {kind : Construct} {rule : Rule} (laid : Laid start before next)
    (laysOut : LaysOut rule) :
    Follows start ((rule next).map fun (nodes, stop) => (kind, before ++ nodes, stop)) := by
  intro kind nodes stop read
  obtain ⟨_, found, taken⟩ := Option.map_eq_some_iff.mp read
  cases taken
  exact laid.append (laysOut next _ _ found)

/-- What a rule reads behind an operand. -/
theorem follows_found {kind : Construct} {rule : Rule} (laysOut : LaysOut rule) :
    Follows start ((rule start).map fun (nodes, stop) => (kind, nodes, stop)) :=
  follows_map (.none (.refl start)) laysOut

section

variable {self : Self} (nested : ∀ goal, LaysOut (self goal))
include nested

/-- One thing behind an operand. -/
theorem follows_tailRule (calls : Bool) (start : Cursor) :
    Follows start (tailRule self calls start) := by
  have property : LaysOut (Rule.playing .property (Rule.firstOf [Syntax.privateName,
      Syntax.anyName .propertyIdentifier])) :=
    .playing (.firstOf ⟨.privateName, .anyName⟩)
  have index : LaysOut (Rule.all [Rule.mark "[", self (.sequence Mode.closed), Rule.mark "]"]) :=
    .all ⟨.mark, nested _, .mark⟩
  have chain : LaysOut (Rule.construct .optionalChain (Rule.mark "?.")) := .construct .mark
  have call : LaysOut (Rule.playing .value (Syntax.arguments self)) :=
    .playing (.arguments nested)
  have list := LaysOut.typeArguments nested
  unfold tailRule
  dsimp only
  split
  · split
    · exact follows_none start
    · exact follows_found (.all ⟨.mark, property⟩)
  · split
    · exact follows_none start
    · split
      · split
        · exact follows_found (.all ⟨chain, call⟩)
        · exact follows_none start
      · split
        · exact follows_found (.all ⟨chain, index⟩)
        · split
          · split
            · exact follows_found (.all ⟨chain, list, call⟩)
            · exact follows_none start
          · exact follows_found (.all ⟨chain, property⟩)
  · exact follows_found index
  · split
    · exact follows_found call
    · exact follows_none start
  · exact follows_found (.playing (.templateString nested))
  · split
    · exact follows_none start
    · exact follows_found .mark
  · split
    · exact follows_none start
    · split
      · exact follows_none start
      · next nodes next read =>
        have laid := list start nodes next read
        split
        · exact follows_map laid call
        · split
          · exact follows_map laid (.templateString nested)
          · split
            · rintro _ _ _ ⟨⟩
              exact laid
            · exact follows_none start
  · exact follows_none start

/-- Everything behind an operand lies behind it. -/
theorem laid_tails (calls : Bool) (mode : Mode) (bound : Nat) (laid : Laid start before cursor) :
    Laid start (tails self calls mode bound before cursor).1
      (tails self calls mode bound before cursor).2 := by
  induction bound generalizing before cursor with
  | zero => exact laid
  | succ bound inductionHypothesis =>
    unfold tails
    split
    · exact laid
    · split
      · exact laid
      · next kind parts next read =>
        refine inductionHypothesis (((laid.map _ ?_).append
          (follows_tailRule nested calls cursor kind parts next read)).wrap kind)
        intro node
        split
        · exact .inl rfl
        · exact .inr ⟨_, rfl⟩

/-- Binary operators and their operands lie behind the first operand. -/
theorem laid_binaryTail (mode : Mode) (least bound : Nat) (laid : Laid start before cursor) :
    Laid start (binaryTail self mode least bound before cursor).1
      (binaryTail self mode least bound before cursor).2 := by
  induction bound generalizing before cursor with
  | zero => exact laid
  | succ bound inductionHypothesis =>
    have goesOn (kind : Construct) {rule : Rule} (laysOut : LaysOut rule) :=
      laid_takenIn laid (laysOut cursor) fun _ _ taken => inductionHypothesis (taken.wrap kind)
    have claimed : LaysOut (claimedType self) := .ite .word (nested _)
    unfold binaryTail
    dsimp only
    split
    · exact laid
    · split
      · split
        · exact laid
        · exact goesOn _ (.andThen .word claimed)
      · split
        · split
          · exact laid
          · exact goesOn _ (.andThen .word (nested _))
        · split
          · exact laid
          · split
            · exact laid
            · split
              · exact laid
              · exact goesOn _ (.andThen .mark (nested _))

end

namespace LaysOut

variable {self : Self} (nested : ∀ goal, LaysOut (self goal))
include nested

/-- An operand with everything behind it. -/
theorem operandRule {dialect : Dialect} {calls : Bool} {mode : Mode} :
    LaysOut (Syntax.operandRule self dialect calls mode) := by
  have step : LaysOut (Rule.firstOf [Rule.mark "++", Rule.mark "--"]) := firstOf ⟨mark, mark⟩
  refine readingOn (primaryRule nested) fun start before next laid => ?_
  have behind := laid_tails nested calls mode (next.left + 1) laid
  dsimp only
  split
  · split
    · next parts stop read => exact yields_some ((behind.append (step _ parts stop read)).wrap _)
    · exact yields_some behind
  · exact yields_some behind

/-- An operand with unary operators before it. -/
theorem unaryRule {dialect : Dialect} {mode : Mode} :
    LaysOut (Syntax.unaryRule self dialect mode) := by
  intro start
  unfold Syntax.unaryRule
  dsimp only
  split
  · exact yields_none start
  · exact yields_ite (construct (andThen mark (nested _)) start)
      (yields_ite (construct (andThen mark (nested _)) start)
      (yields_ite (construct (andThen mark (nested _)) start)
      (yields_ite (construct (andThen (typeArguments nested) (nested _)) start)
      (yields_ite (construct (andThen word (nested _)) start)
      (yields_ite (construct (andThen word (nested _)) start) (operandRule nested start))))))

/-- Operands joined by binary operators. -/
theorem binaryRule {mode : Mode} {least : Nat} : LaysOut (Syntax.binaryRule self mode least) :=
  readingOn (nested _) fun _ _ next laid =>
    yields_some (laid_binaryTail nested mode least (next.left + 1) laid)

/-- The two branches of a choice. -/
theorem branches {mode : Mode} : LaysOut (Syntax.branches self mode) :=
  andThen (firstOf ⟨all ⟨mark, nested _, mark⟩, all ⟨mark, nested _, mark⟩⟩) (nested _)

/-- An assignment to a pattern. -/
theorem patternAssignment {mode : Mode} : LaysOut (Syntax.patternAssignment self mode) :=
  construct (all ⟨nested _, mark, nested _⟩)

/-- A choice, an assignment, or a plain expression. -/
theorem assignmentRule {mode : Mode} : LaysOut (Syntax.assignmentRule self mode) := by
  intro start
  unfold Syntax.assignmentRule
  dsimp only
  split
  · exact yields_ite (patternAssignment nested start) (yields_none start)
  · next nodes next read =>
    have laid := binaryRule nested start nodes next read
    split
    · exact yields_some laid
    · split
      · exact yields_some laid
      · exact yields_ite (yields_taken laid (branches nested next))
          (yields_ite (yields_ite (patternAssignment nested start)
            (yields_taken laid (andThen mark (nested _) next)))
          (yields_ite (yields_taken laid (andThen mark (nested _) next)) (yields_some laid)))

/-- A generator's result. -/
theorem yieldRule {mode : Mode} : LaysOut (Syntax.yieldRule self mode) :=
  construct (all ⟨word, optional mark, optional (ite never (nested _))⟩)

omit nested in
/-- An arrow function or a plain expression, by what stands behind some parentheses. -/
theorem yields_byParentheses {start opening : Cursor} {branch : Bool}
    {either plain : Option (List Node × Cursor)} :
    Yields start either → Yields start plain →
      Yields start (match behindParentheses opening with
        | .arrow => either
        | .colon => if branch then plain else either
        | .unknown => either
        | .other => plain) := by
  intro withSignature without
  split
  · exact withSignature
  · exact yields_ite without withSignature
  · exact withSignature
  · exact without

/-- An expression without commas. -/
theorem expressionRule {dialect : Dialect} {mode : Mode} :
    LaysOut (Syntax.expressionRule self dialect mode) := by
  intro start
  have plain : Yields start (Syntax.assignmentRule self mode start) := assignmentRule nested start
  have named : Yields start (Syntax.arrowWithName self mode start) := arrowWithName nested start
  have either : Yields start (Rule.firstOf [Syntax.arrowWithSignature self mode,
      Syntax.assignmentRule self mode] start) :=
    yields_otherwise (arrowWithSignature nested start) (yields_otherwise plain (yields_none start))
  unfold Syntax.expressionRule
  dsimp only
  exact yields_ite (yields_byParentheses either plain) (yields_ite (yields_ite either plain)
    (yields_ite plain (yields_ite (yields_ite (yields_byParentheses either plain)
      (yields_ite either (yields_ite named (yields_ite named plain))))
    (yields_ite named (yields_ite (yieldRule nested start) plain)))))

/-- Expressions between commas. -/
theorem sequenceRule {mode : Mode} : LaysOut (Syntax.sequenceRule self mode) :=
  extendedIf (nested _) (atLeastOnce (andThen mark (nested _)))

end LaysOut

end Conformance.Syntax
