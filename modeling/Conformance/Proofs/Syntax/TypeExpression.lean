import Conformance.Proofs.Syntax.Signature
import Conformance.Syntax.Class

/-!
# Types and classes lay out their nodes

What is read behind a type, between operators or behind points is taken in by a construct that
begins where the type begins.
-/

namespace Conformance.Syntax

open Cursor

variable {start cursor : Cursor} {before : List Node}

/-- The words behind the points of a qualified name lie behind its first word. -/
theorem laid_qualifiedRest (bound : Nat) (laid : Laid start before cursor) :
    Laid start (qualifiedRest bound before cursor).1 (qualifiedRest bound before cursor).2 := by
  induction bound generalizing before cursor with
  | zero => exact laid
  | succ bound inductionHypothesis =>
    have word : LaysOut (Rule.all [Rule.mark ".", Syntax.anyName .propertyIdentifier]) :=
      .all ⟨.mark, .anyName⟩
    have last : LaysOut (Rule.all [Rule.mark ".", Rule.playing .name Syntax.typeName]) :=
      .all ⟨.mark, .playing .typeName⟩
    unfold qualifiedRest
    split
    · split
      · exact laid
      · next parts next read =>
        split
        · exact inductionHypothesis ((laid.append (word cursor parts next read)).wrap _)
        · split
          · exact laid
          · next parts next read => exact (laid.append (last cursor parts next read)).wrap _
    · exact laid

/-- Members between an operator lie behind the first one. -/
theorem laid_more {kind : Construct} {operator : String} {member : Rule} (laysOut : LaysOut member)
    (bound : Nat) (laid : Laid start before cursor) :
    Laid start (operatorType.more kind operator member bound before cursor).1
      (operatorType.more kind operator member bound before cursor).2 := by
  induction bound generalizing before cursor with
  | zero => exact laid
  | succ bound inductionHypothesis =>
    have further : LaysOut (Rule.all [Rule.mark operator, member]) := .all ⟨.mark, laysOut⟩
    unfold operatorType.more
    split
    · exact laid_takenIn laid (further cursor) fun _ _ taken => inductionHypothesis (taken.wrap kind)
    · exact laid

/-- Members and indexes behind a value lie behind it. -/
theorem laid_extend {index : Rule} (laysOut : LaysOut index) (bound : Nat)
    (laid : Laid start before cursor) :
    Laid start (queriedValue.extend index bound before cursor).1
      (queriedValue.extend index bound before cursor).2 := by
  induction bound generalizing before cursor with
  | zero => exact laid
  | succ bound inductionHypothesis =>
    unfold queriedValue.extend
    split
    · next parts next read =>
      exact inductionHypothesis ((laid.append (LaysOut.pointedMember cursor parts next read)).wrap _)
    · split
      · next parts next read =>
        exact inductionHypothesis ((laid.append (laysOut cursor parts next read)).wrap _)
      · exact laid

/-- Brackets behind a type lie behind it. -/
theorem laid_bracketsBehind {self : Self} (nested : ∀ goal, LaysOut (self goal)) (bound : Nat)
    (laid : Laid start before cursor) :
    Laid start (bracketsBehind self bound before cursor).1
      (bracketsBehind self bound before cursor).2 := by
  induction bound generalizing before cursor with
  | zero => exact laid
  | succ bound inductionHypothesis =>
    have empty : LaysOut (Rule.all [Rule.mark "[", Rule.mark "]"]) := .all ⟨.mark, .mark⟩
    have index : LaysOut (Rule.all [Rule.mark "[", self .typeExpression, Rule.mark "]"]) :=
      .all ⟨.mark, nested _, .mark⟩
    unfold bracketsBehind
    split
    · split
      · next parts next read =>
        exact inductionHypothesis ((laid.append (empty cursor parts next read)).wrap _)
      · split
        · next parts next read =>
          exact inductionHypothesis ((laid.append (index cursor parts next read)).wrap _)
        · exact laid
    · exact laid

namespace LaysOut

/-- A built-in type. -/
theorem predefinedType : LaysOut Syntax.predefinedType := by
  have marked : LaysOut (Rule.leafOf (.token "unique symbol") fun start =>
      some (behindName (behindName start))) := by
    apply leafOf
    rintro start _ ⟨⟩
    exact (reaches_behindName start).trans (reaches_behindName _)
  exact fun start => yields_ite (construct marked start)
    (yields_ite (construct word start) (yields_none start))

/-- The modifiers of a member of an object type. -/
theorem memberModifiers : LaysOut Syntax.memberModifiers :=
  all ⟨optional accessibility, optional modifier, optional overrideModifier, optional modifier,
    optional modifier, optional (firstOf ⟨modifier, modifier, mark⟩)⟩

/-- The sign of a mapped type. -/
theorem mappedSign : LaysOut Syntax.mappedSign := optional (firstOf ⟨mark, mark⟩)

/-- Members between an operator. -/
theorem operatorType {kind : Construct} {operator : String} {member : Rule}
    (laysOut : LaysOut member) : LaysOut (Syntax.operatorType kind operator member) :=
  readingOn (ite (construct (all ⟨mark, laysOut⟩)) laysOut) fun _ _ next laid =>
    yields_some (laid_more laysOut (next.left + 1) laid)

/-- The keywords before the name of a method. -/
theorem methodModifiers : LaysOut Syntax.methodModifiers :=
  all ⟨optional accessibility, many (firstOf ⟨modifier, overrideModifier, modifier⟩),
    optional modifier, optional (firstOf ⟨modifier, modifier, mark⟩)⟩

/-- The keywords before the name of a field. -/
theorem fieldModifiers : LaysOut Syntax.fieldModifiers :=
  all ⟨optional modifier, optional accessibility, many (firstOf ⟨modifier, overrideModifier,
    modifier, modifier, modifier, modifier⟩)⟩

/-- The end of a member. -/
theorem memberEnd : LaysOut Syntax.memberEnd := ite mark semicolonAfter

/-- The name of a class. -/
theorem className : LaysOut Syntax.className :=
  fun start => yields_ite (yields_none start) (playing typeName start)

variable {self : Self} (nested : ∀ goal, LaysOut (self goal))
include nested

/-- A named type. -/
theorem namedType : LaysOut (Syntax.namedType self) :=
  ite never (extendedIf (ite (readingOn plainName fun _ _ next laid =>
    yields_some (laid_qualifiedRest (next.left + 1) laid)) typeName) (typeArguments nested))

/-- The key of a mapped type. -/
theorem mappedKey : LaysOut (Syntax.mappedKey self) :=
  construct (all ⟨playing typeName, word, nested _, optional (all ⟨word, playing (nested _)⟩)⟩)

/-- The annotation behind the key of an index signature. -/
theorem annotatedIndex : LaysOut (Syntax.annotatedIndex self) :=
  ite (construct (all ⟨mark, mark, mark, nested _⟩)) (ite (construct (all ⟨mark, mark, mark, nested _⟩))
    (ite (construct (all ⟨mark, mark, nested _⟩)) (annotatedType nested)))

/-- An index signature or a mapped type. -/
theorem indexSignature : LaysOut (Syntax.indexSignature self) :=
  when _ (construct (all ⟨optional (all ⟨mappedSign, word⟩), mark,
    ite (mappedKey nested) (all ⟨playing identifier, mark, nested _⟩), mark,
    optional (annotatedIndex nested)⟩))

/-- A member of an object type. -/
theorem typeMember : LaysOut (Syntax.typeMember self) := by
  refine ite (construct (callSignature nested)) (ite (construct (all ⟨word,
    optional (typeParameters nested), formalParameters nested, optional (annotatedType nested)⟩)) ?_)
  refine fun start => yields_otherwise (indexSignature nested start) ?_
  dsimp only
  exact yields (extendedEither (all ⟨memberModifiers, playing (memberName nested), optional mark⟩)
    (callSignature nested) (optional (annotatedType nested)))

/-- The members of an object type. -/
theorem typeMembers : LaysOut (Syntax.typeMembers self) :=
  all ⟨openBrace, many (firstOf ⟨mark, mark, andThen (typeMember nested)
    (optional (ite mark semicolonAfter))⟩), closeBrace⟩

/-- A member of a tuple type. -/
theorem tupleMember : LaysOut (Syntax.tupleMember self) :=
  ite (ite (construct (all ⟨playing (construct (all ⟨mark, identifier⟩)), annotatedType nested⟩))
      (construct (all ⟨mark, nested _⟩)))
    (ite (construct (all ⟨playing identifier, annotatedType nested⟩))
      (ite (construct (all ⟨playing identifier, mark, annotatedType nested⟩))
        (extendedIf (nested _) mark)))

/-- A literal as a type. -/
theorem literalType : LaysOut (Syntax.literalType self) :=
  ite (construct wordConstruct) (ite (construct wordConstruct) (ite (construct wordConstruct)
    (ite (construct wordConstruct) (ite (templateType nested)
      (ite (construct (construct (all ⟨firstOf ⟨mark, mark⟩, numberLiteral⟩)))
        (construct (firstOf ⟨stringLiteral, numberLiteral⟩)))))))

/-- The operand of a query for a type. -/
theorem queriedValue : LaysOut (Syntax.queriedValue self) := by
  have index : LaysOut (Rule.all [Rule.mark "[",
      Rule.firstOf [Syntax.numberLiteral, Syntax.stringLiteral], Rule.mark "]"]) :=
    all ⟨mark, firstOf ⟨numberLiteral, stringLiteral⟩, mark⟩
  have named : LaysOut (Rule.firstOf [Rule.wordConstruct .thisExpression "this",
      Syntax.identifier]) :=
    firstOf ⟨wordConstruct, identifier⟩
  intro start
  have first := chosen (nextIsWord start "import" = true) importedModule named
  unfold Syntax.queriedValue
  dsimp only
  split
  · exact yields_none start
  · next before next read =>
    have behind := laid_extend index next.left (first start before next read)
    split
    · split
      · next parts stop read =>
        exact yields_some ((behind.append (typeArguments nested _ parts stop read)).wrap _)
      · exact yields_some behind
    · exact yields_some behind

/-- A type without operators behind it. -/
theorem simpleType : LaysOut (Syntax.simpleType self) :=
  ite (construct (all ⟨mark, nested _, mark⟩))
    (ite (construct (all ⟨mark, commaSeparated (tupleMember nested), mark⟩))
      (ite (construct (typeMembers nested)) (ite (construct mark) (ite wordConstruct
        (ite (construct (all ⟨word, queriedValue nested⟩)) (ite word
          (firstOf ⟨predefinedType, literalType nested, namedType nested⟩)))))))

/-- A type with the operators on one type. -/
theorem primaryTypeRule : LaysOut (Syntax.primaryTypeRule self) :=
  ite (construct (all ⟨word, nested _⟩)) (ite (construct (all ⟨word, nested _⟩))
    (ite (construct (all ⟨word, typeName, optional (all ⟨word, nested _⟩)⟩))
      (readingOn (simpleType nested) fun _ _ next laid =>
        yields_some (laid_bracketsBehind nested (next.left + 1) laid))))

/-- A union of intersections. -/
theorem unionType : LaysOut (Syntax.unionType self) := operatorType (operatorType (nested _))

/-- What a function type returns. -/
theorem functionResult {plain : Rule} (laysOut : LaysOut plain) :
    LaysOut (Syntax.functionResult self plain) :=
  ite (assertion nested) (ite (typePredicate nested) laysOut)

/-- A type that is no choice. -/
theorem typeReturning {result : Rule} (laysOut : LaysOut result) :
    LaysOut (Syntax.typeReturning self result) :=
  ite (construct (all ⟨optional (typeParameters nested), playing (formalParameters nested), mark,
      playing (functionResult nested laysOut)⟩))
    (ite (construct (all ⟨optional word, word, optional (typeParameters nested),
      playing (formalParameters nested), mark, laysOut⟩)) (unionType nested))

/-- A type that another one is compared with. -/
theorem comparedTypeRule : LaysOut (Syntax.comparedTypeRule self) := typeReturning nested (nested _)

/-- A type. -/
theorem typeRule : LaysOut (Syntax.typeRule self) :=
  extendedIf (typeReturning nested (nested _))
    (all ⟨word, nested _, mark, nested _, mark, nested _⟩)

/-- The name of a method with the keywords before it. -/
theorem methodHead : LaysOut (Syntax.methodHead self) :=
  all ⟨methodModifiers, playing (memberName nested), optional mark⟩

/-- A method with a body. -/
theorem methodDefinition : LaysOut (Syntax.methodDefinition self) :=
  readingOn (methodHead nested) fun start _ _ _ => yields_ite
    (yields (construct (all ⟨methodHead nested, callSignature nested, playing (nested _)⟩)))
    (yields_none start)

/-- A field. -/
theorem fieldDefinition : LaysOut (Syntax.fieldDefinition self) :=
  construct (all ⟨many (decorator nested), fieldModifiers, playing (memberName nested),
    optional (firstOf ⟨mark, mark⟩), optional (annotatedType nested),
    optional (initializer nested)⟩)

/-- A method without a body. -/
theorem bodilessMethod : LaysOut (Syntax.bodilessMethod self) := by
  intro start
  unfold Syntax.bodilessMethod
  dsimp only
  split
  · refine yields_ite (yields (construct (andThen (all ⟨optional accessibility, modifier,
      optional overrideModifier, optional (firstOf ⟨modifier, modifier, mark⟩),
      playing (memberName nested), optional mark⟩) (callSignature nested)))) (yields_none start)
  · split
    · exact yields_none start
    · exact yields_ite (yields (construct (all ⟨methodHead nested, callSignature nested⟩)))
        (yields_none start)

/-- A block that runs when the class is set up. -/
theorem staticBlock : LaysOut (Syntax.staticBlock self) :=
  ite (construct (all ⟨word, playing (nested _)⟩)) never

/-- One member of a class body. -/
theorem classMember : LaysOut (Syntax.classMember self) := by
  have field : LaysOut (Rule.andThen (Syntax.fieldDefinition self)
      (Rule.optional Syntax.memberEnd)) :=
    andThen (fieldDefinition nested) (optional memberEnd)
  refine ite mark (ite ?_ (firstOf ⟨staticBlock nested,
    andThen (methodDefinition nested) (optional mark),
    andThen (bodilessMethod nested) (optional memberEnd),
    andThen (indexSignature nested) (optional memberEnd), field⟩))
  intro start
  dsimp only
  split
  · exact yields_ite (decorator nested start) (field start)
  · exact field start

/-- The body of a class. -/
theorem classBody : LaysOut (Syntax.classBody self) :=
  construct (all ⟨openBrace, many (classMember nested), closeBrace⟩)

/-- What a class extends. -/
theorem extendsClause : LaysOut (Syntax.extendsClause self) :=
  construct (all ⟨word, commaSeparated1 (all ⟨playing (nested _),
    optional (typeArguments nested)⟩)⟩)

/-- The interfaces of a class. -/
theorem implementsClause : LaysOut (Syntax.implementsClause self) :=
  construct (all ⟨word, commaSeparated1 (nested _)⟩)

/-- What a class extends and implements. -/
theorem classHeritage : LaysOut (Syntax.classHeritage self) :=
  construct (firstOf ⟨all ⟨extendsClause nested, optional (implementsClause nested)⟩,
    implementsClause nested⟩)

/-- A class behind its keyword. -/
theorem classRest : LaysOut (Syntax.classRest self) :=
  all ⟨optional (typeParameters nested), optional (classHeritage nested),
    playing (classBody nested)⟩

/-- A class in an expression. -/
theorem classExpression : LaysOut (Syntax.classExpression self) :=
  construct (all ⟨many (decorator nested), word, optional className, classRest nested⟩)

end LaysOut

end Conformance.Syntax
