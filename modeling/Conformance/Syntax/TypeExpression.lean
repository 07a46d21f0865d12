import Conformance.Syntax.Signature

/-!
# Type expressions

Function types bind weakest, then conditional types, unions, intersections, and the
operators on one type. A parenthesis opens a function type exactly if an arrow stands
behind its partner.
-/

namespace Conformance.Syntax

open Rule

/-- Names of the built-in types. -/
def predefinedTypes : List String := [
  "any", "number", "boolean", "string", "symbol", "void", "unknown", "never", "object"]

/-- A built-in type. -/
def predefinedType : Rule := fun cursor =>
  let name := nextName cursor
  if name == "unique" ∧ nextIsWord (behindName cursor) "symbol" then
    construct .predefinedType (leafOf (.token "unique symbol") fun start =>
      some (behindName (behindName start))) cursor
  else if predefinedTypes.contains name then construct .predefinedType (word name) cursor
  else none

/-- The words behind the points of a qualified name. Each makes everything before it
the qualifier; the last one names a type. The number bounds the points. -/
def qualifiedRest : Nat → (before : List Node) → Cursor → List Node × Cursor
  | 0, before, cursor => (before, cursor)
  | bound + 1, before, cursor =>
    if nextIs cursor "." then
      match (all [mark ".", anyName .propertyIdentifier]) cursor with
      | none => (before, cursor)
      | some (parts, next) =>
        if nextIs next "." then
          qualifiedRest bound (wrap .nestedIdentifier (before ++ parts) next) next
        else
          match (all [mark ".", playing .name typeName]) cursor with
          | none => (before, cursor)
          | some (parts, next) => (wrap .nestedTypeIdentifier (before ++ parts) next, next)
    else (before, cursor)

/-- A named type, perhaps qualified, perhaps with arguments. -/
def namedType (self : Self) : Rule := fun cursor =>
  if reservedWords.contains (nextName cursor) then none
  else
    let qualified : Rule := fun cursor =>
      if nextIs (behindName cursor) "." then
        match plainName .identifier cursor with
        | none => none
        | some (first, next) => some (qualifiedRest (next.left + 1) first next)
      else typeName cursor
    (extended qualified fun next =>
      if nextIs next "<" then some (.genericType, typeArguments self) else none) cursor

/-- A member or a group of members of an object type. -/
inductive MemberForm where
  | call
  | construction
  | index
  | method
  | property
  deriving Repr, DecidableEq

/-- The modifiers that may precede the name of a member of an object type. -/
def memberModifiers : Rule :=
  all [optional accessibility, optional (modifier "static"), optional overrideModifier,
    optional (modifier "readonly"), optional (modifier "async"),
    optional (firstOf [modifier "get", modifier "set", mark "*"])]

/-- The key of a mapped type. -/
def mappedKey (self : Self) : Rule :=
  construct .mappedTypeClause (all [playing .name typeName, word "in", self .typeExpression,
    optional (all [word "as", playing .alias (self .typeExpression)])])

/-- The sign before the mark of a mapped type, if any. -/
def mappedSign : Rule := optional (firstOf [mark "-", mark "+"])

/-- The annotation behind the key of an index signature. -/
def annotatedIndex (self : Self) : Rule := fun cursor =>
  if nextIs cursor "-" then
    construct .omittingAnnotatedType (all [mark "-", mark "?", mark ":", self .typeExpression]) cursor
  else if nextIs cursor "+" then
    construct .addingAnnotatedType (all [mark "+", mark "?", mark ":", self .typeExpression]) cursor
  else if nextIs cursor "?" then
    construct .optingAnnotatedType (all [mark "?", mark ":", self .typeExpression]) cursor
  else annotatedType self cursor

/-- Whether the brackets that open here hold the key of an index signature or of a
mapped type. -/
def opensIndex (cursor : Cursor) : Bool :=
  let start := nextToken cursor
  start.startsWith "[" &&
    (let inner := start.advance 1
     nextName inner != "" && (nextIs (behindName inner) ":" || nextIsWord (behindName inner) "in"))

/-- An index signature or a mapped type. -/
def indexSignature (self : Self) : Rule :=
  let sign : Rule := optional (fun cursor =>
    (all [mappedSign, word "readonly"]) cursor)
  let key : Rule := fun cursor =>
    if nextIsWord (behindName cursor) "in" then mappedKey self cursor
    else (all [playing .name identifier, mark ":", self .typeExpression]) cursor
  when (fun cursor =>
      opensIndex cursor || (match sign cursor with
        | some (_, next) => opensIndex next
        | none => false))
    (construct .indexSignature (all [sign, mark "[", key, mark "]",
      optional (annotatedIndex self)]))

/-- A member of an object type or an interface. -/
def typeMember (self : Self) : Rule := fun cursor =>
  if nextIs cursor "(" ∨ nextIs cursor "<" then construct .callSignature (callSignature self) cursor
  else if nextIsWord cursor "new" ∧
      (nextIs (behindName cursor) "(" ∨ nextIs (behindName cursor) "<") then
    construct .constructSignature (all [word "new", optional (typeParameters self),
      formalParameters self, optional (annotatedType self)]) cursor
  else
    match indexSignature self cursor with
    | some result => some result
    | none =>
      let front := all [memberModifiers, playing .name (memberName self), optional (mark "?")]
      (extended front fun next =>
        if nextIs next "(" ∨ nextIs next "<" then some (.methodSignature, callSignature self)
        else some (.propertySignature, optional (annotatedType self))) cursor

/-- The members of an object type between braces, each behind a semicolon, a comma or
the end of a line. -/
def typeMembers (self : Self) : Rule :=
  let separator : Rule := fun cursor =>
    if nextIs cursor "," then mark "," cursor else semicolonAfter false cursor
  all [openBrace, many (firstOf [mark ";", mark ",", andThen (typeMember self) (optional separator)]),
    closeBrace]

/-- A member of a tuple type: a type, optional or the rest, perhaps with a label. -/
def tupleMember (self : Self) : Rule := fun cursor =>
  let behind := behindName cursor
  if nextIs cursor "..." then
    let start := (nextToken cursor).advance 3
    if nextName start != "" ∧ nextIs (behindName start) ":" then
      construct .requiredParameter (all [playing .name (construct .restPattern (all [mark "...", identifier])),
        annotatedType self]) cursor
    else construct .restType (all [mark "...", self .typeExpression]) cursor
  else if nextName cursor != "" ∧ nextIs behind ":" then
    construct .requiredParameter (all [playing .name identifier, annotatedType self]) cursor
  else if nextName cursor != "" ∧ nextIs behind "?" ∧
      nextIs ((nextToken behind).advance 1) ":" then
    construct .optionalParameter (all [playing .name identifier, mark "?", annotatedType self]) cursor
  else
    (extended (self .typeExpression) fun next =>
      if nextIs next "?" then some (.optionalType, mark "?") else none) cursor

/-- A literal as a type. -/
def literalType (self : Self) : Rule := fun cursor =>
  let name := nextName cursor
  if name == "true" then construct .literalType (wordConstruct .trueLiteral "true") cursor
  else if name == "false" then construct .literalType (wordConstruct .falseLiteral "false") cursor
  else if name == "null" then construct .literalType (wordConstruct .nullLiteral "null") cursor
  else if name == "undefined" then
    construct .literalType (wordConstruct .undefinedValue "undefined") cursor
  else if nextIs cursor "\x60" then templateType self cursor
  else if nextIs cursor "-" ∨ nextIs cursor "+" then
    construct .literalType (construct .unaryExpression (all [firstOf [mark "-", mark "+"], numberLiteral]))
      cursor
  else construct .literalType (firstOf [stringLiteral, numberLiteral]) cursor

/-- The operand of `typeof` in a type. -/
def queriedValue (self : Self) : Rule := fun cursor =>
  let first := if nextIsWord cursor "import" then importedModule
    else firstOf [wordConstruct .thisExpression "this", identifier]
  match first cursor with
  | none => none
  | some (first, next) =>
    let index : Rule := all [mark "[", firstOf [numberLiteral, stringLiteral], mark "]"]
    let rec extend : Nat → List Node → Cursor → List Node × Cursor
      | 0, before, cursor => (before, cursor)
      | bound + 1, before, cursor =>
        match pointedMember cursor with
        | some (parts, next) =>
          extend bound (wrap .memberExpression (before ++ parts) next) next
        | none =>
          match index cursor with
          | some (parts, next) =>
            extend bound (wrap .subscriptExpression (before ++ parts) next) next
          | none => (before, cursor)
    let (nodes, next) := extend next.left first next
    if nextIs next "<" then
      match typeArguments self next with
      | some (parts, stop) => some (wrap .instantiationExpression (nodes ++ parts) stop, stop)
      | none => some (nodes, next)
    else some (nodes, next)

/-- A type without operators behind it. -/
def simpleType (self : Self) : Rule := fun cursor =>
  let name := nextName cursor
  if nextIs cursor "(" then
    construct .parenthesizedType (all [mark "(", self .typeExpression, mark ")"]) cursor
  else if nextIs cursor "[" then
    construct .tupleType (all [mark "[", commaSeparated (tupleMember self), mark "]"]) cursor
  else if nextIs cursor "\x7b" then construct .objectType (typeMembers self) cursor
  else if nextIs cursor "*" then construct .existentialType (mark "*") cursor
  else if name == "this" then wordConstruct .thisType "this" cursor
  else if name == "typeof" then
    construct .typeQuery (all [word "typeof", queriedValue self]) cursor
  else if name == "const" then word "const" cursor
  else firstOf [predefinedType, literalType self, namedType self] cursor

/-- Brackets behind a type: an array type or the type of a member. A bracket on a later
line does not belong to the type. The number bounds the brackets. -/
def bracketsBehind (self : Self) : Nat → List Node → Cursor → List Node × Cursor
  | 0, before, cursor => (before, cursor)
  | bound + 1, before, cursor =>
    if nextIs cursor "[" ∧ (nextToken cursor).row = cursor.row then
      match (all [mark "[", mark "]"]) cursor with
      | some (parts, next) =>
        bracketsBehind self bound (wrap .arrayType (before ++ parts) next) next
      | none =>
        match (all [mark "[", self .typeExpression, mark "]"]) cursor with
        | some (parts, next) =>
          bracketsBehind self bound (wrap .lookupType (before ++ parts) next) next
        | none => (before, cursor)
    else (before, cursor)

/-- A type with the operators on one type. -/
def primaryTypeRule (self : Self) : Rule := fun cursor =>
  let name := nextName cursor
  let follows := !(nextIs (behindName cursor) "." || nextIs (behindName cursor) "<")
  if name == "keyof" ∧ follows then
    construct .indexTypeQuery (all [word "keyof", self .primaryType]) cursor
  else if name == "readonly" ∧ follows then
    construct .readonlyType (all [word "readonly", self .primaryType]) cursor
  else if name == "infer" ∧ nextName (behindName cursor) != "" then
    construct .inferType (all [word "infer", typeName,
      optional (all [word "extends", self .typeExpression])]) cursor
  else
    match simpleType self cursor with
    | none => none
    | some (nodes, next) => some (bracketsBehind self (next.left + 1) nodes next)

/-- Members between an operator, the operator perhaps before the first as well. -/
def operatorType (kind : Construct) (operator : String) (member : Rule) : Rule := fun cursor =>
  let first : Rule := fun cursor =>
    if nextIs cursor operator then construct kind (all [mark operator, member]) cursor
    else member cursor
  match first cursor with
  | none => none
  | some (nodes, next) =>
    let rec more : Nat → List Node → Cursor → List Node × Cursor
      | 0, before, cursor => (before, cursor)
      | bound + 1, before, cursor =>
        if nextIs cursor operator then
          match (all [mark operator, member]) cursor with
          | some (parts, next) => more bound (wrap kind (before ++ parts) next) next
          | none => (before, cursor)
        else (before, cursor)
    some (more (next.left + 1) nodes next)

/-- A union of intersections. -/
def unionType (self : Self) : Rule :=
  operatorType .unionType "|" (operatorType .intersectionType "&" (self .primaryType))

/-- What a function type returns, given the rule for a plain type. -/
def functionResult (self : Self) (plain : Rule) : Rule := fun cursor =>
  if isAssertion cursor then assertion self cursor
  else if isPredicate cursor then typePredicate self cursor
  else plain cursor

/-- Whether a function type begins here. -/
def opensFunctionType (cursor : Cursor) : Bool :=
  let start := nextToken cursor
  start.startsWith "<" || (start.startsWith "(" && behindParentheses start == .arrow)

/-- A type that is no choice, given the rule for what a function returns. -/
def typeReturning (self : Self) (result : Rule) : Rule := fun cursor =>
  let name := nextName cursor
  if opensFunctionType cursor then
    construct .functionType (all [optional (typeParameters self),
      playing .parameters (formalParameters self), mark "=>",
      playing .returnType (functionResult self result)]) cursor
  else if name == "new" ∨ (name == "abstract" ∧ nextIsWord (behindName cursor) "new") then
    construct .constructorType (all [optional (word "abstract"), word "new",
      optional (typeParameters self), playing .parameters (formalParameters self), mark "=>",
      result]) cursor
  else unionType self cursor

/-- A type that another one is compared with. A question mark behind it belongs to the
comparison. -/
def comparedTypeRule (self : Self) : Rule := typeReturning self (self .comparedType)

/-- A type. -/
def typeRule (self : Self) : Rule :=
  extended (typeReturning self (self .typeExpression)) fun next =>
    if nextIsWord next "extends" then
      some (.conditionalType, all [word "extends", self .comparedType, mark "?", self .typeExpression,
        mark ":", self .typeExpression])
    else none

end Conformance.Syntax
