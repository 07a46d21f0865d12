import Conformance.Syntax.Signature

/-!
# Markup elements

Elements of the markup dialect: an opening tag with attributes, text, nested elements
and expressions in braces, and a closing tag. Between the tags there are no comments;
text that is blank up to the next line is no node.
-/

namespace Conformance.Syntax

open Rule

/-- How many characters a tag or attribute name has; names may hold hyphens. -/
def tagNameLength (cursor : Cursor) : Nat :=
  match nameAt? cursor with
  | none => 0
  | some (name, next) =>
    name.length + (next.rest.takeWhile fun c => c == '-' || isNamePart c).length

/-- A tag or attribute name. -/
def tagWord (kind : Construct) : Rule :=
  leafOf (.construct kind) fun cursor =>
    match tagNameLength cursor with
    | 0 => none
    | count => some (cursor.advance count)

/-- The members behind a tag name. The number bounds the points. -/
def tagMembers : Nat → List Node → Cursor → List Node × Cursor
  | 0, before, cursor => (before, cursor)
  | bound + 1, before, cursor =>
    if nextIs cursor "." then
      match (all [mark ".", playing .property (anyName .propertyIdentifier)]) cursor with
      | some (parts, next) => tagMembers bound (wrap .memberExpression (before ++ parts) next) next
      | none => (before, cursor)
    else (before, cursor)

/-- The name of a tag: a word, a word in a namespace, or a member. -/
def tagName : Rule := fun cursor =>
  match tagWord .identifier cursor with
  | none => none
  | some (first, next) =>
    if nextIs next ":" then
      construct .jsxNamespaceName (all [tagWord .identifier, mark ":", tagWord .identifier]) cursor
    else some (tagMembers (next.left + 1) first next)

/-- The name of an attribute. -/
def attributeName : Rule := fun cursor =>
  match tagWord .propertyIdentifier cursor with
  | none => none
  | some (first, next) =>
    if nextIs next ":" then
      construct .jsxNamespaceName (all [tagWord .identifier, mark ":", tagWord .identifier]) cursor
    else some (first, next)

/-- How many characters a character reference has behind its ampersand. -/
def referenceLength? (text : List Char) : Option Nat :=
  let body := text.takeWhile fun c => c.isAlphanum || c == '#'
  if body.isEmpty then none
  else if (text.drop body.length).head? == some ';' then some (body.length + 1) else none

/-- Plain text and character references up to a character that the test excludes. The
number bounds the parts. -/
def referencedText (kind : Construct) (plain : Char → Bool) : Nat → Cursor → List Node × Cursor
  | 0, cursor => ([], cursor)
  | bound + 1, cursor =>
    match cursor.rest with
    | [] => ([], cursor)
    | c :: rest =>
      let reference := if c = '&' then referenceLength? rest else none
      match reference with
      | some count =>
        let stop := cursor.advance (count + 1)
        let (parts, next) := referencedText kind plain bound stop
        (leaf (.construct .htmlCharacterReference) cursor stop :: parts, next)
      | none =>
        if plain c then
          let stop := (cursor.step c rest).skipWhile fun d => plain d && d != '&'
          let (parts, next) := referencedText kind plain bound stop
          (leaf (.construct kind) cursor stop :: parts, next)
        else ([], cursor)

/-- A quoted attribute value, which may run over lines and has no escapes. -/
def attributeText : Rule := fun cursor =>
  let (comments, start) := gap cursor
  match start.rest with
  | quote :: rest =>
    if quote = '"' ∨ quote = '\'' then
      let inner := start.step quote rest
      let (parts, stop) := referencedText .stringFragment (· != quote) (inner.left + 1) inner
      match stop.rest with
      | close :: after =>
        let finish := stop.step close after
        let kind : Kind := .token (String.ofList [quote])
        some (comments ++ wrap .stringLiteral (leaf kind start inner :: parts ++ [leaf kind stop finish])
          finish, finish)
      | [] => none
    else none
  | [] => none

/-- An expression in braces, perhaps spread, perhaps missing. -/
def embedded (self : Self) : Rule :=
  let spread := construct .spreadElement (all [mark "...", self (.expression Mode.closed)])
  construct .jsxExpression (all [openBrace, optional (firstOf [spread, self (.sequence Mode.closed)]),
    closeBrace])

/-- An attribute: a name with a value, a name alone, or an expression in braces. -/
def tagAttribute (self : Self) : Rule := fun cursor =>
  if nextIs cursor "\x7b" then embedded self cursor
  else
    construct .jsxAttribute (all [attributeName, optional (andThen (mark "=")
      (firstOf [attributeText, embedded self, self .element]))]) cursor

/-- The inside of an opening tag. A tag without a name has no attributes. -/
def tagInside (self : Self) : Rule :=
  optional (all [playing .name tagName, optional (typeArguments self), many (tagAttribute self)])

/-- The next line feed or text decides whether a run of blanks counts as text: blanks up
to the end of a line and the indentation behind it do not. -/
def countsAsText : (behindBreak : Bool) → List Char → Bool
  | _, [] => false
  | behindBreak, c :: rest =>
    if c = '<' ∨ c = '>' ∨ c = '\x7b' ∨ c = '\x7d' then false
    else if c = '\n' then countsAsText true rest
    else if isGap c then !behindBreak || countsAsText behindBreak rest
    else true

/-- What stands between the tags, to the closing tag. The number bounds the parts. -/
def elementContent (self : Self) : Nat → Cursor → Option (List Node × Cursor)
  | 0, _ => none
  | bound + 1, cursor =>
    match cursor.rest with
    | [] => none
    | c :: _ =>
      let nested (rule : Rule) : Option (List Node × Cursor) :=
        match rule cursor with
        | none => none
        | some (nodes, next) =>
          (elementContent self bound next).map fun (parts, stop) => (nodes ++ parts, stop)
      if c = '<' then
        if cursor.startsWith "</" then some ([], cursor)
        else nested (self .element)
      else if c = '\x7b' then nested (embedded self)
      else
        let plain (c : Char) : Bool := c != '<' && c != '\x7b'
        let (parts, next) := referencedText .jsxText plain (cursor.left + 1) cursor
        let parts := if countsAsText false cursor.rest then parts else []
        if next.left < cursor.left then
          (elementContent self bound next).map fun (more, stop) => (parts ++ more, stop)
        else none

/-- The closing tag. -/
def closingTag : Rule :=
  construct .jsxClosingElement (all [mark "</", optional (playing .name tagName), mark ">"])

/-- An element: closed in itself, or with content up to its closing tag. -/
def elementRule (self : Self) : Rule := fun cursor =>
  let front := all [mark "<", tagInside self]
  match front cursor with
  | none => none
  | some (nodes, next) =>
    if nextIs next "/>" then
      match mark "/>" next with
      | some (parts, stop) => some (wrap .jsxSelfClosingElement (nodes ++ parts) stop, stop)
      | none => none
    else
      match mark ">" next with
      | none => none
      | some (parts, next) =>
        let opening := wrap .jsxOpeningElement (nodes ++ parts) next
        match elementContent self (next.left + 1) next with
        | none => none
        | some (content, next) =>
          match closingTag next with
          | none => none
          | some (closing, stop) => some (wrap .jsxElement (opening ++ content ++ closing) stop, stop)

end Conformance.Syntax
