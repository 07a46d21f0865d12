import Conformance.Syntax.Rule

/-!
# Literals

Quoted texts, templates, numbers and regular expressions. The parts of a quoted text
are runs of plain characters and escapes; no gap may stand between them.
-/

namespace Conformance.Syntax

open Rule

/-- How many characters an escape has behind its backslash. -/
def escapeLength : List Char → Nat
  | 'x' :: a :: b :: _ => if a.isAlphanum ∧ b.isAlphanum then 3 else 1
  | 'u' :: rest =>
    match nameEscapeLength? ('u' :: rest) with
    | some count => count
    | none => 1
  | '\r' :: '\n' :: _ => 2
  | c :: rest =>
    if '0' ≤ c ∧ c ≤ '7' then 1 + ((rest.take 2).takeWhile fun d => '0' ≤ d && d ≤ '7').length else 1
  | [] => 0

/-- The plain characters and escapes of a quoted text up to a character that ends it or
that the test excludes. The number bounds the parts. -/
def quotedParts (plain : Char → Bool) : Nat → Cursor → List Node × Cursor
  | 0, cursor => ([], cursor)
  | bound + 1, cursor =>
    match cursor.rest with
    | '\\' :: rest =>
      let stop := cursor.advance (1 + escapeLength rest)
      let (parts, next) := quotedParts plain bound stop
      (leaf (.construct .escapeSequence) cursor stop :: parts, next)
    | c :: _ =>
      if plain c then
        let stop := cursor.skipWhile fun c => plain c && c != '\\'
        let (parts, next) := quotedParts plain bound stop
        (leaf (.construct .stringFragment) cursor stop :: parts, next)
      else ([], cursor)
    | [] => ([], cursor)

/-- A text between two equal quotes on one line. -/
def quotedText (quote : Char) : Rule := fun cursor =>
  let (comments, start) := gap cursor
  match start.rest with
  | c :: rest =>
    if c = quote then
      let inner := start.step c rest
      let (parts, stop) := quotedParts (fun c => c != quote && c != '\n' && c != '\r') (inner.left + 1) inner
      match stop.rest with
      | d :: after =>
        if d = quote then
          let finish := stop.step d after
          let kind : Kind := .token (String.ofList [quote])
          let nodes := leaf kind start inner :: parts ++ [leaf kind stop finish]
          some (comments ++ wrap .stringLiteral nodes finish, finish)
        else none
      | [] => none
    else none
  | [] => none

/-- A quoted text. -/
def stringLiteral : Rule := firstOf [quotedText '"', quotedText '\'']

/-- The parts of a template up to its closing mark. The number bounds the parts. -/
def templateParts (hole : Rule) : Nat → Cursor → Option (List Node × Cursor)
  | 0, _ => none
  | bound + 1, cursor =>
    match cursor.rest with
    | [] => none
    | '\x60' :: rest =>
      let stop := cursor.step '\x60' rest
      some ([leaf (.token "\x60") cursor stop], stop)
    | '\\' :: rest =>
      let stop := cursor.advance (1 + escapeLength rest)
      (templateParts hole bound stop).map fun (parts, next) =>
        (leaf (.construct .escapeSequence) cursor stop :: parts, next)
    | '$' :: '\x7b' :: _ =>
      match hole cursor with
      | none => none
      | some (nodes, next) =>
        (templateParts hole bound next).map fun (parts, next) => (nodes ++ parts, next)
    | c :: rest =>
      let beyond (c : Char) : Bool := c != '\x60' && c != '\\' && c != '$'
      let stop := (cursor.step c rest).skipWhile beyond
      (templateParts hole bound stop).map fun (parts, next) =>
        (leaf (.construct .stringFragment) cursor stop :: parts, next)

/-- A template of the given construct, with holes of the given construct around what a
rule reads. -/
def templateOf (kind hole : Construct) (inside : Rule) : Rule := fun cursor =>
  let (comments, start) := gap cursor
  match start.rest with
  | '\x60' :: rest =>
    let inner := start.step '\x60' rest
    match templateParts (construct hole (all [mark "$\x7b", inside, closeBrace])) (inner.left + 1) inner with
    | some (parts, stop) =>
      some (comments ++ wrap kind (leaf (.token "\x60") start inner :: parts) stop, stop)
    | none => none
  | _ => none

/-- A template in an expression. -/
def templateString (self : Self) : Rule :=
  templateOf .templateString .templateSubstitution (self (.sequence Mode.closed))

/-- A template in a type. -/
def templateType (self : Self) : Rule := templateOf .templateLiteralType .templateType (self .typeExpression)

/-- How many characters a number has. A sign belongs to it only behind the mark of a
decimal exponent. -/
def numberLength : (exponent : Bool) → (radix : Bool) → List Char → Nat
  | exponent, radix, c :: rest =>
    if c.isAlphanum ∨ c = '_' ∨ c = '.' then
      1 + numberLength ((c = 'e' ∨ c = 'E') && !radix) (radix || c = 'x' || c = 'X') rest
    else if exponent ∧ (c = '+' ∨ c = '-') then 1 + numberLength false radix rest
    else 0
  | _, _, [] => 0

/-- A number. -/
def numberLiteral : Rule :=
  leafOf (.construct .numberLiteral) fun cursor =>
    let begins := match cursor.rest with
      | '.' :: d :: _ => d.isDigit
      | c :: _ => c.isDigit
      | [] => false
    if begins then some (cursor.advance (numberLength false false cursor.rest)) else none

/-- How many characters the body of a regular expression has, to its closing slash. A
slash within brackets does not close it. -/
def regexLength? : (bracket : Bool) → List Char → Option Nat
  | _, [] => none
  | _, [_] => none
  | bracket, '\\' :: _ :: rest => (regexLength? bracket rest).map (· + 2)
  | bracket, c :: rest =>
    if c = '\n' ∨ c = '\r' then none
    else if c = '/' ∧ !bracket then some 0
    else (regexLength? ((bracket || c = '[') && c != ']') rest).map (· + 1)

/-- A regular expression with its flags. -/
def regexLiteral : Rule := fun cursor =>
  let (comments, start) := gap cursor
  match start.rest with
  | '/' :: rest =>
    match regexLength? false (rest ++ ['\n']) with
    | none => none
    | some count =>
      let inner := start.step '/' rest
      let stop := inner.advance count
      let close := stop.advance 1
      let finish := close.skipWhile fun c => c.isLower
      let flags := if finish.left < close.left then [leaf (.construct .regexFlags) close finish] else []
      let nodes := [leaf (.token "/") start inner, leaf (.construct .regexPattern) inner stop,
        leaf (.token "/") stop close] ++ flags
      some (comments ++ wrap .regex nodes finish, finish)
  | _ => none

end Conformance.Syntax
