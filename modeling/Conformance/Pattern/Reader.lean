import Conformance.Pattern.Basic

/-!
# Reading patterns

The notation of patterns: literals, `.`, bracketed sets, the classes `\d`, `\s`,
`\w` and their opposites, `\b`, anchors, groups, choice with `|`, and the
quantifiers `?`, `*`, `+` and `{m,n}`, each lazy with a second `?`. A pattern that
breaks the notation is refused.
-/

namespace Conformance.Pattern

open Regex

/-- How anchors are read. -/
structure Options where
  ignoreCase : Bool := false
  multiline : Bool := false

/-- A character of a class or an escaped literal inside a set. -/
def setEscape (c : Char) : SetItem :=
  if c = 'd' then .digit false
  else if c = 'D' then .digit true
  else if c = 's' then .blank false
  else if c = 'S' then .blank true
  else if c = 'w' then .word false
  else if c = 'W' then .word true
  else if c = 'n' then .range '\n' '\n'
  else if c = 't' then .range '\t' '\t'
  else if c = 'r' then .range '\r' '\r'
  else if c = 'f' then .range '\x0c' '\x0c'
  else if c = 'v' then .range '\x0b' '\x0b'
  else if c = 'b' then .range '\x08' '\x08'
  else .range c c

/-- The meaning of an escape outside sets. -/
def escape (c : Char) : Regex :=
  if c = 'b' then .wordEdge
  else if c = 'B' then .notWordEdge
  else if c = 'A' then .textStart
  else if '1' ≤ c ∧ c ≤ '9' then .again (c.toNat - 48)
  else match setEscape c with
    | .range low _ => .char low
    | item => .oneOf false [item]

/-- What stands in a set: a member, or a hyphen between the ends of a range. -/
inductive SetToken where
  | member (item : SetItem)
  | hyphen

/-- A token where a member is asked for. -/
def SetToken.item : SetToken → SetItem
  | .member item => item
  | .hyphen => .range '-' '-'

/-- The tokens of a set behind its opening bracket, to the closing one. A bracket in the
first place stands for itself. -/
def setTokens : (first : Bool) → List Char → Option (List SetToken × List Char)
  | _, [] => none
  | first, c :: rest =>
    if c = ']' ∧ !first then some ([], rest)
    else
      match c, rest with
      | '\\', escaped :: rest =>
        (setTokens false rest).map fun (tokens, rest) => (.member (setEscape escaped) :: tokens, rest)
      | '-', rest => (setTokens false rest).map fun (tokens, rest) => (.hyphen :: tokens, rest)
      | c, rest => (setTokens false rest).map fun (tokens, rest) => (.member (.range c c) :: tokens, rest)

/-- The members between two others. -/
def between : SetItem → SetItem → List SetItem
  | .range low _, .range high _ => [.range low high]
  | first, last => [first, .range '-' '-', last]

/-- The members that tokens stand for. A hyphen between two members makes a range of
them. -/
def members : List SetToken → List SetItem
  | first :: .hyphen :: last :: rest => between first.item last.item ++ members rest
  | token :: rest => token.item :: members rest
  | [] => []

/-- The members of a set behind its opening bracket, and what stands behind the set. -/
def setItems (text : List Char) : Option (List SetItem × List Char) :=
  (setTokens true text).map fun (tokens, rest) => (members tokens, rest)

/-- A number in ASCII digits; an absent one is `none`. -/
def count (text : List Char) : Option Nat × List Char :=
  match text.span Char.isDigit with
  | ([], rest) => (none, rest)
  | (ds, rest) => (some (ds.foldl (fun total d => total * 10 + (d.toNat - 48)) 0), rest)

/-- The bounds of a counted quantifier behind its opening brace. -/
def bounds? (text : List Char) : Option (Nat × Option Nat × List Char) :=
  match count text with
  | (some exact, '\x7d' :: rest) => some (exact, some exact, rest)
  | (least, ',' :: rest) =>
    match count rest with
    | (most, '\x7d' :: rest) =>
      if least.isNone ∧ most.isNone then none else some (least.getD 0, most, rest)
    | _ => none
  | _ => none

/-- The quantifier at the start of a text: its bounds and the rest. -/
def quantifier? : List Char → Option (Nat × Option Nat × List Char)
  | '?' :: rest => some (0, some 1, rest)
  | '*' :: rest => some (0, none, rest)
  | '+' :: rest => some (1, none, rest)
  | '\x7b' :: rest => bounds? rest
  | _ => none

/-- An atom with the quantifier that follows it, if one does. -/
def quantified (atom : Regex) (text : List Char) : Regex × List Char :=
  match quantifier? text with
  | none => (atom, text)
  | some (least, most, '?' :: rest) => (.loop atom least most false, rest)
  | some (least, most, rest) => (.loop atom least most true, rest)

/-- Sequence with the empty expression as neutral element. -/
def andThen : Regex → Regex → Regex
  | .empty, second => second
  | first, .empty => first
  | first, second => .seq first second

mutual

/-- Alternatives up to a closing parenthesis or the end: the expression, the number
of the next group, and the rest. The first number bounds the count of parts. -/
def alternatives (options : Options) : Nat → Nat → List Char → Option (Regex × Nat × List Char)
  | 0, _, _ => none
  | fuel + 1, next, text => do
    let (first, next, rest) ← sequence options fuel next text
    match rest with
    | '|' :: rest => do
      let (second, next, rest) ← alternatives options fuel next rest
      pure (.either first second, next, rest)
    | rest => pure (first, next, rest)

/-- Quantified atoms up to a choice, a closing parenthesis or the end. -/
def sequence (options : Options) : Nat → Nat → List Char → Option (Regex × Nat × List Char)
  | 0, _, _ => none
  | fuel + 1, next, text =>
    match text with
    | [] => some (.empty, next, [])
    | '|' :: _ => some (.empty, next, text)
    | ')' :: _ => some (.empty, next, text)
    | _ => do
      let (atom, next, rest) ← atom options fuel next text
      let (part, rest) := quantified atom rest
      let (others, next, rest) ← sequence options fuel next rest
      pure (andThen part others, next, rest)

/-- One atom. -/
def atom (options : Options) : Nat → Nat → List Char → Option (Regex × Nat × List Char)
  | 0, _, _ => none
  | fuel + 1, next, text =>
    match text with
    | '(' :: '?' :: ':' :: rest => do
      let (body, next, rest) ← alternatives options fuel next rest
      match rest with
      | ')' :: rest => pure (body, next, rest)
      | _ => none
    | '(' :: rest => do
      let (body, after, rest) ← alternatives options fuel (next + 1) rest
      match rest with
      | ')' :: rest => pure (.group next body, after, rest)
      | _ => none
    | '[' :: '^' :: rest => (setItems rest).map fun (items, rest) => (.oneOf true items, next, rest)
    | '[' :: rest => (setItems rest).map fun (items, rest) => (.oneOf false items, next, rest)
    | '.' :: rest => some (.anyChar, next, rest)
    | '^' :: rest => some (if options.multiline then .lineStart else .textStart, next, rest)
    | '$' :: rest => some (if options.multiline then .lineEnd else .textEnd, next, rest)
    | '\\' :: c :: rest => some (escape c, next, rest)
    | '*' :: _ => none
    | '+' :: _ => none
    | '?' :: _ => none
    | c :: rest => some (.char c, next, rest)
    | [] => none

end

/-- The meaning of a pattern text. -/
def regex? (options : Options) (text : List Char) : Option Regex :=
  match alternatives options (3 * text.length + 3) 1 text with
  | some (regex, _, []) => some regex
  | _ => none

/-- A pattern from its text. -/
def read? (source : String) (options : Options := ⟨false, false⟩) : Option Pattern :=
  (regex? options source.toList).map fun regex => ⟨source, options.ignoreCase, regex⟩

/-- The expression that matches nothing. -/
def never : Regex := .oneOf false []

/-- A pattern that is part of the library. The texts it is used on follow the
notation; any other text would give a pattern that never matches. -/
def ofText (source : String) (options : Options := ⟨false, false⟩) : Pattern :=
  ⟨source, options.ignoreCase, (regex? options source.toList).getD never⟩

end Conformance.Pattern
