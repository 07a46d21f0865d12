import Conformance.Yaml.Scalar

/-!
# The tokens of a settings document

Indentation becomes explicit here: tokens open and close the collections that columns
only suggest. A key of a mapping is recognised at the colon behind it, so the place of
every text that could be a key is remembered, and the tokens for the key are put there
when the colon comes.
-/

namespace Conformance.Yaml

/-- A token of a document. -/
inductive Token where
  | versionDirective (major : Nat)
  | tagDirective (handle tagStart : List Char)
  | otherDirective
  | documentStart
  | documentEnd
  | blockSequenceStart
  | blockMappingStart
  | blockEnd
  | flowSequenceStart
  | flowSequenceEnd
  | flowMappingStart
  | flowMappingEnd
  | blockEntry
  | flowEntry
  | key
  | value
  | alias (name : List Char)
  | anchor (name : List Char)
  /-- A tag: its handle, if it is not written in full, and the rest. -/
  | tag (handle : Option (List Char)) (rest : List Char)
  | scalar (text : List Char) (plain : Bool)
  | streamEnd
  deriving Repr, DecidableEq

/-- A place where a key may have begun. -/
structure KeyPlace where
  /-- How many tokens stood before it. -/
  tokens : Nat
  /-- Whether it can be nothing but a key. -/
  required : Bool
  index : Nat
  line : Nat
  column : Nat
  deriving Repr, DecidableEq

/-- Reading in progress: the tokens so far, the columns of the open block collections,
the places of possible keys of each open flow collection and of the block around them,
and whether a key may begin. -/
structure Lexer where
  cursor : Cursor
  tokens : List Token
  columns : List Int
  /-- One place for every open flow collection, the innermost first, and at the end one
  for the blocks. -/
  keys : List (Option KeyPlace)
  keyAllowed : Bool

namespace Lexer

open Cursor

/-- The state before the first token. -/
def start (text : List Char) : Lexer := ⟨.start text, [], [], [none], true⟩

/-- Whether a flow collection is open. -/
def inFlow (lexer : Lexer) : Bool := lexer.keys.length > 1

/-- The column of the innermost open block collection. -/
def column (lexer : Lexer) : Int := lexer.columns.head?.getD (-1)

/-- Add a token. -/
def push (lexer : Lexer) (token : Token) : Lexer := { lexer with tokens := lexer.tokens ++ [token] }

/-- Add a token of one character. -/
def pushMark (lexer : Lexer) (token : Token) : Lexer :=
  { lexer.push token with cursor := lexer.cursor.step }

/-- Skip blanks, comments and line ends. In blocks a key may begin on a new line. -/
def skipIdle : Nat → Lexer → Lexer
  | 0, lexer => lexer
  | steps + 1, lexer =>
    let cursor := lexer.cursor
    let cursor := if cursor.index = 0 ∧ cursor.peek = '\uFEFF' then cursor.step else cursor
    let cursor := cursor.skipWhile (· == ' ')
    let cursor := if cursor.peek = '#' then cursor.skipWhile (!isBreakOrEnd ·) else cursor
    if isBreak cursor.peek then
      skipIdle steps { lexer with
        cursor := cursor.lineBreak.2
        keyAllowed := lexer.keyAllowed || !lexer.inFlow }
    else { lexer with cursor := cursor }

/-- Whether a possible key is too far away to be one. -/
def isStale (cursor : Cursor) (place : KeyPlace) : Bool :=
  place.line != cursor.line || cursor.index - place.index > 1024

/-- Forget possible keys that are too far away. A key that is required must not be. -/
def dropStale (lexer : Lexer) : Except YamlError Lexer :=
  if lexer.keys.any fun place => place.any fun place => isStale lexer.cursor place && place.required then
    .error .malformed
  else
    .ok { lexer with keys := lexer.keys.map fun place => place.filter (!isStale lexer.cursor ·) }

/-- The columns that stay open at a column, and how many do not. -/
def unwindColumns (column : Int) : List Int → List Int × Nat
  | [] => ([], 0)
  | innermost :: rest =>
    if innermost > column then
      let (kept, closed) := unwindColumns column rest
      (kept, closed + 1)
    else (innermost :: rest, 0)

/-- Close the block collections that a column ends. -/
def unwind (lexer : Lexer) (column : Int) : Lexer :=
  if lexer.inFlow then lexer
  else
    let (kept, closed) := unwindColumns column lexer.columns
    { lexer with columns := kept, tokens := lexer.tokens ++ List.replicate closed .blockEnd }

/-- Open a block collection at a column, if it is not open already. -/
def indent (lexer : Lexer) (column : Int) : Lexer × Bool :=
  if lexer.column < column then ({ lexer with columns := column :: lexer.columns }, true)
  else (lexer, false)

/-- Forget the possible key of the innermost collection. -/
def dropKey (lexer : Lexer) : Except YamlError Lexer :=
  match lexer.keys with
  | some place :: outer =>
    if place.required then .error .malformed else .ok { lexer with keys := none :: outer }
  | _ => .ok lexer

/-- Remember that a key may begin here. -/
def saveKey (lexer : Lexer) : Except YamlError Lexer :=
  if lexer.keyAllowed then do
    let lexer ← lexer.dropKey
    let cursor := lexer.cursor
    let place : KeyPlace :=
      ⟨lexer.tokens.length, !lexer.inFlow && lexer.column == cursor.column, cursor.index, cursor.line,
        cursor.column⟩
    pure { lexer with keys := some place :: lexer.keys.drop 1 }
  else .ok lexer

/-- Insert tokens before the one at a position. -/
def insertTokens (position : Nat) (added tokens : List Token) : List Token :=
  tokens.take position ++ added ++ tokens.drop position

/-- The end of the text. -/
def lexEnd (lexer : Lexer) : Except YamlError Lexer := do
  let lexer ← (lexer.unwind (-1)).dropKey
  pure (lexer.push .streamEnd)

/-- A number in a directive. -/
def directiveNumber (cursor : Cursor) : Except YamlError (Nat × Cursor) :=
  let ds := cursor.taken Char.isDigit
  if ds.isEmpty then .error .malformed
  else .ok (ds.foldl (fun total d => total * 10 + (d.toNat - 48)) 0, cursor.skip ds.length)

/-- The version of the language, behind the name of its directive. -/
def versionDirective (cursor : Cursor) : Except YamlError (Token × Cursor) := do
  let (major, cursor) ← directiveNumber (cursor.skipWhile (· == ' '))
  if cursor.peek ≠ '.' then .error .malformed
  else
    let (_, cursor) ← directiveNumber cursor.step
    if cursor.peek = ' ' ∨ isBreakOrEnd cursor.peek then pure (.versionDirective major, cursor)
    else .error .malformed

/-- A handle of tags. -/
def tagHandle (cursor : Cursor) : Except YamlError (List Char × Cursor) :=
  if cursor.peek ≠ '!' then .error .malformed
  else
    let name := cursor.step.taken isNameChar
    let behind := cursor.skip (name.length + 1)
    if behind.peek = '!' then .ok ('!' :: name ++ ['!'], behind.step)
    else if name.isEmpty ∧ behind.peek = ' ' then .ok (['!'], behind)
    else .error .malformed

/-- A character of a tag. -/
def isTagChar (c : Char) : Bool := c.isAlphanum || "-;/?:@&=+$,_.!~*'()[]%".toList.contains c

/-- The text of a tag. None of the known tags is written with escapes, so one that has
any is refused at once. -/
def tagText (cursor : Cursor) : Except YamlError (List Char × Cursor) :=
  let text := cursor.taken isTagChar
  if text.isEmpty ∨ text.contains '%' then .error .malformed else .ok (text, cursor.skip text.length)

/-- A handle of tags with its meaning, behind the name of its directive. -/
def tagDirective (cursor : Cursor) : Except YamlError (Token × Cursor) := do
  let (handle, cursor) ← tagHandle (cursor.skipWhile (· == ' '))
  if cursor.peek ≠ ' ' then .error .malformed
  else
    let (text, cursor) ← tagText (cursor.skipWhile (· == ' '))
    if cursor.peek = ' ' ∨ isBreakOrEnd cursor.peek then pure (.tagDirective handle text, cursor)
    else .error .malformed

/-- A directive. -/
def lexDirective (lexer : Lexer) : Except YamlError Lexer := do
  let lexer ← (lexer.unwind (-1)).dropKey
  let cursor := lexer.cursor.step
  let name := cursor.taken isNameChar
  let cursor := cursor.skip name.length
  if name.isEmpty ∨ ¬ (cursor.peek = ' ' ∨ isBreakOrEnd cursor.peek) then .error .malformed
  else
    let (token, cursor) ←
      if name = "YAML".toList then versionDirective cursor
      else if name = "TAG".toList then tagDirective cursor
      else pure (.otherDirective, cursor.skipWhile (!isBreakOrEnd ·))
    let cursor ← ignoredLine cursor
    pure { lexer.push token with cursor := cursor, keyAllowed := false }

/-- The mark of a document's start or end. -/
def lexDocumentMark (lexer : Lexer) (token : Token) : Except YamlError Lexer := do
  let lexer ← (lexer.unwind (-1)).dropKey
  pure { lexer.push token with cursor := lexer.cursor.skip 3, keyAllowed := false }

/-- The opening of a flow collection. -/
def lexFlowStart (lexer : Lexer) (token : Token) : Except YamlError Lexer := do
  let lexer ← lexer.saveKey
  pure { lexer.pushMark token with keys := none :: lexer.keys, keyAllowed := true }

/-- The closing of a flow collection. Where none is open the document is malformed. -/
def lexFlowEnd (lexer : Lexer) (token : Token) : Except YamlError Lexer := do
  let lexer ← lexer.dropKey
  if lexer.inFlow then
    pure { lexer.pushMark token with keys := lexer.keys.drop 1, keyAllowed := false }
  else .error .malformed

/-- The comma of a flow collection. -/
def lexFlowEntry (lexer : Lexer) : Except YamlError Lexer := do
  let lexer ← lexer.dropKey
  pure { lexer.pushMark .flowEntry with keyAllowed := true }

/-- The hyphen of a block sequence. -/
def lexBlockEntry (lexer : Lexer) : Except YamlError Lexer :=
  if lexer.inFlow then do
    let lexer ← lexer.dropKey
    pure { lexer.pushMark .blockEntry with keyAllowed := true }
  else if !lexer.keyAllowed then .error .malformed
  else do
    let (lexer, opened) := lexer.indent lexer.cursor.column
    let lexer := if opened then lexer.push .blockSequenceStart else lexer
    let lexer ← lexer.dropKey
    pure { lexer.pushMark .blockEntry with keyAllowed := true }

/-- The question mark of an explicit key. -/
def lexKey (lexer : Lexer) : Except YamlError Lexer :=
  if !lexer.inFlow && !lexer.keyAllowed then .error .malformed
  else do
    let (lexer, opened) :=
      if lexer.inFlow then (lexer, false) else lexer.indent lexer.cursor.column
    let lexer := if opened then lexer.push .blockMappingStart else lexer
    let lexer ← lexer.dropKey
    pure { lexer.pushMark .key with keyAllowed := !lexer.inFlow }

/-- The colon of a value. If a key may have begun before it, it has. -/
def lexValue (lexer : Lexer) : Except YamlError Lexer :=
  match lexer.keys with
  | some place :: outer =>
    let (lexer, opened) :=
      if lexer.inFlow then (lexer, false) else lexer.indent place.column
    let added := if opened then [Token.blockMappingStart, .key] else [.key]
    let lexer := { lexer with
      tokens := insertTokens place.tokens added lexer.tokens
      keys := none :: outer }
    .ok { lexer.pushMark .value with keyAllowed := false }
  | _ =>
    if !lexer.inFlow && !lexer.keyAllowed then .error .malformed
    else do
      let (lexer, opened) :=
        if lexer.inFlow then (lexer, false) else lexer.indent lexer.cursor.column
      let lexer := if opened then lexer.push .blockMappingStart else lexer
      let lexer ← lexer.dropKey
      pure { lexer.pushMark .value with keyAllowed := !lexer.inFlow }

/-- A name behind a mark: of an anchor or of an alias. -/
def lexName (lexer : Lexer) (token : List Char → Token) : Except YamlError Lexer := do
  let lexer ← lexer.saveKey
  let name := lexer.cursor.step.taken isNameChar
  let cursor := lexer.cursor.skip (name.length + 1)
  if name.isEmpty ∨ ¬ (isSpaceOrEnd cursor.peek ∨ "?:,]\x7d%@\x60".toList.contains cursor.peek) then
    .error .malformed
  else pure { lexer.push (token name) with cursor := cursor, keyAllowed := false }

/-- A tag, in full between angle brackets, alone, or with a handle. -/
def tagAt (cursor : Cursor) : Except YamlError (Token × Cursor) :=
  if cursor.peekAt 1 = '<' then do
    let (text, cursor) ← tagText (cursor.skip 2)
    if cursor.peek = '>' then pure (.tag none text, cursor.step) else .error .malformed
  else if isSpaceOrEnd (cursor.peekAt 1) then .ok (.tag none ['!'], cursor.step)
  else do
    let word := cursor.step.taken fun c => c != ' ' && !isBreakOrEnd c
    let (handle, cursor) ← if word.contains '!' then tagHandle cursor else pure (['!'], cursor.step)
    let (text, cursor) ← tagText cursor
    pure (.tag (some handle) text, cursor)

/-- A tag with the blank behind it. -/
def lexTag (lexer : Lexer) : Except YamlError Lexer := do
  let lexer ← lexer.saveKey
  let (token, cursor) ← tagAt lexer.cursor
  if cursor.peek = ' ' ∨ isBreakOrEnd cursor.peek then
    pure { lexer.push token with cursor := cursor, keyAllowed := false }
  else .error .malformed

/-- A block of text. -/
def lexBlockScalar (lexer : Lexer) (folded : Bool) : Except YamlError Lexer := do
  let lexer ← lexer.dropKey
  let (text, cursor) ← blockScalar folded lexer.column lexer.cursor.step
  pure { lexer.push (.scalar text false) with cursor := cursor, keyAllowed := true }

/-- A text in quotation marks. -/
def lexQuoted (lexer : Lexer) (mark : Char) : Except YamlError Lexer := do
  let lexer ← lexer.saveKey
  let (text, cursor) ← quotedScalar mark (lexer.cursor.ahead.length + 1) lexer.cursor.step
  pure { lexer.push (.scalar text false) with cursor := cursor, keyAllowed := false }

/-- A plain text. A key may follow it if a line has ended behind it. -/
def lexPlain (lexer : Lexer) : Except YamlError Lexer := do
  let lexer ← lexer.saveKey
  let (text, lineEnded, cursor) :=
    plainScalar lexer.inFlow (lexer.column + 1) (lexer.cursor.ahead.length + 1) [] false lexer.cursor
  pure { lexer.push (.scalar text true) with cursor := cursor, keyAllowed := lineEnded }

/-- Whether a plain text can begin with the next character. -/
def canBeginPlain (lexer : Lexer) : Bool :=
  let c := lexer.cursor.peek
  let next := lexer.cursor.peekAt 1
  if isSpaceOrEnd c || "-?:,[]\x7b\x7d#&*!|>'\"%@\x60".toList.contains c then
    !isSpaceOrEnd next && (c == '-' || (!lexer.inFlow && (c == '?' || c == ':')))
  else true

/-- The next token. -/
def lexToken (lexer : Lexer) : Except YamlError Lexer :=
  let cursor := lexer.cursor
  let c := cursor.peek
  let set := isSpaceOrEnd (cursor.peekAt 1)
  if c = '%' ∧ cursor.column = 0 then lexer.lexDirective
  else if c = '-' ∧ cursor.column = 0 ∧ cursor.atDocumentMark then lexer.lexDocumentMark .documentStart
  else if c = '.' ∧ cursor.column = 0 ∧ cursor.atDocumentMark then lexer.lexDocumentMark .documentEnd
  else if c = '[' then lexer.lexFlowStart .flowSequenceStart
  else if c = '\x7b' then lexer.lexFlowStart .flowMappingStart
  else if c = ']' then lexer.lexFlowEnd .flowSequenceEnd
  else if c = '\x7d' then lexer.lexFlowEnd .flowMappingEnd
  else if c = ',' then lexer.lexFlowEntry
  else if c = '-' ∧ set then lexer.lexBlockEntry
  else if c = '?' ∧ (lexer.inFlow ∨ set) then lexer.lexKey
  else if c = ':' ∧ (lexer.inFlow ∨ set) then lexer.lexValue
  else if c = '*' then lexer.lexName .alias
  else if c = '&' then lexer.lexName .anchor
  else if c = '!' then lexer.lexTag
  else if c = '|' ∧ !lexer.inFlow then lexer.lexBlockScalar false
  else if c = '>' ∧ !lexer.inFlow then lexer.lexBlockScalar true
  else if c = '\'' ∨ c = '"' then lexer.lexQuoted c
  else if lexer.canBeginPlain then lexer.lexPlain
  else .error .malformed

/-- All tokens of a text. Every token but the last takes at least one character. -/
def run : Nat → Lexer → Except YamlError (List Token)
  | 0, _ => .error .malformed
  | steps + 1, lexer => do
    let lexer ← (lexer.skipIdle (lexer.cursor.ahead.length + 1)).dropStale
    let lexer := lexer.unwind lexer.cursor.column
    if lexer.cursor.ahead.isEmpty then
      let lexer ← lexer.lexEnd
      pure lexer.tokens
    else run steps (← lexer.lexToken)

end Lexer

/-- The tokens of a document. -/
def tokens (text : List Char) : Except YamlError (List Token) :=
  Lexer.run (text.length + 1) (.start text)

end Conformance.Yaml
