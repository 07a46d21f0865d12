import Conformance.Pattern.Reader
import Conformance.Yaml.Token

/-!
# The structure of a settings document

A document is one tree of scalars, sequences and mappings. Every node has a tag that says
what its value is; plain scalars without a tag get one from their form. An alias stands
for the node of its anchor.
-/

namespace Conformance.Yaml

/-- What the value of a node is. -/
inductive Tag where
  | null
  | bool
  | integer
  | float
  | binary
  | timestamp
  | orderedMap
  | pairs
  | set
  | text
  | sequence
  | mapping
  | merge
  /-- The key of a mapping whose value stands for the whole. -/
  | value
  | other
  deriving Repr, DecidableEq

/-- The full texts of the known tags. -/
def knownTags : List (String × Tag) :=
  [("null", .null), ("bool", .bool), ("int", .integer), ("float", .float), ("binary", .binary),
    ("timestamp", .timestamp), ("omap", .orderedMap), ("pairs", .pairs), ("set", .set), ("str", .text),
    ("seq", .sequence), ("map", .mapping), ("merge", .merge), ("value", .value)]

/-- How the full texts of the known tags begin. -/
def tagStart : String := "tag:yaml.org,2002:"

/-- The tag of a full text. -/
def Tag.ofText (text : List Char) : Tag :=
  ((knownTags.find? fun (name, _) => (tagStart ++ name).toList == text).map (·.2)).getD .other

/-- The forms of plain scalars with their tags. The first form that fits counts. -/
def scalarForms : List (Pattern × Tag) := [
  (.ofText "^(?:yes|Yes|YES|no|No|NO|true|True|TRUE|false|False|FALSE|on|On|ON|off|Off|OFF)$", .bool),
  (.ofText "^[-+]?[0-9][0-9_]*\\.[0-9_]*(?:[eE][-+][0-9]+)?$", .float),
  (.ofText "^\\.[0-9][0-9_]*(?:[eE][-+][0-9]+)?$", .float),
  (.ofText "^[-+]?[0-9][0-9_]*(?::[0-5]?[0-9])+\\.[0-9_]*$", .float),
  (.ofText "^[-+]?\\.(?:inf|Inf|INF)$", .float),
  (.ofText "^\\.(?:nan|NaN|NAN)$", .float),
  (.ofText "^[-+]?0b[0-1_]+$", .integer),
  (.ofText "^[-+]?0[0-7_]+$", .integer),
  (.ofText "^[-+]?(?:0|[1-9][0-9_]*)$", .integer),
  (.ofText "^[-+]?0x[0-9a-fA-F_]+$", .integer),
  (.ofText "^[-+]?[1-9][0-9_]*(?::[0-5]?[0-9])+$", .integer),
  (.ofText "^<<$", .merge),
  (.ofText "^(?:~|null|Null|NULL|)$", .null),
  (.ofText "^[0-9][0-9][0-9][0-9]-[0-9][0-9]-[0-9][0-9]$", .timestamp),
  (.ofText ("^[0-9][0-9][0-9][0-9]-[0-9][0-9]?-[0-9][0-9]?(?:[Tt]|[ \\t]+)[0-9][0-9]?:[0-9][0-9]:[0-9][0-9]" ++
    "(?:\\.[0-9]*)?(?:[ \\t]*(?:Z|[-+][0-9][0-9]?(?::[0-9][0-9])?))?$"), .timestamp),
  (.ofText "^=$", .value)]

/-- The tag of a plain scalar. -/
def plainTag (text : List Char) : Tag :=
  ((scalarForms.find? fun (form, _) => (form.matchStart text).isSome).map (·.2)).getD .text

/-- A node of a document. -/
inductive Node where
  | scalar (tag : Tag) (text : List Char)
  | sequence (tag : Tag) (items : List Node)
  | mapping (tag : Tag) (fields : List (Node × Node))

/-- An absent node. -/
def Node.absent : Node := .scalar .null []

/-- What reading the tokens of a document needs to know: the tokens ahead and the nodes of
the anchors so far. -/
structure NodeState where
  tokens : List Token
  anchors : List (List Char × Node)

/-- The meanings of the handles of tags. -/
abbrev TagHandles := List (List Char × List Char)

/-- The handles that every document knows. -/
def defaultHandles : TagHandles := [(['!'], ['!']), (['!', '!'], tagStart.toList)]

/-- The anchor and the tag before a node. -/
structure Properties where
  anchor : Option (List Char)
  /-- The full text of the tag. -/
  tag : Option (List Char)

/-- The full text of a tag. -/
def fullTag (handles : TagHandles) (handle : Option (List Char)) (rest : List Char) :
    Except YamlError (List Char) :=
  match handle with
  | none => .ok rest
  | some handle =>
    match handles.lookup handle with
    | some meaning => .ok (meaning ++ rest)
    | none => .error .malformed

/-- The anchor and the tag before a node, in either order. -/
def properties (handles : TagHandles) : List Token → Except YamlError (Properties × List Token)
  | .anchor name :: .tag handle rest :: tokens => do
    pure (⟨some name, some (← fullTag handles handle rest)⟩, tokens)
  | .tag handle rest :: .anchor name :: tokens => do
    pure (⟨some name, some (← fullTag handles handle rest)⟩, tokens)
  | .anchor name :: tokens => .ok (⟨some name, none⟩, tokens)
  | .tag handle rest :: tokens => do pure (⟨none, some (← fullTag handles handle rest)⟩, tokens)
  | tokens => .ok (⟨none, none⟩, tokens)

/-- Whether a tag leaves the choice to the form of the node. -/
def isOpenTag (tag : Option (List Char)) : Bool := tag.all (· == ['!'])

/-- The tag of a scalar. A single exclamation mark lets the form decide, and so does no
mark at all before a plain scalar. -/
def scalarTag (tag : Option (List Char)) (plain : Bool) (text : List Char) : Tag :=
  match tag with
  | none => if plain then plainTag text else .text
  | some tag => if tag = ['!'] then plainTag text else .ofText tag

/-- The tag of a collection. -/
def collectionTag (tag : Option (List Char)) (usual : Tag) : Tag :=
  if isOpenTag tag then usual else .ofText (tag.getD [])

/-- The state without its next token. -/
def NodeState.next (state : NodeState) : NodeState := { state with tokens := state.tokens.drop 1 }

/-- The next token; behind the last one the end is seen again. -/
def NodeState.peek (state : NodeState) : Token := state.tokens.head?.getD .streamEnd

/-- Whether the next token is one of some. -/
def NodeState.sees (state : NodeState) (tokens : List Token) : Bool := tokens.contains state.peek

mutual

/-- A node. In blocks there are block collections, and behind the colon of a key a
sequence need not be indented. -/
def node (handles : TagHandles) (block unindented : Bool) :
    Nat → NodeState → Except YamlError (Node × NodeState)
  | 0, _ => .error .malformed
  | steps + 1, state =>
    match state.peek with
    | .alias name =>
      match state.anchors.lookup name with
      | some found => .ok (found, state.next)
      | none => .error .malformed
    | _ => do
      let (given, tokens) ← properties handles state.tokens
      if given.anchor.any fun name => (state.anchors.lookup name).isSome then .error .malformed
      else
        let (found, state) ← content handles block unindented steps given { state with tokens := tokens }
        pure (found, match given.anchor with
          | some name => { state with anchors := (name, found) :: state.anchors }
          | none => state)

/-- A node behind its anchor and its tag. -/
def content (handles : TagHandles) (block unindented : Bool) :
    Nat → Properties → NodeState → Except YamlError (Node × NodeState)
  | 0, _, _ => .error .malformed
  | steps + 1, given, state =>
    match state.peek with
    | .scalar text plain => .ok (.scalar (scalarTag given.tag plain text) text, state.next)
    | .flowSequenceStart => do
      let (items, state) ← flowItems handles true steps state.next
      pure (.sequence (collectionTag given.tag .sequence) items, state)
    | .flowMappingStart => do
      let (fields, state) ← flowFields handles true steps state.next
      pure (.mapping (collectionTag given.tag .mapping) fields, state)
    | .blockEntry =>
      if unindented then do
        let (items, state) ← blockItems handles true steps state
        pure (.sequence (collectionTag given.tag .sequence) items, state)
      else emptyNode given state
    | .blockSequenceStart =>
      if block then do
        let (items, state) ← blockItems handles false steps state.next
        pure (.sequence (collectionTag given.tag .sequence) items, state)
      else emptyNode given state
    | .blockMappingStart =>
      if block then do
        let (fields, state) ← blockFields handles steps state.next
        pure (.mapping (collectionTag given.tag .mapping) fields, state)
      else emptyNode given state
    | _ => emptyNode given state

/-- A node without content. It needs an anchor or a tag. -/
def emptyNode (given : Properties) (state : NodeState) : Except YamlError (Node × NodeState) :=
  if given.anchor.isSome || given.tag.isSome then
    .ok (.scalar (scalarTag given.tag true []) [], state)
  else .error .malformed

/-- The items of a block sequence. An indented one ends with a token of its own. -/
def blockItems (handles : TagHandles) (unindented : Bool) :
    Nat → NodeState → Except YamlError (List Node × NodeState)
  | 0, _ => .error .malformed
  | steps + 1, state =>
    match state.peek with
    | .blockEntry => do
      let state := state.next
      let absent := state.sees [.blockEntry, .blockEnd] ||
        (unindented && state.sees [.key, .value])
      let (item, state) ← if absent then pure (Node.absent, state) else node handles true false steps state
      let (items, state) ← blockItems handles unindented steps state
      pure (item :: items, state)
    | token =>
      if unindented then .ok ([], state)
      else if token = .blockEnd then .ok ([], state.next)
      else .error .malformed

/-- The fields of a block mapping. -/
def blockFields (handles : TagHandles) :
    Nat → NodeState → Except YamlError (List (Node × Node) × NodeState)
  | 0, _ => .error .malformed
  | steps + 1, state =>
    match state.peek with
    | .key => do
      let state := state.next
      let (key, state) ←
        if state.sees [.key, .value, .blockEnd] then pure (Node.absent, state)
        else node handles true true steps state
      let (value, state) ←
        if state.peek = .value then
          let state := state.next
          if state.sees [.key, .value, .blockEnd] then pure (Node.absent, state)
          else node handles true true steps state
        else pure (Node.absent, state)
      let (fields, state) ← blockFields handles steps state
      pure ((key, value) :: fields, state)
    | .blockEnd => .ok ([], state.next)
    | _ => .error .malformed

/-- The items of a flow sequence. A key with its value makes a mapping of one field. -/
def flowItems (handles : TagHandles) (first : Bool) :
    Nat → NodeState → Except YamlError (List Node × NodeState)
  | 0, _ => .error .malformed
  | steps + 1, state =>
    if state.peek = .flowSequenceEnd then .ok ([], state.next)
    else if !first && state.peek != .flowEntry then .error .malformed
    else do
      let state := if first then state else state.next
      if state.peek = .key then
        let state := state.next
        let (key, state) ←
          if state.sees [.value, .flowEntry, .flowSequenceEnd] then pure (Node.absent, state)
          else node handles false false steps state
        let (value, state) ←
          if state.peek = .value then
            let state := state.next
            if state.sees [.flowEntry, .flowSequenceEnd] then pure (Node.absent, state)
            else node handles false false steps state
          else pure (Node.absent, state)
        let (items, state) ← flowItems handles false steps state
        pure (.mapping .mapping [(key, value)] :: items, state)
      else if state.peek = .flowSequenceEnd then pure ([], state.next)
      else
        let (item, state) ← node handles false false steps state
        let (items, state) ← flowItems handles false steps state
        pure (item :: items, state)

/-- The fields of a flow mapping. A key alone has no value. -/
def flowFields (handles : TagHandles) (first : Bool) :
    Nat → NodeState → Except YamlError (List (Node × Node) × NodeState)
  | 0, _ => .error .malformed
  | steps + 1, state =>
    if state.peek = .flowMappingEnd then .ok ([], state.next)
    else if !first && state.peek != .flowEntry then .error .malformed
    else do
      let state := if first then state else state.next
      if state.peek = .key then
        let state := state.next
        let (key, state) ←
          if state.sees [.value, .flowEntry, .flowMappingEnd] then pure (Node.absent, state)
          else node handles false false steps state
        let (value, state) ←
          if state.peek = .value then
            let state := state.next
            if state.sees [.flowEntry, .flowMappingEnd] then pure (Node.absent, state)
            else node handles false false steps state
          else pure (Node.absent, state)
        let (fields, state) ← flowFields handles false steps state
        pure ((key, value) :: fields, state)
      else if state.peek = .flowMappingEnd then pure ([], state.next)
      else
        let (key, state) ← node handles false false steps state
        let (fields, state) ← flowFields handles false steps state
        pure ((key, .absent) :: fields, state)

end

/-- The directives before a document: the handles they define, and whether the version
has been given. -/
def directives : TagHandles → (version : Bool) → List Token → Except YamlError (TagHandles × List Token)
  | handles, version, .versionDirective major :: tokens =>
    if version ∨ major ≠ 1 then .error .malformed else directives handles true tokens
  | handles, version, .tagDirective handle meaning :: tokens =>
    if (handles.lookup handle).isSome then .error .malformed
    else directives ((handle, meaning) :: handles) version tokens
  | handles, version, .otherDirective :: tokens => directives handles version tokens
  | handles, _, tokens => .ok (handles, tokens)

/-- Whether a token is a directive. -/
def Token.isDirective : Token → Bool
  | .versionDirective _ => true
  | .tagDirective _ _ => true
  | .otherDirective => true
  | _ => false

/-- The content of a document behind its start. -/
def documentContent (handles : TagHandles) (state : NodeState) : Except YamlError (Node × NodeState) :=
  if state.peek.isDirective || state.sees [.documentStart, .documentEnd, .streamEnd] then
    .ok (.absent, state)
  else node handles true false (4 * state.tokens.length + 4) state

/-- The single document of some tokens, if there is one. -/
def document? (tokens : List Token) : Except YamlError (Option Node) := do
  let single (found : Node × NodeState) : Except YamlError (Option Node) :=
    if (found.2.tokens.dropWhile (· == .documentEnd)).head?.getD .streamEnd = .streamEnd then
      .ok (some found.1)
    else .error .malformed
  let first := tokens.head?.getD .streamEnd
  if first = .streamEnd then pure none
  else if first.isDirective || first == .documentStart then
    let (given, tokens) ← directives [] false tokens
    if tokens.head? ≠ some .documentStart then .error .malformed
    else single (← documentContent (given ++ defaultHandles) ⟨tokens.drop 1, []⟩)
  else single (← node defaultHandles true false (4 * tokens.length + 4) ⟨tokens, []⟩)

end Conformance.Yaml
