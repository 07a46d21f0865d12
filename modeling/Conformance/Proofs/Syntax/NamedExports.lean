import Conformance.Proofs.Syntax.DeclaredNames
import Conformance.Proofs.Syntax.Positions
import Conformance.Syntax.Source

/-!
# Named exports

A statement that is read where `export` stands in front of the words of a declaration exports the name that is
declared, and nothing as a default. So a source that is read to its end has this export beside those of its other
statements.
-/

namespace Conformance.Syntax

open Syntax.Rule Text

variable {self : Self} {dialect : Dialect} {cursor stop : Cursor} {nodes : List Node}
  {source name words tail : List Char}

/-! One statement. -/

/-- An export of a declaration exports the name of the declaration, and nothing as a default. -/
theorem exportsOf_declaration {statement declaration : Node} {comments : List Node} {start next : Cursor}
    {declared : String} (children : statement.children =
      leaf (.token "export") start next :: (comments ++ [declaration.withRole .declaration]))
    (lead : IsLead comments) {kind : Construct} (constructed : declaration.kind = .construct kind)
    (declares : DeclaresName source declaration declared) :
    (∀ fact ∈ exportsOf source statement, fact.kind = .named) ∧
      ∃ fact ∈ exportsOf source statement, fact.name = declared := by
  obtain ⟨_, role, span, parts⟩ := declaration
  obtain rfl : _ = Kind.construct kind := constructed
  have noToken (text : String) (other : text ≠ "export") : statement.hasToken text = false := by
    rw [Node.hasToken, children, List.any_eq_false]
    intro node member
    rcases List.mem_cons.mp member with rfl | member
    · simpa [Node.isToken, leaf, Node.kind] using other.symm
    · rcases List.mem_append.mp member with comment | last
      · have comment : (node.kind == .construct .comment) = true := (lead node comment).1
        rw [Node.isToken, eq_of_beq comment]
        simp
      · rw [List.mem_singleton.mp last]
        simp [Node.isToken, Node.withRole, Node.kind]
  have child : statement.child? .declaration = some (.mk (.construct kind) (some .declaration) span parts) := by
    have none_ : comments.find? (·.role == some .declaration) = none := by
      rw [List.find?_eq_none]
      intro node member
      rw [(lead node member).2]
      simp
    rw [Node.child?, children, List.find?_cons_of_neg, List.find?_append, none_]
    · rfl
    · simp [leaf, Node.role]
  unfold exportsOf
  dsimp only
  rw [noToken "default" (by decide), noToken "=" (by decide), child, Bool.or_false, if_neg Bool.false_ne_true]
  dsimp only
  have same : DeclaresName source (.mk (.construct kind) (some .declaration) span parts) declared := declares
  rcases same with ⟨several, declarator, member, isOne, named⟩ | ⟨other, leaf, found, named⟩
  · rw [if_pos several]
    constructor
    · intro fact member
      obtain ⟨_, _, rfl⟩ := List.mem_map.mp member
      rfl
    · exact ⟨_, List.mem_map_of_mem (List.mem_filter.mpr ⟨member, isOne⟩), named⟩
  · rw [if_neg (ne_true_of_eq_false other), found]
    exact ⟨by simp, _, List.mem_singleton.mpr rfl, named⟩

/-- What has been read is one statement that begins with `export` at the next token, with comments in front of it. It
exports a name, and nothing as a default. -/
structure ExportsName (source : List Char) (cursor : Cursor) (name : String) (comments : List Node)
    (statement : Node) : Prop where
  lead : IsLead comments
  isExport : statement.is .exportStatement = true
  begins : statement.span.startByte = (nextToken cursor).byte
  children : ∃ next others, (nextToken cursor).byte < next.byte ∧
    statement.children = leaf (.token "export") (nextToken cursor) next :: others
  named : ∀ fact ∈ exportsOf source statement, fact.kind = .named
  offers : ∃ fact ∈ exportsOf source statement, fact.name = name

/-- The first word of a declaration. -/
theorem Declares.exists_word (declares : Declares words tail) : ∃ word gap rest, words = word ++ (gap ++ rest) ∧
    Spacing gap ∧ word ∈ ["const", "let", "var", "function", "async", "class"].map String.toList := by
  cases declares with
  | @ofVariable kind gap blanks more mark listed spaced blank marked =>
    refine ⟨kind.toList, gap, [], by rw [List.append_nil], spaced, List.mem_map_of_mem ?_⟩
    simp only [List.mem_cons, List.not_mem_nil, or_false] at listed ⊢
    tauto
  | ofFunction spaced tail =>
    exact ⟨_, _, [], by rw [List.append_nil], spaced, List.mem_map_of_mem (by decide)⟩
  | ofAsync divided spaced tail => exact ⟨_, _, _, rfl, divided, List.mem_map_of_mem (by decide)⟩
  | ofClass spaced tail => exact ⟨_, _, [], by rw [List.append_nil], spaced, List.mem_map_of_mem (by decide)⟩

/-- A declaration begins with a letter. -/
theorem Declares.exists_cons (declares : Declares words tail) :
    ∃ c rest, words = c :: rest ∧ isGap c = false ∧ c ≠ '/' := by
  obtain ⟨word, gap, rest, split, _, listed⟩ := declares.exists_word
  simp only [List.map_cons, List.map_nil, List.mem_cons, List.not_mem_nil, or_false] at listed
  rcases listed with rfl | rfl | rfl | rfl | rfl | rfl <;> exact ⟨_, _, split, by decide, by decide⟩

/-- The rule for an export in front of the words of a declaration. -/
theorem exportStatement_eq (counted : (behindName cursor).Whole)
    (undecorated : many (decorator self) cursor = some ([], cursor)) (declares : Declares words tail)
    (token : (nextToken (behindName cursor)).rest = words ++ (name ++ tail)) :
    exportStatement self cursor = construct .exportStatement (all [all [many (decorator self), word "export"],
      playing .declaration (declarationRule self)]) cursor := by
  obtain ⟨first, gap, rest, split, spaced, listed⟩ := declares.exists_word
  have plain : isPlainWord first = true :=
    (by decide : ∀ word ∈ ["const", "let", "var", "function", "async", "class"].map String.toList,
      isPlainWord word = true) first listed
  have other : ∀ text ∈ ["default", "as", "type"], (String.ofList first == text) = false :=
    (by decide : ∀ word ∈ ["const", "let", "var", "function", "async", "class"].map String.toList,
      ∀ text ∈ ["default", "as", "type"], (String.ofList word == text) = false) first listed
  have ahead : (nextToken (behindName cursor)).rest = first ++ (gap ++ (rest ++ (name ++ tail))) := by
    rw [token, split]
    simp only [List.append_assoc]
  obtain ⟨told, named, _⟩ := nextName_word counted plain spaced ahead
  obtain ⟨c, more, next, apart⟩ := named.exists_token
  have noStar : nextIs (behindName cursor) "*" = false :=
    startsWith_of_ne next rfl (apart '*' (by decide) (by decide))
  have noBrace : nextIs (behindName cursor) "\x7b" = false :=
    startsWith_of_ne next rfl (apart '\x7b' (by decide) (by decide))
  have noEquals : nextIs (behindName cursor) "=" = false :=
    startsWith_of_ne next rfl (apart '=' (by decide) (by decide))
  unfold exportStatement
  dsimp only
  rw [undecorated]
  dsimp only
  rw [told, noStar, noBrace, noEquals, other "default" (by decide), other "as" (by decide),
    other "type" (by decide)]
  simp only [Bool.false_eq_true, if_false, false_and]

/-- A name takes its bytes. -/
theorem byte_of_nameAt {next : Cursor} (found : nameAt? cursor = some (name, next)) :
    next.byte = cursor.byte + byteLength name := by
  obtain ⟨passed, rest, byte, _⟩ := Cursor.reaches_nameAt found
  obtain rfl : passed = name := List.append_cancel_right (rest.symm.trans (nameAt?_split found))
  exact byte

/-- What is read by an export in front of the words of a declaration. -/
theorem exportStatement_read (counted : cursor.Whole) (reached : (Cursor.ofText source).Reaches cursor)
    (declares : Declares words tail) (whole : WholeName name tail)
    (ahead : (nextToken cursor).rest = "export".toList ++ ([' '] ++ (words ++ (name ++ tail))))
    (read : exportStatement self cursor = some (nodes, stop)) :
    ∃ comments statement, nodes = comments ++ [statement] ∧
      ExportsName source cursor (String.ofList name) comments statement := by
  have undecorated : many (decorator self) cursor = some ([], cursor) :=
    many_of_none (decorator_eq_none ahead (by decide))
  have space : Spacing [' '] := ⟨by decide, List.all_eq_true.mp (by decide)⟩
  obtain ⟨_, named, found⟩ := nextName_word counted (by decide) space ahead
  have way : cursor.Reaches (behindName cursor) := Cursor.reaches_behindName cursor
  have onward : (behindName cursor).Whole := counted.reaches way
  have token : (nextToken (behindName cursor)).rest = words ++ (name ++ tail) := by
    obtain ⟨c, rest, split, shown, plain⟩ := declares.exists_cons
    refine onward.rest_nextToken_iff.mpr ⟨?_, ?_⟩
    · rw [(named.eq found).2]
      exact .blank (by decide) (.nothing _)
    · rw [split]
      exact ⟨by rintro _ ⟨⟩; exact shown, commentLength?_cons_of_ne plain _⟩
  rw [exportStatement_eq onward undecorated declares token] at read
  obtain ⟨_, parts, rfl⟩ := exists_of_construct read
  obtain ⟨_, _, _, head, declared, rfl⟩ := exists_of_andThen parts
  obtain ⟨_, _, _, decorated, exported, rfl⟩ := exists_of_andThen head
  rw [undecorated] at decorated
  cases decorated
  obtain ⟨here, rfl⟩ := exists_of_word exported
  rw [found] at here
  cases here
  obtain ⟨_, told, rfl⟩ := exists_of_playing declared
  obtain ⟨comments, kind, within, inner, rfl, lead, apart, declaresName⟩ :=
    isDeclaration_of_read onward (reached.trans way) declares whole token told
  have mapped : (comments ++ [Node.mk (.construct kind) none within inner]).map (inRole .declaration) =
      comments ++ [(Node.mk (.construct kind) none within inner).withRole .declaration] := by
    have same : comments.map (inRole .declaration) = comments :=
      (List.map_congr_left fun node member => if_pos (lead node member).1).trans (List.map_id _)
    have notComment : isComment (Node.mk (.construct kind) none within inner) = false := by
      simpa [isComment, Node.is, Node.kind] using apart
    rw [List.map_append, same, List.map_singleton, inRole, notComment, if_neg Bool.false_ne_true]
  have comments_ : (gap cursor).1.dropWhile isComment = [] :=
    List.dropWhile_eq_nil_iff.mpr isComment_of_mem_gapFrom
  have token_ : isComment (leaf (.token "export") (nextToken cursor) (behindName cursor)) = false := rfl
  obtain ⟨span, same, begins⟩ := wrap_append_cons token_ .exportStatement (gap cursor).1
    (comments ++ [(Node.mk (.construct kind) none within inner).withRole .declaration]) stop
  rw [comments_, List.nil_append] at same
  rw [mapped, List.nil_append, List.append_assoc, List.singleton_append, same]
  have children : (Node.mk (.construct .exportStatement) none span (leaf (.token "export") (nextToken cursor)
      (behindName cursor) :: (comments ++ [(Node.mk (.construct kind) none within inner).withRole
        .declaration]))).children = _ := rfl
  obtain ⟨named, offers⟩ := exportsOf_declaration children lead rfl declaresName
  refine ⟨_, _, rfl, isLead_takeWhile (roleless_gapFrom _ _), rfl, begins comments_, ⟨_, _, ?_, rfl⟩, named, offers⟩
  rw [byte_of_nameAt found]
  exact Nat.lt_add_of_pos_right (by decide)

/-- The statement that is read where an export stands in front of the words of a declaration. -/
theorem statement_read {depth : Nat} (counted : cursor.Whole) (reached : (Cursor.ofText source).Reaches cursor)
    (declares : Declares words tail) (whole : WholeName name tail)
    (ahead : (nextToken cursor).rest = "export".toList ++ ([' '] ++ (words ++ (name ++ tail))))
    (read : readNested dialect depth .statement cursor = some (nodes, stop)) :
    ∃ comments statement, nodes = comments ++ [statement] ∧
      ExportsName source cursor (String.ofList name) comments statement := by
  have space : Spacing [' '] := ⟨by decide, List.all_eq_true.mp (by decide)⟩
  obtain ⟨told, _⟩ := nextName_word counted (by decide) space ahead
  cases depth with
  | zero => cases read
  | succ depth =>
    change statementRule (readNested dialect depth) cursor = some (nodes, stop) at read
    have keyword : keywordStatement (readNested dialect depth) cursor =
        some (exportStatement (readNested dialect depth)) := by
      unfold keywordStatement
      dsimp only
      rw [told]
      rfl
    unfold statementRule at read
    dsimp only at read
    rw [ahead, keyword] at read
    exact exportStatement_read counted reached declares whole ahead read

end Conformance.Syntax

/-!
# Where statements export

The statements of a source begin at certain bytes. If one of them stands where `export` is in front of the words of
a declaration, the source exports the name that is declared, beside what its other statements export.
-/

namespace Conformance.Syntax

open Syntax.Rule Text

variable {dialect : Dialect} {source : List Char} {tree : Node}

/-! The places of statements. -/

/-- The bytes at which statements begin that a rule reads one behind the other. The number bounds them. -/
def beginnings (statement : Rule) : Nat → Cursor → List Nat
  | 0, _ => []
  | bound + 1, cursor =>
    match statement cursor with
    | none => []
    | some (_, next) =>
      if next.left < cursor.left then (nextToken cursor).byte :: beginnings statement bound next else []

/-- The bytes at which the statements of a source begin. -/
def statementBytes (dialect : Dialect) (source : List Char) : List Nat :=
  let start := (Cursor.ofText source).skipWhile isGap
  let behind := match hashBang start with
    | some (_, behind) => behind
    | none => start
  beginnings (readNested dialect (depthBound source) .statement) (behind.left + 1) behind

/-- A rule applies a number of times, if only none. -/
theorem exists_manyUpTo (rule : Rule) (bound : Nat) (start : Cursor) :
    ∃ nodes stop, manyUpTo bound rule start = some (nodes, stop) := by
  cases bound with
  | zero => exact ⟨[], start, rfl⟩
  | succ bound =>
    unfold manyUpTo
    split
    · exact ⟨_, _, rfl⟩
    · split
      · split
        · exact ⟨_, _, rfl⟩
        · exact ⟨_, _, rfl⟩
      · exact ⟨_, _, rfl⟩

/-- A statement that begins at one of the bytes stands among those that are read. The induction is on the bound. -/
theorem exists_of_mem_beginnings {statement : Rule} (laysOut : LaysOut statement) {bound place : Nat}
    {start stop : Cursor} {nodes : List Node} (member : place ∈ beginnings statement bound start)
    (read : manyUpTo bound statement start = some (nodes, stop)) :
    ∃ before cursor here next after, nodes = before ++ here ++ after ∧ Laid start before cursor ∧
      statement cursor = some (here, next) ∧ Laid next after stop ∧ (nextToken cursor).byte = place := by
  induction bound generalizing start nodes with
  | zero => cases member
  | succ bound inductionHypothesis =>
    unfold beginnings at member
    unfold manyUpTo at read
    cases one : statement start with
    | none =>
      rw [one] at member
      cases member
    | some result =>
      obtain ⟨here, next⟩ := result
      rw [one] at member read
      dsimp only at member read
      split at member
      · next onward =>
        obtain ⟨after, last, later⟩ := exists_manyUpTo statement bound next
        rw [if_pos onward, later] at read
        cases read
        rcases List.mem_cons.mp member with rfl | member
        · exact ⟨[], start, here, next, after, rfl, .none (.refl start), one, laysOut.manyUpTo bound _ _ _ later, rfl⟩
        · obtain ⟨before, cursor, there, beyond, behind, rfl, laid, found, rest, place⟩ :=
            inductionHypothesis member later
          refine ⟨here ++ before, cursor, there, beyond, behind, ?_, (laysOut start _ _ one).append laid, found, rest,
            place⟩
          simp only [List.append_assoc]
      · cases member

/-- A statement that begins at one of the bytes of a source stands in its tree. -/
theorem exists_of_mem_statementBytes (read : readTree dialect source = .ok tree) {place : Nat}
    (member : place ∈ statementBytes dialect source) :
    ∃ before cursor here next after stop, tree.is .program = true ∧ tree.children = before ++ here ++ after ∧
      Laid (Cursor.ofText source) before cursor ∧
        readNested dialect (depthBound source) .statement cursor = some (here, next) ∧ Laid next after stop ∧
          (nextToken cursor).byte = place := by
  have laysOut := LaysOut.readNested dialect (depthBound source) .statement
  have root := Cursor.reaches_skipWhile isGap (Cursor.ofText source)
  rw [treeSoFar_of_readTree read]
  unfold statementBytes at member
  unfold treeSoFar
  dsimp only at member ⊢
  generalize (Cursor.ofText source).skipWhile isGap = start at root member ⊢
  have tree (line : List Node) {behind : Cursor} (laid : Laid start line behind)
      (member : place ∈ beginnings (readNested dialect (depthBound source) .statement) (behind.left + 1) behind) :
      ∃ before cursor here next after stop,
        line ++ (statements dialect source behind).1 ++ (gap (statements dialect source behind).2).1 =
            before ++ here ++ after ∧
          Laid (Cursor.ofText source) before cursor ∧
            readNested dialect (depthBound source) .statement cursor = some (here, next) ∧ Laid next after stop ∧
              (nextToken cursor).byte = place := by
    obtain ⟨nodes, stop, found⟩ :=
      exists_manyUpTo (readNested dialect (depthBound source) .statement) (behind.left + 1) behind
    obtain ⟨before, cursor, here, next, after, rfl, first, one, later, same⟩ :=
      exists_of_mem_beginnings laysOut member found
    have all : statements dialect source behind = (before ++ here ++ after, stop) := by
      unfold statements many
      rw [found]
    rw [all]
    refine ⟨line ++ before, cursor, here, next, after ++ (gap stop).1, _, ?_, (laid.append first).behind root, one,
      later.append (laid_gap stop), same⟩
    simp only [List.append_assoc]
  cases found : hashBang start with
  | none =>
    rw [found] at member
    obtain ⟨before, cursor, here, next, after, stop, rest⟩ := tree [] (.none (.refl start)) member
    exact ⟨before, cursor, here, next, after, stop, rfl, rest⟩
  | some result =>
    rw [found] at member
    obtain ⟨before, cursor, here, next, after, stop, rest⟩ :=
      tree result.1 (LaysOut.hashBang start _ _ found) member
    exact ⟨before, cursor, here, next, after, stop, rfl, rest⟩

/-! Nodes between places. -/

/-- What is behind a leaf begins where it ends. -/
theorem Laid.behind_leaf {kind : Kind} {start first last stop : Cursor} {others : List Node}
    (laid : Laid start (Syntax.leaf kind first last :: others) stop) :
    ∃ next : Cursor, next.byte = last.byte ∧ Laid next others stop := by
  unfold Syntax.leaf at laid
  generalize same : (⟨first.byte, last.byte, first.row⟩ : Span) = span at laid
  cases laid with
  | node way inside behind => exact ⟨_, (Span.mk.inj same).2.1.symm, behind⟩

/-- The children of a node lie in front of the place where it ends. -/
theorem Laid.inside {start stop : Cursor} {node : Node} (laid : Laid start [node] stop) :
    ∃ first last, Laid first node.children last ∧ last.byte ≤ stop.byte := by
  cases laid with
  | node way inside behind => exact ⟨_, _, inside, behind.reaches.le⟩

/-! The exports of a tree. -/

/-- The export statements of a tree but for the one that begins at a byte and has characters there. -/
def isBeside (place : Nat) (node : Node) : Bool := node.span.startByte != place || node.span.endByte == place

/-- The exports of a tree beside those of the statement that begins at a byte. -/
def exportsBeside (source : List Char) (tree : Node) (place : Nat) : List ExportFact :=
  ((tree.preorder.filter (·.is .exportStatement)).filter (isBeside place)).flatMap (exportsOf source)

/-- What a tree exports its export statements do. -/
theorem mem_exports {fact : ExportFact} : fact ∈ (Facts.ofTree source tree).exports ↔
    ∃ node ∈ tree.preorder, node.is .exportStatement = true ∧ fact ∈ exportsOf source node := by
  unfold Facts.ofTree
  simp only [map_withParents, List.mem_flatMap, List.mem_filter, and_assoc]

/-- One export statement begins at a byte, if all others are beside it. -/
theorem mem_exports_iff {place : Nat} {statement : Node} (member : statement ∈ tree.preorder)
    (exports : statement.is .exportStatement = true)
    (only : ∀ node ∈ tree.preorder, node.is .exportStatement = true → isBeside place node = false →
      node = statement) {fact : ExportFact} :
    fact ∈ (Facts.ofTree source tree).exports ↔
      fact ∈ exportsOf source statement ∨ fact ∈ exportsBeside source tree place := by
  rw [mem_exports, exportsBeside]
  simp only [List.mem_flatMap, List.mem_filter, and_assoc]
  constructor
  · rintro ⟨node, within, isExport, offered⟩
    cases beside : isBeside place node with
    | true => exact .inr ⟨node, within, isExport, beside, offered⟩
    | false =>
      rw [only node within isExport beside] at offered
      exact .inl offered
  · rintro (offered | ⟨node, within, isExport, _, offered⟩)
    · exact ⟨statement, member, exports, offered⟩
    · exact ⟨node, within, isExport, offered⟩

/-- Nodes that end in front of a byte are beside it. -/
theorem isBeside_of_le {place : Nat} {node : Node} (order : node.span.startByte ≤ node.span.endByte)
    (before : node.span.endByte ≤ place) : isBeside place node = true := by
  rw [isBeside, Bool.or_eq_true, bne_iff_ne, beq_iff_eq]
  omega

/-- Nodes that begin behind a byte are beside it. -/
theorem isBeside_of_lt {place : Nat} {node : Node} (behind : place < node.span.startByte) :
    isBeside place node = true := by
  rw [isBeside, Bool.or_eq_true, bne_iff_ne]
  exact .inl (Nat.ne_of_gt behind)

/-- A statement that begins with `export` is the only export statement that begins where it does. -/
theorem eq_of_not_isBeside {cursor next stop : Cursor} {before comments after : List Node} {statement node : Node}
    {name : String} (program : tree.is .program = true)
    (children : tree.children = before ++ (comments ++ [statement]) ++ after)
    (front : Laid (Cursor.ofText source) before cursor) (here : Laid cursor (comments ++ [statement]) next)
    (back : Laid next after stop) (exports : ExportsName source cursor name comments statement)
    (member : node ∈ tree.preorder) (isExport : node.is .exportStatement = true)
    (notBeside : isBeside (nextToken cursor).byte node = false) : node = statement := by
  obtain ⟨middle, lead, whole⟩ := here.split
  have alone : Node.preorderAll [statement] = statement :: Node.preorderAll statement.children := by
    rw [Node.preorderAll, Node.preorderAll, List.append_nil, Node.preorder_eq]
  obtain ⟨above, _, _⟩ := whole.within statement (alone ▸ List.mem_cons_self)
  obtain ⟨token, others, wide, parts⟩ := exports.children
  obtain ⟨first, last, inner, inside⟩ := whole.inside
  rw [parts] at inner
  obtain ⟨behindToken, starts, rest⟩ := inner.behind_leaf
  have ends := rest.reaches.le
  have order := lead.reaches.le
  rw [exports.begins] at above
  have beside : isBeside (nextToken cursor).byte node = true → node = statement := by
    intro beside
    rw [beside] at notBeside
    cases notBeside
  rw [Node.preorder_eq] at member
  rcases List.mem_cons.mp member with rfl | member
  · rw [Node.is, eq_of_beq program] at isExport
    cases isExport
  · rw [children] at member
    simp only [Node.preorderAll_append, List.mem_append, alone, List.mem_cons] at member
    rcases member with (member | member | same | member) | member
    · obtain ⟨_, forward, until_⟩ := front.within node member
      exact beside (isBeside_of_le forward (by omega))
    · obtain ⟨_, forward, until_⟩ := lead.within node member
      exact beside (isBeside_of_le forward (by omega))
    · exact same
    · rw [parts, Node.preorderAll, Node.preorder_eq, List.cons_append] at member
      rcases List.mem_cons.mp member with rfl | member
      · cases isExport
      · obtain ⟨from_, _, _⟩ := rest.within node member
        exact beside (isBeside_of_lt (by omega))
    · obtain ⟨from_, _, _⟩ := back.within node member
      exact beside (isBeside_of_lt (by omega))

/-- **Where a source exports a declared name.** If a statement of a source begins where `export` stands in front of
the words of a declaration, the source exports the name that is declared; what the statement exports is no default,
and all else that the source exports its other statements do. -/
theorem exports_at_statement (read : readTree dialect source = .ok tree) {front words name tail : List Char}
    (split : source = front ++ ("export ".toList ++ (words ++ (name ++ tail)))) (declares : Declares words tail)
    (whole : WholeName name tail) (begins : byteLength front ∈ statementBytes dialect source) :
    ∃ own : List ExportFact, (∀ fact ∈ own, fact.kind = .named) ∧ (∃ fact ∈ own, fact.name = String.ofList name) ∧
      ∀ fact, fact ∈ (Facts.ofTree source tree).exports ↔
        fact ∈ own ∨ fact ∈ exportsBeside source tree (byteLength front) := by
  obtain ⟨before, cursor, here, next, after, stop, program, children, laid, one, later, place⟩ :=
    exists_of_mem_statementBytes read begins
  have counted : cursor.Whole := (Cursor.whole_ofText source).reaches laid.reaches
  have ahead : (nextToken cursor).rest = "export".toList ++ ([' '] ++ (words ++ (name ++ tail))) := by
    obtain ⟨passed, rest, byte, _⟩ := laid.reaches.trans (Cursor.reaches_nextToken cursor)
    change source = passed ++ (nextToken cursor).rest at rest
    have bytes : byteLength passed = byteLength front := by
      rw [← place, byte]
      exact (Nat.zero_add _).symm
    have dropped := dropBytes_byteLength passed (nextToken cursor).rest
    rw [← rest, bytes, split, dropBytes_byteLength] at dropped
    rw [← dropped, show "export ".toList = "export".toList ++ [' '] by decide, List.append_assoc]
  obtain ⟨comments, statement, rfl, exports⟩ := statement_read counted laid.reaches declares whole ahead one
  have member : statement ∈ tree.preorder := by
    rw [Node.preorder_eq, children]
    simp [Node.preorderAll_append, Node.preorderAll, Node.preorder_eq]
  refine ⟨exportsOf source statement, exports.named, exports.offers, fun fact => ?_⟩
  rw [← place]
  refine mem_exports_iff member exports.isExport fun node within isExport apart => ?_
  exact eq_of_not_isBeside program children laid (LaysOut.readNested dialect _ _ _ _ _ one) later exports within isExport
    apart

end Conformance.Syntax
