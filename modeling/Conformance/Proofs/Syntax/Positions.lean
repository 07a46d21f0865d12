import Conformance.Proofs.Syntax.Statement
import Conformance.Proofs.Syntax.Walking
import Conformance.Proofs.Text.Encoding
import Conformance.Proofs.Text.Lines
import Conformance.Syntax.Source

/-!
# Where the nodes of a tree begin

Every node of a tree that is read from a source begins behind some characters of it, and its line and
column are those of the place behind these characters, where line feeds alone break lines: the column
is counted by reading the bytes back that stand between the last line feed and the node.
-/

namespace Conformance.Syntax

open Text

/-- Every node of trees that lie behind a place begins at a place behind it. -/
theorem Laid.place {start stop : Cursor} {nodes : List Node} (laid : Laid start nodes stop) :
    ∀ node ∈ Node.preorderAll nodes, ∃ first : Cursor, start.Reaches first ∧
      node.span.startByte = first.byte ∧ node.span.row = first.row := by
  induction laid with
  | none way =>
    intro node member
    cases member
  | @node start first last stop kind role children rest way inside behind insideHypothesis
      behindHypothesis =>
    intro node member
    rw [Node.preorderAll, Node.preorder] at member
    rcases List.mem_append.mp member with here | later
    · rcases List.mem_cons.mp here with rfl | below
      · exact ⟨first, way, rfl, rfl⟩
      · obtain ⟨place, reached, begins⟩ := insideHypothesis node below
        exact ⟨place, way.trans reached, begins⟩
    · obtain ⟨place, reached, begins⟩ := behindHypothesis node later
      exact ⟨place, (way.trans inside.reaches).trans reached, begins⟩

/-- Nodes between two places cover bytes between them. -/
theorem Laid.within {start stop : Cursor} {nodes : List Node} (laid : Laid start nodes stop) :
    ∀ node ∈ Node.preorderAll nodes, start.byte ≤ node.span.startByte ∧
      node.span.startByte ≤ node.span.endByte ∧ node.span.endByte ≤ stop.byte := by
  induction laid with
  | none way =>
    intro node member
    cases member
  | @node start first last stop kind role children rest way inside behind insideHypothesis behindHypothesis =>
    have front := way.le
    have between := inside.reaches.le
    have back := behind.reaches.le
    intro node member
    rw [Node.preorderAll, Node.preorder] at member
    rcases List.mem_append.mp member with here | later
    · rcases List.mem_cons.mp here with rfl | below
      · exact ⟨front, between, back⟩
      · obtain ⟨above, order, below⟩ := insideHypothesis node below
        exact ⟨by omega, order, by omega⟩
    · obtain ⟨above, order, below⟩ := behindHypothesis node later
      exact ⟨by omega, order, below⟩

/-- Nodes that lie between two places one behind the other end before the next one begins. -/
theorem Laid.sideBySide {start stop : Cursor} {nodes : List Node} (laid : Laid start nodes stop) :
    nodes.Pairwise fun first second => first.span.endByte ≤ second.span.startByte := by
  induction laid with
  | none way => exact .nil
  | node way inside behind _ behindHypothesis =>
    refine List.pairwise_cons.mpr ⟨fun second listed => ?_, behindHypothesis⟩
    exact (behind.within second (Node.mem_preorderAll listed)).1

/-- Nodes that are laid out are in order, with all that is below them. -/
theorem Laid.inOrder {start stop : Cursor} {nodes : List Node} (laid : Laid start nodes stop) :
    ∀ node ∈ Node.preorderAll nodes, node.InOrder := by
  induction laid with
  | none way =>
    intro node member
    cases member
  | node way inside behind insideHypothesis behindHypothesis =>
    intro node member
    rw [Node.preorderAll, Node.preorder] at member
    rcases List.mem_append.mp member with here | later
    · rcases List.mem_cons.mp here with rfl | below
      · refine ⟨inside.reaches.le, fun child listed => ?_, inside.sideBySide⟩
        obtain ⟨front, _, back⟩ := inside.within child (Node.mem_preorderAll listed)
        exact ⟨front, back⟩
      · exact insideHypothesis node below
    · exact behindHypothesis node later

/-! Columns. -/

/-- A text has as many bytes as its characters take. -/
theorem length_encode (text : List Char) : (encode text).length = byteLength text := by
  induction text with
  | nil => rfl
  | cons c rest inductionHypothesis =>
    change (encodeChar c ++ encode rest).length = charWidth c + byteLength rest
    rw [List.length_append, inductionHypothesis]
    congr 1
    unfold encodeChar charWidth
    dsimp only
    split_ifs <;> rfl

/-- The bytes of a text are those of its parts. -/
theorem encode_append (first second : List Char) :
    encode (first ++ second) = encode first ++ encode second :=
  List.flatMap_append

/-- The bytes of the first characters. -/
theorem take_encode (passed ahead : List Char) :
    (encode (passed ++ ahead)).take (byteLength passed) = encode passed := by
  rw [encode_append, ← length_encode, List.take_left]

/-- A byte is a line feed only if its number is. -/
theorem byte_ne_feed {n : Nat} (small : n < 256) (other : n ≠ 10) :
    (UInt8.ofNat n != 10) = true := by
  refine bne_iff_ne.mpr fun feed => other ?_
  rw [← toNat_byte n small, feed]
  rfl

/-- No byte of a character but the line feed is a line feed. -/
theorem ne_feed_of_mem_encodeChar {c : Char} (other : c ≠ '\n') :
    ∀ byte ∈ encodeChar c, (byte != 10) = true := by
  have code : c.toNat ≠ 10 := fun feed => other (Char.toNat_inj.mp feed)
  have scalar : c.toNat < 0xD800 ∨ 0xDFFF < c.toNat ∧ c.toNat < 0x110000 := c.valid
  unfold encodeChar
  dsimp only
  intro byte member
  split at member
  · obtain rfl := List.mem_singleton.mp member
    exact byte_ne_feed (by omega) code
  · split at member
    · rcases List.mem_pair.mp member with rfl | rfl <;> exact byte_ne_feed (by omega) (by omega)
    · split at member
      · simp only [List.mem_cons, List.not_mem_nil, or_false] at member
        rcases member with rfl | rfl | rfl <;> exact byte_ne_feed (by omega) (by omega)
      · simp only [List.mem_cons, List.not_mem_nil, or_false] at member
        rcases member with rfl | rfl | rfl | rfl <;> exact byte_ne_feed (by omega) (by omega)

/-- The bytes behind the last line feed are those of the characters behind it. -/
theorem afterLastBreak_encode (text : List Char) :
    afterLastBreak (encode text) = encode (text.reverse.takeWhile (· != '\n')).reverse := by
  induction text using List.reverseRecOn with
  | nil => rfl
  | append_singleton text c inductionHypothesis =>
    unfold afterLastBreak at inductionHypothesis ⊢
    have last : encode [c] = encodeChar c := List.append_nil _
    rw [encode_append, List.reverse_append, List.reverse_append, List.reverse_singleton,
      List.singleton_append, last]
    by_cases feed : c = '\n'
    · subst feed
      rfl
    · have none_ : ∀ byte ∈ (encodeChar c).reverse, (byte != 10) = true := fun byte member =>
        ne_feed_of_mem_encodeChar feed byte (List.mem_reverse.mp member)
      rw [List.takeWhile_append_of_pos none_, List.reverse_append, List.reverse_reverse,
        inductionHypothesis]
      have kept : (c != '\n') = true := bne_iff_ne.mpr feed
      simp only [List.takeWhile_cons, kept, if_true, List.reverse_cons, encode_append, last]

/-- The column of a character is that of the place behind the characters before it. -/
theorem columnAt_encode (passed ahead : List Char) :
    columnAt (encode (passed ++ ahead)) (byteLength passed) = (placeBehind (· == '\n') passed).2 := by
  unfold columnAt
  dsimp only
  rw [take_encode, afterLastBreak_encode, decode_encode, placeBehind_snd]
  exact congrArg (· + 1) List.length_reverse

/-- A node begins behind some characters of a source, and its row counts the line feeds among them. -/
def Node.BeginsIn (source : List Char) (node : Node) : Prop :=
  ∃ passed ahead, source = passed ++ ahead ∧ node.span.startByte = byteLength passed ∧
    node.span.row = passed.count '\n'

/-- The line and the column of a node are those of the place behind the characters before it. -/
theorem Node.BeginsIn.place {source : List Char} {node : Node} (begins : node.BeginsIn source) :
    ∃ passed ahead, source = passed ++ ahead ∧ node.span.startByte = byteLength passed ∧
      (node.line, node.column source) = placeBehind (· == '\n') passed := by
  obtain ⟨passed, ahead, rfl, start, row⟩ := begins
  refine ⟨passed, ahead, rfl, start, Prod.ext ?_ ?_⟩
  · change node.span.row + 1 = _
    rw [placeBehind_fst, row]
    rfl
  · change columnAt _ node.span.startByte = _
    rw [start, columnAt_encode]

/-- Of two nodes the one with the earlier first byte has the earlier place. -/
theorem Node.BeginsIn.noLater {source : List Char} {first second : Node} (begins : first.BeginsIn source)
    (follows : second.BeginsIn source) (order : first.span.startByte ≤ second.span.startByte) :
    NoLater (first.line, first.column source) (second.line, second.column source) := by
  obtain ⟨passed, ahead, whole, start, place⟩ := begins.place
  obtain ⟨further, left, same, start', place'⟩ := follows.place
  rw [place, place']
  rcases List.prefix_or_prefix_of_prefix ⟨ahead, whole.symm⟩ ⟨left, same.symm⟩ with
    ⟨more, rfl⟩ | ⟨more, rfl⟩
  · exact noLater_placeBehind passed more
  · rw [start, start', byteLength_append] at order
    have nothing : more = [] := by
      cases more with
      | nil => rfl
      | cons c more =>
        have size : byteLength (c :: more) = charWidth c + byteLength more := byteLength_append [c] more
        have positive := charWidth_pos c
        omega
    rw [nothing, List.append_nil]
    exact .inr ⟨rfl, Nat.le_refl _⟩

/-- The nodes of a tree that is read are in order. -/
theorem inOrder_of_mem_preorder {dialect : Dialect} {source : List Char} {tree : Node}
    (read : readTree dialect source = .ok tree) : ∀ node ∈ tree.preorder, node.InOrder := by
  obtain ⟨stop, laid⟩ := laid_readTree read
  intro node member
  exact laid.inOrder node (List.mem_append_left _ member)

/-- Every node of a tree begins behind some characters of the source that the tree is read from. -/
theorem beginsIn_of_mem_nodes {dialect : Dialect} {source : List Char} {tree : Node}
    (read : readTree dialect source = .ok tree) {node : Node} (member : node ∈ tree.nodes) :
    node.BeginsIn source := by
  obtain ⟨stop, laid⟩ := laid_readTree read
  rw [Node.nodes_eq_preorder] at member
  obtain ⟨first, ⟨passed, rest, byte, row, _⟩, begins, lines⟩ :=
    laid.place node (by rwa [Node.preorderAll, Node.preorderAll, List.append_nil])
  refine ⟨passed, first.rest, rest, ?_, ?_⟩
  · rw [begins, byte]
    exact Nat.zero_add _
  · rw [lines, row]
    exact Nat.zero_add _

/-- Every node of a tree begins behind some characters of the source, and its line and column are
those of the place behind them. -/
theorem place_of_mem_nodes {dialect : Dialect} {source : List Char} {tree : Node}
    (read : readTree dialect source = .ok tree) {node : Node} (member : node ∈ tree.nodes) :
    ∃ passed ahead, source = passed ++ ahead ∧ node.span.startByte = byteLength passed ∧
      (node.line, node.column source) = placeBehind (· == '\n') passed :=
  (beginsIn_of_mem_nodes read member).place

/-- What is parsed keeps its path and text, its tree is read from the text, and its facts are those of the tree. -/
theorem exists_of_parse {path : Path} {text : List Char} {messages : List Diagnostic} {file : SourceFile}
    (parsed : SourceFile.parse path text messages = .ok file) :
    file.path = path ∧ file.source = text ∧ file.facts = Facts.ofTree text file.tree ∧
      ∃ dialect, dialectOf path.suffix = .ok dialect ∧ readTree dialect text = .ok file.tree := by
  unfold SourceFile.parse at parsed
  split at parsed
  · cases parsed
  · next dialect told =>
    split at parsed
    · cases parsed
    · next tree read =>
      cases parsed
      exact ⟨rfl, rfl, rfl, dialect, told, read⟩

end Conformance.Syntax
