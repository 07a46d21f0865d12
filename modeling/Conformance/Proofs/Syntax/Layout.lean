import Conformance.Syntax.Rule
import Mathlib.Data.List.Basic
import Mathlib.Tactic.Common

/-!
# How nodes lie in a source

A place is reached from an earlier one by passing the characters between them, which determines
its byte and its row. Nodes are laid out between two places if each of them begins and ends at a
place on the way, one behind the other, and its children are laid out between its own two
places. Every rule of the grammar that is put together from rules that lay out their nodes lays
out its nodes.
-/

namespace Conformance.Syntax

open Text

/-- Widths of texts add up. -/
theorem byteLength_append (first second : List Char) :
    byteLength (first ++ second) = byteLength first + byteLength second := by
  unfold byteLength
  rw [List.map_append, Number.total_append]

/-- Every character takes a byte. -/
theorem charWidth_pos (c : Char) : 0 < charWidth c := by
  unfold charWidth
  split
  · decide
  · split
    · decide
    · split <;> decide

/-- What stands behind the bytes of a text is behind it. -/
theorem dropBytes_byteLength (text more : List Char) : dropBytes (byteLength text) (text ++ more) = more := by
  induction text with
  | nil => rw [show byteLength [] = 0 from rfl, dropBytes, List.nil_append]
  | cons c text inductionHypothesis =>
    have size : byteLength (c :: text) = charWidth c + byteLength text := byteLength_append [c] text
    have positive := charWidth_pos c
    rw [size, List.cons_append, dropBytes, Nat.add_sub_cancel_left]
    · exact inductionHypothesis
    · omega

/-- The bytes of a text in front are the text. -/
theorem takeBytes_byteLength (text more : List Char) : takeBytes (byteLength text) (text ++ more) = text := by
  induction text with
  | nil => rw [show byteLength [] = 0 from rfl, takeBytes]
  | cons c text inductionHypothesis =>
    have size : byteLength (c :: text) = charWidth c + byteLength text := byteLength_append [c] text
    have positive := charWidth_pos c
    rw [size, List.cons_append, takeBytes, Nat.add_sub_cancel_left, inductionHypothesis]
    omega

/-- The part of a text within some first bytes is its beginning. -/
theorem takeBytes_prefix (count : Nat) (text : List Char) : takeBytes count text <+: text := by
  induction text generalizing count with
  | nil => cases count <;> exact List.nil_prefix
  | cons c text inductionHypothesis =>
    cases count with
    | zero => exact List.nil_prefix
    | succ count => exact List.prefix_cons_inj c |>.mpr (inductionHypothesis _)

/-- A place that is reached by passing some characters. -/
def Cursor.Reaches (start stop : Cursor) : Prop :=
  ∃ passed, start.rest = passed ++ stop.rest ∧ stop.byte = start.byte + byteLength passed ∧
    stop.row = start.row + passed.count '\n' ∧ stop.left = start.left - passed.length

namespace Cursor

variable {start next stop : Cursor}

/-- A place is reached from itself. -/
theorem Reaches.refl (cursor : Cursor) : cursor.Reaches cursor :=
  ⟨[], rfl, rfl, rfl, rfl⟩

/-- What is reached from a place that is reached is reached. -/
theorem Reaches.trans (first : start.Reaches next) (second : next.Reaches stop) :
    start.Reaches stop := by
  obtain ⟨passed, rest, byte, row, left⟩ := first
  obtain ⟨further, ahead, width, lines, fewer⟩ := second
  refine ⟨passed ++ further, ?_, ?_, ?_, ?_⟩
  · rw [rest, ahead, List.append_assoc]
  · rw [width, byte, byteLength_append, Nat.add_assoc]
  · rw [lines, row, List.count_append, Nat.add_assoc]
  · rw [fewer, left, List.length_append, Nat.sub_sub]

/-- A place that is reached has no earlier byte. -/
theorem Reaches.le (reached : start.Reaches stop) : start.byte ≤ stop.byte := by
  obtain ⟨passed, _, byte, _⟩ := reached
  rw [byte]
  exact Nat.le_add_right ..

/-- The place behind the next character. -/
theorem reaches_step (cursor : Cursor) (c : Char) (rest : List Char)
    (ahead : cursor.rest = c :: rest) : cursor.Reaches (cursor.step c rest) := by
  refine ⟨[c], ahead, ?_, ?_, rfl⟩
  · simp [step, byteLength]
  · by_cases feed : c = '\n'
    · simp [step, feed]
    · simp [step, feed]

/-- The place some characters ahead. -/
theorem reaches_advance (count : Nat) (cursor : Cursor) : cursor.Reaches (cursor.advance count) := by
  induction count generalizing cursor with
  | zero => exact .refl cursor
  | succ count inductionHypothesis =>
    unfold advance
    split
    · exact .refl cursor
    · next c rest ahead =>
      exact (reaches_step cursor c rest ahead).trans (inductionHypothesis (cursor.step c rest))

/-- The place behind a run of characters. -/
theorem reaches_skipWhile (test : Char → Bool) (cursor : Cursor) :
    cursor.Reaches (cursor.skipWhile test) :=
  reaches_advance _ cursor

end Cursor

open Cursor

/-- Nodes that lie between two places one behind the other. Each of them covers the characters
between two places, and its children lie between these. -/
inductive Laid : Cursor → List Node → Cursor → Prop
  | none {start stop : Cursor} (way : start.Reaches stop) : Laid start [] stop
  | node {start first last stop : Cursor} {kind : Kind} {role : Option Role}
      {children rest : List Node} (way : start.Reaches first) (inside : Laid first children last)
      (behind : Laid last rest stop) :
      Laid start (.mk kind role ⟨first.byte, last.byte, first.row⟩ children :: rest) stop

namespace Laid

variable {start next stop : Cursor} {nodes before after : List Node}

/-- The later place is reached. -/
theorem reaches (laid : Laid start nodes stop) : start.Reaches stop := by
  induction laid with
  | none way => exact way
  | node way _ _ insideHypothesis behindHypothesis =>
    exact (way.trans insideHypothesis).trans behindHypothesis

/-- Nodes may begin later. -/
theorem behind (way : start.Reaches next) (laid : Laid next nodes stop) :
    Laid start nodes stop := by
  cases laid with
  | none onward => exact .none (way.trans onward)
  | node onward inside rest => exact .node (way.trans onward) inside rest

/-- Nodes behind nodes. -/
theorem append (first : Laid start before next) (second : Laid next after stop) :
    Laid start (before ++ after) stop := by
  induction first with
  | none way => exact second.behind way
  | node way inside _ _ behindHypothesis => exact .node way inside (behindHypothesis second)

/-- Between the first nodes and the others there is a place. -/
theorem split (laid : Laid start (before ++ after) stop) :
    ∃ middle, Laid start before middle ∧ Laid middle after stop := by
  induction before generalizing start with
  | nil => exact ⟨start, .none (.refl start), laid⟩
  | cons node before inductionHypothesis =>
    cases laid with
    | node way inside rest =>
      obtain ⟨middle, early, late⟩ := inductionHypothesis rest
      exact ⟨middle, .node way inside early, late⟩

/-- A node without children. -/
theorem leaf (kind : Kind) (way : start.Reaches stop) :
    Laid start [Syntax.leaf kind start stop] stop :=
  .node (.refl start) (.none way) (.none (.refl stop))

/-- Roles do not matter. -/
theorem map (laid : Laid start nodes stop) (change : Node → Node)
    (changes : ∀ node, change node = node ∨ ∃ role, change node = node.withRole role) :
    Laid start (nodes.map change) stop := by
  induction laid with
  | none way => exact .none way
  | @node start first last stop kind role children rest way inside _ _ behindHypothesis =>
    rw [List.map_cons]
    rcases changes (.mk kind role ⟨first.byte, last.byte, first.row⟩ children) with
      same | ⟨other, changed⟩
    · rw [same]
      exact .node way inside behindHypothesis
    · rw [changed]
      exact .node way inside behindHypothesis

/-- The first node begins, and the last one ends, at a place between which all of them lie. -/
theorem tight {node : Node} (laid : Laid start (node :: nodes) stop) :
    ∃ first last, start.Reaches first ∧ Laid first (node :: nodes) last ∧ last.Reaches stop ∧
      node.span.startByte = first.byte ∧ node.span.row = first.row ∧
      ∀ final ∈ (node :: nodes).getLast?, final.span.endByte = last.byte := by
  induction nodes generalizing start node with
  | nil =>
    cases laid with
    | @node _ first last _ _ _ _ _ way inside rest =>
      refine ⟨first, last, way, .node (.refl first) inside (.none (.refl last)), rest.reaches, rfl,
        rfl, ?_⟩
      rintro final ⟨⟩
      rfl
  | cons second others inductionHypothesis =>
    cases laid with
    | @node _ first last _ _ _ _ _ way inside rest =>
      obtain ⟨onward, final, reached, between, left, _, _, ends⟩ := inductionHypothesis rest
      exact ⟨first, final, way, .node (.refl first) inside (between.behind reached), left, rfl, rfl,
        ends⟩

/-- Nodes that are put into a construct lie where they lay. -/
theorem wrap (construct : Construct) (laid : Laid start nodes stop) :
    Laid start (Rule.wrap construct nodes stop) stop := by
  rw [← List.takeWhile_append_dropWhile (p := Rule.isComment) (l := nodes)] at laid
  obtain ⟨middle, lead, parts⟩ := laid.split
  refine lead.append ?_
  cases inner : nodes.dropWhile Rule.isComment with
  | nil =>
    rw [inner] at parts
    exact .node parts.reaches (.none (.refl stop)) (.none (.refl stop))
  | cons node rest =>
    rw [inner] at parts
    obtain ⟨first, last, way, between, left, byte, row, ends⟩ := parts.tight
    obtain ⟨final, found⟩ := List.getLast?_isSome.mpr (List.cons_ne_nil node rest) |>
      Option.isSome_iff_exists.mp
    have finish := ends final found
    simp only [List.head?_cons, found, byte, row, finish]
    exact .node way between (.none left)

end Laid

end Conformance.Syntax
