import Conformance.Syntax.Facts
import Mathlib.Data.List.Basic
import Mathlib.Tactic.Common

/-!
# Walks over a tree

A place in a tree is told by the numbers of the children on the way down to it. In the order of the
dictionary a parent stands before its children, and children stand from left to right. The walk with
a stack meets the nodes in that order, one with each pass, and its stack is empty when it has met all
of them: what has been met and what is below the nodes on the stack are always the whole tree. If
children lie inside their parent and in source order, the nodes begin in the order of the walk.
-/

namespace Conformance.Syntax

open Text

namespace Node

/-- A node comes in front of what is below it. -/
theorem preorder_eq (node : Node) : node.preorder = node :: preorderAll node.children := by
  cases node
  rw [preorder, children]

/-- The nodes of trees behind trees. -/
theorem preorderAll_append (first second : List Node) :
    preorderAll (first ++ second) = preorderAll first ++ preorderAll second := by
  induction first with
  | nil => rfl
  | cons node rest inductionHypothesis =>
    rw [List.cons_append, preorderAll, preorderAll, inductionHypothesis, List.append_assoc]

/-- Trees are among their nodes. -/
theorem mem_preorderAll {node : Node} {nodes : List Node} (listed : node ∈ nodes) :
    node ∈ preorderAll nodes := by
  obtain ⟨before, after, rfl⟩ := List.append_of_mem listed
  rw [preorderAll_append, preorderAll, preorder_eq]
  exact List.mem_append_right _ List.mem_cons_self

/-! Places. -/

/-- The node at a place. -/
def at? : Node → List Nat → Option Node
  | node, [] => some node
  | node, number :: way => node.children[number]?.bind (·.at? way)

mutual

/-- The places of a tree: the top, and those below each child. -/
def places : Node → List (List Nat)
  | .mk _ _ _ children => [] :: placesFrom 0 children

/-- The places below the children from a number on. -/
def placesFrom (number : Nat) : List Node → List (List Nat)
  | [] => []
  | node :: rest => (places node).map (number :: ·) ++ placesFrom (number + 1) rest

end

mutual

/-- The nodes at the places of a tree are its nodes. -/
theorem map_places (node : Node) : node.places.map node.at? = node.preorder.map some := by
  cases node with
  | mk kind role span children =>
    rw [places, preorder, List.map_cons, List.map_cons, at?]
    exact congrArg _ (map_placesFrom (.mk kind role span children) [] children rfl)

/-- The nodes at the places below some children are those of the children. -/
theorem map_placesFrom (parent : Node) (before nodes : List Node)
    (parted : parent.children = before ++ nodes) :
    (placesFrom before.length nodes).map parent.at? = (preorderAll nodes).map some := by
  cases nodes with
  | nil => rfl
  | cons node rest =>
    have child : parent.children[before.length]? = some node := by
      rw [parted, List.getElem?_append_right (Nat.le_refl _), Nat.sub_self, List.getElem?_cons_zero]
    have below (way : List Nat) : parent.at? (before.length :: way) = node.at? way := by
      rw [at?, child, Option.bind_some]
    have others := map_placesFrom parent (before ++ [node]) rest (by simp [parted])
    rw [List.length_append, List.length_singleton] at others
    rw [placesFrom, preorderAll, List.map_append, List.map_append, others, ← map_places node,
      List.map_map]
    exact congrArg (· ++ _) (List.map_congr_left fun way _ => below way)

end

/-- A place below the children from a number on begins with that number or a later one. -/
theorem le_of_mem_placesFrom {number : Nat} {nodes : List Node} {place : List Nat}
    (member : place ∈ placesFrom number nodes) : ∃ first way, place = first :: way ∧ number ≤ first := by
  induction nodes generalizing number with
  | nil => cases member
  | cons node rest inductionHypothesis =>
    rw [placesFrom, List.mem_append] at member
    rcases member with here | later
    · obtain ⟨way, _, rfl⟩ := List.mem_map.mp here
      exact ⟨number, way, rfl, Nat.le_refl number⟩
    · obtain ⟨first, way, rfl, behind⟩ := inductionHypothesis later
      exact ⟨first, way, rfl, Nat.le_of_succ_le behind⟩

mutual

/-- The places of a tree stand in the order of the dictionary. -/
theorem pairwise_places (node : Node) : node.places.Pairwise (· < ·) := by
  cases node with
  | mk kind role span children =>
    rw [places]
    refine List.pairwise_cons.mpr ⟨fun place member => ?_, pairwise_placesFrom 0 children⟩
    obtain ⟨first, way, rfl, _⟩ := le_of_mem_placesFrom member
    exact List.nil_lt_cons first way

/-- The places below children from left to right. -/
theorem pairwise_placesFrom (number : Nat) (nodes : List Node) :
    (placesFrom number nodes).Pairwise (· < ·) := by
  cases nodes with
  | nil => exact .nil
  | cons node rest =>
    rw [placesFrom]
    refine List.pairwise_append.mpr ⟨?_, pairwise_placesFrom (number + 1) rest, ?_⟩
    · refine List.pairwise_map.mpr ((pairwise_places node).imp fun before => ?_)
      exact List.cons_lt_cons_iff.mpr (.inr ⟨rfl, before⟩)
    · intro place here other later
      obtain ⟨way, _, rfl⟩ := List.mem_map.mp here
      obtain ⟨first, further, rfl, behind⟩ := le_of_mem_placesFrom later
      exact List.cons_lt_cons_iff.mpr (.inl behind)

end

/-- The places of a child are below its parent. -/
theorem mem_placesFrom {number index : Nat} {nodes : List Node} {child : Node} {way : List Nat}
    (listed : nodes[index]? = some child) (member : way ∈ child.places) :
    (number + index) :: way ∈ placesFrom number nodes := by
  induction nodes generalizing number index with
  | nil => cases listed
  | cons node rest inductionHypothesis =>
    rw [placesFrom, List.mem_append]
    cases index with
    | zero =>
      obtain rfl : node = child := Option.some.inj listed
      exact .inl (List.mem_map_of_mem member)
    | succ index =>
      rw [← Nat.add_assoc, Nat.add_right_comm]
      exact .inr (inductionHypothesis listed)

/-- The places of a tree are those that a node is at. -/
theorem mem_places_iff {root : Node} {place : List Nat} :
    place ∈ root.places ↔ (root.at? place).isSome = true := by
  constructor
  · intro member
    have listed := List.mem_map_of_mem (f := root.at?) member
    rw [map_places] at listed
    obtain ⟨node, _, found⟩ := List.mem_map.mp listed
    rw [← found]
    rfl
  · intro found
    induction place generalizing root with
    | nil =>
      cases root
      exact List.mem_cons_self
    | cons number way inductionHypothesis =>
      obtain ⟨node, there⟩ := Option.isSome_iff_exists.mp found
      obtain ⟨child, listed, below⟩ := Option.bind_eq_some_iff.mp there
      have member : (0 + number) :: way ∈ placesFrom 0 root.children :=
        mem_placesFrom listed (inductionHypothesis (Option.isSome_iff_exists.mpr ⟨node, below⟩))
      rw [Nat.zero_add] at member
      cases root
      exact List.mem_cons_of_mem _ member

/-- The nodes of a tree are those at its places. -/
theorem mem_preorder_iff {root node : Node} : node ∈ root.preorder ↔ ∃ place, root.at? place = some node := by
  have injective : Function.Injective (some : Node → Option Node) := fun _ _ => Option.some.inj
  rw [← List.mem_map_of_injective injective, ← map_places, List.mem_map]
  refine exists_congr fun place => and_iff_right_of_imp fun found => ?_
  exact mem_places_iff.mpr (Option.isSome_iff_exists.mpr ⟨node, found⟩)

/-! The stack. -/

/-- What is on the stack after some passes of the walk. -/
def stackAfter : Nat → List Node → List Node
  | 0, stack => stack
  | _, [] => []
  | steps + 1, node :: stack => stackAfter steps (node.children ++ stack)

/-- One pass takes a node from the stack and puts its children in its place. -/
theorem preorderAll_cons (node : Node) (stack : List Node) :
    preorderAll (node :: stack) = node :: preorderAll (node.children ++ stack) := by
  obtain ⟨kind, role, span, children⟩ := node
  rw [preorderAll, preorder, preorderAll_append, List.cons_append]
  rfl

/-- After some passes the walk has met as many of the first nodes, and the others are at or below
those on the stack. -/
theorem walkStack_invariant (steps : Nat) (stack : List Node) :
    walkStack steps stack = (preorderAll stack).take steps ∧
      preorderAll (stackAfter steps stack) = (preorderAll stack).drop steps := by
  induction steps generalizing stack with
  | zero => exact ⟨rfl, rfl⟩
  | succ steps inductionHypothesis =>
    cases stack with
    | nil => exact ⟨rfl, rfl⟩
    | cons node stack =>
      obtain ⟨met, left⟩ := inductionHypothesis (node.children ++ stack)
      rw [preorderAll_cons, List.take_succ_cons, List.drop_succ_cons]
      exact ⟨congrArg (node :: ·) met, left⟩

/-- The stack is empty as soon as there have been as many passes as there are nodes, and not before. -/
theorem stackAfter_eq_nil_iff (steps : Nat) (stack : List Node) :
    stackAfter steps stack = [] ↔ (preorderAll stack).length ≤ steps := by
  have empty (stack : List Node) : preorderAll stack = [] ↔ stack = [] := by
    cases stack with
    | nil => exact iff_of_true rfl rfl
    | cons node rest =>
      rw [preorderAll_cons]
      exact iff_of_false (List.cons_ne_nil _ _) (List.cons_ne_nil _ _)
  rw [← empty, (walkStack_invariant steps stack).2, List.drop_eq_nil_iff]

mutual

/-- A tree has as many nodes as are counted. -/
theorem length_preorder (node : Node) : node.preorder.length = node.count := by
  cases node with
  | mk kind role span children =>
    rw [preorder, count, List.length_cons, length_preorderAll, Nat.add_comm]

/-- Several trees have as many nodes as are counted together. -/
theorem length_preorderAll (nodes : List Node) : (preorderAll nodes).length = countAll nodes := by
  cases nodes with
  | nil => rfl
  | cons node rest =>
    rw [preorderAll, countAll, List.length_append, length_preorder, length_preorderAll]

end

/-- The walk over a tree meets its nodes in their order. -/
theorem nodes_eq_preorder (root : Node) : root.nodes = root.preorder := by
  have alone : preorderAll [root] = root.preorder := List.append_nil _
  unfold nodes
  rw [(walkStack_invariant root.count [root]).1, alone, ← length_preorder, List.take_length]

end Node

mutual

/-- The walk with parents meets the nodes in their order. -/
theorem map_withParents (parent : Option Node) (node : Node) :
    (withParents parent node).map (·.2) = node.preorder := by
  cases node with
  | mk kind role span children =>
    rw [withParents, Node.preorder, List.map_cons, map_withParentsAll]

theorem map_withParentsAll (parent : Node) (nodes : List Node) :
    (withParentsAll parent nodes).map (·.2) = Node.preorderAll nodes := by
  cases nodes with
  | nil => rfl
  | cons node rest =>
    rw [withParentsAll, Node.preorderAll, List.map_append, map_withParents, map_withParentsAll]

end

/-! The order of the source. -/

/-- A node that ends no earlier than it begins, with its children inside it one behind the other. -/
structure Node.InOrder (node : Node) : Prop where
  forward : node.span.startByte ≤ node.span.endByte
  inside : ∀ child ∈ node.children,
    node.span.startByte ≤ child.span.startByte ∧ child.span.endByte ≤ node.span.endByte
  sideBySide : node.children.Pairwise fun first second => first.span.endByte ≤ second.span.startByte

/-- The first bytes of some nodes do not decrease. -/
def Ascending (nodes : List Node) : Prop :=
  nodes.Pairwise fun first second => first.span.startByte ≤ second.span.startByte

mutual

/-- Where all nodes of a tree are in order, they begin inside the top one, in the order of the walk. -/
theorem ascending_preorder (root : Node) (ordered : ∀ node ∈ root.preorder, node.InOrder) :
    Ascending root.preorder ∧ ∀ node ∈ root.preorder,
      root.span.startByte ≤ node.span.startByte ∧ node.span.startByte ≤ root.span.endByte := by
  have here := ordered root (root.preorder_eq ▸ List.mem_cons_self)
  cases root with
  | mk kind role span children =>
    rw [Node.preorder] at ordered ⊢
    obtain ⟨ascending, below⟩ := ascending_preorderAll children
      (fun node member => ordered node (List.mem_cons_of_mem _ member)) here.sideBySide
    have within : ∀ node ∈ Node.preorderAll children,
        span.startByte ≤ node.span.startByte ∧ node.span.startByte ≤ span.endByte := by
      intro node member
      obtain ⟨child, listed, first, last⟩ := below node member
      obtain ⟨front, back⟩ := here.inside child listed
      exact ⟨Nat.le_trans front first, Nat.le_trans last back⟩
    refine ⟨List.pairwise_cons.mpr ⟨fun node member => (within node member).1, ascending⟩, ?_⟩
    exact List.forall_mem_cons.mpr ⟨⟨Nat.le_refl _, here.forward⟩, within⟩

/-- The same for trees that lie one behind the other. -/
theorem ascending_preorderAll (nodes : List Node) (ordered : ∀ node ∈ Node.preorderAll nodes, node.InOrder)
    (sideBySide : nodes.Pairwise fun first second => first.span.endByte ≤ second.span.startByte) :
    Ascending (Node.preorderAll nodes) ∧ ∀ node ∈ Node.preorderAll nodes, ∃ top ∈ nodes,
      top.span.startByte ≤ node.span.startByte ∧ node.span.startByte ≤ top.span.endByte := by
  cases nodes with
  | nil => exact ⟨.nil, nofun⟩
  | cons first rest =>
    rw [Node.preorderAll] at ordered ⊢
    obtain ⟨before, others⟩ := List.pairwise_cons.mp sideBySide
    obtain ⟨early, inFirst⟩ := ascending_preorder first fun node member =>
      ordered node (List.mem_append_left _ member)
    obtain ⟨late, inRest⟩ := ascending_preorderAll rest
      (fun node member => ordered node (List.mem_append_right _ member)) others
    refine ⟨List.pairwise_append.mpr ⟨early, late, fun node here other later => ?_⟩, fun node member => ?_⟩
    · obtain ⟨top, listed, begins, _⟩ := inRest other later
      exact Nat.le_trans (inFirst node here).2 (Nat.le_trans (before top listed) begins)
    · rcases List.mem_append.mp member with here | later
      · exact ⟨first, List.mem_cons_self, inFirst node here⟩
      · obtain ⟨top, listed, within⟩ := inRest node later
        exact ⟨top, List.mem_cons_of_mem _ listed, within⟩

end

end Conformance.Syntax
