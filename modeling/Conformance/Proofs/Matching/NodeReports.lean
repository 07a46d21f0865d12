import Conformance.Matching.Nodes
import Conformance.Proofs.Failing
import Conformance.Proofs.Syntax.Positions
import Mathlib.Data.List.Forall2

/-!
# Reports and facts of a walk

The node channel reports a rule once at each place of the tree where its test passes, in the order of
the walk; where the test fails nothing is reported, and nothing else changes. The facts of a source
come from one walk, too, so in a tree whose nodes are in order the imports, hooks and functions are
recorded in the order of the source.
-/

namespace Conformance.Matching

open Syntax Text

variable {source : List Char} {root : Node}

/-! What is reported. -/

/-- The places of a tree and its nodes, each at its place. -/
theorem forall₂_places (root : Node) :
    List.Forall₂ (fun place node => root.at? place = some node) root.places root.nodes := by
  have whole := root.map_places
  rw [← Node.nodes_eq_preorder] at whole
  generalize root.places = places at whole
  generalize root.nodes = nodes at whole
  induction places generalizing nodes with
  | nil =>
    obtain rfl : nodes = [] := List.map_eq_nil_iff.mp whole.symm
    exact .nil
  | cons place places inductionHypothesis =>
    cases nodes with
    | nil => cases whole
    | cons node nodes =>
      obtain ⟨here, later⟩ := List.cons.inj whole
      exact .cons here (inductionHypothesis nodes later)

/-- The places where a test passes. -/
def hitPlaces (source : List Char) (test : NodeTest) (root : Node) : List (List Nat) :=
  root.places.filter fun place => (root.at? place).any fun node => testNode source test node == .hit

/-- A test passes at the places whose nodes it answers so. -/
theorem mem_hitPlaces_iff {test : NodeTest} {place : List Nat} :
    place ∈ hitPlaces source test root ↔
      ∃ node, root.at? place = some node ∧ testNode source test node = .hit := by
  rw [hitPlaces, List.mem_filter, Node.mem_places_iff]
  cases root.at? place <;> simp

/-- Each report of a rule is that of the node at one of the places where its test passes. -/
theorem forall₂_matchNodes {rule : Rule} {test : NodeTest} (given : rule.nodeTest = some test)
    (source : List Char) (root : Node) (filePath : String) :
    List.Forall₂ (fun place violation => ∃ node, root.at? place = some node ∧
      violation = reportNode rule source filePath node)
      (hitPlaces source test root) (matchNodes rule source root filePath) := by
  unfold matchNodes
  rw [given]
  refine List.forall₂_map_right_iff.mpr ?_
  have kept : List.Forall₂ (fun place node => root.at? place = some node) (hitPlaces source test root)
      (root.nodes.filter fun node => testNode source test node == .hit) := by
    refine List.rel_filter (fun place node there => ?_) (forall₂_places root)
    dsimp only
    rw [there, Option.any_some]
  exact kept.imp fun place node there => ⟨node, there, rfl⟩

/-! What is recorded. -/

/-- Facts that are made at nodes of a tree, one at each, where the nodes are met in the order of the
walk and their first bytes do not decrease. -/
def RecordedInOrder {φ : Type} (root : Node) (makes : Node → φ → Prop) (facts : List φ) : Prop :=
  ∃ nodes, nodes.Sublist root.preorder ∧ Ascending nodes ∧ List.Forall₂ makes nodes facts

/-- What is made of some of the members of a list. -/
theorem exists_sublist_filterMap {α φ : Type} (make : α → Option φ) (members : List α) :
    ∃ makers, makers.Sublist members ∧
      List.Forall₂ (fun maker fact => make maker = some fact) makers (members.filterMap make) := by
  induction members with
  | nil => exact ⟨[], .slnil, .nil⟩
  | cons member members inductionHypothesis =>
    obtain ⟨makers, among, made⟩ := inductionHypothesis
    cases found : make member with
    | none =>
      rw [List.filterMap_cons_none found]
      exact ⟨makers, among.cons member, made⟩
    | some fact =>
      rw [List.filterMap_cons_some found]
      exact ⟨member :: makers, among.cons_cons member, .cons found made⟩

/-- What a walk with parents records is recorded in order where the nodes of the tree are. -/
theorem recordedInOrder_visited {φ : Type} {makes : Node → φ → Prop} {make : Option Node × Node → Option φ}
    (ordered : Ascending root.preorder)
    (made : ∀ parent node fact, make (parent, node) = some fact → makes node fact) :
    RecordedInOrder root makes ((withParents none root).filterMap make) := by
  obtain ⟨visits, among, found⟩ := exists_sublist_filterMap make (withParents none root)
  have within : (visits.map (·.2)).Sublist root.preorder := by
    rw [← map_withParents none root]
    exact among.map _
  refine ⟨_, within, ordered.sublist within, List.forall₂_map_left_iff.mpr (found.imp ?_)⟩
  rintro ⟨parent, node⟩ fact same
  exact made parent node fact same

/-- What a walk records of the nodes of one kind is recorded in order where the nodes of the tree are. -/
theorem recordedInOrder_kind {φ : Type} (ordered : Ascending root.preorder) (isKind : Node → Bool)
    (make : Node → Option φ) :
    RecordedInOrder root (fun node fact => make node = some fact)
      ((((withParents none root).map (·.2)).filter isKind).filterMap make) := by
  rw [List.filterMap_filter, List.filterMap_map]
  refine recordedInOrder_visited ordered fun parent node fact same => ?_
  dsimp only [Function.comp_apply] at same
  split at same
  · exact same
  · cases same

/-- The imports, hooks and functions of a tree are recorded in the order of the source. -/
structure RecordsInOrder (source : List Char) (root : Node) : Prop where
  imports : RecordedInOrder root (fun node fact => importOf source node = some fact)
    (Facts.ofTree source root).imports
  hooks : RecordedInOrder root (fun node fact => hookOf source node = some fact)
    (Facts.ofTree source root).hooks
  functions : RecordedInOrder root (fun node fact => ∃ parent, functionOf source parent node = some fact)
    (Facts.ofTree source root).functions

/-- Where the nodes of a tree are in order, so is what is recorded of them. -/
theorem recordsInOrder (ordered : ∀ node ∈ root.preorder, node.InOrder) : RecordsInOrder source root := by
  obtain ⟨ascending, _⟩ := ascending_preorder root ordered
  refine ⟨recordedInOrder_kind ascending _ _, recordedInOrder_kind ascending _ _,
    recordedInOrder_visited ascending fun parent node fact same => ?_⟩
  dsimp only at same
  split at same
  · exact ⟨parent, same⟩
  · cases same

/-- The places told by the imports, hooks and functions of a source do not go back. -/
structure PlacesInOrder (facts : Facts) : Prop where
  imports : facts.imports.Pairwise fun first second => first.line ≤ second.line
  hooks : facts.hooks.Pairwise fun first second =>
    NoLater (first.line, first.column) (second.line, second.column)
  functions : facts.functions.Pairwise fun first second => first.line ≤ second.line

/-- What holds of nodes that follow one another holds of what is made at them. -/
theorem RecordedInOrder.pairwise {φ : Type} {makes : Node → φ → Prop} {facts : List φ}
    (recorded : RecordedInOrder root makes facts) (begins : ∀ node ∈ root.preorder, node.BeginsIn source)
    {follows : φ → φ → Prop}
    (keeps : ∀ first second fact further, makes first fact → makes second further →
      NoLater (first.line, first.column source) (second.line, second.column source) → follows fact further) :
    facts.Pairwise follows := by
  obtain ⟨nodes, among, ascending, made⟩ := recorded
  have size := made.length_eq
  refine List.pairwise_iff_getElem.mpr fun i j first second before => ?_
  have order := List.pairwise_iff_getElem.mp ascending i j (by omega) (by omega) before
  have start (index : Nat) (inside : index < nodes.length) : nodes[index].BeginsIn source :=
    begins _ (among.subset (List.getElem_mem inside))
  exact keeps _ _ _ _ (made.get (by omega) first) (made.get (by omega) second)
    ((start i _).noLater (start j _) order)

/-- The parts of a clause leave the line of an import as it is. -/
theorem line_foldl_addImportPart (source : List Char) (fact : ImportFact) (parts : List Node) :
    (parts.foldl (addImportPart source) fact).line = fact.line := by
  induction parts generalizing fact with
  | nil => rfl
  | cons part parts inductionHypothesis =>
    have kept : (addImportPart source fact part).line = fact.line := by
      unfold addImportPart
      dsimp only
      split_ifs <;> rfl
    rw [List.foldl_cons, inductionHypothesis, kept]

/-- An import stands on the line of its statement. -/
theorem line_importOf {node : Node} {fact : ImportFact} (made : importOf source node = some fact) :
    fact.line = node.line := by
  obtain ⟨origin, _, rfl⟩ := Option.map_eq_some_iff.mp made
  exact line_foldl_addImportPart source _ _

/-- A hook stands where its call begins. -/
theorem place_hookOf {node : Node} {fact : HookFact} (made : hookOf source node = some fact) :
    (fact.line, fact.column) = (node.line, node.column source) := by
  unfold hookOf at made
  split at made
  · cases made
  · dsimp only at made
    split at made
    · cases made
      rfl
    · cases made

/-- A function stands on the line of its declaration. -/
theorem line_functionOf {parent : Option Node} {node : Node} {fact : FunctionFact}
    (made : functionOf source parent node = some fact) : fact.line = node.line := by
  obtain ⟨name, _, rfl⟩ := Option.map_eq_some_iff.mp made
  rfl

/-- What is recorded in order tells places in order, where the nodes begin in the source. -/
theorem placesInOrder (records : RecordsInOrder source root)
    (begins : ∀ node ∈ root.preorder, node.BeginsIn source) : PlacesInOrder (Facts.ofTree source root) where
  imports := records.imports.pairwise begins fun first second fact further here there order => by
    rw [line_importOf here, line_importOf there]
    exact order.line_le
  hooks := records.hooks.pairwise begins fun first second fact further here there order => by
    rw [place_hookOf here, place_hookOf there]
    exact order
  functions := records.functions.pairwise begins fun first second fact further here there order => by
    obtain ⟨parent, here⟩ := here
    obtain ⟨other, there⟩ := there
    rw [line_functionOf here, line_functionOf there]
    exact order.line_le

/-- A tree holds a markup element where one of its nodes is one. -/
theorem holdsElement_iff : holdsElement root = true ↔ ∃ place node, root.at? place = some node ∧
    node.isAny [.jsxElement, .jsxSelfClosingElement] = true := by
  unfold holdsElement
  rw [List.any_eq_true, exists_comm]
  refine exists_congr fun node => ?_
  rw [exists_and_right, ← Node.mem_preorder_iff]

/-- A rule with a node test is reported once at each place of a tree where its test passes, from the
first place to the last one, and nothing else is reported: two tests that pass the same nodes are
reported alike, wherever they fail. The walk meets one node with each pass, until it has met the nodes
of the tree, each of them once. In a tree whose nodes are in order the imports, hooks and functions are
recorded in the order of the source, and a tree holds a markup element where one of its nodes is one. -/
theorem matchNodes_exact {rule : Rule} {test : NodeTest} (given : rule.nodeTest = some test)
    (source : List Char) (root : Node) (filePath : String) :
    (∃ hits : List (List Nat), hits.Pairwise (· < ·) ∧
      (∀ place, place ∈ hits ↔ ∃ node, root.at? place = some node ∧ testNode source test node = .hit) ∧
      List.Forall₂ (fun place violation => ∃ node, root.at? place = some node ∧
        violation = reportNode rule source filePath node) hits (matchNodes rule source root filePath)) ∧
      (∀ other : NodeTest,
        (∀ node ∈ root.preorder, testNode source other node = .hit ↔ testNode source test node = .hit) →
        matchNodes { rule with nodeTest := some other } source root filePath =
          matchNodes rule source root filePath) ∧
      (∀ steps, Node.walkStack steps [root] = root.preorder.take steps ∧
        (Node.stackAfter steps [root] = [] ↔ root.preorder.length ≤ steps)) ∧
      root.nodes = root.preorder ∧
      (∃ places : List (List Nat), places.Pairwise (· < ·) ∧
        (∀ place, place ∈ places ↔ (root.at? place).isSome = true) ∧
        List.Forall₂ (fun place node => root.at? place = some node) places root.nodes) ∧
      ((∀ node ∈ root.preorder, node.InOrder) → RecordsInOrder source root ∧
        ((∀ node ∈ root.preorder, node.BeginsIn source) → PlacesInOrder (Facts.ofTree source root))) ∧
      (holdsElement root = true ↔ ∃ place node, root.at? place = some node ∧
        node.isAny [.jsxElement, .jsxSelfClosingElement] = true) := by
  refine ⟨⟨hitPlaces source test root, ?_, fun _ => mem_hitPlaces_iff,
    forall₂_matchNodes given source root filePath⟩, ?alike, ?walk, Node.nodes_eq_preorder root,
    ⟨root.places, Node.pairwise_places root, fun _ => Node.mem_places_iff, forall₂_places root⟩,
    fun ordered => ?records, holdsElement_iff⟩
  · exact (Node.pairwise_places root).filter _
  case alike =>
    intro other same
    unfold matchNodes
    rw [given, Node.nodes_eq_preorder]
    refine congrArg (List.map _) (List.filter_congr fun node member => ?_)
    rw [Bool.eq_iff_iff, beq_iff_eq, beq_iff_eq]
    exact same node member
  case walk =>
    intro steps
    have alone : Node.preorderAll [root] = root.preorder := List.append_nil _
    rw [Node.stackAfter_eq_nil_iff, (Node.walkStack_invariant steps [root]).1, alone]
    exact ⟨rfl, Iff.rfl⟩
  case records =>
    have records : RecordsInOrder source root := recordsInOrder ordered
    exact ⟨records, placesInOrder records⟩

/-- A test that passes names and fails at the top of a tree. -/
def passesNames : NodePredicate := fun node =>
  if node.is .program then .failed else if node.is .identifier then .hit else .miss

/-- A rule with that test. -/
def namesRule : Conformance.Rule :=
  ⟨"tes-001", "names", .testing, .warning, "", "", "", none, some (.custom passesNames), none, []⟩

/-- An import and a function that calls a hook. -/
def importText : List Char := "import a from 'b';\nfunction f() { useState(g); }\n".toList

/-- The names are reported though the test fails above them, and what is recorded is in order. -/
theorem matchNodes_exact_failing :
    ∃ tree hits, readTree .plain importText = .ok tree ∧
      testNode importText (.custom passesNames) tree = .failed ∧ hits.Pairwise (· < ·) ∧
      List.Forall₂ (fun place violation => ∃ node, tree.at? place = some node ∧
        violation = reportNode namesRule importText "a.ts" node) hits
        (matchNodes namesRule importText tree "a.ts") ∧
      (matchNodes namesRule importText tree "a.ts").map (fun violation =>
        (violation.line, violation.column)) = [(1, 8), (2, 10), (2, 16), (2, 25)] ∧
      (∀ node ∈ tree.preorder, node.InOrder) ∧ (∀ node ∈ tree.preorder, node.BeginsIn importText) ∧
      RecordsInOrder importText tree ∧ PlacesInOrder (Facts.ofTree importText tree) := by
  have told : (readTree .plain importText).toOption.map (fun tree =>
      (testNode importText (.custom passesNames) tree,
        (matchNodes namesRule importText tree "a.ts").map fun violation =>
          (violation.line, violation.column))) =
      some (.failed, [(1, 8), (2, 10), (2, 16), (2, 25)]) := by
    decide +kernel
  obtain ⟨tree, read, answer⟩ := exists_of_told _ told
  have given : namesRule.nodeTest = some (.custom passesNames) := rfl
  have ordered := inOrder_of_mem_preorder read
  have begins : ∀ node ∈ tree.preorder, node.BeginsIn importText := fun node member =>
    beginsIn_of_mem_nodes read (tree.nodes_eq_preorder ▸ member)
  obtain ⟨⟨hits, ascending, _, reports⟩, _, _, _, _, recorded, _⟩ :=
    matchNodes_exact given importText tree "a.ts"
  obtain ⟨records, places⟩ := recorded ordered
  exact ⟨tree, hits, read, congrArg Prod.fst answer, ascending, reports, congrArg Prod.snd answer, ordered,
    begins, records, places begins⟩

end Conformance.Matching
