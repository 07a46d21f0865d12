import Conformance.Proofs.Syntax.Names

/-!
# What rules have read

A rule that has been put together has read what its parts have read, one behind the other. What it has put into a
construct is found there again: by its role, and among the named children.
-/

namespace Conformance.Syntax

open Syntax.Rule

variable {start stop : Cursor} {nodes : List Node} {rule first second : Rule}

/-! The parts. -/

/-- Two rules have read one behind the other. -/
theorem exists_of_andThen (read : andThen first second start = some (nodes, stop)) :
    ∃ before next after, first start = some (before, next) ∧ second next = some (after, stop) ∧
      nodes = before ++ after := by
  unfold andThen at read
  split at read
  · cases read
  · next before next begins =>
    split at read
    · cases read
    · next after last goesOn =>
      cases read
      exact ⟨before, next, after, begins, goesOn, rfl⟩

/-- A rule that need not apply has applied, or nothing has been read. -/
theorem optional_cases (read : Rule.optional rule start = some (nodes, stop)) :
    rule start = some (nodes, stop) ∨ (rule start = none ∧ nodes = [] ∧ stop = start) := by
  unfold Rule.optional at read
  split at read
  · next applies =>
    cases read
    exact .inl applies
  · next fails =>
    cases read
    exact .inr ⟨fails, rfl, rfl⟩

/-- One of the rules has applied. -/
theorem exists_of_firstOf {rules : List Rule} (read : firstOf rules start = some (nodes, stop)) :
    ∃ rule ∈ rules, rule start = some (nodes, stop) := by
  induction rules with
  | nil => cases read
  | cons rule rules inductionHypothesis =>
    unfold firstOf at read
    split at read
    · next applies =>
      cases read
      exact ⟨rule, List.mem_cons_self, applies⟩
    · obtain ⟨other, member, applies⟩ := inductionHypothesis read
      exact ⟨other, List.mem_cons_of_mem _ member, applies⟩

/-- A rule that does not apply at all applies no number of times. -/
theorem many_of_none (fails : rule start = none) : many rule start = some ([], start) := by
  unfold many manyUpTo
  rw [fails]

/-- A construct has been made of what its parts have read. -/
theorem exists_of_construct {kind : Construct} (read : construct kind rule start = some (nodes, stop)) :
    ∃ parts, rule start = some (parts, stop) ∧ nodes = wrap kind parts stop := by
  unfold construct at read
  split at read
  · next parts last applies =>
    cases read
    exact ⟨parts, applies, rfl⟩
  · cases read

/-- A node in a role, comments apart. -/
def inRole (role : Role) (node : Node) : Node := if isComment node then node else node.withRole role

/-- What has been read plays its role. -/
theorem exists_of_playing {role : Role} (read : playing role rule start = some (nodes, stop)) :
    ∃ parts, rule start = some (parts, stop) ∧ nodes = parts.map (inRole role) := by
  unfold playing at read
  split at read
  · next parts last applies =>
    cases read
    exact ⟨parts, applies, rfl⟩
  · cases read

/-- A leaf has been read behind a gap. -/
theorem exists_of_leafOf {kind : Kind} {recognise : Cursor → Option Cursor}
    (read : leafOf kind recognise start = some (nodes, stop)) :
    recognise (nextToken start) = some stop ∧ nodes = (gap start).1 ++ [leaf kind (nextToken start) stop] := by
  unfold leafOf at read
  dsimp only at read
  split at read
  · next last recognised =>
    cases read
    exact ⟨recognised, rfl⟩
  · cases read

/-- A keyword has been read. -/
theorem exists_of_word {text : String} (read : word text start = some (nodes, stop)) :
    nameAt? (nextToken start) = some (text.toList, stop) ∧
      nodes = (gap start).1 ++ [leaf (.token text) (nextToken start) stop] := by
  obtain ⟨recognised, same⟩ := exists_of_leafOf read
  refine ⟨?_, same⟩
  split at recognised
  · next name next found =>
    split at recognised
    · next told =>
      cases recognised
      rw [found, ← eq_of_beq told, String.toList_ofList]
    · cases recognised
  · cases recognised

/-- One of several keywords has been read. -/
theorem exists_of_wordOf {texts : List String} (read : wordOf texts start = some (nodes, stop)) :
    ∃ text ∈ texts, word text start = some (nodes, stop) := by
  obtain ⟨rule, member, applies⟩ := exists_of_firstOf read
  obtain ⟨text, listed, rfl⟩ := List.mem_map.mp member
  exact ⟨text, listed, applies⟩

/-- A name of any kind has been read. -/
theorem exists_of_anyName {kind : Construct} (read : anyName kind start = some (nodes, stop)) :
    ∃ name, nameAt? (nextToken start) = some (name, stop) ∧
      nodes = (gap start).1 ++ [leaf (.construct kind) (nextToken start) stop] := by
  obtain ⟨recognised, same⟩ := exists_of_leafOf read
  obtain ⟨⟨name, next⟩, found, rfl⟩ := Option.map_eq_some_iff.mp recognised
  exact ⟨name, found, same⟩

/-- A name has been read that is no keyword. -/
theorem exists_of_plainName {kind : Construct} (read : plainName kind start = some (nodes, stop)) :
    ∃ name, nameAt? (nextToken start) = some (name, stop) ∧
      nodes = (gap start).1 ++ [leaf (.construct kind) (nextToken start) stop] := by
  obtain ⟨recognised, same⟩ := exists_of_leafOf read
  split at recognised
  · next name next found =>
    split at recognised
    · cases recognised
    · cases recognised
      exact ⟨name, found, same⟩
  · cases recognised

/-! What a construct holds. -/

/-- Nodes without a role. -/
def Roleless (nodes : List Node) : Prop := ∀ node ∈ nodes, node.role = none

/-- Comments in a gap have no role. -/
theorem roleless_gapFrom (bound : Nat) (cursor : Cursor) : Roleless (gapFrom bound cursor).1 := by
  intro node member
  obtain ⟨_, _, rfl⟩ := exists_of_mem_gapFrom member
  rfl

/-- A leaf behind a gap has no role, and neither has the gap. -/
theorem roleless_leaf (kind : Kind) : Roleless ((gap start).1 ++ [leaf kind (nextToken start) stop]) := by
  refine List.forall_mem_append.mpr ⟨roleless_gapFrom start.left start, ?_⟩
  rintro node member
  rw [List.mem_singleton.mp member]
  rfl

/-- A leaf behind a gap that plays a role. -/
theorem map_inRole_leaf {kind : Construct} (apart : kind ≠ .comment) (role : Role) :
    ((gap start).1 ++ [leaf (.construct kind) (nextToken start) stop]).map (inRole role) =
      (gap start).1 ++ [(leaf (.construct kind) (nextToken start) stop).withRole role] := by
  have comments : (gap start).1.map (inRole role) = (gap start).1 := by
    refine (List.map_congr_left fun node member => ?_).trans (List.map_id _)
    exact if_pos (isComment_of_mem_gapFrom node member)
  have named : isComment (leaf (.construct kind) (nextToken start) stop) = false := by
    simpa [isComment, Node.is, leaf, Node.kind] using apart
  rw [List.map_append, comments, List.map_singleton, inRole, named, if_neg Bool.false_ne_true]

/-- The comments that stay outside a construct stand in front of its first part. -/
theorem dropWhile_append_cons {node : Node} (apart : isComment node = false) (before after : List Node) :
    (before ++ node :: after).dropWhile isComment = before.dropWhile isComment ++ node :: after := by
  have ends : (node :: after).dropWhile isComment = node :: after :=
    List.dropWhile_cons_of_neg (by rw [apart]; exact Bool.false_ne_true)
  rw [List.dropWhile_append]
  split
  · next none =>
    rw [List.isEmpty_iff.mp none, ends]
    rfl
  · rfl

/-- They are among those that stand in front of it. -/
theorem takeWhile_append_cons {node : Node} (apart : isComment node = false) (before after : List Node) :
    (before ++ node :: after).takeWhile isComment = before.takeWhile isComment := by
  have ends : (node :: after).takeWhile isComment = [] :=
    List.takeWhile_cons_of_neg (by rw [apart]; exact Bool.false_ne_true)
  rw [List.takeWhile_append]
  split
  · next all =>
    have whole := (List.takeWhile_prefix isComment (l := before)).eq_of_length all
    rw [ends, List.append_nil, whole]
  · rfl

/-- What is put into a construct is in one node, with comments in front of it. Without other parts in front of a
part that is no comment the construct begins with that part. -/
theorem wrap_append_cons {node : Node} (apart : isComment node = false) (kind : Construct)
    (before after : List Node) (stop : Cursor) :
    ∃ span, wrap kind (before ++ node :: after) stop = before.takeWhile isComment ++
        [.mk (.construct kind) none span (before.dropWhile isComment ++ node :: after)] ∧
      (before.dropWhile isComment = [] → span.startByte = node.span.startByte) := by
  unfold wrap
  dsimp only
  rw [takeWhile_append_cons apart, dropWhile_append_cons apart]
  refine ⟨_, rfl, fun none => ?_⟩
  rw [none, List.nil_append, List.head?_cons, List.getLast?_cons]

/-- The node that plays a role in a construct is found there if none in front of it plays one. -/
theorem find?_role {node : Node} {role : Role} {before : List Node} (roleless : Roleless before)
    (plays : node.role = some role) (after : List Node) :
    (before.dropWhile isComment ++ node :: after).find? (·.role == some role) = some node := by
  have others : (before.dropWhile isComment).find? (·.role == some role) = none := by
    rw [List.find?_eq_none]
    intro other member
    rw [roleless other ((List.dropWhile_sublist isComment).mem member)]
    simp
  rw [List.find?_append, others, Option.none_or, List.find?_cons_of_pos]
  simpa using plays

/-- Comments without a role in front of a construct. -/
def IsLead (nodes : List Node) : Prop := ∀ node ∈ nodes, isComment node = true ∧ node.role = none

/-- The comments in front of a construct whose parts have no role. -/
theorem isLead_takeWhile (roleless : Roleless nodes) : IsLead (nodes.takeWhile isComment) :=
  fun node member => ⟨List.mem_takeWhile_imp member, roleless node ((List.takeWhile_sublist isComment).mem member)⟩

end Conformance.Syntax
