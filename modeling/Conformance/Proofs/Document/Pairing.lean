import Conformance.Document.Sections
import Mathlib.Data.List.Forall2
import Mathlib.Data.List.Sort
import Mathlib.Tactic.Common

/-!
# Pairs of examples

Fences cut the lines of a section into the lines outside blocks and the closed blocks; what a last
block holds that is never closed belongs to neither. A block to be preferred makes a pair exactly if
there is a block to be avoided between it and the pair before, with the latest of these blocks and the
first prose line of the same stretch. The machine that reads line by line finds these pairs, since what
it remembers between two lines is the latest such block and that prose line.
-/

namespace Conformance.Document

open Text

/-! The cut. -/

/-- A piece of a section: a line outside blocks, or a closed block with what the line before it says
and with its code. -/
inductive Piece where
  | line (text : List Char)
  | block (marker : Option Marker) (code : List Char)
  deriving Repr, DecidableEq

/-- How fences cut lines that stand behind a line. They open and close blocks in turn. -/
inductive Cut : (before : List Char) → List (List Char) → List Piece → Prop where
  | done (before : List Char) : Cut before [] []
  | line {before line : List Char} {rest : List (List Char)} {pieces : List Piece}
      (outside : isFence line = false) (further : Cut line rest pieces) :
      Cut before (line :: rest) (.line line :: pieces)
  | block {before opening closing : List Char} {inside rest : List (List Char)} {pieces : List Piece}
      (opens : isFence opening = true) (held : ∀ line ∈ inside, isFence line = false)
      (closes : isFence closing = true) (further : Cut closing rest pieces) :
      Cut before (opening :: (inside ++ closing :: rest))
        (.block (marker? before) (codeOf inside) :: pieces)
  | unclosed {before opening : List Char} {inside : List (List Char)}
      (opens : isFence opening = true) (held : ∀ line ∈ inside, isFence line = false) :
      Cut before (opening :: inside) []

/-- Lines can be cut, outside a block and in one that is open. -/
theorem exists_cut_of_open (lines : List (List Char)) :
    (∀ before, ∃ pieces, Cut before lines pieces) ∧
      ∀ before opening inside, isFence opening = true → (∀ line ∈ inside, isFence line = false) →
        ∃ pieces, Cut before (opening :: (inside ++ lines)) pieces := by
  induction lines with
  | nil =>
    refine ⟨fun before => ⟨[], .done before⟩, fun before opening inside opens held => ⟨[], ?_⟩⟩
    rw [List.append_nil]
    exact .unclosed opens held
  | cons line rest inductionHypothesis =>
    obtain ⟨outside, opened⟩ := inductionHypothesis
    cases fenced : isFence line with
    | false =>
      refine ⟨fun before => ?_, fun before opening inside opens held => ?_⟩
      · obtain ⟨pieces, further⟩ := outside line
        exact ⟨_, .line fenced further⟩
      · rw [List.append_cons]
        refine opened before opening (inside ++ [line]) opens ?_
        exact List.forall_mem_append.mpr ⟨held, List.forall_mem_singleton.mpr fenced⟩
    | true =>
      refine ⟨fun before => opened before line [] fenced nofun,
        fun before opening inside opens held => ?_⟩
      obtain ⟨pieces, further⟩ := outside line
      exact ⟨_, .block opens held fenced further⟩

/-- The lines before the first fence. -/
theorem takeWhile_inside {inside : List (List Char)} (held : ∀ line ∈ inside, isFence line = false)
    {closing : List Char} (closes : isFence closing = true) (rest : List (List Char)) :
    (inside ++ closing :: rest).takeWhile (fun line => !isFence line) = inside := by
  rw [List.takeWhile_append_of_pos fun line member => by rw [held line member]; rfl,
    List.takeWhile_cons_of_neg (by rw [closes]; exact Bool.false_ne_true), List.append_nil]

/-- Lines can be cut in one way only. -/
theorem Cut.unique {before : List Char} {lines : List (List Char)} {pieces others : List Piece}
    (cut : Cut before lines pieces) (other : Cut before lines others) : pieces = others := by
  induction cut generalizing others with
  | done before =>
    cases other
    rfl
  | line outside further inductionHypothesis =>
    cases other with
    | line _ otherwise => rw [inductionHypothesis otherwise]
    | block opens => rw [outside] at opens; cases opens
    | unclosed opens => rw [outside] at opens; cases opens
  | @block before opening closing inside rest pieces opens held closes further inductionHypothesis =>
    generalize whole : opening :: (inside ++ closing :: rest) = lines at other
    cases other with
    | done => cases whole
    | line outside =>
      obtain ⟨rfl, _⟩ := List.cons.inj whole
      rw [opens] at outside
      cases outside
    | @block _ _ closing' inside' rest' _ _ held' closes' further' =>
      obtain ⟨rfl, parts⟩ := List.cons.inj whole
      have same : inside = inside' := by
        rw [← takeWhile_inside held closes rest, parts, takeWhile_inside held' closes']
      subst same
      obtain ⟨rfl, rfl⟩ := List.cons.inj (List.append_cancel_left parts)
      rw [inductionHypothesis further']
    | unclosed _ held' =>
      obtain ⟨rfl, rfl⟩ := List.cons.inj whole
      have free := held' closing (List.mem_append_right inside List.mem_cons_self)
      rw [closes] at free
      cases free
  | @unclosed before opening inside opens held =>
    generalize whole : opening :: inside = lines at other
    cases other with
    | done => cases whole
    | line outside =>
      obtain ⟨rfl, _⟩ := List.cons.inj whole
      rw [opens] at outside
      cases outside
    | @block _ _ closing' inside' _ _ _ _ closes' _ =>
      obtain ⟨_, rfl⟩ := List.cons.inj whole
      have free := held closing' (List.mem_append_right inside' List.mem_cons_self)
      rw [closes'] at free
      cases free
    | unclosed => rfl

/-! The machine on pieces. -/

/-- What one piece changes. -/
def Scan.take (scan : Scan) : Piece → Scan × Option ExamplePair
  | .line text =>
    if isProse text ∧ scan.description.isEmpty then ({ scan with description := trim text }, none)
    else (scan, none)
  | .block marker code => scan.close marker code

/-- The pairs that pieces complete. -/
def pairsOf : Scan → List Piece → List ExamplePair
  | _, [] => []
  | scan, piece :: rest => (scan.take piece).2.toList ++ pairsOf (scan.take piece).1 rest

/-- Behind a piece no block is open. -/
theorem Scan.opened_take {scan : Scan} (idle : scan.opened = none) (piece : Piece) :
    (scan.take piece).1.opened = none := by
  cases piece with
  | line text =>
    unfold Scan.take
    dsimp only
    split_ifs <;> exact idle
  | block marker code =>
    unfold Scan.take Scan.close
    dsimp only
    split <;> rfl

/-- The lines of an open block are remembered, the last one first. -/
theorem pairsFrom_inside {inside : List (List Char)} (held : ∀ line ∈ inside, isFence line = false)
    (scan : Scan) (before : List Char) (marker : Option Marker) (earlier rest : List (List Char)) :
    ∃ last, pairsFrom { scan with opened := some (marker, earlier) } before (inside ++ rest) =
      pairsFrom { scan with opened := some (marker, inside.reverse ++ earlier) } last rest := by
  induction inside generalizing before earlier with
  | nil => exact ⟨before, rfl⟩
  | cons line inside inductionHypothesis =>
    obtain ⟨outside, others⟩ := List.forall_mem_cons.mp held
    obtain ⟨last, same⟩ := inductionHypothesis others line (line :: earlier)
    refine ⟨last, ?_⟩
    rw [List.reverse_cons, List.append_assoc, List.singleton_append, ← same, List.cons_append, pairsFrom]
    unfold Scan.step
    simp only [outside, Bool.false_eq_true, if_false, Option.toList_none, List.nil_append]

/-- The pairs that lines complete are those that their pieces complete. -/
theorem pairsFrom_eq_pairsOf {before : List Char} {lines : List (List Char)} {pieces : List Piece}
    (cut : Cut before lines pieces) {scan : Scan} (idle : scan.opened = none) :
    pairsFrom scan before lines = pairsOf scan pieces := by
  induction cut generalizing scan with
  | done before => rfl
  | @line before line rest pieces outside further inductionHypothesis =>
    have same : scan.step before line = scan.take (.line line) := by
      unfold Scan.step Scan.take
      simp only [outside, Bool.false_eq_true, if_false, idle]
    rw [pairsFrom, pairsOf, same, ← inductionHypothesis (scan.opened_take idle _)]
  | @block before opening closing inside rest pieces opens held closes further inductionHypothesis =>
    obtain ⟨last, same⟩ := pairsFrom_inside held scan opening (marker? before) [] (closing :: rest)
    have opened : scan.step before opening = ({ scan with opened := some (marker? before, []) }, none) := by
      unfold Scan.step
      simp only [opens, if_true, idle]
    have closed : Scan.step { scan with opened := some (marker? before, inside.reverse ++ []) } last closing =
        scan.take (.block (marker? before) (codeOf inside)) := by
      unfold Scan.step
      simp only [closes, if_true, List.append_nil, List.reverse_reverse]
      rfl
    rw [pairsFrom, opened]
    dsimp only
    rw [Option.toList_none, List.nil_append, same, pairsFrom, closed, pairsOf,
      ← inductionHypothesis (scan.opened_take idle _)]
  | @unclosed before opening inside opens held =>
    obtain ⟨last, same⟩ := pairsFrom_inside held scan opening (marker? before) [] []
    have opened : scan.step before opening = ({ scan with opened := some (marker? before, []) }, none) := by
      unfold Scan.step
      simp only [opens, if_true, idle]
    rw [List.append_nil] at same
    rw [pairsFrom, opened]
    dsimp only
    rw [Option.toList_none, List.nil_append, same]
    rfl

/-! What makes a pair. -/

variable {pieces others passed : List Piece} {uses further : List (Nat × Nat)}

/-- A piece before a number that stands behind every block to be preferred of an earlier pair. A pair
is told by the numbers of its two blocks. -/
def Since (pieces : List Piece) (uses : List (Nat × Nat)) (stop number : Nat) (piece : Piece) : Prop :=
  number < stop ∧ pieces[number]? = some piece ∧ ∀ use ∈ uses, use.2 < stop → use.2 < number

/-- The latest block to be avoided since the pair before a number. -/
def Latest (pieces : List Piece) (uses : List (Nat × Nat)) (stop number : Nat) (code : List Char) : Prop :=
  Since pieces uses stop number (.block (some .incorrect) code) ∧
    ∀ other wrong, Since pieces uses stop other (.block (some .incorrect) wrong) → other ≤ number

/-- The first prose line since the pair before a number, or no text if there is none. -/
def Described (pieces : List Piece) (uses : List (Nat × Nat)) (stop : Nat) (text : List Char) : Prop :=
  (∃ number line, Since pieces uses stop number (.line line) ∧ isProse line = true ∧ text = trim line ∧
    ∀ other further, Since pieces uses stop other (.line further) → isProse further = true →
      number ≤ other) ∨
  (text = [] ∧ ∀ number line, Since pieces uses stop number (.line line) → isProse line = false)

/-- The pairs of a section: the numbers of their blocks ascend, so no block is in two pairs; each is
made of a block to be preferred, the latest block to be avoided and the first prose line since the pair
before; and no block to be preferred is left out that has such a block before it. -/
structure Paired (pieces : List Piece) (uses : List (Nat × Nat)) (pairs : List ExamplePair) : Prop where
  ascending : (uses.flatMap fun use => [use.1, use.2]).Pairwise (· < ·)
  made : List.Forall₂ (fun use pair => Latest pieces uses use.2 use.1 pair.incorrect ∧
    pieces[use.2]? = some (.block (some .correct) pair.correct) ∧
    Described pieces uses use.2 pair.description) uses pairs
  complete : ∀ stop right, pieces[stop]? = some (.block (some .correct) right) →
    ∀ number wrong, Since pieces uses stop number (.block (some .incorrect) wrong) →
      ∃ chosen, (chosen, stop) ∈ uses

/-- Pieces and pairs that are the same before a number. -/
def Agree (stop : Nat) (pieces others : List Piece) (uses further : List (Nat × Nat)) : Prop :=
  (∀ number < stop, pieces[number]? = others[number]?) ∧
    ∀ use : Nat × Nat, use.2 < stop → (use ∈ uses ↔ use ∈ further)

/-- What stands since the pair before a number is decided before it. -/
theorem Agree.since {stop : Nat} (agree : Agree stop pieces others uses further) (number : Nat)
    (piece : Piece) : Since pieces uses stop number piece ↔ Since others further stop number piece := by
  obtain ⟨same, used⟩ := agree
  refine and_congr_right fun before => and_congr (by rw [same number before]) ?_
  refine forall_congr' fun use => ⟨fun kept member early => ?_, fun kept member early => ?_⟩
  · exact kept ((used use early).mpr member) early
  · exact kept ((used use early).mp member) early

/-- So is the latest block to be avoided. -/
theorem Agree.latest {stop : Nat} (agree : Agree stop pieces others uses further) (number : Nat)
    (code : List Char) : Latest pieces uses stop number code ↔ Latest others further stop number code := by
  simp only [Latest, agree.since]

/-- So is the first prose line. -/
theorem Agree.described {stop : Nat} (agree : Agree stop pieces others uses further) (text : List Char) :
    Described pieces uses stop text ↔ Described others further stop text := by
  simp only [Described, agree.since]

/-- What agrees before a number agrees the other way round. -/
theorem Agree.symm {stop : Nat} (agree : Agree stop pieces others uses further) :
    Agree stop others pieces further uses :=
  ⟨fun number before => (agree.1 number before).symm, fun use before => (agree.2 use before).symm⟩

/-- Each pair is made of what its numbers tell. -/
theorem Paired.of_mem {pairs : List ExamplePair} (paired : Paired pieces uses pairs) :
    ∀ use ∈ uses, ∃ wrong right, Latest pieces uses use.2 use.1 wrong ∧
      pieces[use.2]? = some (.block (some .correct) right) := by
  refine ((List.forall₂_and_left (R := fun _ _ => True) uses pairs).mp
    (paired.made.imp fun use pair made => ⟨?_, trivial⟩)).1
  exact ⟨pair.incorrect, pair.correct, made.1, made.2.1⟩

/-- The pairs stand in the order of their blocks to be preferred. -/
theorem Paired.ordered {pairs : List ExamplePair} (paired : Paired pieces uses pairs) :
    uses.Pairwise fun first second => first.2 < second.2 := by
  refine (List.pairwise_flatMap.mp paired.ascending).2.imp fun before => ?_
  exact before _ (List.mem_cons_of_mem _ List.mem_cons_self) _ (List.mem_cons_of_mem _ List.mem_cons_self)

/-- There is only one latest block to be avoided. -/
theorem Latest.unique {stop first second : Nat} {code wrong : List Char}
    (latest : Latest pieces uses stop first code) (other : Latest pieces uses stop second wrong) :
    first = second ∧ code = wrong := by
  obtain rfl : first = second := Nat.le_antisymm (other.2 _ _ latest.1) (latest.2 _ _ other.1)
  obtain ⟨_, here, _⟩ := latest.1
  obtain ⟨_, there, _⟩ := other.1
  rw [here] at there
  cases there
  exact ⟨rfl, rfl⟩

/-- There is only one description. -/
theorem Described.unique {stop : Nat} {text other : List Char} (described : Described pieces uses stop text)
    (again : Described pieces uses stop other) : text = other := by
  rcases described with ⟨number, line, since, prose, rfl, first⟩ | ⟨rfl, nothing⟩
  · rcases again with ⟨number', line', since', prose', rfl, first'⟩ | ⟨_, nothing⟩
    · obtain rfl : number = number' :=
        Nat.le_antisymm (first _ _ since' prose') (first' _ _ since prose)
      obtain ⟨_, here, _⟩ := since
      obtain ⟨_, there, _⟩ := since'
      rw [here] at there
      cases there
      rfl
    · rw [nothing number line since] at prose
      cases prose
  · rcases again with ⟨number, line, since, prose, _⟩ | ⟨rfl, _⟩
    · rw [nothing number line since] at prose
      cases prose
    · rfl

/-- A use of one reading that agrees with another reading before it is one of the other. -/
theorem Paired.mem_of_agree {pairs : List ExamplePair} {use : Nat × Nat} {more : List ExamplePair}
    (paired : Paired pieces uses pairs) (other : Paired pieces further more)
    (agree : Agree use.2 pieces pieces uses further) (member : use ∈ uses) : use ∈ further := by
  obtain ⟨wrong, right, latest, correct⟩ := paired.of_mem use member
  have same := (agree.latest _ _).mp latest
  obtain ⟨chosen, listed⟩ := other.complete use.2 right correct use.1 wrong same.1
  obtain ⟨_, _, again, _⟩ := other.of_mem _ listed
  obtain ⟨number, _⟩ := same.unique again
  rwa [show use = (chosen, use.2) from Prod.ext number rfl]

/-- The pieces decide the pairs. -/
theorem Paired.unique {pairs more : List ExamplePair} (paired : Paired pieces uses pairs)
    (other : Paired pieces further more) : uses = further ∧ pairs = more := by
  -- by induction on the number: what is paired before it decides whether the block at it is paired
  have agree : ∀ stop, Agree stop pieces pieces uses further := by
    intro stop
    induction stop with
    | zero => exact ⟨fun _ _ => rfl, fun use before => absurd before (Nat.not_lt_zero _)⟩
    | succ stop inductionHypothesis =>
      refine ⟨fun _ _ => rfl, fun use before => ?_⟩
      rcases Nat.lt_succ_iff_lt_or_eq.mp before with early | rfl
      · exact inductionHypothesis.2 use early
      · exact ⟨paired.mem_of_agree other inductionHypothesis,
          other.mem_of_agree paired inductionHypothesis.symm⟩
  have irreflexive : Std.Irrefl fun first second : Nat × Nat => first.2 < second.2 :=
    ⟨fun use => Nat.lt_irrefl use.2⟩
  have antisymmetric : Std.Antisymm fun first second : Nat × Nat => first.2 < second.2 :=
    ⟨fun _ _ before after => absurd before (Nat.lt_asymm after)⟩
  obtain rfl : uses = further := paired.ordered.eq_of_mem_iff other.ordered fun use =>
    (agree (use.2 + 1)).2 use (Nat.lt_succ_self use.2)
  refine ⟨rfl, List.right_unique_forall₂' ?_ paired.made other.made⟩
  rintro use ⟨_, _, _⟩ ⟨_, _, _⟩ ⟨latest, correct, described⟩ ⟨latest', correct', described'⟩
  dsimp only at correct correct'
  rw [correct] at correct'
  cases correct'
  obtain ⟨_, rfl⟩ := latest.unique latest'
  obtain rfl := described.unique described'
  rfl

/-! What the machine remembers. -/

/-- What waits for its opposite: the latest block to be avoided since the last pair, if there is one. -/
def Waits (passed : List Piece) (uses : List (Nat × Nat)) : Option (List Char) → Prop
  | some code => ∃ number, Latest passed uses passed.length number code
  | none => ∀ number wrong, ¬ Since passed uses passed.length number (.block (some .incorrect) wrong)

/-- What the machine has behind some pieces: their pairs, what waits, and the description so far. -/
structure Reads (passed : List Piece) (uses : List (Nat × Nat)) (pairs : List ExamplePair)
    (scan : Scan) : Prop where
  paired : Paired passed uses pairs
  waits : Waits passed uses scan.pending
  described : Described passed uses passed.length scan.description

/-- The blocks of pairs are among the pieces. -/
theorem Paired.inside {pairs : List ExamplePair} (paired : Paired passed uses pairs) :
    ∀ use ∈ uses, use.2 < passed.length := by
  intro use member
  obtain ⟨_, _, _, correct⟩ := paired.of_mem use member
  exact (List.getElem?_eq_some_iff.mp correct).1

/-- One more piece, and one more pair that ends with it, leave what is before as it is. -/
theorem agree_concat {stop : Nat} (inside : stop ≤ passed.length) (piece : Piece)
    {ends : List (Nat × Nat)} (last : ∀ use ∈ ends, use.2 = passed.length) :
    Agree stop passed (passed ++ [piece]) uses (uses ++ ends) := by
  refine ⟨fun number before => ?_, fun use before => ?_⟩
  · rw [List.getElem?_append_left (Nat.lt_of_lt_of_le before inside)]
  · rw [List.mem_append, or_iff_left]
    intro member
    rw [last use member] at before
    exact absurd before (Nat.not_lt.mpr inside)

/-- Behind one more piece that completes no pair, there is this piece besides those before. -/
theorem since_concat {pairs : List ExamplePair} (paired : Paired passed uses pairs) (piece : Piece)
    (number : Nat) (other : Piece) :
    Since (passed ++ [piece]) uses (passed ++ [piece]).length number other ↔
      Since passed uses passed.length number other ∨ number = passed.length ∧ other = piece := by
  have before := paired.inside
  rw [List.length_append, List.length_singleton]
  unfold Since
  constructor
  · rintro ⟨bound, there, behind⟩
    rcases Nat.lt_succ_iff_lt_or_eq.mp bound with early | rfl
    · rw [List.getElem?_append_left early] at there
      exact .inl ⟨early, there, fun use member _ =>
        behind use member (Nat.lt_succ_of_lt (before use member))⟩
    · rw [List.getElem?_concat_length] at there
      exact .inr ⟨rfl, (Option.some.inj there).symm⟩
  · rintro (⟨early, there, behind⟩ | ⟨rfl, rfl⟩)
    · rw [List.getElem?_append_left early]
      exact ⟨Nat.lt_succ_of_lt early, there, fun use member _ => behind use member (before use member)⟩
    · exact ⟨Nat.lt_succ_self _, List.getElem?_concat_length, fun use member _ => before use member⟩

/-- A piece that differs from the last one is among those before. -/
theorem since_concat_of_ne {pairs : List ExamplePair} (paired : Paired passed uses pairs)
    {piece other : Piece} (differs : other ≠ piece) (number : Nat) :
    Since (passed ++ [piece]) uses (passed ++ [piece]).length number other ↔
      Since passed uses passed.length number other := by
  rw [since_concat paired]
  exact or_iff_left fun last => differs last.2

/-- Behind the last block of a pair nothing stands since this pair. -/
theorem not_since_used {piece other : Piece} {chosen number : Nat} :
    ¬ Since (passed ++ [piece]) (uses ++ [(chosen, passed.length)]) (passed ++ [piece]).length number
      other := by
  rintro ⟨bound, _, behind⟩
  rw [List.length_append, List.length_singleton] at bound behind
  have after : passed.length < number :=
    behind _ (List.mem_append_right uses List.mem_cons_self) (Nat.lt_succ_self _)
  omega

/-- A piece that completes no pair leaves the pairs as they are. -/
theorem Paired.concat {pairs : List ExamplePair} (paired : Paired passed uses pairs) (piece : Piece)
    (idle : ∀ right, piece = .block (some .correct) right → ∀ number wrong,
      ¬ Since passed uses passed.length number (.block (some .incorrect) wrong)) :
    Paired (passed ++ [piece]) uses pairs := by
  have agree (stop : Nat) (inside : stop ≤ passed.length) :
      Agree stop passed (passed ++ [piece]) uses uses := by
    have same : Agree stop passed (passed ++ [piece]) uses (uses ++ []) := agree_concat inside piece nofun
    rwa [List.append_nil] at same
  refine ⟨paired.ascending, ?made, fun stop right correct number wrong since => ?complete⟩
  case made =>
    refine ((List.forall₂_and_left uses pairs).mpr ⟨paired.inside, paired.made⟩).imp ?_
    rintro use pair ⟨inside, latest, correct, described⟩
    have same := agree use.2 (Nat.le_of_lt inside)
    rw [List.getElem?_append_left inside]
    exact ⟨(same.latest _ _).mp latest, correct, (same.described _).mp described⟩
  case complete =>
    have bound := (List.getElem?_eq_some_iff.mp correct).1
    rw [List.length_append, List.length_singleton] at bound
    rcases Nat.lt_succ_iff_lt_or_eq.mp bound with early | rfl
    · rw [List.getElem?_append_left early] at correct
      exact paired.complete stop right correct number wrong
        (((agree stop (Nat.le_of_lt early)).since _ _).mpr since)
    · rw [List.getElem?_concat_length] at correct
      have before := ((agree passed.length (Nat.le_refl _)).since number _).mpr since
      exact absurd before (idle right (Option.some.inj correct) number wrong)

/-- A block to be preferred makes a pair with the block that waits. -/
theorem Paired.pair {pairs : List ExamplePair} (paired : Paired passed uses pairs)
    {wrong right description : List Char} {number : Nat}
    (latest : Latest passed uses passed.length number wrong)
    (described : Described passed uses passed.length description) :
    Paired (passed ++ [.block (some .correct) right]) (uses ++ [(number, passed.length)])
      (pairs ++ [⟨wrong, right, description⟩]) := by
  have agree (stop : Nat) (inside : stop ≤ passed.length) :
      Agree stop passed (passed ++ [.block (some .correct) right]) uses
        (uses ++ [(number, passed.length)]) :=
    agree_concat inside _ (List.forall_mem_singleton.mpr rfl)
  refine ⟨?ascending, ?made, fun stop code correct other wrong since => ?complete⟩
  case ascending =>
    obtain ⟨bound, _, behind⟩ := latest.1
    obtain ⟨own, apart⟩ := List.pairwise_flatMap.mp paired.ascending
    rw [List.flatMap_append, List.flatMap_singleton]
    refine List.pairwise_append.mpr ⟨paired.ascending, List.pairwise_pair.mpr bound, ?_⟩
    intro first member second there
    obtain ⟨use, listed, part⟩ := List.mem_flatMap.mp member
    have inside := paired.inside use listed
    have after := behind use listed inside
    have order : use.1 < use.2 := List.pairwise_pair.mp (own use listed)
    simp only [List.mem_cons, List.not_mem_nil, or_false] at part there
    omega
  case made =>
    refine List.rel_append ?_ (.cons ⟨?_, ?_, ?_⟩ .nil)
    · refine ((List.forall₂_and_left uses pairs).mpr ⟨paired.inside, paired.made⟩).imp ?_
      rintro use pair ⟨inside, before, correct, text⟩
      have same := agree use.2 (Nat.le_of_lt inside)
      rw [List.getElem?_append_left inside]
      exact ⟨(same.latest _ _).mp before, correct, (same.described _).mp text⟩
    · exact ((agree _ (Nat.le_refl _)).latest _ _).mp latest
    · exact List.getElem?_concat_length
    · exact ((agree _ (Nat.le_refl _)).described _).mp described
  case complete =>
    have bound := (List.getElem?_eq_some_iff.mp correct).1
    rw [List.length_append, List.length_singleton] at bound
    rcases Nat.lt_succ_iff_lt_or_eq.mp bound with early | rfl
    · rw [List.getElem?_append_left early] at correct
      obtain ⟨chosen, listed⟩ := paired.complete stop code correct other wrong
        (((agree stop (Nat.le_of_lt early)).since _ _).mpr since)
      exact ⟨chosen, List.mem_append_left _ listed⟩
    · exact ⟨number, List.mem_append_right _ List.mem_cons_self⟩

/-- A piece that is no block to be avoided leaves what waits as it is. -/
theorem Waits.concat {pairs : List ExamplePair} (paired : Paired passed uses pairs)
    {pending : Option (List Char)} (waits : Waits passed uses pending) {piece : Piece}
    (differs : ∀ code, .block (some .incorrect) code ≠ piece) : Waits (passed ++ [piece]) uses pending := by
  have same (number : Nat) (code : List Char) := since_concat_of_ne paired (differs code) number
  cases pending with
  | none => exact fun number wrong since => waits number wrong ((same number wrong).mp since)
  | some code =>
    obtain ⟨number, since, last⟩ := waits
    exact ⟨number, (same _ _).mpr since, fun other wrong later => last other wrong ((same _ _).mp later)⟩

/-- A block to be avoided waits from then on. -/
theorem waits_last {pairs : List ExamplePair} (paired : Paired passed uses pairs) (code : List Char) :
    Waits (passed ++ [.block (some .incorrect) code]) uses (some code) := by
  refine ⟨passed.length, (since_concat paired _ _ _).mpr (.inr ⟨rfl, rfl⟩), fun other wrong since => ?_⟩
  rcases (since_concat paired _ _ _).mp since with ⟨early, _⟩ | ⟨rfl, _⟩
  · exact Nat.le_of_lt early
  · exact Nat.le_refl _

/-- A block leaves the description as it is. -/
theorem Described.concat_block {pairs : List ExamplePair} (paired : Paired passed uses pairs)
    {text : List Char} (described : Described passed uses passed.length text) (marker : Option Marker)
    (code : List Char) :
    Described (passed ++ [.block marker code]) uses (passed ++ [Piece.block marker code]).length text := by
  have differs (line : List Char) : Piece.line line ≠ .block marker code := nofun
  have same (number : Nat) (line : List Char) :
      Since (passed ++ [.block marker code]) uses (passed ++ [Piece.block marker code]).length number
          (.line line) ↔ Since passed uses passed.length number (.line line) :=
    since_concat_of_ne paired (differs line) number
  unfold Described
  simp only [same]
  exact described

/-- A prose line is not blank. -/
theorem trim_ne_nil_of_isProse {line : List Char} (prose : isProse line = true) : trim line ≠ [] := by
  unfold isProse at prose
  simp only [Bool.and_eq_true, Bool.not_eq_true'] at prose
  intro blank
  rw [blank] at prose
  cases prose.1.1

/-- The first prose line since the last pair describes what follows. -/
theorem Described.concat_line {pairs : List ExamplePair} (paired : Paired passed uses pairs)
    {text : List Char} (described : Described passed uses passed.length text) (line : List Char) :
    Described (passed ++ [.line line]) uses (passed ++ [Piece.line line]).length
      (if isProse line ∧ text.isEmpty then trim line else text) := by
  have among := since_concat paired (.line line)
  rcases described with ⟨number, first, since, prose, rfl, least⟩ | ⟨rfl, nothing⟩
  · rw [if_neg fun again => trim_ne_nil_of_isProse prose (List.isEmpty_iff.mp again.2)]
    refine .inl ⟨number, first, (among _ _).mpr (.inl since), prose, rfl, fun other further there told => ?_⟩
    rcases (among _ _).mp there with before | ⟨rfl, _⟩
    · exact least other further before told
    · exact Nat.le_of_lt since.1
  · by_cases prose : isProse line = true
    · rw [if_pos ⟨prose, rfl⟩]
      refine .inl ⟨passed.length, line, (among _ _).mpr (.inr ⟨rfl, rfl⟩), prose, rfl, ?_⟩
      intro other further there told
      rcases (among _ _).mp there with before | ⟨rfl, _⟩
      · rw [nothing other further before] at told
        cases told
      · exact Nat.le_refl _
    · rw [if_neg fun again => prose again.1]
      refine .inr ⟨rfl, fun other further there => ?_⟩
      rcases (among _ _).mp there with before | ⟨_, same⟩
      · exact nothing other further before
      · cases same
        exact Bool.eq_false_iff.mpr prose

/-- One piece leads from what the machine has to what it has behind the piece. -/
theorem Reads.step {pairs : List ExamplePair} {scan : Scan} (reads : Reads passed uses pairs scan)
    (piece : Piece) :
    ∃ later, Reads (passed ++ [piece]) later (pairs ++ (scan.take piece).2.toList) (scan.take piece).1 := by
  obtain ⟨description, pending, opened⟩ := scan
  obtain ⟨paired, waits, described⟩ := reads
  dsimp only at waits described
  cases piece with
  | line text =>
    have told := described.concat_line paired text
    have kept : Reads (passed ++ [.line text]) uses pairs
        ⟨if isProse text ∧ description.isEmpty then trim text else description, pending, opened⟩ :=
      ⟨paired.concat _ nofun, waits.concat paired nofun, told⟩
    refine ⟨uses, ?_⟩
    unfold Scan.take
    dsimp only
    split
    · next first =>
      rw [if_pos first] at kept
      rwa [Option.toList_none, List.append_nil]
    · next other =>
      rw [if_neg other] at kept
      rwa [Option.toList_none, List.append_nil]
  | block marker code =>
    have told := described.concat_block paired marker code
    -- a block that completes no pair and does not wait itself
    have unused (differs : ∀ wrong, .block (some .incorrect) wrong ≠ Piece.block marker code)
        (idle : ∀ right, .block marker code = Piece.block (some .correct) right → pending = none) :
        Reads (passed ++ [.block marker code]) uses (pairs ++ [])
          ⟨description, pending, none⟩ := by
      refine ⟨?_, waits.concat paired differs, told⟩
      rw [List.append_nil]
      refine paired.concat _ fun right same => ?_
      rw [idle right same] at waits
      exact waits
    unfold Scan.take
    dsimp only
    cases marker with
    | none => exact ⟨uses, unused nofun nofun⟩
    | some marker =>
      cases marker with
      | incorrect =>
        refine ⟨uses, ?_, waits_last paired code, told⟩
        have same := paired.concat (.block (some .incorrect) code) nofun
        rwa [← List.append_nil pairs] at same
      | correct =>
        cases pending with
        | none => exact ⟨uses, unused nofun fun _ _ => rfl⟩
        | some wrong =>
          obtain ⟨number, latest⟩ := waits
          refine ⟨uses ++ [(number, passed.length)], paired.pair latest described, ?_, ?_⟩
          · exact fun _ _ => not_since_used
          · exact .inr ⟨rfl, fun _ _ since => absurd since not_since_used⟩

/-- The pieces that follow lead to the pairs of all of them. -/
theorem Reads.run {pairs : List ExamplePair} {scan : Scan} (reads : Reads passed uses pairs scan)
    (rest : List Piece) : ∃ later, Paired (passed ++ rest) later (pairs ++ pairsOf scan rest) := by
  induction rest generalizing passed uses pairs scan with
  | nil =>
    rw [List.append_nil, pairsOf, List.append_nil]
    exact ⟨uses, reads.paired⟩
  | cons piece rest inductionHypothesis =>
    obtain ⟨between, next⟩ := reads.step piece
    obtain ⟨later, paired⟩ := inductionHypothesis next
    rw [List.append_assoc, List.append_assoc, List.singleton_append] at paired
    exact ⟨later, paired⟩

/-- Before the first piece nothing is remembered. -/
theorem reads_nil : Reads [] [] [] ⟨[], none, none⟩ := by
  have nothing (number : Nat) (piece : Piece) : ¬ Since [] [] 0 number piece := fun since =>
    absurd since.1 (Nat.not_lt_zero _)
  refine ⟨⟨.nil, .nil, fun stop right correct => nomatch correct⟩, ?_, .inr ⟨rfl, ?_⟩⟩
  · exact fun number wrong => nothing number _
  · exact fun number line since => absurd since (nothing number _)

/-- A section is cut at its fences in one way, and its pieces decide the pairs of examples: these are
the pairs that are found in it. -/
theorem examplePairs_paired (body : List Char) :
    ∃ pieces uses, (∀ others, Cut [] (splitLines body) others ↔ others = pieces) ∧
      Paired pieces uses (examplePairs body) ∧
      ∀ further more, Paired pieces further more → further = uses ∧ more = examplePairs body := by
  obtain ⟨pieces, cut⟩ := (exists_cut_of_open (splitLines body)).1 []
  obtain ⟨uses, paired⟩ := reads_nil.run pieces
  rw [List.nil_append, List.nil_append, ← pairsFrom_eq_pairsOf cut rfl] at paired
  refine ⟨pieces, uses, fun others => ⟨fun other => other.unique cut, ?_⟩, paired, ?_⟩
  · rintro rfl
    exact cut
  · exact fun further more other => other.unique paired

/-- The later of two blocks to be avoided makes the pair. -/
example : examplePairs "bad:\n```\na\n```\nbad:\n```\nb\n```\ngood:\n```\nc\n```".toList = [⟨['b'], ['c'], []⟩] := by
  decide +kernel

end Conformance.Document
