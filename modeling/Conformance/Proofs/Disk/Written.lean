import Conformance.Disk.Path

/-!
# Written paths

A path is written if its names are what stands between slashes in a text: not empty, no
single point and without a slash. Every path that is read from a text is written, and a
written path is read back from its own text, so texts tell written paths apart.
-/

namespace Conformance.Path

/-- A name that can stand in a path. -/
def IsName (name : String) : Prop := name ≠ "" ∧ name ≠ "." ∧ '/' ∉ name.toList

instance (name : String) : Decidable (IsName name) := inferInstanceAs (Decidable (_ ∧ _))

/-- The names of a path are names, below one of the three anchors. -/
def Written (path : Path) : Prop :=
  path.anchor ∈ ["", "/", "//"] ∧ ∀ name ∈ path.parts, IsName name

instance (path : Path) : Decidable path.Written := inferInstanceAs (Decidable (_ ∧ _))

/-- There is always a first piece, which the next character is put before. -/
theorem pieces_cons (c : Char) (text : List Char) :
    ∃ piece rest, pieces text = piece :: rest ∧
      pieces (c :: text) = if c = '/' then [] :: piece :: rest else (c :: piece) :: rest := by
  have some (text : List Char) : pieces text ≠ [] := by
    cases text with
    | nil => simp [pieces]
    | cons c text =>
      simp only [pieces, List.foldr_cons]
      split
      · simp
      · split <;> simp
  obtain ⟨piece, rest, split⟩ := List.exists_cons_of_ne_nil (some text)
  refine ⟨piece, rest, split, ?_⟩
  rw [pieces, List.foldr_cons, ← pieces, split]

/-- A slash begins a new piece. -/
theorem pieces_slash (text : List Char) : pieces ('/' :: text) = [] :: pieces text := by
  obtain ⟨piece, rest, split, joined⟩ := pieces_cons '/' text
  rw [joined, if_pos rfl, split]

/-- Characters before a slash are one piece. -/
theorem pieces_append (piece rest : List Char) (plain : '/' ∉ piece) :
    pieces (piece ++ '/' :: rest) = piece :: pieces rest := by
  induction piece with
  | nil => exact pieces_slash rest
  | cons c piece inductionHypothesis =>
    simp only [List.mem_cons, not_or] at plain
    obtain ⟨first, others, split, joined⟩ := pieces_cons c (piece ++ '/' :: rest)
    rw [inductionHypothesis plain.2] at split
    obtain ⟨rfl, rfl⟩ := List.cons.inj split
    rw [List.cons_append, joined, if_neg (Ne.symm plain.1)]

/-- Characters without a slash are one piece. -/
theorem pieces_plain (piece : List Char) (plain : '/' ∉ piece) : pieces piece = [piece] := by
  induction piece with
  | nil => rfl
  | cons c piece inductionHypothesis =>
    simp only [List.mem_cons, not_or] at plain
    obtain ⟨first, others, split, joined⟩ := pieces_cons c piece
    rw [inductionHypothesis plain.2] at split
    obtain ⟨rfl, rfl⟩ := List.cons.inj split
    rw [joined, if_neg (Ne.symm plain.1)]

/-- No piece has a slash in it. -/
theorem slash_not_mem_piece (text : List Char) : ∀ piece ∈ pieces text, '/' ∉ piece := by
  induction text with
  | nil => simp [pieces]
  | cons c text inductionHypothesis =>
    obtain ⟨first, others, split, joined⟩ := pieces_cons c text
    rw [split] at inductionHypothesis
    rw [joined]
    by_cases slash : c = '/'
    · simpa [slash] using inductionHypothesis
    · rw [if_neg slash]
      intro piece member
      rcases List.mem_cons.mp member with rfl | later
      · simpa [Ne.symm slash] using inductionHypothesis first List.mem_cons_self
      · exact inductionHypothesis piece (List.mem_cons_of_mem first later)

/-- Every path that is read from a text is written. -/
theorem written_ofString (text : String) : (ofString text).Written := by
  refine ⟨?_, ?_⟩
  · simp only [ofString, ofList]
    split <;> simp
  · intro name member
    obtain ⟨piece, kept, rfl⟩ := List.mem_map.mp member
    obtain ⟨member, real⟩ := List.mem_filter.mp kept
    simp only [bne_iff_ne, ne_eq, Bool.and_eq_true] at real
    refine ⟨?_, ?_, ?_⟩
    · intro blank
      exact real.1 (by simpa using congrArg String.toList blank)
    · intro point
      exact real.2 (by simpa using congrArg String.toList point)
    · rw [String.toList_ofList]
      exact slash_not_mem_piece _ piece member

/-- The pieces of names with slashes between them are the names. -/
theorem pieces_names (names : List String) (proper : ∀ name ∈ names, IsName name) :
    ((pieces (['/'].intercalate (names.map String.toList))).filter
      fun piece => piece != [] && piece != ['.']) = names.map String.toList := by
  have kept (name : String) (proper : IsName name) :
      (name.toList != [] && name.toList != ['.']) = true := by
    obtain ⟨filled, visible, _⟩ := proper
    simp only [Bool.and_eq_true, bne_iff_ne]
    refine ⟨fun empty => filled (String.ext (by simpa using empty)), fun point => visible ?_⟩
    exact String.ext (by simpa using point)
  induction names with
  | nil => rfl
  | cons name names inductionHypothesis =>
    have first : IsName name := proper name List.mem_cons_self
    have later : ∀ other ∈ names, IsName other :=
      fun other member => proper other (List.mem_cons_of_mem name member)
    cases names with
    | nil =>
      simp only [List.map_cons, List.map_nil, List.intercalate_singleton]
      rw [pieces_plain _ first.2.2, List.filter_cons, if_pos (kept name first), List.filter_nil]
    | cons next more =>
      have joined : ['/'].intercalate ((name :: next :: more).map String.toList) =
          name.toList ++ '/' :: ['/'].intercalate ((next :: more).map String.toList) := by
        simp [List.intercalate]
      rw [joined, pieces_append _ _ first.2.2, List.filter_cons, if_pos (kept name first),
        inductionHypothesis later]
      rfl

/-- Names with slashes between them do not begin with a slash. -/
theorem names_head (names : List String) (proper : ∀ name ∈ names, IsName name)
    (rest : List Char) : ['/'].intercalate (names.map String.toList) ≠ '/' :: rest := by
  cases names with
  | nil => simp [List.intercalate]
  | cons name names =>
    obtain ⟨filled, _, plain⟩ := proper name List.mem_cons_self
    cases letters : name.toList with
    | nil => exact absurd (String.ext (by simpa using letters)) filled
    | cons c letters' =>
      intro slash
      rw [letters] at plain
      cases names <;> simp_all [List.intercalate]

/-- A written path is read back from its text. The anchor is told by the slashes at the
start, because no name begins with one. -/
theorem ofString_text (path : Path) (written : path.Written) : ofString path.text = path := by
  obtain ⟨anchor, parts⟩ := path
  obtain ⟨anchored, proper⟩ := written
  have named := pieces_names parts proper
  have started := names_head parts proper
  have readBack : (parts.map String.toList).map String.ofList = parts := by simp
  simp only [List.mem_cons, List.not_mem_nil, or_false] at anchored
  generalize body : ['/'].intercalate (parts.map String.toList) = letters at named started
  rcases anchored with rfl | rfl | rfl
  · by_cases bare : parts = []
    · subst bare
      rfl
    · have spelled : (text ⟨"", parts⟩).toList = letters := by
        simp [text, bare, ← body]
      have anchor : ofList letters = ⟨"", parts⟩ := by
        unfold ofList
        rw [named, readBack]
        cases letters with
        | nil => rfl
        | cons c rest =>
          split
          · next equal => exact absurd equal (started _)
          · next equal => exact absurd equal (started _)
          · next equal => exact absurd equal (started _)
          · rfl
      rw [ofString, spelled, anchor]
  · have spelled : (text ⟨"/", parts⟩).toList = '/' :: letters := by
      simp [text, ← body]
    have anchor : ofList ('/' :: letters) = ⟨"/", parts⟩ := by
      unfold ofList
      rw [pieces_slash, List.filter_cons_of_neg (by simp), named, readBack]
      split
      · next equal => exact absurd (List.cons.inj equal).2 (started _)
      · next equal => exact absurd (List.cons.inj equal).2 (started _)
      · rfl
      · next plain => exact absurd rfl (plain letters)
    rw [ofString, spelled, anchor]
  · have spelled : (text ⟨"//", parts⟩).toList = '/' :: '/' :: letters := by
      simp [text, ← body]
    have anchor : ofList ('/' :: '/' :: letters) = ⟨"//", parts⟩ := by
      unfold ofList
      rw [pieces_slash, pieces_slash, List.filter_cons_of_neg (by simp),
        List.filter_cons_of_neg (by simp), named, readBack]
      split
      · next equal => exact absurd (List.cons.inj (List.cons.inj equal).2).2 (started _)
      · rfl
      · next excluded equal => exact absurd (List.cons.inj equal).2.symm (excluded letters)
      · next excluded => exact absurd rfl (excluded _)
    rw [ofString, spelled, anchor]

end Conformance.Path
