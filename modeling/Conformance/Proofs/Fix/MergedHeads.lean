import Conformance.Proofs.Fix.FunctionHeads

/-!
# Heads that are found in two passes

The arrow functions are looked for in a text whose declared functions have their return types by then. Behind
the parameters of such a function stands a colon, and behind those of an arrow function its arrow, so that the
head of an arrow function shares no character with a head that has its return type. So both passes together
are one: the heads that they find stand side by side in the text itself.
-/

namespace Conformance.Fix

open Text

variable {head arrow : Head} {first second merged segments : List Segment} {text behind other : List Char}

/-- Behind the parameters of an arrow function stands no colon. -/
theorem colon_not_behind (isArrow : arrow.isArrow = true) (behind : List Char) :
    (arrow.joint ++ behind).head? ≠ some ':' := by
  cases arrow with
  | function => cases isArrow
  | arrow _ _ _ _ _ _ fourth _ =>
    rw [Head.joint]
    cases gap : fourth.val with
    | nil => exact fun same => absurd (Option.some.inj same) (by decide)
    | cons c rest =>
      have blank := fourth.property c (gap ▸ List.mem_cons_self)
      intro same
      rw [Option.some.inj same] at blank
      exact absurd blank (by decide)

/-- The parameters of an arrow function do not close where those of a head with a return type do. -/
theorem closes_apart (isArrow : arrow.isArrow = true) {before onward : List Char} (free : ')' ∉ before)
    (closes : ')' ∉ other) :
    before ++ ')' :: (arrow.joint ++ behind) ≠ other ++ ')' :: ':' :: onward := by
  intro found
  obtain ⟨_, same⟩ := append_cons_inj free closes found
  exact colon_not_behind isArrow behind (congrArg List.head? same)

/-- The head of an arrow function does not begin inside one that has its return type. -/
theorem arrow_not_inside (isArrow : arrow.isArrow = true) {front suffix : List Char}
    (split : head.typed = front ++ suffix) (filled : suffix ≠ []) : arrow.bare ++ behind ≠ suffix ++ other := by
  intro same
  obtain ⟨lead, whole, free⟩ := typed_eq head
  obtain ⟨opening, spelled, closes⟩ := bare_eq arrow
  rw [whole] at split
  rcases List.append_eq_append_iff.mp split with ⟨passed, _, ahead⟩ | ⟨lead', rfl, rfl⟩
  · cases passed with
    | nil =>
      obtain rfl := ahead
      rw [spelled, List.append_assoc, List.cons_append] at same
      exact closes_apart isArrow closes List.not_mem_nil same
    | cons d passed =>
      -- What stands behind the parenthesis has no letter that an arrow function could begin with.
      obtain ⟨_, ahead⟩ := List.cons.inj ahead
      obtain ⟨c, rest, rfl⟩ := List.exists_cons_of_ne_nil filled
      have within : c ∈ ':' :: ' ' :: (emptyReturnType head.isAsync ++ head.spacedJoint) := by
        rw [ahead]
        exact List.mem_append_right _ List.mem_cons_self
      have begins : ∃ rest, arrow.bare = 'c' :: rest := by
        cases arrow with
        | function => cases isArrow
        | arrow => exact ⟨_, rfl⟩
      obtain ⟨onward, begins⟩ := begins
      rw [begins] at same
      rw [← (List.cons.inj same).1] at within
      have joint : 'c' ∉ head.spacedJoint := by
        cases head <;> (rw [Head.spacedJoint]; decide)
      have type : 'c' ∉ emptyReturnType head.isAsync := by
        cases head.isAsync <;> decide
      simp only [List.mem_cons, List.mem_append, type, joint, or_self, or_false] at within
      exact absurd within (by decide)
  · rw [spelled, List.append_assoc, List.append_assoc, List.cons_append] at same
    refine closes_apart isArrow closes ?_ same
    exact fun member => free (List.mem_append_right _ member)

/-- Parts whose text goes on from inside a head with a return type begin with its characters, if all heads in
them are those of arrow functions. The induction is on what is left of the head. -/
theorem plain_of_typed (arrows : ∀ one, .head one ∈ segments → one.isArrow = true) {front suffix : List Char}
    (split : head.typed = front ++ suffix) (same : bareText segments = suffix ++ other) :
    ∃ rest, segments = suffix.map .plain ++ rest ∧ bareText rest = other := by
  induction suffix generalizing front segments with
  | nil => exact ⟨segments, rfl, same⟩
  | cons c suffix inductionHypothesis =>
    cases segments with
    | nil => cases same
    | cons segment segments =>
      cases segment with
      | plain d =>
        rw [bareText_plain, List.cons_append] at same
        obtain ⟨rfl, further⟩ := List.cons.inj same
        obtain ⟨rest, rfl, behind⟩ := inductionHypothesis
          (fun one member => arrows one (List.mem_cons_of_mem _ member)) (by rw [split, List.append_cons]) further
        exact ⟨rest, rfl, behind⟩
      | head one =>
        exact absurd same (arrow_not_inside (arrows one List.mem_cons_self) split (List.cons_ne_nil _ _))

/-- A text at the beginning of some parts consists of characters, or a head begins in it. -/
theorem plain_or_head (same : typedText segments = text ++ other) :
    (∃ rest, segments = text.map .plain ++ rest ∧ typedText rest = other) ∨
      ∃ (before within : List Char) (one : Head) (rest : List Segment), text = before ++ within ∧ within ≠ [] ∧
        within ++ other = one.typed ++ typedText rest := by
  induction text generalizing segments with
  | nil => exact .inl ⟨segments, rfl, same⟩
  | cons c text inductionHypothesis =>
    cases segments with
    | nil => cases same
    | cons segment segments =>
      cases segment with
      | plain d =>
        rw [typedText_plain, List.cons_append] at same
        obtain ⟨rfl, further⟩ := List.cons.inj same
        rcases inductionHypothesis further with ⟨rest, rfl, behind⟩ | ⟨before, within, one, rest, rfl, filled, ahead⟩
        · exact .inl ⟨rest, rfl, behind⟩
        · exact .inr ⟨d :: before, within, one, rest, rfl, filled, ahead⟩
      | head one => exact .inr ⟨[], _, one, segments, rfl, List.cons_ne_nil _ _, same.symm⟩

/-- No head with a return type begins in the head of an arrow function. -/
theorem plain_of_arrow (isArrow : arrow.isArrow = true) (same : typedText segments = arrow.bare ++ other) :
    ∃ rest, segments = arrow.bare.map .plain ++ rest ∧ typedText rest = other := by
  rcases plain_or_head same with found | ⟨before, within, one, rest, split, filled, ahead⟩
  · exact found
  · exfalso
    obtain ⟨opening, spelled, closes⟩ := bare_eq arrow
    obtain ⟨lead, whole, free⟩ := typed_eq one
    obtain ⟨c, letter, _, _, begins⟩ := exists_first_letter one
    obtain ⟨d, within, rfl⟩ := List.exists_cons_of_ne_nil filled
    have first : d = c := by
      rw [begins] at ahead
      exact (List.cons.inj ahead).1
    subst first
    rw [spelled] at split
    rcases List.append_eq_append_iff.mp split with ⟨passed, _, behind⟩ | ⟨onward, rfl, behind⟩
    · cases passed with
      | nil =>
        obtain ⟨rfl, _⟩ := List.cons.inj behind
        exact absurd letter (by decide)
      | cons e passed =>
        obtain ⟨_, behind⟩ := List.cons.inj behind
        refine letter_not_mem_joint arrow letter ?_
        rw [behind]
        exact List.mem_append_right _ List.mem_cons_self
    · rw [behind, whole, List.append_assoc, List.append_assoc, List.cons_append, List.cons_append,
        List.cons_append] at ahead
      refine closes_apart isArrow ?_ free ahead
      exact fun member => closes (List.mem_append_right _ member)

/-- The heads of two passes side by side, where the second pass has read the text that the first one has made. -/
inductive Merged : List Segment → List Segment → List Segment → Prop where
  | ended : Merged [] [] []
  | plain {c : Char} {first second merged : List Segment} (onward : Merged first second merged) :
      Merged (.plain c :: first) (.plain c :: second) (.plain c :: merged)
  | earlier {head : Head} {first second merged : List Segment} (onward : Merged first second merged) :
      Merged (.head head :: first) (head.typed.map .plain ++ second) (.head head :: merged)
  | later {head : Head} {first second merged : List Segment} (onward : Merged first second merged) :
      Merged (head.bare.map .plain ++ first) (.head head :: second) (.head head :: merged)

/-- The text is that of the first pass, its return types those of the second one. -/
theorem Merged.texts (both : Merged first second merged) : bareText merged = bareText first ∧
    typedText merged = typedText second ∧ typedText first = bareText second := by
  induction both with
  | ended => exact ⟨rfl, rfl, rfl⟩
  | plain _ inductionHypothesis => simp [inductionHypothesis]
  | earlier _ inductionHypothesis => simp [inductionHypothesis]
  | later _ inductionHypothesis => simp [inductionHypothesis]

/-- Two passes are one. The induction is on the length of what the second pass has read. -/
theorem exists_merged (same : typedText first = bareText second)
    (arrows : ∀ one, .head one ∈ second → one.isArrow = true) : ∃ merged, Merged first second merged := by
  induction size : second.length using Nat.strong_induction_on generalizing first second with
  | _ length inductionHypothesis =>
    subst size
    cases second with
    | nil =>
      cases first with
      | nil => exact ⟨[], .ended⟩
      | cons segment first =>
        cases segment with
        | plain c => cases same
        | head head =>
          obtain ⟨_, _, _, _, begins⟩ := exists_first_letter head
          rw [typedText_head, begins] at same
          cases same
    | cons segment second =>
      have further : ∀ one, .head one ∈ second → one.isArrow = true :=
        fun one member => arrows one (List.mem_cons_of_mem _ member)
      cases segment with
      | head arrow =>
        obtain ⟨rest, rfl, behind⟩ := plain_of_arrow (arrows arrow List.mem_cons_self) same
        obtain ⟨merged, both⟩ := inductionHypothesis second.length (Nat.lt_succ_self _) behind further rfl
        exact ⟨_, .later both⟩
      | plain c =>
        cases first with
        | nil => cases same
        | cons segment first =>
          cases segment with
          | plain d =>
            obtain ⟨rfl, onward⟩ := List.cons.inj same
            obtain ⟨merged, both⟩ := inductionHypothesis second.length (Nat.lt_succ_self _) onward further rfl
            exact ⟨_, .plain both⟩
          | head head =>
            obtain ⟨rest, split, behind⟩ := plain_of_typed arrows (List.nil_append _).symm same.symm
            rw [split] at arrows ⊢
            have shorter : rest.length < (Segment.plain c :: second).length := by
              obtain ⟨_, _, _, _, begins⟩ := exists_first_letter head
              rw [split, begins, List.length_append, List.map_cons, List.length_cons]
              omega
            obtain ⟨merged, both⟩ := inductionHypothesis rest.length shorter behind.symm
              (fun one member => arrows one (List.mem_append_right _ member)) rfl
            exact ⟨_, .earlier both⟩

/-- A head comes from one of the passes, with what stands around it there. -/
theorem Merged.split {front back : List Segment} (both : Merged first second (front ++ .head head :: back)) :
    (∃ front' back' second', first = front' ++ .head head :: back' ∧ bareText front = bareText front' ∧
        Merged back' second' back) ∨
      ∃ front' back' first', second = front' ++ .head head :: back' ∧ Merged first' back' back := by
  induction front generalizing first second with
  | nil =>
    cases both with
    | earlier onward => exact .inl ⟨[], _, _, rfl, rfl, onward⟩
    | later onward => exact .inr ⟨[], _, _, rfl, onward⟩
  | cons segment front inductionHypothesis =>
    cases both with
    | plain onward =>
      rcases inductionHypothesis onward with ⟨front', back', second', rfl, same, rest⟩ | ⟨front', back', first',
        rfl, rest⟩
      · exact .inl ⟨_ :: front', back', second', rfl, by rw [bareText_plain, bareText_plain, same], rest⟩
      · exact .inr ⟨_ :: front', back', first', rfl, rest⟩
    | earlier onward =>
      rcases inductionHypothesis onward with ⟨front', back', second', rfl, same, rest⟩ | ⟨front', back', first',
        rfl, rest⟩
      · exact .inl ⟨_ :: front', back', second', rfl, by rw [bareText_head, bareText_head, same], rest⟩
      · exact .inr ⟨_ ++ front', back', first', (List.append_assoc ..).symm, rest⟩
    | later onward =>
      rcases inductionHypothesis onward with ⟨front', back', second', rfl, same, rest⟩ | ⟨front', back', first',
        rfl, rest⟩
      · refine .inl ⟨_ ++ front', back', second', (List.append_assoc ..).symm, ?_, rest⟩
        rw [bareText_head, bareText_append, bareText_map_plain, same]
      · exact .inr ⟨_ :: front', back', first', rfl, rest⟩

end Conformance.Fix
