import Conformance.Proofs.Fix.ConsoleCalls

/-!
# The bodies of calls

What stands between the parentheses of a call is made of characters, quoted texts and further calls in
parentheses. The end of a call is found by counting parentheses outside quoted texts, and what is counted
off is always the body of a call: at every place of the count the parentheses that are open stand before
that many rests of bodies, and a mark that is open stands before the rest of its quoted text.
-/

namespace Conformance.Fix

/-- What may stand between two marks of a quoted text: characters other than the mark, and any character
behind a backslash. -/
inductive QuotedBy (mark : Char) : List Char → Prop where
  | done : QuotedBy mark []
  | plain {c : Char} {rest : List Char} (unescaped : c ≠ '\\') (other : c ≠ mark)
      (onward : QuotedBy mark rest) : QuotedBy mark (c :: rest)
  | escaped (c : Char) {rest : List Char} (onward : QuotedBy mark rest) : QuotedBy mark ('\\' :: c :: rest)

/-- A part of the body of a call: a character that is neither a parenthesis nor a quote, a quoted text, or
the body of another call. -/
inductive CallItem : List Char → Prop where
  | plain {c : Char} (quote : isQuote c = false) (opening : c ≠ '(') (closing : c ≠ ')') : CallItem [c]
  | quoted {mark : Char} {inner : List Char} (quote : isQuote mark = true) (body : QuotedBy mark inner) :
      CallItem (mark :: (inner ++ [mark]))
  | call (items : List (List Char)) (each : ∀ item ∈ items, CallItem item) :
      CallItem ('(' :: (items.flatten ++ [')']))

/-- The body of a call: parts in parentheses. -/
def IsCallBody (text : List Char) : Prop :=
  ∃ items : List (List Char), (∀ item ∈ items, CallItem item) ∧ text = '(' :: (items.flatten ++ [')'])

/-- A text that closes so many parentheses, the last of them with its last character: before each closing
parenthesis there are parts of a body. -/
inductive Closes : Nat → List Char → Prop where
  | all : Closes 0 []
  | one {depth : Nat} {outer : List Char} (items : List (List Char)) (each : ∀ item ∈ items, CallItem item)
      (onward : Closes depth outer) : Closes (depth + 1) (items.flatten ++ ')' :: outer)

/-- A text that closes the quoted text of an open mark, if there is one, and so many parentheses. -/
def ClosesFrom (depth : Nat) : Option Char → List Char → Prop
  | none, text => Closes depth text
  | some mark, text => ∃ inner outer, QuotedBy mark inner ∧ Closes depth outer ∧ text = inner ++ mark :: outer

/-- A part of a body goes before what closes its parenthesis. -/
theorem Closes.prepend {depth : Nat} {item text : List Char} (part : CallItem item)
    (closes : Closes depth text) (inside : 1 ≤ depth) : Closes depth (item ++ text) := by
  cases closes with
  | all => cases inside
  | one items each onward =>
    have each' : ∀ other ∈ item :: items, CallItem other := List.forall_mem_cons.mpr ⟨part, each⟩
    simpa using Closes.one (item :: items) each' onward

/-- An opening parenthesis goes before what closes it as well: the first parts become a call among the parts
behind it. -/
theorem Closes.enclose {depth : Nat} {text : List Char} (closes : Closes (depth + 1) text)
    (inside : 1 ≤ depth) : Closes depth ('(' :: text) := by
  cases closes with
  | one items each onward => simpa using onward.prepend (.call items each) inside

/-- The body of a call is its first parenthesis with what closes it. -/
theorem isCallBody_iff {text : List Char} : IsCallBody text ↔ ∃ inner, text = '(' :: inner ∧ Closes 1 inner := by
  constructor
  · rintro ⟨items, each, rfl⟩
    exact ⟨_, rfl, .one items each .all⟩
  · rintro ⟨_, rfl, closes⟩
    cases closes with
    | one items each onward =>
      cases onward
      exact ⟨items, each, rfl⟩

/-! What closes is counted off. -/

/-- A quoted text is passed up to its mark. -/
theorem callEndFrom_quotedBy {mark : Char} {inner : List Char} (body : QuotedBy mark inner)
    (quote : isQuote mark = true) (depth : Int) (passed : Nat) (rest : List Char) :
    callEndFrom depth (some mark) passed (inner ++ mark :: rest) =
      callEndFrom depth none (passed + (inner.length + 1)) rest := by
  induction body generalizing passed with
  | done =>
    have unescaped : mark ≠ '\\' := by
      rintro rfl
      cases quote
    rw [List.nil_append, callEndFrom_quoted unescaped, if_pos rfl]
    rfl
  | plain unescaped other onward inductionHypothesis =>
    rw [List.cons_append, callEndFrom_quoted unescaped, if_neg other, inductionHypothesis, List.length_cons]
    congr 1
    omega
  | escaped c onward inductionHypothesis =>
    rw [List.cons_append, List.cons_append, callEndFrom_escaped, inductionHypothesis, List.length_cons,
      List.length_cons]
    congr 1
    omega

/-- Parts that are passed each are passed together. -/
theorem callEndFrom_flatten {items : List (List Char)} {depth : Int}
    (passes : ∀ item ∈ items, ∀ passed rest, callEndFrom depth none passed (item ++ rest) =
      callEndFrom depth none (passed + item.length) rest) (passed : Nat) (rest : List Char) :
    callEndFrom depth none passed (items.flatten ++ rest) =
      callEndFrom depth none (passed + items.flatten.length) rest := by
  induction items generalizing passed with
  | nil => rfl
  | cons item items inductionHypothesis =>
    obtain ⟨first, others⟩ := List.forall_mem_cons.mp passes
    rw [List.flatten_cons, List.append_assoc, first, inductionHypothesis others, List.length_append,
      Nat.add_assoc]

/-- A part of a body is passed within open parentheses. -/
theorem CallItem.passes {item : List Char} (part : CallItem item) {depth : Int} (inside : 1 ≤ depth)
    (passed : Nat) (rest : List Char) :
    callEndFrom depth none passed (item ++ rest) = callEndFrom depth none (passed + item.length) rest := by
  induction part generalizing depth passed rest with
  | plain quote opening closing => exact callEndFrom_plain quote opening closing
  | quoted quote body =>
    rw [List.cons_append, List.append_assoc, List.singleton_append, callEndFrom_quote quote,
      callEndFrom_quotedBy body quote]
    simp [Nat.add_assoc, Nat.add_comm 1]
  | call items each inductionHypothesis =>
    have deeper : 1 ≤ depth + 1 := by omega
    have all := callEndFrom_flatten fun item member => inductionHypothesis item member deeper
    rw [List.cons_append, List.append_assoc, List.singleton_append, callEndFrom_opening, all,
      callEndFrom_closing (by omega), Int.add_sub_cancel]
    simp [Nat.add_assoc, Nat.add_comm 1]

/-- What closes the open parentheses is counted off. -/
theorem Closes.callEndFrom_eq {depth : Nat} {text : List Char} (closes : Closes (depth + 1) text)
    (passed : Nat) (rest : List Char) :
    callEndFrom ((depth : Int) + 1) none passed (text ++ rest) = some (passed + text.length) := by
  generalize more : depth + 1 = count at closes
  induction closes generalizing depth passed with
  | all => cases more
  | @one further outer items each onward inductionHypothesis =>
    obtain rfl : depth = further := Nat.succ.inj more
    have inside : 1 ≤ (depth : Int) + 1 := by omega
    have all := callEndFrom_flatten fun item member => (each item member).passes inside
    rw [List.append_assoc, all, List.cons_append]
    cases depth with
    | zero =>
      cases onward
      rw [Int.ofNat_zero, Int.zero_add, callEndFrom_last]
      simp [Nat.add_assoc]
    | succ depth =>
      rw [callEndFrom_closing (by omega), Int.add_sub_cancel, Int.natCast_succ, inductionHypothesis _ rfl]
      simp [Nat.add_assoc, Nat.add_comm 1]

/-! What is counted off closes. -/

/-- The count takes a first part of a text, which closes what is open. -/
def CountsOff (depth : Int) (quote : Option Char) (passed : Nat) (text : List Char) (length : Nat) : Prop :=
  ∃ front rest, text = front ++ rest ∧ length = passed + front.length ∧ ClosesFrom depth.toNat quote front

/-- Characters go before what is counted off, if they do so before what closes. -/
theorem CountsOff.step {depth after : Int} {quote mark : Option Char} {passed length : Nat}
    (first : List Char) {text : List Char}
    (counts : CountsOff after mark (passed + first.length) text length)
    (moves : ∀ front, ClosesFrom after.toNat mark front → ClosesFrom depth.toNat quote (first ++ front)) :
    CountsOff depth quote passed (first ++ text) length := by
  obtain ⟨front, rest, rfl, counted, closes⟩ := counts
  refine ⟨first ++ front, rest, (List.append_assoc ..).symm, ?_, moves front closes⟩
  rw [List.length_append]
  omega

/-- What is counted off closes what is open. Each step of the count puts its characters before what the rest
of the count takes: a character, a quoted text and a call as parts of a body, a closing parenthesis before
what closes the others. -/
theorem callEndFrom_countsOff {depth : Int} {quote : Option Char} {passed length : Nat} {text : List Char}
    (inside : 1 ≤ depth) (closed : callEndFrom depth quote passed text = some length) :
    CountsOff depth quote passed text length := by
  induction depth, quote, passed, text using callEndFrom.induct with
  | case1 => simp [callEndFrom] at closed
  | case2 => simp [callEndFrom] at closed
  | case3 depth mark passed c rest inductionHypothesis =>
    refine (inductionHypothesis inside (callEndFrom_escaped.symm.trans closed)).step ['\\', c] ?_
    rintro _ ⟨inner, outer, body, closes, rfl⟩
    exact ⟨'\\' :: c :: inner, outer, .escaped c body, closes, rfl⟩
  | case4 depth mark passed c rest unescaped inductionHypothesis =>
    have onward := inductionHypothesis inside ((callEndFrom_quoted unescaped).symm.trans closed)
    by_cases ends : c = mark
    · rw [if_pos ends] at onward
      refine onward.step [c] fun front closes => ?_
      exact ⟨[], front, .done, closes, by rw [ends]; rfl⟩
    · rw [if_neg ends] at onward
      refine onward.step [c] ?_
      rintro _ ⟨inner, outer, body, closes, rfl⟩
      exact ⟨c :: inner, outer, .plain unescaped ends body, closes, rfl⟩
  | case5 depth passed c rest quote inductionHypothesis =>
    refine (inductionHypothesis inside ((callEndFrom_quote quote).symm.trans closed)).step [c] ?_
    rintro _ ⟨inner, outer, body, closes, rfl⟩
    simpa [ClosesFrom] using closes.prepend (.quoted quote body) (by omega)
  | case6 depth passed rest plain inductionHypothesis =>
    have more : (depth + 1).toNat = depth.toNat + 1 := by omega
    refine (inductionHypothesis (by omega) (callEndFrom_opening.symm.trans closed)).step ['('] ?_
    rw [more]
    exact fun front closes => Closes.enclose closes (by omega)
  | case7 passed rest plain other =>
    rw [callEndFrom_last] at closed
    exact ⟨[')'], rest, rfl, (Option.some.inj closed).symm, .one [] (by simp) .all⟩
  | case8 depth passed rest deeper plain other inductionHypothesis =>
    have less : depth.toNat = (depth - 1).toNat + 1 := by omega
    refine (inductionHypothesis (by omega) ((callEndFrom_closing deeper).symm.trans closed)).step [')'] ?_
    rw [less]
    exact fun front closes => .one [] (by simp) closes
  | case9 depth passed c rest plain opening closing inductionHypothesis =>
    rw [Bool.not_eq_true] at plain
    refine (inductionHypothesis inside ((callEndFrom_plain plain opening closing).symm.trans closed)).step [c] ?_
    exact fun front closes => Closes.prepend (.plain plain opening closing) closes (by omega)

/-- A first part of a text is counted off as a call exactly if it is the body of one. -/
theorem callEnd?_eq_some_iff {text : List Char} (opens : text.head? = some '(') {length : Nat} :
    callEnd? text = some length ↔ length ≤ text.length ∧ IsCallBody (text.take length) := by
  obtain ⟨behind, rfl⟩ := List.head?_eq_some_iff.mp opens
  rw [callEnd?, callEndFrom_opening]
  constructor
  · intro closed
    obtain ⟨inner, rest, rfl, counted, closes⟩ := callEndFrom_countsOff (by decide) closed
    obtain rfl : length = ('(' :: inner).length := by
      rw [counted, List.length_cons, Nat.zero_add, Nat.add_comm]
    rw [← List.cons_append, List.take_left, List.length_append]
    exact ⟨Nat.le_add_right _ _, isCallBody_iff.mpr ⟨inner, rfl, closes⟩⟩
  · rintro ⟨within, body⟩
    obtain ⟨inner, taken, closes⟩ := isCallBody_iff.mp body
    have whole : behind = inner ++ ('(' :: behind).drop length := by
      have parts := List.take_append_drop length ('(' :: behind)
      rw [taken] at parts
      exact (List.cons.inj parts).2.symm
    have size : 1 + inner.length = length := by
      rw [← List.length_take_of_le within, taken, List.length_cons, Nat.add_comm]
    rw [whole, ← size]
    exact closes.callEndFrom_eq 1 _

/-- The body of a call ends with a closing parenthesis. -/
theorem IsCallBody.getLast? {text : List Char} (body : IsCallBody text) : text.getLast? = some ')' := by
  obtain ⟨items, _, rfl⟩ := body
  rw [← List.cons_append, List.getLast?_concat]

/-- The body of a call in a text ends behind its beginning, with a closing parenthesis. -/
theorem IsCallBody.stop_of_slice {text : List Char} {start stop : Nat} (within : stop ≤ text.length)
    (body : IsCallBody ((text.take stop).drop start)) : start < stop ∧ text[stop - 1]? = some ')' := by
  have last := body.getLast?
  rw [List.getLast?_drop, List.length_take_of_le within] at last
  by_cases before : stop ≤ start
  · rw [if_pos before] at last
    cases last
  · have inside : stop - 1 < text.length := by omega
    rw [if_neg before, List.getLast?_take, if_neg (by omega), List.getElem?_eq_getElem inside,
      Option.some_or] at last
    exact ⟨by omega, by rw [List.getElem?_eq_getElem inside, last]⟩

/-- Up to the end of a call that begins at a place the text is the body of a call. -/
theorem callEnd?_drop_eq_some_iff {text : List Char} {start : Nat} (opens : text[start]? = some '(')
    (stop : Nat) :
    (callEnd? (text.drop start)).map (start + ·) = some stop ↔
      stop ≤ text.length ∧ IsCallBody ((text.take stop).drop start) := by
  have begins : (text.drop start).head? = some '(' := by rw [List.head?_drop, opens]
  rw [Option.map_eq_some_iff, List.drop_take]
  constructor
  · rintro ⟨length, closed, rfl⟩
    obtain ⟨within, body⟩ := (callEnd?_eq_some_iff begins).mp closed
    rw [List.length_drop] at within
    have start_le := (List.getElem?_eq_some_iff.mp opens).1
    rw [Nat.add_sub_cancel_left]
    exact ⟨by omega, body⟩
  · rintro ⟨within, body⟩
    have behind := (IsCallBody.stop_of_slice within (List.drop_take ▸ body)).1
    refine ⟨stop - start, (callEnd?_eq_some_iff begins).mpr ⟨?_, body⟩, Nat.add_sub_cancel' behind.le⟩
    rw [List.length_drop]
    omega

/-- **The end of a call that begins at a place of a text is the one place up to which the text is the body of
a call, and there is none exactly if no first part of the rest of the text is such a body.** -/
theorem callEnd?_recognises (text : List Char) (start : Nat) (opens : text[start]? = some '(') :
    (∀ stop, (callEnd? (text.drop start)).map (start + ·) = some stop ↔
      stop ≤ text.length ∧ IsCallBody ((text.take stop).drop start)) ∧
    (callEnd? (text.drop start) = none ↔ ∀ front, front <+: text.drop start → ¬ IsCallBody front) ∧
    (∀ stop other, stop ≤ text.length → other ≤ text.length → IsCallBody ((text.take stop).drop start) →
      IsCallBody ((text.take other).drop start) → stop = other) ∧
    ∀ stop, (callEnd? (text.drop start)).map (start + ·) = some stop →
      start < stop ∧ stop ≤ text.length ∧ text[stop - 1]? = some ')' := by
  have ends := callEnd?_drop_eq_some_iff opens
  have begins : (text.drop start).head? = some '(' := by rw [List.head?_drop, opens]
  refine ⟨ends, ?_, ?_, ?_⟩
  · rw [Option.eq_none_iff_forall_ne_some]
    constructor
    · intro never front begun body
      have taken := List.prefix_iff_eq_take.mp begun
      rw [taken] at body
      exact never front.length ((callEnd?_eq_some_iff begins).mpr ⟨begun.length_le, body⟩)
    · intro never length closed
      obtain ⟨_, body⟩ := (callEnd?_eq_some_iff begins).mp closed
      exact never _ (List.take_prefix _ _) body
  · intro stop other within inside body again
    have first := (ends stop).mpr ⟨within, body⟩
    exact Option.some.inj (first.symm.trans ((ends other).mpr ⟨inside, again⟩))
  · intro stop closed
    obtain ⟨within, body⟩ := (ends stop).mp closed
    obtain ⟨behind, last⟩ := IsCallBody.stop_of_slice within body
    exact ⟨behind, within, last⟩

/-- A call with a quoted parenthesis behind an escaped mark, a call in it and another one behind it. -/
theorem callEnd?_recognises_quoted :
    let text := "console.log('\\\')', f(1)); g();".toList
    text[11]? = some '(' ∧ (callEnd? (text.drop 11)).map (11 + ·) = some 24 ∧
      IsCallBody ((text.take 24).drop 11) ∧ text[23]? = some ')' := by
  intro text
  have opens : text[11]? = some '(' := by decide +kernel
  have closed : (callEnd? (text.drop 11)).map (11 + ·) = some 24 := by decide +kernel
  obtain ⟨ends, _, _, last⟩ := callEnd?_recognises text 11 opens
  exact ⟨opens, closed, ((ends 24).mp closed).2, (last 24 closed).2.2⟩

end Conformance.Fix
