import Conformance.Proofs.Fix.AnnotatedHeads
import Conformance.Proofs.Fix.Surroundings

/-!
# Returns behind inner blocks

A text behind an opened bracket is read from its beginning, with strings and comments passed over, up to the
bracket that closes it. On the way brackets of the same kind are opened and closed; of each of them it is told,
by the text in front of it, whether it is a special one.
-/

namespace Conformance.Fix

open Text

/-- What the place behind a character is inside of, in a text of several lines: a line comment ends with its
line. -/
def Surrounding.onward (place : Surrounding) (c : Char) : Surrounding :=
  if place = lineComment ∧ c = '\n' then code else place.behind c

/-- Whether a character may be part of a name. -/
def isNameLetter (c : Char) : Bool := isWord c || c == '$'

/-- A pair of brackets. -/
structure Brackets where
  opens : Char
  closes : Char

/-- Parentheses. -/
def parentheses : Brackets := ⟨'(', ')'⟩

/-- Braces. -/
def braces : Brackets := ⟨'\x7b', '\x7d'⟩

/-- A place behind an opened bracket: what it is inside of, and of the brackets that are open by then, the
innermost first, which are special. -/
structure Inside where
  place : Surrounding
  opened : List Bool
  deriving Repr, DecidableEq

/-- The place behind a character, unless that closes the bracket. -/
def Inside.behind (brackets : Brackets) (special : Bool) (inside : Inside) (c : Char) : Option Inside :=
  if inside.place.isCode = false then some ⟨inside.place.onward c, inside.opened⟩
  else if c = brackets.opens then some ⟨inside.place.onward c, special :: inside.opened⟩
  else if c = brackets.closes then inside.opened.tail?.map fun opened => ⟨inside.place.onward c, opened⟩
  else some ⟨inside.place.onward c, inside.opened⟩

/-- The place behind some characters, unless they close the bracket. -/
def insideFrom (brackets : Brackets) (special : List Char → Bool) (passed : List Char) (inside : Inside) :
    List Char → Option Inside
  | [] => some inside
  | c :: text => (inside.behind brackets (special passed) c).bind fun inside =>
      insideFrom brackets special (passed ++ [c]) inside text

/-- The place behind a text that stands behind an opened bracket, unless the text closes it. -/
def inside? (brackets : Brackets) (special : List Char → Bool) (text : List Char) : Option Inside :=
  insideFrom brackets special [] ⟨.code, []⟩ text

variable {brackets : Brackets} {special : List Char → Bool} {passed first second text : List Char}
  {inside : Inside}

/-- A text is read in parts. -/
theorem insideFrom_append : insideFrom brackets special passed inside (first ++ second) =
    (insideFrom brackets special passed inside first).bind fun inside =>
      insideFrom brackets special (passed ++ first) inside second := by
  induction first generalizing passed inside with
  | nil => rw [List.append_nil]; rfl
  | cons c first inductionHypothesis =>
    rw [List.cons_append, insideFrom, insideFrom, Option.bind_assoc]
    refine Option.bind_congr fun inside _ => ?_
    rw [inductionHypothesis, List.append_cons passed c first]

/-- A text closes the bracket if a part at its beginning does. -/
theorem inside?_append_eq_none (closed : inside? brackets special first = none) :
    inside? brackets special (first ++ second) = none := by
  rw [inside?, insideFrom_append, ← inside?, closed, Option.bind_none]

/-- Whether a place is outside strings, comments and inner brackets, so that a closing bracket would close the one
in front of the text. -/
def Inside.isOutermost (inside : Inside) : Bool := inside.place.isCode && inside.opened.isEmpty

/-- A text is balanced if a closing bracket behind it closes the one in front of it. -/
def Balanced (brackets : Brackets) (text : List Char) : Prop :=
  (inside? brackets (fun _ => false) text).any Inside.isOutermost = true

instance : Decidable (Balanced brackets text) := inferInstanceAs (Decidable (_ = true))

end Conformance.Fix

/-!
## Returns of annotated functions

A function gets a return type if its body does not mention returning up to the first closing brace in it. So a
return of its own can only stand behind that brace; it does so in a function that goes on behind an inner block
and returns there. Nothing is missed where the first closing brace is the one of the body.

Which braces open the bodies of inner functions is told by the text in front of them, in any way.
-/

namespace Conformance.Fix

open Text

variable {isBody : List Char → Bool} {text inner rest passed : List Char}

/-- Letters are a word of their own if no letter stands next to them. -/
def IsWholeWord (before behind : List Char) : Prop :=
  before.getLast?.any isNameLetter = false ∧ behind.head?.any isNameLetter = false

instance {before behind : List Char} : Decidable (IsWholeWord before behind) :=
  inferInstanceAs (Decidable (_ ∧ _))

/-- Whether a place is code that belongs to the body of no inner function. -/
def Inside.isOwn (inside : Inside) : Bool := inside.place.isCode && inside.opened.all (!·)

/-- Of a body of which a part has been passed, the rest has a return of the function itself: the word stands in
code, in front of the brace that closes the body, and in the body of no inner function. -/
def ReturnsIn (isBody : List Char → Bool) (passed rest : List Char) : Prop :=
  ∃ between behind, rest = between ++ (returnWord ++ behind) ∧
    (inside? braces isBody (passed ++ between)).any Inside.isOwn = true ∧ IsWholeWord (passed ++ between) behind

/-- The function whose body begins a text has a return of its own. -/
def HasOwnReturn (isBody : List Char → Bool) (text : List Char) : Prop := ReturnsIn isBody [] text

/-- Returns of a body that does not mention them up to its first closing brace stand behind that brace. -/
theorem hasOwnReturn_iff (body : QuietBody text inner rest) :
    HasOwnReturn isBody (inner ++ '\x7d' :: rest) ↔ ReturnsIn isBody (inner ++ ['\x7d']) rest := by
  constructor
  · rintro ⟨between, behind, split, own, whole⟩
    rcases List.append_eq_append_iff.mp split with ⟨later, rfl, ahead⟩ | ⟨later, rfl, ahead⟩
    · cases later with
      | nil => exact absurd (List.cons.inj ahead).1 (by decide)
      | cons c later =>
        obtain ⟨rfl, rfl⟩ := List.cons.inj ahead
        rw [List.nil_append, List.append_cons] at own whole
        exact ⟨later, behind, rfl, own, whole⟩
    · exfalso
      rcases List.append_eq_append_iff.mp ahead with ⟨others, rfl, _⟩ | ⟨others, whole, ends⟩
      · exact body.quiet ⟨between, others, List.append_assoc ..⟩
      · cases others with
        | nil =>
          rw [List.append_nil] at whole
          exact body.quiet ⟨between, [], by rw [whole, List.append_nil]⟩
        | cons c others =>
          obtain ⟨rfl, _⟩ := List.cons.inj ends
          have brace : '\x7d' ∈ returnWord := whole ▸ List.mem_append_right _ List.mem_cons_self
          exact absurd brace (by decide +kernel)
  · rintro ⟨between, behind, rfl, own, whole⟩
    rw [List.append_assoc] at own whole
    exact ⟨inner ++ '\x7d' :: between, behind, by simp, own, whole⟩

/-- Behind the brace that closes it a body has no returns. -/
theorem not_returnsIn (closes : (inside? braces isBody inner).any Inside.isOutermost = true) :
    ¬ ReturnsIn isBody (inner ++ ['\x7d']) rest := by
  rintro ⟨between, behind, _, own, _⟩
  obtain ⟨⟨place, opened⟩, reached, outermost⟩ := (Option.any_eq_true _ _).mp closes
  obtain ⟨code, none⟩ := Bool.and_eq_true_iff.mp outermost
  obtain rfl : opened = [] := List.isEmpty_iff.mp none
  have closed : inside? braces isBody (inner ++ ['\x7d']) = Option.none := by
    rw [inside?, insideFrom_append, ← inside?, reached]
    simp [insideFrom, Inside.behind, show place.isCode = true from code, braces]
  rw [inside?_append_eq_none closed] at own
  cases own

/-- **Where an annotated function may return.** A text gets return types at some heads in it. Each of these stands
in front of a body that has a return of its own exactly if one stands behind the first closing brace in it, and so
none if that brace closes the body. -/
theorem own_returns_behind_first_brace (violation : Violation) (text : List Char) :
    ∃ segments, bareText segments = text ∧
      typedText segments = ((Changes.start text).apply returnTypeFixer violation).text ∧
        ∀ front head back, segments = front ++ .head head :: back → ∃ inner rest,
          bareText back = '\x7b' :: (inner ++ '\x7d' :: rest) ∧ '\x7d' ∉ inner ∧ ∀ isBody,
            (HasOwnReturn isBody (inner ++ '\x7d' :: rest) ↔ ReturnsIn isBody (inner ++ ['\x7d']) rest) ∧
              ((inside? braces isBody inner).any Inside.isOutermost = true →
                ¬ HasOwnReturn isBody (inner ++ '\x7d' :: rest)) := by
  obtain ⟨segments, annotated⟩ := exists_annotated violation text
  refine ⟨segments, annotated.bare, annotated.typed, fun front head back split => ?_⟩
  obtain ⟨inner, rest, body⟩ := annotated.body front head back split
  refine ⟨inner, rest, body.split, body.closes, fun isBody => ⟨hasOwnReturn_iff body, fun closes => ?_⟩⟩
  rw [hasOwnReturn_iff body]
  exact not_returnsIn closes

/-- A function with a block in it. -/
def blockAlone : List Char := "function f() \x7b if (a) \x7b b(); \x7d \x7d".toList

/-- It gets its return type, and has no return behind the block. -/
theorem own_returns_blockAlone : ∃ segments front head back inner rest,
    segments = front ++ .head head :: back ∧ bareText segments = blockAlone ∧
      bareText back = '\x7b' :: (inner ++ '\x7d' :: rest) ∧ 
        (HasOwnReturn (fun _ => false) (inner ++ '\x7d' :: rest) ↔
          ReturnsIn (fun _ => false) (inner ++ ['\x7d']) rest) := by
  obtain ⟨segments, bare, typed, behind⟩ := own_returns_behind_first_brace missingReturnType blockAlone
  have changed : typedText segments ≠ bareText segments := by
    rw [bare, typed]
    decide +kernel
  obtain ⟨front, head, back, split⟩ := exists_head changed
  obtain ⟨inner, rest, body, _, returns⟩ := behind front head back split
  exact ⟨segments, front, head, back, inner, rest, split, bare, body, (returns _).1⟩

/-- A body with a block in it and a return behind that block. -/
def blockAndReturn : List Char := " if (a) \x7b b(); \x7d return 1; \x7d".toList

/-- Its function gets the return type of one that returns nothing. -/
theorem return_behind_block_overlooked :
    ((Changes.start ("function f() \x7b".toList ++ blockAndReturn)).apply returnTypeFixer missingReturnType).text =
        "function f(): void \x7b".toList ++ blockAndReturn ∧
      HasOwnReturn (fun _ => false) blockAndReturn := by
  refine ⟨by decide +kernel, " if (a) \x7b b(); \x7d ".toList, " 1; \x7d".toList, ?_, ?_, ?_⟩ <;> decide +kernel

end Conformance.Fix
