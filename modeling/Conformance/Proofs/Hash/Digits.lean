import Conformance.Hash.Sha256
import Conformance.Proofs.Disk.Written

/-!
# Digests as names

A digest is written with hexadecimal digits only, so it can name a file, and its first two
digits can name a directory.
-/

namespace Conformance

/-- The hexadecimal digits. -/
def Text.hexAlphabet : List Char := "0123456789abcdef".toList

/-- A digit is one of the sixteen. -/
theorem Text.lowerHexDigit_mem (value : Nat) (small : value < 16) :
    lowerHexDigit value ∈ hexAlphabet := by
  have all : ∀ digit, digit < 16 → lowerHexDigit digit ∈ hexAlphabet := by decide
  exact all value small

/-- Numbers are written with digits. -/
theorem Text.hexDigits_mem (width value : Nat) :
    ∀ c ∈ hexDigits width value, c ∈ hexAlphabet := by
  induction width generalizing value with
  | zero => simp [hexDigits]
  | succ width inductionHypothesis =>
    intro c member
    rw [hexDigits] at member
    rcases List.mem_append.mp member with earlier | last
    · exact inductionHypothesis _ c earlier
    · rw [List.mem_singleton.mp last]
      exact lowerHexDigit_mem _ (Nat.mod_lt _ (by decide))

/-- Numbers are written with as many digits as are asked for. -/
theorem Text.length_hexDigits (width value : Nat) : (hexDigits width value).length = width := by
  induction width generalizing value with
  | zero => rfl
  | succ width inductionHypothesis => simp [hexDigits, inductionHypothesis]

namespace Sha256

/-- Turning the words of a state keeps their number. -/
theorem length_turn (state block : List UInt32) : (turn state block).length = state.length := by
  unfold turn
  split <;> rfl

/-- Turning the words of a state again and again keeps their number. -/
theorem length_turnAll (blocks : Nat) (state words : List UInt32) :
    (turnAll blocks state words).length = state.length := by
  induction blocks generalizing state words with
  | zero => rfl
  | succ blocks inductionHypothesis => rw [turnAll, inductionHypothesis, length_turn]

/-- A digest has eight words. -/
theorem length_digest (bytes : List UInt8) : (digest bytes).length = 8 :=
  length_turnAll _ initialWords _

/-- A digest is written with digits. -/
theorem hexDigest_mem (bytes : List UInt8) :
    ∀ c ∈ (hexDigest bytes).toList, c ∈ Text.hexAlphabet := by
  intro c member
  rw [hexDigest, String.toList_ofList] at member
  obtain ⟨word, _, inside⟩ := List.mem_flatMap.mp member
  exact Text.hexDigits_mem 8 _ c inside

/-- A digest is not empty. -/
theorem hexDigest_ne_nil (bytes : List UInt8) : (hexDigest bytes).toList ≠ [] := by
  rw [hexDigest, String.toList_ofList]
  cases words : digest bytes with
  | nil => simpa [words] using length_digest bytes
  | cons word rest =>
    intro empty
    have written := congrArg List.length empty
    simp [Text.length_hexDigits] at written

/-- Digits make a name that does not lead upwards. -/
theorem isName_of_digits (digits : List Char) (filled : digits ≠ [])
    (hex : ∀ c ∈ digits, c ∈ Text.hexAlphabet) :
    Path.IsName (String.ofList digits) ∧ String.ofList digits ≠ ".." := by
  have plain (c : Char) (other : c ∉ Text.hexAlphabet) : c ∉ digits :=
    fun member => other (hex c member)
  have point : '.' ∉ digits := plain '.' (by decide)
  refine ⟨⟨?_, ?_, ?_⟩, ?_⟩
  · intro empty
    exact filled (by simpa using congrArg String.toList empty)
  · intro single
    have letters : digits = ['.'] := by simpa using congrArg String.toList single
    simp [letters] at point
  · rw [String.toList_ofList]
    exact plain '/' (by decide)
  · intro double
    have letters : digits = ['.', '.'] := by simpa using congrArg String.toList double
    simp [letters] at point

/-- A digest is a name. -/
theorem isName_hexDigest (bytes : List UInt8) :
    Path.IsName (hexDigest bytes) ∧ hexDigest bytes ≠ ".." := by
  have digits := isName_of_digits _ (hexDigest_ne_nil bytes) (hexDigest_mem bytes)
  rwa [String.ofList_toList] at digits

/-- The first two digits of a digest are a name. -/
theorem isName_take_hexDigest (bytes : List UInt8) :
    Path.IsName (String.ofList ((hexDigest bytes).toList.take 2)) ∧
      String.ofList ((hexDigest bytes).toList.take 2) ≠ ".." := by
  apply isName_of_digits
  · simpa using hexDigest_ne_nil bytes
  · intro c member
    exact hexDigest_mem bytes c (List.mem_of_mem_take member)

end Sha256

end Conformance
