import Conformance.Audit.Ordering
import Conformance.Fix.Fixer

/-!
# Changes to a text

The violations of one file are offered to the fixers in their common order. Each goes to
the first fixer that claims it on the text as it is by then. What a fixer makes of the
text is the text for the next violation; a fixer that fails leaves the text as it is.
-/

namespace Conformance.Fix

/-- What has become of a text. -/
structure Changes where
  text : List Char
  /-- How many violations have been fixed. -/
  applied : Nat
  /-- For how many there was nothing to change. -/
  skipped : Nat
  /-- What the fixers that failed have said. -/
  failures : List String
  deriving Repr, DecidableEq

namespace Changes

/-- A text with nothing done to it. -/
def start (text : List Char) : Changes := ⟨text, 0, 0, []⟩

/-- The first fixer that claims a violation. -/
def claimant? (violation : Violation) (text : List Char) :
    List Fixer → Except Interruption (Option Fixer)
  | [] => .ok none
  | fixer :: rest =>
    match fixer.claims violation text with
    | .error reason => .error reason
    | .ok true => .ok (some fixer)
    | .ok false => claimant? violation text rest

/-- Let a fixer do its work on a violation. -/
def apply (changes : Changes) (fixer : Fixer) (violation : Violation) : Changes :=
  match fixer.fix violation changes.text with
  | .fixed text => { changes with text := text, applied := changes.applied + 1 }
  | .unchanged => { changes with skipped := changes.skipped + 1 }
  | .failed message =>
    { changes with failures := changes.failures ++ [fixer.name ++ ": " ++ message] }
  | .interrupted reason =>
    { changes with failures := changes.failures ++ [fixer.name ++ ": " ++ reason.message] }

/-- Offer violations one after the other. An interrupted claim ends the work, with what
has been done up to there. -/
def offerEach (fixers : List Fixer) : Changes → List Violation → Changes × Option Interruption
  | changes, [] => (changes, none)
  | changes, violation :: rest =>
    match claimant? violation changes.text fixers with
    | .error reason => (changes, some reason)
    | .ok none => offerEach fixers changes rest
    | .ok (some fixer) => offerEach fixers (changes.apply fixer violation) rest

/-- Offer the violations of a text in their common order. -/
def make (fixers : List Fixer) (violations : List Violation) (text : List Char) :
    Changes × Option Interruption :=
  offerEach fixers (start text) (Audit.inOrder violations)

end Changes

end Conformance.Fix
