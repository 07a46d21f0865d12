/-!
# The words of a command

A command is cut into words at blanks. Quotation marks and backslashes take the meaning
from what they stand before: everything between single marks stands for itself, and
between double marks a backslash takes the meaning only from a double mark or another
backslash.
-/

namespace Conformance.Compiler

/-- Why a command cannot be cut into words. -/
inductive WordsError where
  | openQuotation
  | openEscape
  deriving Repr, DecidableEq

/-- What is said about a command that cannot be cut. -/
def WordsError.message : WordsError → String
  | .openQuotation => "No closing quotation"
  | .openEscape => "No escaped character"

/-- Where the cutting is: between words, in a word, behind a mark in a word, or behind a
backslash, which may itself stand behind a mark. -/
inductive WordsState where
  | between
  | plain
  | marked (mark : Char)
  | escaped (mark : Option Char)
  deriving Repr, DecidableEq

/-- A character that separates words. -/
def isSeparator (c : Char) : Bool := c == ' ' || c == '\t' || c == '\r' || c == '\n'

/-- A quotation mark. -/
def isMark (c : Char) : Bool := c == '\'' || c == '"'

/-- Cut a command. The word so far is kept in reverse, and whether it counts even if it
is empty. -/
def wordsFrom : WordsState → (word : List Char) → List Char → Except WordsError (List (List Char))
  | .between, _, [] => .ok []
  | .plain, word, [] => .ok [word.reverse]
  | .marked _, _, [] => .error .openQuotation
  | .escaped _, _, [] => .error .openEscape
  | .between, _, c :: rest =>
    if isSeparator c then wordsFrom .between [] rest
    else if c = '\\' then wordsFrom (.escaped none) [] rest
    else if isMark c then wordsFrom (.marked c) [] rest
    else wordsFrom .plain [c] rest
  | .plain, word, c :: rest =>
    if isSeparator c then (wordsFrom .between [] rest).map (word.reverse :: ·)
    else if c = '\\' then wordsFrom (.escaped none) word rest
    else if isMark c then wordsFrom (.marked c) word rest
    else wordsFrom .plain (c :: word) rest
  | .marked mark, word, c :: rest =>
    if c = mark then wordsFrom .plain word rest
    else if c = '\\' ∧ mark = '"' then wordsFrom (.escaped (some mark)) word rest
    else wordsFrom (.marked mark) (c :: word) rest
  | .escaped none, word, c :: rest => wordsFrom .plain (c :: word) rest
  | .escaped (some mark), word, c :: rest =>
    if c = mark ∨ c = '\\' then wordsFrom (.marked mark) (c :: word) rest
    else wordsFrom (.marked mark) (c :: '\\' :: word) rest

/-- The words of a command. -/
def words (command : String) : Except WordsError (List String) :=
  (wordsFrom .between [] command.toList).map fun found => found.map String.ofList

end Conformance.Compiler
