/-!
# Paths

A path is an anchor and a list of names. Writing a path leaves out empty names and
single points; a double point stays, because it can only be resolved where the links of
a disk are known.
-/

namespace Conformance

/-- A path: its anchor (empty for a relative path) and the names below it. -/
structure Path where
  anchor : String
  parts : List String
  deriving Repr, DecidableEq

namespace Path

/-- The pieces of a text between slashes. -/
def pieces (text : List Char) : List (List Char) :=
  text.foldr (fun c found => match found with
    | [] => [[c]]
    | piece :: rest => if c = '/' then [] :: piece :: rest else (c :: piece) :: rest) [[]]

/-- The path that a text denotes. Two leading slashes are an anchor of their own. -/
def ofList (text : List Char) : Path :=
  let anchor := match text with
    | '/' :: '/' :: '/' :: _ => "/"
    | '/' :: '/' :: _ => "//"
    | '/' :: _ => "/"
    | _ => ""
  ⟨anchor, ((pieces text).filter fun piece => piece != [] && piece != ['.']).map String.ofList⟩

/-- The path that a string denotes. -/
def ofString (text : String) : Path := ofList text.toList

/-- The written form of a path; the empty relative path is a point. -/
def text (path : Path) : String :=
  if path.anchor = "" ∧ path.parts = [] then "." else path.anchor ++ "/".intercalate path.parts

/-- Whether the path has an anchor. -/
def isAbsolute (path : Path) : Bool := path.anchor != ""

/-- The path that another path denotes from here: an absolute one denotes itself. -/
def join (base other : Path) : Path :=
  if other.isAbsolute then other else ⟨base.anchor, base.parts ++ other.parts⟩

/-- A name below a path. -/
def child (path : Path) (name : String) : Path := ⟨path.anchor, path.parts ++ [name]⟩

/-- The last name of a path. -/
def name (path : Path) : String := path.parts.getLast?.getD ""

/-- The path without its last name. -/
def parent (path : Path) : Path := ⟨path.anchor, path.parts.dropLast⟩

/-- The ending of a name from its last point on, if there is something on both sides of
the point. -/
def suffixOf (name : List Char) : List Char :=
  let behind := (name.reverse.takeWhile (· != '.')).reverse
  let before := name.length - behind.length
  if behind.isEmpty ∨ before ≤ 1 then [] else '.' :: behind

/-- The ending of the last name. -/
def suffix (path : Path) : String := String.ofList (suffixOf path.name.toList)

end Path

end Conformance
