import Conformance.Number.Rounding
import Conformance.Number.Sum

/-!
# Tables for a terminal

Tables of short texts, every character one column wide. A boxed table has a title and
rules between its cells; an open one has blanks only and is fitted into the width of the
terminal by making its widest columns narrower, whose texts are then cut.
-/

namespace Conformance.Text

open Number

/-- A column: its heading, and whether its texts stand at the right. -/
structure TableColumn where
  heading : String
  atRight : Bool
  deriving Repr, DecidableEq

/-- The greatest of some numbers. -/
def greatest (values : List Nat) : Nat := values.foldl max 0

/-- The blanks of a width. -/
def blanks (width : Nat) : List Char := List.replicate width ' '

/-- The widths of columns: the longest text of each and a blank at either side. -/
def naturalWidths (headings : List (List Char)) (rows : List (List (List Char))) : List Nat :=
  headings.mapIdx fun index heading =>
    greatest (heading.length :: rows.map fun row => (row[index]?.getD []).length) + 2

/-- A text cut to a width, with a mark where something is missing. -/
def cut (width : Nat) (text : List Char) : List Char :=
  if text.length ≤ width then text else text.take (width - 1) ++ ['…']

/-- A text in a column of the given width. -/
def cell (width : Nat) (atRight : Bool) (text : List Char) : List Char :=
  let shown := cut (width - 2) text
  let filling := blanks (width - 2 - shown.length)
  ' ' :: (if atRight then filling ++ shown else shown ++ filling) ++ [' ']

/-- A text in the middle of a width, nearer to the left. -/
def centred (width : Nat) (text : List Char) : List Char :=
  let before := (width - text.length) / 2
  blanks before ++ text ++ blanks (width - text.length - before)

/-- A rule across a boxed table. -/
def tableRule (left line crossing right : Char) (widths : List Nat) : List Char :=
  left :: List.intercalate [crossing] (widths.map fun width => List.replicate width line) ++ [right]

/-- A row of a boxed table. -/
def boxedRow (rule : Char) (widths : List Nat) (columns : List TableColumn)
    (texts : List (List Char)) : List Char :=
  rule :: List.intercalate [rule] ((widths.zip (columns.zip texts)).map fun (width, column, text) =>
    cell width column.atRight text) ++ [rule]

/-- A boxed table as lines. -/
def boxedTable (title : List Char) (columns : List TableColumn) (rows : List (List (List Char))) :
    List (List Char) :=
  let headings := columns.map (·.heading.toList)
  let widths := naturalWidths headings rows
  [centred (Number.total widths + widths.length + 1) title,
    tableRule '┏' '━' '┳' '┓' widths, boxedRow '┃' widths columns headings,
    tableRule '┡' '━' '╇' '┩' widths] ++ rows.map (boxedRow '│' widths columns) ++
    [tableRule '└' '─' '┴' '┘' widths]

/-- Take an excess away from the columns of one width, evenly and at most so much from
each. The count says how many columns of that width are left. -/
def takeAway (widest most : Nat) : (excess count : Nat) → List Nat → List Nat
  | _, _, [] => []
  | excess, count, width :: rest =>
    if width = widest then
      let taken := min most (roundQuotient excess count)
      (width - taken) :: takeAway widest most (excess - taken) (count - 1) rest
    else width :: takeAway widest most excess count rest

/-- Make the widest columns narrower until the widths fit. -/
def fitWidths : (steps limit : Nat) → List Nat → List Nat
  | 0, _, widths => widths
  | steps + 1, limit, widths =>
    let excess := Number.total widths - limit
    if excess = 0 then widths
    else
      let widest := greatest widths
      let next := greatest (widths.filter (· != widest))
      fitWidths steps limit
        (takeAway widest (min excess (widest - next)) excess (widths.count widest) widths)

/-- An open table as lines, fitted into a width. -/
def openTable (limit : Nat) (columns : List TableColumn) (rows : List (List (List Char))) :
    List (List Char) :=
  let headings := columns.map (·.heading.toList)
  let widths := naturalWidths headings rows
  let widths := fitWidths (Number.total widths + 1) limit widths
  (headings :: rows).map fun row =>
    (widths.zip (columns.zip row)).flatMap fun (width, column, text) => cell width column.atRight text

end Conformance.Text
