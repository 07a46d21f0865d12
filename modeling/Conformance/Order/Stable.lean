/-!
# Sorting in place

Insertion sort. Elements that the order does not tell apart keep their order, so the
result of sorting is determined by the list and the order alone.
-/

namespace Conformance.Order

/-- Put an element before the first one that must stand behind it. -/
def insert {α : Type} (before : α → α → Bool) (x : α) : List α → List α
  | [] => [x]
  | y :: rest => if before y x then y :: insert before x rest else x :: y :: rest

/-- A list in order. The order says whether one element must stand before another. -/
def sort {α : Type} (before : α → α → Bool) : List α → List α
  | [] => []
  | x :: rest => insert before x (sort before rest)

/-- The order of texts by their characters' numbers. -/
def textBefore (left right : String) : Bool := decide (left.toList < right.toList)

end Conformance.Order
