/-!
# Looking for a text inside a text
-/

namespace Conformance.Text

/-- Whether the text holds the wanted text somewhere. The empty text is
everywhere. -/
def occursIn (wanted : List Char) : List Char → Bool
  | [] => wanted.isEmpty
  | c :: rest => wanted.isPrefixOf (c :: rest) || occursIn wanted rest

/-- Whether the text ends in the wanted text. -/
def endsWith (wanted text : List Char) : Bool := wanted.reverse.isPrefixOf text.reverse

/-- `occursIn` for stored strings. -/
def mentions (wanted : String) (text : String) : Bool := occursIn wanted.toList text.toList

/-- What stands behind a text that begins as wanted. -/
def dropStart? : (wanted text : List Char) → Option (List Char)
  | [], text => some text
  | _ :: _, [] => none
  | w :: wanted, c :: text => if w = c then dropStart? wanted text else none

end Conformance.Text
