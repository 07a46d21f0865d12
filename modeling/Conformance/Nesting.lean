/-!
# Nesting

Collections stand in one another, and whoever follows them inwards has to remember the way back.
Only so many can be remembered.
-/

namespace Conformance

/-- How many collections may stand in one another where they are read or written. -/
def nestingLimit : Nat := 990

end Conformance
