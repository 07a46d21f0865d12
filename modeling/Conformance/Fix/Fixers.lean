import Conformance.Fix.Directive
import Conformance.Fix.ReturnTypes

/-!
# The fixers at hand
-/

namespace Conformance.Fix

/-- The fixers in the order in which violations are offered to them. -/
def defaultFixers : List Fixer := [directiveFixer, exportFixer, consoleFixer, returnTypeFixer]

end Conformance.Fix
