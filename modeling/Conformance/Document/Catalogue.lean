import Conformance.Pattern.Reader
import Conformance.Standard

/-!
# The catalogue of authored rules

Some standards bring rules of their own beside those of their document. A rule without
a pattern is found by the checks of its standard only.
-/

namespace Conformance.Document

/-- An authored rule. -/
structure CatalogueEntry where
  name : String
  message : String
  severity : Severity
  pattern : Option Pattern
  fixTemplate : Option String
  deriving Repr, DecidableEq

/-- The authored rules of a standard, in order. -/
def catalogue : Standard → List CatalogueEntry
  | .typescript => [
    ⟨"no-any-type", "Avoid using \"any\" type - use specific types instead", .error,
      some (.ofText ":\\s*any\\s*[=;,)]"), some "Replace any with a concrete type or unknown"⟩,
    ⟨"no-ts-ignore", "Avoid using @ts-ignore or @ts-nocheck - fix type errors instead", .error,
      some (.ofText "@ts-ignore|@ts-nocheck"), none⟩,
    ⟨"no-default-export", "Use named exports instead of default exports", .warning,
      some (.ofText "export\\s+default\\s+(function|class|const)"),
      some "Use named export instead: export function ComponentName()"⟩,
    ⟨"no-type-errors", "Type checker reported an error", .error, none, none⟩,
    ⟨"explicit-return-type", "Exported functions should declare an explicit return type", .info,
      some (.ofText "^export\\s+(async\\s+)?function\\s+\\w+\\s*\\([^)]*\\)\\s*\\\x7b"),
      some "Add an explicit return type annotation"⟩]
  | .react => [
    ⟨"usestate-null-init",
      "useState with null may indicate missing type - consider undefined or proper type", .warning,
      some (.ofText "useState\\s*<.*>\\s*\\(\\s*null\\s*\\)"), none⟩,
    ⟨"no-class-components", "Use functional components instead of class components", .error,
      some (.ofText "class\\s+\\w+\\s+extends\\s+(React\\.)?Component"),
      some "Convert to functional component with hooks"⟩]
  | .nextjs => [
    ⟨"no-console", "Remove console statements in production code", .warning,
      some (.ofText "console\\.(log|debug|info|warn|error)"),
      some "Remove the console call or route it through a logger"⟩,
    ⟨"missing-use-client-directive", "Components using hooks need a \"use client\" directive", .error,
      none, none⟩,
    ⟨"page-server-component", "Page components should be Server Components by default", .error, none,
      none⟩]
  | .security => [
    ⟨"dangerous-inner-html", "Avoid dangerouslySetInnerHTML - potential XSS vulnerability", .error,
      some (.ofText "dangerouslySetInnerHTML"), none⟩,
    ⟨"no-eval", "Never use eval() - severe security risk", .error, some (.ofText "\\beval\\s*\\("), none⟩,
    ⟨"hardcoded-secrets", "Never hardcode secrets - use environment variables", .error,
      some (.ofText "(password|apiKey|secret|token)\\s*=\\s*['\\\"][^'\\\"]+['\\\"]" ⟨true, false⟩), none⟩]
  | _ => []

end Conformance.Document
