/-!
# Standards and severities

The standards that documents can define, and how grave a violation is. Every standard
has a code of three letters, which begins the identifiers of its rules; the codes are
all different.
-/

namespace Conformance

/-- A coding standard, defined by one document. -/
inductive Standard where
  | typescript
  | react
  | nextjs
  | security
  | testing
  | forms
  | tailwind
  | reactConvex
  | shadcnUi
  deriving Repr, DecidableEq

namespace Standard

/-- All standards in the order of their declaration. -/
def all : List Standard :=
  [typescript, react, nextjs, security, testing, forms, tailwind, reactConvex, shadcnUi]

/-- The name of a standard, which is also the name of its document. -/
def name : Standard → String
  | typescript => "typescript"
  | react => "react"
  | nextjs => "nextjs"
  | security => "security"
  | testing => "testing"
  | forms => "forms"
  | tailwind => "tailwind"
  | reactConvex => "react-convex"
  | shadcnUi => "shadcn-ui"

/-- The code that begins the identifiers of a standard's rules. -/
def code : Standard → String
  | typescript => "typ"
  | react => "rea"
  | nextjs => "nex"
  | security => "sec"
  | testing => "tes"
  | forms => "for"
  | tailwind => "tai"
  | reactConvex => "con"
  | shadcnUi => "sha"

/-- The standard of a name. -/
def ofName? (text : String) : Option Standard := all.find? (·.name == text)

/-- The standard of a code. -/
def ofCode? (text : String) : Option Standard := all.find? (·.code == text)

end Standard

/-- How grave a violation is. -/
inductive Severity where
  | error
  | warning
  | info
  deriving Repr, DecidableEq

namespace Severity

/-- All severities, the gravest first. -/
def all : List Severity := [error, warning, info]

/-- The name of a severity. -/
def name : Severity → String
  | error => "error"
  | warning => "warning"
  | info => "info"

/-- The weight of a severity in scores; graver ones weigh more. -/
def rank : Severity → Nat
  | error => 3
  | warning => 2
  | info => 1

/-- The severity of a name. -/
def ofName? (text : String) : Option Severity := all.find? (·.name == text)

end Severity

end Conformance
