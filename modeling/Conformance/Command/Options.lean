/-!
# Options on a command line

Arguments are read from the left. An option begins with two hyphens and may bring its
value along behind an equals sign; single letters behind one hyphen are options without
values. Two hyphens alone end the options. What is no option is an operand.
-/

namespace Conformance.Command

/-- Why a command line is refused. -/
inductive UsageError where
  | unknownOption (name : String)
  | missingValue (name : String)
  | unwantedValue (name : String)
  | unwantedOperand (text : String)
  | badValue (option value : String)
  | missingOption (name : String)
  | unknownCommand (name : String)
  deriving Repr, DecidableEq

/-- What is said about a refused command line. -/
def UsageError.message : UsageError → String
  | .unknownOption name => "No such option: " ++ name
  | .missingValue name => "Option '" ++ name ++ "' requires an argument."
  | .unwantedValue name => "Option '" ++ name ++ "' does not take a value."
  | .unwantedOperand text => "Got unexpected extra argument (" ++ text ++ ")"
  | .badValue option value => "Invalid value for '" ++ option ++ "': '" ++ value ++ "'"
  | .missingOption name => "Missing option '" ++ name ++ "'."
  | .unknownCommand name => "No such command '" ++ name ++ "'."

/-- The options that a command knows. -/
structure Grammar where
  /-- Options without values. -/
  flags : List String
  /-- Options with values. -/
  valued : List String
  /-- Letters that stand for options without values. -/
  letters : List (Char × String)
  /-- Whether options may stand behind operands. -/
  mixed : Bool

/-- The options and operands of a command line, in their order. -/
structure Given where
  options : List (String × String)
  operands : List String
  deriving Repr, DecidableEq

namespace Given

/-- Nothing given. -/
def empty : Given := ⟨[], []⟩

/-- One more option. -/
def add (given : Given) (name value : String) : Given :=
  { given with options := given.options ++ [(name, value)] }

/-- Whether an option is given. -/
def has (given : Given) (name : String) : Bool := given.options.any fun (other, _) => other == name

/-- The values of an option. -/
def values (given : Given) (name : String) : List String :=
  (given.options.filter fun (other, _) => other == name).map (·.2)

/-- The value of an option; of several the last counts. -/
def value? (given : Given) (name : String) : Option String := (given.values name).getLast?

end Given

/-- What one argument is. -/
inductive Argument where
  | endOfOptions
  | option (name : String) (attached : Option String)
  | letters (letters : List Char)
  | operand
  deriving Repr, DecidableEq

/-- An option with the value behind its first equals sign. -/
def splitOption (text : List Char) : String × Option String :=
  let name := text.takeWhile (· != '=')
  (String.ofList name,
    if name.length < text.length then some (String.ofList (text.drop (name.length + 1))) else none)

/-- What an argument is. -/
def Argument.ofText (text : String) : Argument :=
  match text.toList with
  | ['-', '-'] => .endOfOptions
  | '-' :: '-' :: rest =>
    let (name, attached) := splitOption ('-' :: '-' :: rest)
    .option name attached
  | '-' :: letter :: rest => .letters (letter :: rest)
  | _ => .operand

/-- Options by single letters. -/
def addLetters (grammar : Grammar) : Given → List Char → Except UsageError Given
  | given, [] => .ok given
  | given, letter :: rest =>
    match grammar.letters.lookup letter with
    | some name => addLetters grammar (given.add name "") rest
    | none => .error (.unknownOption (String.ofList ['-', letter]))

/-- Read a command line. Where options may not stand behind operands, the first operand
and all behind it are left over. -/
def readArguments (grammar : Grammar) :
    Given → List String → Except UsageError (Given × List String)
  | given, [] => .ok (given, [])
  | given, text :: rest =>
    match Argument.ofText text with
    | .endOfOptions =>
      if grammar.mixed then .ok ({ given with operands := given.operands ++ rest }, [])
      else .ok (given, rest)
    | .operand =>
      if grammar.mixed then
        readArguments grammar { given with operands := given.operands ++ [text] } rest
      else .ok (given, text :: rest)
    | .letters letters =>
      match addLetters grammar given letters with
      | .error error => .error error
      | .ok given => readArguments grammar given rest
    | .option name attached =>
      if grammar.flags.contains name then
        match attached with
        | some _ => .error (.unwantedValue name)
        | none => readArguments grammar (given.add name "") rest
      else if grammar.valued.contains name then
        match attached with
        | some value => readArguments grammar (given.add name value) rest
        | none =>
          match rest with
          | [] => .error (.missingValue name)
          | value :: behind => readArguments grammar (given.add name value) behind
      else .error (.unknownOption name)

end Conformance.Command
