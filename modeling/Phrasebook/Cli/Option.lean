/-
  Phrasebook.Cli.Option
  ────────────────────────────────
  **OPTIONS OF A COMMAND LINE.**

      --name value   --name=value   -n value   -nvalue   -n=value

  A flag has no value, and several of its letters can stand in one argument.
  A value that is an argument of its own does not start with a dash, unless
  it is only a dash.  After `--` there are operands only.

  Arguments are read from left to right, and the first one that is wrong, or
  that asks for a page, ends the reading.
-/
import Phrasebook.Text.Search

namespace Phrasebook

namespace Cli

/-! ## §1. What options there are. -/

/-- A page that an option asks for, instead of a run. -/
inductive Page where
  | version
  | help
  deriving Repr, DecidableEq

/-- What an option takes. -/
inductive OptionKind where
  /-- Nothing, and it is given at most once. -/
  | flag
  /-- A value, and it is given at most once. -/
  | single
  /-- A value each time it is given. -/
  | repeatable
  /-- Nothing, and it asks for a page. -/
  | page (p : Page)
  deriving Repr, DecidableEq

/-- An option of a command. -/
structure OptionSpec where
  name : String
  letter : Option Char
  kind : OptionKind
  /-- Can the text be a value of the option? -/
  accepts : String → Bool

/-- What operands a command takes. -/
structure OperandSpec where
  /-- How many at most; there may be no bound. -/
  bound : Option Nat
  /-- Can the text be an operand? -/
  accepts : String → Bool

/-- Why a command line cannot be used. -/
inductive UsageError where
  | unknownOption (text : String)
  | missingValue (name : String)
  | unneededValue (name : String)
  | repeated (name : String)
  | invalidValue (text name : String)
  | unexpected (text : String)
  | missing (what : String)
  deriving Repr, DecidableEq

/-- The wording of the error. -/
def UsageError.message : UsageError → String
  | unknownOption text | unexpected text => "unexpected argument '" ++ text ++ "' found"
  | missingValue name => "a value is required for '--" ++ name ++ "' but none was supplied"
  | unneededValue name => "unexpected value for '--" ++ name ++ "' found"
  | repeated name => "the argument '--" ++ name ++ "' cannot be used multiple times"
  | invalidValue text name => "invalid value '" ++ text ++ "' for '" ++ name ++ "'"
  | missing what => "the following required arguments were not provided: " ++ what

/-- Why reading a command line ends early. -/
inductive Stop where
  | usage (e : UsageError)
  | page (p : Page)
  deriving Repr, DecidableEq

/-! ## §2. What is given. -/

/-- What has been given on a command line so far. -/
structure Given where
  /-- The options by their names, each with its value, in order; the value of
  a flag is empty. -/
  options : List (String × String)
  operands : List String
  deriving Repr, DecidableEq

namespace Given

/-- Nothing. -/
def nothing : Given := ⟨[], []⟩

/-- Has an option been given? -/
def has (g : Given) (name : String) : Bool :=
  g.options.any fun (known, _) => known = name

/-- The values of an option, in order. -/
def values (g : Given) (name : String) : List String :=
  g.options.filterMap fun (known, value) => if known = name then some value else none

/-- The value of an option that is given at most once. -/
def value? (g : Given) (name : String) : Option String :=
  (g.values name).head?

/-- Add an option. -/
def addOption (g : Given) (spec : OptionSpec) (value : String) : Except Stop Given :=
  match spec.kind with
  | .page p => .error (.page p)
  | .repeatable => push
  | .flag | .single =>
    if g.has spec.name then .error (.usage (.repeated spec.name)) else push
where
  /-- Add an option that may be added. -/
  push : Except Stop Given :=
    if spec.accepts value then .ok { g with options := g.options ++ [(spec.name, value)] }
    else .error (.usage (.invalidValue value spec.name))

/-- Add an operand. -/
def addOperand (g : Given) (spec : OperandSpec) (text : String) : Except Stop Given :=
  match spec.bound with
  | some n => if g.operands.length < n then push else .error (.usage (.unexpected text))
  | none => push
where
  /-- Add an operand for which there is a place. -/
  push : Except Stop Given :=
    if spec.accepts text then .ok { g with operands := g.operands ++ [text] }
    else .error (.usage (.invalidValue text "operand"))

end Given

/-! ## §3. Reading arguments. -/

/-- Does the kind of option take a value? -/
def OptionKind.takesValue : OptionKind → Bool
  | .single | .repeatable => true
  | .flag | .page _ => false

/-- Does an argument look like an option?  A single dash does not. -/
def isOption (arg : List Char) : Bool :=
  match arg with
  | '-' :: _ :: _ => true
  | _ => false

/-- The name and the value of an argument `--name=value`, without the dashes. -/
def splitValue (text : List Char) : String × Option String :=
  match text.dropWhile (· != '=') with
  | [] => (String.ofList text, none)
  | _ :: value => (String.ofList (text.takeWhile (· != '=')), some (String.ofList value))

/-- What options and operands a command has. -/
structure Grammar where
  options : List OptionSpec
  operands : OperandSpec
  /-- Does the first operand end the reading, as the name of a command does? -/
  isOpen : Bool

/-- What has been given so far, and the option that waits for its value. -/
abbrev Progress : Type := Given × Option OptionSpec

namespace Grammar

variable (grammar : Grammar)

/-- Read an argument that starts with two dashes. -/
def readLong (g : Given) (text : List Char) : Except Stop Progress :=
  let (name, value) := splitValue text
  match grammar.options.find? fun spec => spec.name = name with
  | none => .error (.usage (.unknownOption ("--" ++ name)))
  | some spec =>
    match spec.kind.takesValue, value with
    | true, some value => (g.addOption spec value).map fun g => (g, none)
    | true, none => .ok (g, some spec)
    | false, some _ => .error (.usage (.unneededValue name))
    | false, none => (g.addOption spec "").map fun g => (g, none)

/-- Read letters that stand behind one dash. -/
def readLetters (g : Given) : List Char → Except Stop Progress
  | [] => .ok (g, none)
  | c :: cs =>
    match grammar.options.find? fun spec => spec.letter = some c with
    | none => .error (.usage (.unknownOption (String.ofList ['-', c])))
    | some spec =>
      if spec.kind.takesValue then
        match cs with
        | [] => .ok (g, some spec)
        | '=' :: value | value =>
          (g.addOption spec (String.ofList value)).map fun g => (g, none)
      else do
        let g ← g.addOption spec ""
        readLetters g cs

/-- Read operands. -/
def readOperands (g : Given) : List String → Except Stop Given
  | [] => .ok g
  | arg :: args => do
    let g ← g.addOperand grammar.operands arg
    readOperands g args

/-- Read arguments; what is given, and the arguments that are left from the
operand on that ended the reading. -/
def readFrom : Progress → List String → Except Stop (Given × List String)
  | (g, none), [] => .ok (g, [])
  | (_, some spec), [] => .error (.usage (.missingValue spec.name))
  | (g, some spec), arg :: args =>
    if isOption arg.toList then .error (.usage (.missingValue spec.name))
    else do
      let g ← g.addOption spec arg
      readFrom (g, none) args
  | (g, none), arg :: args =>
    match arg.toList with
    | ['-', '-'] => (grammar.readOperands g args).map fun g => (g, [])
    | '-' :: '-' :: text => do
      let progress ← grammar.readLong g text
      readFrom progress args
    | '-' :: c :: cs => do
      let progress ← grammar.readLetters g (c :: cs)
      readFrom progress args
    | _ =>
      if grammar.isOpen then .ok (g, arg :: args)
      else do
        let g ← g.addOperand grammar.operands arg
        readFrom (g, none) args

/-- Read a command line from its start. -/
def read (args : List String) : Except Stop (Given × List String) :=
  grammar.readFrom (.nothing, none) args

end Grammar

end Cli

end Phrasebook
