import BranchTrace.Text.Numeral

/-!
# Grammars of command lines

What a command takes on its command line. Every argument has a long name behind two hyphens and
may have a letter behind one; it is a switch, or it stands for the value that comes with it or
after it. A `Program` is a command with subcommands, each of which has a grammar of its own.

`Grammar.check` is what holds of a finished command line: no value is missing unless there is a
default, every value is one of its kind, and no argument comes twice. A value that the end of the
command line cuts off is noticed before all else.
-/

namespace BranchTrace.Cli

/-- What the value of an argument may be. -/
inductive ValueKind where
  | text
  /-- A decimal number below a bound. -/
  | decimal (bound : Nat)
  /-- A number below a bound, in hexadecimal behind `0x` and in decimal otherwise. -/
  | number (bound : Nat)
  deriving DecidableEq, Repr

namespace ValueKind

/-- The number that a value stands for. -/
def read : ValueKind → String → Except Text.NumeralError Nat
  | text, _ => .ok 0
  | decimal bound, value => Text.Numeral.parse 10 bound value
  | number bound, value => Text.Numeral.parseMarked bound value

/-- What is wrong with a value. -/
def fault? (kind : ValueKind) (value : String) : Option Text.NumeralError :=
  match kind.read value with
  | .ok _ => none
  | .error e => some e

end ValueKind

/-- What an argument is there for. -/
inductive Role where
  | value (kind : ValueKind) (default? : Option String)
  | switch
  /-- Asks for the help of its command. -/
  | help
  /-- Asks for the version of its command. -/
  | version
  deriving DecidableEq, Repr

/-- An argument of a command. -/
structure Argument where
  name : String
  letter? : Option Char
  role : Role
  help : String
  deriving DecidableEq, Repr

/-- What a command takes. -/
structure Grammar where
  name : String
  about : String
  arguments : List Argument
  deriving DecidableEq, Repr

/-- Why a command line is not carried out. Help and version name the subcommand they are asked
of, if there is one. -/
inductive Refusal where
  | help (command? : Option String)
  | version (command? : Option String)
  /-- The command line ends before a subcommand. -/
  | noCommand
  | unknownCommand (name : String)
  | unexpected (word : String)
  | repeated (name : String)
  | missingValue (name : String)
  | badValue (name value : String) (fault : Text.NumeralError)
  deriving DecidableEq, Repr

/-- What was read of a command line. -/
structure Reading where
  /-- The argument whose value comes next, unless something else does. -/
  pending? : Option Argument := none
  /-- Whether what follows is no argument whatever it looks like. -/
  closed : Bool := false
  /-- The names of the arguments, in order. -/
  uses : List String := []
  /-- The values under the names of their arguments, in order. -/
  values : List (String × String) := []
  deriving DecidableEq, Repr

namespace Reading

/-- Reads an argument, with its value if that comes with it. -/
def use (reading : Reading) (argument : Argument) (value? : Option String) : Reading :=
  { reading with
    pending? := if value?.isNone then some argument else none
    uses := reading.uses ++ [argument.name]
    values := reading.values ++ (value?.map (argument.name, ·)).toList }

/-- Reads a switch. -/
def switch (reading : Reading) (argument : Argument) : Reading :=
  { reading with pending? := none, uses := reading.uses ++ [argument.name] }

/-- Reads a value for the argument that waits for one. -/
def give (reading : Reading) (argument : Argument) (value : String) : Reading :=
  { reading with
    pending? := none, values := reading.values ++ [(argument.name, value)] }

/-- How often an argument was read. -/
def count (reading : Reading) (name : String) : Nat :=
  reading.uses.count name

/-- Whether a switch was read. -/
def has (reading : Reading) (name : String) : Bool :=
  reading.uses.contains name

/-- The values that were read for an argument. -/
def valuesOf (reading : Reading) (name : String) : List String :=
  (reading.values.filter (·.1 = name)).map (·.2)

end Reading

namespace Grammar

/-- The argument with a long name. -/
def named? (grammar : Grammar) (name : String) : Option Argument :=
  grammar.arguments.find? (·.name = name)

/-- The argument with a letter. -/
def lettered? (grammar : Grammar) (letter : Char) : Option Argument :=
  grammar.arguments.find? (·.letter? = some letter)

/-- The values of an argument: those that were read, or else its default. -/
def valuesFor (reading : Reading) (name : String) (default? : Option String) : List String :=
  let given := reading.valuesOf name
  if given.isEmpty then default?.toList else given

/-- Checks the values of an argument. -/
def checkValues (reading : Reading) (name : String) (kind : ValueKind)
    (default? : Option String) : Except Refusal Unit :=
  let values := valuesFor reading name default?
  match values.findSome? fun value => (kind.fault? value).map (value, ·) with
  | some (value, fault) => .error (.badValue name value fault)
  | none =>
    if reading.has name ∧ values.isEmpty then .error (.missingValue name) else .ok ()

/-- Checks one argument against what was read. -/
def checkArgument (reading : Reading) (argument : Argument) : Except Refusal Unit := do
  match argument.role with
  | .value kind default? => checkValues reading argument.name kind default?
  | _ => pure ()
  if 1 < reading.count argument.name then throw (.repeated argument.name)

/-- Checks the argument that still waits for a value at the end, which it may go without if it has
one already or has a default. -/
def checkPending (reading : Reading) : Except Refusal Unit :=
  match reading.pending? with
  | some { name, role := .value _ default?, .. } =>
    if (valuesFor reading name default?).isEmpty then .error (.missingValue name) else .ok ()
  | _ => .ok ()

/-- Checks every argument against what was read. -/
def check (grammar : Grammar) (reading : Reading) : Except Refusal Unit := do
  checkPending reading
  grammar.arguments.forM (checkArgument reading)

/-- The value of an argument: the one that was read, or its default. -/
def value? (grammar : Grammar) (reading : Reading) (name : String) : Option String :=
  match grammar.named? name with
  | some { role := .value _ default?, .. } => (reading.valuesOf name).head?.or default?
  | _ => none

/-- The number that the value of an argument stands for. -/
def number? (grammar : Grammar) (reading : Reading) (name : String) : Option Nat :=
  match grammar.named? name with
  | some { role := .value kind _, .. } =>
    (grammar.value? reading name).bind fun value => (kind.read value).toOption
  | _ => none

end Grammar

/-- A subcommand, and what its command line means. -/
structure Subcommand (α : Type) where
  grammar : Grammar
  read : Reading → α

/-- A program whose subcommands mean values of `α`. -/
structure Program (α : Type) where
  grammar : Grammar
  version : String
  subcommands : List (Subcommand α)
  /-- What stands below the help. -/
  footer : String

/-- The subcommand with a name. -/
def Program.subcommand? {α : Type} (program : Program α) (name : String) :
    Option (Subcommand α) :=
  program.subcommands.find? (·.grammar.name = name)

end BranchTrace.Cli
