import BranchTrace.Cli.Grammar

/-!
# Reading command lines

A command line is read word by word. Until a word of two bare hyphens, one with two hyphens in
front is an argument by its long name, with a value behind `=` if there is one, and one with a
single hyphen is arguments by their letters, up to the first that takes a value, which is the rest
of the word. Any other word is the value of the argument before it, if that still waits for one,
or else the name of a subcommand, which reads the rest. An argument that waits for a value goes
without it if another argument comes first.

Help and version end the reading where they stand. Otherwise a subcommand checks what it read
before the program checks its own.
-/

namespace BranchTrace.Cli

/-- Splits a word at its first `=`; further ones after that are dropped. -/
def splitValue (word : List Char) : String × Option String :=
  match word.span (· ≠ '=') with
  | (name, []) => (String.ofList name, none)
  | (name, _ :: value) =>
    (String.ofList name, some (String.ofList (value.dropWhile (· = '='))))

namespace Grammar

/-- Reads an argument with the value that comes with it. Other than a value argument, none has use
for one. -/
def readArgument (command? : Option String) (argument : Argument) (value? : Option String)
    (reading : Reading) : Except Refusal Reading :=
  match argument.role with
  | .value _ _ => .ok (reading.use argument value?)
  | .switch => .ok (reading.switch argument)
  | .help => .error (.help command?)
  | .version => .error (.version command?)

/-- Reads an argument by its long name. -/
def readLong (grammar : Grammar) (command? : Option String) (word : String) (reading : Reading) :
    Except Refusal Reading :=
  let (name, value?) := splitValue (word.toList.dropWhile (· = '-'))
  match grammar.named? name with
  | some argument => readArgument command? argument value? reading
  | none => .error (.unexpected word)

/-- Reads arguments by their letters. -/
def readLetters (grammar : Grammar) (command? : Option String) (word : String) :
    List Char → Reading → Except Refusal Reading
  | [], reading => .ok reading
  | letter :: rest, reading =>
    match grammar.lettered? letter with
    | none => .error (.unexpected word)
    | some argument =>
      match argument.role with
      | .value _ _ =>
        let value? :=
          if rest.isEmpty then none else some (String.ofList (rest.dropWhile (· = '=')))
        .ok (reading.use argument value?)
      | _ => do
        let reading ← readArgument command? argument none reading
        readLetters grammar command? word rest reading

/-- Reads one word that names no subcommand. -/
def readWord (grammar : Grammar) (command? : Option String) (word : String) (reading : Reading) :
    Except Refusal Reading :=
  if reading.closed then .error (.unexpected word)
  else
    match word.toList with
    | ['-', '-'] => .ok { reading with closed := true }
    | '-' :: '-' :: _ => grammar.readLong command? word reading
    | '-' :: letter :: rest => grammar.readLetters command? word (letter :: rest) reading
    | _ =>
      match reading.pending? with
      | some argument => .ok (reading.give argument word)
      | none => .error (if command?.isSome then .unexpected word else .unknownCommand word)

/-- Reads the whole command line of a subcommand. -/
def readAll (grammar : Grammar) (command? : Option String) :
    List String → Reading → Except Refusal Reading
  | [], reading => .ok reading
  | word :: words, reading => do
    let reading ← grammar.readWord command? word reading
    grammar.readAll command? words reading

end Grammar

namespace Program

/-- The word that asks for help on what follows. -/
def helpWord : String := "help"

/-- What the words after the help word ask for. -/
def helpOn {α : Type} (program : Program α) : List String → Refusal
  | [] => .help none
  | [name] =>
    if name = helpWord ∨ (program.subcommand? name).isSome then .help (some name)
    else .unknownCommand name
  | name :: word :: _ =>
    if name = helpWord ∨ (program.subcommand? name).isSome then .unexpected word
    else .unknownCommand name

/-- Reads a command line up to its subcommand: what was read of the program's own arguments, the
subcommand, and the words after it. -/
def readUpToCommand {α : Type} (program : Program α) :
    List String → Reading → Except Refusal (Reading × Subcommand α × List String)
  | [], _ => .error .noCommand
  | word :: words, reading =>
    let subcommand? :=
      if reading.closed ∨ reading.pending?.isSome then none else program.subcommand? word
    match subcommand? with
    | some subcommand => .ok (reading, subcommand, words)
    | none =>
      if word = helpWord ∧ ¬reading.closed ∧ reading.pending?.isNone then
        .error (program.helpOn words)
      else do
        let reading ← program.grammar.readWord none word reading
        program.readUpToCommand words reading

/-- Reads and checks a command line: what was read of the program's own arguments, and what the
subcommand with its arguments means. -/
def parse {α : Type} (program : Program α) (words : List String) :
    Except Refusal (Reading × α) := do
  let (own, subcommand, rest) ← program.readUpToCommand words {}
  let reading ← subcommand.grammar.readAll (some subcommand.grammar.name) rest {}
  subcommand.grammar.check reading
  program.grammar.check own
  return (own, subcommand.read reading)

end Program

end BranchTrace.Cli
