import BranchTrace.Cli.Grammar
import BranchTrace.Text.Wrap

/-!
# Help texts

What a program and its subcommands print about themselves: name and version, what they are for,
how they are called, and a table with a line for each argument and each subcommand. The texts in a
table start in one column, and are wrapped like everything else to the width of the page.
-/

namespace BranchTrace.Cli

/-- The columns of a page. -/
def pageWidth : Nat := 120

/-- Blanks. -/
def blanks (count : Nat) : String :=
  String.ofList (List.replicate count ' ')

/-- A table under a heading. The left parts stand behind four blanks, and the texts start four
columns after the longest of them and end `margin` columns before the page does. -/
def table (heading : String) (margin : Nat) (entries : List (String × String)) : String :=
  let longest := (entries.map (·.1.length)).foldl max 0
  let column := 4 + longest + 4
  let entry := fun ((left, text) : String × String) =>
    "    " ++ left ++ blanks (longest + 4 - left.length)
      ++ ("\n" ++ blanks column).intercalate (Text.wrap (pageWidth - column - margin) text)
  heading ++ ":\n" ++ "\n".intercalate (entries.map entry)

/-- How an argument is written, with blanks in the place of a letter it does not have. -/
def Argument.usage (argument : Argument) : String :=
  let letter :=
    match argument.letter? with
    | some letter => "-" ++ letter.toString ++ ", "
    | none => "    "
  let value :=
    match argument.role with
    | .value _ _ => " <" ++ argument.name ++ ">"
    | _ => ""
  letter ++ "--" ++ argument.name ++ value

/-- What an argument is for, and its default. -/
def Argument.explanation (argument : Argument) : String :=
  match argument.role with
  | .value _ (some default) => argument.help ++ " [default: " ++ default ++ "]"
  | _ => argument.help

/-- The table of the arguments. -/
def Grammar.argumentTable (grammar : Grammar) : String :=
  table "OPTIONS" 0 (grammar.arguments.map fun argument =>
    (argument.usage, argument.explanation))

namespace Program

/-- The head of a page: the title, what it is about, and how the thing is called. -/
def pageHead (title about usage : String) : String :=
  title ++ "\n" ++ "\n".intercalate (Text.wrap pageWidth about) ++ "\n\nUSAGE:\n    " ++ usage

/-- The name and version of a program. -/
def title {α : Type} (program : Program α) : String :=
  program.grammar.name ++ " " ++ program.version

/-- The name and version of a subcommand. -/
def commandTitle {α : Type} (program : Program α) (name : String) : String :=
  program.grammar.name ++ "-" ++ name ++ " " ++ program.version

/-- What the help word is for. -/
def helpAbout : String :=
  "Prints this message or the help of the given subcommand(s)"

/-- The subcommands and the help word, each with what it is for, in alphabetical order. -/
def listed {α : Type} (program : Program α) : List (String × String) :=
  let entries :=
    ("help", helpAbout) :: program.subcommands.map fun s => (s.grammar.name, s.grammar.about)
  entries.mergeSort fun a b => a.1 ≤ b.1

/-- The help of a program. -/
def ownHelp {α : Type} (program : Program α) : String :=
  let usage := program.grammar.name ++ " [OPTIONS] <SUBCOMMAND>"
  "\n\n".intercalate
    [ pageHead program.title program.grammar.about usage, program.grammar.argumentTable,
      table "SUBCOMMANDS" 4 program.listed, program.footer ]

/-- The help of a subcommand. -/
def commandHelp {α : Type} (program : Program α) (grammar : Grammar) : String :=
  let usage := program.grammar.name ++ " " ++ grammar.name ++ " [OPTIONS]"
  "\n\n".intercalate
    [ pageHead (program.commandTitle grammar.name) grammar.about usage, grammar.argumentTable ]

/-- The help of the help word. -/
def helpHelp {α : Type} (program : Program α) : String :=
  let usage := program.grammar.name ++ " help [subcommand]..."
  "\n\n".intercalate
    [ pageHead (program.grammar.name ++ "-help ") helpAbout usage,
      table "ARGS" 0 [("<subcommand>...", "The subcommand whose help message to display")] ]

/-- The help of a program or of one of its subcommands. -/
def help {α : Type} (program : Program α) : Option String → String
  | none => program.ownHelp
  | some name =>
    match program.subcommand? name with
    | some subcommand => program.commandHelp subcommand.grammar
    | none => program.helpHelp

/-- The version of a program or of one of its subcommands. -/
def versionText {α : Type} (program : Program α) : Option String → String
  | none => program.title
  | some name => program.commandTitle name

end Program

end BranchTrace.Cli
