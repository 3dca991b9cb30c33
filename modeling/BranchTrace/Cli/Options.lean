import BranchTrace.Cli.Help
import BranchTrace.Cli.Parse
import BranchTrace.Text.Quoted

/-!
# Options

What the command line of the program can say: options of the program, and one of three
subcommands, which show the processor, read the live branch registers of a cpu, or trace a
simulated family of processes.
-/

namespace BranchTrace.Cli

/-- What to simulate. -/
structure Simulation where
  pid : UInt32
  children : UInt32
  select? : Option UInt64
  switches : UInt32
  capacity? : Option Nat
  json : Bool
  deriving DecidableEq, Repr

/-- What the program is to do. -/
inductive Mode where
  | cpuInfo (json : Bool)
  | dumpMsr (cpu? : Option Nat) (json : Bool)
  | simulate (simulation : Simulation)
  deriving DecidableEq, Repr

/-- What the command line says. -/
structure Options where
  model? : Option UInt32
  defaultSelect? : Option UInt64
  msrRoot : String
  verbose : Bool
  suppressWarnings : Bool
  mode : Mode
  deriving DecidableEq, Repr

/-! ## Grammars -/

/-- The argument that asks for help. -/
def helpArgument : Argument :=
  { name := "help", letter? := some 'h', role := .help, help := "Prints help information" }

/-- The argument that asks for the version. -/
def versionArgument : Argument :=
  { name := "version", letter? := some 'V', role := .version,
    help := "Prints version information" }

/-- The switch for output in JSON. -/
def jsonArgument : Argument :=
  { name := "json", letter? := none, role := .switch, help := "Print as JSON" }

/-- An argument with a value and no letter. -/
def valueArgument (name : String) (kind : ValueKind) (default? : Option String) (help : String) :
    Argument :=
  { name, letter? := none, role := .value kind default?, help }

/-- What shows the processor. -/
def cpuInfoGrammar : Grammar :=
  { name := "cpu-info"
    about := "Print the CPU vendor, family and model and how many LBR entries it has"
    arguments := [helpArgument, jsonArgument, versionArgument] }

/-- What reads the live branch registers. -/
def dumpMsrGrammar : Grammar :=
  { name := "dump-msr"
    about := "Read the live LBR registers of one cpu through the msr driver. Needs root and the "
      ++ "`msr` kernel module"
    arguments :=
      [ valueArgument "cpu" (.decimal UInt64.size) none
          "Cpu to read; defaults to the one we happen to run on",
        helpArgument, jsonArgument, versionArgument ] }

/-- What traces a simulated family. -/
def simulateGrammar : Grammar :=
  { name := "simulate"
    about := "Load the LBR subsystem on an in-process host with software MSRs, trace a process "
      ++ "and its children through a series of context switches, then dump and unload"
    arguments :=
      [ valueArgument "capacity" (.decimal UInt64.size) none
          "Number of LBR entries; defaults to what the CPU (or --model) says",
        valueArgument "children" (.decimal UInt32.size) (some "2")
          "How many children the traced process forks",
        helpArgument, jsonArgument,
        valueArgument "pid" (.decimal UInt32.size) (some "1000") "Pid of the traced process",
        valueArgument "select" (.number UInt64.size) none
          "LBR_SELECT bits to reconfigure the traced process with after enabling it",
        valueArgument "switches" (.decimal UInt32.size) (some "8")
          "How many context switches to run",
        versionArgument ] }

/-- The options of the program itself. -/
def mainGrammar : Grammar :=
  { name := "iht"
    about := "Per-process Intel LBR tracing"
    arguments :=
      [ valueArgument "default-select" (.number UInt64.size) none
          "LBR_SELECT bits used when an ENABLE_TRACE request passes 0",
        helpArgument,
        { name := "model", letter? := some 'A', role := .value (.number UInt32.size) none,
          help := "Force iht to assume it's running on a family 6 CPU with display model <model> "
            ++ "even if CPUID says otherwise, e.g. `0x9e`" },
        valueArgument "msr-root" .text (some "/dev/cpu")
          "Directory holding the per-cpu msr device nodes",
        { name := "suppress-environment-warnings", letter? := some 'S', role := .switch,
          help := "Suppress warnings about issues in the environment that iht has no control "
            ++ "over." },
        versionArgument,
        { name := "verbose", letter? := some 'v', role := .switch,
          help := "Log at info level everywhere, overriding IHT_LOG" } ] }

/-! ## Meaning -/

/-- What the arguments of a simulation mean. -/
def Simulation.ofReading (reading : Reading) : Simulation :=
  let number? := simulateGrammar.number? reading
  { pid := UInt32.ofNat ((number? "pid").getD 0)
    children := UInt32.ofNat ((number? "children").getD 0)
    select? := (number? "select").map UInt64.ofNat
    switches := UInt32.ofNat ((number? "switches").getD 0)
    capacity? := number? "capacity"
    json := reading.has "json" }

/-- The program. -/
def program : Program Mode :=
  { grammar := mainGrammar
    version := "0.0.0"
    subcommands :=
      [ { grammar := cpuInfoGrammar, read := fun reading => .cpuInfo (reading.has "json") },
        { grammar := dumpMsrGrammar,
          read := fun reading =>
            .dumpMsr (dumpMsrGrammar.number? reading "cpu") (reading.has "json") },
        { grammar := simulateGrammar,
          read := fun reading => .simulate (.ofReading reading) } ]
    footer := "Use IHT_LOG to control logging; e.g. IHT_LOG=all:warn,state_list:debug" }

namespace Options

/-- What the program's own arguments mean, next to a subcommand. -/
def ofReading (reading : Reading) (mode : Mode) : Options :=
  { model? := (mainGrammar.number? reading "model").map UInt32.ofNat
    defaultSelect? := (mainGrammar.number? reading "default-select").map UInt64.ofNat
    msrRoot := (mainGrammar.value? reading "msr-root").getD ""
    verbose := reading.has "verbose"
    suppressWarnings := reading.has "suppress-environment-warnings"
    mode }

/-- Reads a command line. -/
def parse (words : List String) : Except Refusal Options := do
  let (reading, mode) ← program.parse words
  return ofReading reading mode

end Options

/-! ## Options in the log -/

/-- A value that may be absent. -/
def describeOption : Option Nat → String
  | none => "None"
  | some n => "Some(" ++ toString n ++ ")"

/-- Named fields behind the name of what they belong to. -/
def describeFields (name : String) (fields : List (String × String)) : String :=
  name ++ " \x7b "
    ++ ", ".intercalate (fields.map fun field => field.1 ++ ": " ++ field.2) ++ " \x7d"

/-- A subcommand as it stands in the log. -/
def Mode.describe : Mode → String
  | .cpuInfo json => describeFields "CpuInfo" [("json", toString json)]
  | .dumpMsr cpu? json =>
    describeFields "DumpMsr" [("cpu", describeOption cpu?), ("json", toString json)]
  | .simulate s =>
    describeFields "Simulate"
      [ ("pid", toString s.pid.toNat), ("children", toString s.children.toNat),
        ("select", describeOption (s.select?.map UInt64.toNat)),
        ("switches", toString s.switches.toNat), ("capacity", describeOption s.capacity?),
        ("json", toString s.json) ]

/-- Options as they stand in the log. -/
def Options.describe (options : Options) : String :=
  describeFields "IhtOptions"
    [ ("model", describeOption (options.model?.map UInt32.toNat)),
      ("default_select", describeOption (options.defaultSelect?.map UInt64.toNat)),
      ("msr_root", Text.quoted options.msrRoot), ("verbose", toString options.verbose),
      ("suppress_environment_warnings", toString options.suppressWarnings),
      ("cmd", options.mode.describe) ]

end BranchTrace.Cli
