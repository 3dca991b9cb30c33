import BranchTrace.Cli.CpuInfo
import BranchTrace.Cli.DumpMsr
import BranchTrace.Cli.Environment
import BranchTrace.Cli.Simulate
import BranchTrace.Log.Buffer

/-!
# Runs of the program

What one run of the program prints, logs and returns, as a function of its command line, its
environment and the machine. A refused command line ends the run before the log is touched. The
log is opened and its buffer set up before anything else is done, and a log that cannot be set up
ends the run too.
-/

namespace BranchTrace.Cli

/-- Something on the error stream. -/
inductive Notice where
  /-- A log record. -/
  | entry (entry : LogEntry)
  /-- The help of the program. -/
  | help (text : String)
  /-- What is wrong with the command line or the environment, or where the program broke off. -/
  | complaint (text : String)
  deriving DecidableEq, Repr

/-- What a run leaves behind. -/
structure Outcome where
  code : UInt8
  stdout : String := ""
  stderr : List Notice := []
  /-- What goes to the log file, if one was opened. -/
  logged? : Option (List LogEntry) := none
  deriving DecidableEq, Repr

/-- Does what the options ask for: what it prints. -/
def Options.run (options : Options) (processor : Processor) : Action Machine Halt String := do
  match options.mode with
  | .cpuInfo json =>
    let info := CpuInfo.new processor options.model?
    return (if json then info.toJson.compact else info.text) ++ "\n"
  | .dumpMsr cpu? json =>
    let snapshot ← ExceptT.adapt .failed
      (dumpMsr processor.signature? options.model? options.msrRoot cpu?)
    return (if json then snapshot.toJson.compact else snapshot.text) ++ "\n"
  | .simulate simulation =>
    let report ← simulation.run options processor.signature?
    return (if simulation.json then report.toJson.pretty else report.text) ++ "\n"

/-- What is wrong with a command line. -/
def Refusal.message : Refusal → String
  | .help _ | .version _ => ""
  | .noCommand => "a subcommand is needed"
  | .unknownCommand name => "no subcommand is called " ++ Text.quoted name
  | .unexpected word => "argument " ++ Text.quoted word ++ " is not expected here"
  | .repeated name => "argument --" ++ name ++ " may come only once"
  | .missingValue name => "argument --" ++ name ++ " needs a value"
  | .badValue name value fault =>
    "value " ++ Text.quoted value ++ " of --" ++ name ++ " is refused: " ++ fault.message

namespace Outcome

/-- A run that broke off. -/
def crash (text : String) : Outcome :=
  { code := 101, stderr := [.complaint text] }

/-- A run whose command line is not carried out. -/
def ofRefusal : Refusal → Outcome
  | .help command? => { code := 0, stdout := program.help command? ++ "\n" }
  | .version command? => { code := 0, stdout := program.versionText command? ++ "\n" }
  | .noCommand => { code := 1, stderr := [.help (program.help none)] }
  | refusal => { code := 1, stderr := [.complaint ("error: " ++ refusal.message)] }

/-- A run that came to a result, with the events of the run in order, of which those that pass the
filter are logged. The last words on the error stream come before the records that the log still
holds. -/
def ofResult (target : LogTarget) (buffer? : Option Nat) (filter : Filter) (events : List Event)
    (result : Except Halt String) : Outcome :=
  let entries := LogEntry.ofEvents 0 events
  let last := (entries.getLast?.map (·.errno)).getD 0
  let logged := entries.filter (·.event.passes filter)
  let (early, late) :=
    match target with
    | .errorStream => handOver buffer? logged
    | .file _ _ => ([], [])
  let stderr := fun (last : List Notice) => early.map .entry ++ last ++ late.map .entry
  let logged? :=
    match target with
    | .errorStream => none
    | .file _ _ => some logged
  match result with
  | .ok text => { code := 0, stdout := text, stderr := stderr [], logged? }
  | .error (.failed e) =>
    let event := Event.stopped e
    { code := 1, stderr := stderr [.entry ⟨event, event.lastErrno last⟩], logged? }
  | .error (.broken cause) =>
    { code := 101, stderr := stderr [.complaint cause.text], logged? }

/-- A run with options. Whether the log file can be opened is asked of `opens`. -/
def ofOptions (environment : Environment) (processor : Processor) (opens : String → Bool)
    (options : Options) : StateM Machine Outcome := fun m =>
  let target := environment.target
  let opened : Bool :=
    match target with
    | .errorStream => true
    | .file path _ => opens path
  if !opened then (crash "the log file cannot be opened", m)
  else
    match environment.buffer? with
    | none =>
      let logged? := if target = .errorStream then none else some []
      ({ crash "the size of the log buffer is no number" with logged? }, m)
    | some buffer? =>
      let ((), m) := report (.started options.describe) { m with events := [] }
      let (result, m) := options.run processor m
      let filter := environment.filter options.verbose
      (ofResult target buffer? filter m.events.reverse result, m)

/-- A run with a command line. -/
def ofWords (environment : Environment) (processor : Processor) (opens : String → Bool)
    (words : List String) : StateM Machine Outcome :=
  match Options.parse words with
  | .error refusal => pure (ofRefusal refusal)
  | .ok options => ofOptions environment processor opens options

end Outcome

end BranchTrace.Cli
