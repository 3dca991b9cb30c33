import BranchTrace.Cli.Outcome

/-!
# The program

Reads the command line, the environment, the processor and the register nodes, runs, and puts out
what the run leaves behind. The register nodes are ordinary files here, read whole at the start.
-/

namespace BranchTrace.Cli

/-! ## What the system says -/

/-- The key and the value of a line, around its first colon. -/
def splitLine (line : String) : Option (String × String) :=
  (Filter.splitItem line.toList).map fun (key, value) =>
    (String.ofList (Text.trim key), String.ofList (Text.trim value))

/-- The keys and values in the lines of a text. -/
def readTable (text : String) : List (String × String) :=
  (Text.splitAll '\n' text.toList).filterMap fun line => splitLine (String.ofList line)

/-- A decimal number. -/
def decimal? (text : String) : Option Nat :=
  (Text.Numeral.parse 10 UInt32.size text).toOption

/-- The processor that a table of the system describes. -/
def Processor.ofTable (table : List (String × String)) : Processor :=
  let number := fun key => (table.lookup key).bind decimal?
  { vendor? := table.lookup "vendor_id"
    signature? := do
      let family ← number "cpu family"
      let model ← number "model"
      return { family := UInt32.ofNat (min family 15), model := UInt32.ofNat model } }

/-- The numbers that a range stands for, or a single number. -/
def rangeNumbers (text : String) : List Nat :=
  match (Text.splitAll '-' text.toList).map fun piece => decimal? (String.ofList piece) with
  | [some n] => [n]
  | [some first, some last] => (List.range (last + 1)).drop first
  | _ => []

/-- The numbers in a list of ranges. -/
def listNumbers (text : String) : List Nat :=
  (Text.splitAll ',' text.toList).flatMap fun piece =>
    rangeNumbers (String.ofList (Text.trim piece))

/-- A machine with the configured cpus and those the thread may run on. -/
def machineOf (present allowed : List Nat) : Machine :=
  let cpus := (present.map (· + 1)).foldl max 1
  let allowed := if allowed.isEmpty then List.range cpus else allowed
  { cpus, allowed, cur := allowed.head?.getD 0 }

/-! ## Reading and writing -/

/-- The contents of a file, or nothing. -/
def readText (path : String) : IO String := do
  try IO.FS.readFile path catch _ => return ""

/-- Reads the variables of the environment. -/
def readEnvironment : IO Environment :=
  return {
    log? := ← IO.getEnv "IHT_LOG"
    logFile? := ← IO.getEnv "IHT_LOG_FILE"
    appendLogFile? := ← IO.getEnv "IHT_APPEND_LOG_FILE"
    logBuffer? := ← IO.getEnv "IHT_LOG_BUFFER" }

/-- Reads the register nodes of cpus that can be read. -/
def readNodes (root : String) : List Nat → FileTree → IO FileTree
  | [], tree => return tree
  | cpu :: rest, tree => do
    let path := NodeBank.nodePath root cpu
    let tree ← try
        let bytes ← IO.FS.readBinFile path
        let place := (FileTree.names path).filter (· ≠ "")
        pure (tree.plant place ((ByteFile.zeros 0).write 0 bytes.toList))
      catch _ => pure tree
    readNodes root rest tree

/-- Reads the machine, with the register nodes if the options ask for them. -/
def readMachine (options : Options) : IO Machine := do
  let present ← readText "/sys/devices/system/cpu/present"
  let status ← readText "/proc/self/status"
  let allowed := ((readTable status).lookup "Cpus_allowed_list").getD ""
  let machine := machineOf (listNumbers present) (listNumbers allowed)
  match options.mode with
  | .dumpMsr _ _ =>
    return { machine with
      files := ← readNodes options.msrRoot (List.range machine.cpus) machine.files }
  | _ => return machine

/-- Opens the log file, if there is one to open: whether that worked, and the file. -/
def openLog (target : LogTarget) : IO (Bool × Option IO.FS.Handle) := do
  match target with
  | .errorStream => return (true, none)
  | .file path append =>
    try
      let handle ← IO.FS.Handle.mk path (if append then .append else .write)
      return (true, some handle)
    catch _ => return (false, none)

/-- The line of a notice. -/
def Notice.line : Notice → String
  | .entry e => e.record
  | .help text | .complaint text => text ++ "\n"

/-- Puts out what a run leaves behind. -/
def Outcome.putOut (outcome : Outcome) (log? : Option IO.FS.Handle) : IO Unit := do
  if let some log := log? then
    for entry in outcome.logged?.getD [] do
      log.putStr entry.record
  IO.print outcome.stdout
  for notice in outcome.stderr do
    IO.eprint notice.line

/-- Runs the program: its exit code. -/
def runProgram (words : List String) : IO UInt8 := do
  match Options.parse words with
  | .error refusal =>
    let outcome := Outcome.ofRefusal refusal
    outcome.putOut none
    return outcome.code
  | .ok options =>
    let environment ← readEnvironment
    let processor := Processor.ofTable (readTable (← readText "/proc/cpuinfo"))
    let machine ← readMachine options
    let (opened, log?) ← openLog environment.target
    let (outcome, _) := Outcome.ofOptions environment processor (fun _ => opened) options machine
    outcome.putOut log?
    return outcome.code

end BranchTrace.Cli

/-- Runs the program on its command line. -/
def main (args : List String) : IO UInt32 := do
  return (← BranchTrace.Cli.runProgram args).toUInt32
