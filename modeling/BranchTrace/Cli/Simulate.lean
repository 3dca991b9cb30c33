import BranchTrace.Cli.Options
import BranchTrace.Failure.Halt
import BranchTrace.Host.Lifecycle

/-!
# Simulating a traced family

A process and the children it forks are traced on a fresh host with registers in memory. The host
switches one cpu from one process of the family to the next, and each of them, while it runs,
fills the branch stack with branches of its own. At the end every traced process is switched in
once more and dumped, tracing is disabled for the family, and everything is taken down.

The places of the branches are made from the process number and the number of the switch, so a
dump shows which process filled the stack and when it did.
-/

namespace BranchTrace.Cli

/-- Goes on with a result, or stops with its failure. -/
def orHalt {σ α : Type} (result : Except SystemError α) : Action σ Halt α :=
  match result with
  | .ok a => pure a
  | .error e => throw (.failed e)

/-- What a simulation shows. -/
structure Report where
  capacity : Nat
  traced : List UInt32
  snapshots : List Snapshot
  /-- How many contexts were freed when tracing was disabled. -/
  disabled : Nat
  history : List HostChange
  deriving DecidableEq, Repr

namespace Report

/-- A report as a JSON value. -/
def toJson (report : Report) : Text.Json :=
  .obj
    [ ("capacity", .num report.capacity),
      ("traced", .arr (report.traced.map fun pid => .num pid.toNat)),
      ("snapshots", .arr (report.snapshots.map Snapshot.toJson)),
      ("disabled", .num report.disabled),
      ("events", .arr (report.history.map fun change => .str change.text)) ]

/-- A report as text. -/
def text (report : Report) : String :=
  let pids := ", ".intercalate (report.traced.map fun pid => toString pid.toNat)
  "LBR entries: " ++ toString report.capacity ++ "\nTraced: [" ++ pids ++ "]\n"
    ++ String.join (report.snapshots.map fun snapshot => snapshot.text ++ "\n\n")
    ++ "Disabled " ++ toString report.disabled ++ " states"

end Report

/-! ## Branches -/

/-- The branches that a process takes in one round. -/
def takenBranches (capacity : Nat) (pid round : UInt32) : List Branch :=
  let base := (0x400000 : UInt64) + (pid.toUInt64 <<< 12) + (round.toUInt64 <<< 8)
  (List.range (capacity % UInt32.size)).map fun i =>
    let source : UInt64 := base + UInt64.ofNat i * 0x10
    { source, target := source + 8 }

/-- Writes registers of a bank in order. -/
def writeAll (bank : SoftBank) (cpu : Nat) : List (UInt32 × UInt64) → SoftBank
  | [] => bank
  | (msr, value) :: rest => writeAll (bank.write cpu msr value) cpu rest

/-- A process fills the stack of a cpu; the top of the stack moves on with every round. -/
def recordBranches (cpu capacity : Nat) (pid round : UInt32) : Action Platform Halt Unit := fun p =>
  if capacity = 0 then (.error (.broken .emptyStack), p)
  else
    match p.machine.bank with
    | .nodes _ => (.ok (), p)
    | .soft bank =>
      let writes :=
        (Msr.tos, UInt64.ofNat (round.toNat % capacity))
          :: branchWrites 0 (takenBranches capacity pid round)
      (.ok (), { p with machine := { p.machine with bank := .soft (writeAll bank cpu writes) } })

/-! ## The simulation -/

/-- The process that stands for everything not traced. -/
def idlePid : UInt32 := 1

/-- The branches of a stack whose size is not known. -/
def assumedCapacity : Nat := 16

namespace Simulation

/-- The traced process and its children. -/
def family (simulation : Simulation) : Except SystemError (List UInt32) :=
  if simulation.pid.toNat + simulation.children.toNat < UInt32.size then
    .ok ((List.range (simulation.children.toNat + 1)).map fun i =>
      simulation.pid + UInt32.ofNat i)
  else
    .error (.other .invalidInput
      ("--pid " ++ toString simulation.pid.toNat ++ " with " ++ toString simulation.children.toNat
        ++ " children runs past the largest pid"))

/-- The size of the branch stack: as asked for, as the processor has it, or assumed. -/
def capacity (simulation : Simulation) (options : Options) (detected? : Option Signature) :
    Action Machine SystemError Nat := fun m =>
  match simulation.capacity? with
  | some capacity => (.ok capacity, m)
  | none =>
    match Signature.identify detected? options.model? m with
    | (.ok capacity, m) => (.ok capacity, m)
    | (.error (.unsupportedCpu family model), m) =>
      if options.suppressWarnings then (.ok assumedCapacity, m)
      else
        let event := Event.capacityAssumed (.unsupportedCpu family model) assumedCapacity
        let ((), m) := report event m
        (.ok assumedCapacity, m)
    | (.error e, m) => (.error e.toSystemError, m)

/-- A process sends a request to the control device. -/
def request (what : String) (caller : UInt32) (command : Command) (target : UInt32)
    (param : UInt64) : Action Platform Halt Unit := do
  let block := Request.toBytes { select := 0, pid := target }
  let status ← Platform.ioctl deviceName caller command.number block param
  ExceptT.mk (pure (checkStatus what (.ofInt status)))

/-- A process forks children. -/
def forkAll (pid : UInt32) : List UInt32 → StateM Platform Unit
  | [] => pure ()
  | child :: rest => do
    Platform.fork forkSymbol pid child
    forkAll pid rest

/-- Switches from process to process. -/
def runRounds (cpu capacity : Nat) (runnable : List UInt32) :
    List Nat → Action Platform Halt Unit
  | [] => pure ()
  | round :: rest => do
    let next := (runnable[round % runnable.length]?).getD idlePid
    Platform.contextSwitch cpu next
    recordBranches cpu capacity next (UInt32.ofNat round)
    runRounds cpu capacity runnable rest

/-- Dumps a process. -/
def dump (id : Nat) (pid : UInt32) : StateM Platform (Except TraceError Snapshot) :=
  Platform.onTracer id (.error (.notFound pid)) fun _ => (Tracer.dump (some pid)).run

/-- Switches each process in and dumps it. -/
def dumpAll (cpu id : Nat) : List UInt32 → Action Platform Halt (List Snapshot)
  | [] => pure []
  | pid :: rest => do
    Platform.contextSwitch cpu pid
    let dumped ← ExceptT.lift (dump id pid)
    let snapshot ← orHalt (dumped.mapError TraceError.toSystemError)
    return snapshot :: (← dumpAll cpu id rest)

/-- The traced processes. -/
def traced (id : Nat) : StateM Platform (List UInt32) :=
  Platform.onTracer id [] fun _ s => (Tracer.tracedPids s.store, s)

/-- The number of traced processes. -/
def countTraced (id : Nat) : StateM Platform Nat :=
  Platform.onTracer id 0 fun _ s => (s.store.len, s)

/-- What happens between loading and unloading, on one cpu. -/
def session (simulation : Simulation) (family : List UInt32) (capacity id cpu : Nat) :
    Action Platform Halt Report := do
  let pid := simulation.pid
  request "ENABLE_TRACE" pid .enable 0 0
  ExceptT.lift (forkAll pid (family.drop 1))
  if let some bits := simulation.select? then
    request "SELECT_LBR" pid .select pid bits
  runRounds cpu capacity (family ++ [idlePid]) (List.range simulation.switches.toNat)
  let pids ← traced id
  let snapshots ← dumpAll cpu id pids
  Platform.contextSwitch cpu idlePid
  let before ← countTraced id
  request "DISABLE_TRACE" pid .disable 0 0
  let disabled := before - (← countTraced id)
  return { capacity, traced := pids, snapshots, disabled, history := [] }

/-- Loads tracing into a host, runs the session and unloads again. A session that fails leaves
tracing loaded. -/
def onHost (simulation : Simulation) (family : List UInt32) (config : Config) :
    Action Platform Halt Report := do
  let id ← ExceptT.adapt (fun e => .failed e.toSystemError) (Platform.load config)
  let report ← pinned .failed Pin.current fun pin =>
    session simulation family config.capacity id pin.cpu
  let _ ← Platform.unload id
  let history := (← get).host.history
  ExceptT.lift (reportAll (history.map .hostChanged))
  return { report with history }

/-- Runs a simulation, on as many register files as the highest cpu of the thread asks for. -/
def run (simulation : Simulation) (options : Options) (detected? : Option Signature) :
    Action Machine Halt Report := do
  let family ← orHalt simulation.family
  let capacity ← ExceptT.adapt .failed (simulation.capacity options detected?)
  let cpus ← ExceptT.adapt .failed allowedCpus
  let files := (cpus.map (· + 1)).foldl max 1
  let config := Config.new capacity options.defaultSelect?
  fun m =>
    let bank := Bank.soft (.new files)
    let (r, p) := simulation.onHost family config { machine := { m with bank } }
    (r, { p.machine with bank := m.bank })

end Simulation

end BranchTrace.Cli
