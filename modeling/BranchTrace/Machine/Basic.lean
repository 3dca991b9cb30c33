import BranchTrace.Log.Event
import BranchTrace.Machine.Fault
import BranchTrace.Machine.FileTree
import BranchTrace.Register.SoftBank

/-!
# The machine

What the library sees of the computer it runs on: the cpus, the one thread it runs in, the branch
registers, the files, and a plan of failures. The machine also keeps two journals, newest entry
first: the events that were reported, and the register accesses that were tried, each with the
cpus the thread was bound to at that moment.

An `Action` is a step that changes a state and may fail; what it changed before it failed stays
changed. Most actions change a machine alone, and any state that contains a machine
(`MachineState`) can run them (`onMachine`).
-/

namespace BranchTrace

/-- A step on a state that may fail and keeps what it did before failing. -/
abbrev Action (σ ε α : Type) := ExceptT ε (StateM σ) α

/-- The open register nodes, one place for each cpu: nothing where the node did not open. -/
structure NodeBank where
  nodes : List (Option Place)

/-- Where branch registers live. -/
inductive Bank where
  | soft (bank : SoftBank)
  | nodes (bank : NodeBank)

/-- One attempt to read or write a register. -/
structure Access where
  /-- Whether it was a write. -/
  write : Bool
  cpu : Nat
  msr : UInt32
  /-- The value that was read or written, if the attempt succeeded. -/
  value : Option UInt64
  /-- The cpus the thread was bound to. -/
  allowed : List Nat
  /-- The cpu the thread was on. -/
  cur : Nat
  deriving DecidableEq, Repr

/-- An access that succeeded, in words. -/
def Access.text? (access : Access) : Option String :=
  access.value.map fun value =>
    (if access.write then "w" else "r") ++ toString access.cpu ++ " "
      ++ Text.hex access.msr.toNat ++ " " ++ Text.hex value.toNat

/-- The computer as the library sees it. -/
structure Machine where
  /-- The configured cpus are the numbers below this one. -/
  cpus : Nat
  /-- The cpus the thread may run on, ascending. -/
  allowed : List Nat
  /-- The cpu the thread runs on. -/
  cur : Nat
  faults : List Fault := []
  bank : Bank := .soft (.new 1)
  files : FileTree := .base
  /-- What was reported, newest first. -/
  events : List Event := []
  /-- The register accesses that were tried, newest first. -/
  accesses : List Access := []

/-- A state that contains a machine. -/
class MachineState (σ : Type) where
  machine : σ → Machine
  setMachine : σ → Machine → σ
  machine_setMachine : ∀ s m, machine (setMachine s m) = m := by intros; rfl
  setMachine_machine : ∀ s, setMachine s (machine s) = s := by intros; rfl
  setMachine_setMachine : ∀ s m m', setMachine (setMachine s m) m' = setMachine s m' := by
    intros; rfl

instance : MachineState Machine where
  machine := id
  setMachine _ m := m

open MachineState

/-- Runs a step of the machine inside a state that contains one. -/
def onMachine {σ α : Type} [MachineState σ] (step : StateM Machine α) : StateM σ α := fun s =>
  let (a, m) := step (machine s)
  (a, setMachine s m)

/-- Runs a failing step of the machine inside a state that contains one. -/
def tryMachine {σ ε α : Type} [MachineState σ] (wrap : SystemError → ε)
    (step : Action Machine SystemError α) : Action σ ε α := fun s =>
  let (r, m) := step (machine s)
  (r.mapError wrap, setMachine s m)

/-- Reports an event. -/
def report {σ : Type} [MachineState σ] (event : Event) : StateM σ Unit :=
  onMachine fun m => ((), { m with events := event :: m.events })

/-- Reports an event in a step that may fail. -/
def tell {σ ε : Type} [MachineState σ] (event : Event) : Action σ ε Unit :=
  ExceptT.lift (report event)

/-- Reports events in order. -/
def reportAll {σ : Type} [MachineState σ] (events : List Event) : StateM σ Unit :=
  onMachine fun m => ((), { m with events := events.reverse ++ m.events })

namespace Machine

/-- A machine of some cpus whose thread may run on all of them and is on the first. -/
def new (cpus : Nat) : Machine :=
  { cpus, allowed := List.range cpus, cur := 0 }

/-- The numbers a set of cpus can hold are those below this one. -/
def maxCpus : Nat := 1024

/-- Asks the plan of failures about one call. -/
def trip (call : Call) : StateM Machine (Option Fault) := fun m =>
  let (struck, faults) := Fault.trip call m.faults
  (struck, { m with faults })

/-- The failure of a call that a fault strikes. The calls about affinity lose an error number
without a name; the others keep every number. -/
def failureOf (call : Call) (errno : Int32) : SystemError :=
  match call with
  | .getaffinity | .setaffinity => .ofCall (.errno errno)
  | _ => .os errno

/-- A call that fails with the error number of the fault that strikes it. -/
def guarded {α : Type} (call : Call) (step : Action Machine SystemError α) :
    Action Machine SystemError α := fun m =>
  match trip call m with
  | (some fault, m) => (.error (failureOf call fault.errno), m)
  | (none, m) => step m

/-- The number of configured cpus. -/
def nproc : Action Machine SystemError Nat :=
  guarded .nproc do
    let m ← get
    if m.cpus = 0 then throw (.os 0)
    return m.cpus

/-- The cpus the thread may run on. -/
def getAffinity : Action Machine SystemError (List Nat) :=
  guarded .getaffinity do return (← get).allowed.filter (· < maxCpus)

/-- The cpu the thread runs on. -/
def getCpu : Action Machine SystemError Nat :=
  guarded .getcpu do return (← get).cur

/-- The thread after its cpus were set: the configured ones among `cpus`, if there are any. A
thread that is on none of them moves to the lowest. -/
def bind? (m : Machine) (cpus : List Nat) : Option Machine :=
  match cpus.filter (· < m.cpus) with
  | [] => none
  | lowest :: rest =>
    let allowed := lowest :: rest
    some { m with allowed, cur := if m.cur ∈ allowed then m.cur else lowest }

/-- Binds the thread to cpus, given in ascending order. -/
def setAffinity (cpus : List Nat) : Action Machine SystemError Unit :=
  guarded .setaffinity fun m =>
    match m.bind? cpus with
    | none => (.error (.os Errno.einval), m)
    | some m => (.ok (), m)

end Machine

end BranchTrace
