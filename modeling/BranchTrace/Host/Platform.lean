import BranchTrace.Host.Basic
import BranchTrace.Tracer.Control
import BranchTrace.Tracer.Fork
import BranchTrace.Tracer.Switch

/-!
# Platforms

A host on a machine, with the tracers that were ever set up on it. A context switch tells every
notifier that the process before leaves, if there was one, and then that the next one comes; a
fork tells the hook on its symbol; a request goes to the device with its name.
-/

namespace BranchTrace

/-- A call that an observer notes. -/
inductive HostCall where
  | schedIn (pid : UInt32) (cpu : Nat)
  | schedOut (pid next : UInt32)
  | forkBegins (pid : UInt32)
  | forkEnds (pid : UInt32) (child : Option UInt32)
  | read (caller : UInt32) (length : Nat)
  | ioctl (caller number : UInt32) (block : List UInt8) (param : UInt64)
  deriving DecidableEq, Repr

/-- A call in words. -/
def HostCall.text : HostCall → String
  | .schedIn pid cpu => "in " ++ toString pid.toNat ++ " " ++ toString cpu
  | .schedOut pid next => "out " ++ toString pid.toNat ++ " " ++ toString next.toNat
  | .forkBegins pid => "pre " ++ toString pid.toNat
  | .forkEnds pid (some child) =>
    "post " ++ toString pid.toNat ++ " Some(" ++ toString child.toNat ++ ")"
  | .forkEnds pid none => "post " ++ toString pid.toNat ++ " None"
  | .read caller length => "read " ++ toString caller.toNat ++ " " ++ toString length
  | .ioctl caller number block param =>
    "ioctl " ++ toString caller.toNat ++ " " ++ Text.hex number.toNat ++ " "
      ++ Text.hexBytes block ++ " " ++ Text.hex param.toNat

/-- A host on a machine. -/
structure Platform where
  machine : Machine
  host : Host := .new
  tracers : Array Tracer := #[]
  /-- The calls that observers noted, newest first. -/
  calls : List (String × HostCall) := []

instance : MachineState Platform where
  machine := Platform.machine
  setMachine s m := { s with machine := m }

namespace Platform

/-- Sets up a tracer: its number. -/
def addTracer (config : Config) : StateM Platform Nat := fun s =>
  (s.tracers.size, { s with tracers := s.tracers.push (.new config) })

/-- Runs a step of a tracer, or answers `absent` if there is no such tracer. -/
def onTracer {α : Type} (id : Nat) (absent : α) (step : Config → StateM Tracing α) :
    StateM Platform α := fun s =>
  match s.tracers[id]? with
  | none => (absent, s)
  | some tracer =>
    let (a, t) := step tracer.config { store := tracer.store, machine := s.machine }
    (a, { s with
          machine := t.machine
          tracers := s.tracers.setIfInBounds id { tracer with store := t.store } })

/-- An observer notes a call. -/
def observe (name : String) (call : HostCall) : StateM Platform Unit :=
  modify fun s => { s with calls := (name, call) :: s.calls }

/-- Tells a notifier that a process leaves a cpu. -/
def notifyOut (pid next : UInt32) : Client → StateM Platform Unit
  | .tracer id => onTracer id () fun _ => Tracer.schedOut pid
  | .observer name _ => observe name (.schedOut pid next)

/-- Tells a notifier that a process comes onto a cpu. -/
def notifyIn (pid : UInt32) (cpu : Nat) : Client → StateM Platform Unit
  | .tracer id => onTracer id () fun _ => Tracer.schedIn pid
  | .observer name _ => observe name (.schedIn pid cpu)

/-- Tells clients one after the other. -/
def tellAll (step : Client → StateM Platform Unit) : List Client → StateM Platform Unit
  | [] => pure ()
  | client :: rest => do
    step client
    tellAll step rest

/-- Switches a cpu to a process. -/
def contextSwitch (cpu : Nat) (next : UInt32) : StateM Platform Unit := do
  let host := (← get).host
  modify fun s => { s with host := { s.host with running := insertKey cpu next host.running } }
  match host.running.lookup cpu with
  | none => pure ()
  | some prev => tellAll (notifyOut prev next) host.notifiers
  tellAll (notifyIn next cpu) host.notifiers

/-- A process forks a child under a symbol. -/
def fork (symbol : String) (parent child : UInt32) : StateM Platform Unit := do
  match (← get).host.hooks.lookup symbol with
  | none => report (.unhooked symbol parent)
  | some (.tracer id) =>
    onTracer id () fun _ => Tracer.forkBegins parent
    onTracer id () fun config => Tracer.forkEnds config parent (some child)
  | some (.observer name _) =>
    observe name (.forkBegins parent)
    observe name (.forkEnds parent (some child))

/-- The status of a request to a device that does not exist. -/
def noDevice : Int := -Errno.enoent.toInt

/-- A process sends a request to a device. -/
def ioctl (name : String) (caller number : UInt32) (block : List UInt8) (param : UInt64) :
    StateM Platform Int := do
  match (← get).host.devices.lookup name with
  | none => return noDevice
  | some (.tracer id) =>
    onTracer id noDevice fun config => Tracer.ioctl config caller number block param
  | some (.observer who status) =>
    observe who (.ioctl caller number block param)
    return status

/-- A process reads from a device. -/
def read (name : String) (caller : UInt32) (length : Nat) : StateM Platform Int := do
  match (← get).host.devices.lookup name with
  | none => return noDevice
  | some (.tracer id) => onTracer id noDevice fun _ => Tracer.deviceRead
  | some (.observer who status) =>
    observe who (.read caller length)
    return status

end Platform

end BranchTrace
