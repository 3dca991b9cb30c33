import BranchTrace.CpuModel
import BranchTrace.Host.Platform

/-!
# Loading and unloading

`load` brings tracing up on a host: it sets up a tracer, registers it as control device, as fork
hook and as notifier, and switches recording on for every cpu the thread may run on. A
registration that is refused takes back the ones before it, newest first, and a cpu that cannot be
switched on takes everything back. `unload` frees the contexts, switches recording off for every
cpu the thread may run on by then, and withdraws the registrations, newest first.

Both visit every cpu even if one of them fails, and go by the first failure.
-/

namespace BranchTrace

/-- The name of the control device. -/
def deviceName : String := "iht-info"

/-- The symbol of the fork hook. -/
def forkSymbol : String := "kernel_clone"

/-- Switches recording on every cpu the thread may run on: their number, or the first failure. -/
def broadcast {σ : Type} [MachineState σ] (switch : Switch)
    (step : Nat → Action Machine SystemError Unit) : StateM σ (Except SystemError Nat) := do
  let (visited, failures) ← onEachCpu fun pin => do
    match ← (tryMachine id (step pin.cpu)).run with
    | .ok () => return none
    | .error e =>
      report (.cpuFailed switch pin.cpu e)
      return some e
  match visited with
  | .error e => return .error e
  | .ok count =>
    match failures.findSome? id with
    | some e => return .error e
    | none => return .ok count

namespace Platform

/-- Registers a client with the host. -/
def register (what : Registration) (step : Host → Except SystemError Host) :
    Action Platform TraceError Unit := fun s =>
  match step s.host with
  | .error e => (.error (.registration what.phrase e), s)
  | .ok host => (.ok (), { s with host })

/-- Withdraws a registration from the host. -/
def withdraw (step : Host → Host) : StateM Platform Unit :=
  modify fun s => { s with host := step s.host }

/-- Runs a step, and another one after it if it fails. -/
def undoing (step : Action Platform TraceError Unit) (undo : StateM Platform Unit) :
    Action Platform TraceError Unit := fun s =>
  match step s with
  | (.ok (), s) => (.ok (), s)
  | (.error e, s) =>
    let ((), s) := undo s
    (.error e, s)

/-- Takes tracing down: the number of contexts freed. -/
def unload (id : Nat) : StateM Platform Nat := do
  let capacity := (((← get).tracers[id]?).map (·.config.capacity)).getD 0
  let freed ← onTracer id 0 fun _ => Tracer.drain
  match ← broadcast .disable (Lbr.disable capacity) with
  | .ok _ => pure ()
  | .error e => report (.disableIncomplete e)
  withdraw (·.unregisterNotifier (.tracer id))
  withdraw (·.unregisterHook forkSymbol)
  withdraw (·.removeDevice deviceName)
  report (.exited freed)
  return freed

/-- Brings tracing up: the number of the new tracer. -/
def load (config : Config) : Action Platform TraceError Nat := do
  tell (.initializing config.capacity config.defaultSelect)
  let id ← ExceptT.lift (addTracer config)
  let client := Client.tracer id
  register .device (·.createDevice deviceName client)
  undoing (register .forkHook (·.registerHook forkSymbol client)) do
    withdraw (·.removeDevice deviceName)
  undoing (register .notifier (·.registerNotifier client)) do
    withdraw (·.unregisterHook forkSymbol)
    withdraw (·.removeDevice deviceName)
  match ← ExceptT.lift (broadcast .enable (Lbr.enable config.capacity)) with
  | .ok count =>
    tell (.enabledOn count)
    return id
  | .error e =>
    let _ ← ExceptT.lift (unload id)
    throw (.io e)

/-- Brings tracing up for the processor a machine has, or is told to have. -/
def loadIdentified (detected? : Option Signature) (model? : Option UInt32)
    (select? : Option UInt64) : Action Platform TraceError Nat := do
  let capacity ← Signature.identify detected? model?
  load (.new capacity select?)

end Platform

end BranchTrace
