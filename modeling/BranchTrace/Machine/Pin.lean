import BranchTrace.Machine.Basic

/-!
# Pins

A pin binds the thread to one cpu and remembers the cpus it was bound to before. Releasing it
gives those back; a release that fails is reported and otherwise ignored. `pinned` runs a step
under a pin, which is released however the step ends, and `onEachCpu` runs a step on every cpu
the thread may run on, lowest first, under one pin after the other.
-/

namespace BranchTrace

open MachineState

/-- The thread is bound to one cpu. -/
structure Pin where
  cpu : Nat
  /-- The cpus the thread was bound to before. -/
  saved : List Nat
  deriving DecidableEq, Repr

namespace Pin

/-- Binds the thread to one cpu, if its number fits a set of cpus. -/
def bindTo (cpu : Nat) : Action Machine SystemError Unit :=
  if cpu < Machine.maxCpus then Machine.setAffinity [cpu] else throw (.os Errno.einval)

/-- Binds the thread to the cpu it runs on. -/
def current : Action Machine SystemError Pin := do
  let saved ← Machine.getAffinity
  let cpu ← Machine.getCpu
  bindTo cpu
  return { cpu, saved }

/-- Binds the thread to a given cpu. -/
def on (cpu : Nat) : Action Machine SystemError Pin := do
  let saved ← Machine.getAffinity
  bindTo cpu
  return { cpu, saved }

/-- Gives the thread its former cpus back. -/
def release (pin : Pin) : StateM Machine Unit := fun m =>
  match Machine.setAffinity pin.saved m with
  | (.ok (), m) => ((), m)
  | (.error e, m) => report (.affinityKept pin.cpu e) m

end Pin

/-- The cpus the thread may run on, ascending. -/
def allowedCpus : Action Machine SystemError (List Nat) :=
  Machine.getAffinity

/-- Runs a step under a pin and releases the pin however the step ends. -/
def pinned {σ ε α : Type} [MachineState σ] (wrap : SystemError → ε)
    (take : Action Machine SystemError Pin) (step : Pin → Action σ ε α) : Action σ ε α := fun s =>
  match tryMachine wrap take s with
  | (.error e, s) => (.error e, s)
  | (.ok pin, s) =>
    let (r, s) := step pin s
    let ((), s) := onMachine pin.release s
    (r, s)

/-- Runs a step on each of the given cpus until one cannot be pinned: how that ended, and what the
steps gave, in order. -/
def visitCpus {σ α : Type} [MachineState σ] (step : Pin → StateM σ α) :
    List Nat → StateM σ (Except SystemError Unit × List α)
  | [], s => ((.ok (), []), s)
  | cpu :: rest, s =>
    match pinned id (Pin.on cpu) (fun pin => ExceptT.lift (step pin)) s with
    | (.error e, s) => ((.error e, []), s)
    | (.ok a, s) =>
      let ((r, seen), s) := visitCpus step rest s
      ((r, a :: seen), s)

/-- Runs a step on every cpu the thread may run on: their number or the failure that ended the
visit, and what the steps gave, in order. -/
def onEachCpu {σ α : Type} [MachineState σ] (step : Pin → StateM σ α) :
    StateM σ (Except SystemError Nat × List α) := fun s =>
  match tryMachine id allowedCpus s with
  | (.error e, s) => ((.error e, []), s)
  | (.ok cpus, s) =>
    let ((r, seen), s) := visitCpus step cpus s
    ((r.map fun _ => cpus.length, seen), s)

end BranchTrace
