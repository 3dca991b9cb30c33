import BranchTrace.Lbr.Stack
import BranchTrace.Store.Basic

/-!
# Tracers

A tracer keeps the contexts of the processes it traces, all with the capacity of its
configuration. Its operations work on its store and on the machine (`Tracing`); those that touch
registers run under a pin to the current cpu.

This module has the steps that the operations share: adding and removing contexts with a report,
and saving a stored context from the registers or restoring it into them.
-/

namespace BranchTrace

/-- What a tracer is set up with. -/
structure Config where
  /-- The branches of every context. -/
  capacity : Nat
  /-- The mask for requests that give none. -/
  defaultSelect : Select
  deriving DecidableEq, Repr

/-- A configuration with the default mask, unless another one is given. -/
def Config.new (capacity : Nat) (select? : Option UInt64) : Config :=
  { capacity, defaultSelect := (select?.map Select.mk).getD .userOnly }

/-- A tracer. -/
structure Tracer where
  config : Config
  store : Store
  deriving DecidableEq, Repr

/-- A tracer that traces nothing yet. -/
def Tracer.new (config : Config) : Tracer :=
  { config, store := .empty }

/-- What the operations of a tracer work on. -/
structure Tracing where
  store : Store
  machine : Machine

instance : MachineState Tracing where
  machine := Tracing.machine
  setMachine s m := { s with machine := m }

namespace Tracing

/-- The contexts as they are now. -/
def contexts {ε : Type} : Action Tracing ε Store :=
  return (← get).store

/-- Adds a context and reports it. -/
def insert (context : Context) : Action Tracing TraceError Handle := fun s =>
  match s.store.insert context with
  | .error e => (.error e, s)
  | .ok (handle, store) =>
    let ((), s) := report (.inserted context.pid handle.index) { s with store }
    (.ok handle, s)

/-- Removes a context with its descendants and reports each of them: how many there were. -/
def remove (handle : Handle) : Action Tracing TraceError Nat := fun s =>
  match s.store.remove? handle with
  | none =>
    let event := if s.store.isEmpty then Event.removeFromEmpty else .removeDead handle
    let ((), s) := report event s
    (.error .staleHandle, s)
  | some (removed, store) =>
    let ((), s) := reportAll (removed.map fun c => Event.removed c.pid) { s with store }
    (.ok removed.length, s)

/-- Removes every context: how many there were. -/
def drain : StateM Tracing Nat := fun s =>
  let (count, store) := s.store.drain
  (count, { s with store })

/-- Saves the registers of a cpu into a stored context. What was read before a failure stays in
the context. -/
def save (cpu : Nat) (handle : Handle) (context : Context) :
    Action Tracing SystemError Context := fun s =>
  let ((r, context), machine) := Lbr.save cpu context s.machine
  (r.map fun _ => context, { store := s.store.update handle fun _ => context, machine })

/-- Restores a context into the registers of a cpu. -/
def restore (cpu : Nat) (context : Context) : Action Tracing SystemError Unit :=
  tryMachine id (Lbr.restore cpu context)

/-- Lets a step that fails with a system error fail with a tracing error. -/
def io {α : Type} (step : Action Tracing SystemError α) : Action Tracing TraceError α := fun s =>
  let (r, s) := step s
  (r.mapError .io, s)

/-- Runs a step under a pin to the current cpu. -/
def pinnedHere {α : Type} (step : Nat → Action Tracing TraceError α) :
    Action Tracing TraceError α :=
  pinned .io Pin.current fun pin => step pin.cpu

end Tracing

namespace Tracer

/-- Whether a process is traced. -/
def isTraced (store : Store) (pid : UInt32) : Bool :=
  (store.find? pid).isSome

/-- The traced processes in search order. -/
def tracedPids (store : Store) : List UInt32 :=
  store.searchOrder.map fun e => e.2.pid

end Tracer

end BranchTrace
