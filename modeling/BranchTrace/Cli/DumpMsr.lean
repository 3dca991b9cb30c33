import BranchTrace.CpuModel
import BranchTrace.Lbr.Stack
import BranchTrace.Register.Device

/-!
# Reading live registers

What the branch registers of one cpu hold right now, read through the register nodes below a
directory. The size of the stack comes from the processor, or from the model it is told to be.
-/

namespace BranchTrace.Cli

/-- Runs a step while the branch registers live in a bank. -/
def withBank {ε α : Type} (bank : Bank) (step : Action Machine ε α) : Action Machine ε α := fun m =>
  let (r, m') := step { m with bank }
  (r, { m' with bank := m.bank })

/-- Opens the register nodes below a directory, and reports if that cannot be done. -/
def openNodes (root : String) : Action Machine SystemError NodeBank := fun m =>
  match NodeBank.openAll root m with
  | (.ok bank, m) => (.ok bank, m)
  | (.error e, m) =>
    let ((), m) := report (.nodesMissing root) m
    (.error e, m)

/-- The branch registers of a cpu, or of the one the thread runs on. -/
def dumpMsr (detected? : Option Signature) (model? : Option UInt32) (root : String)
    (cpu? : Option Nat) : Action Machine SystemError Snapshot := do
  let capacity ← ExceptT.adapt TraceError.toSystemError (Signature.identify detected? model?)
  let bank ← openNodes root
  let take :=
    match cpu? with
    | some cpu => Pin.on cpu
    | none => Pin.current
  withBank (.nodes bank) (pinned id take fun pin => do
    match Context.new 0 .empty capacity with
    | .error e => throw e.toSystemError
    | .ok context =>
      let (r, context) ← (Lbr.save pin.cpu context : StateM Machine _)
      match r with
      | .error e => throw e
      | .ok () => return context.snapshot pin.cpu)

end BranchTrace.Cli
