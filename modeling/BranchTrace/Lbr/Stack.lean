import BranchTrace.Machine.Pin
import BranchTrace.Register.Access

/-!
# The branch stack of a cpu

Moving branch contexts in and out of the registers of one cpu. `Context.writes` lists the register
writes that put a context back; `clearWrites` those that clear the first branches of a stack.

A context is restored by its writes in order, so a failure leaves the earlier ones done. It is
saved register by register, so a failure leaves the registers read before it in the context. The
register that switches recording is written last, over a cleared stack.
-/

namespace BranchTrace

/-- The register writes for branches from a place of the stack on. -/
def branchWrites : UInt32 → List Branch → List (UInt32 × UInt64)
  | _, [] => []
  | index, branch :: rest =>
    (Msr.source index, branch.source) :: (Msr.target index, branch.target)
      :: branchWrites (index + 1) rest

/-- The register writes that put a context back, in order. -/
def Context.writes (context : Context) : List (UInt32 × UInt64) :=
  (Msr.select, context.select.bits) :: (Msr.tos, context.tos) :: branchWrites 0 context.entries

/-- The register writes that clear a stack, in order. Places are numbered in 32 bits. -/
def clearWrites (capacity : Nat) : List (UInt32 × UInt64) :=
  (Msr.select, 0) :: (Msr.tos, 0) :: branchWrites 0 (List.replicate (capacity % UInt32.size) ⟨0, 0⟩)

namespace Machine

/-- Writes registers of a cpu in order, up to the first failure. -/
def wrmsrAll (cpu : Nat) : List (UInt32 × UInt64) → Action Machine SystemError Unit
  | [] => pure ()
  | (msr, value) :: rest => do
    wrmsr cpu msr value
    wrmsrAll cpu rest

end Machine

namespace Lbr

/-- Clears the stack of a cpu and then switches recording. -/
def flush (capacity cpu : Nat) (enable : Bool) : Action Machine SystemError Unit := do
  Machine.wrmsrAll cpu (clearWrites capacity)
  Machine.wrmsr cpu Msr.debugctl (if enable then Msr.recording else 0)

/-- Switches recording on over a cleared stack. -/
def enable (capacity cpu : Nat) : Action Machine SystemError Unit := do
  tell (.switchingCpu .enable cpu)
  flush capacity cpu true

/-- Switches recording off over a cleared stack. -/
def disable (capacity cpu : Nat) : Action Machine SystemError Unit := do
  tell (.switchingCpu .disable cpu)
  Machine.wrmsr cpu Msr.select 0
  flush capacity cpu false

/-- Whether a cpu records branches. -/
def isEnabled (cpu : Nat) : Action Machine SystemError Bool := do
  let control ← Machine.rdmsr cpu Msr.debugctl
  return control &&& Msr.recording != 0

/-- Writes the registers that put a context back. -/
def restore (cpu : Nat) (context : Context) : Action Machine SystemError Unit :=
  Machine.wrmsrAll cpu context.writes

/-- Reads branches from a place of the stack on: how that ended, and the branches after it, where
those not reached keep their old values. -/
def readBranches (cpu : Nat) :
    UInt32 → List Branch → StateM Machine (Except SystemError Unit × List Branch)
  | _, [] => pure (.ok (), [])
  | index, branch :: rest => do
    match ← (Machine.rdmsr cpu (Msr.source index)).run with
    | .error e => return (.error e, branch :: rest)
    | .ok source =>
      match ← (Machine.rdmsr cpu (Msr.target index)).run with
      | .error e => return (.error e, { branch with source } :: rest)
      | .ok target =>
        let (r, rest) ← readBranches cpu (index + 1) rest
        return (r, { source, target } :: rest)

/-- Reads the registers of a cpu into a context: how that ended, and the context after it. -/
def save (cpu : Nat) (context : Context) :
    StateM Machine (Except SystemError Unit × Context) := do
  match ← (Machine.rdmsr cpu Msr.select).run with
  | .error e => return (.error e, context)
  | .ok bits =>
    let context := { context with select := ⟨bits⟩ }
    match ← (Machine.rdmsr cpu Msr.tos).run with
    | .error e => return (.error e, context)
    | .ok tos =>
      let (r, entries) ← readBranches cpu 0 context.entries
      return (r, { context with tos, entries })

end Lbr

end BranchTrace
