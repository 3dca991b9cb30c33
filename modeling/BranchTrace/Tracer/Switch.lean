import BranchTrace.Tracer.Basic

/-!
# Context switches

When a traced process leaves a cpu, the registers of that cpu are saved into its context, and when
it comes onto a cpu its context is restored there. Nobody waits for an answer, so failures are
reported and the switch goes on. Processes that are not traced are left alone.
-/

namespace BranchTrace

namespace Tracer

open Tracing

/-- Moves the context of a process one way under a pin, reporting what fails. -/
def transfer (direction : Transfer) (pid : UInt32)
    (move : Nat → Handle → Context → Action Tracing SystemError Unit) : StateM Tracing Unit :=
  fun s =>
    match s.store.find? pid with
    | none => ((), s)
    | some handle =>
      let ((), s) := report (.switching direction pid) s
      match tryMachine id Pin.current s with
      | (.error e, s) => report (.pinFailed direction pid e) s
      | (.ok pin, s) =>
        let (r, s) : Except SystemError Unit × Tracing :=
          match s.store.get? handle with
          | none => (.ok (), s)
          | some context => move pin.cpu handle context s
        let ((), s) : Unit × Tracing :=
          match r with
          | .ok () => ((), s)
          | .error e => report (.transferFailed direction pid e) s
        onMachine pin.release s

/-- A process leaves the cpu. -/
def schedOut (pid : UInt32) : StateM Tracing Unit :=
  transfer .save pid fun cpu handle context => do
    let _ ← save cpu handle context

/-- A process comes onto the cpu. -/
def schedIn (pid : UInt32) : StateM Tracing Unit :=
  transfer .restore pid fun cpu _ context => restore cpu context

end Tracer

end BranchTrace
