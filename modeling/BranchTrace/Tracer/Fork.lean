import BranchTrace.Tracer.Basic

/-!
# Forks

A child that a traced process forks is traced too: with a cleared context, the mask its parent has
at that moment, and its parent's handle. Nothing happens if the parent is not traced or the child
already is.
-/

namespace BranchTrace

namespace Tracer

open Tracing

/-- Starts tracing a forked child: its handle, if it is traced from now on. -/
def fork (config : Config) (parent child : UInt32) : Action Tracing TraceError (Option Handle) := do
  match (← contexts).find? parent with
  | none => return none
  | some parentHandle =>
    let context ← (Context.new child config.defaultSelect config.capacity :
      ExceptT TraceError (StateM Tracing) Context)
    let store ← contexts
    if isTraced store child then
      tell (.childKnown parent child)
      return none
    let inherited := ((store.get? parentHandle).map (·.select)).getD context.select
    let handle ← insert { context with select := inherited, parent := some parentHandle }
    tell (.childInserted parent child)
    return some handle

/-- A process is about to fork. -/
def forkBegins (pid : UInt32) : StateM Tracing Unit :=
  report (.forkBegins pid)

/-- A process has forked, or failed to. -/
def forkEnds (config : Config) (pid : UInt32) : Option UInt32 → StateM Tracing Unit
  | none => pure ()
  | some child => do
    match ← (fork config pid child).run with
    | .ok _ => pure ()
    | .error e => report (.childFailed pid child e)

end Tracer

end BranchTrace
