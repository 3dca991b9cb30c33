import BranchTrace.Tracer.Basic
import BranchTrace.Tracer.Request

/-!
# The control plane

Tracing is switched on and off, read and reconfigured by requests. `dispatch` decodes a request
and carries it out; `ioctl` answers it with a status, zero or a negated error number. What is
wrong with a request is found in a fixed order: its length, its command, and then what the
command itself checks.
-/

namespace BranchTrace

namespace Tracer

open Tracing

/-- Starts tracing a process. A mask of zero stands for the default. If the registers cannot be
loaded, the context is taken out again. -/
def enable (config : Config) (pid : UInt32) (select : UInt64) :
    Action Tracing TraceError Handle := do
  let mask := if select = 0 then config.defaultSelect else ⟨select⟩
  let context ← (Context.new pid mask config.capacity : ExceptT TraceError (StateM Tracing) Context)
  pinnedHere fun cpu => do
    if isTraced (← contexts) pid then throw (.alreadyTraced pid)
    let handle ← insert context
    try
      io (restore cpu context)
    catch e =>
      let _ ← remove handle
      throw e
    return handle

/-- Stops tracing a process and everything it forked while it was traced. -/
def disable (pid : UInt32) : Action Tracing TraceError Nat := do
  match (← contexts).find? pid with
  | none => throw (.notFound pid)
  | some handle => remove handle

/-- Reads the registers into the context of a process, or of the oldest one if none is named, and
gives a copy of it. -/
def dump (pid? : Option UInt32) : Action Tracing TraceError Snapshot :=
  pinnedHere fun cpu => do
    let store ← contexts
    let handle? :=
      match pid? with
      | some pid => store.find? pid
      | none => store.headHandle
    match handle? with
    | none => throw (.notFound (pid?.getD 0))
    | some handle =>
      match store.get? handle with
      | none => throw .staleHandle
      | some context =>
        let snapshot := (← io (save cpu handle context)).snapshot cpu
        tell (.dumped snapshot)
        return snapshot

/-- Gives a process a new mask and loads its context into the registers. -/
def select (pid : UInt32) (bits : UInt64) : Action Tracing TraceError Unit :=
  pinnedHere fun cpu => do
    let store ← contexts
    match store.find? pid with
    | none => throw (.notFound pid)
    | some handle =>
      match store.get? handle with
      | none => throw (.notFound pid)
      | some context =>
        let context := { context with select := ⟨bits⟩ }
        modify fun s => { s with store := s.store.update handle fun _ => context }
        io (restore cpu context)

/-- Decodes and carries out a request. Process number 0 stands for the caller, except that a dump
then reads the oldest context. The new mask of a select request comes in its parameter. -/
def dispatch (config : Config) (caller : UInt32) (number : UInt32) (block : List UInt8)
    (param : UInt64) : Action Tracing TraceError Reply := do
  let request ← (Request.ofBytes block : ExceptT TraceError (StateM Tracing) Request)
  tell (.requested number request.select request.pid)
  let target := if request.pid = 0 then caller else request.pid
  match ← (Command.ofNumber number : ExceptT TraceError (StateM Tracing) Command) with
  | .enable =>
    let _ ← enable config target request.select
    return .enabled target
  | .disable => return .disabled (← disable target)
  | .dump => return .dumped (← dump (if request.pid = 0 then none else some request.pid))
  | .select =>
    select target param
    return .selected target

/-- Answers a request with a status. -/
def ioctl (config : Config) (caller : UInt32) (number : UInt32) (block : List UInt8)
    (param : UInt64) : StateM Tracing Int := do
  match ← (dispatch config caller number block param).run with
  | .ok _ => return 0
  | .error e =>
    report (.rejected number e)
    return e.status

/-- Opening the control device changes nothing. -/
def deviceOpen : StateM Tracing Int := do
  report .deviceOpened
  return 0

/-- Closing the control device changes nothing. -/
def deviceRelease : StateM Tracing Int := do
  report .deviceClosed
  return 0

/-- Reading the control device dumps the oldest context to the log and gives no bytes. -/
def deviceRead : StateM Tracing Int := do
  report .deviceRead
  match ← (dump none).run with
  | .ok _ => return 0
  | .error e =>
    report (.nothingToDump e)
    return 0

/-- Writing to the control device changes nothing. -/
def deviceWrite : StateM Tracing Int := do
  report .deviceWrite
  return 0

/-- Frees every context: how many there were. -/
def drain : StateM Tracing Nat := do
  let count ← Tracing.drain
  report (.freed count)
  return count

end Tracer

end BranchTrace
