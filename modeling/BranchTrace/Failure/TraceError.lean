import BranchTrace.Failure.SystemError
import BranchTrace.Text.Hex

/-!
# Tracing errors

Everything that can go wrong while branches are traced, with the sentence for each cause and the
status that a control request answers: a negated error number. A system error passes through
with its own text and number.
-/

namespace BranchTrace

/-- What a host registers. -/
inductive Registration where
  | device
  | forkHook
  | notifier
  deriving DecidableEq, Repr

/-- The phrase for a kind of registration. -/
def Registration.phrase : Registration → String
  | .device => "control device"
  | .forkHook => "fork hook"
  | .notifier => "preempt notifier"

/-- Why tracing failed. -/
inductive TraceError where
  /-- The branch stack of this processor is not known. -/
  | unsupportedCpu (family model : UInt32)
  /-- There is no room for another process. -/
  | noMemory
  /-- The process is not traced. -/
  | notFound (pid : UInt32)
  /-- The process is traced already. -/
  | alreadyTraced (pid : UInt32)
  /-- A request has the wrong length. -/
  | partialRequest (expected got : Nat)
  /-- A request has an unknown command number. -/
  | badCommand (command : UInt32)
  /-- A handle names no traced process. -/
  | staleHandle
  /-- The host refused a registration. -/
  | registration (what : String) (source : SystemError)
  /-- The operating system failed. -/
  | io (source : SystemError)
  deriving DecidableEq, Repr

namespace TraceError

/-- The name of a cause. -/
def name : TraceError → String
  | unsupportedCpu _ _ => "UnsupportedCpu"
  | noMemory => "NoMemory"
  | notFound _ => "NotFound"
  | alreadyTraced _ => "AlreadyTraced"
  | partialRequest _ _ => "PartialRequest"
  | badCommand _ => "BadCommand"
  | staleHandle => "StaleHandle"
  | registration _ _ => "HookRegistration"
  | io _ => "Io"

/-- The sentence for an error. -/
def message : TraceError → String
  | unsupportedCpu family model =>
    "CPU family " ++ Text.hex family.toNat ++ " model " ++ Text.hex model.toNat
      ++ " has no known LBR capacity"
  | noMemory => "Could not allocate LBR state"
  | notFound pid => "No LBR state for pid " ++ toString pid.toNat
  | alreadyTraced pid => "Pid " ++ toString pid.toNat ++ " is already being traced"
  | partialRequest expected got =>
    "Malformed request: expected " ++ toString expected ++ " bytes, got " ++ toString got
  | badCommand command => "Unknown ioctl command " ++ Text.hex command.toNat
  | staleHandle => "Handle does not refer to a live LBR state"
  | registration what source => "Could not register " ++ what ++ ": " ++ source.message
  | io source => source.message

/-- The error number an error stands for. -/
def errno : TraceError → Int32
  | unsupportedCpu _ _ => Errno.enodev
  | noMemory => Errno.enomem
  | notFound _ => Errno.enoent
  | alreadyTraced _ => Errno.eexist
  | partialRequest _ _ => Errno.efault
  | badCommand _ => Errno.einval
  | staleHandle => Errno.estale
  | registration _ _ => Errno.ebusy
  | io source => source.errno?.getD Errno.eio

/-- The status a control request answers. -/
def status (error : TraceError) : Int :=
  -error.errno.toInt

/-- The failure behind an error, where an error of its own stands in front of it. -/
def source? : TraceError → Option SystemError
  | registration _ source => some source
  | _ => none

/-- The error as a system error: a system error itself, or one without a number. -/
def toSystemError : TraceError → SystemError
  | io source => source
  | error => .other .other error.message

end TraceError

end BranchTrace
