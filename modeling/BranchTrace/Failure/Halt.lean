import BranchTrace.Failure.TraceError

/-!
# Halts

A caller of the tracer stops in one of two ways. It fails with a system error, which it passes on,
or it breaks off, where the numbers at hand leave nothing to go on with and no error stands for
that. `checkStatus` turns the status of a control request back into a result, and can end either
way.
-/

namespace BranchTrace

/-- Why a caller breaks off. -/
inductive Breakage where
  /-- A branch stack without entries was to be filled. -/
  | emptyStack
  /-- The least status is the negation of no error number. -/
  | leastStatus
  deriving DecidableEq, Repr

/-- What is wrong where a caller breaks off. -/
def Breakage.text : Breakage → String
  | .emptyStack => "a branch stack has no entries"
  | .leastStatus => "a status stands for no error number"

/-- Why a caller stops. -/
inductive Halt where
  | failed (error : SystemError)
  | broken (cause : Breakage)
  deriving DecidableEq, Repr

/-- The error number of a negated status, cut to 32 bits. -/
def errnoOfStatus (status : Int64) : Int32 :=
  (-status).toInt32

/-- A status back as a result: zero is success, and any other status fails under the name of what
was asked for, with the class of its error number. The least status has no error number, since
its negation does not fit into 64 bits. -/
def checkStatus (what : String) (status : Int64) : Except Halt Unit :=
  if status = 0 then .ok ()
  else if status = Int64.minValue then .error (.broken .leastStatus)
  else
    let errno := errnoOfStatus status
    let text := what ++ " failed: " ++ (SystemError.os errno).message
    .error (.failed (.other (Errno.kind errno) text))

end BranchTrace
