import BranchTrace.Failure.Errno

/-!
# System errors

A system error is an error number the operating system gave, or a failure noticed on this side
of it, which has a class and a text but no number. A number shows as its text followed by the
number itself.
-/

namespace BranchTrace

/-- A failure at the border to the operating system. -/
inductive SystemError where
  /-- The operating system refused with an error number. -/
  | os (errno : Int32)
  /-- A failure without a number. -/
  | other (kind : FailureKind) (text : String)
  deriving DecidableEq, Repr

/-- How a library call fails: with an error number, or before it reaches the system. -/
inductive CallFailure where
  | errno (number : Int32)
  | invalidPath
  | invalidText
  | unsupported
  deriving DecidableEq, Repr

/-- The name of a call's failure. -/
def CallFailure.name : CallFailure → String
  | .errno number => "Sys(" ++ Errno.name number ++ ")"
  | .invalidPath => "InvalidPath"
  | .invalidText => "InvalidUtf8"
  | .unsupported => "UnsupportedOperation"

namespace SystemError

/-- The class of a failure. -/
def kind : SystemError → FailureKind
  | os errno => Errno.kind errno
  | other kind _ => kind

/-- The text of a failure. -/
def message : SystemError → String
  | os errno => Errno.text errno ++ " (os error " ++ toString errno.toInt ++ ")"
  | other _ text => text

/-- The error number, if the failure has one. -/
def errno? : SystemError → Option Int32
  | os errno => some errno
  | other _ _ => none

/-- A failed library call keeps its error number; one without a number keeps its text. -/
def ofCall : CallFailure → SystemError
  | .errno number => os (Errno.known number)
  | .invalidPath => other .other "Invalid path"
  | .invalidText => other .other "Invalid UTF-8 string"
  | .unsupported => other .other "Unsupported Operation"

end SystemError

end BranchTrace
