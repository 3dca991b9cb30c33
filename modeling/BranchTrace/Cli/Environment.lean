import BranchTrace.Log.Filter
import BranchTrace.Text.Numeral

/-!
# The environment

The variables that say what is logged and where the log goes: `IHT_LOG` holds a filter,
`IHT_LOG_FILE` names a file to write anew, `IHT_APPEND_LOG_FILE` one to write on, and
`IHT_LOG_BUFFER` is the number of bytes the log may gather.
-/

namespace BranchTrace.Cli

/-- The variables, where they are set. -/
structure Environment where
  log? : Option String := none
  logFile? : Option String := none
  appendLogFile? : Option String := none
  logBuffer? : Option String := none
  deriving DecidableEq, Repr

/-- Where the log goes. -/
inductive LogTarget where
  | errorStream
  /-- A file, which is emptied unless the log is appended. -/
  | file (path : String) (append : Bool)
  deriving DecidableEq, Repr

namespace Environment

/-- Where the log goes. A new file goes before one to append to. -/
def target (environment : Environment) : LogTarget :=
  match environment.logFile? with
  | some path => .file path false
  | none =>
    match environment.appendLogFile? with
    | some path => .file path true
    | none => .errorStream

/-- What is logged. -/
def filter (environment : Environment) (verbose : Bool) : Filter :=
  if verbose then .uniform .info
  else
    match environment.log? with
    | some text => .parse text
    | none => .unset

/-- The bytes that one buffer has to stay below. -/
def bufferBound : Nat := UInt64.size / 2

/-- The bytes that the log may gather, if it may; no result if they are no number in reach. -/
def buffer? (environment : Environment) : Option (Option Nat) :=
  match environment.logBuffer? with
  | none => some none
  | some text =>
    match Text.Numeral.parse 10 bufferBound text with
    | .ok size => some (some size)
    | .error _ => none

end Environment

end BranchTrace.Cli
