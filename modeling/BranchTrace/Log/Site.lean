import BranchTrace.Failure.Errno
import BranchTrace.Log.Level

/-!
# Sites of log records

Every record starts with a heading. That of a debug record names its topic. Any other heading
names the level and the site of the record, a line of a file, and for warnings and worse the last
error number of the thread if there is one.
-/

namespace BranchTrace

/-- Where a record comes from. -/
structure Site where
  file : String
  line : UInt32
  deriving DecidableEq, Repr

/-- The heading of a record. -/
def Site.heading (site : Site) (topic : String) (level : Level) (errno : Int32) : String :=
  if level = .debug then "[" ++ topic ++ "] "
  else
    let cause := if level.passes .warn ∧ errno ≠ 0 then " errno: " ++ Errno.name errno else ""
    "[" ++ level.label ++ " " ++ site.file ++ ":" ++ toString site.line.toNat ++ cause ++ "] "

end BranchTrace
