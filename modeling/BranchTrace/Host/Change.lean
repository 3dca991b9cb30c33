/-!
# Changes of a host's registrations

The history a host keeps: every registration it took and every withdrawal asked of it.
-/

namespace BranchTrace

/-- One change of a host's registrations. -/
inductive HostChange where
  | registerNotifier
  | unregisterNotifier
  | registerHook (symbol : String)
  | unregisterHook (symbol : String)
  | createDevice (name : String)
  | removeDevice (name : String)
  deriving DecidableEq, Repr

/-- A change in words. -/
def HostChange.text : HostChange → String
  | registerNotifier => "register preempt notifier"
  | unregisterNotifier => "unregister preempt notifier"
  | registerHook symbol => "register syscall hook " ++ symbol
  | unregisterHook symbol => "unregister syscall hook " ++ symbol
  | createDevice name => "create device " ++ name
  | removeDevice name => "remove device " ++ name

end BranchTrace
