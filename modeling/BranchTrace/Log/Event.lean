import BranchTrace.Host.Change
import BranchTrace.Lbr.Context
import BranchTrace.Log.Filter
import BranchTrace.Log.Site
import BranchTrace.Text.Quoted

/-!
# Events

Everything the library reports to its log, as a value. An event knows the severity, the topic,
the site and the words of its record, so the rest of the library says what happened and nothing
about wording.
-/

namespace BranchTrace

/-- Which way a branch stack moves at a context switch. -/
inductive Transfer where
  | save
  | restore
  deriving DecidableEq, Repr

/-- The verb for a transfer. -/
def Transfer.verb : Transfer → String
  | .save => "save"
  | .restore => "restore"

/-- Whether recording is switched on or off. -/
inductive Switch where
  | enable
  | disable
  deriving DecidableEq, Repr

/-- The verb for a switch. -/
def Switch.verb : Switch → String
  | .enable => "enable"
  | .disable => "disable"

/-- Something worth a log record. -/
inductive Event where
  | inserted (pid : UInt32) (slot : Nat)
  | removeFromEmpty
  | removeDead (handle : Handle)
  | removed (pid : UInt32)
  | freed (count : Nat)
  | requested (command : UInt32) (select : UInt64) (pid : UInt32)
  | rejected (command : UInt32) (error : TraceError)
  | deviceOpened
  | deviceClosed
  | deviceRead
  | deviceWrite
  | nothingToDump (error : TraceError)
  | dumped (snapshot : Snapshot)
  | switching (transfer : Transfer) (pid : UInt32)
  | pinFailed (transfer : Transfer) (pid : UInt32) (error : SystemError)
  | transferFailed (transfer : Transfer) (pid : UInt32) (error : SystemError)
  | forkBegins (pid : UInt32)
  | childKnown (parent child : UInt32)
  | childInserted (parent child : UInt32)
  | childFailed (parent child : UInt32) (error : TraceError)
  | unhooked (symbol : String) (parent : UInt32)
  | affinityKept (cpu : Nat) (error : SystemError)
  | signalsKept (failure : CallFailure)
  | nodeFailed (path : String) (error : SystemError)
  | modelForced (model detected : UInt32)
  | identified (family model : UInt32) (capacity : Nat)
  | switchingCpu (switch : Switch) (cpu : Nat)
  | initializing (capacity : Nat) (select : Select)
  | cpuFailed (switch : Switch) (cpu : Nat) (error : SystemError)
  | enabledOn (count : Nat)
  | disableIncomplete (error : SystemError)
  | exited (count : Nat)
  | capacityAssumed (error : TraceError) (capacity : Nat)
  | hostChanged (change : HostChange)
  | nodesMissing (root : String)
  | started (options : String)
  | stopped (error : SystemError)
  deriving DecidableEq, Repr

namespace Event

/-- A handle in words. -/
def handleText (handle : Handle) : String :=
  "StateHandle \x7b index: " ++ toString handle.index ++ ", generation: "
    ++ toString handle.generation.toNat ++ " \x7d"

/-- The severity of an event. -/
def level : Event → Level
  | pinFailed .. | transferFailed .. | childFailed .. | affinityKept .. | signalsKept _
  | nodeFailed .. | cpuFailed .. | disableIncomplete _ | capacityAssumed .. => .warn
  | rejected .. | dumped _ | modelForced .. | identified .. | initializing .. | exited _ => .info
  | nodesMissing _ => .error
  | stopped _ => .fatal
  | _ => .debug

/-- The topic of an event. -/
def topic : Event → String
  | inserted .. | removeFromEmpty | removeDead _ | removed _ => "state_list"
  | freed _ => "tracer"
  | requested .. | rejected .. | deviceOpened | deviceClosed | deviceRead | deviceWrite
  | nothingToDump _ | dumped _ => "ioctl"
  | switching .. | pinFailed .. | transferFailed .. => "context_switch"
  | forkBegins _ | childKnown .. | childInserted .. | childFailed .. => "fork"
  | unhooked .. => "host"
  | affinityKept .. | signalsKept _ => "cpu"
  | nodeFailed .. => "msr"
  | modelForced .. | identified .. => "cpu_model"
  | switchingCpu .. => "lbr"
  | initializing .. | cpuFailed .. | enabledOn _ | disableIncomplete _ | exited _ => "module"
  | capacityAssumed .. | hostChanged _ => "simulate_command"
  | nodesMissing _ => "dump_msr_command"
  | started _ | stopped _ => "main"

/-- An event in words. -/
def text : Event → String
  | inserted pid slot =>
    "Inserted LBR state for pid " ++ toString pid.toNat ++ " (slot " ++ toString slot ++ ")"
  | removeFromEmpty => "Remove called on an empty state list"
  | removeDead handle => "Remove called with a dead handle " ++ handleText handle
  | removed pid => "Removed LBR state for pid " ++ toString pid.toNat
  | freed count => "Freed " ++ toString count ++ " LBR states"
  | requested command select pid =>
    "ioctl " ++ Text.hex command.toNat ++ ": select bits " ++ Text.hex select.toNat ++ ", pid "
      ++ toString pid.toNat
  | rejected command error =>
    "ioctl " ++ Text.hex command.toNat ++ " rejected: " ++ error.message
  | deviceOpened => "Device opened."
  | deviceClosed => "Device closed."
  | deviceRead => "Device read."
  | deviceWrite => "Device write."
  | nothingToDump error => "Nothing to dump: " ++ error.message
  | dumped snapshot => "\n" ++ snapshot.text
  | switching .save pid => "Leave, saving LBR status for pid: " ++ toString pid.toNat
  | switching .restore pid => "Enter, restoring LBR status for pid: " ++ toString pid.toNat
  | pinFailed transfer pid error =>
    "Could not pin cpu to " ++ transfer.verb ++ " pid " ++ toString pid.toNat ++ ": "
      ++ error.message
  | transferFailed transfer pid error =>
    "Could not " ++ transfer.verb ++ " LBR for pid " ++ toString pid.toNat ++ ": " ++ error.message
  | forkBegins pid => "Fork pre handler for pid " ++ toString pid.toNat ++ "."
  | childKnown parent child =>
    "Child " ++ toString child.toNat ++ " of " ++ toString parent.toNat ++ " is already traced"
  | childInserted parent child =>
    "New child " ++ toString child.toNat ++ " of parent " ++ toString parent.toNat
      ++ " is inserted"
  | childFailed parent child error =>
    "Could not trace child " ++ toString child.toNat ++ " of " ++ toString parent.toNat ++ ": "
      ++ error.message
  | unhooked symbol parent =>
    "No hook on " ++ symbol ++ ", fork of " ++ toString parent.toNat ++ " unobserved"
  | affinityKept cpu error =>
    "Could not restore affinity after cpu " ++ toString cpu ++ ": " ++ error.message
  | signalsKept failure => "Could not mask signals: " ++ failure.name
  | nodeFailed path error => "Could not open " ++ Text.quoted path ++ ": " ++ error.message
  | modelForced model detected =>
    "Forcing cpu model " ++ Text.hex model.toNat ++ " (cpuid says " ++ Text.hex detected.toNat
      ++ ")"
  | identified family model capacity =>
    "DisplayFamily_DisplayModel - " ++ Text.hexDigits family.toNat ++ "_"
      ++ Text.hexDigits model.toNat ++ "H, " ++ toString capacity ++ " LBR entries"
  | switchingCpu .enable cpu => "Enable LBR on cpu core: " ++ toString cpu ++ "..."
  | switchingCpu .disable cpu => "Disable LBR on cpu core: " ++ toString cpu ++ "..."
  | initializing capacity select =>
    "Initializing LBR, capacity " ++ toString capacity ++ ", default select "
      ++ Text.hex select.bits.toNat
  | cpuFailed switch cpu error =>
    "Could not " ++ switch.verb ++ " LBR on cpu " ++ toString cpu ++ ": " ++ error.message
  | enabledOn count => "LBR enabled on " ++ toString count ++ " cpus"
  | disableIncomplete error => "Could not disable LBR everywhere: " ++ error.message
  | exited count => "LBR exited, " ++ toString count ++ " states freed"
  | capacityAssumed error capacity =>
    error.message ++ "; simulating " ++ toString capacity ++ " entries instead"
  | hostChanged change => "host: " ++ change.text
  | nodesMissing root =>
    "Could not open msr devices under " ++ Text.quoted root
      ++ ". Is the msr module loaded and are we root?"
  | started options => options
  | stopped error => error.message

/-- The file in the heading of an event's record, whose stem is the topic. -/
def file (event : Event) : String :=
  let directory :=
    match event with
    | capacityAssumed .. | hostChanged _ | nodesMissing _ => "src/commands/"
    | _ => "src/"
  directory ++ event.topic ++ ".rs"

/-- The line in the heading of an event's record. Debug records have none. -/
def lineNumber : Event → UInt32
  | rejected .. => 261
  | dumped _ => 176
  | pinFailed .. => 14
  | transferFailed .. => 22
  | childFailed .. => 61
  | affinityKept .. => 66
  | signalsKept _ => 107
  | nodeFailed .. => 51
  | modelForced .. => 151
  | identified .. => 161
  | initializing .. => 69
  | cpuFailed .. => 35
  | disableIncomplete _ => 126
  | exited _ => 134
  | capacityAssumed .. => 69
  | nodesMissing _ => 37
  | stopped _ => 33
  | _ => 0

/-- The site of an event's record. -/
def site (event : Event) : Site :=
  { file := event.file, line := event.lineNumber }

/-- The record of an event in a thread with a last error number. -/
def record (event : Event) (errno : Int32) : String :=
  event.site.heading event.topic event.level errno ++ event.text ++ "\n"

/-- The failure of the system that an event reports, if it reports one. -/
def failure? : Event → Option SystemError
  | pinFailed _ _ error | transferFailed _ _ error | affinityKept _ error | nodeFailed _ error
  | cpuFailed _ _ error | disableIncomplete error | stopped error => some error
  | signalsKept failure => some (.ofCall failure)
  | rejected _ error | nothingToDump error | childFailed _ _ error =>
    match error with
    | .io error => some error
    | _ => none
  | _ => none

/-- The last error number of the thread when an event is reported: that of the failure it reports,
or else the one before it. -/
def lastErrno (event : Event) (before : Int32) : Int32 :=
  (event.failure?.bind SystemError.errno?).getD before

/-- Whether an event has a place in a log with a filter. -/
def passes (event : Event) (filter : Filter) : Bool :=
  event.level.passes (filter.threshold event.topic)

end Event

end BranchTrace
