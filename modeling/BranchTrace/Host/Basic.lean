import BranchTrace.Failure.TraceError
import BranchTrace.Host.Change

/-!
# Hosts

A host is what tracing is loaded into. It switches processes on its cpus and forks them, tells
its notifiers and hooks about it, and hands requests to its control devices. This module holds its
registrations: notifiers in the order they came, at most one hook for each symbol, at most one
device for each name. It can be told to refuse one kind of registration, and it keeps a history.

Those registered are `Client`s: the tracers of a platform, by number, and observers that do nothing
but note the calls they get.
-/

namespace BranchTrace

/-- Someone a host calls. -/
inductive Client where
  | tracer (id : Nat)
  /-- Notes its calls under a name and answers all requests with one status. -/
  | observer (name : String) (status : Int)
  deriving DecidableEq, Repr

/-- The registrations of a host. -/
structure Host where
  notifiers : List Client := []
  hooks : List (String × Client) := []
  devices : List (String × Client) := []
  /-- The process last switched to on each cpu. -/
  running : List (Nat × UInt32) := []
  refused : Option Registration := none
  /-- The history, newest first. -/
  changes : List HostChange := []
  deriving DecidableEq, Repr

/-- Removes the entry under a key. -/
def eraseKey {κ ν : Type} [DecidableEq κ] (key : κ) (entries : List (κ × ν)) : List (κ × ν) :=
  entries.filter fun e => e.1 ≠ key

/-- Puts an entry in the place of the one under its key. -/
def insertKey {κ ν : Type} [DecidableEq κ] (key : κ) (value : ν) (entries : List (κ × ν)) :
    List (κ × ν) :=
  (key, value) :: eraseKey key entries

namespace Host

/-- A host without registrations. -/
def new : Host := {}

/-- Fails if the host refuses this kind of registration. -/
def accepts (host : Host) (what : Registration) : Except SystemError Unit :=
  if host.refused = some what then .error (.os Errno.ebusy) else .ok ()

/-- Adds a change to the history. -/
def note (host : Host) (change : HostChange) : Host :=
  { host with changes := change :: host.changes }

/-- Registers a notifier, again if it is registered already. -/
def registerNotifier (host : Host) (client : Client) : Except SystemError Host := do
  host.accepts .notifier
  return { host with notifiers := host.notifiers ++ [client] }.note .registerNotifier

/-- Withdraws a notifier as often as it is registered. -/
def unregisterNotifier (host : Host) (client : Client) : Host :=
  { host with notifiers := host.notifiers.filter (· ≠ client) }.note .unregisterNotifier

/-- Registers a hook in the place of the one on the symbol. -/
def registerHook (host : Host) (symbol : String) (client : Client) : Except SystemError Host := do
  host.accepts .forkHook
  return { host with hooks := insertKey symbol client host.hooks }.note (.registerHook symbol)

/-- Withdraws the hook on a symbol. -/
def unregisterHook (host : Host) (symbol : String) : Host :=
  { host with hooks := eraseKey symbol host.hooks }.note (.unregisterHook symbol)

/-- Creates a device under a name that no device has. -/
def createDevice (host : Host) (name : String) (client : Client) : Except SystemError Host := do
  host.accepts .device
  if (host.devices.lookup name).isSome then throw (.os Errno.eexist)
  return { host with devices := insertKey name client host.devices }.note (.createDevice name)

/-- Removes the device with a name. -/
def removeDevice (host : Host) (name : String) : Host :=
  { host with devices := eraseKey name host.devices }.note (.removeDevice name)

/-- Refuses one kind of registration from here on, and no other. -/
def refuse (host : Host) (what : Registration) : Host :=
  { host with refused := some what }

/-- The history, oldest first. -/
def history (host : Host) : List HostChange :=
  host.changes.reverse

end Host

end BranchTrace
