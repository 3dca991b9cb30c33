import BranchTrace.Log.Event

/-!
# Log buffers

A log may gather records before it hands them over. A record joins the gathered ones if it fits
next to them; otherwise those are handed over first. A record as large as the whole buffer is
never gathered. What is still gathered at the end of the program is handed over last.
-/

namespace BranchTrace

/-- An event on its way to the log, with the last error number of the thread. -/
structure LogEntry where
  event : Event
  errno : Int32
  deriving DecidableEq, Repr

namespace LogEntry

/-- The record of an entry. -/
def record (entry : LogEntry) : String :=
  entry.event.record entry.errno

/-- The entries of events in order, in a thread with a last error number. -/
def ofEvents : Int32 → List Event → List LogEntry
  | _, [] => []
  | errno, event :: rest =>
    let errno := event.lastErrno errno
    { event, errno } :: ofEvents errno rest

end LogEntry

/-- How many of the last records are still gathered after records of the given sizes, where
`used` bytes in `count` records were gathered before them. -/
def gathered (capacity : Nat) : Nat → Nat → List Nat → Nat
  | _, count, [] => count
  | used, count, size :: rest =>
    if capacity ≤ size then gathered capacity 0 0 rest
    else if used + size ≤ capacity then gathered capacity (used + size) (count + 1) rest
    else gathered capacity size 1 rest

/-- The entries that a log hands over before the end of the program, and those at its end. -/
def handOver (capacity? : Option Nat) (entries : List LogEntry) : List LogEntry × List LogEntry :=
  match capacity? with
  | none => (entries, [])
  | some capacity =>
    let sizes := entries.map fun entry => entry.record.utf8ByteSize
    entries.splitAt (entries.length - gathered capacity 0 0 sizes)

end BranchTrace
