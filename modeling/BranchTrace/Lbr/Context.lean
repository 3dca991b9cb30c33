import BranchTrace.Failure.TraceError
import BranchTrace.Lbr.Select
import BranchTrace.Store.Handle
import BranchTrace.Text.Json

/-!
# Branch contexts

A `Context` is what is kept for one traced process: its select mask, the top-of-stack pointer and
the branch pairs saved when it last left a cpu, and the handle of the process that forked it. A
`Snapshot` is a copy for a reader, together with the cpu it was taken on.

A snapshot is written as text, one register a line and without a line break at the end, or as
JSON on one line.
-/

namespace BranchTrace

/-- One recorded branch: where it left and where it went. -/
structure Branch where
  source : UInt64
  target : UInt64
  deriving DecidableEq, Repr, Inhabited

/-- What is kept for one traced process. -/
structure Context where
  pid : UInt32
  select : Select
  tos : UInt64
  entries : List Branch
  parent : Option Handle
  deriving DecidableEq, Repr

/-- A copy of a context, and the cpu it was taken on. -/
structure Snapshot where
  pid : UInt32
  cpu : Nat
  select : Select
  tos : UInt64
  entries : List Branch
  deriving DecidableEq, Repr

namespace Context

/-- The most bytes that one allocation may have. -/
def maxAllocation : Nat := UInt64.size / 2 - 1

/-- The bytes of one branch. -/
def branchBytes : Nat := 16

/-- A cleared context, if its branches fit in memory. -/
def new (pid : UInt32) (select : Select) (capacity : Nat) : Except TraceError Context :=
  if capacity * branchBytes ≤ maxAllocation then
    .ok { pid, select, tos := 0, entries := List.replicate capacity ⟨0, 0⟩, parent := none }
  else .error .noMemory

/-- The number of branches a context holds. -/
def capacity (context : Context) : Nat :=
  context.entries.length

/-- A copy of a context on a cpu. -/
def snapshot (context : Context) (cpu : Nat) : Snapshot :=
  { pid := context.pid, cpu, select := context.select, tos := context.tos,
    entries := context.entries }

theorem capacity_new {pid : UInt32} {select : Select} {capacity : Nat} {context : Context}
    (h : new pid select capacity = .ok context) : context.capacity = capacity := by
  unfold new at h
  split at h
  · cases h
    simp [Context.capacity]
  · cases h

end Context

namespace Snapshot

/-- The two lines of the branch at a place of the stack. -/
def branchLines (index : Nat) (branch : Branch) : List String :=
  let place := "[" ++ Text.padded 2 index ++ "]: "
  [ "MSR_LBR_NHM_FROM" ++ place ++ Text.hex branch.source.toNat,
    "MSR_LBR_NHM_TO  " ++ place ++ Text.hex branch.target.toNat ]

/-- The lines of the branches from a place on. -/
def entryLines : Nat → List Branch → List String
  | _, [] => []
  | index, branch :: rest => branchLines index branch ++ entryLines (index + 1) rest

/-- The lines of a snapshot. -/
def lines (snapshot : Snapshot) : List String :=
  [ "PROC_PID:             " ++ toString snapshot.pid.toNat,
    "MSR_LBR_SELECT:       " ++ Text.hex snapshot.select.bits.toNat,
    "MSR_LBR_TOS:          " ++ toString snapshot.tos.toNat ]
    ++ entryLines 0 snapshot.entries
    ++ [ "LBR info for cpu: " ++ toString snapshot.cpu ]

/-- A snapshot as text. -/
def text (snapshot : Snapshot) : String :=
  "\n".intercalate snapshot.lines

/-- A snapshot as a JSON value. -/
def toJson (snapshot : Snapshot) : Text.Json :=
  .obj
    [ ("pid", .num snapshot.pid.toNat), ("cpu", .num snapshot.cpu),
      ("lbr_select", .num snapshot.select.bits.toNat), ("lbr_tos", .num snapshot.tos.toNat),
      ("entries", .arr (snapshot.entries.map fun branch =>
        .obj [("from", .num branch.source.toNat), ("to", .num branch.target.toNat)])) ]

end Snapshot

end BranchTrace
