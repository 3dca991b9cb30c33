/-!
# Faults

A plan of failures. A fault waits for one kind of call: it lets some calls through, then fails a
number of them, and is gone. Of several faults for the same kind the first in the plan is
looked at. A fault of a transfer may cut it short instead of failing it.
-/

namespace BranchTrace

/-- The calls that can be made to fail. -/
inductive Call where
  | getaffinity
  | getcpu
  | setaffinity
  | nproc
  | rdmsr
  | wrmsr
  | pread
  | pwrite
  deriving DecidableEq, Repr

/-- The name of a call. -/
def Call.name : Call → String
  | .getaffinity => "getaffinity"
  | .getcpu => "getcpu"
  | .setaffinity => "setaffinity"
  | .nproc => "nproc"
  | .rdmsr => "rdmsr"
  | .wrmsr => "wrmsr"
  | .pread => "pread"
  | .pwrite => "pwrite"

/-- Every call. -/
def Call.all : List Call :=
  [.getaffinity, .getcpu, .setaffinity, .nproc, .rdmsr, .wrmsr, .pread, .pwrite]

/-- The call with a name. -/
def Call.ofName (name : String) : Option Call :=
  Call.all.find? (·.name = name)

/-- One planned failure. -/
structure Fault where
  call : Call
  /-- How many calls still go through. -/
  skip : Nat := 0
  /-- How many calls then fail; zero for all of them. -/
  times : Nat := 1
  errno : Int32 := 5
  /-- For a transfer, the bytes that still move instead of a failure. -/
  short : Option Nat := none
  deriving DecidableEq, Repr

namespace Fault

/-- The plan once a fault at its front has struck. -/
def strike (fault : Fault) (rest : List Fault) : List Fault :=
  if fault.times = 0 then fault :: rest
  else if fault.times = 1 then rest
  else { fault with times := fault.times - 1 } :: rest

/-- What a plan does to one call: the fault that strikes, if any, and the plan after it. -/
def trip (call : Call) : List Fault → Option Fault × List Fault
  | [] => (none, [])
  | fault :: rest =>
    if fault.call = call then
      if fault.skip = 0 then (some fault, fault.strike rest)
      else (none, { fault with skip := fault.skip - 1 } :: rest)
    else
      let (struck, rest) := trip call rest
      (struck, fault :: rest)

theorem trip_of_forall_ne {call : Call} {plan : List Fault} (h : ∀ f ∈ plan, f.call ≠ call) :
    trip call plan = (none, plan) := by
  induction plan with
  | nil => rfl
  | cons fault rest ih =>
    have hf : fault.call ≠ call := h fault (by simp)
    have hr : trip call rest = (none, rest) := ih fun f hm => h f (by simp [hm])
    simp [trip, hf, hr]

end Fault

end BranchTrace
