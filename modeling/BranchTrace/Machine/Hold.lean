import BranchTrace.Log.Event
import BranchTrace.Machine.SignalMask

/-!
# Holds and guards

A hold keeps every signal of the thread back until it is let go, which puts the mask from before
in place again. If the call that takes it is refused, that is reported, and letting go of such a
hold does nothing. A guard is a hold with a lock: the lock is taken under the hold and given up
before the hold is let go, so that no signal comes in between. The value behind a lock is changed
while the lock is taken only.
-/

namespace BranchTrace

/-- A thread as far as its signal mask and the locks go. -/
structure Thread (α : Type) where
  mask : SignalMask
  /-- For each mask call to come, why it is refused, if it is. -/
  refusals : Nat → Option CallFailure
  /-- The values behind the locks. -/
  values : Nat → Guarded α
  /-- The locks that the thread has taken. -/
  taken : List Nat := []
  /-- What was reported, newest first. -/
  events : List Event := []

namespace Thread

variable {α β : Type}

/-- One mask call, which is refused or reads and changes the mask. -/
def maskCall (call : StateM SignalMask β) : StateM (Thread α) (Except CallFailure β) := fun t =>
  let later := { t with refusals := fun n => t.refusals (n + 1) }
  match t.refusals 0 with
  | some failure => (.error failure, later)
  | none =>
    let (result, mask) := call t.mask
    (.ok result, { later with mask })

/-- Changes the value behind a lock. -/
def modify (lock : Nat) (update : α → α) (t : Thread α) : Thread α :=
  { t with
    values := fun n => if n = lock then { value := update (t.values n).value } else t.values n }

end Thread

/-- All signals are held back. -/
structure Hold where
  /-- The mask to put back. -/
  old : SignalMask
  /-- Whether there is one. -/
  restore : Bool
  deriving DecidableEq, Repr

namespace Hold

variable {α : Type}

/-- Holds every signal back. -/
def take : StateM (Thread α) Hold := fun t =>
  match t.maskCall SignalMask.enter with
  | (.ok old, t) => ({ old, restore := true }, t)
  | (.error failure, t) =>
    ({ old := .none, restore := false }, { t with events := .signalsKept failure :: t.events })

/-- Lets the signals go as before. -/
def release (hold : Hold) : StateM (Thread α) Unit := fun t =>
  if hold.restore then ((), (t.maskCall fun mask => ((), hold.old.leave mask)).2) else ((), t)

end Hold

/-- A lock is taken, and all signals are held back. -/
structure Guard where
  lock : Nat
  hold : Hold
  deriving DecidableEq, Repr

namespace Guard

variable {α : Type}

/-- Takes a lock. If another thread has it, that one is waited for, which changes nothing here; a
thread that has it already waits for itself, without end. -/
def take (lock : Nat) : Thread α → Option (Guard × Thread α) := fun t =>
  let (hold, t) := Hold.take t
  if lock ∈ t.taken then none else some ({ lock, hold }, { t with taken := lock :: t.taken })

/-- Gives the lock up, and then lets the signals go as before. -/
def release (guard : Guard) : StateM (Thread α) Unit := fun t =>
  guard.hold.release { t with taken := t.taken.erase guard.lock }

end Guard

end BranchTrace
