import BranchTrace.Cli.Simulate
import BranchTrace.Proofs.Host.Steady

/-!
# Rounds of a simulation

In every round of a simulation one process comes onto the cpu and fills the stack there. Whoever
does that, traced or not, it is in the stacks of the traced processes as if each had a stack for
itself: after any rounds the stack of a process is the one that it filled in its last turn
(`runRounds_stands`).
-/

namespace BranchTrace.Cli

/-- A stack that a process has filled in a round, whatever it held before. -/
def filled (capacity : Nat) (pid round : UInt32) (stack : Stack) : Stack :=
  { stack with
    tos := UInt64.ofNat (round.toNat % capacity)
    branches := takenBranches capacity pid round }

theorem length_takenBranches {capacity : Nat} (h : capacity ≤ 64) (pid round : UInt32) :
    (takenBranches capacity pid round).length = capacity := by
  have hsize : capacity < UInt32.size := h.trans_lt (by decide)
  rw [takenBranches, List.length_map, List.length_range, Nat.mod_eq_of_lt hsize]

theorem writeAll_eq (bank : SoftBank) (cpu : Nat) (writes : List (UInt32 × UInt64)) :
    writeAll bank cpu writes = bank.writeAll cpu writes := by
  induction writes generalizing bank with
  | nil => rfl
  | cons w writes ih => exact ih _

namespace Simulation

/-- The process that runs in a round. -/
def turn (runnable : List UInt32) (round : Nat) : UInt32 :=
  (runnable[round % runnable.length]?).getD idlePid

/-- The last of some rounds in which a process ran. -/
def lastTurn? (runnable : List UInt32) (rounds : List Nat) (pid : UInt32) : Option Nat :=
  (rounds.filter fun round => turn runnable round = pid).getLast?

/-- The stack of a process after some rounds. -/
def afterRounds (capacity : Nat) (runnable : List UInt32) (rounds : List Nat) (pid : UInt32)
    (stack : Stack) : Stack :=
  match lastTurn? runnable rounds pid with
  | none => stack
  | some round => filled capacity pid (UInt32.ofNat round) stack

theorem lastTurn?_eq_none {runnable : List UInt32} {rounds : List Nat} {pid : UInt32} :
    lastTurn? runnable rounds pid = none ↔ ∀ round ∈ rounds, turn runnable round ≠ pid := by
  simp [lastTurn?]

/-- One round, and then the others. -/
theorem afterRounds_cons (capacity : Nat) (runnable : List UInt32) (round : Nat)
    (rounds : List Nat) (pid : UInt32) (stack : Stack) :
    afterRounds capacity runnable (round :: rounds) pid stack =
      afterRounds capacity runnable rounds pid
        (if turn runnable round = pid then filled capacity pid (UInt32.ofNat round) stack
          else stack) := by
  rw [afterRounds, afterRounds, lastTurn?, lastTurn?]
  by_cases h : turn runnable round = pid
  · simp only [List.filter_cons, h, decide_true, if_true, List.getLast?_cons]
    cases (rounds.filter fun round => turn runnable round = pid).getLast? <;> rfl
  · simp only [List.filter_cons, h, decide_false, Bool.false_eq_true, if_false]

variable {id : Nat} {config : Config} {cpu : Nat} {roster : Roster}
  {owned : UInt32 → Option Stack} {s : Platform}

open Platform

/-- A process that runs fills its own stack, and no other. -/
theorem recordBranches_stands (h : Stands id config cpu roster owned s) (hpos : 0 < config.capacity)
    (h64 : config.capacity ≤ 64) {pid : UInt32} (hrun : s.runningOn cpu = some pid)
    (round : UInt32) :
    ∃ s', recordBranches cpu config.capacity pid round s = (.ok (), s') ∧
      Stands id config cpu roster
        (Function.update owned pid ((owned pid).map (filled config.capacity pid round))) s' := by
  obtain ⟨bank, hsteady⟩ := h.steady
  let branches := takenBranches config.capacity pid round
  let writes := (Msr.tos, UInt64.ofNat (round.toNat % config.capacity)) :: branchWrites 0 branches
  let machine : Machine := { s.machine with bank := .soft (bank.writeAll cpu writes) }
  have hrecord : recordBranches cpu config.capacity pid round s = (.ok (), { s with machine }) := by
    rw [recordBranches, if_neg hpos.ne', hsteady.bank]
    dsimp only
    rw [writeAll_eq]
  have hsteady' : machine.Steady cpu (bank.writeAll cpu writes) :=
    ⟨hsteady.allowed, hsteady.cur, hsteady.numbered, hsteady.configured, hsteady.faults, rfl⟩
  have howned := h.owned
  rw [hrun] at howned
  refine ⟨_, hrecord, h.serving.of_retains (retains_of_eq rfl rfl) h.serving.registered,
    ⟨_, hsteady'⟩, h.roster, fun other => ?_⟩
  have hrun' : runningOn { s with machine } cpu = some pid := hrun
  rw [hrun', Function.update_apply, ← howned pid, ← howned other]
  split
  case isTrue hp =>
    rw [hp, Tracing.stackOf?_of_running (t := s.tracing id) hsteady,
      Tracing.stackOf?_of_running (t := tracing { s with machine } id) hsteady', Option.map_map]
    refine Option.map_congr fun context hc => ?_
    -- every context has as many branches as were written
    have hcapacity := h.serving.registered.capacity_of_contextOf? hc
    have hlength : branches.length = config.capacity := length_takenBranches h64 pid round
    have hstack := bank.stack_writeAll_branches cpu (UInt64.ofNat (round.toNat % config.capacity))
      (hlength.trans_le h64)
    rw [hlength] at hstack
    rw [Function.comp_apply, hcapacity]
    exact hstack
  case isFalse hp =>
    have hne : some pid ≠ some other := fun he => hp (Option.some.inj he).symm
    rw [Tracing.stackOf?_of_ne hne, Tracing.stackOf?_of_ne hne]
    rfl

theorem runRounds_cons (cpu capacity : Nat) (runnable : List UInt32) (round : Nat)
    (rounds : List Nat) :
    runRounds cpu capacity runnable (round :: rounds) =
      ExceptT.lift (contextSwitch cpu (turn runnable round)) >>= fun _ =>
        recordBranches cpu capacity (turn runnable round) (UInt32.ofNat round) >>= fun _ =>
        runRounds cpu capacity runnable rounds := rfl

/-- After the rounds every process has the stack that it filled in its last turn. -/
theorem runRounds_stands (h : Stands id config cpu roster owned s) (hpos : 0 < config.capacity)
    (h64 : config.capacity ≤ 64) (runnable : List UInt32) (rounds : List Nat) :
    ∃ s', runRounds cpu config.capacity runnable rounds s = (.ok (), s') ∧
      Stands id config cpu roster
        (fun pid => (owned pid).map (afterRounds config.capacity runnable rounds pid)) s' := by
  induction rounds generalizing s owned with
  | nil =>
    refine ⟨s, rfl, h.serving, h.steady, h.roster, fun pid => ?_⟩
    rw [h.owned]
    exact Option.map_id'.symm
  | cons round rounds ih =>
    obtain ⟨hswitched, hrun⟩ := h.switch h64 (turn runnable round)
    obtain ⟨recorded, hrecord, hfilled⟩ :=
      recordBranches_stands hswitched hpos h64 hrun (UInt32.ofNat round)
    obtain ⟨s', hrest, hstands⟩ := ih hfilled
    refine ⟨s', ?_, hstands.serving, hstands.steady, hstands.roster, fun pid => ?_⟩
    · simp only [runRounds_cons, Action.bind_apply, Action.lift_apply, hrecord, hrest]
    · rw [hstands.owned, Function.update_apply]
      split
      case isTrue hp =>
        subst hp
        rw [Option.map_map]
        refine congrArg (Option.map · _) (funext fun stack => ?_)
        rw [Function.comp_apply, afterRounds_cons, if_pos rfl]
      case isFalse hp =>
        refine congrArg (Option.map · _) (funext fun stack => ?_)
        rw [afterRounds_cons, if_neg (Ne.symm hp)]

end Simulation

end BranchTrace.Cli
