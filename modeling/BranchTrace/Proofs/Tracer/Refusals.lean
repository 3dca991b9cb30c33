import BranchTrace.Proofs.Tracer.ControlPlane

/-!
# Refused requests

What can stand in the way of a request before it reaches a register, in the order in which a
tracer looks at it: `obstacles`. A request is refused with the first of them that is there, and
then neither the contexts nor the registers were touched (`Refused`). If there is none, it is
carried out, or fails in the middle of its register accesses.

Main statement: `dispatch_refuses`, for every request to a tracer with any history.
-/

namespace BranchTrace

/-- The error of an obstacle, where it is there. -/
def obstacle (there : Prop) [Decidable there] (e : TraceError) : Option TraceError :=
  if there then some e else none

/-- The thread cannot be pinned to the cpu it is on. -/
def Machine.unpinned (m : Machine) : Option TraceError :=
  match (Pin.current m).1 with
  | .error e => some (.io e)
  | .ok _ => none

/-- The process is not on the roster. -/
def Roster.absent (roster : Roster) (pid : UInt32) : Option TraceError :=
  obstacle (roster.has pid = false) (.notFound pid)

namespace Tracing

/-- What stands in the way of tracing a process. -/
def enableObstacles (config : Config) (pid : UInt32) (s : Tracing) : List (Option TraceError) :=
  [ obstacle (Context.maxAllocation < config.capacity * Context.branchBytes) .noMemory,
    s.machine.unpinned,
    obstacle (s.store.roster.has pid = true) (.alreadyTraced pid),
    obstacle (s.store.len = Store.maxSlots) .noMemory ]

/-- What stands in the way of giving a process up. -/
def disableObstacles (pid : UInt32) (s : Tracing) : List (Option TraceError) :=
  [s.store.roster.absent pid]

/-- What stands in the way of reading a process, or the oldest one for process 0. -/
def dumpObstacles (pid : UInt32) (s : Tracing) : List (Option TraceError) :=
  [ s.machine.unpinned,
    if pid = 0 then obstacle (s.store.roster = []) (.notFound 0) else s.store.roster.absent pid ]

/-- What stands in the way of reconfiguring a process. -/
def selectObstacles (pid : UInt32) (s : Tracing) : List (Option TraceError) :=
  [s.machine.unpinned, s.store.roster.absent pid]

/-- What stands in the way of a request. -/
def obstacles (config : Config) (caller number : UInt32) (block : List UInt8) (s : Tracing) :
    List (Option TraceError) :=
  let pid := Roster.requestPid block
  let target := if pid = 0 then caller else pid
  obstacle (block.length ≠ 16) (.partialRequest 16 block.length) ::
    if number = 0x40106c01 then s.enableObstacles config target
    else if number = 0x40106c02 then s.disableObstacles target
    else if number = 0x40106c03 then s.dumpObstacles pid
    else if number = 0x40106c04 then s.selectObstacles target
    else [some (.badCommand number)]

/-- The error of the first obstacle that is there. -/
def first (obstacles : List (Option TraceError)) : Option TraceError :=
  obstacles.findSome? id

/-- Neither the contexts nor the registers are touched, and no register access is tried. -/
structure Spared (s s' : Tracing) : Prop where
  store : s'.store = s.store
  accesses : s'.machine.accesses = s.machine.accesses
  bank : s'.machine.bank = s.machine.bank
  files : s'.machine.files = s.machine.files

variable {s s' s'' : Tracing}

theorem spared_refl (s : Tracing) : s.Spared s :=
  ⟨rfl, rfl, rfl, rfl⟩

theorem Spared.trans (h : s.Spared s') (h' : s'.Spared s'') : s.Spared s'' :=
  ⟨h'.store.trans h.store, h'.accesses.trans h.accesses, h'.bank.trans h.bank,
    h'.files.trans h.files⟩

/-- An operation fails with an error and touches nothing. -/
def Refused {α : Type} (s : Tracing) (e : TraceError) (outcome : Except TraceError α × Tracing) :
    Prop :=
  outcome.1 = .error e ∧ s.Spared outcome.2

/-- An operation is carried out, or one of its register accesses fails under the pin. -/
def Reached {α : Type} (s : Tracing) (outcome : Except TraceError α × Tracing) : Prop :=
  (∃ a, outcome.1 = .ok a) ∨ ∃ source, outcome.1 = .error (.io source) ∧
    s.machine.Pinnable ∧ s.machine.Faulty outcome.2.machine

/-- An operation is refused for the first obstacle in its way, and is not refused otherwise. -/
def Settled {α : Type} (obstacles : List (Option TraceError)) (s : Tracing)
    (outcome : Except TraceError α × Tracing) : Prop :=
  match first obstacles with
  | some e => s.Refused e outcome
  | none => s.Reached outcome

section Settled

variable {α : Type} {obstacles : List (Option TraceError)} {e : TraceError}
  {outcome : Except TraceError α × Tracing}

theorem settled_nil (h : s.Reached outcome) : Settled [] s outcome := h

/-- An operation is refused for its first obstacle, or settled by the others. -/
theorem settled_obstacle {there : Prop} [Decidable there] (hpos : there → s.Refused e outcome)
    (hneg : ¬there → Settled obstacles s outcome) :
    Settled (obstacle there e :: obstacles) s outcome := by
  unfold obstacle
  split
  · exact hpos ‹_›
  · exact hneg ‹_›

/-- How an operation ends may be told in other words, and after another reply. -/
theorem Settled.map {β : Type} (h : Settled obstacles s outcome) (f : α → β) :
    Settled obstacles s (outcome.1.map f, outcome.2) := by
  unfold Settled at h ⊢
  split at h
  · exact ⟨by rw [h.1]; rfl, h.2⟩
  · rcases h with ⟨a, ha⟩ | ⟨e, he, hf⟩
    · exact .inl ⟨f a, by rw [ha]; rfl⟩
    · exact .inr ⟨e, by rw [he]; rfl, hf⟩

/-- An event is reported before the operation. -/
theorem Settled.after_report {event : Event} (h : Settled obstacles (report event s).2 outcome) :
    Settled obstacles s outcome := by
  unfold Settled at h ⊢
  split at h
  · have hs : s.Spared (report event s).2 := ⟨rfl, rfl, rfl, rfl⟩
    exact ⟨h.1, hs.trans h.2⟩
  · refine h.imp id fun ⟨source, he, hp, hf⟩ => ⟨source, he, ?_, hf⟩
    exact (Machine.pinnable_report event s.machine).mp hp

end Settled

/-! ## Pins -/

section Pins

variable {α : Type} {step : Nat → Action Tracing TraceError α} {e : TraceError}

theorem spared_release (pin : Pin) (s : Tracing) :
    s.Spared { s with machine := (pin.release s.machine).2 } := by
  rcases Pin.release_cases pin s.machine with ⟨e, faults, h⟩ | ⟨faults, m, hb, h⟩
  · rw [h]
    exact ⟨rfl, rfl, rfl, rfl⟩
  · obtain ⟨-, cur, rfl, -⟩ := Machine.bind?_eq_some hb
    rw [h]
    exact ⟨rfl, rfl, rfl, rfl⟩

/-- The thread cannot be pinned, so the step does not happen, or the step settles the matter. -/
theorem settled_pinnedHere {obstacles : List (Option TraceError)}
    (h : s.machine.Pinnable → Settled obstacles s (pinnedHere step s)) :
    Settled (s.machine.unpinned :: obstacles) s (pinnedHere step s) := by
  unfold Machine.unpinned
  rcases Pin.current_cases s.machine with ⟨source, faults, hp⟩ | ⟨faults, hp, -⟩
  · have hrefused : s.Refused (.io source) (pinnedHere step s) := by
      rw [pinnedHere, Refused, pinned_apply]
      simp only [MachineState.machine, hp]
      exact ⟨trivial, rfl, rfl, rfl, rfl⟩
    simp only [hp]
    exact hrefused
  · simp only [hp]
    exact h ⟨_, congrArg Prod.fst hp⟩

/-- A step that fails at once touches nothing under a pin either. -/
theorem refused_of_throw (hp : s.machine.Pinnable)
    (hstep : ∀ m, step s.machine.cur { s with machine := m } =
      (.error e, { s with machine := m })) : s.Refused e (pinnedHere step s) := by
  rw [pinnedHere, Refused, pinned_apply]
  rcases Pin.current_cases s.machine with ⟨source, faults, h⟩ | ⟨faults, h, -⟩
  · obtain ⟨pin, hp⟩ := hp
    simp [h] at hp
  · have hm : s.Spared { s with machine :=
        { s.machine with faults, allowed := [s.machine.cur] } } := ⟨rfl, rfl, rfl, rfl⟩
    simp only [MachineState.machine, MachineState.setMachine, h, hstep]
    exact ⟨trivial, hm.trans (spared_release _ _)⟩

theorem Faulted.faulty (hf : s.Faulted s') (hp : s.machine.Pinnable) :
    s.machine.Faulty s'.machine :=
  hf.resolve_left (not_not_intro hp)

end Pins

end Tracing

/-! ## Operations -/

theorem Store.WellFormed.has_roster_eq_false {store : Store} (hw : store.WellFormed)
    {pid : UInt32} : store.roster.has pid = false ↔ store.find? pid = none := by
  rw [hw.has_roster, Tracer.isTraced, Option.isSome_eq_false_iff, Option.isNone_iff_eq_none]

theorem Store.WellFormed.roster_eq_nil {store : Store} (hw : store.WellFormed) :
    store.roster = [] ↔ store.headHandle = none := by
  have h := hw.head?_roster
  rw [Bool.eq_iff_iff, Option.isSome_iff_ne_none, Option.isSome_iff_ne_none, not_iff_not] at h
  rw [← h, List.head?_eq_none_iff]

namespace Tracer

open Tracing

variable {s : Tracing} (hw : s.store.WellFormed)
include hw

theorem enable_settled (config : Config) (pid : UInt32) (bits : UInt64) :
    Settled (s.enableObstacles config pid) s (enable config pid bits s) := by
  refine settled_obstacle (fun hc => ?_) fun hc => ?_
  · rw [enable, Action.bind_apply, Action.liftM_apply, Context.new, if_neg (Nat.not_le_of_lt hc)]
    exact ⟨rfl, spared_refl s⟩
  have hle := Nat.le_of_not_lt hc
  have h := enable_outcome hw config pid bits
  rw [enable, Action.bind_apply, Action.liftM_apply, Context.new, if_pos hle] at h ⊢
  dsimp only at h ⊢
  refine settled_pinnedHere fun hp => ?_
  rw [hw.has_roster]
  refine settled_obstacle (fun ht => refused_of_throw hp fun m => ?_) fun ht => ?_
  · simp only [Action.bind_apply, contexts_apply, if_pos ht, Action.throw_apply]
  refine settled_obstacle (fun hl => refused_of_throw hp fun m => ?_) fun hl => ?_
  · simp only [Action.bind_apply, contexts_apply, if_neg ht, insert_apply, hw.insert_of_full hl]
  generalize pinnedHere _ s = o at h ⊢
  obtain ⟨r, s'⟩ := o
  refine settled_nil ?_
  cases h with
  | tooLarge hn => exact absurd hle hn
  | known hn => exact absurd hn ht
  | full hn => exact absurd hn hl
  | unpinned hf | undone hf => exact .inr ⟨_, rfl, hp, hf.faulty hp⟩
  | added => exact .inl ⟨_, rfl⟩

theorem disable_settled (pid : UInt32) :
    Settled (s.disableObstacles pid) s (disable pid s) := by
  have h := disable_outcome hw pid
  generalize disable pid s = o at h ⊢
  obtain ⟨r, s'⟩ := o
  dsimp only at h
  refine settled_obstacle (fun hn => ?_) fun hn => ?_
  all_goals rw [hw.has_roster_eq_false] at hn
  · cases h with
    | untraced => exact ⟨rfl, spared_refl s⟩
    | removed hf => cases hn.symm.trans hf
  · cases h with
    | untraced hf => exact absurd hf hn
    | removed => exact settled_nil (.inl ⟨_, rfl⟩)

/-- A dump looks for the oldest context if it names no process. -/
theorem dumpObstacles_eq (pid : UInt32) :
    s.dumpObstacles pid = [s.machine.unpinned, obstacle
      (wanted s.store (if pid = 0 then none else some pid) = none) (.notFound pid)] := by
  by_cases h0 : pid = 0
  · simp only [dumpObstacles, h0, if_true, wanted, hw.roster_eq_nil]
  · simp only [dumpObstacles, h0, if_false, wanted, Roster.absent, hw.has_roster_eq_false]

theorem dump_settled (pid : UInt32) :
    Settled (s.dumpObstacles pid) s (dump (if pid = 0 then none else some pid) s) := by
  have h := dump_outcome hw (if pid = 0 then none else some pid)
  have hpid : (if pid = 0 then none else some pid).getD 0 = pid := by
    split
    · exact Eq.symm ‹_›
    · rfl
  rw [dump_eq] at h ⊢
  rw [dumpObstacles_eq hw]
  refine settled_pinnedHere fun hp => ?_
  refine settled_obstacle (fun hn => refused_of_throw hp fun m => ?_) fun hn => ?_
  · simp only [Action.bind_apply, contexts_apply, hn, Action.throw_apply, hpid]
  generalize pinnedHere _ s = o at h ⊢
  obtain ⟨r, s'⟩ := o
  refine settled_nil ?_
  cases h with
  | absent hf => exact absurd hf hn
  | unpinned hf | torn hf => exact .inr ⟨_, rfl, hp, hf.faulty hp⟩
  | read => exact .inl ⟨_, rfl⟩

theorem select_settled (pid : UInt32) (bits : UInt64) :
    Settled (s.selectObstacles pid) s (select pid bits s) := by
  have h := select_outcome hw pid bits
  rw [select] at h ⊢
  refine settled_pinnedHere fun hp => ?_
  refine settled_obstacle (fun hn => refused_of_throw hp fun m => ?_) fun hn => ?_
  all_goals rw [hw.has_roster_eq_false] at hn
  · simp only [Action.bind_apply, contexts_apply, hn, Action.throw_apply]
  generalize pinnedHere _ s = o at h ⊢
  obtain ⟨r, s'⟩ := o
  refine settled_nil ?_
  cases h with
  | absent hf => exact absurd hf hn
  | unpinned hf | torn hf => exact .inr ⟨_, rfl, hp, hf.faulty hp⟩
  | loaded => exact .inl ⟨_, rfl⟩

/-! ## Requests -/

omit hw in
theorem unpinned_report (event : Event) (s : Tracing) :
    (report event s).2.machine.unpinned = s.machine.unpinned := by
  have hs := Machine.silent_current s.machine (event :: s.machine.events)
  rw [Machine.unpinned, show (report event s).2.machine =
    { s.machine with events := event :: s.machine.events } from rfl, hs, Machine.unpinned]

theorem dispatch_settled (config : Config) (caller number : UInt32) (block : List UInt8)
    (param : UInt64) :
    Settled (s.obstacles config caller number block) s
      (dispatch config caller number block param s) := by
  rw [dispatch_apply]
  refine settled_obstacle (fun hb => ?_) fun hb => ?_
  · have hreq : Request.ofBytes block = .error (.partialRequest 16 block.length) := if_neg hb
    rw [hreq]
    exact ⟨rfl, spared_refl s⟩
  obtain ⟨bits, hreq⟩ := ofBytes_eq_ok (Decidable.not_not.mp hb)
  simp only [hreq, ofNumber_eq, target]
  -- the note of the request changes no obstacle
  have hpin := unpinned_report (.requested number bits (Roster.requestPid block)) s
  have hw' : (report (.requested number bits (Roster.requestPid block)) s).2.store.WellFormed := hw
  generalize (if Roster.requestPid block = 0 then caller else Roster.requestPid block) = pid
  split
  case isTrue =>
    have h := (enable_settled hw' config pid bits).map fun _ => Reply.enabled pid
    rw [enableObstacles, hpin] at h
    exact h.after_report
  split
  case isTrue => exact ((disable_settled hw' pid).map Reply.disabled).after_report
  split
  case isTrue =>
    have h := (dump_settled hw' (Roster.requestPid block)).map Reply.dumped
    rw [dumpObstacles, hpin] at h
    exact h.after_report
  split
  case isTrue =>
    have h := (select_settled hw' pid param).map fun _ => Reply.selected pid
    rw [selectObstacles, hpin] at h
    exact h.after_report
  case isFalse => exact ⟨rfl, rfl, rfl, rfl, rfl⟩

omit hw in
/-- A request to a tracer with any history that fails before it reaches a register touches
neither the contexts nor the registers, and its error is that of the first obstacle in its way.
Every request with an obstacle in its way fails so, and one without is carried out, or fails with
a register access. -/
theorem dispatch_refuses (config : Config) (machine : Machine) (history : List Operation)
    (caller number : UInt32) (block : List UInt8) (param : UInt64) :
    let s := runOperations config machine history
    let outcome := dispatch config caller number block param s
    let refusal := first (s.obstacles config caller number block)
    (∀ e, outcome.1 = .error e → ((∀ source, e ≠ .io source) ∨ ¬s.machine.Pinnable) →
      s.Spared outcome.2 ∧ refusal = some e) ∧
      (∀ e, refusal = some e → outcome.1 = .error e ∧ s.Spared outcome.2) ∧
      (refusal = none → (∃ reply, outcome.1 = .ok reply) ∨
        ∃ source, outcome.1 = .error (.io source) ∧ s.machine.Faulty outcome.2.machine) := by
  intro s outcome refusal
  have hw := (registered_runOperations config machine history).wellFormed
  have h : Settled (s.obstacles config caller number block) s outcome :=
    dispatch_settled hw config caller number block param
  unfold Settled at h
  rw [show first (s.obstacles config caller number block) = refusal from rfl] at h
  cases hr : refusal with
  | some first =>
    rw [hr] at h
    refine ⟨fun e he _ => ⟨h.2, ?_⟩, fun e he => ?_, nofun⟩
    · exact congrArg some (Except.error.inj (h.1.symm.trans he))
    · cases he
      exact h
  | none =>
    rw [hr] at h
    refine ⟨fun e he hio => ?_, nofun, fun _ => h.imp id fun ⟨source, hs, _, hf⟩ =>
      ⟨source, hs, hf⟩⟩
    rcases h with ⟨a, ha⟩ | ⟨source, hs, hp, -⟩
    · cases ha.symm.trans he
    · cases hs.symm.trans he
      exact (hio.resolve_right (not_not_intro hp) source rfl).elim

end Tracer

end BranchTrace
