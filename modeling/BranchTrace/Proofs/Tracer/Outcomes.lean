import BranchTrace.Proofs.Lbr.Moves
import BranchTrace.Proofs.Store.Remove
import BranchTrace.Proofs.Store.Update
import BranchTrace.Tracer.Control
import BranchTrace.Tracer.Fork
import BranchTrace.Tracer.Switch

/-!
# What the operations of a tracer can come to

One relation for each operation, from the state before it to its result and the state after it,
with a case for every way it can end: `enable_outcome`, `dump_outcome` and so on. They say all
that the operation does to the store, and that it fails with a system error only if the pin or a
register access did.
-/

namespace BranchTrace

namespace Tracing

/-- The pin was refused, or a register access on the way to a later state failed. -/
def Faulted (s s' : Tracing) : Prop :=
  ¬s.machine.Pinnable ∨ s.machine.Faulty s'.machine

/-- What comes of a step under a pin: the pin is refused, or the step runs where the thread is,
and taking the pin and giving it back touches no register. -/
theorem pinnedHere_induction {α : Type} {P : Except TraceError α → Tracing → Prop}
    (step : Nat → Action Tracing TraceError α) (s : Tracing)
    (hpin : ∀ e m, ¬s.machine.Pinnable → P (.error (.io e)) { s with machine := m })
    (hstep : ∀ m m', m.accesses = s.machine.accesses →
      m'.accesses = (step s.machine.cur { s with machine := m }).2.machine.accesses →
      P (step s.machine.cur { s with machine := m }).1
        { (step s.machine.cur { s with machine := m }).2 with machine := m' }) :
    P (pinnedHere step s).1 (pinnedHere step s).2 := by
  rw [pinnedHere, pinned_apply]
  rcases Pin.current_spec s.machine with ⟨hn, e, m, h, -⟩ | ⟨pin, m, h, hcpu, -, hm, hrel⟩
  · simp only [MachineState.machine, h]
    exact hpin e m hn
  · simp only [MachineState.machine, h, hcpu]
    exact hstep m _ hm.accesses (hrel _).1.accesses

theorem contexts_apply (s : Tracing) :
    (contexts : Action Tracing TraceError Store) s = (.ok s.store, s) := rfl

theorem io_apply {α : Type} (step : Action Tracing SystemError α) (s : Tracing) :
    io step s = ((step s).1.mapError .io, (step s).2) := rfl

theorem restore_apply (cpu : Nat) (context : Context) (s : Tracing) :
    restore cpu context s = ((Lbr.restore cpu context s.machine).1,
      { s with machine := (Lbr.restore cpu context s.machine).2 }) := by
  show (Except.mapError id (Lbr.restore cpu context s.machine).1, _) = _
  generalize (Lbr.restore cpu context s.machine).1 = r
  cases r <;> rfl

theorem save_apply (cpu : Nat) (handle : Handle) (context : Context) (s : Tracing) :
    save cpu handle context s =
      ((Lbr.save cpu context s.machine).1.1.map fun _ => (Lbr.save cpu context s.machine).1.2,
        { store := s.store.update handle fun _ => (Lbr.save cpu context s.machine).1.2
          machine := (Lbr.save cpu context s.machine).2 }) := rfl

/-! ## Adding and removing -/

theorem insert_apply (context : Context) (s : Tracing) :
    insert context s = match s.store.insert context with
      | .error e => (.error e, s)
      | .ok (handle, store) =>
        (.ok handle, (report (.inserted context.pid handle.index) { s with store }).2) := by
  rw [insert]
  cases s.store.insert context <;> rfl

theorem accesses_remove (handle : Handle) (s : Tracing) :
    (remove handle s).2.machine.accesses = s.machine.accesses := by
  rw [remove]
  cases s.store.remove? handle <;> rfl

theorem remove_apply (handle : Handle) (s : Tracing) :
    ∃ m, remove handle s = match s.store.remove? handle with
      | none => (.error .staleHandle, { s with machine := m })
      | some (removed, store) => (.ok removed.length, { store, machine := m }) := by
  rw [remove]
  cases s.store.remove? handle <;> exact ⟨_, rfl⟩

end Tracing

namespace Tracer

open Tracing

variable {s : Tracing}

/-- What comes of starting to trace a process. -/
inductive Enabled (config : Config) (pid : UInt32) (s : Tracing) :
    Except TraceError Handle → Tracing → Prop where
  | tooLarge (hc : ¬config.capacity * Context.branchBytes ≤ Context.maxAllocation) :
      Enabled config pid s (.error .noMemory) s
  | unpinned {s' : Tracing} {e : SystemError} (hf : s.Faulted s') (hs : s'.store = s.store) :
      Enabled config pid s (.error (.io e)) s'
  | known {s' : Tracing} (ht : isTraced s.store pid = true) (hs : s'.store = s.store) :
      Enabled config pid s (.error (.alreadyTraced pid)) s'
  | full {s' : Tracing} (hl : s.store.len = Store.maxSlots) (hs : s'.store = s.store) :
      Enabled config pid s (.error .noMemory) s'
  /-- The registers could not be loaded, so the context was taken out again. -/
  | undone {s' : Tracing} {context : Context} {handle : Handle} {store : Store}
      {removed : List Context} {e : SystemError} (hf : s.Faulted s')
      (ht : isTraced s.store pid = false) (hpid : context.pid = pid)
      (hparent : context.parent = none) (hcapacity : context.capacity = config.capacity)
      (hi : s.store.insert context = .ok (handle, store))
      (hr : store.remove? handle = some (removed, s'.store)) :
      Enabled config pid s (.error (.io e)) s'
  | added {s' : Tracing} {context : Context} {handle : Handle}
      (ht : isTraced s.store pid = false)
      (hpid : context.pid = pid) (hparent : context.parent = none)
      (hcapacity : context.capacity = config.capacity)
      (hi : s.store.insert context = .ok (handle, s'.store)) :
      Enabled config pid s (.ok handle) s'

theorem new_eq_ok {pid : UInt32} {select : Select} {capacity : Nat} {context : Context}
    (h : Context.new pid select capacity = .ok context) :
    context.pid = pid ∧ context.parent = none ∧ context.select = select ∧ context.tos = 0 ∧
      context.entries = List.replicate capacity ⟨0, 0⟩ := by
  unfold Context.new at h
  split at h
  · cases h
    exact ⟨rfl, rfl, rfl, rfl, rfl⟩
  · cases h

theorem enable_outcome (hw : s.store.WellFormed) (config : Config) (pid : UInt32)
    (select : UInt64) :
    Enabled config pid s (enable config pid select s).1 (enable config pid select s).2 := by
  rw [enable, Action.bind_apply, Action.liftM_apply]
  cases hn : Context.new pid (if select = 0 then config.defaultSelect else ⟨select⟩)
      config.capacity with
  | error e =>
    unfold Context.new at hn
    split at hn
    · cases hn
    · cases hn
      exact .tooLarge ‹_›
  | ok context =>
    obtain ⟨hpid, hparent, -⟩ := new_eq_ok hn
    have hcapacity := Context.capacity_new hn
    dsimp only
    refine pinnedHere_induction _ s (fun e m hp => .unpinned (.inl hp) rfl) fun m m' ha ha' => ?_
    simp only [Action.bind_apply, contexts_apply] at ha' ⊢
    by_cases ht : isTraced s.store pid = true
    · simp only [if_pos ht]
      exact .known ht rfl
    simp only [if_neg ht, Action.bind_apply, insert_apply, Action.tryCatch_apply, io_apply,
      restore_apply] at ha' ⊢
    rw [Bool.not_eq_true] at ht
    rcases hw.insert_spec context with ⟨hi, hl, -⟩ | ⟨handle, store, hi, -, hw', hlist⟩
    · simp only [hi]
      exact .full hl rfl
    simp only [hi] at ha' ⊢
    have hloaded := Lbr.restore_accounts s.machine.cur context
      (report (.inserted context.pid handle.index) { store, machine := m : Tracing }).2.machine
    generalize Lbr.restore s.machine.cur context _ = loaded at hloaded ha' ⊢
    obtain ⟨e | _, m''⟩ := loaded
    · have hc : store.contains handle = true :=
        Store.contains_iff.mpr ⟨context, hw'.get?_eq_some.mpr (by simp [hlist])⟩
      obtain ⟨store', hr, -⟩ := hw'.remove?_spec hc
      have hacc := accesses_remove handle { store, machine := m'' }
      obtain ⟨n, hn⟩ := remove_apply handle { store, machine := m'' }
      simp only [hr] at hn
      rw [hn] at hacc
      have hstore : (report (.inserted context.pid handle.index)
          { store, machine := m : Tracing }).2.store = store := rfl
      simp only [Except.mapError, hstore, hn, Action.throw_apply] at ha' ⊢
      refine .undone (.inr (hloaded.faulty.congr ha.symm (ha'.trans hacc))) ht hpid hparent
        hcapacity hi hr
    · exact .added ht hpid hparent hcapacity hi

/-- What comes of ending to trace a process. -/
inductive Disabled (pid : UInt32) (s : Tracing) : Except TraceError Nat → Tracing → Prop where
  | untraced (hf : s.store.find? pid = none) : Disabled pid s (.error (.notFound pid)) s
  | removed {s' : Tracing} {handle : Handle} {removed : List Context}
      (hf : s.store.find? pid = some handle)
      (hr : s.store.remove? handle = some (removed, s'.store)) :
      Disabled pid s (.ok removed.length) s'

theorem disable_outcome (hw : s.store.WellFormed) (pid : UInt32) :
    Disabled pid s (disable pid s).1 (disable pid s).2 := by
  rw [disable, Action.bind_apply, contexts_apply]
  dsimp only
  cases hf : s.store.find? pid with
  | none => exact .untraced hf
  | some handle =>
    obtain ⟨store, hr, -⟩ := hw.remove?_spec (hw.contains_of_find? hf)
    obtain ⟨m, hm⟩ := remove_apply handle s
    simp only [hr] at hm
    simp only [hm]
    exact .removed hf hr

/-- The context that a dump reads: that of a process, or the oldest one. -/
def wanted (store : Store) : Option UInt32 → Option Handle
  | some pid => store.find? pid
  | none => store.headHandle

/-- What comes of reading the registers into a context. -/
inductive Dumped (pid? : Option UInt32) (s : Tracing) :
    Except TraceError Snapshot → Tracing → Prop where
  | unpinned {s' : Tracing} {e : SystemError} (hf : s.Faulted s') (hs : s'.store = s.store) :
      Dumped pid? s (.error (.io e)) s'
  | absent {s' : Tracing} (hn : wanted s.store pid? = none) (hs : s'.store = s.store) :
      Dumped pid? s (.error (.notFound (pid?.getD 0))) s'
  /-- Some of the registers were read. -/
  | torn {s' : Tracing} {handle : Handle} {e : SystemError} (hf : s.Faulted s')
      (hn : wanted s.store pid? = some handle) (he : s.store.Edited handle s'.store) :
      Dumped pid? s (.error (.io e)) s'
  | read {s' : Tracing} {handle : Handle} {snapshot : Snapshot}
      (hn : wanted s.store pid? = some handle) (he : s.store.Edited handle s'.store) :
      Dumped pid? s (.ok snapshot) s'

theorem contains_of_wanted (hw : s.store.WellFormed) {pid? : Option UInt32} {handle : Handle}
    (h : wanted s.store pid? = some handle) : s.store.contains handle = true := by
  cases pid? with
  | some pid => exact hw.contains_of_find? h
  | none => exact hw.contains_of_headHandle h

theorem dump_eq (pid? : Option UInt32) :
    dump pid? = pinnedHere fun cpu => do
      let store ← contexts
      match wanted store pid? with
      | none => throw (.notFound (pid?.getD 0))
      | some handle =>
        match store.get? handle with
        | none => throw .staleHandle
        | some context =>
          let snapshot := (← io (save cpu handle context)).snapshot cpu
          tell (.dumped snapshot)
          return snapshot := by
  cases pid? <;> rfl

theorem dump_outcome (hw : s.store.WellFormed) (pid? : Option UInt32) :
    Dumped pid? s (dump pid? s).1 (dump pid? s).2 := by
  rw [dump_eq]
  refine pinnedHere_induction _ s (fun e m hp => .unpinned (.inl hp) rfl) fun m m' ha ha' => ?_
  simp only [Action.bind_apply, contexts_apply] at ha' ⊢
  cases hn : wanted s.store pid? with
  | none => exact .absent hn rfl
  | some handle =>
    obtain ⟨context, hget⟩ := Store.contains_iff.mp (contains_of_wanted hw hn)
    simp only [hn, hget, Action.bind_apply, io_apply, save_apply] at ha' ⊢
    have hsaved := Lbr.save_accounts s.machine.cur context m
    have halike := Lbr.save_alike s.machine.cur context m
    generalize Lbr.save s.machine.cur context m = saved at hsaved halike ha' ⊢
    obtain ⟨⟨e | _, context'⟩, m''⟩ := saved
    · exact .torn (.inr (hsaved.faulty.congr ha.symm ha')) hn ⟨context, context', hget, halike, rfl⟩
    · exact .read hn ⟨context, context', hget, halike, rfl⟩

/-- What comes of giving a process a new mask. -/
inductive Selected (pid : UInt32) (s : Tracing) : Except TraceError Unit → Tracing → Prop where
  | unpinned {s' : Tracing} {e : SystemError} (hf : s.Faulted s') (hs : s'.store = s.store) :
      Selected pid s (.error (.io e)) s'
  | absent {s' : Tracing} (hn : s.store.find? pid = none) (hs : s'.store = s.store) :
      Selected pid s (.error (.notFound pid)) s'
  /-- The mask is changed, and some of the registers are loaded. -/
  | torn {s' : Tracing} {handle : Handle} {e : SystemError} (hf : s.Faulted s')
      (hn : s.store.find? pid = some handle) (he : s.store.Edited handle s'.store) :
      Selected pid s (.error (.io e)) s'
  | loaded {s' : Tracing} {handle : Handle} (hn : s.store.find? pid = some handle)
      (he : s.store.Edited handle s'.store) : Selected pid s (.ok ()) s'

theorem select_outcome (hw : s.store.WellFormed) (pid : UInt32) (bits : UInt64) :
    Selected pid s (select pid bits s).1 (select pid bits s).2 := by
  rw [select]
  refine pinnedHere_induction _ s (fun e m hp => .unpinned (.inl hp) rfl) fun m m' ha ha' => ?_
  simp only [Action.bind_apply, contexts_apply] at ha' ⊢
  cases hn : s.store.find? pid with
  | none => exact .absent hn rfl
  | some handle =>
    obtain ⟨context, hget⟩ := Store.contains_iff.mp (hw.contains_of_find? hn)
    simp only [hn, hget, Action.bind_apply, Action.modify_apply, io_apply, restore_apply] at ha' ⊢
    have hedit : s.store.Edited handle (s.store.update handle fun _ =>
        { context with select := ⟨bits⟩ }) := ⟨context, { context with select := ⟨bits⟩ }, hget,
      ⟨rfl, rfl, rfl⟩, rfl⟩
    have hloaded := Lbr.restore_accounts s.machine.cur { context with select := ⟨bits⟩ } m
    generalize Lbr.restore s.machine.cur _ m = loaded at hloaded ha' ⊢
    obtain ⟨e | _, m''⟩ := loaded
    · exact .torn (.inr (hloaded.faulty.congr ha.symm ha')) hn hedit
    · exact .loaded hn hedit

/-! ## Forks -/

/-- The context that a forked child starts with: cleared, with a mask of its parent. -/
def bornContext (config : Config) (child : UInt32) (parent : Handle) (select : Select) :
    Context where
  pid := child
  select := select
  tos := 0
  entries := List.replicate config.capacity ⟨0, 0⟩
  parent := some parent

/-- What comes of a process forking a child. -/
inductive Forked (config : Config) (parent child : UInt32) (s : Tracing) :
    Except TraceError (Option Handle) → Tracing → Prop where
  | untraced (hf : s.store.find? parent = none) : Forked config parent child s (.ok none) s
  | tooLarge (hc : ¬config.capacity * Context.branchBytes ≤ Context.maxAllocation) :
      Forked config parent child s (.error .noMemory) s
  | known {s' : Tracing} (ht : isTraced s.store child = true) (hs : s'.store = s.store) :
      Forked config parent child s (.ok none) s'
  | full (hl : s.store.len = Store.maxSlots) : Forked config parent child s (.error .noMemory) s
  | added {s' : Tracing} {handle parentHandle : Handle} {forking : Context}
      (hf : s.store.find? parent = some parentHandle)
      (hget : s.store.get? parentHandle = some forking) (ht : isTraced s.store child = false)
      (hi : s.store.insert (bornContext config child parentHandle forking.select) =
        .ok (handle, s'.store))
      (hs : s'.machine.bank = s.machine.bank) :
      Forked config parent child s (.ok (some handle)) s'

theorem fork_outcome (hw : s.store.WellFormed) (config : Config) (parent child : UInt32) :
    Forked config parent child s (fork config parent child s).1
      (fork config parent child s).2 := by
  rw [fork, Action.bind_apply, contexts_apply]
  dsimp only
  cases hf : s.store.find? parent with
  | none => exact .untraced hf
  | some parentHandle =>
    obtain ⟨forking, hget⟩ := Store.contains_iff.mp (hw.contains_of_find? hf)
    simp only [Action.bind_apply, Action.liftM_apply]
    cases hn : Context.new child config.defaultSelect config.capacity with
    | error e =>
      unfold Context.new at hn
      split at hn
      · cases hn
      · cases hn
        exact .tooLarge ‹_›
    | ok context =>
      obtain ⟨hpid, -, -, htos, hentries⟩ := new_eq_ok hn
      simp only [contexts_apply]
      by_cases ht : isTraced s.store child = true
      · simp only [if_pos ht]
        exact .known ht rfl
      simp only [if_neg ht, hget, Option.map_some, Option.getD_some, Action.bind_apply,
        insert_apply, hpid, htos, hentries]
      rw [Bool.not_eq_true] at ht
      rcases hw.insert_spec (bornContext config child parentHandle forking.select) with
        ⟨hi, hl, -⟩ | ⟨handle, store, hi, -⟩
      · have hi' := hi
        rw [bornContext] at hi'
        simp only [hi']
        exact .full hl
      · have hi' := hi
        rw [bornContext] at hi'
        simp only [hi']
        exact .added hf hget ht hi rfl

/-- A fork leaves the store as it is, or adds the child. -/
theorem Forked.store_cases {config : Config} {parent child : UInt32} {s' : Tracing}
    {r : Except TraceError (Option Handle)} (h : Forked config parent child s r s') :
    s'.store = s.store ∨ ∃ handle parentHandle forking,
      s.store.find? parent = some parentHandle ∧ s.store.get? parentHandle = some forking ∧
      isTraced s.store child = false ∧
      s.store.insert (bornContext config child parentHandle forking.select) =
        .ok (handle, s'.store) := by
  cases h with
  | untraced | tooLarge | full => exact .inl rfl
  | known _ hs => exact .inl hs
  | added hf hget ht hi => exact .inr ⟨_, _, _, hf, hget, ht, hi⟩

/-! ## Switches -/

/-- The machine after a move, with a report if that failed. -/
def movedMachine (direction : Transfer) (pid : UInt32) :
    Except SystemError Unit → Machine → Machine
  | .ok (), m => m
  | .error e, m => (report (.transferFailed direction pid e) m).2

/-- The ways a transfer can go: the process is not traced, the pin is refused, or the move happens
under the pin. Failures are reported, that of the move before the pin is given back. -/
theorem transfer_cases {P : Tracing → Prop} (direction : Transfer) (pid : UInt32)
    (move : Nat → Handle → Context → Action Tracing SystemError Unit)
    (hnone : s.store.find? pid = none → P s)
    (hpin : ∀ handle e m, s.store.find? pid = some handle →
      Pin.current (report (.switching direction pid) s.machine).2 = (.error e, m) →
      P { s with machine := (report (.pinFailed direction pid e) m).2 })
    (hmove : ∀ handle context pin m, s.store.find? pid = some handle →
      s.store.get? handle = some context →
      Pin.current (report (.switching direction pid) s.machine).2 = (.ok pin, m) →
      let moved := move pin.cpu handle context { s with machine := m }
      P { moved.2 with
        machine := (pin.release (movedMachine direction pid moved.1 moved.2.machine)).2 }) :
    P (transfer direction pid move s).2 := by
  unfold transfer
  cases hf : s.store.find? pid with
  | none => exact hnone hf
  | some handle =>
    obtain ⟨context, hget, -⟩ := Store.exists_of_find? hf
    have hrep : ∀ event (t : Tracing),
        report event t = ((), { t with machine := (report event t.machine).2 }) := fun _ _ => rfl
    simp only [hrep, tryMachine, onMachine, MachineState.machine]
    rcases h : Pin.current (report (.switching direction pid) s.machine).2 with ⟨e | pin, m⟩
    · exact hpin handle e m hf h
    · have hpost := hmove handle context pin m hf hget h
      simp only [Except.mapError, MachineState.setMachine, hget]
      generalize move pin.cpu handle context { s with machine := m } = moved at hpost ⊢
      obtain ⟨_ | _, t⟩ := moved <;> exact hpost

/-- What comes of moving a context one way: the process is not traced, the pin is refused, or
the move happens where the thread is. -/
theorem transfer_induction {P : Tracing → Prop} (direction : Transfer) (pid : UInt32)
    (move : Nat → Handle → Context → Action Tracing SystemError Unit)
    (hnone : s.store.find? pid = none → P s)
    (hpin : ∀ handle m, s.store.find? pid = some handle → ¬s.machine.Pinnable →
      s.machine.Untouched m → P { s with machine := m })
    (hmove : ∀ handle context m m', s.store.find? pid = some handle →
      s.store.get? handle = some context → s.machine.Untouched m → m.cur = s.machine.cur →
      let moved := (move s.machine.cur handle context { s with machine := m }).2
      moved.machine.Untouched m' →
      (m.Stays moved.machine → s.machine.cur ∈ s.machine.allowed → m'.On s.machine.cur) →
      P { moved with machine := m' }) :
    P (transfer direction pid move s).2 := by
  have hcurrent := Pin.current_spec (report (.switching direction pid) s.machine).2
  refine transfer_cases direction pid move hnone (fun handle e m hf h => ?_) ?_
  · rw [h] at hcurrent
    rcases hcurrent with ⟨hn, e', m', he, hm⟩ | ⟨pin, m', he, -⟩ <;> cases he
    exact hpin handle _ hf (mt (Machine.pinnable_report _ _).mpr hn) ⟨hm.bank, hm.accesses⟩
  · intro handle context pin m hf hget h moved
    rw [h] at hcurrent
    rcases hcurrent with ⟨-, e', m', he, -⟩ | ⟨pin', m', he, hcpu, hcur, hm, hrel⟩ <;> cases he
    have hpost := hmove handle context m
    replace hcpu : pin.cpu = s.machine.cur := hcpu
    simp only [moved, hcpu]
    generalize move s.machine.cur handle context { s with machine := m } = moved at hpost ⊢
    obtain ⟨r, t⟩ := moved
    obtain ⟨hu, hon⟩ := hrel (movedMachine direction pid r t.machine)
    -- a failure is reported before the pin is given back
    cases r with
    | ok _ => exact hpost _ hf hget ⟨hm.bank, hm.accesses⟩ hcur hu hon
    | error e =>
      exact hpost _ hf hget ⟨hm.bank, hm.accesses⟩ hcur ⟨hu.bank, hu.accesses⟩
        fun hs => hon ⟨hs.cpus, hs.allowed, hs.cur⟩

theorem save_then_apply (cpu : Nat) (handle : Handle) (context : Context) (s : Tracing) :
    (do let _ ← save cpu handle context : Action Tracing SystemError Unit) s =
      (((save cpu handle context s).1.map fun _ => ()), (save cpu handle context s).2) := by
  rw [Action.bind_apply]
  rcases save cpu handle context s with ⟨_ | _, t⟩ <;> rfl

/-- Leaving a cpu can change the context of the process that leaves. -/
theorem schedOut_outcome (pid : UInt32) (s : Tracing) :
    (schedOut pid s).2.store = s.store ∨ ∃ handle, s.store.find? pid = some handle ∧
      s.store.Edited handle (schedOut pid s).2.store := by
  rw [schedOut]
  refine transfer_induction (P := fun t => t.store = s.store ∨ ∃ handle,
    s.store.find? pid = some handle ∧ s.store.Edited handle t.store) _ pid _ (fun _ => .inl rfl)
    (fun _ m _ _ _ => .inl rfl) fun handle context m m' hf hget _ _ => ?_
  intro moved _ _
  refine .inr ⟨handle, hf, ⟨context, _, hget,
    Lbr.save_alike s.machine.cur context m, ?_⟩⟩
  simp only [moved, save_then_apply, save_apply]

theorem store_schedIn (pid : UInt32) (s : Tracing) :
    (schedIn pid s).2.store = s.store := by
  rw [schedIn]
  refine transfer_induction (P := fun t => t.store = s.store) _ pid _ (fun _ => rfl)
    (fun _ m _ _ _ => rfl) fun handle context m m' hf hget _ _ => ?_
  intro moved _ _
  simp only [moved, restore_apply]

/-! ## Requests -/

/-- The process a request is about. -/
def target (caller : UInt32) (request : Request) : UInt32 :=
  if request.pid = 0 then caller else request.pid

theorem dispatch_apply (config : Config) (caller number : UInt32) (block : List UInt8)
    (param : UInt64) (s : Tracing) :
    dispatch config caller number block param s =
      match Request.ofBytes block with
      | .error e => (.error e, s)
      | .ok request =>
        let s := (report (.requested number request.select request.pid) s).2
        match Command.ofNumber number with
        | .error e => (.error e, s)
        | .ok .enable =>
          ((enable config (target caller request) request.select s).1.map
            fun _ => .enabled (target caller request),
            (enable config (target caller request) request.select s).2)
        | .ok .disable =>
          ((disable (target caller request) s).1.map .disabled,
            (disable (target caller request) s).2)
        | .ok .dump =>
          ((dump (if request.pid = 0 then none else some request.pid) s).1.map .dumped,
            (dump (if request.pid = 0 then none else some request.pid) s).2)
        | .ok .select =>
          ((select (target caller request) param s).1.map
            fun _ => .selected (target caller request),
            (select (target caller request) param s).2) := by
  rw [dispatch, Action.bind_apply, Action.liftM_apply]
  cases Request.ofBytes block with
  | error e => rfl
  | ok request =>
    simp only [Action.bind_apply, Action.tell_apply, Action.liftM_apply]
    cases Command.ofNumber number with
    | error e => rfl
    | ok command =>
      cases command with
      | enable =>
        simp only [Action.bind_apply, target]
        rcases enable config (if request.pid = 0 then caller else request.pid) request.select
          (report (.requested number request.select request.pid) s).2 with ⟨_ | _, t⟩ <;> rfl
      | disable =>
        simp only [Action.bind_apply, target]
        rcases disable (if request.pid = 0 then caller else request.pid)
          (report (.requested number request.select request.pid) s).2 with ⟨_ | _, t⟩ <;> rfl
      | dump =>
        simp only [Action.bind_apply]
        rcases dump (if request.pid = 0 then none else some request.pid)
          (report (.requested number request.select request.pid) s).2 with ⟨_ | _, t⟩ <;> rfl
      | select =>
        simp only [Action.bind_apply, target]
        rcases select (if request.pid = 0 then caller else request.pid) param
          (report (.requested number request.select request.pid) s).2 with ⟨_ | _, t⟩ <;> rfl

end Tracer

end BranchTrace
