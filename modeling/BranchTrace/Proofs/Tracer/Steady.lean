import BranchTrace.Proofs.Machine.Steady
import BranchTrace.Proofs.Tracer.Blocks
import BranchTrace.Proofs.Tracer.Exchanges
import BranchTrace.Proofs.Tracer.Masks

/-!
# Tracers on steady machines

On a steady machine every operation of a tracer does what it is for, and what it comes to can be
written down: to the store, and to the registers of the cpu that the thread is bound to.
-/

namespace BranchTrace

/-- The context that a request to trace a process adds: cleared, with the mask of the request. -/
def Config.contextFor (config : Config) (pid : UInt32) (bits : UInt64) : Context where
  pid := pid
  select := ⟨config.maskFor bits⟩
  tos := 0
  entries := List.replicate config.capacity ⟨0, 0⟩
  parent := none

theorem Config.new_contextFor (config : Config)
    (hc : config.capacity * Context.branchBytes ≤ Context.maxAllocation) (pid : UInt32)
    (bits : UInt64) :
    Context.new pid (if bits = 0 then config.defaultSelect else ⟨bits⟩) config.capacity =
      .ok (config.contextFor pid bits) := by
  rw [Context.new, if_pos hc, contextFor, maskFor]
  split <;> rfl

/-! ## The registry by process -/

namespace Registered

variable {config : Config} {store store' : Store} (hr : Registered config store)
include hr

theorem contextOf?_eq_some {pid : UInt32} {context : Context} :
    store.contextOf? pid = some context ↔
      (∃ handle, (handle, context) ∈ store.toList) ∧ context.pid = pid := by
  constructor
  · intro h
    obtain ⟨handle, hf, hget⟩ := Option.bind_eq_some_iff.mp h
    exact ⟨⟨handle, hr.wellFormed.get?_eq_some.mp hget⟩, hr.wellFormed.pid_of_find? hf hget⟩
  · rintro ⟨⟨handle, hm⟩, rfl⟩
    cases hf : store.find? context.pid with
    | none => exact absurd rfl (hr.wellFormed.find?_eq_none.mp hf _ hm)
    | some found =>
      obtain ⟨other, hother, hpid⟩ := hr.wellFormed.exists_of_find? hf
      have he := List.inj_on_of_nodup_map hr.pids_nodup hother hm hpid
      obtain rfl : found = handle := congrArg Prod.fst he
      rw [Store.contextOf?, hf, Option.bind_eq_bind, Option.bind_some]
      exact hr.wellFormed.get?_eq_some.mpr hm

theorem capacity_of_contextOf? {pid : UInt32} {context : Context}
    (h : store.contextOf? pid = some context) : context.capacity = config.capacity := by
  obtain ⟨⟨handle, hm⟩, -⟩ := hr.contextOf?_eq_some.mp h
  exact hr.capacity _ hm

theorem contextOf?_insert {context : Context} {handle : Handle}
    (hi : store.insert context = .ok (handle, store')) (hr' : Registered config store')
    (pid : UInt32) : store'.contextOf? pid =
      if pid = context.pid then some context else store.contextOf? pid := by
  have hlist := (hr.wellFormed.of_insert hi).2
  split
  case isTrue hp =>
    rw [hr'.contextOf?_eq_some, hlist]
    exact ⟨⟨handle, List.mem_append_right _ (List.mem_singleton_self _)⟩, hp.symm⟩
  case isFalse hp =>
    ext found
    rw [hr'.contextOf?_eq_some, hr.contextOf?_eq_some, hlist]
    constructor
    · rintro ⟨⟨k, hk⟩, rfl⟩
      rcases List.mem_append.mp hk with hk | hk
      · exact ⟨⟨k, hk⟩, rfl⟩
      · exact absurd (congrArg (·.2.pid) (List.mem_singleton.mp hk)) hp
    · rintro ⟨⟨k, hk⟩, rfl⟩
      exact ⟨⟨k, List.mem_append_left _ hk⟩, rfl⟩

/-- A change that keeps whose context it is keeps the registry. -/
theorem amend {f : Context → Context} (hf : ∀ context : Context, context.Alike (f context))
    (pid : UInt32) :
    Registered config (store.amend pid f) ∧ (store.amend pid f).roster = store.roster := by
  cases h : store.find? pid with
  | none =>
    rw [Store.amend_of_find?_eq_none h]
    exact ⟨hr, rfl⟩
  | some handle =>
    obtain ⟨context, hget⟩ := Store.contains_iff.mp (hr.wellFormed.contains_of_find? h)
    have he : store.Edited handle (store.amend pid f) :=
      ⟨context, f context, hget, hf context, Store.amend_eq_update h hget⟩
    exact ⟨hr.edit he, hr.roster_edit he⟩

end Registered

namespace Tracing

variable {s : Tracing} {cpu : Nat} {bank : SoftBank}

/-- A pin makes no difference to a step under it. -/
theorem pinnedHere_steady {α : Type} {bank' : SoftBank} (h : s.machine.Steady cpu bank)
    {step : Nat → Action Tracing TraceError α} {outcome : Except TraceError α × Tracing}
    (hs : step cpu s = outcome) (hsteady : outcome.2.machine.Steady cpu bank') :
    pinnedHere step s = outcome := by
  obtain ⟨r, t⟩ := outcome
  rw [pinnedHere, pinned_apply]
  simp only [MachineState.machine, MachineState.setMachine, h.current, hs]
  rw [hsteady.release]

theorem restore_steady (h : s.machine.Steady cpu bank) (context : Context) :
    ∃ m : Machine, io (restore cpu context) s = (.ok (), { s with machine := m }) ∧
      m.Steady cpu (bank.writeAll cpu context.writes) := by
  obtain ⟨hok, hsteady⟩ := h.wrmsrAll cpu context.writes
  have hloaded : Lbr.restore cpu context s.machine =
    Machine.wrmsrAll cpu context.writes s.machine := rfl
  refine ⟨_, ?_, hsteady⟩
  rw [io_apply, restore_apply, hloaded, hok]
  rfl

theorem save_steady (h : s.machine.Steady cpu bank) (handle : Handle) (context : Context) :
    ∃ m : Machine, save cpu handle context s =
        (.ok (context.refreshed (bank.cells (bank.file cpu))),
          { store := s.store.update handle fun _ =>
              context.refreshed (bank.cells (bank.file cpu)), machine := m }) ∧
      m.Steady cpu bank := by
  obtain ⟨m, hsave, hsteady⟩ := h.save cpu context
  refine ⟨m, ?_, hsteady⟩
  rw [save_apply, hsave]
  rfl

end Tracing

namespace Tracer

open Tracing

variable {s : Tracing} {cpu : Nat} {bank : SoftBank} (h : s.machine.Steady cpu bank)
include h

/-! ## Switches -/

/-- A transfer moves the context of a process that is traced, and else does nothing. -/
theorem transfer_steady {direction : Transfer} {pid : UInt32}
    {move : Nat → Handle → Context → Action Tracing SystemError Unit} {P : Tracing → Prop}
    (hnone : s.store.find? pid = none → P s)
    (hmove : ∀ handle context m, s.store.find? pid = some handle →
      s.store.get? handle = some context → m.Steady cpu bank →
      ∃ t bank', move cpu handle context { s with machine := m } = (.ok (), t) ∧
        t.machine.Steady cpu bank' ∧ P t) :
    P (transfer direction pid move s).2 := by
  have hreported := h.report (.switching direction pid)
  refine transfer_cases direction pid move hnone (fun handle e m _ he => ?_) ?_
  · rw [hreported.current] at he
    cases he
  · intro handle context pin m hf hget he moved
    rw [hreported.current] at he
    cases he
    obtain ⟨t, bank', hmoved, hsteady, hp⟩ := hmove handle context _ hf hget hreported
    have ht : moved = (.ok (), t) := hmoved
    rw [ht]
    show P { t with machine := (Pin.release { cpu, saved := [cpu] } t.machine).2 }
    rwa [hsteady.release]

theorem schedOut_steady (pid : UInt32) :
    ∃ m : Machine, (schedOut pid s).2 =
        { store := s.store.amend pid (Context.refreshed (bank.cells (bank.file cpu)))
          machine := m } ∧
      m.Steady cpu bank := by
  refine transfer_steady (P := fun t => ∃ m : Machine, t = { store := _, machine := m } ∧
    m.Steady cpu bank) h (fun hf => ⟨s.machine, ?_, h⟩) ?_
  · rw [Store.amend_of_find?_eq_none hf]
  · intro handle context m hf hget hm
    obtain ⟨n, hsave, hn⟩ := save_steady (s := { s with machine := m }) hm handle context
    refine ⟨_, bank, ?_, hn, n, rfl, hn⟩
    rw [save_then_apply, hsave, Store.amend_eq_update hf hget]
    rfl

theorem schedIn_steady (pid : UInt32) :
    ∃ m : Machine, (schedIn pid s).2 = { s with machine := m } ∧
      m.Steady cpu (bank.writeAll cpu (s.store.writesOf pid)) := by
  refine transfer_steady (P := fun t => ∃ m : Machine, t = { s with machine := m } ∧
    m.Steady cpu (bank.writeAll cpu (s.store.writesOf pid))) h (fun hf => ⟨s.machine, rfl, ?_⟩) ?_
  · rw [Store.writesOf, Store.contextOf?, hf]
    exact h
  · intro handle context m hf hget hm
    obtain ⟨hok, hsteady⟩ := hm.wrmsrAll cpu context.writes
    have hwrites : s.store.writesOf pid = context.writes := by
      rw [Store.writesOf, Store.contextOf?, hf, Option.bind_eq_bind, Option.bind_some, hget]
      rfl
    rw [← hwrites] at hok hsteady
    refine ⟨_, _, ?_, hsteady, _, rfl, hsteady⟩
    rw [restore_apply, Lbr.restore, ← hwrites, hok]

/-! ## Requests -/

theorem select_steady {pid : UInt32} (bits : UInt64) {context : Context}
    (hf : s.store.contextOf? pid = some context) :
    ∃ (m : Machine) (bank' : SoftBank), select pid bits s =
        (.ok (), { store := s.store.amend pid fun c => { c with select := ⟨bits⟩ }, machine := m }) ∧
      m.Steady cpu bank' := by
  obtain ⟨handle, hfound, hget⟩ := Option.bind_eq_some_iff.mp hf
  have hstore := Store.amend_eq_update (f := fun c => { c with select := ⟨bits⟩ }) hfound hget
  obtain ⟨m, hrestore, hsteady⟩ := restore_steady
    (s := { s with store := s.store.update handle fun _ => { context with select := ⟨bits⟩ } })
    h { context with select := ⟨bits⟩ }
  refine ⟨m, _, pinnedHere_steady h ?_ hsteady, hsteady⟩
  simp only [Action.bind_apply, contexts_apply, hfound, hget, Action.modify_apply, hrestore, hstore]

theorem dump_steady {pid : UInt32} {context : Context}
    (hf : s.store.contextOf? pid = some context) :
    ∃ m : Machine, dump (some pid) s =
        (.ok ((context.refreshed (bank.cells (bank.file cpu))).snapshot cpu),
          { store := s.store.amend pid (Context.refreshed (bank.cells (bank.file cpu)))
            machine := m }) ∧
      m.Steady cpu bank := by
  obtain ⟨handle, hfound, hget⟩ := Option.bind_eq_some_iff.mp hf
  have hstore :=
    Store.amend_eq_update (f := Context.refreshed (bank.cells (bank.file cpu))) hfound hget
  obtain ⟨m, hsave, hsteady⟩ := save_steady h handle context
  have hreported := hsteady.report
    (.dumped ((context.refreshed (bank.cells (bank.file cpu))).snapshot cpu))
  refine ⟨_, pinnedHere_steady h ?_ hreported, hreported⟩
  simp only [Action.bind_apply, contexts_apply, hfound, hget, io_apply, hsave, hstore]
  rfl

theorem enable_steady {config : Config}
    (hc : config.capacity * Context.branchBytes ≤ Context.maxAllocation) {pid : UInt32}
    (bits : UInt64) (hnew : s.store.find? pid = none) {handle : Handle} {store : Store}
    (hi : s.store.insert (config.contextFor pid bits) = .ok (handle, store)) :
    ∃ (m : Machine) (bank' : SoftBank),
      enable config pid bits s = (.ok handle, { store, machine := m }) ∧ m.Steady cpu bank' := by
  have htraced : ¬isTraced s.store pid = true := by
    rw [isTraced, hnew]
    exact Bool.false_ne_true
  have hreported : (report (.inserted pid handle.index) { s with store }).2.machine.Steady cpu bank :=
    h.report _
  obtain ⟨m, hrestore, hsteady⟩ := restore_steady hreported (config.contextFor pid bits)
  rw [enable, Action.bind_apply, Action.liftM_apply, config.new_contextFor hc]
  refine ⟨m, _, pinnedHere_steady h ?_ hsteady, hsteady⟩
  simp only [Action.bind_apply, contexts_apply, if_neg htraced, insert_apply, hi,
    Action.tryCatch_apply]
  rw [Config.contextFor] at hrestore ⊢
  rw [hrestore]
  rfl

/-- A child of a traced process is added with the mask of its parent, if there is room for it. -/
theorem forkEnds_steady {config : Config} (hr : Registered config s.store)
    (hc : config.capacity * Context.branchBytes ≤ Context.maxAllocation) {parent child : UInt32}
    {forking : Context} (hparent : s.store.contextOf? parent = some forking)
    (hnew : s.store.find? child = none) :
    ∃ t : Tracing, forkEnds config parent (some child) s = ((), t) ∧ t.machine.Steady cpu bank ∧
      (s.store.len = Store.maxSlots ∧ t.store = s.store ∨
        ∃ handle parentHandle, s.store.find? parent = some parentHandle ∧
          s.store.insert (bornContext config child parentHandle forking.select) =
            .ok (handle, t.store)) := by
  obtain ⟨parentHandle, hf, hget⟩ := Option.bind_eq_some_iff.mp hparent
  obtain ⟨events, hmachine⟩ := fork_machine config parent child s
  have houtcome := fork_outcome hr.wellFormed config parent child
  rw [forkEnds, stateM_bind_apply, ExceptT.run]
  generalize fork config parent child s = forked at hmachine houtcome ⊢
  obtain ⟨r, t⟩ := forked
  have ht : t.machine.Steady cpu bank := hmachine ▸ h.of_journals events s.machine.accesses
  cases houtcome with
  | untraced hn => cases hf.symm.trans hn
  | tooLarge hn => exact absurd hc hn
  | known htraced =>
    rw [isTraced, hnew] at htraced
    cases htraced
  | full hl => exact ⟨_, rfl, ht.report _, .inl ⟨hl, rfl⟩⟩
  | added hf' hget' _ hi =>
    obtain rfl := Option.some.inj (hf.symm.trans hf')
    obtain rfl := Option.some.inj (hget.symm.trans hget')
    exact ⟨t, rfl, ht, .inr ⟨_, _, hf, hi⟩⟩

omit h in
/-- A request that is carried out is answered with the status of success. -/
theorem ioctl_ok {config : Config} {caller number : UInt32} {block : List UInt8} {param : UInt64}
    {reply : Reply} {t : Tracing} (hd : dispatch config caller number block param s = (.ok reply, t)) :
    ioctl config caller number block param s = (0, t) := by
  rw [ioctl, stateM_bind_apply, ExceptT.run, hd]
  rfl

omit h in
/-- A request to end tracing is noted and then carried out. -/
theorem dispatch_disable_eq (config : Config) {caller pid : UInt32} {request : Request}
    (htarget : target caller request = pid) (param : UInt64) (s : Tracing) :
    let asked := (report (.requested Command.disable.number request.select request.pid) s).2
    dispatch config caller Command.disable.number request.toBytes param s =
      ((disable pid asked).1.map Reply.disabled, (disable pid asked).2) := by
  have hcommand : Command.ofNumber Command.disable.number = .ok .disable := by decide
  rw [dispatch_apply, Request.ofBytes_toBytes]
  simp only [hcommand, htarget]

omit h in
/-- A request that a traced process is no longer traced is carried out on any machine. -/
theorem dispatch_disable {config : Config} (hr : Registered config s.store) {caller pid : UInt32}
    {request : Request} (htarget : target caller request = pid) (param : UInt64)
    (hpid : s.store.roster.has pid = true) :
    ∃ reply t, dispatch config caller Command.disable.number request.toBytes param s =
        (.ok reply, t) ∧ t.store.roster = s.store.roster.without pid := by
  let asked := (report (.requested Command.disable.number request.select request.pid) s).2
  have hd := dispatch_disable_eq config htarget param s
  have houtcome := disable_outcome (s := asked) hr.wellFormed pid
  dsimp only at hd
  generalize disable pid asked = disabled at hd houtcome
  obtain ⟨r, t⟩ := disabled
  dsimp only at hd houtcome
  cases houtcome with
  | untraced hn =>
    have hnone : s.store.find? pid = none := hn
    rw [hr.wellFormed.has_roster, isTraced, hnone] at hpid
    cases hpid
  | removed hf hremoved => exact ⟨_, t, hd, hr.roster_remove hf hremoved⟩

end Tracer

end BranchTrace
