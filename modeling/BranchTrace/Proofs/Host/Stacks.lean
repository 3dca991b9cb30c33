import BranchTrace.Proofs.Host.Ledger
import BranchTrace.Proofs.Tracer.Registered
import BranchTrace.Proofs.Tracer.Switches

/-!
# Every process has its own stack

`Kept` is what every deed keeps: the store is well-formed and keeps what the ledger promises. Main
statement: `stack_of_switch`, a process that comes onto a cpu finds the stack it is due there,
whatever happened to it and to the cpus in the meantime.
-/

namespace BranchTrace

namespace Platform

/-- What holds of a platform and its ledger between two deeds. -/
structure Kept (id : Nat) (config : Config) (s : Platform) (ledger : Ledger) : Prop where
  has : s.Has id config
  notifies : s.host.NotifiesOnly id
  wellFormed : (s.tracing id).store.WellFormed
  capacity : (s.tracing id).store.Uniform config.capacity
  due : Due (s.tracing id).store s.host.running ledger

variable {id : Nat} {config : Config} {s : Platform} {ledger : Ledger}

/-- Once the process before has left, nobody runs on the cpu, and its stack is in its context. -/
theorem Kept.leave (hk : Kept id config s ledger) {cpu : Nat} {next : UInt32}
    (hs : Switches id s cpu next) :
    (s.leave id cpu).store.WellFormed ∧ (s.leave id cpu).store.Uniform config.capacity ∧
      (s.leave id cpu).machine.bank = s.machine.bank ∧ (s.leave id cpu).machine.On cpu ∧
      Due (s.leave id cpu).store (eraseKey cpu s.host.running)
        (noteLeave id config.capacity cpu s ledger) := by
  have hpin := hs.leave_pin
  have hsmooth := hs.leave_smooth
  rw [Platform.leave, noteLeave] at *
  cases hl : s.host.running.lookup cpu with
  | none =>
    refine ⟨hk.wellFormed, hk.capacity, rfl, hs.thread, hk.due.mono fun pid hn => ?_⟩
    exact lookup_ne_of_eraseKey (by simp [hl]) hn
  | some prev =>
    simp only [hl] at hsmooth
    obtain ⟨bank, hb⟩ := hs.soft
    obtain ⟨hbank, hon, hout⟩ := Tracer.schedOut_soft hb hs.thread
      (hpin prev hl) hsmooth
    rcases hout with ⟨hf, hstore⟩ | ⟨handle, context, context', hf, hget, halike, hstack, hstore⟩
    · rw [hstore]
      refine ⟨hk.wellFormed, hk.capacity, hbank, hon, hk.due.leave hl (fun _ _ h _ => h) ?_⟩
      intro h stack he
      simp [leftBehind, hf] at he
    · have hedit : (s.tracing id).store.Edited handle
          ((s.tracing id).store.update handle fun _ => context') :=
        ⟨context, context', hget, halike, rfl⟩
      have hpid : context.pid = prev := hk.wellFormed.pid_of_find? hf hget
      have hcapacity : context.capacity = config.capacity :=
        hk.capacity _ (hk.wellFormed.get?_eq_some.mp hget)
      rw [hstore]
      refine ⟨(hedit.spec hk.wellFormed).1, hk.capacity.edit hk.wellFormed hedit, hbank, hon,
        hk.due.leave hl ?_ ?_⟩
      · intro h other hother hne
        rw [Store.get?_update, if_neg, hother]
        rintro rfl
        exact hne (Option.some.inj (hget.symm.trans hother) ▸ hpid)
      · intro h stack he
        have hm : s.machine.stack? cpu config.capacity = some (bank.stack cpu config.capacity) := by
          rw [Machine.stack?, hb]
        simp only [leftBehind, hf, hm, Option.bind_eq_bind, Option.bind_some, Option.pure_def,
          Option.some.injEq, Prod.mk.injEq] at he
        obtain ⟨rfl, rfl⟩ := he
        refine ⟨context', ?_, halike.pid.trans hpid, hcapacity ▸ hstack⟩
        rw [Store.get?_update, if_pos rfl, hget]
        rfl

/-! ## What a deed keeps -/

/-- What was kept is kept by a platform that differs in the machine alone. -/
theorem Kept.of_store_eq (hk : Kept id config s ledger) {s' : Platform} {ledger' : Ledger}
    (hhas : s'.Has id config) (hn : s'.host = s.host)
    (hstore : (s'.tracing id).store = (s.tracing id).store)
    (hd : Due (s.tracing id).store s.host.running ledger') : Kept id config s' ledger' := by
  refine ⟨hhas, hn ▸ hk.notifies, hstore ▸ hk.wellFormed, hstore ▸ hk.capacity, ?_⟩
  rwa [hn, hstore]

/-- Once the next process runs, nothing is promised about its context. -/
theorem Kept.switch (hk : Kept id config s ledger) {cpu : Nat} {next : UInt32}
    (hs : Switches id s cpu next) :
    Kept id config (Deed.run id (.switch cpu next) s)
      (Deed.note id config.capacity s (.switch cpu next) ledger) := by
  obtain ⟨hw, hu, -, -, hdue⟩ := hk.leave hs
  obtain ⟨ht, hhas, hhost⟩ := contextSwitch_spec hk.has hk.notifies cpu next
  have hstore : ((contextSwitch cpu next s).2.tracing id).store = (s.leave id cpu).store := by
    rw [ht, arrive, Tracer.store_schedIn]
  refine ⟨hhas, ?_, hstore ▸ hw, hstore ▸ hu, ?_⟩
  · rw [Deed.run, hhost]
    exact hk.notifies
  · have hmono : Due (s.leave id cpu).store (insertKey cpu next s.host.running)
        (noteLeave id config.capacity cpu s ledger) := by
      refine hdue.mono fun pid hn other => ?_
      have h := hn other
      rw [lookup_insertKey] at h
      rw [lookup_eraseKey]
      by_cases ho : other = cpu
      · simp [ho]
      · rwa [if_neg ho] at h ⊢
    rw [Deed.run, hstore, hhost]
    exact hmono.filter _

theorem Kept.fork (hk : Kept id config s ledger) (parent child : UInt32) :
    Kept id config (Deed.run id (.fork parent child) s)
      (Deed.note id config.capacity s (.fork parent child) ledger) := by
  obtain ⟨-, ht, hhas, hhost⟩ := onTracer_spec hk.has (.ok none)
    fun config => (Tracer.fork config parent child).run
  have ht' : (Deed.run id (.fork parent child) s).tracing id =
    (Tracer.fork config parent child (s.tracing id)).2 := ht
  have hn : (Deed.run id (.fork parent child) s).host = s.host := hhost
  have h := (Tracer.fork_outcome hk.wellFormed config parent child).store_cases
  rw [← ht'] at h
  rcases h with hstore | ⟨handle, parentHandle, forking, hf, hget, htraced, hi⟩
  · -- a child that was not added gets no entry
    refine hk.of_store_eq hhas hn hstore (Due.filter ?_ _)
    by_cases htraced : Tracer.isTraced (s.tracing id).store child = true
    · simp only [if_pos htraced]
      exact hk.due
    · simp only [if_neg htraced]
      have hf : (s.tracing id).store.find? child = none := by
        simpa [Tracer.isTraced] using htraced
      have hborn : bornWith id config.capacity s (Deed.run id (.fork parent child) s) parent child =
          none := by
        simp [bornWith, hstore, hf]
      rw [hborn]
      exact hk.due.strike child
  · have hnew : (s.tracing id).store.find? child = none := by
      simpa [Tracer.isTraced] using htraced
    have hcapacity : (Tracer.bornContext config child parentHandle forking.select).capacity =
        config.capacity := by
      simp [Context.capacity, Tracer.bornContext]
    refine ⟨hhas, hn ▸ hk.notifies, (hk.wellFormed.of_insert hi).1,
      hk.capacity.insert hk.wellFormed hi hcapacity, ?_⟩
    rw [hn]
    refine Due.filter ?_ _
    simp only [htraced, Bool.false_eq_true, if_false]
    refine hk.due.insert hk.wellFormed hi hnew fun h stack he => ?_
    simp only [bornWith, hf, hget, Option.bind_eq_bind, Option.bind_some, Option.pure_def,
      Option.bind_eq_some_iff, Option.some.injEq, Prod.mk.injEq] at he
    obtain ⟨_, hf', rfl, rfl⟩ := he
    exact ⟨hf', rfl⟩

theorem Kept.disable (hk : Kept id config s ledger) (pid : UInt32) :
    Kept id config (Deed.run id (.disable pid) s)
      (Deed.note id config.capacity s (.disable pid) ledger) := by
  obtain ⟨-, ht, hhas, hhost⟩ := onTracer_spec hk.has (.ok 0) fun _ => (Tracer.disable pid).run
  have hn : (Deed.run id (.disable pid) s).host = s.host := hhost
  have hstore : ((Deed.run id (.disable pid) s).tracing id).store =
      (Tracer.disable pid (s.tracing id)).2.store := congrArg (·.store) ht
  have h := Tracer.disable_outcome hk.wellFormed pid
  generalize Tracer.disable pid (s.tracing id) = o at h hstore
  obtain ⟨r, t⟩ := o
  cases h with
  | untraced => exact hk.of_store_eq hhas hn hstore (hk.due.filter _)
  | removed _ hr =>
    rw [← hstore] at hr
    refine ⟨hhas, hn ▸ hk.notifies, (hk.wellFormed.of_remove? hr).2.1,
      hk.capacity.remove hk.wellFormed hr, ?_⟩
    rw [hn]
    exact hk.due.remove hk.wellFormed hr

theorem Kept.dump (hk : Kept id config s ledger) {pid : UInt32}
    (hrun : s.host.running.lookup s.machine.cur = some pid) :
    Kept id config (Deed.run id (.dump pid) s)
      (Deed.note id config.capacity s (.dump pid) ledger) := by
  obtain ⟨-, ht, hhas, hhost⟩ := onTracer_spec hk.has (.error .staleHandle)
    fun _ => (Tracer.dump (some pid)).run
  have hn : (Deed.run id (.dump pid) s).host = s.host := hhost
  have hstore : ((Deed.run id (.dump pid) s).tracing id).store =
      (Tracer.dump (some pid) (s.tracing id)).2.store := congrArg (·.store) ht
  have hedited : ∀ handle, (s.tracing id).store.find? pid = some handle →
      (s.tracing id).store.Edited handle ((Deed.run id (.dump pid) s).tracing id).store →
      Kept id config (Deed.run id (.dump pid) s)
        (Deed.note id config.capacity s (.dump pid) ledger) := by
    intro handle hf he
    refine ⟨hhas, hn ▸ hk.notifies, (he.spec hk.wellFormed).1,
      hk.capacity.edit hk.wellFormed he, ?_⟩
    rw [hn]
    refine Due.filter (hk.due.edit he fun context hget => ?_) _
    exact ⟨_, hk.wellFormed.pid_of_find? hf hget ▸ hrun⟩
  have h := Tracer.dump_outcome hk.wellFormed (some pid)
  generalize Tracer.dump (some pid) (s.tracing id) = o at h hstore
  obtain ⟨r, t⟩ := o
  cases h with
  | unpinned _ hs | absent _ hs =>
    exact hk.of_store_eq hhas hn (hstore.trans hs) (hk.due.filter _)
  | torn _ hf he | read hf he => exact hedited _ hf (hstore ▸ he)

theorem Kept.deed (hk : Kept id config s ledger) {deed : Deed} (hp : deed.Permitted id s) :
    Kept id config (deed.run id s) (deed.note id config.capacity s ledger) := by
  cases deed with
  | switch cpu next => exact hk.switch hp
  | fork parent child => exact hk.fork parent child
  | disable pid => exact hk.disable pid
  | dump pid => exact hk.dump hp
  | outside machine => exact hk.of_store_eq hk.has rfl rfl (hk.due.filter _)

theorem Kept.watch (hk : Kept id config s ledger) {deeds : List Deed}
    (hp : AllPermitted id deeds s) :
    Kept id config (watch id config.capacity deeds (s, ledger)).1
      (watch id config.capacity deeds (s, ledger)).2 := by
  induction deeds generalizing s ledger with
  | nil => exact hk
  | cons deed deeds ih => exact ih (hk.deed hp.1) hp.2

/-! ## What a process finds -/

/-- A process that comes onto a cpu finds there what it was due. -/
theorem Kept.stack_arrive (hk : Kept id config s ledger) {cpu : Nat} {next : UInt32}
    (hs : Switches id s cpu next) (h64 : config.capacity ≤ 64) {handle : Handle} {stack : Stack}
    (hf : ((contextSwitch cpu next s).2.tracing id).store.find? next = some handle)
    (hl : Deed.note id config.capacity s (.switch cpu next) ledger next = some (handle, stack)) :
    (contextSwitch cpu next s).2.machine.stack? cpu config.capacity = some stack := by
  obtain ⟨hw, hu, hbank, hon, hdue⟩ := hk.leave hs
  obtain ⟨ht, -, -⟩ := contextSwitch_spec hk.has hk.notifies cpu next
  have hm : (contextSwitch cpu next s).2.machine = (s.arrive id cpu next).machine :=
    congrArg (·.machine) ht
  rw [ht, arrive, Tracer.store_schedIn] at hf
  obtain ⟨context, hget, -, hstack⟩ := hdue next handle stack (Option.filter_eq_some_iff.mp hl).1
  have hc : context.capacity = config.capacity := hu _ (hw.get?_eq_some.mp hget)
  -- nobody is on two cpus, so the next process is on none in between
  have hfree : ∀ other, (eraseKey cpu s.host.running).lookup other ≠ some next := by
    intro other
    rw [lookup_eraseKey]
    split
    · simp
    · next ho => exact hs.apart other ho
  obtain ⟨bank, hb⟩ := hs.soft
  obtain ⟨bank', hb', hstack'⟩ := Tracer.schedIn_soft (hbank.trans hb) hon hs.arrive_pin
    (hm ▸ hs.arrive_smooth) hf hget (hc.trans_le h64)
  rw [hm, arrive, Machine.stack?, hb', ← hc]
  exact congrArg some (hstack'.trans (hstack hfree))

theorem permitted_of_append {deeds : List Deed} {deed : Deed} (capacity : Nat)
    (hp : AllPermitted id (deeds ++ [deed]) s) :
    AllPermitted id deeds s ∧ deed.Permitted id (watch id capacity deeds (s, ledger)).1 := by
  induction deeds generalizing s ledger with
  | nil => exact ⟨trivial, hp.1⟩
  | cons first deeds ih =>
    obtain ⟨hdeeds, hlast⟩ := ih hp.2
    exact ⟨⟨hp.1, hdeeds⟩, hlast⟩

/-- After any permitted deeds, a process that comes onto a cpu finds there the stack that it is
due: the one it left behind when it last left a cpu, or the one it was born with. The store may be
any that operations of the tracer leave (`Tracer.registered_runOperations`). -/
theorem stack_of_switch {start : Platform} (deeds : List Deed) (cpu : Nat) (next : UInt32)
    (hhas : start.Has id config) (hnotifies : start.host.NotifiesOnly id)
    (hwellFormed : (start.tracing id).store.WellFormed)
    (hcapacity : (start.tracing id).store.Uniform config.capacity) (h64 : config.capacity ≤ 64)
    (hp : AllPermitted id (deeds ++ [.switch cpu next]) start) :
    let finish := watch id config.capacity (deeds ++ [.switch cpu next]) (start, fun _ => none)
    ∀ handle stack, (finish.1.tracing id).store.find? next = some handle →
      finish.2 next = some (handle, stack) →
      finish.1.machine.stack? cpu config.capacity = some stack := by
  intro finish handle stack hf hl
  have hk : Kept id config start fun _ => none :=
    ⟨hhas, hnotifies, hwellFormed, hcapacity, fun _ _ _ h => by cases h⟩
  obtain ⟨hdeeds, hlast⟩ := permitted_of_append config.capacity hp
  simp only [finish, watch_append] at hf hl ⊢
  exact (hk.watch hdeeds).stack_arrive hlast h64 hf hl

/-- A machine with two cpus whose thread is on one of them, after writes to registers there. -/
def writtenOn (cpu : Nat) (writes : List (UInt32 × UInt64)) : Machine :=
  { Machine.new 2 with cur := cpu, bank := .soft ((SoftBank.new 2).writeAll cpu writes) }

/-- A platform whose notifier traces process 7. -/
def tracingSeven : Platform :=
  { machine := .new 2
    host := { notifiers := [.tracer 0] }
    tracers := #[{ Tracer.new ⟨2, .userOnly⟩ with
      store := (Tracer.runOperations ⟨2, .userOnly⟩ (.new 2) [.enable 7 0]).store }] }

/-- The stack that process 7 leaves behind on cpu 0. -/
def stackOfSeven : Stack :=
  { select := 9, tos := 1, branches := [⟨3, 4⟩, ⟨5, 6⟩] }

/-- Process 7 runs on cpu 0, forks 8 and makes room for 5, while the child comes onto cpu 1. -/
def migration : List Deed :=
  [ .switch 0 7,
    .outside (writtenOn 0 ((Msr.select, 9) :: (Msr.tos, 1) :: branchWrites 0 [⟨3, 4⟩, ⟨5, 6⟩])),
    .fork 7 8, .dump 7, .switch 0 5, .outside (writtenOn 1 [(Msr.tos, 2), (Msr.source 1, 8)]),
    .switch 1 8 ]

theorem stack_of_switch_migration :
    AllPermitted 0 (migration ++ [.switch 1 7]) tracingSeven ∧
      (watch 0 2 (migration ++ [.switch 1 7]) (tracingSeven, fun _ => none)).2 7 =
        some (⟨0, 0⟩, stackOfSeven) ∧
      (watch 0 2 (migration ++ [.switch 1 7]) (tracingSeven, fun _ => none)).1.machine.stack? 1 2 =
        some stackOfSeven := by
  have hp : AllPermitted 0 (migration ++ [.switch 1 7]) tracingSeven := by decide +kernel
  have hf : ((watch 0 2 (migration ++ [.switch 1 7]) (tracingSeven, fun _ => none)).1.tracing
      0).store.find? 7 = some ⟨0, 0⟩ := by decide +kernel
  have hl : (watch 0 2 (migration ++ [.switch 1 7]) (tracingSeven, fun _ => none)).2 7 =
      some (⟨0, 0⟩, stackOfSeven) := by decide +kernel
  have hr := Tracer.registered_runOperations ⟨2, .userOnly⟩ (.new 2) [.enable 7 0]
  have hhas : tracingSeven.Has 0 ⟨2, .userOnly⟩ := rfl
  have hstore : (tracingSeven.tracing 0).store =
    (Tracer.runOperations ⟨2, .userOnly⟩ (.new 2) [.enable 7 0]).store := by
    simp only [tracing, tracingSeven, List.getElem?_toArray, List.getElem?_cons_zero,
      Option.map_some, Option.getD_some]
  rw [← hstore] at hr
  exact ⟨hp, hl, stack_of_switch migration 1 7 hhas ⟨[], [], rfl, by simp⟩ hr.wellFormed
    hr.capacity (by decide) hp ⟨0, 0⟩ stackOfSeven hf hl⟩

end Platform

end BranchTrace
