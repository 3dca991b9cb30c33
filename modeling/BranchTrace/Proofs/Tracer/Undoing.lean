import BranchTrace.Proofs.Lbr.Writing
import BranchTrace.Proofs.Tracer.Registered
import BranchTrace.Proofs.Tracer.Steady

/-!
# Undoing the start of a trace

A process starts to be traced with a cleared context that is added first and then loaded into the
registers of the cpu. If a register cannot be written, the context is taken out again, with all that
descends from it. Nothing does: its handle is new, and no context that is there can have it for a
parent. So what is stored is as it was, though not in the same slots.

Main statement: `enable_rolls_back`.
-/

namespace BranchTrace

namespace Store

variable {store added store' : Store}

/-- Two stores hold the same contexts under the same handles, in the same order. -/
structure Alike (store store' : Store) : Prop where
  len : store'.len = store.len
  headHandle : store'.headHandle = store.headHandle
  toList : store'.toList = store.toList
  searchOrder : store'.searchOrder = store.searchOrder
  get? : ∀ handle, store'.get? handle = store.get? handle
  find? : ∀ pid, store'.find? pid = store.find? pid

theorem WellFormed.alike (hw : store.WellFormed) (hw' : store'.WellFormed)
    (h : store'.toList = store.toList) : store.Alike store' where
  len := by rw [← hw'.length_toList, h, hw.length_toList]
  headHandle := by rw [hw'.headHandle_eq, h, hw.headHandle_eq]
  toList := h
  searchOrder := by rw [hw'.searchOrder_eq, h, hw.searchOrder_eq]
  get? handle := by
    apply Option.ext
    intro context
    rw [hw'.get?_eq_some, h, hw.get?_eq_some]
  find? pid := by rw [find?_eq, hw'.searchOrder_eq, h, find?_eq, hw.searchOrder_eq]

/-- A context without children is removed alone. -/
theorem WellFormed.toList_undone (hw : store.WellFormed) {context : Context} {handle : Handle}
    {removed : List Context} (hi : store.insert context = .ok (handle, added))
    (hchildless : ∀ e ∈ added.toList, e.2.parent ≠ some handle)
    (hr : added.remove? handle = some (removed, store')) :
    store'.WellFormed ∧ store'.toList = store.toList := by
  obtain ⟨hwa, hlist⟩ := hw.of_insert hi
  obtain ⟨hc, hw', hlist'⟩ := hwa.of_remove? hr
  obtain ⟨-, -, hfamily, -⟩ := hwa.family_spec hc
  have halone : ∀ k, k ∈ added.family handle ↔ k = handle := by
    intro k
    rw [hfamily]
    constructor
    · intro hd
      rcases Relation.ReflTransGen.cases_tail hd with rfl | ⟨child, -, found, hget, hp⟩
      · rfl
      · exact absurd hp (hchildless _ (hwa.get?_eq_some.mp hget))
    · rintro rfl
      exact .refl
  have hnew := hw.fresh_of_insert hi
  refine ⟨hw', ?_⟩
  rw [hlist', hlist, List.filter_append, List.filter_eq_self.mpr, List.filter_eq_nil_iff.mpr]
  · exact List.append_nil _
  · intro e he
    simp [halone, List.mem_singleton.mp he]
  · intro e he
    simp [halone, hnew e he]

end Store

namespace Registered

variable {config : Config} {store added : Store} {context : Context} {handle : Handle}

/-- No context has a parent that was not there when it was added. -/
theorem childless_of_insert (hr : Registered config store)
    (hi : store.insert context = .ok (handle, added)) (hp : context.parent = none) :
    ∀ e ∈ added.toList, e.2.parent ≠ some handle := by
  intro e he hparent
  rw [(hr.wellFormed.of_insert hi).2] at he
  rcases List.mem_append.mp he with he | he
  · obtain ⟨found, hget⟩ := Store.contains_iff.mp (hr.contains_parent he hparent)
    exact hr.wellFormed.fresh_of_insert hi _ (hr.wellFormed.get?_eq_some.mp hget) rfl
  · rw [List.mem_singleton.mp he, hp] at hparent
    cases hparent

end Registered

namespace Tracer

open Tracing

variable {config : Config} {s : Tracing} {pid : UInt32} {bits : UInt64} {pin : Pin} {m : Machine}
  {handle : Handle} {store : Store}

/-- What is done under the pin for a process that is not traced yet. -/
theorem enable_pinned (hc : config.capacity * Context.branchBytes ≤ Context.maxAllocation)
    (h : Pin.current s.machine = (.ok pin, m)) (ht : isTraced s.store pid = false) :
    enable config pid bits s =
      let ran := (do
        let handle ← insert (config.contextFor pid bits)
        try
          io (restore s.machine.cur (config.contextFor pid bits))
        catch e =>
          let _ ← remove handle
          throw e
        return handle : Action Tracing TraceError Handle) { s with machine := m }
      (ran.1, { ran.2 with machine := (pin.release ran.2.machine).2 }) := by
  obtain ⟨hcpu, -⟩ := Pin.bound_of_current h
  have htraced : ¬isTraced s.store pid = true := by
    rw [ht]
    exact Bool.false_ne_true
  rw [enable, Action.bind_apply, Action.liftM_apply, config.new_contextFor hc]
  dsimp only
  rw [pinnedHere, pinned_apply]
  simp only [MachineState.machine, h, hcpu, MachineState.setMachine]
  rw [Action.bind_apply, contexts_apply]
  simp only [if_neg htraced]
  rfl

/-- A context is added before it is loaded, and stays if that succeeds. -/
theorem enable_loaded (hc : config.capacity * Context.branchBytes ≤ Context.maxAllocation)
    (h : Pin.current s.machine = (.ok pin, m)) (ht : isTraced s.store pid = false)
    (hi : s.store.insert (config.contextFor pid bits) = .ok (handle, store)) {n : Machine}
    (hload : Lbr.restore s.machine.cur (config.contextFor pid bits)
      (report (.inserted pid handle.index) m).2 = (.ok (), n)) :
    enable config pid bits s = (.ok handle, { store, machine := (pin.release n).2 }) := by
  have hload' : Lbr.restore s.machine.cur (config.contextFor pid bits) (report (.inserted
      (config.contextFor pid bits).pid handle.index) ({ store, machine := m } : Tracing)).2.machine =
      (.ok (), n) := hload
  rw [enable_pinned hc h ht]
  simp only [Action.bind_apply, insert_apply, hi, Action.tryCatch_apply, io_apply, restore_apply,
    hload']
  rfl

/-- If the context cannot be loaded it is removed. -/
theorem enable_undone (hc : config.capacity * Context.branchBytes ≤ Context.maxAllocation)
    (h : Pin.current s.machine = (.ok pin, m)) (ht : isTraced s.store pid = false)
    (hi : s.store.insert (config.contextFor pid bits) = .ok (handle, store)) {n : Machine}
    {e : SystemError}
    (hload : Lbr.restore s.machine.cur (config.contextFor pid bits)
      (report (.inserted pid handle.index) m).2 = (.error e, n))
    {removed : List Context} {store' : Store} (hr : store.remove? handle = some (removed, store')) :
    (enable config pid bits s).1 = .error (.io e) ∧ (enable config pid bits s).2.store = store' := by
  have hload' : Lbr.restore s.machine.cur (config.contextFor pid bits) (report (.inserted
      (config.contextFor pid bits).pid handle.index) ({ store, machine := m } : Tracing)).2.machine =
      (.error e, n) := hload
  obtain ⟨n', hremove⟩ := remove_apply handle { store, machine := n }
  simp only [hr] at hremove
  rw [enable_pinned hc h ht]
  simp only [Action.bind_apply, insert_apply, hi, Action.tryCatch_apply, io_apply, restore_apply,
    hload', Except.mapError]
  have hstore : (report (.inserted (config.contextFor pid bits).pid handle.index)
      ({ store, machine := m } : Tracing)).2.store = store := rfl
  simp only [hstore, hremove, Action.throw_apply]
  exact ⟨trivial, trivial⟩

/-- A request to trace a process gets as far as to load the registers, and the write at a place is
the first to fail. -/
structure LoadFails (config : Config) (pid : UInt32) (bits : UInt64) (s : Tracing) (place : Nat)
    (e : SystemError) : Prop where
  size : config.capacity * Context.branchBytes ≤ Context.maxAllocation
  untraced : isTraced s.store pid = false
  room : s.store.len ≠ Store.maxSlots
  fails : ∃ pin m, Pin.current s.machine = (.ok pin, m) ∧
    m.FailsAt s.machine.cur (config.contextFor pid bits).writes place e

/-- The start of a trace was undone. -/
structure RolledBack (config : Config) (pid : UInt32) (s s' : Tracing) : Prop where
  stored : s.store.Alike s'.store
  untraced : isTraced s'.store pid = false
  /-- Where the registers can be loaded, the process can be traced afterwards. -/
  again : ∀ bits machine pin m, Pin.current machine = (.ok pin, m) →
    (∀ place e, ¬m.FailsAt machine.cur (config.contextFor pid bits).writes place e) →
    let retried := enable config pid bits { s' with machine }
    ∃ handle, retried.1 = .ok handle ∧
      retried.2.store.toList = s.store.toList ++ [(handle, config.contextFor pid bits)]

/-- A process that is not traced can be traced wherever the registers can be loaded. -/
theorem enable_of_loads (hw : s.store.WellFormed)
    (hc : config.capacity * Context.branchBytes ≤ Context.maxAllocation)
    (ht : isTraced s.store pid = false) (hroom : s.store.len ≠ Store.maxSlots)
    (h : Pin.current s.machine = (.ok pin, m))
    (hloads : ∀ place e, ¬m.FailsAt s.machine.cur (config.contextFor pid bits).writes place e) :
    ∃ handle, (enable config pid bits s).1 = .ok handle ∧
      (enable config pid bits s).2.store.toList =
        s.store.toList ++ [(handle, config.contextFor pid bits)] := by
  rcases hw.insert_spec (config.contextFor pid bits) with
    ⟨-, hfull, -⟩ | ⟨handle, store, hi, -, -, hlist⟩
  · exact absurd hfull hroom
  rcases hload : Lbr.restore s.machine.cur (config.contextFor pid bits)
      (report (.inserted pid handle.index) m).2 with ⟨e | _, n⟩
  · obtain ⟨place, hfails⟩ := Machine.wrmsrAll_eq_error.mp (congrArg Prod.fst hload)
    exact absurd ((Machine.failsAt_events _).mp hfails) (hloads place e)
  · rw [enable_loaded hc h ht hi hload]
    exact ⟨handle, rfl, hlist⟩

theorem LoadFails.rolledBack {place : Nat} {e : SystemError} (hr : Registered config s.store)
    (hf : LoadFails config pid bits s place e) :
    (enable config pid bits s).1 = .error (.io e) ∧
      RolledBack config pid s (enable config pid bits s).2 := by
  obtain ⟨hc, ht, hroom, pin, m, h, hfails⟩ := hf
  rcases hr.wellFormed.insert_spec (config.contextFor pid bits) with
    ⟨-, hfull, -⟩ | ⟨handle, added, hi, -, hwa, hlist⟩
  · exact absurd hfull hroom
  have hcontains : added.contains handle = true := by
    refine hwa.contains_of_mem (e := (handle, config.contextFor pid bits)) ?_
    rw [hlist]
    exact List.mem_append_right _ (List.mem_singleton_self _)
  obtain ⟨store', hremoved, -⟩ := hwa.remove?_spec hcontains
  obtain ⟨hw', hlist'⟩ :=
    hr.wellFormed.toList_undone hi (hr.childless_of_insert hi rfl) hremoved
  have hload : (Lbr.restore s.machine.cur (config.contextFor pid bits)
      (report (.inserted pid handle.index) m).2).1 = .error e :=
    Machine.wrmsrAll_eq_error.mpr ⟨place, (Machine.failsAt_events _).mpr hfails⟩
  obtain ⟨herror, hstore⟩ := enable_undone hc h ht hi (Prod.ext hload rfl) hremoved
  have halike : s.store.Alike store' := hr.wellFormed.alike hw' hlist'
  have huntraced : isTraced store' pid = false := by
    rw [isTraced, halike.find?]
    exact ht
  rw [← hstore] at halike huntraced hw'
  refine ⟨herror, halike, huntraced, fun bits' machine pin' m' hpin hloads => ?_⟩
  rw [← halike.toList]
  exact enable_of_loads hw' hc huntraced (halike.len ▸ hroom) hpin hloads

/-- After any operations on any machines: if a register cannot be written when a process starts to
be traced, whichever it is, its failure is the answer, what is stored is as it was, and the process
can be traced later. -/
theorem enable_rolls_back (config : Config) (machine : Machine) (history : List Operation)
    {pid : UInt32} {bits : UInt64} {place : Nat} {e : SystemError}
    (hf : LoadFails config pid bits (runOperations config machine history) place e) :
    let s := runOperations config machine history
    (enable config pid bits s).1 = .error (.io e) ∧
      RolledBack config pid s (enable config pid bits s).2 :=
  hf.rolledBack (registered_runOperations config machine history)

/-- A process and its child are traced, one slot is free, and the third write is to fail. -/
def unloadableHistory : List Operation :=
  [ .enable 7 1, .fork 7 8, .fork 7 9, .drain, .enable 1 5, .fork 1 2,
    .outside { Machine.new 1 with faults := [{ call := .wrmsr, skip := 2 }] } ]

/-- The source of the first branch cannot be written; on a machine without failures the process can
be traced then. -/
theorem enable_rolls_back_family :
    let config : Config := ⟨1, .userOnly⟩
    let s := runOperations config (.new 1) unloadableHistory
    LoadFails config 3 9 s 2 (.os 5) ∧
      s.store.toList.map (·.2.pid) = [1, 2] ∧
      (enable config 3 9 s).1 = .error (.io (.os 5)) ∧
      RolledBack config 3 s (enable config 3 9 s).2 ∧
      ∃ handle, (enable config 3 9 ⟨(enable config 3 9 s).2.store, .new 1⟩).1 =
        .ok handle := by
  intro config s
  have hpin : Pin.current s.machine = (.ok ⟨0, [0]⟩, { s.machine with allowed := [0] }) := rfl
  have hfails : ({ s.machine with allowed := [0] } : Machine).FailsAt 0
      (config.contextFor 3 9).writes 2 (.os 5) :=
    Machine.failsAt_of_plan rfl [] 5 (by decide) rfl
  have hf : LoadFails config 3 9 s 2 (.os 5) :=
    ⟨by decide, by decide +kernel, by decide +kernel, _, _, hpin, hfails⟩
  obtain ⟨herror, hback⟩ : (enable config 3 9 s).1 = .error (.io (.os 5)) ∧
      RolledBack config 3 s (enable config 3 9 s).2 :=
    enable_rolls_back config (.new 1) unloadableHistory hf
  have hworks : Pin.current (.new 1) = (.ok ⟨0, [0]⟩, { Machine.new 1 with allowed := [0] }) := rfl
  have hreliable : ({ Machine.new 1 with allowed := [0] } : Machine).Reliable (SoftBank.new 1) :=
    ⟨rfl, nofun⟩
  obtain ⟨handle, hok, -⟩ := hback.again 9 (.new 1) _ _ hworks fun _ _ => hreliable.not_failsAt
  have hpids : s.store.toList.map (·.2.pid) = [1, 2] := by decide +kernel
  exact ⟨hf, hpids, herror, hback, handle, hok⟩

end Tracer

end BranchTrace
