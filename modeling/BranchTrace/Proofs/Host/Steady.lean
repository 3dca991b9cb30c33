import BranchTrace.Proofs.Host.Interludes
import BranchTrace.Proofs.Host.Ledger
import BranchTrace.Proofs.Tracer.Steady

/-!
# Platforms on steady machines

Where tracing is up and the machine is steady, every traced process has one stack, wherever that is
kept at the moment: on the cpu while the process runs there, and in its context else
(`Tracing.stackOf?`). A platform stands with a roster and with the stacks of the processes on it
(`Platform.Stands`), and what is done to it changes these in the way that was asked for.

Main statements: `load_calm`, tracing can be loaded onto a calm machine; `Stands.switch`, a context
switch changes neither roster nor stacks; `Stands.dump`, a dump of the process that runs shows its
stack; `Stands.fork`, a child gets a stack of its own.
-/

namespace BranchTrace

theorem Machine.Steady.stack? {m : Machine} {cpu : Nat} {bank : SoftBank} (h : m.Steady cpu bank)
    (capacity : Nat) : m.stack? cpu capacity = some (bank.stack cpu capacity) := by
  rw [Machine.stack?, h.bank]

namespace Tracing

/-- The stack of a traced process: on the cpu if the process runs there, and else in its context. -/
def stackOf? (t : Tracing) (cpu : Nat) (running? : Option UInt32) (pid : UInt32) : Option Stack :=
  (t.store.contextOf? pid).bind fun context =>
    if running? = some pid then t.machine.stack? cpu context.capacity else some context.stack

variable {t : Tracing} {cpu : Nat} {running? : Option UInt32} {pid : UInt32}

theorem stackOf?_of_running {bank : SoftBank} (h : t.machine.Steady cpu bank) :
    t.stackOf? cpu (some pid) pid =
      (t.store.contextOf? pid).map fun context => bank.stack cpu context.capacity := by
  rw [stackOf?]
  simp only [if_pos, h.stack?]
  cases t.store.contextOf? pid <;> rfl

theorem stackOf?_of_ne (h : running? ≠ some pid) :
    t.stackOf? cpu running? pid = (t.store.contextOf? pid).map Context.stack := by
  rw [stackOf?]
  simp only [if_neg h]
  cases t.store.contextOf? pid <;> rfl

end Tracing

/-- A stack with a mask and without branches. -/
def Config.cleared (config : Config) (select : UInt64) : Stack :=
  { select, tos := 0, branches := List.replicate config.capacity ⟨0, 0⟩ }

/-- What a dump shows of a process with this stack. -/
def Stack.snapshot (stack : Stack) (pid : UInt32) (cpu : Nat) : Snapshot :=
  { pid, cpu, select := ⟨stack.select⟩, tos := stack.tos, entries := stack.branches }

theorem fits_of_le {capacity : Nat} (h : capacity ≤ 64) :
    capacity * Context.branchBytes ≤ Context.maxAllocation := by
  have hbytes : 64 * Context.branchBytes ≤ Context.maxAllocation := by decide
  exact (Nat.mul_le_mul_right _ h).trans hbytes

namespace Platform

/-- The process that runs on a cpu. -/
def runningOn (s : Platform) (cpu : Nat) : Option UInt32 :=
  s.host.running.lookup cpu

/-- Tracing is up on a platform whose thread is steady on a cpu, with these processes on the roster
and these stacks of theirs. -/
structure Stands (id : Nat) (config : Config) (cpu : Nat) (roster : Roster)
    (owned : UInt32 → Option Stack) (s : Platform) : Prop where
  serving : Serving id config s
  steady : ∃ bank, s.machine.Steady cpu bank
  roster : (s.tracing id).store.roster = roster
  owned : ∀ pid, (s.tracing id).stackOf? cpu (s.runningOn cpu) pid = owned pid

namespace Stands

variable {id : Nat} {config : Config} {cpu : Nat} {roster : Roster}
  {owned : UInt32 → Option Stack} {s : Platform} (h : Stands id config cpu roster owned s)
include h

/-! ## Context switches -/

/-- Once the process before has left the cpu, all stacks are in the contexts. -/
theorem leave :
    (∃ bank, (s.leave id cpu).machine.Steady cpu bank) ∧
      Registered config (s.leave id cpu).store ∧ (s.leave id cpu).store.roster = roster ∧
      ∀ pid, ((s.leave id cpu).store.contextOf? pid).map Context.stack = owned pid := by
  obtain ⟨bank, hsteady⟩ := h.steady
  have howned := h.owned
  rw [runningOn] at howned
  rw [Platform.leave]
  cases hl : s.host.running.lookup cpu with
  | none =>
    refine ⟨⟨bank, hsteady⟩, h.serving.registered, h.roster, fun pid => ?_⟩
    rw [← howned pid, hl]
    exact (Tracing.stackOf?_of_ne (Option.some_ne_none pid).symm).symm
  | some prev =>
    obtain ⟨m, hout, hm⟩ := Tracer.schedOut_steady (s := s.tracing id) hsteady prev
    have halike := Context.alike_refreshed (bank.cells (bank.file cpu))
    have hpid := fun context => (halike context).pid
    obtain ⟨hr, hroster⟩ := h.serving.registered.amend halike prev
    dsimp only
    rw [hout]
    refine ⟨⟨bank, hm⟩, hr, hroster.trans h.roster, fun pid => ?_⟩
    rw [← howned pid, hl]
    by_cases hp : prev = pid
    · subst hp
      rw [Store.contextOf?_amend_self hpid, Tracing.stackOf?_of_running hsteady, Option.map_map]
      rfl
    · rw [Store.contextOf?_amend_of_ne hpid hp, Tracing.stackOf?_of_ne fun he => hp (Option.some.inj he)]

/-- A context switch changes no stack. -/
theorem switch (h64 : config.capacity ≤ 64) (next : UInt32) :
    Stands id config cpu roster owned (contextSwitch cpu next s).2 ∧
      (contextSwitch cpu next s).2.runningOn cpu = some next := by
  obtain ⟨⟨bank, hsteady⟩, hr, hroster, howned⟩ := h.leave
  obtain ⟨htracing, -, hhost⟩ := contextSwitch_spec h.serving.has h.serving.notifies cpu next
  obtain ⟨m, hin, hm⟩ := Tracer.schedIn_steady hsteady next
  rw [arrive, hin] at htracing
  have hmachine : (contextSwitch cpu next s).2.machine = m := congrArg (·.machine) htracing
  have hrunning : (contextSwitch cpu next s).2.runningOn cpu = some next := by
    rw [runningOn, hhost]
    exact (lookup_insertKey ..).trans (if_pos rfl)
  refine ⟨⟨(h.serving.switch cpu next).1, ⟨_, hmachine ▸ hm⟩, ?_, fun pid => ?_⟩, hrunning⟩
  · rw [htracing]
    exact hroster
  · rw [htracing, hrunning, ← howned pid]
    by_cases hp : next = pid
    · subst hp
      rw [Tracing.stackOf?_of_running hm]
      cases hc : (s.leave id cpu).store.contextOf? next with
      | none => rfl
      | some context =>
        -- the cpu holds what was just written from the context
        have hcapacity := (hr.capacity_of_contextOf? hc).trans_le h64
        have hwrites : (s.leave id cpu).store.writesOf next = context.writes := by
          rw [Store.writesOf, hc]
          rfl
        simp only [Option.map_some, hwrites, Context.stack_writeAll hcapacity]
    · exact Tracing.stackOf?_of_ne fun he => hp (Option.some.inj he)

/-! ## Steps of the tracer -/

/-- A step of the tracer that keeps the registry and the machine steady. -/
theorem onTracer {α : Type} (absent : α) (step : Config → StateM Tracing α) {a : α} {t : Tracing}
    (hstep : step config (s.tracing id) = (a, t)) (hr : Registered config t.store)
    (hm : ∃ bank, t.machine.Steady cpu bank) :
    ∃ s', Platform.onTracer id absent step s = (a, s') ∧ s'.runningOn cpu = s.runningOn cpu ∧
      Stands id config cpu t.store.roster (t.stackOf? cpu (s.runningOn cpu)) s' := by
  obtain ⟨hresult, -, -, hhost⟩ := onTracer_spec h.serving.has absent step
  obtain ⟨ht, hserving⟩ := h.serving.onTracer absent step (hstep ▸ hr)
  rw [hstep] at hresult ht
  have hrunning : (Platform.onTracer id absent step s).2.runningOn cpu = s.runningOn cpu := by
    rw [runningOn, hhost, runningOn]
  have hmachine : (Platform.onTracer id absent step s).2.machine = t.machine :=
    congrArg (·.machine) ht
  exact ⟨_, Prod.ext hresult rfl, hrunning, hserving, hmachine ▸ hm, congrArg (·.store.roster) ht,
    fun pid => by rw [ht, hrunning]⟩

/-- A dump of the process that runs shows its stack. -/
theorem dump (absent : Except TraceError Snapshot) {pid : UInt32}
    (hrun : s.runningOn cpu = some pid) {stack : Stack} (hstack : owned pid = some stack) :
    ∃ s', Platform.onTracer id absent (fun _ => (Tracer.dump (some pid)).run) s =
        (.ok (stack.snapshot pid cpu), s') ∧
      Stands id config cpu roster owned s' ∧ s'.runningOn cpu = s.runningOn cpu := by
  obtain ⟨bank, hsteady⟩ := h.steady
  have howned := h.owned
  rw [hrun] at howned
  have hpid := howned pid
  rw [Tracing.stackOf?_of_running hsteady, hstack] at hpid
  obtain ⟨context, hc, rfl⟩ := Option.map_eq_some_iff.mp hpid
  obtain ⟨m, hdump, hm⟩ := Tracer.dump_steady hsteady hc
  have halike := Context.alike_refreshed (bank.cells (bank.file cpu))
  obtain ⟨hr, hroster⟩ := h.serving.registered.amend halike pid
  obtain ⟨s', hs', hrunning, hstands⟩ :=
    h.onTracer absent (fun _ => (Tracer.dump (some pid)).run) hdump hr ⟨bank, hm⟩
  have hcontext : context.pid = pid := (h.serving.registered.contextOf?_eq_some.mp hc).2
  refine ⟨s', ?_, ⟨hstands.serving, hstands.steady, ?_, fun other => ?_⟩, hrunning⟩
  · rw [hs', Context.snapshot, Context.pid_refreshed, hcontext]
    rfl
  · rw [hstands.roster]
    exact hroster.trans h.roster
  · rw [hstands.owned, hrun, ← howned other]
    by_cases hp : pid = other
    · subst hp
      rw [Tracing.stackOf?_of_running hm, Tracing.stackOf?_of_running hsteady,
        Store.contextOf?_amend_self fun c => (halike c).pid, hc]
      simp only [Option.map_some, (halike context).capacity]
    · have hne : some pid ≠ some other := fun he => hp (Option.some.inj he)
      rw [Tracing.stackOf?_of_ne hne, Tracing.stackOf?_of_ne hne,
        Store.contextOf?_amend_of_ne (fun c => (halike c).pid) hp]

/-- A question to the tracer changes nothing. -/
theorem ask {α : Type} (absent : α) (answer : Tracing → α) :
    ∃ s', Platform.onTracer id absent (fun _ t => (answer t, t)) s = (answer (s.tracing id), s') ∧
      Stands id config cpu roster owned s' := by
  obtain ⟨s', hs', -, hstands⟩ := h.onTracer absent (fun _ t => (answer t, t)) rfl
    h.serving.registered h.steady
  exact ⟨s', hs', hstands.serving, hstands.steady, hstands.roster.trans h.roster,
    fun pid => (hstands.owned pid).trans (h.owned pid)⟩

theorem find?_eq_none {pid : UInt32} (hnew : roster.has pid = false) :
    (s.tracing id).store.find? pid = none := by
  rw [← h.roster, h.serving.registered.wellFormed.has_roster] at hnew
  exact Registered.find?_eq_none_of_not_isTraced hnew

theorem len_eq : (s.tracing id).store.len = roster.length := by
  rw [← h.roster, h.serving.registered.wellFormed.length_roster]

/-! ## While no process runs -/

section Idle

variable (hidle : s.runningOn cpu = none)
include hidle

/-- While no process runs, all stacks are in the contexts. -/
theorem owned_of_idle (pid : UInt32) :
    ((s.tracing id).store.contextOf? pid).map Context.stack = owned pid := by
  rw [← h.owned pid, hidle]
  exact (Tracing.stackOf?_of_ne (Option.some_ne_none pid).symm).symm

/-- A step of the tracer shows in the contexts. -/
theorem onTracer_idle {α : Type} (absent : α) (step : Config → StateM Tracing α) {a : α}
    {t : Tracing} (hstep : step config (s.tracing id) = (a, t)) (hr : Registered config t.store)
    (hm : ∃ bank, t.machine.Steady cpu bank) :
    ∃ s', Platform.onTracer id absent step s = (a, s') ∧ s'.runningOn cpu = none ∧
      Stands id config cpu t.store.roster
        (fun pid => (t.store.contextOf? pid).map Context.stack) s' := by
  obtain ⟨s', hs', hrunning, hstands⟩ := h.onTracer absent step hstep hr hm
  refine ⟨s', hs', hrunning.trans hidle, hstands.serving, hstands.steady, hstands.roster,
    fun pid => ?_⟩
  rw [hstands.owned, hidle]
  exact Tracing.stackOf?_of_ne (Option.some_ne_none pid).symm

/-- A request that is carried out shows in the contexts. -/
theorem ioctl_idle {caller number : UInt32} {block : List UInt8} {param : UInt64} {reply : Reply}
    {t : Tracing}
    (hd : Tracer.dispatch config caller number block param (s.tracing id) = (.ok reply, t))
    (hm : ∃ bank, t.machine.Steady cpu bank) :
    ∃ s', Platform.ioctl deviceName caller number block param s = (0, s') ∧
      s'.runningOn cpu = none ∧
      Stands id config cpu t.store.roster
        (fun pid => (t.store.contextOf? pid).map Context.stack) s' := by
  have hr := h.serving.registered.dispatch caller number block param
  rw [hd] at hr
  rw [h.serving.ioctl_eq]
  exact h.onTracer_idle hidle noDevice
    (fun config => Tracer.ioctl config caller number block param) (Tracer.ioctl_ok hd) hr hm

/-- A context that is added is one more on the roster, with a stack of its own. -/
theorem inserted {context : Context} {handle : Handle} {store : Store}
    (hi : (s.tracing id).store.insert context = .ok (handle, store))
    (hnew : roster.has context.pid = false) (hc : context.capacity = config.capacity)
    (hparent : ∀ parent ∈ context.parent, (s.tracing id).store.contains parent = true) :
    Registered config store ∧
      store.roster =
        roster ++ [⟨context.pid, context.parent.bind (s.tracing id).store.pidOf⟩] ∧
      (fun pid => (store.contextOf? pid).map Context.stack) =
        Function.update owned context.pid (some context.stack) := by
  have hr := h.serving.registered.insert hi (h.find?_eq_none hnew) hc hparent
  refine ⟨hr, ?_, funext fun pid => ?_⟩
  · rw [h.serving.registered.roster_insert hi hparent, h.roster]
  · rw [h.serving.registered.contextOf?_insert hi hr, Function.update_apply,
      ← h.owned_of_idle hidle pid]
    split <;> rfl

/-- A process asks to be traced. -/
theorem enable (h64 : config.capacity ≤ 64) {caller pid : UInt32} {request : Request}
    (htarget : Tracer.target caller request = pid) (param : UInt64)
    (hnew : roster.has pid = false) (hroom : roster.length < Store.maxSlots) :
    ∃ s', Platform.ioctl deviceName caller Command.enable.number request.toBytes param s =
        (0, s') ∧
      s'.runningOn cpu = none ∧
      Stands id config cpu (roster ++ [⟨pid, none⟩])
        (Function.update owned pid (some (config.cleared (config.maskFor request.select)))) s' := by
  obtain ⟨bank, hsteady⟩ := h.steady
  let context := config.contextFor pid request.select
  have hw := h.serving.registered.wellFormed
  obtain ⟨handle, store, hi⟩ : ∃ handle store,
      (s.tracing id).store.insert context = .ok (handle, store) := by
    rcases hw.insert_spec context with ⟨-, hl, -⟩ | ⟨handle, store, hi, -⟩
    · rw [h.len_eq] at hl
      exact absurd hl hroom.ne
    · exact ⟨handle, store, hi⟩
  have hcapacity : context.capacity = config.capacity := List.length_replicate
  obtain ⟨hr, hroster, howned⟩ := h.inserted hidle hi hnew hcapacity nofun
  obtain ⟨m, bank', henable, hm⟩ := Tracer.enable_steady
    (s := (report (.requested Command.enable.number request.select request.pid) (s.tracing id)).2)
    (hsteady.report _) (fits_of_le h64) request.select (h.find?_eq_none hnew) hi
  have hd : Tracer.dispatch config caller Command.enable.number request.toBytes param
      (s.tracing id) = (.ok (.enabled pid), { store, machine := m }) := by
    have hcommand : Command.ofNumber Command.enable.number = .ok .enable := by decide
    rw [Tracer.dispatch_apply, Request.ofBytes_toBytes]
    simp only [hcommand, htarget, henable]
    rfl
  obtain ⟨s', hs', hidle', hstands⟩ := h.ioctl_idle hidle hd ⟨bank', hm⟩
  refine ⟨s', hs', hidle', ?_⟩
  rw [hroster, howned] at hstands
  exact hstands

/-- That a fork begins changes nothing. -/
theorem forkBegins (parent : UInt32) :
    ∃ s', Platform.onTracer id () (fun _ => Tracer.forkBegins parent) s = ((), s') ∧
      s'.runningOn cpu = none ∧ Stands id config cpu roster owned s' := by
  obtain ⟨bank, hsteady⟩ := h.steady
  obtain ⟨s', hs', hidle', hbegun⟩ := h.onTracer_idle hidle () (fun _ => Tracer.forkBegins parent)
    rfl h.serving.registered ⟨bank, hsteady.report _⟩
  refine ⟨s', hs', hidle', hbegun.serving, hbegun.steady, hbegun.roster.trans h.roster,
    fun pid => ?_⟩
  rw [hbegun.owned]
  exact h.owned_of_idle hidle pid

/-- When a fork ends, the child of a traced process gets a cleared stack with the mask of its parent,
if there is room for it. -/
theorem forkEnds (h64 : config.capacity ≤ 64) {parent child : UInt32} {stack : Stack}
    (hparent : owned parent = some stack) (hnew : roster.has child = false) :
    ∃ s', Platform.onTracer id () (fun config => Tracer.forkEnds config parent (some child)) s =
        ((), s') ∧
      s'.runningOn cpu = none ∧
      (roster.length < Store.maxSlots →
        Stands id config cpu (roster ++ [⟨child, some parent⟩])
          (Function.update owned child (some (config.cleared stack.select))) s') ∧
      (roster.length = Store.maxSlots → Stands id config cpu roster owned s') := by
  obtain ⟨bank, hsteady⟩ := h.steady
  have hr := h.serving.registered
  have hcontext := h.owned_of_idle hidle parent
  rw [hparent] at hcontext
  obtain ⟨forking, hforking, rfl⟩ := Option.map_eq_some_iff.mp hcontext
  obtain ⟨t, ht, hm, hstore⟩ :=
    Tracer.forkEnds_steady hsteady hr (fits_of_le h64) hforking (h.find?_eq_none hnew)
  rcases hstore with ⟨hl, hstore⟩ | ⟨handle, parentHandle, hf, hi⟩
  · obtain ⟨s', hs', hidle', hstands⟩ := h.onTracer_idle hidle ()
      (fun config => Tracer.forkEnds config parent (some child)) ht (hstore ▸ hr) ⟨bank, hm⟩
    refine ⟨s', hs', hidle', fun hroom => absurd (h.len_eq.symm.trans hl) hroom.ne, fun _ => ?_⟩
    refine ⟨hstands.serving, hstands.steady, ?_, fun pid => ?_⟩
    · rw [hstands.roster, hstore, h.roster]
    · rw [hstands.owned, hstore]
      exact h.owned_of_idle hidle pid
  · have hcapacity : (Tracer.bornContext config child parentHandle forking.select).capacity =
        config.capacity := List.length_replicate
    have hcontains : ∀ handle ∈ some parentHandle,
        (s.tracing id).store.contains handle = true := by
      rintro _ ⟨⟩
      exact hr.wellFormed.contains_of_find? hf
    have hpid : (some parentHandle).bind (s.tracing id).store.pidOf = some parent := by
      obtain ⟨context, hmem, hp⟩ := hr.wellFormed.exists_of_find? hf
      exact hr.wellFormed.pidOf_eq_some.mpr ⟨context, hmem, hp⟩
    obtain ⟨hr', hroster, howned⟩ := h.inserted hidle hi hnew hcapacity hcontains
    obtain ⟨s', hs', hidle', hstands⟩ := h.onTracer_idle hidle ()
      (fun config => Tracer.forkEnds config parent (some child)) ht hr' ⟨bank, hm⟩
    simp only [Tracer.bornContext, hpid] at hroster howned
    rw [hroster, howned] at hstands
    refine ⟨s', hs', hidle', fun _ => hstands, fun hl => ?_⟩
    cases (hr.wellFormed.insert_of_full (h.len_eq.trans hl) _).symm.trans hi

/-- A traced process forks a child. -/
theorem fork (h64 : config.capacity ≤ 64) {parent child : UInt32} {stack : Stack}
    (hparent : owned parent = some stack) (hnew : roster.has child = false) :
    ∃ s', Platform.fork forkSymbol parent child s = ((), s') ∧ s'.runningOn cpu = none ∧
      (roster.length < Store.maxSlots →
        Stands id config cpu (roster ++ [⟨child, some parent⟩])
          (Function.update owned child (some (config.cleared stack.select))) s') ∧
      (roster.length = Store.maxSlots → Stands id config cpu roster owned s') := by
  obtain ⟨begun, hbegun, hidle', hstands⟩ := h.forkBegins hidle parent
  rw [h.serving.fork_eq, hbegun]
  exact hstands.forkEnds hidle' h64 hparent hnew

/-- A process asks for another mask. -/
theorem select {caller pid : UInt32} {request : Request}
    (htarget : Tracer.target caller request = pid) (bits : UInt64) {stack : Stack}
    (hstack : owned pid = some stack) :
    ∃ s', Platform.ioctl deviceName caller Command.select.number request.toBytes bits s =
        (0, s') ∧
      s'.runningOn cpu = none ∧
      Stands id config cpu roster
        (Function.update owned pid (some { stack with select := bits })) s' := by
  obtain ⟨bank, hsteady⟩ := h.steady
  have hcontext := h.owned_of_idle hidle pid
  rw [hstack] at hcontext
  obtain ⟨context, hc, rfl⟩ := Option.map_eq_some_iff.mp hcontext
  obtain ⟨m, bank', hselect, hm⟩ := Tracer.select_steady
    (s := (report (.requested Command.select.number request.select request.pid) (s.tracing id)).2)
    (hsteady.report _) bits hc
  have hd : Tracer.dispatch config caller Command.select.number request.toBytes bits
      (s.tracing id) = (.ok (.selected pid),
        { store := (s.tracing id).store.amend pid fun c => { c with select := ⟨bits⟩ },
          machine := m }) := by
    have hcommand : Command.ofNumber Command.select.number = .ok .select := by decide
    rw [Tracer.dispatch_apply, Request.ofBytes_toBytes]
    simp only [hcommand, htarget, hselect]
    rfl
  obtain ⟨s', hs', hidle', hstands⟩ := h.ioctl_idle hidle hd ⟨bank', hm⟩
  have halike : ∀ c : Context, c.Alike { c with select := ⟨bits⟩ } := fun _ => ⟨rfl, rfl, rfl⟩
  refine ⟨s', hs', hidle', hstands.serving, hstands.steady, ?_, fun other => ?_⟩
  · rw [hstands.roster, (h.serving.registered.amend halike pid).2, h.roster]
  · rw [hstands.owned, Function.update_apply]
    split
    case isTrue hp =>
      rw [hp, Store.contextOf?_amend_self (f := fun c => { c with select := ⟨bits⟩ }) fun _ => rfl, hc]
      rfl
    case isFalse hp =>
      rw [Store.contextOf?_amend_of_ne (f := fun c => { c with select := ⟨bits⟩ }) (fun _ => rfl)
        (Ne.symm hp)]
      exact h.owned_of_idle hidle other

end Idle

/-- A process asks no longer to be traced. -/
theorem disable {caller pid : UInt32} {request : Request}
    (htarget : Tracer.target caller request = pid) (param : UInt64) (hpid : roster.has pid = true) :
    ∃ s', Platform.ioctl deviceName caller Command.disable.number request.toBytes param s =
        (0, s') ∧
      Serving id config s' ∧ (s'.tracing id).store.roster = roster.without pid := by
  have hr := h.serving.registered
  rw [← h.roster] at hpid
  obtain ⟨reply, t, hd, hroster⟩ := Tracer.dispatch_disable hr htarget param hpid
  have hkept := hr.dispatch caller Command.disable.number request.toBytes param
  rw [hd] at hkept
  rw [h.serving.ioctl_eq]
  obtain ⟨hresult, -, -⟩ := onTracer_spec h.serving.has noDevice
    fun config => Tracer.ioctl config caller Command.disable.number request.toBytes param
  obtain ⟨ht, hserving⟩ := h.serving.onTracer noDevice
    (fun config => Tracer.ioctl config caller Command.disable.number request.toBytes param)
    (Tracer.ioctl_ok hd ▸ hkept)
  rw [Tracer.ioctl_ok hd] at hresult ht
  exact ⟨_, Prod.ext hresult rfl, hserving, by rw [ht, hroster, h.roster]⟩

end Stands

/-! ## Loading -/

/-- Switching recording goes well on a steady machine. -/
theorem keeps_attempt (capacity : Nat) (switch : Switch) :
    Machine.Keeps none (attempt switch (Lbr.switch capacity switch)) := by
  intro pin bank m hm
  have hreported := hm.report (.switchingCpu switch pin.cpu)
  obtain ⟨hok, hsteady⟩ := hreported.wrmsrAll pin.cpu (Lbr.switchWrites capacity switch)
  have hcpus := (Machine.wrmsrAll_stays pin.cpu (Lbr.switchWrites capacity switch)
    (report (.switchingCpu switch pin.cpu) m).2).cpus
  rw [attempt, Lbr.switch_apply]
  generalize Machine.wrmsrAll pin.cpu (Lbr.switchWrites capacity switch)
    (report (.switchingCpu switch pin.cpu) m).2 = written at hok hsteady hcpus ⊢
  obtain ⟨r, n⟩ := written
  cases hok
  exact ⟨rfl, hcpus, _, hsteady⟩

/-- Tracing can be loaded onto a calm machine, which leaves the thread on the last of its cpus. -/
theorem load_calm (config : Config) {m : Machine} (h : m.Calm) (hm : m.affinity ≠ []) :
    ∃ s', load config { machine := m } = (.ok 0, s') ∧ Serving 0 config s' ∧ s'.machine.Calm ∧
      s'.machine.affinity = m.affinity ∧ s'.machine.cur = m.affinity.getLast hm ∧
      s'.host.running = [] ∧ (s'.tracing 0).store = .empty := by
  let start := Platform.begun config { machine := m }
  have hstart : start.machine.Calm := ⟨h.faults, h.soft, h.configured⟩
  have hfresh : enlist 0 Host.new = (none, Host.new.enlisted 0) := enlist_eq 0 Host.new
  obtain ⟨switched, hpass, hcalm, haffinity, hcur⟩ :=
    hstart.onEachCpu (keeps_attempt config.capacity .enable)
  have hnone : (m.affinity.map fun _ => (none : Option SystemError)).findSome? id = none :=
    List.findSome?_eq_none_iff.mpr fun failure hf => (List.mem_map.mp hf).choose_spec.2.symm
  have hbroadcast : broadcast .enable (Lbr.enable config.capacity)
      { start with host := Host.new.enlisted 0 } =
      (.ok m.affinity.length, { start with host := Host.new.enlisted 0, machine := switched }) := by
    have hpass' : onEachCpu (attempt .enable (Lbr.enable config.capacity)) start.machine =
        ((.ok m.affinity.length, m.affinity.map fun _ => none), switched) := hpass
    rw [broadcast_apply]
    simp only [MachineState.machine, hpass', concluded, hnone]
    rfl
  have hload : load config { machine := m } = (.ok 0, (report (.enabledOn m.affinity.length)
      ({ start with host := Host.new.enlisted 0, machine := switched } : Platform)).2) := by
    rw [load_apply]
    simp only [Array.size_empty, hfresh]
    rw [hbroadcast]
  refine ⟨_, hload, ?_, ⟨hcalm.faults, hcalm.soft, hcalm.configured⟩, haffinity, ?_, rfl, rfl⟩
  · have hok : (load config { machine := m }).1 = .ok 0 := congrArg Prod.fst hload
    obtain ⟨hserving, -⟩ := serving_load (fun _ hc => absurd hc List.not_mem_nil) hok
    rwa [hload] at hserving
  · have hlast : m.affinity.getLastD m.cur = m.affinity.getLast hm := by
      rw [List.getLastD_eq_getLast?, List.getLast?_eq_some_getLast hm, Option.getD_some]
    exact hcur.trans hlast

end Platform

end BranchTrace
