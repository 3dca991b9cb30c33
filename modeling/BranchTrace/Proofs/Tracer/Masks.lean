import BranchTrace.Proofs.Tracer.MaskLedger
import BranchTrace.Proofs.Tracer.Roster
import BranchTrace.Proofs.Tracer.Switches

/-!
# Select masks on one cpu

What becomes of the masks of the traced processes on a cpu whose registers are kept in software
and written by the tracer alone. `Masked` says that a `MaskLedger` tells the mask in the register
and the masks of all processes. Every operation keeps it, with a mark for what it did to them:
`Masked.enable`, `Masked.select` and `Masked.fork` give a mask, `Masked.schedIn` loads one, and
`Masked.dump` and `Masked.schedOut` read the one that is in the register, whoever it was given to.
-/

namespace BranchTrace

/-! ## The select register -/

/-- The mask in the select register of a cpu, where the registers are kept in software. -/
def Machine.mask? (m : Machine) (cpu : Nat) : Option UInt64 :=
  match m.bank with
  | .soft bank => some (bank.read cpu Msr.select)
  | .nodes _ => none

theorem Machine.mask?_eq_some {m : Machine} {cpu : Nat} {mask : UInt64} :
    m.mask? cpu = some mask ↔ ∃ bank, m.bank = .soft bank ∧ bank.read cpu Msr.select = mask := by
  unfold Machine.mask?
  cases m.bank <;> simp

theorem Machine.mask?_congr {m m' : Machine} (h : m'.bank = m.bank) (cpu : Nat) :
    m'.mask? cpu = m.mask? cpu := by
  rw [Machine.mask?, h, Machine.mask?]

/-- A context that is put back leaves its mask in the select register. -/
theorem Context.Fits.select_writeAll {context : Context} (h : context.Fits) (bank : SoftBank)
    (cpu : Nat) : (bank.writeAll cpu context.writes).read cpu Msr.select = context.select.bits := by
  rw [Context.writes, SoftBank.writeAll, List.foldl_cons]
  refine (SoftBank.read_writeAll_of_not_mem h.select_not_mem).trans ?_
  rw [SoftBank.read_write, if_pos ⟨rfl, rfl⟩]

theorem Lbr.restore_mask {m : Machine} {cpu : Nat} {context : Context} (hc : context.Fits)
    (hm : (m.mask? cpu).isSome) (hok : (restore cpu context m).1 = .ok ()) :
    (restore cpu context m).2.mask? cpu = some context.select.bits := by
  obtain ⟨mask, hm⟩ := Option.isSome_iff_exists.mp hm
  obtain ⟨bank, hb, -⟩ := Machine.mask?_eq_some.mp hm
  exact Machine.mask?_eq_some.mpr ⟨_, Machine.wrmsrAll_soft hb cpu hok, hc.select_writeAll bank cpu⟩

/-- A save that succeeds leaves in the context the mask in the select register. -/
theorem Lbr.save_mask {m : Machine} {cpu : Nat} {mask : UInt64} (hm : m.mask? cpu = some mask)
    (context : Context) :
    (save cpu context m).2.mask? cpu = some mask ∧ m.Stays (save cpu context m).2 ∧
      ((save cpu context m).1.1 = .ok () → (save cpu context m).1.2.select.bits = mask) := by
  obtain ⟨bank, hb, rfl⟩ := Machine.mask?_eq_some.mp hm
  obtain ⟨hbank, hstays, hstack⟩ := save_soft hb cpu context
  refine ⟨(Machine.mask?_congr hbank cpu).trans hm, hstays, fun hok => ?_⟩
  exact congrArg Stack.select (hstack hok)

namespace Tracing

/-- What comes of a step under a pin that is not refused: it runs where the thread is, and the
thread is there afterwards. -/
theorem pinnedHere_on {α : Type} {P : Except TraceError α → Tracing → Prop}
    (step : Nat → Action Tracing TraceError α) {s : Tracing} {cpu : Nat} (hcpu : s.machine.On cpu)
    (hp : s.machine.Pinnable)
    (hstep : ∀ m m', s.machine.Untouched m →
      let outcome := step cpu { s with machine := m }
      outcome.2.machine.Untouched m' → (m.Stays outcome.2.machine → m'.On cpu) →
      P outcome.1 { outcome.2 with machine := m' }) :
    P (pinnedHere step s).1 (pinnedHere step s).2 := by
  obtain ⟨rfl, hallowed⟩ := hcpu
  rw [pinnedHere, pinned_apply]
  rcases Pin.current_spec s.machine with ⟨hn, -⟩ | ⟨pin, m, h, hcpu, -, hm, hrel⟩
  · exact absurd hp hn
  · simp only [MachineState.machine, h, hcpu]
    obtain ⟨hu, hon⟩ := hrel (step s.machine.cur { s with machine := m }).2.machine
    exact hstep m _ hm hu fun hs => hon hs hallowed

end Tracing

/-! ## Masks in a store -/

namespace Store

/-- Every context has the mask of its process. -/
def Holds (store : Store) (held : UInt32 → UInt64) : Prop :=
  ∀ handle context, store.get? handle = some context → context.select.bits = held context.pid

end Store

namespace Registered

variable {config : Config} {store store' : Store} {held : UInt32 → UInt64}
  (hr : Registered config store) (hh : store.Holds held)
include hr hh

theorem holds_update {handle : Handle} {context : Context}
    (hget : store.get? handle = some context) (context' : Context)
    (hpid : context'.pid = context.pid) :
    (store.update handle fun _ => context').Holds
      (Function.update held context.pid context'.select.bits) := by
  intro k c hc
  rw [Store.get?_update] at hc
  split at hc
  case isTrue hk =>
    rw [hk, hget] at hc
    cases hc
    rw [hpid, Function.update_self]
  case isFalse hk =>
    have hne : c.pid ≠ context.pid := fun he => hk (hr.pidOf_inj
      (by rw [Store.pidOf, hc, Option.map_some, he]) (by rw [Store.pidOf, hget, Option.map_some]))
    rw [Function.update_of_ne hne]
    exact hh k c hc

theorem holds_insert {handle : Handle} {context : Context}
    (hi : store.insert context = .ok (handle, store')) (hnew : store.find? context.pid = none) :
    store'.Holds (Function.update held context.pid context.select.bits) := by
  obtain ⟨hw', hlist⟩ := hr.wellFormed.of_insert hi
  intro k c hc
  rw [hw'.get?_eq_some, hlist, List.mem_append, List.mem_singleton] at hc
  rcases hc with hc | hc
  · have hne : c.pid ≠ context.pid := hr.wellFormed.find?_eq_none.mp hnew _ hc
    rw [Function.update_of_ne hne]
    exact hh k c (hr.wellFormed.get?_eq_some.mpr hc)
  · cases hc
    rw [Function.update_self]

theorem holds_remove {handle : Handle} {removed : List Context}
    (hrem : store.remove? handle = some (removed, store')) : store'.Holds held := by
  obtain ⟨-, hw', hlist⟩ := hr.wellFormed.of_remove? hrem
  intro k c hc
  rw [hw'.get?_eq_some, hlist] at hc
  exact hh k c (hr.wellFormed.get?_eq_some.mpr (List.mem_of_mem_filter hc))

end Registered

/-- The mask that a request to trace a process gives it. -/
def Config.maskFor (config : Config) (bits : UInt64) : UInt64 :=
  if bits = 0 then config.defaultSelect.bits else bits

namespace Tracer

/-- To end tracing a process changes nothing of the machine but its events. -/
theorem disable_machine (pid : UInt32) (s : Tracing) :
    ∃ events, (disable pid s).2.machine = { s.machine with events } := by
  rw [disable, Action.bind_apply, Tracing.contexts_apply]
  dsimp only
  cases s.store.find? pid with
  | none => exact ⟨_, rfl⟩
  | some handle =>
    dsimp only
    rw [Tracing.remove]
    cases s.store.remove? handle <;> exact ⟨_, rfl⟩

/-- A fork changes nothing of the machine but its events. -/
theorem fork_machine (config : Config) (parent child : UInt32) (s : Tracing) :
    ∃ events, (fork config parent child s).2.machine = { s.machine with events } := by
  rw [fork, Action.bind_apply, Tracing.contexts_apply]
  dsimp only
  cases s.store.find? parent with
  | none => exact ⟨_, rfl⟩
  | some parentHandle =>
    simp only [Action.bind_apply, Action.liftM_apply]
    cases Context.new child config.defaultSelect config.capacity with
    | error e => exact ⟨_, rfl⟩
    | ok context =>
      simp only [Tracing.contexts_apply]
      by_cases ht : isTraced s.store child = true
      · simp only [if_pos ht]
        exact ⟨_, rfl⟩
      simp only [if_neg ht, Action.bind_apply, Tracing.insert_apply]
      generalize s.store.insert _ = inserted
      obtain e | ⟨handle, store⟩ := inserted <;> exact ⟨_, rfl⟩

end Tracer

/-! ## What an operation keeps -/

/-- The ledger tells the mask in the register of a cpu and the masks of all processes. -/
structure Masked (config : Config) (cpu : Nat) (s : Tracing) (ledger : MaskLedger) : Prop where
  registered : Registered config s.store
  thread : s.machine.On cpu
  register : s.machine.mask? cpu = some ledger.register
  held : s.store.Holds ledger.held
  sound : ledger.Sound

namespace Masked

open Tracing Tracer

variable {config : Config} {cpu : Nat} {s s' : Tracing} {ledger : MaskLedger}

/-- Nothing that a ledger tells has changed. -/
theorem of_store_eq (hm : Masked config cpu s ledger) (hs : s'.store = s.store)
    (hon : s'.machine.On cpu) (hb : s'.machine.bank = s.machine.bank) :
    Masked config cpu s' ledger :=
  ⟨hs ▸ hm.registered, hon, (Machine.mask?_congr hb cpu).trans hm.register, hs ▸ hm.held, hm.sound⟩

theorem reported (hm : Masked config cpu s ledger) (event : Event) :
    Masked config cpu (report event s).2 ledger :=
  hm.of_store_eq rfl hm.thread rfl

/-- The contexts of a tracer whose register numbers do not overflow. -/
theorem fits (hm : Masked config cpu s ledger)
    (hc : Msr.targetBase.toNat + config.capacity ≤ UInt32.size) {handle : Handle}
    {context : Context} (hget : s.store.get? handle = some context) : context.Fits := by
  have hcapacity := hm.registered.capacity _ (hm.registered.wellFormed.get?_eq_some.mp hget)
  rwa [Context.Fits, show context.capacity = config.capacity from hcapacity]

/-- A context is put back into the registers without a failure. -/
theorem restore (hm : Masked config cpu s ledger) {m : Machine} {context : Context}
    (hu : s.machine.Untouched m) (hfits : context.Fits) (m' : Machine)
    (hu' : (Lbr.restore cpu context m).2.Untouched m') (hs : s.machine.Smooth m') :
    (Lbr.restore cpu context m).1 = .ok () ∧ m.Stays (Lbr.restore cpu context m).2 ∧
      m'.mask? cpu = some context.select.bits := by
  obtain ⟨_, hok⟩ :=
    (Lbr.restore_accounts cpu context m).exists_ok hs hu.accesses.symm hu'.accesses
  have hsome : (m.mask? cpu).isSome := by
    rw [Machine.mask?_congr hu.bank, hm.register]
    rfl
  exact ⟨hok, Machine.wrmsrAll_stays cpu context.writes m,
    (Machine.mask?_congr hu'.bank cpu).trans (Lbr.restore_mask hfits hsome hok)⟩

theorem enable (hm : Masked config cpu s ledger)
    (hc : Msr.targetBase.toNat + config.capacity ≤ UInt32.size) (hp : s.machine.Pinnable)
    (pid : UInt32) (bits : UInt64)
    (hs : s.machine.Smooth (Tracer.enable config pid bits s).2.machine) :
    Masked config cpu (Tracer.enable config pid bits s).2 (ledger.enter
      ((Tracer.enable config pid bits s).1.toOption.map fun _ =>
        .given pid (config.maskFor bits))) := by
  have hreg := hm.registered.enable pid bits
  -- both speak of the state that the pin is given back in, so they stay in the goal until then
  revert hreg hs
  rw [Tracer.enable, Action.bind_apply, Action.liftM_apply]
  cases hn : Context.new pid (if bits = 0 then config.defaultSelect else ⟨bits⟩)
      config.capacity with
  | error e => exact fun _ _ => hm
  | ok context =>
    obtain ⟨hpid, -, hselect, -⟩ := new_eq_ok hn
    have hcapacity := Context.capacity_new hn
    have hmask : context.select.bits = config.maskFor bits := by
      rw [hselect, Config.maskFor]
      split <;> rfl
    dsimp only
    refine pinnedHere_on (P := fun r t => s.machine.Smooth t.machine →
      Registered config t.store → Masked config cpu t (ledger.enter
        (r.toOption.map fun _ => .given pid (config.maskFor bits)))) _ hm.thread hp
      fun m m' hu => ?_
    simp only [Action.bind_apply, contexts_apply]
    by_cases ht : isTraced s.store pid = true
    · simp only [if_pos ht]
      exact fun hu' hon _ _ => hm.of_store_eq rfl (hon ⟨rfl, rfl, rfl⟩) (hu'.bank.trans hu.bank)
    simp only [if_neg ht, Action.bind_apply, insert_apply, Action.tryCatch_apply, io_apply,
      restore_apply]
    rcases hi : s.store.insert context with e | ⟨handle, store⟩
    · exact fun hu' hon _ _ => hm.of_store_eq rfl (hon ⟨rfl, rfl, rfl⟩) (hu'.bank.trans hu.bank)
    dsimp only
    generalize hadded : (report (.inserted context.pid handle.index)
      { store, machine := m : Tracing }).2 = added
    have hstore : added.store = store := hadded ▸ rfl
    have hm₁ : s.machine.Untouched added.machine := hadded ▸ ⟨hu.bank, hu.accesses⟩
    have hstays₁ : m.Stays added.machine := hadded ▸ ⟨rfl, rfl, rfl⟩
    have hacc := Lbr.restore_accounts cpu context added.machine
    have hloaded := hm.restore hm₁ (by rwa [Context.Fits, hcapacity]) m'
    generalize Lbr.restore cpu context added.machine = loaded at hacc hloaded ⊢
    obtain ⟨e | _, m''⟩ := loaded
    · simp only [Except.mapError]
      -- taking the context out again touches no register
      have hundone := accesses_remove handle { store := added.store, machine := m'' }
      generalize remove handle { store := added.store, machine := m'' } = undone at hundone ⊢
      rcases undone with ⟨_ | _, t⟩
      all_goals
        intro hu' _ hs
        obtain ⟨_, hok⟩ := hacc.exists_ok hs hm₁.accesses.symm (hu'.accesses.trans hundone)
        cases hok
    · simp only [Except.mapError]
      intro hu' hon hs hreg
      obtain ⟨-, hstays, hloaded⟩ := hloaded hu' hs
      have hnew := Registered.find?_eq_none_of_not_isTraced (by simpa using ht)
      have hheld := hm.registered.holds_insert hm.held hi (hpid ▸ hnew)
      rw [hpid, hmask, ← hstore] at hheld
      exact ⟨hreg, hon (hstays₁.trans hstays), hloaded.trans (congrArg some hmask), hheld,
        hm.sound.note (.given pid (config.maskFor bits))⟩

theorem disable (hm : Masked config cpu s ledger) (pid : UInt32) :
    Masked config cpu (Tracer.disable pid s).2 ledger := by
  obtain ⟨events, hmachine⟩ := disable_machine pid s
  have hreg := hm.registered.disable pid
  have ho := disable_outcome hm.registered.wellFormed pid
  refine ⟨hreg, hmachine ▸ hm.thread, hmachine ▸ hm.register, ?_, hm.sound⟩
  generalize Tracer.disable pid s = o at ho ⊢
  obtain ⟨r, s'⟩ := o
  cases ho with
  | untraced => exact hm.held
  | removed _ hrem => exact hm.registered.holds_remove hm.held hrem

theorem fork (hm : Masked config cpu s ledger) (parent child : UInt32) :
    Masked config cpu (Tracer.fork config parent child s).2 (ledger.enter
      ((Tracer.fork config parent child s).1.toOption.join.map fun _ => .forked child parent)) := by
  obtain ⟨events, hmachine⟩ := fork_machine config parent child s
  have hreg := hm.registered.fork parent child
  have ho := fork_outcome hm.registered.wellFormed config parent child
  generalize Tracer.fork config parent child s = o at hmachine hreg ho ⊢
  obtain ⟨r, s'⟩ := o
  dsimp only at hmachine hreg ⊢
  have hon : s'.machine.On cpu := hmachine ▸ hm.thread
  have hbank : s'.machine.bank = s.machine.bank := hmachine ▸ rfl
  cases ho with
  | untraced | tooLarge | full => exact hm
  | known _ hs => exact hm.of_store_eq hs hon hbank
  | @added _ handle parentHandle forking hf hget ht hi =>
    have hpid : forking.pid = parent := hm.registered.wellFormed.pid_of_find? hf hget
    have hmask : forking.select.bits = ledger.held parent := hpid ▸ hm.held _ _ hget
    have hheld := hm.registered.holds_insert hm.held hi
      (Registered.find?_eq_none_of_not_isTraced ht)
    rw [bornContext, hmask] at hheld
    exact ⟨hreg, hon, (Machine.mask?_congr hbank cpu).trans hm.register, hheld,
      hm.sound.note (.forked child parent)⟩

/-- A dump shows the mask in the register. -/
theorem dump (hm : Masked config cpu s ledger) (hp : s.machine.Pinnable) (pid? : Option UInt32)
    (hs : s.machine.Smooth (Tracer.dump pid? s).2.machine) :
    Masked config cpu (Tracer.dump pid? s).2 (ledger.enter
        ((Tracer.dump pid? s).1.toOption.map fun snapshot => .read snapshot.pid)) ∧
      ∀ snapshot, (Tracer.dump pid? s).1 = .ok snapshot →
        snapshot.select.bits = ledger.register := by
  have hreg := hm.registered.dump pid?
  revert hreg hs
  rw [dump_eq]
  refine pinnedHere_on (P := fun (r : Except TraceError Snapshot) t =>
    s.machine.Smooth t.machine → Registered config t.store →
      Masked config cpu t (ledger.enter (r.toOption.map fun snapshot => .read snapshot.pid)) ∧
        ∀ snapshot, r = .ok snapshot → snapshot.select.bits = ledger.register) _ hm.thread hp
    fun m m' hu => ?_
  simp only [Action.bind_apply, contexts_apply]
  cases hw : wanted s.store pid? with
  | none =>
    refine fun hu' hon _ _ => ⟨hm.of_store_eq rfl (hon ⟨rfl, rfl, rfl⟩) ?_, nofun⟩
    exact hu'.bank.trans hu.bank
  | some handle =>
    obtain ⟨context, hget⟩ :=
      Store.contains_iff.mp (contains_of_wanted hm.registered.wellFormed hw)
    simp only [hget, Action.bind_apply, io_apply, save_apply]
    have hacc := Lbr.save_accounts cpu context m
    have halike := Lbr.save_alike cpu context m
    have hsaved := Lbr.save_mask ((Machine.mask?_congr hu.bank cpu).trans hm.register) context
    generalize Lbr.save cpu context m = saved at hacc halike hsaved ⊢
    obtain ⟨⟨e | _, context'⟩, m''⟩ := saved
    · intro hu' _ hs
      obtain ⟨_, hok⟩ := hacc.exists_ok hs hu.accesses.symm hu'.accesses
      cases hok
    · dsimp only at halike hsaved ⊢
      simp only [Except.map, Except.mapError, Action.tell_apply, Action.pure_apply]
      intro hu' hon _ hreg
      obtain ⟨hmask, hstays, hselect⟩ := hsaved
      have hheld := hm.registered.holds_update hm.held hget context' halike.pid
      rw [hselect rfl, ← halike.pid] at hheld
      refine ⟨⟨hreg, hon ⟨hstays.cpus, hstays.allowed, hstays.cur⟩,
        (Machine.mask?_congr hu'.bank cpu).trans hmask, hheld,
        hm.sound.note (.read context'.pid)⟩, ?_⟩
      rintro snapshot ⟨⟩
      exact hselect rfl

theorem select (hm : Masked config cpu s ledger)
    (hc : Msr.targetBase.toNat + config.capacity ≤ UInt32.size) (hp : s.machine.Pinnable)
    (pid : UInt32) (bits : UInt64)
    (hs : s.machine.Smooth (Tracer.select pid bits s).2.machine) :
    Masked config cpu (Tracer.select pid bits s).2 (ledger.enter
      ((Tracer.select pid bits s).1.toOption.map fun _ => .given pid bits)) := by
  have hreg := hm.registered.select pid bits
  revert hreg hs
  rw [Tracer.select]
  refine pinnedHere_on (P := fun r t => s.machine.Smooth t.machine → Registered config t.store →
    Masked config cpu t (ledger.enter (r.toOption.map fun _ => .given pid bits))) _ hm.thread hp
    fun m m' hu => ?_
  simp only [Action.bind_apply, contexts_apply]
  cases hf : s.store.find? pid with
  | none =>
    exact fun hu' hon _ _ => hm.of_store_eq rfl (hon ⟨rfl, rfl, rfl⟩) (hu'.bank.trans hu.bank)
  | some handle =>
    obtain ⟨c, hmem, rfl⟩ := hm.registered.wellFormed.exists_of_find? hf
    have hget := hm.registered.wellFormed.get?_eq_some.mpr hmem
    simp only [hget, Action.bind_apply, Action.modify_apply, io_apply, restore_apply]
    have hacc := Lbr.restore_accounts cpu { c with select := ⟨bits⟩ } m
    have hfits : Context.Fits { c with select := ⟨bits⟩ } := show c.Fits from hm.fits hc hget
    have hloaded := hm.restore hu hfits m'
    generalize Lbr.restore cpu _ m = loaded at hacc hloaded ⊢
    obtain ⟨e | _, m''⟩ := loaded
    · intro hu' _ hs
      obtain ⟨_, hok⟩ := hacc.exists_ok hs hu.accesses.symm hu'.accesses
      cases hok
    · intro hu' hon hs hreg
      obtain ⟨-, hstays, hmask⟩ := hloaded hu' hs
      have hheld := hm.registered.holds_update hm.held hget { c with select := ⟨bits⟩ } rfl
      exact ⟨hreg, hon hstays, hmask, hheld, hm.sound.note (.given _ bits)⟩

/-- A traced process that leaves the cpu takes the mask in the register with it. -/
theorem schedOut (hm : Masked config cpu s ledger) (pid : UInt32)
    (hp : isTraced s.store pid = true → s.machine.Pinnable)
    (hs : s.machine.Smooth (Tracer.schedOut pid s).2.machine) :
    Masked config cpu (Tracer.schedOut pid s).2
      (ledger.enter (if isTraced s.store pid = true then some (.read pid) else none)) := by
  obtain ⟨bank, hb, hmask⟩ := Machine.mask?_eq_some.mp hm.register
  have hreg := hm.registered.schedOut pid
  obtain ⟨hbank, hon, hstore⟩ :=
    schedOut_soft hb hm.thread hp hs
  rcases hstore with ⟨hn, hstore⟩ | ⟨handle, context, context', hf, hget, halike, hstack, hstore⟩
  · rw [isTraced, hn]
    exact hm.of_store_eq hstore hon hbank
  · obtain rfl : context.pid = pid := hm.registered.wellFormed.pid_of_find? hf hget
    have hselect : context'.select.bits = ledger.register :=
      (congrArg Stack.select hstack).trans hmask
    have hheld := hm.registered.holds_update hm.held hget context' halike.pid
    rw [hselect, ← hstore] at hheld
    rw [isTraced, hf]
    exact ⟨hreg, hon, (Machine.mask?_congr hbank cpu).trans hm.register, hheld,
      hm.sound.note (.read context.pid)⟩

/-- A traced process that comes onto the cpu brings its mask. -/
theorem schedIn (hm : Masked config cpu s ledger)
    (hc : Msr.targetBase.toNat + config.capacity ≤ UInt32.size) (pid : UInt32)
    (hp : isTraced s.store pid = true → s.machine.Pinnable)
    (hs : s.machine.Smooth (Tracer.schedIn pid s).2.machine) :
    Masked config cpu (Tracer.schedIn pid s).2
      (ledger.enter (if isTraced s.store pid = true then some (.loaded pid) else none)) := by
  obtain ⟨hcpu, hallowed⟩ := hm.thread
  revert hs
  rw [Tracer.schedIn]
  refine transfer_induction
    (P := fun t => s.machine.Smooth t.machine → Masked config cpu t (ledger.enter
      (if isTraced s.store pid = true then some (.loaded pid) else none))) _ pid _ ?_ ?_ ?_
  · intro hn _
    rw [isTraced, hn]
    exact hm
  · exact fun handle m hf hn _ _ => absurd (hp (by simp [isTraced, hf])) hn
  · intro handle context m m' hf hget hu _ moved hu' hon hs
    obtain rfl : context.pid = pid := hm.registered.wellFormed.pid_of_find? hf hget
    have hmoved : moved = { s with machine := (Lbr.restore cpu context m).2 } := by
      simp only [moved, restore_apply, hcpu]
    rw [hmoved] at hu' hon ⊢
    obtain ⟨-, hstays, hmask⟩ := hm.restore hu (hm.fits hc hget) m' hu' hs
    rw [isTraced, hf]
    refine ⟨hm.registered, hcpu ▸ hon hstays (hcpu ▸ hallowed), ?_, hm.held,
      hm.sound.note (.loaded context.pid)⟩
    exact hmask.trans (congrArg some (hm.held _ _ hget))

end Masked

end BranchTrace
