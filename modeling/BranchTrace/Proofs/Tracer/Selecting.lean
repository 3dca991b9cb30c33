import BranchTrace.Proofs.Lbr.Reach
import BranchTrace.Proofs.Lbr.Writing
import BranchTrace.Proofs.Tracer.Masks
import BranchTrace.Proofs.Tracer.Tearing

/-!
# Giving a process a new mask

A new mask is stored first, and then the whole context is loaded into the registers of the cpu
that the thread is on. Two things follow from this order. If a register cannot be written, the
request is refused, but the mask stays (`HalfSelected`): it is in force from the next time that the
process comes onto a cpu, and its children inherit it. And if the process is on the cpu, what its
context held when it last left a cpu takes the place of the branches recorded since (`Reloaded`).

Main statements: `select_refused` and `select_reloads`.
-/

namespace BranchTrace

/-- A context with another mask. -/
def Context.withMask (context : Context) (bits : UInt64) : Context :=
  { context with select := ⟨bits⟩ }

theorem Store.find?_withMask {store : Store} {pid : UInt32} {handle : Handle} {context : Context}
    (hf : store.find? pid = some handle) (hget : store.get? handle = some context) (bits : UInt64)
    (other : UInt32) :
    (store.update handle fun _ => context.withMask bits).find? other = store.find? other := by
  have hamend : store.amend pid (·.withMask bits) =
      store.update handle fun _ => context.withMask bits := amend_eq_update hf hget
  have hpid : ∀ context : Context, (context.withMask bits).pid = context.pid := fun _ => rfl
  rw [← hamend]
  exact find?_amend hpid other

/-- A context is told by whose it is and by its stack. -/
theorem Context.eq_of_stack {context context' : Context} (ha : context.Alike context')
    (hs : context'.stack = context.stack) : context' = context := by
  obtain ⟨pid, ⟨select⟩, tos, entries, parent⟩ := context
  obtain ⟨pid', ⟨select'⟩, tos', entries', parent'⟩ := context'
  obtain ⟨hpid, hparent, -⟩ := ha
  simp only [Context.stack, Stack.mk.injEq] at hs hpid hparent
  obtain ⟨rfl, rfl, rfl⟩ := hs
  subst hpid hparent
  rfl

namespace Tracing

/-- A new mask was refused because a register could not be written. It is stored all the same, and
nothing else that is stored has changed. -/
structure HalfSelected (s s' : Tracing) (handle : Handle) (context : Context) (bits : UInt64)
    (place : Nat) : Prop where
  store : s'.store = s.store.update handle fun _ => context.withMask bits
  own : s'.store.get? handle = some (context.withMask bits)
  others : ∀ other, other ≠ handle → s'.store.get? other = s.store.get? other
  found : ∀ pid, s'.store.find? pid = s.store.find? pid
  unchanged : s'.store = s.store ↔ context.select = ⟨bits⟩
  /-- The registers before the one that could not be written are loaded. -/
  registers : ∀ bank, s.machine.bank = .soft bank → s'.machine.bank =
    .soft (bank.writeAll s.machine.cur ((context.withMask bits).writes.take place))

/-- The ways in which a new mask is refused, and the state that each of them leaves. -/
inductive SelectRefused (pid : UInt32) (bits : UInt64) (s : Tracing) :
    TraceError → Tracing → Prop where
  | unpinned {e : SystemError} {m : Machine} (h : Pin.current s.machine = (.error e, m)) :
      SelectRefused pid bits s (.io e) { s with machine := m }
  | absent {pin : Pin} {m : Machine} (h : Pin.current s.machine = (.ok pin, m))
      (hf : s.store.find? pid = none) :
      SelectRefused pid bits s (.notFound pid) { s with machine := (pin.release m).2 }
  | unloaded {pin : Pin} {m : Machine} {handle : Handle} {context : Context} {place : Nat}
      {e : SystemError} {s' : Tracing} (h : Pin.current s.machine = (.ok pin, m))
      (hf : s.store.find? pid = some handle) (hget : s.store.get? handle = some context)
      (hfails : m.FailsAt s.machine.cur (context.withMask bits).writes place e)
      (half : HalfSelected s s' handle context bits place) :
      SelectRefused pid bits s (.io e) s'

/-- A process was given a new mask on the cpu it is on, whose registers held anything. -/
structure Reloaded (s s' : Tracing) (bank bank' : SoftBank) (cpu : Nat) (pid : UInt32)
    (handle : Handle) (context : Context) (bits : UInt64) : Prop where
  store : s'.store = s.store.update handle fun _ => context.withMask bits
  thread : s'.machine.On cpu
  registers : s'.machine.bank = .soft bank'
  /-- The registers hold what the context holds, with the new mask. -/
  stack : bank'.stack cpu context.capacity = { context.stack with select := bits }
  /-- So the branches in them are there still if they were saved before, and only then. -/
  kept : bank'.stack cpu context.capacity = { bank.stack cpu context.capacity with select := bits } ↔
    context.tos = (bank.stack cpu context.capacity).tos ∧
      context.entries = (bank.stack cpu context.capacity).branches
  others : ∀ c msr, ¬(bank.file c = bank.file cpu ∧ Msr.OfStack context.capacity msr) →
    bank'.read c msr = bank.read c msr
  /-- What the next dump gives. -/
  dumped : s'.machine.Pinnable → s'.machine.Smooth (Tracer.dump (some pid) s').2.machine →
    (Tracer.dump (some pid) s').1 = .ok ((context.withMask bits).snapshot cpu)
  /-- What the next switch away from the cpu saves. -/
  saved : s'.machine.Pinnable → s'.machine.Smooth (Tracer.schedOut pid s').2.machine →
    (Tracer.schedOut pid s').2.store.get? handle = some (context.withMask bits)

end Tracing

namespace Tracer

open Tracing

variable {s : Tracing} {pid : UInt32} {bits : UInt64} {pin : Pin} {m : Machine}

/-! ## What becomes of a request -/

theorem select_unpinned {e : SystemError} (h : Pin.current s.machine = (.error e, m)) :
    select pid bits s = (.error (.io e), { s with machine := m }) := by
  rw [select, pinnedHere, pinned_apply]
  simp only [MachineState.machine, h]
  rfl

theorem select_absent (h : Pin.current s.machine = (.ok pin, m)) (hf : s.store.find? pid = none) :
    select pid bits s = (.error (.notFound pid), { s with machine := (pin.release m).2 }) := by
  rw [select, pinnedHere, pinned_apply]
  simp only [MachineState.machine, h, Action.bind_apply, contexts_apply, MachineState.setMachine, hf,
    Action.throw_apply]

/-- The mask is stored before the registers are written. -/
theorem select_found (h : Pin.current s.machine = (.ok pin, m)) {handle : Handle}
    {context : Context} (hf : s.store.find? pid = some handle)
    (hget : s.store.get? handle = some context) :
    let loaded := Lbr.restore s.machine.cur (context.withMask bits) m
    select pid bits s = (loaded.1.mapError .io,
      { store := s.store.update handle fun _ => context.withMask bits
        machine := (pin.release loaded.2).2 }) := by
  obtain ⟨hcpu, -⟩ := Pin.bound_of_current h
  rw [select, pinnedHere, pinned_apply]
  simp only [MachineState.machine, h, hcpu, Action.bind_apply, contexts_apply,
    MachineState.setMachine, hf, hget, Action.modify_apply, io_apply, restore_apply]
  rfl

theorem halfSelected_of_failsAt (h : Pin.current s.machine = (.ok pin, m)) {handle : Handle}
    {context : Context} (hf : s.store.find? pid = some handle)
    (hget : s.store.get? handle = some context) {place : Nat} {e : SystemError}
    (hfails : m.FailsAt s.machine.cur (context.withMask bits).writes place e) :
    HalfSelected s
      { store := s.store.update handle fun _ => context.withMask bits
        machine := (pin.release (Lbr.restore s.machine.cur (context.withMask bits) m).2).2 }
      handle context bits place := by
  have huntouched := Pin.untouched_current s.machine
  rw [h] at huntouched
  have hown : (s.store.update handle fun _ => context.withMask bits).get? handle =
      some (context.withMask bits) := by
    rw [Store.get?_update, if_pos rfl, hget]
    rfl
  refine ⟨rfl, hown, fun other hne => ?_, fun other => ?_, ⟨fun he => ?_, fun he => ?_⟩,
    fun bank hb => ?_⟩
  · rw [Store.get?_update, if_neg hne]
  · exact Store.find?_withMask hf hget bits other
  · rw [show (s.store.update handle fun _ => context.withMask bits) = s.store from he, hget] at hown
    exact congrArg Context.select (Option.some.inj hown)
  · rw [Context.withMask, ← he]
    exact Store.update_self hget
  · exact (Pin.untouched_release _ _).bank.trans (hfails.soft (huntouched.bank.trans hb))

theorem select_ways (pid : UInt32) (bits : UInt64) (s : Tracing) :
    (select pid bits s).1 = .ok () ∨
      ∃ e, (select pid bits s).1 = .error e ∧ SelectRefused pid bits s e (select pid bits s).2 := by
  rcases h : Pin.current s.machine with ⟨e | pin, m⟩
  · rw [select_unpinned h]
    exact .inr ⟨_, rfl, .unpinned h⟩
  rcases hf : s.store.find? pid with _ | handle
  · rw [select_absent h hf]
    exact .inr ⟨_, rfl, .absent h hf⟩
  obtain ⟨context, hget, -⟩ := Store.exists_of_find? hf
  rw [select_found h hf hget]
  dsimp only
  rcases hloaded : (Lbr.restore s.machine.cur (context.withMask bits) m).1 with e | _
  · obtain ⟨place, hfails⟩ := Machine.wrmsrAll_eq_error.mp hloaded
    exact .inr ⟨_, rfl, .unloaded h hf hget hfails (halfSelected_of_failsAt h hf hget hfails)⟩
  · exact .inl rfl

/-- A request to the device for a new mask: its block is not one, or it is refused for the process
that it names. -/
theorem dispatch_select_refused {config : Config} {caller : UInt32} {block : List UInt8}
    {param : UInt64} {e : TraceError}
    (he : (dispatch config caller Command.select.number block param s).1 = .error e) :
    let after := (dispatch config caller Command.select.number block param s).2
    (Request.ofBytes block = .error e ∧ after = s) ∨
      ∃ request, Request.ofBytes block = .ok request ∧
        SelectRefused (target caller request) param
          (report (.requested Command.select.number request.select request.pid) s).2 e after := by
  have hcommand : Command.ofNumber Command.select.number = .ok .select := by decide
  rw [dispatch_apply] at he ⊢
  cases hblock : Request.ofBytes block with
  | error e' =>
    rw [hblock] at he
    exact .inl ⟨congrArg _ (Except.error.inj he), rfl⟩
  | ok request =>
    rw [hblock] at he
    simp only [hcommand] at he ⊢
    refine .inr ⟨request, rfl, ?_⟩
    rcases select_ways (target caller request) param
        (report (.requested Command.select.number request.select request.pid) s).2 with
      hok | ⟨e', he', hrefused⟩
    · rw [hok] at he
      cases he
    · rw [he'] at he
      obtain rfl : e' = e := Except.error.inj he
      exact hrefused

/-- What a refused request for a new mask leaves. Where the thread cannot be pinned or the process is
not traced, all that is stored is as it was; where a register cannot be written, whichever it is,
the mask of the process is replaced and everything else is as it was. -/
theorem select_refused (s : Tracing) (pid : UInt32) (bits : UInt64) :
    (∀ e, (select pid bits s).1 = .error e →
      SelectRefused pid bits s e (select pid bits s).2) ∧
    (∀ e m, Pin.current s.machine = (.error e, m) → (select pid bits s).1 = .error (.io e)) ∧
    (∀ pin m handle context place e, Pin.current s.machine = (.ok pin, m) →
      s.store.find? pid = some handle → s.store.get? handle = some context →
      m.FailsAt s.machine.cur (context.withMask bits).writes place e →
      (select pid bits s).1 = .error (.io e) ∧
        HalfSelected s (select pid bits s).2 handle context bits place) ∧
    ∀ config caller block param e,
      (dispatch config caller Command.select.number block param s).1 = .error e →
      let after := (dispatch config caller Command.select.number block param s).2
      (Request.ofBytes block = .error e ∧ after = s) ∨
        ∃ request, Request.ofBytes block = .ok request ∧
          SelectRefused (target caller request) param
            (report (.requested Command.select.number request.select request.pid) s).2 e after := by
  refine ⟨fun e he => ?_, fun e m h => ?_, ?_, fun _ _ _ _ _ => dispatch_select_refused⟩
  · rcases select_ways pid bits s with hok | ⟨e', he', hrefused⟩
    · cases he.symm.trans hok
    · obtain rfl : e = e' := Except.error.inj (he.symm.trans he')
      exact hrefused
  · rw [select_unpinned h]
  · intro pin m handle context place e h hf hget hfails
    have hloaded : (Lbr.restore s.machine.cur (context.withMask bits) m).1 = .error e :=
      Machine.wrmsrAll_eq_error.mpr ⟨place, hfails⟩
    rw [select_found h hf hget]
    exact ⟨by rw [hloaded]; rfl, halfSelected_of_failsAt h hf hget hfails⟩

/-- Process 1 is traced with the mask 5, and the second write is to fail. -/
def unwritableStart : Tracing where
  store :=
    { slots := #[⟨0, some ⟨⟨1, ⟨5⟩, 0, [⟨0, 0⟩], none⟩, 0, 0⟩⟩], free := [], head := some 0, len := 1 }
  machine := { Machine.new 1 with faults := [{ call := .wrmsr, skip := 1 }] }

/-- The same, where it is the pin that fails. -/
def unpinnableStart : Tracing where
  store := unwritableStart.store
  machine := { Machine.new 1 with faults := [{ call := .setaffinity }] }

/-- The write of the pointer fails, and the mask is stored; on a machine where the thread cannot be
pinned it is not. A request to the device goes the same way. -/
theorem select_refused_pointer :
    (select 1 9 unwritableStart).1 = .error (.io (.os 5)) ∧
      HalfSelected unwritableStart (select 1 9 unwritableStart).2 ⟨0, 0⟩
        ⟨1, ⟨5⟩, 0, [⟨0, 0⟩], none⟩ 9 1 ∧
      SelectRefused 1 9 unwritableStart (.io (.os 5)) (select 1 9 unwritableStart).2 ∧
      (select 1 9 unpinnableStart).1 = .error (.io (.os 5)) ∧
      ∃ request, Request.ofBytes (Request.toBytes ⟨0, 1⟩) = .ok request ∧
        SelectRefused (target 1 request) 9
          (report (.requested Command.select.number request.select request.pid) unwritableStart).2
          (.io (.os 5))
          (dispatch ⟨1, .userOnly⟩ 1 Command.select.number (Request.toBytes ⟨0, 1⟩) 9
            unwritableStart).2 := by
  have hpin : Pin.current unwritableStart.machine =
      (.ok ⟨0, [0]⟩, { unwritableStart.machine with allowed := [0] }) := rfl
  have hnopin : Pin.current unpinnableStart.machine =
      (.error (.os 5), { unpinnableStart.machine with faults := [] }) := rfl
  obtain ⟨hways, -, hfails, hrequest⟩ := select_refused unwritableStart 1 9
  obtain ⟨herror, hhalf⟩ := hfails _ _ ⟨0, 0⟩ ⟨1, ⟨5⟩, 0, [⟨0, 0⟩], none⟩ 1 (.os 5) hpin (by decide)
    (by decide) (Machine.failsAt_of_plan rfl [] 5 (by decide) rfl)
  have hunpinned := (select_refused unpinnableStart 1 9).2.1 _ _ hnopin
  have hblock : Request.ofBytes (Request.toBytes ⟨0, 1⟩) = .ok ⟨0, 1⟩ := by decide
  rcases hrequest ⟨1, .userOnly⟩ 1 (Request.toBytes ⟨0, 1⟩) 9 (.io (.os 5)) (by decide +kernel) with
    ⟨hbad, -⟩ | hrefused
  · cases hblock.symm.trans hbad
  · exact ⟨herror, hhalf, hways _ herror, hunpinned, hrefused⟩

/-- The mask of a refused request is the one that a child inherits, and the one that is loaded when
the process comes onto a cpu. -/
theorem refused_mask_stored :
    let refused := (select 1 9 unwritableStart).2
    (select 1 9 unwritableStart).1 = .error (.io (.os 5)) ∧
      (dispatch ⟨1, .userOnly⟩ 1 Command.select.number (Request.toBytes ⟨0, 1⟩) 9
        unwritableStart).1 = .error (.io (.os 5)) ∧
      (unwritableStart.store.contextOf? 1).map (·.select) = some ⟨5⟩ ∧
      (refused.store.contextOf? 1).map (·.select) = some ⟨9⟩ ∧
      ((dispatch ⟨1, .userOnly⟩ 1 Command.select.number (Request.toBytes ⟨0, 1⟩) 9
        unwritableStart).2.store.contextOf? 1).map (·.select) = some ⟨9⟩ ∧
      ((fork ⟨1, .userOnly⟩ 1 2 refused).2.store.contextOf? 2).map (·.select) = some ⟨9⟩ ∧
      (schedIn 1 { store := refused.store, machine := .new 1 }).2.machine.read? 0 Msr.select =
        some 9 := by
  decide +kernel

/-! ## On the cpu of the process -/

variable {bank : SoftBank} {cpu : Nat} {handle : Handle} {context : Context}

/-- A dump of the cpu that the thread is on. -/
theorem dump_soft (hb : s.machine.bank = .soft bank) (hcpu : s.machine.On cpu)
    (hp : s.machine.Pinnable) {pid? : Option UInt32} (hs : s.machine.Smooth (dump pid? s).2.machine)
    (hf : wanted s.store pid? = some handle) (hget : s.store.get? handle = some context) :
    (dump pid? s).1 =
      .ok ((context.refreshed (bank.cells (bank.file cpu))).snapshot cpu) := by
  revert hs
  rw [dump_eq]
  refine pinnedHere_on (P := fun r t => s.machine.Smooth t.machine →
    r = .ok ((context.refreshed (bank.cells (bank.file cpu))).snapshot cpu)) _ hcpu hp
    fun m m' hu => ?_
  simp only [Action.bind_apply, contexts_apply, hf, hget, io_apply, save_apply]
  have hacc := Lbr.save_accounts cpu context m
  have hsaved (hok : (Lbr.save cpu context m).1.1 = .ok ()) : (Lbr.save cpu context m).1.2 =
      context.refreshed (bank.cells (bank.file cpu)) := Lbr.save_refreshed (hu.bank.trans hb) hok
  generalize Lbr.save cpu context m = saved at hacc hsaved ⊢
  obtain ⟨⟨e | _, context'⟩, n⟩ := saved
  · intro hu' _ hs
    obtain ⟨_, hok⟩ := hacc.exists_ok hs hu.accesses.symm hu'.accesses
    cases hok
  · intro _ _ _
    rw [← hsaved rfl]
    rfl

/-- The mask is stored, and the context is loaded. -/
theorem select_soft (hb : s.machine.bank = .soft bank) (hcpu : s.machine.On cpu)
    (hp : s.machine.Pinnable) (hs : s.machine.Smooth (select pid bits s).2.machine)
    (hf : s.store.find? pid = some handle) (hget : s.store.get? handle = some context) :
    (select pid bits s).1 = .ok () ∧
      (select pid bits s).2.store = s.store.update handle (fun _ => context.withMask bits) ∧
      (select pid bits s).2.machine.bank =
        .soft (bank.writeAll cpu (context.withMask bits).writes) ∧
      (select pid bits s).2.machine.On cpu := by
  obtain ⟨rfl, hallowed⟩ := hcpu
  rcases Pin.current_spec s.machine with ⟨hn, -⟩ | ⟨pin, m, h, -, -, hm, hrel⟩
  · exact absurd hp hn
  rw [select_found h hf hget] at hs ⊢
  dsimp only at hs ⊢
  have hacc := Lbr.restore_accounts s.machine.cur (context.withMask bits) m
  have hstays := Machine.wrmsrAll_stays s.machine.cur (context.withMask bits).writes m
  obtain ⟨hu, hon⟩ := hrel (Lbr.restore s.machine.cur (context.withMask bits) m).2
  obtain ⟨_, hok⟩ := hacc.exists_ok hs hm.accesses.symm hu.accesses
  exact ⟨by rw [hok]; rfl, rfl,
    hu.bank.trans (Machine.wrmsrAll_soft (hm.bank.trans hb) _ hok), hon hstays hallowed⟩

/-- After a process was given a new mask on the cpu it is on, the registers of the cpu hold what its
context held before, whatever was recorded since; and so does its context after the next dump or
switch. -/
theorem select_reloads (hb : s.machine.bank = .soft bank) (hcpu : s.machine.On cpu)
    (hp : s.machine.Pinnable) (hs : s.machine.Smooth (select pid bits s).2.machine)
    (hf : s.store.find? pid = some handle) (hget : s.store.get? handle = some context)
    (h64 : context.capacity ≤ 64) :
    (select pid bits s).1 = .ok () ∧ ∃ bank',
      Reloaded s (select pid bits s).2 bank bank' cpu pid handle context bits := by
  obtain ⟨hok, hstore, hbank, hon⟩ := select_soft hb hcpu hp hs hf hget
  have hstack : (bank.writeAll cpu (context.withMask bits).writes).stack cpu context.capacity =
      { context.stack with select := bits } :=
    Context.stack_writeAll (show (context.withMask bits).capacity ≤ 64 from h64) bank cpu
  have hothers : ∀ c msr, ¬(bank.file c = bank.file cpu ∧ Msr.OfStack context.capacity msr) →
      (bank.writeAll cpu (context.withMask bits).writes).read c msr = bank.read c msr := by
    refine fun c msr hn => SoftBank.read_writeAll_of_not fun ⟨hc, hm⟩ => hn ⟨hc, ?_⟩
    obtain ⟨w, hw, rfl⟩ := List.mem_map.mp hm
    exact show Msr.OfStack (context.withMask bits).capacity w.1 from
      Context.ofStack_of_mem_writes hw
  generalize (select pid bits s).2 = s' at hstore hbank hon ⊢
  generalize bank.writeAll cpu (context.withMask bits).writes = bank' at hbank hstack hothers
  have hf' : s'.store.find? pid = some handle := by
    rw [hstore, Store.find?_withMask hf hget, hf]
  have hget' : s'.store.get? handle = some (context.withMask bits) := by
    rw [hstore, Store.get?_update, if_pos rfl, hget]
    rfl
  refine ⟨hok, bank', hstore, hon, hbank, hstack, ?_, hothers, fun hp' hs' => ?_, fun hp' hs' => ?_⟩
  · rw [hstack]
    simp only [Stack.mk.injEq, true_and]
    rfl
  · have hread : (context.withMask bits).refreshed (bank'.cells (bank'.file cpu)) =
        context.withMask bits :=
      Context.eq_of_stack (Context.alike_refreshed ..) hstack
    rw [dump_soft hbank hon hp' hs' hf' hget', hread]
  · obtain ⟨-, -, ⟨hn, -⟩ | ⟨found, before, after, hf'', hget'', halike, hafter, hsaved⟩⟩ :=
      schedOut_soft hbank hon (fun _ => hp') hs'
    · cases hf'.symm.trans hn
    obtain rfl : handle = found := Option.some.inj (hf'.symm.trans hf'')
    obtain rfl : context.withMask bits = before := Option.some.inj (hget'.symm.trans hget'')
    have hsame : after = context.withMask bits := Context.eq_of_stack halike (hafter.trans hstack)
    rw [hsaved, Store.get?_update, if_pos rfl, hget', hsame]
    rfl

/-- Process 1 is on cpu 0 with the mask 5, and a branch was recorded since. -/
def recordedStart : Tracing where
  store :=
    { slots := #[⟨0, some ⟨⟨1, ⟨5⟩, 0, [⟨0, 0⟩], none⟩, 0, 0⟩⟩], free := [], head := some 0, len := 1 }
  machine :=
    { Machine.new 1 with
      bank := .soft ((SoftBank.new 1).writeAll 0
        [(Msr.select, 5), (Msr.source 0, 0x111), (Msr.target 0, 0x222)]) }

/-- The branch is gone from the registers. -/
theorem select_reloads_cleared :
    ∃ bank bank', recordedStart.machine.bank = .soft bank ∧ bank.branch 0 0 = ⟨0x111, 0x222⟩ ∧
      Reloaded recordedStart (select 1 9 recordedStart).2 bank bank' 0 1 ⟨0, 0⟩
        ⟨1, ⟨5⟩, 0, [⟨0, 0⟩], none⟩ 9 ∧
      bank'.stack 0 1 = ⟨9, 0, [⟨0, 0⟩]⟩ := by
  have hcpu : recordedStart.machine.On 0 := ⟨rfl, by decide⟩
  have hs : recordedStart.machine.Smooth (select 1 9 recordedStart).2.machine := by decide +kernel
  have hf : recordedStart.store.find? 1 = some ⟨0, 0⟩ := by decide
  have hget : recordedStart.store.get? ⟨0, 0⟩ = some ⟨1, ⟨5⟩, 0, [⟨0, 0⟩], none⟩ := by decide
  obtain ⟨-, bank', h⟩ := select_reloads rfl hcpu (by decide) hs hf hget (by decide)
  exact ⟨_, bank', rfl, by decide +kernel, h, h.stack⟩

/-- No access fails, and the next dump is without the branch. -/
theorem recorded_branch_lost :
    recordedStart.machine.read? 0 (Msr.source 0) = some 0x111 ∧
      recordedStart.machine.read? 0 (Msr.target 0) = some 0x222 ∧
      (select 1 9 recordedStart).1.toOption = some () ∧
      (select 1 9 recordedStart).2.machine.read? 0 Msr.select = some 9 ∧
      (select 1 9 recordedStart).2.machine.read? 0 (Msr.source 0) = some 0 ∧
      (select 1 9 recordedStart).2.machine.read? 0 (Msr.target 0) = some 0 ∧
      ((dump (some 1) (select 1 9 recordedStart).2).1.toOption.map (·.entries)) = some [⟨0, 0⟩] := by
  decide +kernel

end Tracer

end BranchTrace
