import BranchTrace.Proofs.Lbr.Reading
import BranchTrace.Proofs.Machine.Passes
import BranchTrace.Proofs.Store.Processes
import BranchTrace.Proofs.Tracer.Outcomes

/-!
# Torn contexts

A context is read from the registers of a cpu right where it is stored, when its process leaves the
cpu, when it is dumped and when the device is read. A read that fails on the way ends that, and
leaves the context torn: what was read before has come into it, and the rest is older. So a failure
of the first read changes nothing, and one of a later read changes the fields before it, unless the
registers held what the context holds. The other contexts stay as they are.

Main statement: `torn_by_reads`.
-/

namespace BranchTrace

namespace Tracing

/-- Registers of the cpu that the thread is on were read into a context until one read failed, or
to the end. -/
structure Torn (s s' : Tracing) (handle : Handle) (context : Context) (values : List UInt64) :
    Prop where
  /-- What was read has taken the place of the first fields. -/
  store : s'.store = s.store.update handle fun _ => context.filled values
  own : s'.store.get? handle = some (context.filled values)
  others : ∀ other, other ≠ handle → s'.store.get? other = s.store.get? other
  /-- The values are those of the reads that were tried, up to the one that failed. -/
  accesses : s'.machine.accesses =
    (Access.readings s.machine.cur context.registers values).reverse ++ s.machine.accesses
  contents : ∀ bank, s.machine.bank = .soft bank →
    values = (context.registers.take values.length).map (bank.read s.machine.cur)
  /-- A restore writes what was read, and then what was older. -/
  restores : (context.filled values).values = values ++ context.values.drop values.length
  unchanged : s'.store.get? handle = some context ↔ values <+: context.values

/-- Nothing was read, because the thread could not be pinned. -/
structure Untorn (s s' : Tracing) : Prop where
  store : s'.store = s.store
  accesses : s'.machine.accesses = s.machine.accesses

/-- What a save on a machine whose thread was pinned does to a store, and to the journal. -/
theorem torn_save {s s' : Tracing} {m : Machine} {handle : Handle} {context : Context}
    (hget : s.store.get? handle = some context) (hm : s.machine.Untouched m)
    (hallowed : m.allowed = [s.machine.cur]) (hcur : m.cur = s.machine.cur)
    (hstore : s'.store =
      s.store.update handle fun _ => (Lbr.save s.machine.cur context m).1.2)
    (haccesses : s'.machine.accesses = (Lbr.save s.machine.cur context m).2.accesses) :
    Torn s s' handle context (Lbr.readAll s.machine.cur context.registers m).1.2 := by
  rw [Lbr.save_eq] at hstore haccesses
  have hlength := Lbr.length_readAll_le s.machine.cur context.registers m
  have hown : s'.store.get? handle =
      some (context.filled (Lbr.readAll s.machine.cur context.registers m).1.2) := by
    rw [hstore, Store.get?_update, if_pos rfl, hget]
    rfl
  refine ⟨hstore, hown, ?_, ?_, ?_, context.values_filled hlength, ?_⟩
  · intro other hne
    rw [hstore, Store.get?_update, if_neg hne]
  · rw [haccesses, ← hm.accesses]
    exact Lbr.accesses_readAll s.machine.cur context.registers hallowed hcur
  · intro bank hb
    exact Lbr.values_readAll s.machine.cur context.registers (hm.bank.trans hb)
  · rw [hown, Option.some.injEq]
    exact context.filled_eq_self hlength

/-- What is reported before and after does not matter. -/
theorem Torn.of_report {s s' t : Tracing} {event : Event} {handle : Handle} {context : Context}
    {values : List UInt64} (h : Torn (report event s).2 t handle context values)
    (hstore : s'.store = t.store) (haccesses : s'.machine.accesses = t.machine.accesses) :
    Torn s s' handle context values where
  store := hstore.trans h.store
  own := hstore ▸ h.own
  others := hstore ▸ h.others
  accesses := haccesses.trans h.accesses
  contents := h.contents
  restores := h.restores
  unchanged := hstore ▸ h.unchanged

end Tracing

namespace Tracer

open Tracing

variable {s : Tracing} {handle : Handle} {context : Context}

/-- A process leaves the cpu. -/
theorem schedOut_tears {pid : UInt32} (hf : s.store.find? pid = some handle)
    (hget : s.store.get? handle = some context) :
    Untorn s (schedOut pid s).2 ∨ ∃ values, Torn s (schedOut pid s).2 handle context values := by
  rw [schedOut]
  have huntouched := Pin.untouched_current (report (.switching .save pid) s.machine).2
  apply transfer_cases (P := fun t => Untorn s t ∨ ∃ values, Torn s t handle context values)
  · intro hnone
    cases hf.symm.trans hnone
  · intro _ e m _ h
    rw [h] at huntouched
    exact .inl ⟨rfl, huntouched.accesses⟩
  · intro handle' context' pin m hf' hget' h moved
    obtain rfl : handle = handle' := Option.some.inj (hf.symm.trans hf')
    obtain rfl : context = context' := Option.some.inj (hget.symm.trans hget')
    obtain ⟨hcpu, hallowed, hcur⟩ := Pin.bound_of_current h
    rw [h] at huntouched
    have hm : s.machine.Untouched m := ⟨huntouched.bank, huntouched.accesses⟩
    have hmoved : moved.2 =
        { store := s.store.update handle fun _ => (Lbr.save s.machine.cur context m).1.2
          machine := (Lbr.save s.machine.cur context m).2 } := by
      simp only [moved, save_then_apply, save_apply, hcpu]
      rfl
    have hreported : (movedMachine .save pid moved.1 moved.2.machine).accesses =
        moved.2.machine.accesses := by
      cases moved.1 <;> rfl
    refine .inr ⟨_, torn_save hget hm hallowed hcur ?_ ?_⟩
    · rw [hmoved]
    · rw [(Pin.untouched_release _ _).accesses, hreported, hmoved]

/-- A context is dumped. -/
theorem dump_tears {pid? : Option UInt32} (hf : wanted s.store pid? = some handle)
    (hget : s.store.get? handle = some context) :
    (Untorn s (dump pid? s).2 ∧ ∃ e, (dump pid? s).1 = .error (.io e)) ∨
      ∃ values, Torn s (dump pid? s).2 handle context values ∧
        if values.length = context.registers.length then
          (dump pid? s).1 = .ok ((context.filled values).snapshot s.machine.cur)
        else ∃ e, (dump pid? s).1 = .error (.io e) := by
  have huntouched := Pin.untouched_current s.machine
  rw [dump_eq, pinnedHere, pinned_apply]
  rcases h : Pin.current (MachineState.machine s) with ⟨e | pin, m⟩
  · rw [show Pin.current s.machine = _ from h] at huntouched
    exact .inl ⟨⟨rfl, huntouched.accesses⟩, e, rfl⟩
  · obtain ⟨hcpu, hallowed, hcur⟩ := Pin.bound_of_current h
    rw [show Pin.current s.machine = _ from h] at huntouched
    have hm : s.machine.Untouched m := huntouched
    refine .inr ⟨_, torn_save hget hm hallowed hcur ?_ ?_, ?_⟩
    all_goals
      simp only [Action.bind_apply, contexts_apply, MachineState.machine, MachineState.setMachine,
        hf, hget, io_apply, save_apply, hcpu]
    · cases (Lbr.save s.machine.cur context m).1.1 <;> rfl
    · cases (Lbr.save s.machine.cur context m).1.1 <;>
        exact (Pin.untouched_release _ _).accesses
    · have hread := Lbr.save_eq_ok s.machine.cur context m
      rcases hsaved : (Lbr.save s.machine.cur context m).1.1 with e | _
      · rw [hsaved] at hread
        rw [if_neg (mt hread.mpr (by simp))]
        exact ⟨e, rfl⟩
      · rw [if_pos (hread.mp hsaved), Lbr.save_eq]
        rfl

/-- The device is read, which dumps the oldest context. -/
theorem deviceRead_tears (hf : wanted s.store none = some handle)
    (hget : s.store.get? handle = some context) :
    Untorn s (deviceRead s).2 ∨ ∃ values, Torn s (deviceRead s).2 handle context values := by
  have hdumped := dump_tears (s := (report .deviceRead s).2) hf hget
  have hread : (deviceRead s).2.store = (dump none (report .deviceRead s).2).2.store ∧
      (deviceRead s).2.machine.accesses =
        (dump none (report .deviceRead s).2).2.machine.accesses := by
    rw [deviceRead, stateM_bind_apply, stateM_bind_apply, ExceptT.run]
    cases (dump none (report .deviceRead s).2).1 <;> exact ⟨rfl, rfl⟩
  rcases hdumped with ⟨hu, -⟩ | ⟨values, ht, -⟩
  · exact .inl ⟨hread.1.trans hu.store, hread.2.trans hu.accesses⟩
  · exact .inr ⟨values, ht.of_report hread.1 hread.2⟩

/-- What a save at a switch, a dump and a read of the device leave of a context that they read the
registers into, wherever a read fails: what was read before takes the place of the first fields,
and everything else stays. -/
theorem torn_by_reads (s : Tracing) {handle : Handle} {context : Context}
    (hget : s.store.get? handle = some context) :
    (∀ pid, s.store.find? pid = some handle →
      Untorn s (schedOut pid s).2 ∨
        ∃ values, Torn s (schedOut pid s).2 handle context values) ∧
    (∀ pid?, wanted s.store pid? = some handle →
      (Untorn s (dump pid? s).2 ∧ ∃ e, (dump pid? s).1 = .error (.io e)) ∨
        ∃ values, Torn s (dump pid? s).2 handle context values ∧
          if values.length = context.registers.length then
            (dump pid? s).1 = .ok ((context.filled values).snapshot s.machine.cur)
          else ∃ e, (dump pid? s).1 = .error (.io e)) ∧
    (wanted s.store none = some handle →
      Untorn s (deviceRead s).2 ∨
        ∃ values, Torn s (deviceRead s).2 handle context values) :=
  ⟨fun _ hf => schedOut_tears hf hget, fun _ hf => dump_tears hf hget,
    fun hf => deviceRead_tears hf hget⟩

/-- Process 1 is traced with the mask 5, another mask is in the registers, and the second read is
to fail. -/
def tornStart : Tracing where
  store :=
    { slots := #[⟨0, some ⟨⟨1, ⟨5⟩, 0, [⟨0, 0⟩], none⟩, 0, 0⟩⟩], free := [], head := some 0, len := 1 }
  machine :=
    { Machine.new 1 with
      bank := .soft ((SoftBank.new 1).write 0 Msr.select 9)
      faults := [{ call := .rdmsr, skip := 1 }] }

/-- The dump fails, and the other mask has come into the context. -/
theorem torn_by_reads_mask :
    tornStart.store.get? ⟨0, 0⟩ = some ⟨1, ⟨5⟩, 0, [⟨0, 0⟩], none⟩ ∧
      ∃ values, Torn tornStart (dump (some 1) tornStart).2 ⟨0, 0⟩ ⟨1, ⟨5⟩, 0, [⟨0, 0⟩], none⟩
          values ∧
        (dump (some 1) tornStart).2.store.get? ⟨0, 0⟩ = some ⟨1, ⟨9⟩, 0, [⟨0, 0⟩], none⟩ := by
  have hget : tornStart.store.get? ⟨0, 0⟩ = some ⟨1, ⟨5⟩, 0, [⟨0, 0⟩], none⟩ := by decide
  have hwanted : wanted tornStart.store (some 1) = some ⟨0, 0⟩ := by decide
  have hafter : (dump (some 1) tornStart).2.store.get? ⟨0, 0⟩ =
      some ⟨1, ⟨9⟩, 0, [⟨0, 0⟩], none⟩ := by
    decide +kernel
  refine ⟨hget, ?_⟩
  rcases (torn_by_reads tornStart hget).2.1 (some 1) hwanted with ⟨hu, -⟩ | ⟨values, ht, -⟩
  · rw [hu.store, hget] at hafter
    cases hafter
  · exact ⟨values, ht, hafter⟩

/-- A dump that fails, a device read that swallows the failure and a save that drops it: each of
them changes the mask that is stored. -/
theorem mask_changed_by_failure :
    (dump (some 1) tornStart).1 = .error (.io (.os 5)) ∧
      (deviceRead tornStart).1 = 0 ∧
      (deviceRead tornStart).2.machine.events.head? = some (.nothingToDump (.io (.os 5))) ∧
      (schedOut 1 tornStart).2.machine.events.head? =
        some (.transferFailed .save 1 (.os 5)) ∧
      (tornStart.store.get? ⟨0, 0⟩).map (·.select) = some ⟨5⟩ ∧
      ((dump (some 1) tornStart).2.store.get? ⟨0, 0⟩).map (·.select) = some ⟨9⟩ ∧
      ((deviceRead tornStart).2.store.get? ⟨0, 0⟩).map (·.select) = some ⟨9⟩ ∧
      ((schedOut 1 tornStart).2.store.get? ⟨0, 0⟩).map (·.select) = some ⟨9⟩ := by
  decide +kernel

end Tracer

end BranchTrace
