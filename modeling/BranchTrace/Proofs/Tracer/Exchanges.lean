import BranchTrace.Proofs.Lbr.Cells
import BranchTrace.Proofs.Machine.Mishaps
import BranchTrace.Proofs.Store.Processes
import BranchTrace.Proofs.Tracer.Outcomes

/-!
# What a switch moves

A process that leaves a cpu has its context filled from the register file of that cpu, and one that
comes onto a cpu has its context written into that file, unless a mishap is reported. Main
statements: `schedOut_manages` and `schedIn_manages`, for any store and for processes that are
traced or not.
-/

namespace BranchTrace

/-- The register writes that put back the context of a process. -/
def Store.writesOf (store : Store) (pid : UInt32) : List (UInt32 × UInt64) :=
  ((store.contextOf? pid).map Context.writes).getD []

namespace Lbr

theorem events_save (cpu : Nat) (context : Context) (m : Machine) :
    (save cpu context m).2.events = m.events :=
  save_related (R := fun m m' => m'.events = m.events) (fun _ => rfl) (fun h h' => h'.trans h)
    (fun msr => (Machine.silent_rdmsr cpu msr).events) context m

theorem events_restore (cpu : Nat) (context : Context) (m : Machine) :
    (restore cpu context m).2.events = m.events :=
  (Machine.silent_wrmsrAll cpu context.writes).events m

end Lbr

namespace Tracer

open Tracing

variable {s : Tracing}

/-- What a transfer comes to unless a mishap is reported: nothing for a process that is not traced,
else a move that succeeds, between taking a pin and giving it back. -/
theorem transfer_manages {direction : Transfer} {pid : UInt32}
    {move : Nat → Handle → Context → Action Tracing SystemError Unit} {P : Tracing → Prop}
    (hquiet : ∀ handle context t,
      (move s.machine.cur handle context t).2.machine.events = t.machine.events)
    (hnone : s.store.find? pid = none → P s)
    (hmove : ∀ handle context m m', s.store.find? pid = some handle →
      s.store.get? handle = some context → s.machine.Untouched m → m.cur = s.machine.cur →
      let moved := move s.machine.cur handle context { s with machine := m }
      moved.1 = .ok () → moved.2.machine.Untouched m' →
      (m.Stays moved.2.machine → s.machine.cur ∈ s.machine.allowed → m'.On s.machine.cur) →
      P { moved.2 with machine := m' }) :
    s.machine.Manages (transfer direction pid move s).2.machine
      (P (transfer direction pid move s).2) := by
  have hcurrent := Pin.current_spec (report (.switching direction pid) s.machine).2
  have hpin := Machine.silent_current.events (report (.switching direction pid) s.machine).2
  -- the report before the pin is taken
  have hstart : ∀ m : Machine, m.events = (report (.switching direction pid) s.machine).2.events →
      s.machine.Manages m True := fun m hm => ⟨hm ▸ List.suffix_cons _ _, fun _ => trivial⟩
  refine transfer_cases (P := fun t => s.machine.Manages t.machine (P t)) direction pid move
    (fun hf => Machine.manages_of_events_eq rfl (hnone hf)) ?_ ?_
  · intro handle e m hf h
    rw [h] at hpin
    exact ((hstart m hpin).and (Machine.manages_of_mishap rfl rfl)).imp And.right
  · intro handle context pin m hf hget h moved
    rw [h] at hpin hcurrent
    rcases hcurrent with ⟨-, e', m', he, -⟩ | ⟨pin', m', he, hcpu, hcur, hm, hrel⟩ <;> cases he
    have hpost := hmove handle context m
    have hmoved := hquiet handle context { s with machine := m }
    replace hcpu : pin.cpu = s.machine.cur := hcpu
    simp only [moved, hcpu]
    generalize move s.machine.cur handle context { s with machine := m } = moved at hpost hmoved ⊢
    obtain ⟨r, t⟩ := moved
    have hbefore : s.machine.Manages t.machine True := hstart _ (hmoved.trans hpin)
    have hrelease : ∀ n : Machine, n.Manages (pin.release n).2 True :=
      fun n => ⟨Machine.events_release pin n, fun _ => trivial⟩
    cases r with
    | ok _ =>
      obtain ⟨hu, hon⟩ := hrel t.machine
      exact (hbefore.and (hrelease t.machine)).imp
        fun _ => hpost _ hf hget ⟨hm.bank, hm.accesses⟩ hcur rfl hu hon
    | error e =>
      exact (hbefore.and ((Machine.manages_of_mishap rfl rfl).and
        (hrelease (report (.transferFailed direction pid e) t.machine).2))).imp fun hd => hd.2.1

/-- A process leaves a cpu: its context is filled from the registers of the cpu. -/
theorem schedOut_manages (pid : UInt32) (s : Tracing) :
    s.machine.Manages (schedOut pid s).2.machine
      (∀ bank cpu, s.machine.bank = .soft bank → s.machine.On cpu →
        (schedOut pid s).2.store =
            s.store.amend pid (Context.refreshed (bank.cells (bank.file cpu))) ∧
          (schedOut pid s).2.machine.bank = s.machine.bank ∧
          (schedOut pid s).2.machine.On cpu) := by
  rw [schedOut]
  refine transfer_manages (P := fun t => ∀ bank cpu, s.machine.bank = .soft bank →
    s.machine.On cpu →
    t.store = s.store.amend pid (Context.refreshed (bank.cells (bank.file cpu))) ∧
      t.machine.bank = s.machine.bank ∧ t.machine.On cpu) (fun handle context t => ?_) ?_ ?_
  · rw [save_then_apply, save_apply]
    exact Lbr.events_save ..
  · intro hf bank cpu _ hcpu
    exact ⟨(Store.amend_of_find?_eq_none hf).symm, rfl, hcpu⟩
  · rintro handle context m m' hf hget hm - moved hok hu hon bank _ hb ⟨rfl, hallowed⟩
    have hmoved : moved =
        ((Lbr.save s.machine.cur context m).1.1,
          { store := s.store.update handle fun _ => (Lbr.save s.machine.cur context m).1.2
            machine := (Lbr.save s.machine.cur context m).2 }) := by
      simp only [moved, save_then_apply, save_apply]
      cases (Lbr.save s.machine.cur context m).1.1 <;> rfl
    rw [hmoved] at hok hu hon ⊢
    obtain ⟨hbank, hstays, -⟩ := Lbr.save_soft (hm.bank.trans hb) s.machine.cur context
    refine ⟨?_, hu.bank.trans (hbank.trans hm.bank), hon hstays hallowed⟩
    rw [Lbr.save_refreshed (hm.bank.trans hb) hok, Store.amend_eq_update hf hget]

/-- A process comes onto a cpu: its context is written into the registers of the cpu. -/
theorem schedIn_manages (pid : UInt32) (s : Tracing) :
    s.machine.Manages (schedIn pid s).2.machine
      (∀ bank cpu, s.machine.bank = .soft bank → s.machine.On cpu →
        (schedIn pid s).2.store = s.store ∧
          (schedIn pid s).2.machine.bank = .soft (bank.writeAll cpu (s.store.writesOf pid)) ∧
          (schedIn pid s).2.machine.On cpu) := by
  rw [schedIn]
  refine transfer_manages (P := fun t => ∀ bank cpu, s.machine.bank = .soft bank →
    s.machine.On cpu → t.store = s.store ∧
      t.machine.bank = .soft (bank.writeAll cpu (s.store.writesOf pid)) ∧ t.machine.On cpu)
    (fun handle context t => ?_) ?_ ?_
  · rw [restore_apply]
    exact Lbr.events_restore ..
  · intro hf bank cpu hb hcpu
    refine ⟨rfl, ?_, hcpu⟩
    rw [Store.writesOf, Store.contextOf?, hf]
    exact hb
  · rintro handle context m m' hf hget hm - moved hok hu hon bank _ hb ⟨rfl, hallowed⟩
    have hmoved : moved = ((Lbr.restore s.machine.cur context m).1,
        { s with machine := (Lbr.restore s.machine.cur context m).2 }) := by
      simp only [moved, restore_apply]
    rw [hmoved] at hok hu hon ⊢
    have hwrites : s.store.writesOf pid = context.writes := by
      rw [Store.writesOf, Store.contextOf?, hf, Option.bind_eq_bind, Option.bind_some, hget]
      rfl
    refine ⟨rfl, ?_, hon (Machine.wrmsrAll_stays s.machine.cur context.writes m) hallowed⟩
    rw [hwrites]
    exact hu.bank.trans (Machine.wrmsrAll_soft (hm.bank.trans hb) s.machine.cur hok)

end Tracer

end BranchTrace
