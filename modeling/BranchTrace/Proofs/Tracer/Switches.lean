import BranchTrace.Proofs.Lbr.Registers
import BranchTrace.Proofs.Tracer.Outcomes

/-!
# Switches on a software bank

Where the pin and the register accesses of a switch succeed, `schedOut` leaves the stack of the cpu
in the context of the process (`schedOut_soft`), and `schedIn` leaves the stack of its context on
the cpu (`schedIn_soft`). In between the thread stays where it is.
-/

namespace BranchTrace

namespace Tracer

open Tracing

variable {s : Tracing} {bank : SoftBank} {cpu : Nat} {pid : UInt32}

/-- A process leaves a cpu: its context holds the stack of the cpu afterwards. -/
theorem schedOut_soft (hb : s.machine.bank = .soft bank)
    (hcpu : s.machine.On cpu) (hp : isTraced s.store pid = true → s.machine.Pinnable)
    (hs : s.machine.Smooth (schedOut pid s).2.machine) :
    (schedOut pid s).2.machine.bank = s.machine.bank ∧ (schedOut pid s).2.machine.On cpu ∧
      (s.store.find? pid = none ∧ (schedOut pid s).2.store = s.store ∨
        ∃ handle context context', s.store.find? pid = some handle ∧
          s.store.get? handle = some context ∧ context.Alike context' ∧
          context'.stack = bank.stack cpu context.capacity ∧
          (schedOut pid s).2.store = s.store.update handle fun _ => context') := by
  revert hs
  rw [schedOut]
  obtain ⟨rfl, hallowed⟩ := hcpu
  refine transfer_induction (P := fun t => s.machine.Smooth t.machine →
    t.machine.bank = s.machine.bank ∧ t.machine.On s.machine.cur ∧
      (s.store.find? pid = none ∧ t.store = s.store ∨
        ∃ handle context context', s.store.find? pid = some handle ∧
          s.store.get? handle = some context ∧ context.Alike context' ∧
          context'.stack = bank.stack s.machine.cur context.capacity ∧
          t.store = s.store.update handle fun _ => context')) _ pid _ ?_ ?_ ?_
  · exact fun hn _ => ⟨rfl, ⟨rfl, hallowed⟩, .inl ⟨hn, rfl⟩⟩
  · exact fun handle m hf hn _ _ => absurd (hp (by simp [isTraced, hf])) hn
  · intro handle context m m' hf hget hm hcur moved hu hon hs
    have hmoved : moved =
        { store := s.store.update handle fun _ => (Lbr.save s.machine.cur context m).1.2
          machine := (Lbr.save s.machine.cur context m).2 } := by
      simp only [moved, save_then_apply, save_apply]
    rw [hmoved] at hu hon ⊢
    obtain ⟨hbank, hstays, hstack⟩ := Lbr.save_soft (hm.bank.trans hb) s.machine.cur context
    have halike := Lbr.save_alike s.machine.cur context m
    have hacc := Lbr.save_accounts s.machine.cur context m
    refine ⟨hu.bank.trans (hbank.trans hm.bank), hon hstays hallowed,
      .inr ⟨handle, context, _, hf, hget, halike, hstack ?_, rfl⟩⟩
    generalize (Lbr.save s.machine.cur context m).1.1 = r at hacc ⊢
    cases r with
    | ok _ => rfl
    | error e =>
      exact absurd hs (hacc.faulty.congr hm.accesses.symm hu.accesses).not_smooth

/-- A process comes onto a cpu: the cpu holds the stack of its context afterwards. -/
theorem schedIn_soft (hb : s.machine.bank = .soft bank)
    (hcpu : s.machine.On cpu) (hp : isTraced s.store pid = true → s.machine.Pinnable)
    (hs : s.machine.Smooth (schedIn pid s).2.machine) {handle : Handle} {context : Context}
    (hf : s.store.find? pid = some handle) (hget : s.store.get? handle = some context)
    (h64 : context.capacity ≤ 64) :
    ∃ bank', (schedIn pid s).2.machine.bank = .soft bank' ∧
      bank'.stack cpu context.capacity = context.stack := by
  revert hs
  rw [schedIn]
  obtain ⟨rfl, hallowed⟩ := hcpu
  refine transfer_induction (P := fun t => s.machine.Smooth t.machine →
    ∃ bank', t.machine.bank = .soft bank' ∧
      bank'.stack s.machine.cur context.capacity = context.stack) _ pid _ ?_ ?_ ?_
  · exact fun hn _ => absurd (hf.symm.trans hn) (by simp)
  · exact fun handle m hf hn _ _ => absurd (hp (by simp [isTraced, hf])) hn
  · intro handle' context' m m' hf' hget' hm hcur moved hu hon hs
    obtain rfl : handle = handle' := Option.some.inj (hf.symm.trans hf')
    obtain rfl : context = context' := Option.some.inj (hget.symm.trans hget')
    have hmoved : moved = { s with machine := (Lbr.restore s.machine.cur context m).2 } := by
      simp only [moved, restore_apply]
    rw [hmoved] at hu
    have hacc := Lbr.restore_accounts s.machine.cur context m
    have hok : (Lbr.restore s.machine.cur context m).1 = .ok () := by
      generalize (Lbr.restore s.machine.cur context m).1 = r at hacc ⊢
      cases r with
      | ok _ => rfl
      | error e => exact absurd hs (hacc.faulty.congr hm.accesses.symm hu.accesses).not_smooth
    obtain ⟨bank', hbank, hstack⟩ :=
      Lbr.restore_soft (hm.bank.trans hb) s.machine.cur h64 hok
    exact ⟨bank', hu.bank.trans hbank, hstack⟩

end Tracer

end BranchTrace
