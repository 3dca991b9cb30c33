import BranchTrace.Proofs.Lbr.Cells
import BranchTrace.Proofs.Lbr.Reading
import BranchTrace.Proofs.Machine.Bindable

/-!
# Reliable machines

Registers that are kept in memory fail only where the plan of failures says so. A machine is
`Reliable` if it has such registers and the plan has no failure for them: accesses to them succeed,
and leave the plan as it is.

Main statements: `Reliable.wrmsrAll` and `Reliable.save`.
-/

namespace BranchTrace

namespace Machine

/-- The registers are those of a bank in memory, and no access to them is planned to fail. -/
structure Reliable (m : Machine) (bank : SoftBank) : Prop where
  bank : m.bank = .soft bank
  faults : ∀ fault ∈ m.faults, fault.call ≠ .rdmsr ∧ fault.call ≠ .wrmsr

namespace Reliable

variable {m m' : Machine} {bank : SoftBank}

/-- Registers and a plan are all that counts. -/
theorem congr {bank' : SoftBank} (h : m.Reliable bank) (hb : m'.bank = .soft bank')
    (hf : m'.faults = m.faults) : m'.Reliable bank' :=
  ⟨hb, fun fault hm => h.faults fault (hf ▸ hm)⟩

theorem rdmsr (h : m.Reliable bank) (cpu : Nat) (msr : UInt32) :
    Machine.rdmsr cpu msr m =
      (.ok (bank.read cpu msr), m.journal false cpu msr (some (bank.read cpu msr))) := by
  have hgo := guarded_of_forall_ne (fun fault hf => (h.faults fault hf).1)
    (pure (bank.read cpu msr))
  rw [Machine.rdmsr, h.bank]
  dsimp only
  rw [hgo]
  rfl

theorem wrmsr (h : m.Reliable bank) (cpu : Nat) (msr : UInt32) (value : UInt64) :
    Machine.wrmsr cpu msr value m =
      (.ok (), ({ m with bank := .soft (bank.write cpu msr value) } : Machine).journal true cpu msr
        (some value)) := by
  have hgo := guarded_of_forall_ne (fun fault hf => (h.faults fault hf).2)
    fun m => (.ok (), { m with bank := .soft (bank.write cpu msr value) })
  rw [Machine.wrmsr, h.bank]
  dsimp only
  rw [hgo]
  rfl

theorem wrmsrAll (h : m.Reliable bank) (cpu : Nat) (writes : List (UInt32 × UInt64)) :
    (Machine.wrmsrAll cpu writes m).1 = .ok () ∧
      (Machine.wrmsrAll cpu writes m).2.bank = .soft (bank.writeAll cpu writes) ∧
      (Machine.wrmsrAll cpu writes m).2.faults = m.faults := by
  induction writes generalizing m bank with
  | nil => exact ⟨rfl, h.bank, rfl⟩
  | cons w writes ih =>
    rw [Machine.wrmsrAll, Action.bind_apply, h.wrmsr]
    exact ih (h.congr rfl rfl)

theorem readAll (h : m.Reliable bank) (cpu : Nat) (msrs : List UInt32) :
    (Lbr.readAll cpu msrs m).1.1 = .ok () ∧
      (Lbr.readAll cpu msrs m).2.faults = m.faults := by
  induction msrs generalizing m with
  | nil => exact ⟨rfl, rfl⟩
  | cons msr rest ih =>
    rw [Lbr.readAll, h.rdmsr]
    exact ih (h.congr h.bank rfl)

/-- A save fills the context from the registers of the cpu. -/
theorem save (h : m.Reliable bank) (cpu : Nat) (context : Context) :
    (Lbr.save cpu context m).1 = (.ok (), context.refreshed (bank.cells (bank.file cpu))) ∧
      (Lbr.save cpu context m).2.faults = m.faults := by
  obtain ⟨hok, hfaults⟩ := h.readAll cpu context.registers
  have hread := Lbr.save_eq cpu context m
  dsimp only at hread
  rw [hok] at hread
  have hfilled := Lbr.save_refreshed h.bank (congrArg (fun o => o.1.1) hread)
  rw [hread] at hfilled ⊢
  exact ⟨congrArg (Prod.mk _) hfilled, hfaults⟩

end Reliable

end Machine

end BranchTrace
