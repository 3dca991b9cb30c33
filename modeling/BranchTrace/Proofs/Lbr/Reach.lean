import BranchTrace.Proofs.Lbr.Registers
import BranchTrace.Proofs.Machine.Replay

/-!
# The registers of a stack

Which registers belong to a branch stack of some capacity (`Msr.OfStack`), and what clearing,
saving and restoring a stack does to a machine: a save writes no register, and the others write
registers of the stack alone. Up to 2³¹ places the register that switches recording is not one of
them, since the register numbers of the places do not run over.
-/

namespace BranchTrace

namespace Msr

/-- The registers of a stack: the mask, the pointer, and the sources and targets of its places. -/
def OfStack (capacity : Nat) (msr : UInt32) : Prop :=
  msr = select ∨ msr = tos ∨
    ∃ i < capacity, msr = source (UInt32.ofNat i) ∨ msr = target (UInt32.ofNat i)

/-- The most places of a stack whose registers are numbered without running over. -/
def maxPlaces : Nat := 0x80000000

theorem toNat_source_ofNat {i : Nat} (h : targetBase.toNat + i < UInt32.size) :
    (source (UInt32.ofNat i)).toNat = 0x680 + i := by
  have ht : targetBase.toNat = 0x6c0 := rfl
  have h32 : UInt32.size = 4294967296 := rfl
  rw [source, sourceBase, UInt32.toNat_add, UInt32.toNat_ofNat']
  simp only [UInt32.reduceToNat]
  omega

theorem toNat_target_ofNat {i : Nat} (h : targetBase.toNat + i < UInt32.size) :
    (target (UInt32.ofNat i)).toNat = 0x6c0 + i := by
  have ht : targetBase.toNat = 0x6c0 := rfl
  have h32 : UInt32.size = 4294967296 := rfl
  rw [target, targetBase, UInt32.toNat_add, UInt32.toNat_ofNat']
  simp only [UInt32.reduceToNat]
  omega

/-- The switch of recording is no register of a stack. -/
theorem not_ofStack_debugctl {capacity : Nat} (h : capacity ≤ maxPlaces) :
    ¬OfStack capacity debugctl := by
  have hd : debugctl.toNat = 0x1d9 := rfl
  have hplaces : ∀ i < capacity, targetBase.toNat + i < UInt32.size := by
    intro i hi
    have ht : targetBase.toNat = 0x6c0 := rfl
    have h31 : maxPlaces = 2147483648 := rfl
    have h32 : UInt32.size = 4294967296 := rfl
    omega
  rintro (he | he | ⟨i, hi, he | he⟩)
  · exact absurd he (by decide)
  · exact absurd he (by decide)
  · rw [he, toNat_source_ofNat (hplaces i hi)] at hd
    omega
  · rw [he, toNat_target_ofNat (hplaces i hi)] at hd
    omega

end Msr

/-! ## Writes of a stack -/

theorem exists_of_mem_branchWrites {branches : List Branch} {index : UInt32} {w : UInt32 × UInt64}
    (hw : w ∈ branchWrites index branches) :
    ∃ i, ∃ branch, branches[i]? = some branch ∧
      (w = (Msr.source (index + UInt32.ofNat i), branch.source) ∨
        w = (Msr.target (index + UInt32.ofNat i), branch.target)) := by
  induction branches generalizing index with
  | nil => cases hw
  | cons branch rest ih =>
    rw [branchWrites, List.mem_cons, List.mem_cons] at hw
    have h0 : index + UInt32.ofNat 0 = index := UInt32.add_zero index
    rcases hw with rfl | rfl | hw
    · exact ⟨0, branch, rfl, .inl (by rw [h0])⟩
    · exact ⟨0, branch, rfl, .inr (by rw [h0])⟩
    · obtain ⟨i, found, hi, h⟩ := ih hw
      rw [add_one_add_ofNat] at h
      exact ⟨i + 1, found, by simpa using hi, h⟩

theorem ofStack_of_mem_branchWrites {branches : List Branch} {w : UInt32 × UInt64}
    (hw : w ∈ branchWrites 0 branches) : Msr.OfStack branches.length w.1 := by
  obtain ⟨i, branch, hi, h⟩ := exists_of_mem_branchWrites hw
  rw [UInt32.zero_add] at h
  refine .inr (.inr ⟨i, (List.getElem?_eq_some_iff.mp hi).1, ?_⟩)
  exact h.imp (congrArg Prod.fst) (congrArg Prod.fst)

theorem Context.ofStack_of_mem_writes {context : Context} {w : UInt32 × UInt64}
    (hw : w ∈ context.writes) : Msr.OfStack context.capacity w.1 := by
  rw [writes, List.mem_cons, List.mem_cons] at hw
  rcases hw with rfl | rfl | hw
  · exact .inl rfl
  · exact .inr (.inl rfl)
  · exact ofStack_of_mem_branchWrites hw

namespace Lbr

/-- A save writes no register, however it ends. -/
theorem spares_save (cpu : Nat) (context : Context) (m : Machine) :
    m.Spares (save cpu context m).2 :=
  save_related (fun _ => Machine.Untouched.writes ⟨rfl, rfl⟩) Machine.Writes.trans
    (fun msr => Machine.writes_rdmsr cpu msr) context m

/-- A restore writes registers of its stack on its cpu, however it ends. -/
theorem writes_restore {capacity : Nat} {context : Context} (hc : context.capacity = capacity)
    (cpu : Nat) (m : Machine) :
    m.Writes (fun c msr => c = cpu ∧ Msr.OfStack capacity msr) (restore cpu context m).2 :=
  Machine.writes_wrmsrAll (fun _ hw => ⟨rfl, hc ▸ Context.ofStack_of_mem_writes hw⟩) m

end Lbr

end BranchTrace
