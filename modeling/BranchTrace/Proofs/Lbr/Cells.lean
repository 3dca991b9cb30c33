import BranchTrace.Proofs.Lbr.Registers

/-!
# Register files

A software bank seen file by file (`SoftBank.cells`), so that writes to different files can be told
apart. Main statements: `cells_writeAll`, writes on a cpu change the file of that cpu alone, and
`Lbr.save_refreshed`, a save that succeeds fills a context from the file of its cpu.
-/

namespace BranchTrace

/-- What registers hold after writes in order. -/
def overwritten (registers : UInt32 → UInt64) (writes : List (UInt32 × UInt64)) :
    UInt32 → UInt64 :=
  writes.foldl (fun registers w => Function.update registers w.1 w.2) registers

theorem overwritten_of_not_mem {registers : UInt32 → UInt64} {writes : List (UInt32 × UInt64)}
    {msr : UInt32} (h : msr ∉ writes.map (·.1)) :
    overwritten registers writes msr = registers msr := by
  induction writes generalizing registers with
  | nil => rfl
  | cons w writes ih =>
    rw [List.map_cons, List.mem_cons, not_or] at h
    exact (ih h.2).trans (Function.update_of_ne h.1 ..)

namespace SoftBank

/-- What the registers of a file hold. -/
def cells (bank : SoftBank) (file : Nat) (msr : UInt32) : UInt64 :=
  (bank.registers.getD file {}).getD msr 0

variable (bank : SoftBank)

theorem cells_write (cpu : Nat) (msr : UInt32) (value : UInt64) :
    (bank.write cpu msr value).cells =
      Function.update bank.cells (bank.file cpu)
        (Function.update (bank.cells (bank.file cpu)) msr value) := by
  funext file msr'
  simp only [cells, write, Std.TreeMap.getD_insert, Nat.compare_eq_eq]
  by_cases hf : bank.file cpu = file
  · subst hf
    simp only [if_true, Function.update_self, Std.TreeMap.getD_insert, Std.compare_eq_iff_eq,
      Function.update_apply, eq_comm (a := msr), written, cells]
  · simp only [if_neg hf, Function.update_of_ne (Ne.symm hf), cells]

theorem cells_writeAll (cpu : Nat) (writes : List (UInt32 × UInt64)) :
    (bank.writeAll cpu writes).cells =
      Function.update bank.cells (bank.file cpu)
        (overwritten (bank.cells (bank.file cpu)) writes) := by
  induction writes generalizing bank with
  | nil => exact (Function.update_eq_self _ _).symm
  | cons w writes ih =>
    have hrest := ih (bank.write cpu w.1 w.2)
    have hfile : (bank.write cpu w.1 w.2).file cpu = bank.file cpu := rfl
    rw [hfile, cells_write, Function.update_self, Function.update_idem] at hrest
    exact hrest

theorem files_writeAll (cpu : Nat) (writes : List (UInt32 × UInt64)) :
    (bank.writeAll cpu writes).files = bank.files := by
  induction writes generalizing bank with
  | nil => rfl
  | cons w writes ih => exact ih (bank.write cpu w.1 w.2)

theorem cells_file_writeAll (cpu : Nat) (writes : List (UInt32 × UInt64)) :
    (bank.writeAll cpu writes).cells ((bank.writeAll cpu writes).file cpu) =
      overwritten (bank.cells (bank.file cpu)) writes := by
  rw [file, files_writeAll, cells_writeAll]
  exact Function.update_self ..

variable {bank}

/-- Registers that are not written, and all registers of other files, are as they were. -/
theorem read_writeAll_of_not {cpu c : Nat} {writes : List (UInt32 × UInt64)} {msr : UInt32}
    (h : ¬(bank.file c = bank.file cpu ∧ msr ∈ writes.map (·.1))) :
    (bank.writeAll cpu writes).read c msr = bank.read c msr := by
  have hfile : (bank.writeAll cpu writes).file c = bank.file c := by
    rw [file, files_writeAll, file]
  show (bank.writeAll cpu writes).cells ((bank.writeAll cpu writes).file c) msr = _
  rw [hfile, cells_writeAll]
  by_cases hc : bank.file c = bank.file cpu
  · rw [hc, Function.update_self, overwritten_of_not_mem fun hm => h ⟨hc, hm⟩, ← hc]
    rfl
  · rw [Function.update_of_ne hc]
    rfl

/-- The stack of a cpu is read from its file. -/
theorem stack_congr {bank' : SoftBank} {cpu : Nat}
    (h : bank'.cells (bank'.file cpu) = bank.cells (bank.file cpu)) (capacity : Nat) :
    bank'.stack cpu capacity = bank.stack cpu capacity := by
  have hread : ∀ msr, bank'.read cpu msr = bank.read cpu msr := congrFun h
  simp only [stack, branch, hread]

/-- Writing the pointer and all branches of a stack leaves its mask. -/
theorem stack_writeAll_branches (bank : SoftBank) (cpu : Nat) (tos : UInt64)
    {branches : List Branch} (h : branches.length ≤ 64) :
    (bank.writeAll cpu ((Msr.tos, tos) :: branchWrites 0 branches)).stack cpu branches.length =
      { select := bank.read cpu Msr.select, tos, branches } := by
  let context : Context :=
    { pid := 0, select := ⟨bank.read cpu Msr.select⟩, tos, entries := branches, parent := none }
  -- to write the mask that is there already changes nothing
  have hmask : overwritten (bank.cells (bank.file cpu)) context.writes =
      overwritten (bank.cells (bank.file cpu)) ((Msr.tos, tos) :: branchWrites 0 branches) :=
    congrArg (overwritten · _) (Function.update_eq_self Msr.select (bank.cells (bank.file cpu)))
  rw [← cells_file_writeAll, ← cells_file_writeAll] at hmask
  exact (stack_congr hmask.symm branches.length).trans
    (Context.stack_writeAll (show context.capacity ≤ 64 from h) bank cpu)

end SoftBank

/-- A context with the contents of registers in it. -/
def Context.refreshed (registers : UInt32 → UInt64) (context : Context) : Context :=
  { context with
    select := ⟨registers Msr.select⟩
    tos := registers Msr.tos
    entries := (List.range context.capacity).map fun i =>
      { source := registers (Msr.source (UInt32.ofNat i))
        target := registers (Msr.target (UInt32.ofNat i)) } }

theorem Context.pid_refreshed (registers : UInt32 → UInt64) (context : Context) :
    (context.refreshed registers).pid = context.pid := rfl

theorem Context.alike_refreshed (registers : UInt32 → UInt64) (context : Context) :
    context.Alike (context.refreshed registers) :=
  ⟨rfl, rfl, by simp [refreshed, capacity]⟩

/-- A save that succeeds leaves the registers of the cpu in the context. -/
theorem Lbr.save_refreshed {m : Machine} {bank : SoftBank} (hb : m.bank = .soft bank) {cpu : Nat}
    {context : Context} (hok : (save cpu context m).1.1 = .ok ()) :
    (save cpu context m).1.2 = context.refreshed (bank.cells (bank.file cpu)) := by
  obtain ⟨-, -, hstack⟩ := save_soft hb cpu context
  have halike := save_alike cpu context m
  have hs := hstack hok
  generalize (save cpu context m).1.2 = saved at hs halike ⊢
  obtain ⟨pid, ⟨select⟩, tos, entries, parent⟩ := saved
  obtain ⟨hpid, hparent, -⟩ := halike
  simp only [Context.stack, SoftBank.stack, Stack.mk.injEq] at hs
  obtain ⟨rfl, rfl, rfl⟩ := hs
  simp only at hpid hparent
  subst hpid hparent
  rfl

end BranchTrace
