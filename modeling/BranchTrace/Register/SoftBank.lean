import Std.Data.TreeMap

/-!
# Software register banks

Register files kept in memory. A bank has a fixed number of files, and cpus beyond that share
them by the remainder of their number. A register that was never written holds zero.
-/

namespace BranchTrace

/-! ## The registers that recording uses -/

namespace Msr

/-- Switches recording on and off. -/
def debugctl : UInt32 := 0x1d9

/-- Holds the select mask. -/
def select : UInt32 := 0x1c8

/-- Points to the top of the stack. -/
def tos : UInt32 := 0x1c9

/-- The first register of branch sources. -/
def sourceBase : UInt32 := 0x680

/-- The first register of branch targets. -/
def targetBase : UInt32 := 0x6c0

/-- The register of the branch source at a place of the stack. -/
def source (index : UInt32) : UInt32 := sourceBase + index

/-- The register of the branch target at a place of the stack. -/
def target (index : UInt32) : UInt32 := targetBase + index

/-- The bit of `debugctl` that stands for recording. -/
def recording : UInt64 := 1

end Msr

/-- Register files in memory. -/
structure SoftBank where
  files : Nat
  registers : Std.TreeMap Nat (Std.TreeMap UInt32 UInt64)

namespace SoftBank

/-- A bank of cleared files; there is always at least one. -/
def new (files : Nat) : SoftBank :=
  { files := max files 1, registers := {} }

/-- The file that a cpu uses. -/
def file (bank : SoftBank) (cpu : Nat) : Nat :=
  cpu % bank.files

/-- The registers of a cpu's file that were ever written. -/
def written (bank : SoftBank) (cpu : Nat) : Std.TreeMap UInt32 UInt64 :=
  bank.registers.getD (bank.file cpu) {}

/-- The value of a register. -/
def read (bank : SoftBank) (cpu : Nat) (msr : UInt32) : UInt64 :=
  (bank.written cpu).getD msr 0

/-- Writes a register. -/
def write (bank : SoftBank) (cpu : Nat) (msr : UInt32) (value : UInt64) : SoftBank :=
  { bank with
    registers := bank.registers.insert (bank.file cpu) ((bank.written cpu).insert msr value) }

@[simp] theorem files_write (bank : SoftBank) (cpu : Nat) (msr : UInt32) (value : UInt64) :
    (bank.write cpu msr value).files = bank.files := rfl

/-- A write shows in one register of one file. -/
theorem read_write (bank : SoftBank) (cpu cpu' : Nat) (msr msr' : UInt32) (value : UInt64) :
    (bank.write cpu msr value).read cpu' msr' =
      if bank.file cpu = bank.file cpu' ∧ msr = msr' then value else bank.read cpu' msr' := by
  have hf : (bank.write cpu msr value).file cpu' = bank.file cpu' := rfl
  unfold read written
  rw [hf]
  simp only [write, Std.TreeMap.getD_insert, Nat.compare_eq_eq]
  by_cases hc : bank.file cpu = bank.file cpu'
  · simp only [hc, if_true, true_and, Std.TreeMap.getD_insert, Std.compare_eq_iff_eq, written]
  · simp only [hc, if_false, false_and]

end SoftBank

end BranchTrace
