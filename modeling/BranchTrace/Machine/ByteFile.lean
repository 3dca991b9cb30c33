import Std.Data.TreeMap

/-!
# Byte files

A file of bytes that is stored where it was written: every other byte below its size is zero. A
read stops at the end of the file, and a write past the end makes the file longer.
-/

namespace BranchTrace

/-- A file of bytes. -/
structure ByteFile where
  size : Nat
  written : Std.TreeMap Nat UInt8

namespace ByteFile

/-- A file of zeros. -/
def zeros (size : Nat) : ByteFile :=
  { size, written := {} }

/-- The byte at an offset below the size. -/
def byte (file : ByteFile) (offset : Nat) : UInt8 :=
  file.written.getD offset 0

/-- The bytes from an offset on, at most `count` of them. -/
def read (file : ByteFile) (offset count : Nat) : List UInt8 :=
  (List.range (min count (file.size - offset))).map fun i => file.byte (offset + i)

/-- Puts bytes at consecutive offsets. -/
def put (written : Std.TreeMap Nat UInt8) : Nat → List UInt8 → Std.TreeMap Nat UInt8
  | _, [] => written
  | offset, b :: bs => put (written.insert offset b) (offset + 1) bs

/-- Writes bytes at an offset. -/
def write (file : ByteFile) (offset : Nat) (bytes : List UInt8) : ByteFile :=
  if bytes.isEmpty then file
  else { size := max file.size (offset + bytes.length), written := put file.written offset bytes }

theorem length_read (file : ByteFile) (offset count : Nat) :
    (file.read offset count).length = min count (file.size - offset) := by
  simp [read]

theorem getD_put (written : Std.TreeMap Nat UInt8) (offset : Nat) (bytes : List UInt8)
    (k : Nat) :
    (put written offset bytes).getD k 0 =
      if offset ≤ k ∧ k < offset + bytes.length then bytes.getD (k - offset) 0
      else written.getD k 0 := by
  induction bytes generalizing written offset with
  | nil =>
    have hk : ¬(offset ≤ k ∧ k < offset + ([] : List UInt8).length) := by
      simp only [List.length_nil]; omega
    rw [put, if_neg hk]
  | cons b bs ih =>
    rw [put, ih, Std.TreeMap.getD_insert]
    simp only [Nat.compare_eq_eq, List.length_cons]
    rcases Nat.lt_trichotomy k offset with h | h | h
    · rw [if_neg (by omega), if_neg (by omega), if_neg (by omega)]
    · subst h
      rw [if_neg (by omega), if_pos rfl, if_pos (by omega)]
      simp
    · obtain ⟨j, rfl⟩ : ∃ j, k = offset + 1 + j := ⟨k - (offset + 1), by omega⟩
      have hj : offset + 1 + j - offset = j + 1 := by omega
      have hj' : offset + 1 + j - (offset + 1) = j := by omega
      rw [hj, hj', List.getD_cons_succ]
      by_cases hk : j < bs.length
      · rw [if_pos (by omega), if_pos (by omega)]
      · rw [if_neg (by omega), if_neg (by omega), if_neg (by omega)]

/-- A write shows at its offsets and nowhere else. -/
theorem byte_write (file : ByteFile) (offset : Nat) (bytes : List UInt8) (k : Nat) :
    (file.write offset bytes).byte k =
      if offset ≤ k ∧ k < offset + bytes.length then bytes.getD (k - offset) 0
      else file.byte k := by
  unfold write byte
  split
  · have hb : bytes = [] := by simpa using ‹bytes.isEmpty = true›
    subst hb
    have hk : ¬(offset ≤ k ∧ k < offset + ([] : List UInt8).length) := by
      simp only [List.length_nil]; omega
    rw [if_neg hk]
  · exact getD_put _ _ _ _

end ByteFile

end BranchTrace
