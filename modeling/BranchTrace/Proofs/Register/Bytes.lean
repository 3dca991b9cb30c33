import BranchTrace.Register.Access
import Mathlib.Algebra.Group.Nat.Defs

/-!
# Bytes

Numbers as bytes, lowest first, and files of bytes. A file that stores nothing past its end
(`ByteFile.Trimmed`) stays so when it is written, and what a write leaves between the old end and
its first byte is zero.
-/

namespace BranchTrace

/-! ## Numbers as bytes -/

theorem length_littleEndian (width n : Nat) : (littleEndian width n).length = width := by
  induction width generalizing n with
  | zero => rfl
  | succ width ih => rw [littleEndian, List.length_cons, ih]

theorem ofLittleEndian_littleEndian (width n : Nat) :
    ofLittleEndian (littleEndian width n) = n % 256 ^ width := by
  induction width generalizing n with
  | zero => rw [Nat.pow_zero, Nat.mod_one]; rfl
  | succ width ih =>
    have hbyte : (UInt8.ofNat n).toNat = n % 256 := UInt8.toNat_ofNat'
    rw [littleEndian, ofLittleEndian, ih, hbyte, Nat.pow_succ', Nat.mod_mul]

theorem ofLittleEndian_lt (bytes : List UInt8) : ofLittleEndian bytes < 256 ^ bytes.length := by
  induction bytes with
  | nil => exact Nat.one_pos
  | cons b bytes ih =>
    have hb := b.toNat_lt
    rw [ofLittleEndian, List.length_cons, Nat.pow_succ']
    omega

/-- Bytes are those of the number they stand for. -/
theorem littleEndian_ofLittleEndian (bytes : List UInt8) :
    littleEndian bytes.length (ofLittleEndian bytes) = bytes := by
  induction bytes with
  | nil => rfl
  | cons b bytes ih =>
    have hb := b.toNat_lt
    have hlow : UInt8.ofNat (b.toNat + 256 * ofLittleEndian bytes) = b := by
      rw [← UInt8.toNat_inj, UInt8.toNat_ofNat']
      omega
    have hhigh : (b.toNat + 256 * ofLittleEndian bytes) / 256 = ofLittleEndian bytes := by
      omega
    rw [ofLittleEndian, List.length_cons, littleEndian, hlow, hhigh, ih]

/-! ## Files of bytes -/

namespace ByteFile

/-- Nothing is stored past the end. -/
def Trimmed (file : ByteFile) : Prop :=
  ∀ k, file.size ≤ k → file.byte k = 0

variable {file : ByteFile} {offset count k : Nat} {bytes : List UInt8}

theorem trimmed_zeros (size : Nat) : (zeros size).Trimmed :=
  fun _ _ => Std.TreeMap.getD_emptyc

@[simp] theorem write_nil (file : ByteFile) (offset : Nat) : file.write offset [] = file := rfl

/-- A file is never made shorter. -/
theorem size_le_size_write (file : ByteFile) (offset : Nat) (bytes : List UInt8) :
    file.size ≤ (file.write offset bytes).size := by
  unfold write
  split
  · exact Nat.le_refl _
  · exact Nat.le_max_left _ _

theorem size_write (h : bytes ≠ []) :
    (file.write offset bytes).size = max file.size (offset + bytes.length) := by
  rw [write, if_neg (mt List.isEmpty_iff.mp h)]

theorem Trimmed.write (h : file.Trimmed) (offset : Nat) (bytes : List UInt8) :
    (file.write offset bytes).Trimmed := by
  by_cases hnil : bytes = []
  · rwa [hnil, write_nil]
  · intro k hk
    rw [size_write hnil] at hk
    rw [byte_write, if_neg (by omega)]
    exact h k (by omega)

/-- A byte that is not written stays as it is. -/
theorem byte_write_of_not (h : ¬(offset ≤ k ∧ k < offset + bytes.length)) :
    (file.write offset bytes).byte k = file.byte k := by
  rw [byte_write, if_neg h]

/-- The number in the bytes of one register, lowest first. -/
def word (file : ByteFile) (offset : Nat) : Nat :=
  ofLittleEndian ((List.range registerBytes).map fun i => file.byte (offset + i))

theorem word_congr {file' : ByteFile}
    (h : ∀ k, offset ≤ k → k < offset + registerBytes → file'.byte k = file.byte k) :
    file'.word offset = file.word offset := by
  have hbytes : ∀ i ∈ List.range registerBytes, file'.byte (offset + i) = file.byte (offset + i) :=
    fun i hi => h _ (Nat.le_add_right _ _) (Nat.add_lt_add_left (List.mem_range.mp hi) _)
  rw [word, List.map_congr_left hbytes, word]

/-- The bytes of a register, where all of them are there to be read. -/
theorem ofLittleEndian_read (h : (file.read offset count).length = registerBytes)
    (hcount : count ≤ registerBytes) :
    offset + registerBytes ≤ file.size ∧
      ofLittleEndian (file.read offset count) = file.word offset := by
  rw [length_read] at h
  have hwhole : min count (file.size - offset) = registerBytes := h
  have hsize : offset + registerBytes ≤ file.size := by
    have hpos : 0 < registerBytes := by decide
    omega
  refine ⟨hsize, ?_⟩
  rw [read, hwhole, word]

/-- A number is read from the bytes that were written for it. -/
theorem word_write (file : ByteFile) (offset : Nat) {n : Nat} (h : n < 256 ^ registerBytes) :
    (file.write offset (littleEndian registerBytes n)).word offset = n := by
  have hlength := length_littleEndian registerBytes n
  have hbytes : (List.range registerBytes).map
      (fun i => (file.write offset (littleEndian registerBytes n)).byte (offset + i)) =
        littleEndian registerBytes n := by
    refine List.ext_getElem (by simp [hlength]) fun i hi hi' => ?_
    rw [hlength] at hi'
    rw [List.getElem_map, List.getElem_range, byte_write, hlength, if_pos (by omega),
      Nat.add_sub_cancel_left, List.getD_eq_getElem?_getD, List.getElem?_eq_getElem]
    rfl
  rw [word, hbytes, ofLittleEndian_littleEndian, Nat.mod_eq_of_lt h]

end ByteFile

end BranchTrace
