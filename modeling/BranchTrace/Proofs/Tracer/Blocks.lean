import BranchTrace.Proofs.Register.Bytes
import BranchTrace.Tracer.Request

/-!
# Request blocks

A request block is a mask, a process number and four bytes that nobody reads, so two blocks hold the
same request if and only if their first twelve bytes agree (`Request.ofBytes_eq_ok`).

Main statement: `Request.decode_encode_block`.
-/

namespace BranchTrace

namespace Request

/-- A request is read from its block as it was written. -/
theorem ofBytes_toBytes (request : Request) : ofBytes request.toBytes = .ok request := by
  have h8 := length_littleEndian 8 request.select.toNat
  have h4 := length_littleEndian 4 request.pid.toNat
  have hselect : request.select.toNat % 256 ^ 8 = request.select.toNat :=
    Nat.mod_eq_of_lt request.select.toNat_lt
  have hpid : request.pid.toNat % 256 ^ 4 = request.pid.toNat :=
    Nat.mod_eq_of_lt request.pid.toNat_lt
  have hlength : request.toBytes.length = size := by
    simp [toBytes, h8, h4, size]
  rw [ofBytes, if_pos hlength, toBytes, List.append_assoc, List.take_left' h8, List.drop_left' h8,
    List.take_left' h4, ofLittleEndian_littleEndian, ofLittleEndian_littleEndian, hselect, hpid,
    UInt64.ofNat_toNat, UInt32.ofNat_toNat]

variable {block : List UInt8} {request : Request}

theorem ofBytes_of_length (h : block.length = size) :
    ∃ request, ofBytes block = .ok request ∧ request.toBytes = block.take 12 ++ [0, 0, 0, 0] := by
  have hmask : (block.take 8).length = 8 := by
    rw [List.length_take, h]
    rfl
  have hpid : ((block.drop 8).take 4).length = 4 := by
    rw [List.length_take, List.length_drop, h]
    rfl
  have hmasklt := ofLittleEndian_lt (block.take 8)
  have hpidlt := ofLittleEndian_lt ((block.drop 8).take 4)
  have hmaskbytes := littleEndian_ofLittleEndian (block.take 8)
  have hpidbytes := littleEndian_ofLittleEndian ((block.drop 8).take 4)
  rw [hmask] at hmasklt hmaskbytes
  rw [hpid] at hpidlt hpidbytes
  refine ⟨_, if_pos h, ?_⟩
  rw [toBytes]
  dsimp only
  rw [UInt64.toNat_ofNat_of_lt' hmasklt, UInt32.toNat_ofNat_of_lt' hpidlt, hmaskbytes, hpidbytes,
    ← List.take_add]

/-- A block holds a request if it has the length of one and starts with the bytes of the request. -/
theorem ofBytes_eq_ok :
    ofBytes block = .ok request ↔
      block.length = size ∧ request.toBytes = block.take 12 ++ [0, 0, 0, 0] := by
  constructor
  · intro h
    by_cases hlength : block.length = size
    · obtain ⟨request', hread, hbytes⟩ := ofBytes_of_length hlength
      obtain rfl : request' = request := Except.ok.inj (hread.symm.trans h)
      exact ⟨hlength, hbytes⟩
    · rw [ofBytes, if_neg hlength] at h
      cases h
  · rintro ⟨hlength, hbytes⟩
    obtain ⟨request', hread, hbytes'⟩ := ofBytes_of_length hlength
    have hsame : Except.ok (ε := TraceError) request = .ok request' := by
      rw [← ofBytes_toBytes request, hbytes, ← hbytes', ofBytes_toBytes]
    exact hread.trans hsame.symm

/-- Of a whole block nothing but the last four bytes is ignored. -/
theorem ofBytes_eq_ofBytes {other : List UInt8} (h : block.length = size)
    (h' : other.length = size) :
    ofBytes block = ofBytes other ↔ block.take 12 = other.take 12 := by
  obtain ⟨request, hread, hbytes⟩ := ofBytes_of_length h
  rw [hread, eq_comm, ofBytes_eq_ok, hbytes, List.append_left_inj]
  exact and_iff_right h'

/-- What is written is read again as it was. A block is read if and only if it has sixteen bytes,
and is refused with its length otherwise; what was read is written again as it was but for the last
four bytes, which are zero then, and these are all that two blocks of the same request may differ
in. -/
theorem decode_encode_block (request : Request) (block other : List UInt8) :
    ofBytes request.toBytes = .ok request ∧
      ((∃ read, ofBytes block = .ok read) ↔ block.length = 16) ∧
      (block.length ≠ 16 → ofBytes block = .error (.partialRequest 16 block.length)) ∧
      (block.length = 16 → ∃ read, ofBytes block = .ok read ∧
        read.toBytes = block.take 12 ++ [0, 0, 0, 0]) ∧
      (block.length = 16 → other.length = 16 →
        (ofBytes block = ofBytes other ↔ block.take 12 = other.take 12)) := by
  refine ⟨ofBytes_toBytes request, ⟨?_, ?_⟩, fun h => if_neg h, ofBytes_of_length,
    ofBytes_eq_ofBytes⟩
  · rintro ⟨read, h⟩
    exact (ofBytes_eq_ok.mp h).1
  · intro h
    obtain ⟨read, hread, -⟩ := ofBytes_of_length h
    exact ⟨read, hread⟩

/-- Two blocks that differ in a byte nobody reads, and one that is a byte short. -/
theorem decode_encode_block_padded :
    let block : List UInt8 := [5, 0, 0, 0, 0, 0, 0, 1, 7, 0, 0, 2, 9, 0, 0, 0]
    let other : List UInt8 := [5, 0, 0, 0, 0, 0, 0, 1, 7, 0, 0, 2, 0, 0, 0, 8]
    let read : Request := { select := 0x100000000000005, pid := 0x2000007 }
    block.length = 16 ∧ other.length = 16 ∧ ofBytes block = ofBytes other ∧
      ofBytes block = .ok read ∧ read.toBytes = block.take 12 ++ [0, 0, 0, 0] ∧
      (block.drop 1).length ≠ 16 ∧
      ofBytes (block.drop 1) = .error (.partialRequest 16 15) := by
  intro block other read
  obtain ⟨-, -, -, hread, hsame⟩ := decode_encode_block read block other
  obtain ⟨-, -, hshort, -, -⟩ := decode_encode_block read (block.drop 1) other
  obtain ⟨read', hread, hbytes⟩ := hread rfl
  obtain rfl : read' = read := Except.ok.inj (hread.symm.trans rfl)
  exact ⟨rfl, rfl, (hsame rfl rfl).mpr rfl, hread, hbytes, by decide, hshort (by decide)⟩

end Request

end BranchTrace
