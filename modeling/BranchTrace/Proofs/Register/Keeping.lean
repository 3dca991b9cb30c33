import BranchTrace.Proofs.Register.Files

/-!
# What registers keep

A register in a file keeps what was written to it until a write, whole or short, moves bytes into a
register that overlaps it (`RegisterCall.Disturbs`), whatever else happens and fails in between.

Main statement: `Machine.accesses_whole_or_fail`.
-/

namespace BranchTrace

/-! ## Sequences of accesses -/

/-- One access to a register. -/
inductive RegisterCall where
  | read (cpu : Nat) (msr : UInt32)
  | write (cpu : Nat) (msr : UInt32) (value : UInt64)
  deriving DecidableEq, Repr

namespace RegisterCall

/-- The machine after an access, whether it succeeded or not. -/
def run (m : Machine) : RegisterCall → Machine
  | .read cpu msr => (Machine.rdmsr cpu msr m).2
  | .write cpu msr value => (Machine.wrmsr cpu msr value m).2

/-- The machine after a sequence of accesses. -/
def runAll (m : Machine) (calls : List RegisterCall) : Machine :=
  calls.foldl run m

/-- An access moves bytes into a register of the same cpu that overlaps a given one: it is a write,
whole or short, to a register less than eight away. A write that moves nothing disturbs nothing. -/
def Disturbs (cpu : Nat) (msr : UInt32) (m : Machine) : RegisterCall → Prop
  | .read _ _ => False
  | .write cpu' msr' value =>
    cpu' = cpu ∧ msr'.toNat < msr.toNat + registerBytes ∧
      msr.toNat < msr'.toNat + registerBytes ∧ 0 < m.bytesMoved cpu' msr' value

/-- No access of a sequence disturbs a register. -/
def Undisturbed (cpu : Nat) (msr : UInt32) : Machine → List RegisterCall → Prop
  | _, [] => True
  | m, call :: calls => ¬call.Disturbs cpu msr m ∧ Undisturbed cpu msr (call.run m) calls

instance (cpu : Nat) (msr : UInt32) (m : Machine) :
    (call : RegisterCall) → Decidable (call.Disturbs cpu msr m)
  | .read _ _ => inferInstanceAs (Decidable False)
  | .write _ _ _ => inferInstanceAs (Decidable (_ ∧ _ ∧ _ ∧ _))

instance decidableUndisturbed (cpu : Nat) (msr : UInt32) :
    (m : Machine) → (calls : List RegisterCall) → Decidable (Undisturbed cpu msr m calls)
  | _, [] => inferInstanceAs (Decidable True)
  | m, call :: calls =>
    have := decidableUndisturbed cpu msr (call.run m) calls
    inferInstanceAs (Decidable (_ ∧ _))

end RegisterCall

namespace Machine

variable {m : Machine} {cpu : Nat} {msr : UInt32} {value : UInt64}

theorem FilesApart.run (ha : m.FilesApart) (call : RegisterCall) : (call.run m).FilesApart := by
  cases call with
  | read cpu msr => exact (sameFiles_rdmsr ha cpu msr).apart ha
  | write cpu msr value => exact ha.wrmsr cpu msr value

theorem FilesApart.runAll (ha : m.FilesApart) (calls : List RegisterCall) :
    (RegisterCall.runAll m calls).FilesApart := by
  induction calls generalizing m with
  | nil => exact ha
  | cons call calls ih => exact ih (ha.run call)

/-- The bytes of a register are all in the file of its cpu, and are those of a value. -/
def Holds (m : Machine) (cpu : Nat) (msr : UInt32) (value : UInt64) : Prop :=
  ∃ file, m.file? cpu = some file ∧ msr.toNat + registerBytes ≤ file.size ∧
    file.word msr.toNat = value.toNat

theorem WholeWrite.holds (h : m.WholeWrite cpu msr value)
    (hok : (Machine.wrmsr cpu msr value m).1 = .ok ()) :
    (Machine.wrmsr cpu msr value m).2.Holds cpu msr value := by
  obtain ⟨file, file', -, hfile', hword, hsize, -⟩ := h.written hok
  exact ⟨file', hfile', hsize ▸ Nat.le_max_right _ _, hword⟩

/-- A register keeps its value over an access that does not disturb it. -/
theorem Holds.run (h : m.Holds cpu msr value) (ha : m.FilesApart) {call : RegisterCall}
    (hcall : ¬call.Disturbs cpu msr m) : (call.run m).Holds cpu msr value := by
  obtain ⟨file, hfile, hsize, hword⟩ := h
  cases call with
  | read cpu' msr' =>
    exact ⟨file, ((sameFiles_rdmsr ha cpu' msr').file? cpu).trans hfile, hsize, hword⟩
  | write cpu' msr' value' =>
    obtain ⟨file', hfile', hle, hbytes⟩ := ha.wrmsr_bytes hfile cpu' msr' value'
    have hmoved := ha.bytesMoved_le cpu' msr' value'
    refine ⟨file', hfile', Nat.le_trans hsize hle, ?_⟩
    rw [← hword]
    -- a byte of the register that the write moved makes the two registers overlap
    refine ByteFile.word_congr fun k hlow hhigh => (hbytes k).resolve_right fun hk => ?_
    obtain ⟨hc, hk, hk'⟩ := hk
    exact hcall ⟨hc, by omega, by omega, by omega⟩

theorem Holds.runAll (h : m.Holds cpu msr value) (ha : m.FilesApart) {calls : List RegisterCall}
    (hcalls : RegisterCall.Undisturbed cpu msr m calls) :
    (RegisterCall.runAll m calls).Holds cpu msr value := by
  induction calls generalizing m with
  | nil => exact h
  | cons call calls ih => exact ih (h.run ha hcalls.1) (ha.run call) hcalls.2

/-- A read that succeeds gives the value that the register holds. -/
theorem Holds.eq_of_rdmsr (h : m.Holds cpu msr value) (ha : m.FilesApart) {v : UInt64}
    (hv : (Machine.rdmsr cpu msr m).1 = .ok v) : v = value := by
  obtain ⟨file, hfile, -, hword⟩ := h
  obtain ⟨file', hfile', -, hv⟩ := (ha.wholeRead cpu msr).value v hv
  obtain rfl : file = file' := Option.some.inj (hfile.symm.trans hfile')
  exact UInt64.toNat_inj.mp (hv.trans hword)

/-- A register that holds a value is read, unless the transfer fails or is cut short. -/
theorem Holds.rdmsr (h : m.Holds cpu msr value) (ha : m.FilesApart)
    (hcut : NodeBank.cutShort (trip .pread m).1 registerBytes = .ok registerBytes) :
    (Machine.rdmsr cpu msr m).1 = .ok value := by
  obtain ⟨v, hv⟩ : ∃ v, (Machine.rdmsr cpu msr m).1 = .ok v := by
    obtain ⟨file, hfile, hsize, -⟩ := h
    obtain ⟨place, hp, hf⟩ := exists_place_of_file? hfile
    refine ⟨_, ((ha.wholeRead cpu msr).whole _).mpr
      ⟨place, file.read msr.toNat registerBytes, hp, ?_, ?_, rfl⟩⟩
    · rw [pread_of_bytes hf, hcut]
      rfl
    · rw [ByteFile.length_read]
      omega
  rw [hv, h.eq_of_rdmsr ha hv]

/-- Accesses to registers in files are whole or fail, in every machine that a sequence of accesses
leads to, whatever was struck or cut short on the way; and a register that was written keeps its
value until a write, whole or short, moves bytes into it. -/
theorem accesses_whole_or_fail (ha : m.FilesApart) (before : List RegisterCall) :
    let reached := RegisterCall.runAll m before
    (∀ cpu msr, reached.WholeRead cpu msr) ∧
    (∀ cpu msr value, reached.WholeWrite cpu msr value) ∧
    ∀ cpu msr value between, (wrmsr cpu msr value reached).1 = .ok () →
      RegisterCall.Undisturbed cpu msr (wrmsr cpu msr value reached).2 between →
      let later := RegisterCall.runAll (wrmsr cpu msr value reached).2 between
      (∀ v, (rdmsr cpu msr later).1 = .ok v → v = value) ∧
      (NodeBank.cutShort (trip .pread later).1 registerBytes = .ok registerBytes →
        (rdmsr cpu msr later).1 = .ok value) := by
  intro reached
  have hreached : reached.FilesApart := ha.runAll before
  refine ⟨hreached.wholeRead, hreached.wholeWrite, fun cpu msr value between hok hbetween => ?_⟩
  intro later
  have hwritten : (wrmsr cpu msr value reached).2.FilesApart := hreached.wrmsr cpu msr value
  have hlater : later.FilesApart := hwritten.runAll between
  have hholds : later.Holds cpu msr value :=
    ((hreached.wholeWrite cpu msr value).holds hok).runAll hwritten hbetween
  exact ⟨fun v hv => hholds.eq_of_rdmsr hlater hv, hholds.rdmsr hlater⟩

/-- A machine of two cpus with one file each. The second transfer into a file moves three bytes, and
the third one none. -/
def pairOfFiles : Machine :=
  { Machine.new 2 with
    bank := .nodes { nodes := [some ["0"], some ["1"]] }
    files := { entries := [(["0"], .bytes (.zeros 4)), (["1"], .bytes (.zeros 0))] }
    faults := [{ call := .pwrite, skip := 1, short := some 3 }, { call := .pwrite }] }

theorem filesApart_pairOfFiles : pairOfFiles.FilesApart := by
  have hplace : ∀ c place, pairOfFiles.place? c = some place →
      c = 0 ∧ place = ["0"] ∨ c = 1 ∧ place = ["1"] := by
    rintro (_ | _ | c) place h
    · exact .inl ⟨rfl, (Option.some.inj h).symm⟩
    · exact .inr ⟨rfl, (Option.some.inj h).symm⟩
    · cases h
  refine ⟨⟨_, rfl⟩, fun c place h => ?_, fun c c' place h h' => ?_⟩
  · obtain ⟨-, rfl⟩ | ⟨-, rfl⟩ := hplace c place h
    · exact ⟨.zeros 4, rfl, ByteFile.trimmed_zeros 4⟩
    · exact ⟨.zeros 0, rfl, ByteFile.trimmed_zeros 0⟩
  · obtain ⟨rfl, rfl⟩ | ⟨rfl, rfl⟩ := hplace c place h <;>
      obtain ⟨rfl, hne⟩ | ⟨rfl, hne⟩ := hplace c' _ h' <;> simp_all

/-- A register keeps its value over a write that is cut short at another cpu, one that fails at the
same register, and one of the register next to it. -/
theorem accesses_whole_or_fail_neighbours :
    let between : List RegisterCall :=
      [.write 1 0x1c9 6, .write 0 0x1c9 7, .write 0 0x1d1 8, .read 0 0x1cd]
    let written := (wrmsr 0 0x1c9 5 pairOfFiles).2
    pairOfFiles.FilesApart ∧ (wrmsr 0 0x1c9 5 pairOfFiles).1 = .ok () ∧
      RegisterCall.Undisturbed 0 0x1c9 written between ∧
      (rdmsr 0 0x1c9 (RegisterCall.runAll written between)).1 = .ok 5 := by
  intro between written
  have hok : (wrmsr 0 0x1c9 5 pairOfFiles).1 = .ok () := by rfl
  have hquiet : RegisterCall.Undisturbed 0 0x1c9 written between := by decide +kernel
  obtain ⟨-, -, hkept⟩ := accesses_whole_or_fail filesApart_pairOfFiles []
  exact ⟨filesApart_pairOfFiles, hok, hquiet, (hkept 0 0x1c9 5 between hok hquiet).2 (by rfl)⟩

end Machine

end BranchTrace
