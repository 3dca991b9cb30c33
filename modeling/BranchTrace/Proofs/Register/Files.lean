import BranchTrace.Proofs.Register.Transfers

/-!
# Registers in files

What a transfer moves into a file of bytes shows in that file at the offsets of its bytes and
nowhere else. As long as no two cpus share a file (`Machine.FilesApart`), a read gives the bytes of
the register in the file of its cpu, all of them or none (`Machine.WholeRead`), and a write leaves
its value in them if it succeeds (`Machine.WholeWrite`).
-/

namespace BranchTrace

namespace FileTree

theorem node?_insert (tree : FileTree) (place place' : Place) (node : Node) :
    (tree.insert place node).node? place' =
      if place' = place then some node else tree.node? place' := by
  rw [node?, insert, List.lookup_cons]
  by_cases h : place' = place
  · rw [if_pos h, beq_iff_eq.mpr h]
  · rw [if_neg h, beq_eq_false_iff_ne.mpr h]
    rfl

end FileTree

namespace Machine

/-- The file at the place of a cpu. -/
def file? (m : Machine) (cpu : Nat) : Option ByteFile :=
  (m.place? cpu).bind fun place =>
    match m.files.node? place with
    | some (.bytes file) => some file
    | _ => none

/-- Registers are kept in files of bytes, one for each cpu with an open node. -/
structure FilesApart (m : Machine) : Prop where
  bank : ∃ bank, m.bank = .nodes bank
  bytes : ∀ cpu place, m.place? cpu = some place →
    ∃ file, m.files.node? place = some (.bytes file) ∧ file.Trimmed
  apart : ∀ cpu cpu' place, m.place? cpu = some place → m.place? cpu' = some place → cpu = cpu'

variable {m m' : Machine} {cpu : Nat} {msr : UInt32} {value : UInt64} {place : Place}
  {file : ByteFile}

theorem file?_eq_some (h : m.place? cpu = some place)
    (hf : m.files.node? place = some (.bytes file)) : m.file? cpu = some file := by
  rw [file?, h, Option.bind_some, hf]

theorem exists_place_of_file? (h : m.file? cpu = some file) :
    ∃ place, m.place? cpu = some place ∧ m.files.node? place = some (.bytes file) := by
  obtain ⟨place, hp, hf⟩ := Option.bind_eq_some_iff.mp h
  refine ⟨place, hp, ?_⟩
  split at hf
  · rw [← Option.some.inj hf]
    assumption
  · cases hf

/-! ## Transfers of files -/

/-- What a transfer moves out of a file of bytes. -/
theorem pread_of_bytes (h : m.files.node? place = some (.bytes file)) (offset count : Nat) :
    pread place offset count m =
      ((NodeBank.cutShort (trip .pread m).1 count).map (file.read offset), (trip .pread m).2) := by
  rw [pread]
  cases NodeBank.cutShort (trip .pread m).1 count with
  | error e => rfl
  | ok n =>
    dsimp only
    rw [FileTree.readAt, h]
    rfl

/-- What a transfer moves into a file of bytes shows in that file. -/
theorem pwrite_of_bytes (h : m.files.node? place = some (.bytes file)) (offset : Nat)
    (bytes : List UInt8) :
    (∃ e, pwrite place offset bytes m = (.error e, (trip .pwrite m).2)) ∨
      ∃ n ≤ bytes.length, pwrite place offset bytes m =
        (.ok n, { (trip .pwrite m).2 with
          files := m.files.insert place (.bytes (file.write offset (bytes.take n))) }) := by
  rw [pwrite]
  dsimp only
  cases hcut : NodeBank.cutShort (trip .pwrite m).1 bytes.length with
  | error e => exact .inl ⟨e, rfl⟩
  | ok n =>
    have hn := NodeBank.cutShort_le hcut
    refine .inr ⟨n, hn, ?_⟩
    dsimp only
    rw [FileTree.writeAt, h]
    dsimp only
    rw [List.length_take, Nat.min_eq_left hn]

/-- The bytes that a write moves into the file of its cpu. -/
def bytesMoved (m : Machine) (cpu : Nat) (msr : UInt32) (value : UInt64) : Nat :=
  match m.place? cpu with
  | none => 0
  | some place =>
    (pwrite place msr.toNat (littleEndian registerBytes value.toNat) m).1.toOption.getD 0

theorem bytesMoved_of_place (h : m.place? cpu = some place) (msr : UInt32) (value : UInt64) :
    m.bytesMoved cpu msr value =
      (pwrite place msr.toNat (littleEndian registerBytes value.toNat) m).1.toOption.getD 0 := by
  rw [bytesMoved, h]

/-- The files stay as they are. -/
structure SameFiles (m m' : Machine) : Prop where
  bank : m'.bank = m.bank
  files : m'.files = m.files

theorem SameFiles.place? (h : m.SameFiles m') (cpu : Nat) : m'.place? cpu = m.place? cpu := by
  rw [Machine.place?, h.bank, Machine.place?]

theorem SameFiles.file? (h : m.SameFiles m') (cpu : Nat) : m'.file? cpu = m.file? cpu := by
  rw [Machine.file?, h.place?, h.files, Machine.file?]

theorem SameFiles.apart (h : m.SameFiles m') (ha : m.FilesApart) : m'.FilesApart := by
  obtain ⟨bank, hb⟩ := ha.bank
  refine ⟨⟨bank, h.bank.trans hb⟩, fun c place hp => ?_, fun c c' place hp hp' => ?_⟩
  · rw [h.files]
    exact ha.bytes c place ((h.place? c).symm.trans hp)
  · exact ha.apart c c' place ((h.place? c).symm.trans hp) ((h.place? c').symm.trans hp')

theorem sameFiles_readFrom (place : Place) (cpu : Nat) (msr : UInt32) (m : Machine) :
    m.SameFiles (NodeBank.readFrom place cpu msr m).2 := by
  rw [NodeBank.readFrom, pread]
  dsimp only
  split <;> exact ⟨rfl, rfl⟩

/-- A write at a place is the transfer of its bytes. -/
theorem wrmsr_of_place (hp : m.place? cpu = some place) (msr : UInt32) (value : UInt64) :
    (wrmsr cpu msr value m).1 =
        ((pwrite place msr.toNat (littleEndian registerBytes value.toNat) m).1.bind fun count =>
          if count = registerBytes then .ok ()
          else .error (.other .writeZero
            ("short write of msr " ++ Text.hex msr.toNat ++ " on cpu " ++ toString cpu))) ∧
      (pwrite place msr.toNat (littleEndian registerBytes value.toNat) m).2.SameFiles
        (wrmsr cpu msr value m).2 := by
  rw [(reaches_of_place hp).write]
  exact ⟨rfl, rfl, rfl⟩

/-- A read at a place is the transfer of its bytes. -/
theorem rdmsr_of_place (hp : m.place? cpu = some place) (msr : UInt32) :
    (rdmsr cpu msr m).1 =
      (pread place msr.toNat registerBytes m).1.bind fun bytes =>
        if bytes.length = registerBytes then .ok (UInt64.ofNat (ofLittleEndian bytes))
        else .error (.other .unexpectedEof
          ("short read of msr " ++ Text.hex msr.toNat ++ " on cpu " ++ toString cpu)) := by
  rw [(reaches_of_place hp).read]
  rfl

/-- To read a register changes no file. -/
theorem sameFiles_rdmsr (ha : m.FilesApart) (cpu : Nat) (msr : UInt32) :
    m.SameFiles (rdmsr cpu msr m).2 := by
  cases hp : m.place? cpu with
  | none =>
    obtain ⟨bank, hb⟩ := ha.bank
    rw [(refuses_of_no_place hb hp).read]
    exact ⟨rfl, rfl⟩
  | some place =>
    rw [(reaches_of_place hp).read]
    obtain ⟨hbank, hfiles⟩ := sameFiles_readFrom place cpu msr m
    exact ⟨hbank, hfiles⟩

/-- Without an open node nothing is written. -/
theorem wrmsr_of_no_place (ha : m.FilesApart) (h : m.place? cpu = none) (msr : UInt32)
    (value : UInt64) :
    (wrmsr cpu msr value m).1 = .error (.os Errno.enxio) ∧
      m.SameFiles (wrmsr cpu msr value m).2 := by
  obtain ⟨bank, hb⟩ := ha.bank
  rw [(refuses_of_no_place hb h).write]
  exact ⟨rfl, rfl, rfl⟩

/-- What a write leaves of the files: those of the other cpus as they are, and its own with the
bytes that it moved. -/
structure Wrote (m : Machine) (cpu : Nat) (msr : UInt32) (value : UInt64) (file : ByteFile)
    (m' : Machine) : Prop where
  apart : m'.FilesApart
  own : m'.file? cpu = some (file.write msr.toNat
    ((littleEndian registerBytes value.toNat).take (m.bytesMoved cpu msr value)))
  others : ∀ c, c ≠ cpu → m'.file? c = m.file? c

theorem FilesApart.exists_file (ha : m.FilesApart) (h : m.place? cpu = some place) :
    ∃ file, m.files.node? place = some (.bytes file) ∧ m.file? cpu = some file ∧ file.Trimmed := by
  obtain ⟨file, hf, ht⟩ := ha.bytes cpu place h
  exact ⟨file, hf, file?_eq_some h hf, ht⟩

theorem FilesApart.bytesMoved_le (ha : m.FilesApart) (cpu : Nat) (msr : UInt32)
    (value : UInt64) : m.bytesMoved cpu msr value ≤ registerBytes := by
  cases hp : m.place? cpu with
  | none =>
    rw [bytesMoved, hp]
    exact Nat.zero_le _
  | some place =>
    obtain ⟨file, hf, -⟩ := ha.exists_file hp
    rw [bytesMoved_of_place hp]
    rcases pwrite_of_bytes hf msr.toNat (littleEndian registerBytes value.toNat) with
      ⟨e, hw⟩ | ⟨n, hn, hw⟩
    · rw [hw]
      exact Nat.zero_le _
    · rw [hw]
      exact Nat.le_trans hn (Nat.le_of_eq (length_littleEndian _ _))

/-- A file that takes the place of another changes the file of its cpu alone. -/
theorem FilesApart.replaced (ha : m.FilesApart) (hp : m.place? cpu = some place)
    (hbank : m'.bank = m.bank) {file' : ByteFile} (ht : file'.Trimmed)
    (hfiles : m'.files = m.files.insert place (.bytes file')) :
    m'.FilesApart ∧ m'.file? cpu = some file' ∧ ∀ c, c ≠ cpu → m'.file? c = m.file? c := by
  have hplace : ∀ c, m'.place? c = m.place? c := fun c => by
    rw [Machine.place?, hbank, Machine.place?]
  have hnode : ∀ place', m'.files.node? place' =
      if place' = place then some (.bytes file') else m.files.node? place' := fun place' => by
    rw [hfiles, FileTree.node?_insert]
  refine ⟨⟨?_, fun c place' hp' => ?_, fun c c' place' hc hc' => ?_⟩, ?_, fun c hc => ?_⟩
  · obtain ⟨bank, hb⟩ := ha.bank
    exact ⟨bank, hbank.trans hb⟩
  · rw [hnode]
    split
    · exact ⟨file', rfl, ht⟩
    · exact ha.bytes c place' ((hplace c).symm.trans hp')
  · exact ha.apart c c' place' ((hplace c).symm.trans hc) ((hplace c').symm.trans hc')
  · exact file?_eq_some ((hplace cpu).trans hp) (by rw [hnode, if_pos rfl])
  · rw [Machine.file?, hplace, Machine.file?]
    cases hpc : m.place? c with
    | none => rfl
    | some place' =>
      -- another cpu has another place, so the new file is not in it
      have hne : place' ≠ place := fun he => hc (ha.apart c cpu place (he ▸ hpc) hp)
      rw [Option.bind_some, Option.bind_some, hnode, if_neg hne]

theorem SameFiles.wrote {m'' : Machine} (h : m'.SameFiles m'')
    (hw : m.Wrote cpu msr value file m') : m.Wrote cpu msr value file m'' where
  apart := h.apart hw.apart
  own := (h.file? cpu).trans hw.own
  others c hc := (h.file? c).trans (hw.others c hc)

/-- The bytes that a transfer moves are in the file of its cpu, whether it moves all of them or
not. -/
theorem FilesApart.wrote_pwrite (ha : m.FilesApart) (hp : m.place? cpu = some place)
    (hf : m.files.node? place = some (.bytes file)) (ht : file.Trimmed) (msr : UInt32)
    (value : UInt64) :
    m.Wrote cpu msr value file
      (pwrite place msr.toNat (littleEndian registerBytes value.toNat) m).2 := by
  have hmoved := bytesMoved_of_place hp msr value
  rcases pwrite_of_bytes hf msr.toNat (littleEndian registerBytes value.toNat) with
    ⟨e, hw⟩ | ⟨n, -, hw⟩
  · have hnone : m.bytesMoved cpu msr value = 0 := by rw [hmoved, hw]; rfl
    have hsame : m.SameFiles (trip .pwrite m).2 := ⟨rfl, rfl⟩
    rw [hw]
    refine ⟨hsame.apart ha, ?_, fun c _ => hsame.file? c⟩
    rw [hnone, List.take_zero, ByteFile.write_nil]
    exact (hsame.file? cpu).trans (file?_eq_some hp hf)
  · have hsome : m.bytesMoved cpu msr value = n := by rw [hmoved, hw]; rfl
    rw [hw]
    let moved : Machine := { (trip .pwrite m).2 with
      files := m.files.insert place (.bytes (file.write msr.toNat
        ((littleEndian registerBytes value.toNat).take n))) }
    have hbank : moved.bank = m.bank := rfl
    obtain ⟨hapart, hown, hothers⟩ := ha.replaced hp hbank (ht.write _ _) rfl
    refine ⟨hapart, ?_, hothers⟩
    rw [hsome]
    exact hown

/-! ## Whole accesses -/

/-- A read is whole or fails. It succeeds exactly when its transfer moves all bytes of the register,
with their value, and those are then all in the file of the cpu. -/
structure WholeRead (m : Machine) (cpu : Nat) (msr : UInt32) : Prop where
  whole : ∀ v, (rdmsr cpu msr m).1 = .ok v ↔
    ∃ place bytes, m.place? cpu = some place ∧
      (pread place msr.toNat registerBytes m).1 = .ok bytes ∧ bytes.length = registerBytes ∧
        v = UInt64.ofNat (ofLittleEndian bytes)
  value : ∀ v, (rdmsr cpu msr m).1 = .ok v →
    ∃ file, m.file? cpu = some file ∧ msr.toNat + registerBytes ≤ file.size ∧
      v.toNat = file.word msr.toNat
  files : ∀ c, (rdmsr cpu msr m).2.file? c = m.file? c

/-- A write is whole or fails. It succeeds exactly when its transfer moves all bytes of the
register. They then hold the value, and no other byte of the file of the cpu is changed: where the
file had to be made longer the bytes before the register are zero. -/
structure WholeWrite (m : Machine) (cpu : Nat) (msr : UInt32) (value : UInt64) : Prop where
  whole : (wrmsr cpu msr value m).1 = .ok () ↔
    ∃ place, m.place? cpu = some place ∧
      (pwrite place msr.toNat (littleEndian registerBytes value.toNat) m).1 = .ok registerBytes
  written : (wrmsr cpu msr value m).1 = .ok () →
    ∃ file file', m.file? cpu = some file ∧ (wrmsr cpu msr value m).2.file? cpu = some file' ∧
      file'.word msr.toNat = value.toNat ∧
      file'.size = max file.size (msr.toNat + registerBytes) ∧
      ∀ k, ¬(msr.toNat ≤ k ∧ k < msr.toNat + registerBytes) →
        file'.byte k = if k < file.size then file.byte k else 0
  others : ∀ c, c ≠ cpu → (wrmsr cpu msr value m).2.file? c = m.file? c

theorem FilesApart.wholeRead (ha : m.FilesApart) (cpu : Nat) (msr : UInt32) :
    m.WholeRead cpu msr := by
  have hwhole : ∀ v, (Machine.rdmsr cpu msr m).1 = .ok v ↔
      ∃ place bytes, m.place? cpu = some place ∧
        (pread place msr.toNat registerBytes m).1 = .ok bytes ∧ bytes.length = registerBytes ∧
          v = UInt64.ofNat (ofLittleEndian bytes) := by
    intro v
    cases hp : m.place? cpu with
    | none =>
      obtain ⟨bank, hb⟩ := ha.bank
      simp [(refuses_of_no_place hb hp).read]
    | some place =>
      rw [rdmsr_of_place hp, bind_ite_eq_ok]
      simp
  refine ⟨hwhole, fun v hv => ?_, fun c => (sameFiles_rdmsr ha cpu msr).file? c⟩
  obtain ⟨place, bytes, hp, hread, hlength, rfl⟩ := (hwhole v).mp hv
  obtain ⟨file, hf, hfile, -⟩ := ha.exists_file hp
  rw [pread_of_bytes hf] at hread
  cases hcut : NodeBank.cutShort (trip .pread m).1 registerBytes with
  | error e => rw [hcut] at hread; cases hread
  | ok count =>
    rw [hcut] at hread
    obtain rfl : file.read msr.toNat count = bytes := Except.ok.inj hread
    obtain ⟨hsize, hword⟩ := ByteFile.ofLittleEndian_read hlength (NodeBank.cutShort_le hcut)
    have hlt : ofLittleEndian (file.read msr.toNat count) < 2 ^ 64 := by
      have h := ofLittleEndian_lt (file.read msr.toNat count)
      rwa [hlength] at h
    refine ⟨file, hfile, hsize, ?_⟩
    rw [UInt64.toNat_ofNat', Nat.mod_eq_of_lt hlt, hword]

theorem FilesApart.wholeWrite (ha : m.FilesApart) (cpu : Nat) (msr : UInt32) (value : UInt64) :
    m.WholeWrite cpu msr value := by
  cases hp : m.place? cpu with
  | none =>
    obtain ⟨he, hsame⟩ := wrmsr_of_no_place ha hp msr value
    refine ⟨?_, fun h => ?_, fun c _ => hsame.file? c⟩
    · simp [he, hp]
    · cases he.symm.trans h
  | some place =>
    obtain ⟨file, hf, hfile, ht⟩ := ha.exists_file hp
    obtain ⟨hresult, hsame⟩ := wrmsr_of_place hp msr value
    have hwhole : (Machine.wrmsr cpu msr value m).1 = .ok () ↔
        (pwrite place msr.toNat (littleEndian registerBytes value.toNat) m).1 =
          .ok registerBytes := by
      rw [hresult, bind_ite_eq_ok]
      simp
    obtain ⟨-, hown, hothers⟩ := hsame.wrote (ha.wrote_pwrite hp hf ht msr value)
    refine ⟨by simp [hwhole, hp], fun h => ?_, hothers⟩
    have hmoved : m.bytesMoved cpu msr value = registerBytes := by
      rw [bytesMoved_of_place hp, hwhole.mp h]
      rfl
    have hlength := length_littleEndian registerBytes value.toNat
    rw [hmoved, List.take_of_length_le (Nat.le_of_eq hlength)] at hown
    refine ⟨file, _, hfile, hown, ?_, ?_, fun k hk => ?_⟩
    · exact ByteFile.word_write file msr.toNat value.toNat_lt
    · rw [ByteFile.size_write (List.ne_nil_of_length_pos (by rw [hlength]; decide)), hlength]
    · rw [ByteFile.byte_write_of_not (hlength ▸ hk)]
      split
      · rfl
      · exact ht k (Nat.not_lt.mp ‹_›)

/-- What a write may have moved shows in the bytes of its register alone. -/
theorem FilesApart.wrmsr_bytes (ha : m.FilesApart) (h : m.file? cpu = some file) (cpu' : Nat)
    (msr : UInt32) (value : UInt64) :
    ∃ file', (Machine.wrmsr cpu' msr value m).2.file? cpu = some file' ∧ file.size ≤ file'.size ∧
      ∀ k, file'.byte k = file.byte k ∨
        cpu' = cpu ∧ msr.toNat ≤ k ∧ k < msr.toNat + m.bytesMoved cpu' msr value := by
  cases hp : m.place? cpu' with
  | none =>
    obtain ⟨-, hsame⟩ := wrmsr_of_no_place ha hp msr value
    exact ⟨file, (hsame.file? cpu).trans h, Nat.le_refl _, fun _ => .inl rfl⟩
  | some place =>
    obtain ⟨own, hf, hown, ht⟩ := ha.exists_file hp
    obtain ⟨-, hsame⟩ := wrmsr_of_place hp msr value
    obtain ⟨-, hwritten, hothers⟩ := hsame.wrote (ha.wrote_pwrite hp hf ht msr value)
    by_cases hc : cpu = cpu'
    · subst hc
      obtain rfl : own = file := Option.some.inj (hown.symm.trans h)
      refine ⟨_, hwritten, ByteFile.size_le_size_write _ _ _, fun k => ?_⟩
      by_cases hk : msr.toNat ≤ k ∧ k < msr.toNat + m.bytesMoved cpu msr value
      · exact .inr ⟨rfl, hk⟩
      · refine .inl (ByteFile.byte_write_of_not fun hw => hk ⟨hw.1, ?_⟩)
        rw [List.length_take] at hw
        omega
    · exact ⟨file, (hothers cpu hc).trans h, Nat.le_refl _, fun _ => .inl rfl⟩

theorem FilesApart.wrmsr (ha : m.FilesApart) (cpu : Nat) (msr : UInt32) (value : UInt64) :
    (Machine.wrmsr cpu msr value m).2.FilesApart := by
  cases hp : m.place? cpu with
  | none => exact (wrmsr_of_no_place ha hp msr value).2.apart ha
  | some place =>
    obtain ⟨file, hf, -, ht⟩ := ha.exists_file hp
    exact ((wrmsr_of_place hp msr value).2.wrote (ha.wrote_pwrite hp hf ht msr value)).apart

end Machine

end BranchTrace
