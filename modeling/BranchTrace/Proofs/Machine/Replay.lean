import BranchTrace.Proofs.Machine.Journal

/-!
# What the journal tells of the registers

A software bank is as the successful writes in the journal left it (`SoftBank.replay`), so what
became of its registers can be read off the journal alone. `Machine.Writes` says so of the way from
one machine to another, together with a bound on the writes that were tried on it; it holds of the
single accesses and composes.

Main statements: `SoftBank.read_replay`, a register holds what one of the writes put there, or what
it held before if none did; `Machine.Writes.confined`, registers that may not be written keep their
values.
-/

namespace BranchTrace

/-! ## Replaying a journal -/

/-- An access wrote a register: on this cpu, or on one that shares its file. -/
def Access.Sets (access : Access) (bank : SoftBank) (cpu : Nat) (msr : UInt32) : Prop :=
  access.write = true ∧ access.value.isSome ∧ bank.file access.cpu = bank.file cpu ∧
    access.msr = msr

namespace SoftBank

/-- The bank after an access. -/
def after (bank : SoftBank) (access : Access) : SoftBank :=
  match access.write, access.value with
  | true, some value => bank.write access.cpu access.msr value
  | _, _ => bank

/-- The bank after the accesses of a journal, which stand newest first. -/
def replay (bank : SoftBank) (accesses : List Access) : SoftBank :=
  accesses.foldr (fun access bank => bank.after access) bank

theorem replay_append (bank : SoftBank) (later earlier : List Access) :
    bank.replay (later ++ earlier) = (bank.replay earlier).replay later :=
  List.foldr_append

@[simp] theorem files_after (bank : SoftBank) (access : Access) :
    (bank.after access).files = bank.files := by
  unfold after
  split <;> rfl

@[simp] theorem files_replay (bank : SoftBank) (accesses : List Access) :
    (bank.replay accesses).files = bank.files := by
  induction accesses with
  | nil => rfl
  | cons access earlier ih => exact (files_after _ access).trans ih

theorem file_replay (bank : SoftBank) (accesses : List Access) (cpu : Nat) :
    (bank.replay accesses).file cpu = bank.file cpu := by
  rw [file, files_replay, file]

theorem read_after (bank : SoftBank) (access : Access) (cpu : Nat) (msr : UInt32) :
    (access.Sets bank cpu msr ∧ access.value = some ((bank.after access).read cpu msr)) ∨
      (¬access.Sets bank cpu msr ∧ (bank.after access).read cpu msr = bank.read cpu msr) := by
  obtain ⟨write, acpu, amsr, value, allowed, cur⟩ := access
  unfold Access.Sets after
  cases write with
  | false => exact .inr ⟨by simp, rfl⟩
  | true =>
    cases value with
    | none => exact .inr ⟨by simp, rfl⟩
    | some value =>
      dsimp only
      rw [read_write]
      split
      · exact .inl ⟨⟨rfl, rfl, ‹_ ∧ _›⟩, rfl⟩
      · exact .inr ⟨fun h => ‹¬_› h.2.2, rfl⟩

/-- A register holds what one of the writes put there, or what it held before if there was none. -/
theorem read_replay (bank : SoftBank) (accesses : List Access) (cpu : Nat) (msr : UInt32) :
    (∃ access ∈ accesses, access.Sets bank cpu msr ∧
        access.value = some ((bank.replay accesses).read cpu msr)) ∨
      ((∀ access ∈ accesses, ¬access.Sets bank cpu msr) ∧
        (bank.replay accesses).read cpu msr = bank.read cpu msr) := by
  induction accesses with
  | nil => exact .inr ⟨nofun, rfl⟩
  | cons access earlier ih =>
    have hsets : ∀ b : Access, b.Sets (bank.replay earlier) cpu msr ↔ b.Sets bank cpu msr := by
      intro b
      rw [Access.Sets, Access.Sets, file_replay, file_replay]
    have hread : bank.replay (access :: earlier) = (bank.replay earlier).after access := rfl
    have hafter := read_after (bank.replay earlier) access cpu msr
    rw [hsets, ← hread] at hafter
    rcases hafter with ⟨hs, hv⟩ | ⟨hs, hv⟩
    · exact .inl ⟨access, List.mem_cons_self, hs, hv⟩
    · rw [hv]
      refine ih.imp ?_ ?_
      · rintro ⟨b, hb, h⟩
        exact ⟨b, List.mem_cons_of_mem _ hb, h⟩
      · exact fun h => ⟨List.forall_mem_cons.mpr ⟨hs, h.1⟩, h.2⟩

theorem read_replay_of_forall_not {bank : SoftBank} {accesses : List Access} {cpu : Nat}
    {msr : UInt32} (h : ∀ access ∈ accesses, ¬access.Sets bank cpu msr) :
    (bank.replay accesses).read cpu msr = bank.read cpu msr := by
  rcases read_replay bank accesses cpu msr with ⟨access, ha, hs, -⟩ | ⟨-, hr⟩
  · exact absurd hs (h access ha)
  · exact hr

/-- Where all writes of a register agree, it holds what they wrote. -/
theorem read_replay_of_forall {bank : SoftBank} {accesses : List Access} {cpu : Nat}
    {msr : UInt32} {value : UInt64}
    (hall : ∀ access ∈ accesses, access.Sets bank cpu msr → access.value = some value)
    (hone : ∃ access ∈ accesses, access.Sets bank cpu msr) :
    (bank.replay accesses).read cpu msr = value := by
  rcases read_replay bank accesses cpu msr with ⟨access, ha, hs, hv⟩ | ⟨hnone, -⟩
  · exact Option.some.inj (hv.symm.trans (hall access ha hs))
  · obtain ⟨access, ha, hs⟩ := hone
    exact absurd hs (hnone access ha)

end SoftBank

/-! ## Ways and their writes -/

namespace Machine

/-- The value last written to a register of a cpu, if there is one. -/
def lastWritten (m : Machine) (cpu : Nat) (msr : UInt32) : Option UInt64 :=
  m.accesses.findSome? fun access =>
    if access.write = true ∧ access.cpu = cpu ∧ access.msr = msr then access.value else none

/-- The value of a register of a cpu, where registers are kept in software. -/
def read? (m : Machine) (cpu : Nat) (msr : UInt32) : Option UInt64 :=
  match m.bank with
  | .soft bank => some (bank.read cpu msr)
  | .nodes _ => none

theorem read?_of_soft {m : Machine} {bank : SoftBank} (h : m.bank = .soft bank) (cpu : Nat)
    (msr : UInt32) : m.read? cpu msr = some (bank.read cpu msr) := by
  rw [read?, h]

theorem Untouched.read? {m m' : Machine} (h : m.Untouched m') (cpu : Nat) (msr : UInt32) :
    m'.read? cpu msr = m.read? cpu msr := by
  rw [Machine.read?, h.bank, Machine.read?]

section LastWritten

variable {m m' : Machine} {tried : List Access} {cpu : Nat} {msr : UInt32}
  (ht : m'.accesses = tried ++ m.accesses)
include ht

theorem lastWritten_of_forall_not
    (h : ∀ access ∈ tried, ¬(access.write = true ∧ access.cpu = cpu ∧ access.msr = msr)) :
    m'.lastWritten cpu msr = m.lastWritten cpu msr := by
  have hnone : tried.findSome? (fun access =>
      if access.write = true ∧ access.cpu = cpu ∧ access.msr = msr then access.value else none) =
      none :=
    List.findSome?_eq_none_iff.mpr fun access ha => if_neg (h access ha)
  rw [lastWritten, ht, List.findSome?_append, hnone, Option.none_or, lastWritten]

theorem lastWritten_of_forall {value : UInt64}
    (hall : ∀ access ∈ tried, access.msr = msr → ∀ v, access.value = some v → v = value)
    (hone : ∃ access ∈ tried, access.write = true ∧ access.cpu = cpu ∧ access.msr = msr ∧
      access.value = some value) : m'.lastWritten cpu msr = some value := by
  obtain ⟨access, ha, hw, hc, hm, hv⟩ := hone
  have hsome : (tried.findSome? fun access =>
      if access.write = true ∧ access.cpu = cpu ∧ access.msr = msr then access.value
      else none).isSome := by
    refine List.findSome?_isSome_iff.mpr ⟨access, ha, ?_⟩
    rw [if_pos ⟨hw, hc, hm⟩, hv]
    rfl
  obtain ⟨v, hfound⟩ := Option.isSome_iff_exists.mp hsome
  obtain ⟨other, ho, hvalue⟩ := List.exists_of_findSome?_eq_some hfound
  obtain ⟨⟨-, -, hmsr⟩, hvalue⟩ := Option.ite_none_right_eq_some.mp hvalue
  rw [lastWritten, ht, List.findSome?_append, hfound, hall other ho hmsr v hvalue]
  rfl

end LastWritten

/-- The journal tells all that happened to the registers on the way from one machine to another,
and every write that was tried is one that may be. -/
def Writes (may : Nat → UInt32 → Prop) (m m' : Machine) : Prop :=
  ∃ tried, m'.accesses = tried ++ m.accesses ∧
    (∀ access ∈ tried, access.write = true → may access.cpu access.msr) ∧
    ∀ bank, m.bank = .soft bank → m'.bank = .soft (bank.replay tried)

/-- No register is written. -/
abbrev Spares (m m' : Machine) : Prop :=
  m.Writes (fun _ _ => False) m'

section Writes

variable {may may' : Nat → UInt32 → Prop} {m m' m'' : Machine}

theorem Untouched.writes (h : m.Untouched m') : m.Writes may m' :=
  ⟨[], h.accesses, nofun, fun _ hb => h.bank.trans hb⟩

theorem Writes.trans (h : m.Writes may m') (h' : m'.Writes may m'') : m.Writes may m'' := by
  obtain ⟨tried, ht, hm, hb⟩ := h
  obtain ⟨tried', ht', hm', hb'⟩ := h'
  refine ⟨tried' ++ tried, by rw [ht', ht, List.append_assoc], ?_, fun bank hbank => ?_⟩
  · exact fun access ha => (List.mem_append.mp ha).elim (hm' access) (hm access)
  · rw [SoftBank.replay_append]
    exact hb' _ (hb bank hbank)

theorem Writes.mono (h : m.Writes may m') (hmay : ∀ cpu msr, may cpu msr → may' cpu msr) :
    m.Writes may' m' := by
  obtain ⟨tried, ht, hm, hb⟩ := h
  exact ⟨tried, ht, fun access ha hw => hmay _ _ (hm access ha hw), hb⟩

theorem writes_rdmsr (cpu : Nat) (msr : UInt32) (m : Machine) :
    m.Writes may (rdmsr cpu msr m).2 := by
  refine ⟨[_], (rdmsr_journal cpu msr m).1, fun access ha hw => ?_, fun bank hb => ?_⟩
  · rw [List.mem_singleton.mp ha] at hw
    cases hw
  · simp only [rdmsr, hb]
    rcases guarded_cases .rdmsr (pure (bank.read cpu msr)) m with ⟨e, faults, h⟩ | ⟨faults, h⟩
    all_goals rw [h]; exact hb

theorem writes_wrmsr {cpu : Nat} {msr : UInt32} (hmay : may cpu msr) (value : UInt64)
    (m : Machine) : m.Writes may (wrmsr cpu msr value m).2 := by
  refine ⟨[_], (wrmsr_journal cpu msr value m).1, fun access ha hw => ?_, fun bank hb => ?_⟩
  · rw [List.mem_singleton.mp ha]
    exact hmay
  · simp only [wrmsr, hb]
    rcases guarded_cases .wrmsr
      (fun m => (.ok (), { m with bank := .soft (bank.write cpu msr value) })) m with
      ⟨e, faults, h⟩ | ⟨faults, h⟩
    · rw [h]
      exact hb
    · rw [h]
      rfl

theorem writes_wrmsrAll {cpu : Nat} {writes : List (UInt32 × UInt64)}
    (hmay : ∀ w ∈ writes, may cpu w.1) (m : Machine) :
    m.Writes may (wrmsrAll cpu writes m).2 := by
  induction writes generalizing m with
  | nil => exact Untouched.writes ⟨rfl, rfl⟩
  | cons w writes ih =>
    have hw : m.Writes may (wrmsr cpu w.1 w.2 m).2 :=
      writes_wrmsr (hmay w List.mem_cons_self) w.2 m
    rw [wrmsrAll, Action.bind_apply]
    rcases h : wrmsr cpu w.1 w.2 m with ⟨e | _, m'⟩
    · rwa [h] at hw
    · rw [h] at hw
      exact hw.trans (ih (fun v hv => hmay v (List.mem_cons_of_mem _ hv)) m')

/-- A register that may not be written on any cpu with its file keeps its value. -/
theorem Writes.read?_of_not (h : m.Writes may m') {bank : SoftBank} (hb : m.bank = .soft bank)
    {cpu : Nat} {msr : UInt32} (hn : ∀ c, bank.file c = bank.file cpu → ¬may c msr) :
    m'.read? cpu msr = some (bank.read cpu msr) := by
  obtain ⟨tried, -, hm, hbank⟩ := h
  rw [read?_of_soft (hbank bank hb)]
  refine congrArg some (SoftBank.read_replay_of_forall_not fun access ha hs => ?_)
  obtain ⟨hwrite, -, hfile, rfl⟩ := hs
  exact hn access.cpu hfile (hm access ha hwrite)

/-- Registers are written in the file of the cpu that the thread is on, and such registers alone. -/
structure Confined (registers : UInt32 → Prop) (m m' : Machine) : Prop where
  accesses : ∃ tried, m'.accesses = tried ++ m.accesses ∧
    ∀ access ∈ tried, access.write = true → access.cpu = m.cur ∧ registers access.msr
  bank : ∀ bank, m.bank = .soft bank → ∃ bank', m'.bank = .soft bank' ∧ bank'.files = bank.files ∧
    ∀ cpu msr, ¬(bank.file cpu = bank.file m.cur ∧ registers msr) →
      bank'.read cpu msr = bank.read cpu msr

theorem Writes.confined {registers : UInt32 → Prop}
    (h : m.Writes (fun cpu msr => cpu = m.cur ∧ registers msr) m') : m.Confined registers m' := by
  obtain ⟨tried, ht, hm, hb⟩ := h
  refine ⟨⟨tried, ht, hm⟩, fun bank hbank => ⟨_, hb bank hbank, SoftBank.files_replay .., ?_⟩⟩
  intro cpu msr hn
  refine SoftBank.read_replay_of_forall_not fun access ha hs => hn ?_
  obtain ⟨hwrite, -, hfile, rfl⟩ := hs
  obtain ⟨hcpu, hregister⟩ := hm access ha hwrite
  exact ⟨by rw [← hfile, hcpu], hregister⟩

end Writes

end Machine

end BranchTrace
