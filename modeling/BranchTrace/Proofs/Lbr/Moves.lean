import BranchTrace.Proofs.Machine.Journal
import BranchTrace.Proofs.Store.Update

/-!
# Moving contexts

What saving and restoring a context comes to on any machine. However it ends, a save changes
neither whose context it is nor how many branches it holds (`save_alike`), and both fail only
where a register access did (`save_accounts`, `restore_accounts`).
-/

namespace BranchTrace

namespace Lbr

theorem readBranches_cons (cpu : Nat) (index : UInt32) (branch : Branch) (rest : List Branch)
    (m : Machine) :
    readBranches cpu index (branch :: rest) m =
      match Machine.rdmsr cpu (Msr.source index) m with
      | (.error e, m) => ((.error e, branch :: rest), m)
      | (.ok source, m) =>
        match Machine.rdmsr cpu (Msr.target index) m with
        | (.error e, m) => ((.error e, { branch with source } :: rest), m)
        | (.ok target, m) =>
          let ((r, rest), m) := readBranches cpu (index + 1) rest m
          ((r, { source, target } :: rest), m) := by
  rw [readBranches, stateM_bind_apply, ExceptT.run]
  rcases Machine.rdmsr cpu (Msr.source index) m with ⟨_ | _, m⟩
  · rfl
  · dsimp only
    rw [stateM_bind_apply, ExceptT.run]
    rcases Machine.rdmsr cpu (Msr.target index) m with ⟨_ | _, m⟩
    · rfl
    · rfl

theorem save_apply (cpu : Nat) (context : Context) (m : Machine) :
    save cpu context m =
      match Machine.rdmsr cpu Msr.select m with
      | (.error e, m) => ((.error e, context), m)
      | (.ok bits, m) =>
        match Machine.rdmsr cpu Msr.tos m with
        | (.error e, m) => ((.error e, { context with select := ⟨bits⟩ }), m)
        | (.ok tos, m) =>
          let ((r, entries), m) := readBranches cpu 0 context.entries m
          ((r, { context with select := ⟨bits⟩, tos, entries }), m) := by
  rw [save, stateM_bind_apply, ExceptT.run]
  rcases Machine.rdmsr cpu Msr.select m with ⟨_ | _, m⟩
  · rfl
  · dsimp only
    rw [stateM_bind_apply, ExceptT.run]
    rcases Machine.rdmsr cpu Msr.tos m with ⟨_ | _, m⟩
    · rfl
    · rfl

section Related

variable {R : Machine → Machine → Prop} (hrefl : ∀ m, R m m)
  (htrans : ∀ {m m' m''}, R m m' → R m' m'' → R m m'') {cpu : Nat}
  (hread : ∀ msr m, R m (Machine.rdmsr cpu msr m).2)
include hrefl htrans hread

theorem readBranches_related (index : UInt32) (branches : List Branch) (m : Machine) :
    R m (readBranches cpu index branches m).2 := by
  induction branches generalizing index m with
  | nil => exact hrefl m
  | cons branch rest ih =>
    have hs := hread (Msr.source index) m
    rw [readBranches_cons]
    generalize Machine.rdmsr cpu (Msr.source index) m = read at hs ⊢
    obtain ⟨e | source, m'⟩ := read
    · exact hs
    have ht := hread (Msr.target index) m'
    dsimp only
    generalize Machine.rdmsr cpu (Msr.target index) m' = read at ht ⊢
    obtain ⟨e | target, m''⟩ := read
    · exact htrans hs ht
    · exact htrans hs (htrans ht (ih (index + 1) m''))

/-- What relates the machines around every read relates those around a save, however it ends. -/
theorem save_related (context : Context) (m : Machine) : R m (save cpu context m).2 := by
  have hs := hread Msr.select m
  rw [save_apply]
  generalize Machine.rdmsr cpu Msr.select m = read at hs ⊢
  obtain ⟨e | bits, m'⟩ := read
  · exact hs
  have ht := hread Msr.tos m'
  dsimp only
  generalize Machine.rdmsr cpu Msr.tos m' = read at ht ⊢
  obtain ⟨e | tos, m''⟩ := read
  · exact htrans hs ht
  · exact htrans hs (htrans ht (readBranches_related hrefl htrans hread 0 context.entries m''))

end Related

theorem length_readBranches (cpu : Nat) (index : UInt32) (branches : List Branch) (m : Machine) :
    (readBranches cpu index branches m).1.2.length = branches.length := by
  induction branches generalizing index m with
  | nil => rfl
  | cons branch rest ih =>
    rw [readBranches_cons]
    rcases Machine.rdmsr cpu (Msr.source index) m with ⟨_ | source, m⟩
    · rfl
    dsimp only
    rcases Machine.rdmsr cpu (Msr.target index) m with ⟨_ | target, m⟩
    · rfl
    · exact congrArg (· + 1) (ih (index + 1) m)

/-- A torn save leaves a context of the same process, with as many branches as before. -/
theorem save_alike (cpu : Nat) (context : Context) (m : Machine) :
    context.Alike (save cpu context m).1.2 := by
  rw [save_apply]
  rcases Machine.rdmsr cpu Msr.select m with ⟨_ | bits, m⟩
  · exact ⟨rfl, rfl, rfl⟩
  dsimp only
  rcases Machine.rdmsr cpu Msr.tos m with ⟨_ | tos, m⟩
  · exact ⟨rfl, rfl, rfl⟩
  · exact ⟨rfl, rfl, length_readBranches cpu 0 context.entries m⟩

theorem readBranches_accounts (cpu : Nat) (index : UInt32) (branches : List Branch)
    (m : Machine) :
    m.Accounts (readBranches cpu index branches m).1.1 (readBranches cpu index branches m).2 := by
  induction branches generalizing index m with
  | nil => exact Machine.accounts_ok rfl
  | cons branch rest ih =>
    have hs := Machine.rdmsr_accounts cpu (Msr.source index) m
    rw [readBranches_cons]
    generalize Machine.rdmsr cpu (Msr.source index) m = read at hs ⊢
    obtain ⟨e | source, m'⟩ := read
    · exact hs.imp fun _ he => by cases he; rfl
    dsimp only
    have ht := Machine.rdmsr_accounts cpu (Msr.target index) m'
    generalize Machine.rdmsr cpu (Msr.target index) m' = read at ht ⊢
    obtain ⟨e | target, m''⟩ := read
    · exact hs.trans (ht.imp fun _ he => by cases he; rfl)
    · exact hs.trans (ht.trans (ih (index + 1) m''))

theorem save_accounts (cpu : Nat) (context : Context) (m : Machine) :
    m.Accounts (save cpu context m).1.1 (save cpu context m).2 := by
  have hs := Machine.rdmsr_accounts cpu Msr.select m
  rw [save_apply]
  generalize Machine.rdmsr cpu Msr.select m = read at hs ⊢
  obtain ⟨e | bits, m'⟩ := read
  · exact hs.imp fun _ he => by cases he; rfl
  dsimp only
  have ht := Machine.rdmsr_accounts cpu Msr.tos m'
  generalize Machine.rdmsr cpu Msr.tos m' = read at ht ⊢
  obtain ⟨e | tos, m''⟩ := read
  · exact hs.trans (ht.imp fun _ he => by cases he; rfl)
  · exact hs.trans (ht.trans (readBranches_accounts cpu 0 context.entries m''))

theorem restore_accounts (cpu : Nat) (context : Context) (m : Machine) :
    m.Accounts (restore cpu context m).1 (restore cpu context m).2 :=
  Machine.wrmsrAll_accounts cpu context.writes m

end Lbr

end BranchTrace
