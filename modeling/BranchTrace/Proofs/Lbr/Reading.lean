import BranchTrace.Proofs.Lbr.Registers

/-!
# Reading a stack into a context

A save reads the registers of a context one after the other, in the order in which a restore writes
them, and goes on until all are read or one fails. What was read so far has then taken the place
of what the context held for these registers (`Context.filled`), and the rest is as it was.

Main statements: `Lbr.save_eq`, a save by what it read; `Lbr.accesses_readAll`, what it tried;
`Context.values_filled`, what a restore of the context writes afterwards.
-/

namespace BranchTrace

/-- The registers that hold a context, in the order in which they are read and written. -/
def Context.registers (context : Context) : List UInt32 :=
  context.writes.map (·.1)

/-- What a context holds for its registers, in the same order. -/
def Context.values (context : Context) : List UInt64 :=
  context.writes.map (·.2)

/-- Branches after some of their places were read, by turns a source and a target. -/
def filledBranches : List UInt64 → List Branch → List Branch
  | [], branches => branches
  | _, [] => []
  | [source], branch :: rest => { branch with source } :: rest
  | source :: target :: values, _ :: rest => { source, target } :: filledBranches values rest

/-- A context after some of its registers were read: the first ones in order. -/
def Context.filled (context : Context) : List UInt64 → Context
  | [] => context
  | [bits] => { context with select := ⟨bits⟩ }
  | bits :: tos :: values =>
    { context with select := ⟨bits⟩, tos, entries := filledBranches values context.entries }

/-! ## What is filled -/

@[simp] theorem filledBranches_nil (branches : List Branch) :
    filledBranches [] branches = branches := by
  cases branches <;> rfl

theorem length_branchWrites (index : UInt32) (branches : List Branch) :
    (branchWrites index branches).length = 2 * branches.length := by
  induction branches generalizing index with
  | nil => rfl
  | cons branch rest ih =>
    simp only [branchWrites, List.length_cons, ih]
    omega

theorem values_filledBranches (index : UInt32) (values : List UInt64) (branches : List Branch)
    (h : values.length ≤ 2 * branches.length) :
    (branchWrites index (filledBranches values branches)).map (·.2) =
      values ++ ((branchWrites index branches).map (·.2)).drop values.length := by
  induction branches generalizing index values with
  | nil =>
    obtain rfl : values = [] := List.eq_nil_of_length_eq_zero (by simpa using h)
    rfl
  | cons branch rest ih =>
    match values with
    | [] => rfl
    | [source] => rfl
    | source :: target :: values =>
      have hrest : values.length ≤ 2 * rest.length := by
        simp only [List.length_cons] at h
        omega
      simp only [filledBranches, branchWrites, List.map_cons, ih (index + 1) values hrest,
        List.length_cons, List.drop_succ_cons, List.cons_append]

theorem filledBranches_eq_self {index : UInt32} {values : List UInt64} {branches : List Branch}
    (h : values <+: (branchWrites index branches).map (·.2)) :
    filledBranches values branches = branches := by
  induction branches generalizing index values with
  | nil => cases values <;> rfl
  | cons branch rest ih =>
    match values with
    | [] => rfl
    | [source] =>
      obtain ⟨rfl, -⟩ := List.cons_prefix_cons.mp h
      rfl
    | source :: target :: values =>
      obtain ⟨hsource, h⟩ := List.cons_prefix_cons.mp h
      obtain ⟨htarget, h⟩ := List.cons_prefix_cons.mp h
      rw [filledBranches, ih h, hsource, htarget]

namespace Context

theorem length_registers (context : Context) :
    context.registers.length = 2 + 2 * context.capacity := by
  rw [registers, List.length_map, writes, List.length_cons, List.length_cons, length_branchWrites,
    capacity]
  omega

/-- A restore of a filled context writes what was read, and from there on what it held before. -/
theorem values_filled (context : Context) {values : List UInt64}
    (h : values.length ≤ context.registers.length) :
    (context.filled values).values = values ++ context.values.drop values.length := by
  rw [length_registers] at h
  match values with
  | [] => rfl
  | [bits] => rfl
  | bits :: tos :: values =>
    have hrest : values.length ≤ 2 * context.entries.length := by
      simp only [List.length_cons, capacity] at h
      omega
    show bits :: tos :: (branchWrites 0 (filledBranches values context.entries)).map (·.2) = _
    rw [values_filledBranches 0 values context.entries hrest]
    rfl

/-- A context stays as it was if what was read is what it held. -/
theorem filled_eq_self (context : Context) {values : List UInt64}
    (h : values.length ≤ context.registers.length) :
    context.filled values = context ↔ values <+: context.values := by
  constructor
  · intro he
    have hv := context.values_filled h
    rw [he] at hv
    exact ⟨_, hv.symm⟩
  · intro hp
    match values with
    | [] => rfl
    | [bits] =>
      obtain ⟨rfl, -⟩ := List.cons_prefix_cons.mp hp
      rfl
    | bits :: tos :: values =>
      obtain ⟨hbits, hp⟩ := List.cons_prefix_cons.mp hp
      obtain ⟨htos, hp⟩ := List.cons_prefix_cons.mp hp
      rw [filled, filledBranches_eq_self hp, hbits, htos]

end Context

/-! ## Reading -/

namespace Access

/-- An attempt of a thread that is pinned to a cpu to read a register there. -/
def reading (cpu : Nat) (msr : UInt32) (value : Option UInt64) : Access :=
  { write := false, cpu, msr, value, allowed := [cpu], cur := cpu }

/-- The attempts to read registers that gave some values: if these are fewer, the next attempt
failed, and it was the last. -/
def readings (cpu : Nat) : List UInt32 → List UInt64 → List Access
  | [], _ => []
  | msr :: _, [] => [reading cpu msr none]
  | msr :: msrs, value :: values => reading cpu msr (some value) :: readings cpu msrs values

end Access

namespace Lbr

/-- Reads registers of a cpu in order, up to the first failure: how that ended, and what was read
before. -/
def readAll (cpu : Nat) :
    List UInt32 → StateM Machine (Except SystemError Unit × List UInt64)
  | [], m => ((.ok (), []), m)
  | msr :: rest, m =>
    match Machine.rdmsr cpu msr m with
    | (.error e, m) => ((.error e, []), m)
    | (.ok value, m) =>
      let ((r, values), m) := readAll cpu rest m
      ((r, value :: values), m)

theorem readBranches_eq (cpu : Nat) (index : UInt32) (branches : List Branch) (m : Machine) :
    readBranches cpu index branches m =
      let read := readAll cpu ((branchWrites index branches).map (·.1)) m
      ((read.1.1, filledBranches read.1.2 branches), read.2) := by
  induction branches generalizing index m with
  | nil => rfl
  | cons branch rest ih =>
    simp only [readBranches_cons, branchWrites, List.map_cons, readAll]
    rcases Machine.rdmsr cpu (Msr.source index) m with ⟨e | source, m⟩
    · rfl
    dsimp only
    rcases Machine.rdmsr cpu (Msr.target index) m with ⟨e | target, m⟩
    · rfl
    · dsimp only
      rw [ih]
      rfl

/-- A save reads the registers of the context and fills it with what was read. -/
theorem save_eq (cpu : Nat) (context : Context) (m : Machine) :
    save cpu context m =
      let read := readAll cpu context.registers m
      ((read.1.1, context.filled read.1.2), read.2) := by
  simp only [save_apply, Context.registers, Context.writes, List.map_cons, readAll]
  rcases Machine.rdmsr cpu Msr.select m with ⟨e | bits, m⟩
  · rfl
  dsimp only
  rcases Machine.rdmsr cpu Msr.tos m with ⟨e | tos, m⟩
  · rfl
  · dsimp only
    rw [readBranches_eq]
    rfl

theorem length_readAll_le (cpu : Nat) (msrs : List UInt32) (m : Machine) :
    (readAll cpu msrs m).1.2.length ≤ msrs.length := by
  induction msrs generalizing m with
  | nil => exact Nat.le_refl 0
  | cons msr rest ih =>
    rw [readAll]
    rcases Machine.rdmsr cpu msr m with ⟨e | value, m⟩
    · exact Nat.zero_le _
    · exact Nat.succ_le_succ (ih m)

/-- Reading succeeds if it gets to the end. -/
theorem readAll_eq_ok (cpu : Nat) (msrs : List UInt32) (m : Machine) :
    (readAll cpu msrs m).1.1 = .ok () ↔ (readAll cpu msrs m).1.2.length = msrs.length := by
  induction msrs generalizing m with
  | nil => exact iff_of_true rfl rfl
  | cons msr rest ih =>
    rw [readAll]
    rcases Machine.rdmsr cpu msr m with ⟨e | value, m⟩
    · exact iff_of_false nofun (Nat.succ_ne_zero _).symm
    · exact (ih m).trans Nat.succ_inj.symm

/-- A save succeeds if it reads every register. -/
theorem save_eq_ok (cpu : Nat) (context : Context) (m : Machine) :
    (save cpu context m).1.1 = .ok () ↔
      (readAll cpu context.registers m).1.2.length = context.registers.length := by
  rw [save_eq]
  exact readAll_eq_ok cpu context.registers m

/-- What was tried is in the journal, with the values that were read. -/
theorem accesses_readAll (cpu : Nat) (msrs : List UInt32) {m : Machine} (hallowed : m.allowed = [cpu])
    (hcur : m.cur = cpu) :
    (readAll cpu msrs m).2.accesses =
      (Access.readings cpu msrs (readAll cpu msrs m).1.2).reverse ++ m.accesses := by
  induction msrs generalizing m with
  | nil => rfl
  | cons msr rest ih =>
    obtain ⟨hjournal, hstays⟩ := Machine.rdmsr_journal cpu msr m
    rw [hallowed, hcur] at hjournal
    rw [readAll]
    rcases hr : Machine.rdmsr cpu msr m with ⟨e | value, m'⟩
    · rw [hr] at hjournal
      exact hjournal
    · rw [hr] at hjournal hstays
      show (readAll cpu rest m').2.accesses =
        (Access.readings cpu (msr :: rest) (value :: (readAll cpu rest m').1.2)).reverse
          ++ m.accesses
      rw [ih (hstays.allowed.trans hallowed) (hstays.cur.trans hcur), hjournal, Access.readings,
        List.reverse_cons, List.append_assoc]
      rfl

/-- In registers that live in memory, what is read is what stands there. -/
theorem values_readAll (cpu : Nat) (msrs : List UInt32) {m : Machine} {bank : SoftBank}
    (hb : m.bank = .soft bank) :
    (readAll cpu msrs m).1.2 =
      (msrs.take (readAll cpu msrs m).1.2.length).map (bank.read cpu) := by
  induction msrs generalizing m with
  | nil => rfl
  | cons msr rest ih =>
    obtain ⟨hbank, -, hvalue⟩ := Machine.rdmsr_soft hb cpu msr
    rw [readAll]
    rcases hr : Machine.rdmsr cpu msr m with ⟨e | value, m'⟩
    · rfl
    · rw [hr] at hbank hvalue
      have hrest := ih (hbank.trans hb)
      show value :: (readAll cpu rest m').1.2 =
        bank.read cpu msr :: (rest.take (readAll cpu rest m').1.2.length).map (bank.read cpu)
      rw [← hrest, hvalue value rfl]

end Lbr

end BranchTrace
