import BranchTrace.Proofs.Machine.Bindable
import BranchTrace.Proofs.Register.Bytes

/-!
# Transfers

Behind register nodes an access is one transfer of bytes between an open file and the thread
(`Machine.pread`, `Machine.pwrite`), and it succeeds only if all bytes of the register moved. A cpu
has a place where its accesses go (`Machine.Reaches`), or they fail before any transfer
(`Machine.Refuses`).
-/

namespace BranchTrace

/-! ## Single transfers -/

/-- A result that is asked for a property before it is used. -/
theorem bind_ite_eq_ok {ε α β : Type} {r : Except ε α} {p : α → Prop} [DecidablePred p]
    {f : α → β} {e : ε} {b : β} :
    (r.bind fun a => if p a then .ok (f a) else .error e) = .ok b ↔
      ∃ a, r = .ok a ∧ p a ∧ b = f a := by
  cases r with
  | error e' => simp [Except.bind]
  | ok a => by_cases hp : p a <;> simp [Except.bind, hp, eq_comm]

namespace Machine

/-- Moves bytes out of an open file: as many as are asked for, or fewer where the file ends or the
plan of failures cuts the transfer short. -/
def pread (place : Place) (offset count : Nat) : Action Machine SystemError (List UInt8) := fun m =>
  let tripped := (trip .pread m).2
  match NodeBank.cutShort (trip .pread m).1 count with
  | .error e => (.error e, tripped)
  | .ok count => ((m.files.readAt place offset count).mapError .os, tripped)

/-- Moves bytes into an open file, and says how many. -/
def pwrite (place : Place) (offset : Nat) (bytes : List UInt8) : Action Machine SystemError Nat :=
  fun m =>
    let tripped := (trip .pwrite m).2
    match NodeBank.cutShort (trip .pwrite m).1 bytes.length with
    | .error e => (.error e, tripped)
    | .ok count =>
      match m.files.writeAt place offset (bytes.take count) with
      | .error errno => (.error (.os errno), tripped)
      | .ok (moved, files) => (.ok moved, { tripped with files })

end Machine

namespace NodeBank

/-- Reads a register of a cpu at a place, by one transfer of all its bytes. -/
def readFrom (place : Place) (cpu : Nat) (msr : UInt32) : Action Machine SystemError UInt64 :=
  fun m =>
    let moved := Machine.pread place msr.toNat registerBytes m
    (moved.1.bind fun bytes =>
      if bytes.length = registerBytes then .ok (UInt64.ofNat (ofLittleEndian bytes))
      else .error (.other .unexpectedEof
        ("short read of msr " ++ Text.hex msr.toNat ++ " on cpu " ++ toString cpu)), moved.2)

/-- Writes a register of a cpu at a place, by one transfer of all its bytes. -/
def writeTo (place : Place) (cpu : Nat) (msr : UInt32) (value : UInt64) :
    Action Machine SystemError Unit := fun m =>
  let moved := Machine.pwrite place msr.toNat (littleEndian registerBytes value.toNat) m
  (moved.1.bind fun count =>
    if count = registerBytes then .ok ()
    else .error (.other .writeZero
      ("short write of msr " ++ Text.hex msr.toNat ++ " on cpu " ++ toString cpu)), moved.2)

variable {bank : NodeBank} {cpu : Nat} {place : Place}

theorem toOption_node (bank : NodeBank) (cpu : Nat) :
    (bank.node cpu).toOption = bank.nodes[cpu]?.join := by
  rw [node]
  rcases bank.nodes[cpu]? with _ | _ | place <;> rfl

theorem node_eq_error (h : (bank.node cpu).toOption = none) :
    bank.node cpu = .error (.os Errno.enxio) := by
  rw [toOption_node] at h
  rw [node]
  rcases hn : bank.nodes[cpu]? with _ | _ | place
  · rfl
  · rfl
  · rw [hn] at h
    cases h

theorem read_of_node (h : bank.node cpu = .ok place) (msr : UInt32) :
    bank.read cpu msr = readFrom place cpu msr := by
  funext m
  have hfiles : (Machine.trip .pread m).2.files = m.files := rfl
  simp only [read, readFrom, Machine.pread, Action.bind_apply, Action.liftM_apply,
    Action.state_apply, h]
  cases cutShort (Machine.trip .pread m).1 registerBytes with
  | error e => rfl
  | ok count =>
    simp only [Action.get_apply, hfiles]
    cases m.files.readAt place msr.toNat count with
    | error errno => rfl
    | ok bytes =>
      dsimp only [Except.mapError, Except.bind]
      split <;> rfl

theorem read_of_closed {e : SystemError} (h : bank.node cpu = .error e) (msr : UInt32)
    (m : Machine) : bank.read cpu msr m = (.error e, m) := by
  rw [read, h]
  rfl

theorem write_of_node (h : bank.node cpu = .ok place) (msr : UInt32) (value : UInt64) :
    bank.write cpu msr value = writeTo place cpu msr value := by
  funext m
  rw [write_apply, h, writeTo, Machine.pwrite]
  simp only [length_littleEndian]
  cases cutShort (Machine.trip .pwrite m).1 registerBytes with
  | error e => rfl
  | ok count =>
    dsimp only
    rcases m.files.writeAt place msr.toNat
      ((littleEndian registerBytes value.toNat).take count) with errno | ⟨moved, files⟩
    · rfl
    · rfl

theorem write_of_closed {e : SystemError} (h : bank.node cpu = .error e) (msr : UInt32)
    (value : UInt64) (m : Machine) : bank.write cpu msr value m = (.error e, m) := by
  rw [write_apply, h]

theorem cutShort_le {fault : Option Fault} {count n : Nat} (h : cutShort fault count = .ok n) :
    n ≤ count := by
  unfold cutShort at h
  split at h
  · exact Nat.le_of_eq (Except.ok.inj h).symm
  · split at h
    · exact (Except.ok.inj h) ▸ Nat.min_le_right _ _
    · cases h

end NodeBank

/-! ## Places of cpus -/

namespace Machine

/-- The place of the open node of a cpu. -/
def place? (m : Machine) (cpu : Nat) : Option Place :=
  match m.bank with
  | .soft _ => none
  | .nodes bank => (bank.node cpu).toOption

variable {m : Machine} {cpu : Nat} {place : Place}

theorem place?_eq_some :
    m.place? cpu = some place ↔ ∃ bank, m.bank = .nodes bank ∧ bank.node cpu = .ok place := by
  rw [place?]
  cases m.bank with
  | soft bank => simp
  | nodes bank =>
    dsimp only
    cases hn : bank.node cpu <;> simp [Except.toOption, hn]

/-- The accesses to a cpu are transfers at a place. -/
structure Reaches (m : Machine) (cpu : Nat) (place : Place) : Prop where
  read : ∀ msr, rdmsr cpu msr m =
    ((NodeBank.readFrom place cpu msr m).1,
      (NodeBank.readFrom place cpu msr m).2.journal false cpu msr
        (NodeBank.readFrom place cpu msr m).1.toOption)
  write : ∀ msr value, wrmsr cpu msr value m =
    ((NodeBank.writeTo place cpu msr value m).1,
      (NodeBank.writeTo place cpu msr value m).2.journal true cpu msr
        ((NodeBank.writeTo place cpu msr value m).1.toOption.map fun _ => value))

/-- The accesses to a cpu fail before any transfer: nothing but the journal is changed. -/
structure Refuses (m : Machine) (cpu : Nat) : Prop where
  read : ∀ msr, rdmsr cpu msr m = (.error (.os Errno.enxio), m.journal false cpu msr none)
  write : ∀ msr value,
    wrmsr cpu msr value m = (.error (.os Errno.enxio), m.journal true cpu msr none)

theorem reaches_of_place (h : m.place? cpu = some place) : m.Reaches cpu place := by
  obtain ⟨bank, hb, hn⟩ := place?_eq_some.mp h
  refine ⟨fun msr => ?_, fun msr value => ?_⟩
  · rw [rdmsr, hb, ← NodeBank.read_of_node hn]
    rfl
  · rw [wrmsr, hb, ← NodeBank.write_of_node hn]
    rfl

theorem refuses_of_no_place {bank : NodeBank} (hb : m.bank = .nodes bank)
    (h : m.place? cpu = none) : m.Refuses cpu := by
  have hn : bank.node cpu = .error (.os Errno.enxio) := by
    rw [place?, hb] at h
    exact NodeBank.node_eq_error h
  refine ⟨fun msr => ?_, fun msr value => ?_⟩
  · rw [rdmsr, hb]
    dsimp only
    rw [NodeBank.read_of_closed hn]
    rfl
  · rw [wrmsr, hb]
    dsimp only
    rw [NodeBank.write_of_closed hn]
    rfl

end Machine

end BranchTrace
