import BranchTrace.Machine.Basic

/-!
# Register accesses

Reading and writing one branch register of one cpu. In a software bank an access fails only where
the plan of failures says so. Behind register nodes an access is a transfer of eight bytes at the
offset of the register's number, lowest byte first, so neighbouring registers overlap; a transfer
of fewer bytes fails, and a cpu without an open node fails before any transfer.

Every attempt is entered into the machine's journal.
-/

namespace BranchTrace

/-- The bytes of a value, lowest first. -/
def littleEndian : Nat → Nat → List UInt8
  | 0, _ => []
  | width + 1, n => UInt8.ofNat n :: littleEndian width (n / 256)

/-- The value of bytes, lowest first. -/
def ofLittleEndian : List UInt8 → Nat
  | [] => 0
  | b :: bs => b.toNat + 256 * ofLittleEndian bs

/-- The bytes of one register. -/
def registerBytes : Nat := 8

namespace NodeBank

/-- The open node of a cpu. -/
def node (bank : NodeBank) (cpu : Nat) : Except SystemError Place :=
  match bank.nodes[cpu]? with
  | some (some place) => .ok place
  | _ => .error (.os Errno.enxio)

/-- The bytes a struck transfer of `count` bytes still moves, unless it fails. -/
def cutShort (fault : Option Fault) (count : Nat) : Except SystemError Nat :=
  match fault with
  | none => .ok count
  | some fault =>
    match fault.short with
    | some n => .ok (min n count)
    | none => .error (.os fault.errno)

/-- Reads a register through the node of its cpu. -/
def read (bank : NodeBank) (cpu : Nat) (msr : UInt32) : Action Machine SystemError UInt64 := do
  let place ← (bank.node cpu : ExceptT SystemError (StateM Machine) Place)
  let fault ← Machine.trip .pread
  let count ← (cutShort fault registerBytes : ExceptT SystemError (StateM Machine) Nat)
  match (← get).files.readAt place msr.toNat count with
  | .error errno => throw (.os errno)
  | .ok bytes =>
    if bytes.length = registerBytes then return UInt64.ofNat (ofLittleEndian bytes)
    else
      throw (.other .unexpectedEof
        ("short read of msr " ++ Text.hex msr.toNat ++ " on cpu " ++ toString cpu))

/-- Writes a register through the node of its cpu. -/
def write (bank : NodeBank) (cpu : Nat) (msr : UInt32) (value : UInt64) :
    Action Machine SystemError Unit := do
  let place ← (bank.node cpu : ExceptT SystemError (StateM Machine) Place)
  let fault ← Machine.trip .pwrite
  let count ← (cutShort fault registerBytes : ExceptT SystemError (StateM Machine) Nat)
  let bytes := (littleEndian registerBytes value.toNat).take count
  match (← get).files.writeAt place msr.toNat bytes with
  | .error errno => throw (.os errno)
  | .ok (moved, files) =>
    modify fun m => { m with files }
    if moved = registerBytes then return ()
    else
      throw (.other .writeZero
        ("short write of msr " ++ Text.hex msr.toNat ++ " on cpu " ++ toString cpu))

end NodeBank

namespace Machine

/-- Enters an attempt into the journal, under the cpus the thread was bound to. -/
def journal (m : Machine) (write : Bool) (cpu : Nat) (msr : UInt32) (value : Option UInt64) :
    Machine :=
  { m with accesses :=
      { write, cpu, msr, value, allowed := m.allowed, cur := m.cur } :: m.accesses }

/-- Reads a register of a cpu. -/
def rdmsr (cpu : Nat) (msr : UInt32) : Action Machine SystemError UInt64 := fun m =>
  let (r, m) :=
    match m.bank with
    | .soft bank => guarded .rdmsr (pure (bank.read cpu msr)) m
    | .nodes bank => bank.read cpu msr m
  (r, m.journal false cpu msr r.toOption)

/-- Writes a register of a cpu. -/
def wrmsr (cpu : Nat) (msr : UInt32) (value : UInt64) : Action Machine SystemError Unit := fun m =>
  let (r, m) :=
    match m.bank with
    | .soft bank =>
      guarded .wrmsr (fun m => (.ok (), { m with bank := .soft (bank.write cpu msr value) })) m
    | .nodes bank => bank.write cpu msr value m
  (r, m.journal true cpu msr (r.toOption.map fun _ => value))

end Machine

end BranchTrace
