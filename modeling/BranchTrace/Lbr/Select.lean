import BranchTrace.Text.Hex

/-!
# Select masks

The mask that tells the processor which branches to leave out of its branch stack. A set bit
suppresses one class of branches. Ten bits are known; the others are handed to the processor as
they are.
-/

namespace BranchTrace

/-- A mask of suppressed branch classes. -/
structure Select where
  bits : UInt64
  deriving DecidableEq, Repr, Inhabited

namespace Select

/-- The classes by the names of their bits, lowest bit first. The last name is the default mask,
which shares the lowest bit. -/
def classes : List (String × UInt64) :=
  [ ("CPL_EQ_0", 0x1), ("CPL_NEQ_0", 0x2), ("JCC", 0x4), ("NEAR_REL_CALL", 0x8),
    ("NEAR_IND_CALL", 0x10), ("NEAR_RET", 0x20), ("NEAR_IND_JMP", 0x40), ("NEAR_REL_JMP", 0x80),
    ("FAR_BRANCH", 0x100), ("EN_CALLSTACK", 0x200), ("DEFAULT", 0x1) ]

/-- The mask with every known bit. -/
def known : Select := ⟨0x3ff⟩

/-- The mask that records every branch. -/
def empty : Select := ⟨0⟩

/-- The default mask: what ends in ring 0 is left out. -/
def userOnly : Select := ⟨1⟩

/-- Whether every bit of the second mask is set in the first. -/
def contains (a b : Select) : Bool :=
  a.bits &&& b.bits == b.bits

/-- Whether the masks share a bit. -/
def intersects (a b : Select) : Bool :=
  a.bits &&& b.bits != 0

/-- The bits of either mask. -/
def union (a b : Select) : Select := ⟨a.bits ||| b.bits⟩

/-- The bits of both masks. -/
def inter (a b : Select) : Select := ⟨a.bits &&& b.bits⟩

/-- The bits of one mask only. -/
def symmDiff (a b : Select) : Select := ⟨a.bits ^^^ b.bits⟩

/-- The bits of the first mask that the second lacks. -/
def diff (a b : Select) : Select := ⟨a.bits &&& ~~~b.bits⟩

/-- The known bits of a mask. -/
def truncate (a : Select) : Select := inter a known

/-- The known bits that a mask lacks. -/
def complement (a : Select) : Select := diff known a

/-- The mask of these bits if all of them are known. -/
def ofKnownBits? (bits : UInt64) : Option Select :=
  if known.contains ⟨bits⟩ then some ⟨bits⟩ else none

/-- The names of the classes that a mask holds, then its unknown bits as a number. -/
def names (a : Select) : List String :=
  let unknown := (diff a known).bits
  ((classes.filter fun entry => a.contains ⟨entry.2⟩).map (·.1))
    ++ (if unknown = 0 then [] else [Text.hex unknown.toNat])

/-- A mask in words. -/
def describe (a : Select) : String :=
  if a.names.isEmpty then "(empty)" else " | ".intercalate a.names

end Select

end BranchTrace
