/-!
# Handles

A handle names one stay of a process in the store: the slot it stands in, and the number of
earlier stays in that slot. The number is kept in 32 bits.
-/

namespace BranchTrace

/-- A name for one stay in a slot of the store. -/
structure Handle where
  index : Nat
  generation : UInt32
  deriving DecidableEq, Repr, Hashable

end BranchTrace
