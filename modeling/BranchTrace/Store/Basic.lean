import BranchTrace.Lbr.Context
import Std.Data.HashMap

/-!
# The store of contexts

The contexts of the traced processes, in slots that are used again once they are free. The
occupied slots are threaded onto one ring by their numbers: `head` is the oldest context, `next`
leads to the one inserted after it, and `prev` the other way round, from the head to the newest.
Look-ups follow `prev`, so after the head the newest contexts are found first.

A handle names a slot and how often it was freed before, so it stays with its context: `get?`
gives nothing once the slot was freed. Freed slots wait on a stack, and the last one freed is
taken first.
-/

namespace BranchTrace

/-- A context on the ring, between the slots of its neighbours. -/
structure Member where
  context : Context
  prev : Nat
  next : Nat
  deriving DecidableEq, Repr

/-- A slot, and how often it was freed. -/
structure Slot where
  generation : UInt32
  member : Option Member
  deriving DecidableEq, Repr

/-- The contexts of the traced processes. -/
structure Store where
  slots : Array Slot
  /-- The free slots, the last one freed in front. -/
  free : List Nat
  /-- The slot of the oldest context. -/
  head : Option Nat
  /-- The number of contexts. -/
  len : Nat
  deriving DecidableEq, Repr

namespace Store

/-- The store without contexts and slots. -/
def empty : Store :=
  { slots := #[], free := [], head := none, len := 0 }

/-- Whether the store holds no context. -/
def isEmpty (store : Store) : Bool :=
  store.head.isNone

/-- What stands in a slot. -/
def member? (store : Store) (index : Nat) : Option Member :=
  store.slots[index]? >>= (·.member)

/-- The handle of what stands in a slot. -/
def handleAt (store : Store) (index : Nat) : Handle :=
  { index, generation := (store.slots[index]?.map (·.generation)).getD 0 }

/-- What a handle names, as long as its slot was not freed. -/
def live? (store : Store) (handle : Handle) : Option Member :=
  if store.handleAt handle.index = handle then store.member? handle.index else none

/-- Whether a handle still names a context. -/
def contains (store : Store) (handle : Handle) : Bool :=
  (store.live? handle).isSome

/-- The context that a handle names. -/
def get? (store : Store) (handle : Handle) : Option Context :=
  (store.live? handle).map (·.context)

/-- The handle of the oldest context. -/
def headHandle (store : Store) : Option Handle :=
  store.head.map store.handleAt

/-- Changes what stands in a slot. -/
def modify (store : Store) (index : Nat) (f : Member → Member) : Store :=
  { store with
    slots := store.slots.modify index fun slot => { slot with member := slot.member.map f } }

/-- Changes the context that a handle names. -/
def update (store : Store) (handle : Handle) (f : Context → Context) : Store :=
  if store.contains handle then
    store.modify handle.index fun m => { m with context := f m.context }
  else store

/-! ## Walking the ring -/

/-- The contexts from a slot on, following one direction until it comes back to the head. -/
def walk (store : Store) (follow : Member → Nat) : Nat → Nat → List (Handle × Context)
  | 0, _ => []
  | fuel + 1, index =>
    match store.member? index with
    | none => []
    | some m =>
      (store.handleAt index, m.context)
        :: if store.head = some (follow m) then [] else walk store follow fuel (follow m)

/-- The contexts from the oldest to the newest. -/
def toList (store : Store) : List (Handle × Context) :=
  match store.head with
  | none => []
  | some head => store.walk Member.next store.slots.size head

/-- The contexts in the order they are looked up: the oldest, then from the newest back. -/
def searchOrder (store : Store) : List (Handle × Context) :=
  match store.head with
  | none => []
  | some head => store.walk Member.prev store.slots.size head

/-- Follows `prev` until a context of the process stands there. -/
def searchFrom (store : Store) (pid : UInt32) : Nat → Nat → Option Handle
  | 0, _ => none
  | fuel + 1, index =>
    match store.member? index with
    | none => none
    | some m =>
      if m.context.pid = pid then some (store.handleAt index)
      else if store.head = some m.prev then none
      else searchFrom store pid fuel m.prev

/-- The handle of the first context of a process in search order. -/
def find? (store : Store) (pid : UInt32) : Option Handle :=
  match store.head with
  | none => none
  | some head => store.searchFrom pid store.slots.size head

/-- A search finds the first of the contexts it walks over. -/
theorem searchFrom_eq_walk (store : Store) (pid : UInt32) (fuel index : Nat) :
    store.searchFrom pid fuel index =
      ((store.walk Member.prev fuel index).find? fun e => e.2.pid = pid).map (·.1) := by
  induction fuel generalizing index with
  | zero => rfl
  | succ fuel ih =>
    rw [searchFrom, walk]
    cases store.member? index with
    | none => rfl
    | some m =>
      by_cases hp : m.context.pid = pid
      · simp [hp]
      · by_cases hh : store.head = some m.prev
        · simp [hp, hh]
        · simp [hp, hh, ih]

theorem find?_eq (store : Store) (pid : UInt32) :
    store.find? pid = (store.searchOrder.find? fun e => e.2.pid = pid).map (·.1) := by
  unfold find? searchOrder
  cases store.head with
  | none => rfl
  | some head => exact store.searchFrom_eq_walk pid _ head

/-! ## Insertion -/

/-- The most slots there can be, so that their numbers fit in 32 bits. -/
def maxSlots : Nat := UInt32.size - 1

/-- Puts a member into a free slot, or into a new one if none is free. -/
def allocate (store : Store) (m : Member) : Option (Nat × Store) :=
  match store.free with
  | index :: free =>
    some (index,
      { store with
        slots := store.slots.modify index fun slot => { slot with member := some m }
        free })
  | [] =>
    if maxSlots ≤ store.slots.size then none
    else
      some (store.slots.size,
        { store with slots := store.slots.push { generation := 0, member := some m } })

/-- Puts a slot onto the ring just before the head. -/
def link (store : Store) (index : Nat) : Store :=
  match store.head with
  | none =>
    { (store.modify index fun m => { m with prev := index, next := index }) with
      head := some index }
  | some head =>
    let tail := ((store.member? head).map (·.prev)).getD head
    ((store.modify tail fun m => { m with next := index }).modify index
      fun m => { m with prev := tail, next := head }).modify head
      fun m => { m with prev := index }

/-- Adds a context as the newest. -/
def insert (store : Store) (context : Context) : Except TraceError (Handle × Store) :=
  match store.allocate { context, prev := 0, next := 0 } with
  | none => .error .noMemory
  | some (index, store) =>
    let store := store.link index
    .ok (store.handleAt index, { store with len := store.len + 1 })

/-! ## Removal -/

/-- Takes a slot off the ring; its context stays in it. -/
def unlink (store : Store) (index : Nat) : Store :=
  match store.member? index with
  | none => store
  | some m =>
    let head :=
      if store.head = some index then (if m.next = index then none else some m.next)
      else store.head
    let store := (store.modify m.prev fun p => { p with next := m.next }).modify m.next
      fun n => { n with prev := m.prev }
    { store with head, len := store.len - 1 }

/-- Frees a slot, which ends the life of every handle to it. -/
def release (store : Store) (index : Nat) : Store :=
  { store with
    slots := store.slots.modify index fun slot =>
      { generation := slot.generation + 1, member := none }
    free := index :: store.free }

/-- The contexts forked from each context, in search order. -/
def children (store : Store) : Std.HashMap Handle (List Handle) :=
  store.searchOrder.foldr (fun (handle, context) found =>
    match context.parent with
    | none => found
    | some parent => found.insert parent (handle :: found.getD parent [])) {}

/-- Gathers the descendants of the contexts on a stack, newest find in front. -/
def gather (children : Std.HashMap Handle (List Handle)) (root : Handle) :
    Nat → List Handle → List Handle → List Handle
  | 0, _, found => found
  | _ + 1, [], found => found
  | fuel + 1, parent :: stack, found =>
    let born := ((children.getD parent []).filter (· ≠ root)).reverse
    gather children root fuel (born ++ stack) (born ++ found)

/-- A context and everything descended from it, in the order they are removed. -/
def family (store : Store) (root : Handle) : List Handle :=
  (gather store.children root store.slots.size [root] [root]).reverse

/-- Removes the context that a handle names together with everything descended from it, and gives
what was removed. All of them leave the ring before the first slot is freed. -/
def remove? (store : Store) (handle : Handle) : Option (List Context × Store) :=
  if store.contains handle then
    let doomed := (store.family handle).map (·.index)
    let removed := doomed.filterMap fun index => (store.member? index).map (·.context)
    some (removed, doomed.foldl release (doomed.foldl unlink store))
  else none

/-- Frees every occupied slot. -/
def releaseAll (store : Store) : Store :=
  (List.range store.slots.size).foldl
    (fun store index => if (store.member? index).isSome then store.release index else store) store

/-- Removes everything: how many contexts there were, and the store after it. -/
def drain (store : Store) : Nat × Store :=
  (store.len, { store.releaseAll with head := none, len := 0 })

end Store

end BranchTrace
