import BranchTrace.Proofs.Store.Slots

/-!
# Strict operations

The operations on the store go on whatever they find: an empty slot on the ring, a walk that does
not come back to the head, a count of contexts that falls below zero. The strict operations break
off there, with `none`: where an empty slot is read, changed or freed, a handle is made of a number
without a slot or beyond 32 bits, a walk takes more steps than there are slots, or nothing is left
to count down.

What a strict operation gives is what the operation itself gives (`walk_sound` and so on);
whether it breaks off depends on the store.
-/

namespace BranchTrace

namespace Store

namespace Strict

/-- The handle of a slot, if its number names a slot and fits in 32 bits. -/
def handleAt (store : Store) (index : Nat) : Option Handle :=
  if index < store.slots.size ∧ index < UInt32.size then some (store.handleAt index) else none

/-- Changes what stands in a slot, if something does. -/
def modify (store : Store) (index : Nat) (f : Member → Member) : Option Store :=
  if store.Occupied index then some (store.modify index f) else none

/-- `Store.walk`, until the walk is back at the head. -/
def walk (store : Store) (follow : Member → Nat) : Nat → Nat → Option (List (Handle × Context))
  | 0, _ => none
  | fuel + 1, index => do
    let m ← store.member? index
    let handle ← handleAt store index
    if store.head = some (follow m) then return [(handle, m.context)]
    return (handle, m.context) :: (← walk store follow fuel (follow m))

/-- `Store.toList`. -/
def toList (store : Store) : Option (List (Handle × Context)) :=
  match store.head with
  | none => some []
  | some head => walk store Member.next store.slots.size head

/-- `Store.searchOrder`. -/
def searchOrder (store : Store) : Option (List (Handle × Context)) :=
  match store.head with
  | none => some []
  | some head => walk store Member.prev store.slots.size head

/-- `Store.searchFrom`, until the search is back at the head. -/
def searchFrom (store : Store) (pid : UInt32) : Nat → Nat → Option (Option Handle)
  | 0, _ => none
  | fuel + 1, index => do
    let m ← store.member? index
    if m.context.pid = pid then return some (← handleAt store index)
    if store.head = some m.prev then return none
    searchFrom store pid fuel m.prev

/-- `Store.find?`. -/
def find? (store : Store) (pid : UInt32) : Option (Option Handle) :=
  match store.head with
  | none => some none
  | some head => searchFrom store pid store.slots.size head

/-- `Store.allocate`, with the free slot that is taken. -/
def allocate (store : Store) (m : Member) : Option (Option (Nat × Store)) :=
  if ∀ index ∈ store.free.head?, index < store.slots.size ∧ ¬store.Occupied index then
    some (store.allocate m)
  else none

/-- `Store.link`, with the slots it changes. -/
def link (store : Store) (index : Nat) : Option Store :=
  match store.head with
  | none => do
    let store ← modify store index fun m => { m with prev := index, next := index }
    return { store with head := some index }
  | some head => do
    let tail := (← store.member? head).prev
    let store ← modify store tail fun m => { m with next := index }
    let store ← modify store index fun m => { m with prev := tail, next := head }
    modify store head fun m => { m with prev := index }

/-- `Store.insert`: the handle or the failure, and the store after it. -/
def insert (store : Store) (context : Context) : Option (Except TraceError Handle × Store) := do
  match ← allocate store { context, prev := 0, next := 0 } with
  | none => return (.error .noMemory, store)
  | some (index, store) =>
    let store ← link store index
    return (.ok (← handleAt store index), { store with len := store.len + 1 })

/-- `Store.unlink`, with the slots it changes and the context it counts down. -/
def unlink (store : Store) (index : Nat) : Option Store := do
  let m ← store.member? index
  let head :=
    if store.head = some index then (if m.next = index then none else some m.next)
    else store.head
  let linked ← modify store m.prev fun p => { p with next := m.next }
  let linked ← modify linked m.next fun n => { n with prev := m.prev }
  if linked.len = 0 then none else return { linked with head, len := linked.len - 1 }

/-- `Store.release` of a slot that is not empty. -/
def release (store : Store) (index : Nat) : Option Store :=
  if store.Occupied index then some (store.release index) else none

/-- `Store.gather`, until the stack is empty. -/
def gather (children : Std.HashMap Handle (List Handle)) (root : Handle) :
    Nat → List Handle → List Handle → Option (List Handle)
  | _, [], found => some found
  | 0, _ :: _, _ => none
  | fuel + 1, parent :: stack, found =>
    let born := ((children.getD parent []).filter (· ≠ root)).reverse
    gather children root fuel (born ++ stack) (born ++ found)

/-- `Store.remove?`: how many contexts were removed or the failure, and the store after it. -/
def remove (store : Store) (handle : Handle) : Option (Except TraceError Nat × Store) :=
  if store.contains handle then do
    -- the children are found on a walk
    let _ ← searchOrder store
    let family ← gather store.children handle store.slots.size [handle] [handle]
    let doomed := family.reverse.map (·.index)
    let store ← doomed.foldlM unlink store
    return (.ok doomed.length, ← doomed.foldlM release store)
  else some (.error .staleHandle, store)

/-- `Store.drain`. -/
def drain (store : Store) : Option (Nat × Store) := do
  let freed ← (List.range store.slots.size).foldlM
    (fun store index => if (store.member? index).isSome then release store index else some store)
    store
  return (store.len, { freed with head := none, len := 0 })

variable {store : Store}

theorem handleAt_sound {index : Nat} {handle : Handle} (h : handleAt store index = some handle) :
    store.handleAt index = handle := by
  unfold handleAt at h
  split at h <;> simp_all

theorem modify_sound {index : Nat} {f : Member → Member} {store' : Store}
    (h : modify store index f = some store') : store.modify index f = store' := by
  unfold modify at h
  split at h <;> simp_all

theorem walk_sound {follow : Member → Nat} {fuel index : Nat} {es : List (Handle × Context)}
    (h : walk store follow fuel index = some es) : store.walk follow fuel index = es := by
  induction fuel generalizing index es with
  | zero => simp [walk] at h
  | succ fuel ih =>
    rw [walk] at h
    rw [Store.walk]
    obtain ⟨m, hm, h⟩ := Option.bind_eq_some_iff.mp h
    obtain ⟨handle, hh, h⟩ := Option.bind_eq_some_iff.mp h
    rw [hm, handleAt_sound hh]
    by_cases hc : store.head = some (follow m)
    · simp_all
    · rw [if_neg hc] at h
      obtain ⟨rest, hr, h⟩ := Option.bind_eq_some_iff.mp h
      simp_all

theorem toList_sound {es : List (Handle × Context)} (h : toList store = some es) :
    store.toList = es := by
  unfold toList at h
  unfold Store.toList
  split at h
  · simp_all
  · simp_all [walk_sound h]

theorem searchOrder_sound {es : List (Handle × Context)} (h : searchOrder store = some es) :
    store.searchOrder = es := by
  unfold searchOrder at h
  unfold Store.searchOrder
  split at h
  · simp_all
  · simp_all [walk_sound h]

/-- A strict search ends where a strict walk does. -/
theorem searchFrom_of_walk {pid : UInt32} {fuel index : Nat} {es : List (Handle × Context)}
    (h : walk store Member.prev fuel index = some es) :
    searchFrom store pid fuel index = some (store.searchFrom pid fuel index) := by
  induction fuel generalizing index es with
  | zero => simp [walk] at h
  | succ fuel ih =>
    rw [walk] at h
    rw [searchFrom, Store.searchFrom]
    obtain ⟨m, hm, h⟩ := Option.bind_eq_some_iff.mp h
    obtain ⟨handle, hh, h⟩ := Option.bind_eq_some_iff.mp h
    rw [hm, handleAt_sound hh, hh]
    by_cases hp : m.context.pid = pid
    · simp [hp]
    by_cases hc : store.head = some m.prev
    · simp [hp, hc]
    · rw [if_neg hc] at h
      obtain ⟨rest, hr, -⟩ := Option.bind_eq_some_iff.mp h
      simp [hp, hc, ih hr]

theorem find?_of_searchOrder (pid : UInt32) {es : List (Handle × Context)}
    (h : searchOrder store = some es) : find? store pid = some (store.find? pid) := by
  unfold searchOrder at h
  unfold find? Store.find?
  cases hh : store.head with
  | none => rfl
  | some head =>
    simp only [hh] at h
    exact searchFrom_of_walk h

theorem link_sound {index : Nat} {store' : Store} (h : link store index = some store') :
    store.link index = store' := by
  unfold link at h
  unfold Store.link
  cases hh : store.head with
  | none =>
    simp only [hh] at h
    obtain ⟨s, hs, h⟩ := Option.bind_eq_some_iff.mp h
    simp_all [modify_sound hs]
  | some head =>
    simp only [hh] at h
    obtain ⟨m, hm, h⟩ := Option.bind_eq_some_iff.mp h
    obtain ⟨s, hs, h⟩ := Option.bind_eq_some_iff.mp h
    obtain ⟨s', hs', h⟩ := Option.bind_eq_some_iff.mp h
    simp [hm, modify_sound hs, modify_sound hs', modify_sound h]

theorem unlink_sound {index : Nat} {store' : Store} (h : unlink store index = some store') :
    store.unlink index = store' := by
  unfold unlink at h
  unfold Store.unlink
  obtain ⟨m, hm, h⟩ := Option.bind_eq_some_iff.mp h
  obtain ⟨s, hs, h⟩ := Option.bind_eq_some_iff.mp h
  obtain ⟨s', hs', h⟩ := Option.bind_eq_some_iff.mp h
  split at h
  · cases h
  · simp_all [modify_sound hs, modify_sound hs']

theorem gather_sound {children : Std.HashMap Handle (List Handle)} {root : Handle} {fuel : Nat}
    {stack found family : List Handle} (h : gather children root fuel stack found = some family) :
    Store.gather children root fuel stack found = family := by
  induction fuel generalizing stack found with
  | zero => cases stack <;> simp_all [gather, Store.gather]
  | succ fuel ih =>
    cases stack with
    | nil => simp_all [gather, Store.gather]
    | cons parent stack => exact ih h

end Strict

end Store

end BranchTrace
