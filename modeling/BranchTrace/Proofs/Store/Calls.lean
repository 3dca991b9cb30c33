import BranchTrace.Proofs.Store.Remove
import BranchTrace.Proofs.Store.Update

/-!
# Sequences of calls

What a caller can do with a store: make a new one, insert any context, remove any handle, drain
it, and change a context through its handle or through the number of its process. `perform` is
one such call, and `Strict.perform` the same call made of strict operations.

Main statement: `wellFormed_runCalls`. After any calls, starting from nothing, the store is
well-formed, its walks come to an end, and no further call breaks off; one that fails leaves the
store as it was.
-/

namespace BranchTrace

namespace Store

/-- A call on the store. -/
inductive Call where
  | new
  | insert (context : Context)
  | remove (handle : Handle)
  | drain
  /-- Changes the context that a handle names, in any way. -/
  | edit (handle : Handle) (change : Context → Context)
  /-- Changes the context of a process, in any way. -/
  | editOf (pid : UInt32) (change : Context → Context)

/-- What a call answers. -/
inductive Answer where
  | done
  | inserted (handle : Handle)
  /-- How many contexts were removed. -/
  | removed (count : Nat)
  | edited (handle : Option Handle)
  | failed (error : TraceError)
  deriving DecidableEq

/-- The answer to a call, and the store after it. -/
def perform (store : Store) : Call → Answer × Store
  | .new => (.done, empty)
  | .insert context =>
    match store.insert context with
    | .ok (handle, store) => (.inserted handle, store)
    | .error e => (.failed e, store)
  | .remove handle =>
    match store.remove? handle with
    | some (removed, store) => (.removed removed.length, store)
    | none => (.failed .staleHandle, store)
  | .drain => (.removed store.drain.1, store.drain.2)
  | .edit handle change =>
    (.edited (if store.contains handle then some handle else none), store.update handle change)
  | .editOf pid change =>
    match store.find? pid with
    | some handle => (.edited (some handle), store.update handle change)
    | none => (.edited none, store)

/-- `Store.perform`, of strict operations. -/
def Strict.perform (store : Store) : Call → Option (Answer × Store)
  | .new => some (.done, empty)
  | .insert context => do
    match ← insert store context with
    | (.ok handle, store) => return (.inserted handle, store)
    | (.error e, store) => return (.failed e, store)
  | .remove handle => do
    match ← remove store handle with
    | (.ok count, store) => return (.removed count, store)
    | (.error e, store) => return (.failed e, store)
  | .drain => do
    let (count, store) ← drain store
    return (.removed count, store)
  | .edit handle change =>
    some (.edited (if store.contains handle then some handle else none),
      store.update handle change)
  | .editOf pid change => do
    match ← find? store pid with
    | some handle => return (.edited (some handle), store.update handle change)
    | none => return (.edited none, store)

/-- The store after some calls. -/
def runCalls (calls : List Call) : Store :=
  calls.foldl (fun store call => (store.perform call).2) empty

/-- Whether a call failed. -/
def Answer.isFailure : Answer → Bool
  | .failed _ => true
  | _ => false

namespace WellFormed

variable {store : Store} (hw : store.WellFormed)
include hw

theorem length_filterMap_family {handle : Handle} (h : store.contains handle = true) :
    ((store.family handle).filterMap store.get?).length = (store.family handle).length := by
  obtain ⟨-, -, -, hl⟩ := hw.family_spec h
  refine List.filterMap_length_eq_length.mpr fun k hk => ?_
  exact Option.isSome_iff_exists.mpr (contains_iff.mp (hl k hk))

/-- What one call keeps: the store stays well-formed, and the strict call does not break off. -/
theorem perform (call : Call) :
    (store.perform call).2.WellFormed ∧ Strict.perform store call = some (store.perform call) := by
  cases call with
  | new => exact ⟨wellFormed_empty, rfl⟩
  | insert context =>
    rcases hw.insert_spec context with ⟨h, -, hs⟩ | ⟨handle, store', h, hs, hw', -⟩
    · simp [Store.perform, Strict.perform, h, hs, hw]
    · simp [Store.perform, Strict.perform, h, hs, hw']
  | remove handle =>
    by_cases hc : store.contains handle = true
    · obtain ⟨store', h, hs, hw', -⟩ := hw.remove?_spec hc
      simp [Store.perform, Strict.perform, h, hs, hw', hw.length_filterMap_family hc]
    · obtain ⟨h, hs⟩ := remove?_of_not_contains hc
      simp [Store.perform, Strict.perform, h, hs, hw]
  | drain =>
    obtain ⟨hs, -, hw', -⟩ := hw.drain_spec
    simp [Store.perform, Strict.perform, hs, hw']
  | edit handle change => exact ⟨(hw.update_spec handle change).1, rfl⟩
  | editOf pid change =>
    obtain ⟨ring, ht, -⟩ := hw.ring
    have hs := Strict.find?_of_searchOrder pid (ht.strict_searchOrder hw.size_le)
    cases hf : store.find? pid with
    | none => simp [Store.perform, Strict.perform, hs, hf, hw]
    | some handle =>
      simp [Store.perform, Strict.perform, hs, hf, (hw.update_spec handle change).1]

end WellFormed

theorem wellFormed_foldl_perform {store : Store} (hw : store.WellFormed) (calls : List Call) :
    (calls.foldl (fun store call => (store.perform call).2) store).WellFormed := by
  induction calls generalizing store with
  | nil => exact hw
  | cons call calls ih => exact ih (hw.perform call).1

theorem perform_of_isFailure {store : Store} {call : Call}
    (h : (store.perform call).1.isFailure = true) : (store.perform call).2 = store := by
  cases call with
  | insert context =>
    rw [perform] at h ⊢
    cases hi : store.insert context <;> simp_all [Answer.isFailure]
  | remove handle =>
    rw [perform] at h ⊢
    cases hr : store.remove? handle <;> simp_all [Answer.isFailure]
  | editOf pid change =>
    rw [perform] at h ⊢
    cases hf : store.find? pid <;> simp_all [Answer.isFailure]
  | new | drain | edit _ _ => simp [perform, Answer.isFailure] at h

/-- After any calls the store is well-formed, both walks come back to the head, and the next call
does not break off, whichever it is. -/
theorem wellFormed_runCalls (calls : List Call) :
    let store := runCalls calls
    store.WellFormed ∧ (store.head = none ↔ ∀ i, ¬store.Occupied i) ∧
      store.len = (List.range store.slots.size).countP (store.Occupied ·) ∧
      Strict.toList store = some store.toList ∧
      Strict.searchOrder store = some store.searchOrder ∧
      ∀ call, Strict.perform store call = some (store.perform call) ∧
        ((store.perform call).1.isFailure = true → (store.perform call).2 = store) := by
  intro store
  have hw : store.WellFormed := wellFormed_foldl_perform wellFormed_empty calls
  obtain ⟨ring, ht, -⟩ := hw.ring
  refine ⟨hw, hw.head_eq_none, hw.len_eq_countP, ?_, ?_, fun call =>
    ⟨(hw.perform call).2, perform_of_isFailure⟩⟩
  · rw [ht.toList_eq hw.size_le, ht.strict_toList hw.size_le]
  · rw [Strict.searchOrder_sound (ht.strict_searchOrder hw.size_le),
      ht.strict_searchOrder hw.size_le]

end Store

end BranchTrace
