import BranchTrace.Proofs.Store.Chronicle
import BranchTrace.Proofs.Store.Generations

/-!
# The high-water mark

A new slot is made only when all others are occupied, and no slot is ever given up. So the number
of slots is the number of contexts that there were when there were most of them (`mostLive`), and
an insertion answers with a slot below it.

Main statements: `WellFormed.size_after` and `WellFormed.index_lt_of_answered`.
-/

namespace BranchTrace

namespace Store

/-- The most contexts that there are at once on the way through some calls. -/
def mostLive : Store → List Call → Nat
  | store, [] => store.toList.length
  | store, call :: calls => max store.toList.length (mostLive (store.perform call).2 calls)

variable {store store' : Store} {handle : Handle}

theorem length_le_mostLive (store : Store) (calls : List Call) :
    store.toList.length ≤ mostLive store calls := by
  cases calls with
  | nil => exact Nat.le_refl _
  | cons call calls => exact Nat.le_max_left _ _

/-! ## One operation -/

theorem size_allocate {m : Member} {index : Nat} (h : store.allocate m = some (index, store')) :
    store'.slots.size = if store.free = [] then store.slots.size + 1 else store.slots.size := by
  rw [allocate] at h
  split at h
  · next hf =>
    cases h
    rw [hf, if_neg (List.cons_ne_nil _ _)]
    exact Array.size_modify
  · next hf =>
    split at h
    · cases h
    · cases h
      rw [if_pos hf]
      exact Array.size_push _

theorem size_insert {context : Context} (h : store.insert context = .ok (handle, store')) :
    store'.slots.size = if store.free = [] then store.slots.size + 1 else store.slots.size := by
  rw [insert] at h
  split at h
  · cases h
  · next ha =>
    cases h
    exact (size_link _).trans (size_allocate ha)

theorem size_update (f : Context → Context) :
    (store.update handle f).slots.size = store.slots.size := by
  rw [update]
  split
  · exact size_modify _ _
  · rfl

theorem Edited.size (he : store.Edited handle store') :
    store'.slots.size = store.slots.size := by
  obtain ⟨_, _, -, -, rfl⟩ := he
  exact size_update _

theorem size_drain (store : Store) : store.drain.2.slots.size = store.slots.size := by
  have hkept : ∀ (indices : List Nat) (s : Store), (indices.foldl (fun s index =>
      if (s.member? index).isSome then s.release index else s) s).slots.size = s.slots.size := by
    intro indices
    induction indices with
    | nil => exact fun _ => rfl
    | cons index indices ih =>
      intro s
      rw [List.foldl_cons, ih]
      split
      · exact (released_release s index).size
      · rfl
  exact hkept _ store

namespace WellFormed

variable (hw : store.WellFormed)
include hw

theorem length_le_size : store.toList.length ≤ store.slots.size := by
  have hlen := hw.len_add_free
  rw [hw.length_toList]
  omega

theorem size_remove {removed : List Context} (h : store.remove? handle = some (removed, store')) :
    store'.slots.size = store.slots.size := by
  obtain ⟨-, -, ring, unlinked, hu, -, hr⟩ := hw.parts_of_remove? h
  exact hr.size.trans hu.size

theorem length_of_insert {context : Context} (h : store.insert context = .ok (handle, store')) :
    store'.toList.length = store.toList.length + 1 := by
  rw [(hw.of_insert h).2, List.length_append, List.length_singleton]

theorem index_lt_of_insert {context : Context} (h : store.insert context = .ok (handle, store')) :
    handle.index < store'.slots.size := by
  obtain ⟨hw', hlist⟩ := hw.of_insert h
  have hin : store'.contains handle = true :=
    hw'.contains_of_mem (e := (handle, context)) (by simp [hlist])
  exact (occupied_of_contains hin).lt_size

/-- Only where no slot is free does an insertion make one more. -/
theorem size_of_insert {context : Context} (h : store.insert context = .ok (handle, store')) :
    store'.slots.size = max store.slots.size store'.toList.length := by
  have hlen := hw.len_add_free
  rw [size_insert h, hw.length_of_insert h, hw.length_toList]
  split
  · next hf =>
    rw [hf, List.length_nil] at hlen
    omega
  · next hf =>
    have hpos := List.length_pos_iff.mpr hf
    omega

omit hw in
/-- Where there are as many slots as before, there are no more contexts than that. -/
theorem size_eq_max (hw' : store'.WellFormed) (h : store'.slots.size = store.slots.size) :
    store'.slots.size = max store.slots.size store'.toList.length := by
  have hle := hw'.length_le_size
  omega

/-- What one call keeps: there are as many slots as before, or as there are contexts now. -/
theorem size_perform {call : Call} (hcall : call ≠ .new) :
    (store.perform call).2.slots.size =
      max store.slots.size (store.perform call).2.toList.length := by
  have hw' := (hw.perform call).1
  cases call with
  | new => exact absurd rfl hcall
  | insert context =>
    rw [Store.perform] at hw' ⊢
    cases hi : store.insert context with
    | error e => exact hw.size_eq_max rfl
    | ok r => exact hw.size_of_insert hi
  | remove handle =>
    rw [Store.perform] at hw' ⊢
    cases hr : store.remove? handle with
    | none => exact hw.size_eq_max rfl
    | some r =>
      rw [hr] at hw'
      exact hw'.size_eq_max (hw.size_remove hr)
  | drain => exact hw'.size_eq_max (size_drain store)
  | edit handle change => exact hw'.size_eq_max (size_update change)
  | editOf pid change =>
    rw [Store.perform] at hw' ⊢
    cases hf : store.find? pid with
    | none => exact hw.size_eq_max rfl
    | some handle =>
      rw [hf] at hw'
      exact hw'.size_eq_max (size_update change)

theorem index_lt_of_inserted {call : Call} (hi : (store.perform call).1 = .inserted handle) :
    handle.index < (store.perform call).2.slots.size := by
  cases call with
  | insert context =>
    exact (occupied_of_contains (hw.contains_of_inserted hi)).lt_size
  | remove handle =>
    rw [Store.perform] at hi
    split at hi <;> cases hi
  | editOf pid change =>
    rw [Store.perform] at hi
    split at hi <;> cases hi
  | new | drain | edit _ _ => cases hi

/-! ## Runs -/

/-- After some calls there are as many slots as before, or as there were contexts at once. -/
theorem size_after {calls : List Call} (hcalls : ∀ call ∈ calls, call ≠ .new) :
    (store.after calls).slots.size = max store.slots.size (mostLive store calls) := by
  induction calls generalizing store with
  | nil => exact (max_eq_left hw.length_le_size).symm
  | cons call calls ih =>
    obtain ⟨hcall, hcalls⟩ := List.forall_mem_cons.mp hcalls
    have hstart := hw.length_le_size
    have hstep := length_le_mostLive (store.perform call).2 calls
    rw [after_cons, ih (hw.perform call).1 hcalls, hw.size_perform hcall, mostLive]
    omega

/-- Every handle that is answered on the way is to one of the slots that there are at the end. -/
theorem index_lt_of_answered {calls : List Call} (hcalls : ∀ call ∈ calls, call ≠ .new)
    {call : Call} (ha : (call, .inserted handle) ∈ store.answered calls) :
    handle.index < (store.after calls).slots.size := by
  induction calls generalizing store with
  | nil => exact absurd ha List.not_mem_nil
  | cons first calls ih =>
    obtain ⟨-, hrest⟩ := List.forall_mem_cons.mp hcalls
    have hw' := (hw.perform first).1
    rw [after_cons]
    rcases List.mem_cons.mp ha with hfirst | hlater
    · have hi : (store.perform first).1 = .inserted handle := (Prod.mk.inj hfirst).2.symm
      have hgrows := hw'.size_after hrest
      have hlt := hw.index_lt_of_inserted hi
      omega
    · exact ih hw' hrest hlater

end WellFormed

end Store

end BranchTrace
