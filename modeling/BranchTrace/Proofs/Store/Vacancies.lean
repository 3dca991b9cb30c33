import BranchTrace.Proofs.Store.Calls
import BranchTrace.Proofs.Store.Generations
import Mathlib.Data.Stream.Init

/-!
# Vacancies

The slots that insertions take one after the other, as long as nothing else is freed: the free ones
and then new ones without end (`upcoming`). An insertion takes the first of them, a removal puts
those it freed in front, and nothing else moves them. Where no slot is occupied, every number is
among them once (`upcoming_bijective`).
-/

namespace BranchTrace

namespace Store

variable {store store' : Store} {handle : Handle}

/-- The slots to come. -/
def upcoming (store : Store) : Stream' Nat :=
  store.free ++ₛ Stream'.iterate Nat.succ store.slots.size

theorem upcoming_congr (hf : store'.free = store.free)
    (hs : store'.slots.size = store.slots.size) : store'.upcoming = store.upcoming := by
  rw [upcoming, hf, hs, upcoming]

theorem upcoming_update (f : Context → Context) :
    (store.update handle f).upcoming = store.upcoming := by
  rw [update]
  split
  · exact upcoming_congr (free_modify ..) (size_modify ..)
  · rfl

/-- Taking a slot into use is taking the first one to come. -/
theorem upcoming_allocate {m : Member} {index : Nat} (h : store.allocate m = some (index, store')) :
    store.upcoming = Stream'.cons index store'.upcoming := by
  rw [allocate] at h
  split at h
  · next free hf =>
    cases h
    simp only [upcoming, hf, Array.size_modify, Stream'.cons_append_stream]
  · next hf =>
    split at h
    · cases h
    · cases h
      simp only [upcoming, hf, Array.size_push, Stream'.nil_append_stream]
      exact Stream'.iterate_eq ..

namespace WellFormed

variable (hw : store.WellFormed)
include hw

theorem upcoming_insert {context : Context} (h : store.insert context = .ok (handle, store')) :
    store.upcoming = Stream'.cons handle.index store'.upcoming ∧
      handle = store.handleAt handle.index := by
  rcases hw.allocate_spec { context, prev := 0, next := 0 } with ⟨hn, -⟩ | ⟨index, s, hs, ha⟩
  · simp [Store.insert, hn] at h
  · simp only [Store.insert, hs, Except.ok.injEq, Prod.mk.injEq] at h
    obtain ⟨rfl, rfl⟩ := h
    have hup : s.upcoming = (s.link index).upcoming :=
      upcoming_congr (free_link index).symm (size_link index).symm
    refine ⟨(upcoming_allocate hs).trans (congrArg _ hup), ?_⟩
    exact (handleAt_link index index).trans (ha.handleAt index)

theorem upcoming_remove {removed : List Context}
    (h : store.remove? handle = some (removed, store')) :
    store'.upcoming = ((store.family handle).map (·.index)).reverse ++ₛ store.upcoming := by
  obtain ⟨-, -, ring, unlinked, hu, -, hr⟩ := hw.parts_of_remove? h
  rw [upcoming, hr.free, hr.size, hu.free, hu.size, Stream'.append_append_stream, upcoming]

/-- Where no slot is occupied, all of them are free. -/
theorem free_of_vacant (hempty : store.toList = []) :
    store.free.length = store.slots.size ∧ ∀ i, i ∈ store.free ↔ i < store.slots.size := by
  have hlen := hw.len_add_free
  rw [← hw.length_toList, hempty, List.length_nil, Nat.zero_add] at hlen
  refine ⟨hlen, fun i => ?_⟩
  have hvacant : ¬store.Occupied i := by
    rw [← hw.mem_indices, hempty]
    exact List.not_mem_nil
  rw [hw.mem_free, and_iff_left hvacant]

/-- Where no slot is occupied, the free slots come first, and then all others in order. -/
theorem get_upcoming_of_vacant (hempty : store.toList = []) :
    (∀ k (h : k < store.free.length), store.upcoming.get k = store.free[k]) ∧
      ∀ k, store.free.length ≤ k → store.upcoming.get k = k := by
  have hiterate : ∀ n a, (Stream'.iterate Nat.succ a).get n = a + n := by
    intro n a
    induction n with
    | zero => rfl
    | succ n ih => rw [Stream'.get_succ_iterate', ih, Nat.add_succ]
  refine ⟨fun k h => Stream'.get_append_left k _ _ h, fun k h => ?_⟩
  obtain ⟨n, rfl⟩ := Nat.exists_eq_add_of_le h
  rw [upcoming, Stream'.get_append_right, hiterate, (hw.free_of_vacant hempty).1]

/-- Where no slot is occupied, every slot is to come, and once. -/
theorem upcoming_bijective (hempty : store.toList = []) :
    Function.Bijective store.upcoming.get := by
  obtain ⟨hlen, hmem⟩ := hw.free_of_vacant hempty
  obtain ⟨hfree, hnew⟩ := hw.get_upcoming_of_vacant hempty
  have hlt : ∀ k, store.upcoming.get k < store.slots.size ↔ k < store.free.length := by
    intro k
    by_cases hk : k < store.free.length
    · rw [hfree k hk]
      exact iff_of_true ((hmem _).mp (List.getElem_mem hk)) hk
    · rw [hnew k (Nat.le_of_not_lt hk), hlen]
  constructor
  · intro a b hab
    have hiff : a < store.free.length ↔ b < store.free.length := by rw [← hlt, ← hlt, hab]
    by_cases ha : a < store.free.length
    · rw [hfree a ha, hfree b (hiff.mp ha)] at hab
      exact (hw.free_nodup.getElem_inj_iff).mp hab
    · rwa [hnew a (Nat.le_of_not_lt ha), hnew b (Nat.le_of_not_lt (mt hiff.mpr ha))] at hab
  · intro i
    by_cases hi : i < store.slots.size
    · obtain ⟨k, hk, rfl⟩ := List.getElem_of_mem ((hmem i).mpr hi)
      exact ⟨k, hfree k hk⟩
    · exact ⟨i, hnew i (by omega)⟩

end WellFormed

end Store

end BranchTrace
