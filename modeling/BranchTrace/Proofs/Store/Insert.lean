import BranchTrace.Proofs.Store.Walk

/-!
# Insertion

A new context takes the slot freed last, or a new slot if none is free, and becomes the newest.
Main statement: `insert_spec`. In a well-formed store an insertion fails only if all slots there
can be are occupied; otherwise the store stays well-formed and the list of contexts grows by the
new one, under a handle that no context has.
-/

namespace BranchTrace

namespace Store

/-- A slot was taken into use and is not yet on the ring. -/
structure Allocated (store : Store) (m : Member) (index : Nat) (store' : Store) : Prop where
  fresh : ¬store.Occupied index
  member? : ∀ i, store'.member? i = if i = index then some m else store.member? i
  handleAt : ∀ i, store'.handleAt i = store.handleAt i
  head : store'.head = store.head
  len : store'.len = store.len
  free_nodup : store'.free.Nodup
  mem_free : ∀ i, i ∈ store'.free ↔ i < store'.slots.size ∧ ¬store'.Occupied i
  size_le : store'.slots.size ≤ maxSlots

variable {store store' : Store} {m : Member} {index : Nat}

theorem Allocated.occupied_iff (ha : store.Allocated m index store') {i : Nat} :
    store'.Occupied i ↔ i = index ∨ store.Occupied i := by
  rw [Occupied, ha.member?]
  by_cases h : i = index <;> simp [h, Occupied]

theorem Allocated.context? (ha : store.Allocated m index store') (i : Nat) :
    store'.context? i = if i = index then some m.context else store.context? i := by
  rw [Store.context?, ha.member?]
  split <;> rfl

/-- Slots keep their neighbours while another one is taken into use. -/
theorem Threaded.congr {ring : List Nat} (ht : store.Threaded ring)
    (hm : ∀ i ∈ ring, store'.member? i = store.member? i) (hh : store'.head = store.head)
    (hl : store'.len = store.len) : store'.Threaded ring where
  nodup := ht.nodup
  head := hh.trans ht.head
  len := hl.trans ht.len
  linked := ht.linked.imp_of_mem fun a ha b hb h => by
    rw [Links, next?, prev?, hm a ha, hm b hb]
    exact h

namespace WellFormed

variable (hw : store.WellFormed)
include hw

/-- Taking the slot that was freed last. -/
theorem allocate_free {free : List Nat} (hf : store.free = index :: free) (m : Member) :
    ∃ store', store.allocate m = some (index, store') ∧ store.Allocated m index store' := by
  have hnd := hw.free_nodup
  rw [hf, List.nodup_cons] at hnd
  obtain ⟨hlt, hfresh⟩ := (hw.mem_free index).mp (hf ▸ List.mem_cons_self)
  refine ⟨_, by simp only [allocate, hf]; rfl, ?_⟩
  have hm : ∀ i, Store.member? { store with
      slots := store.slots.modify index fun slot => { slot with member := some m }, free } i =
        if i = index then some m else store.member? i := by
    intro i
    simp only [Store.member?, Array.getElem?_modify, eq_comm (a := i)]
    split
    · next h => simp [← h, Array.getElem?_eq_getElem hlt]
    · rfl
  refine ⟨hfresh, hm, fun i => ?_, rfl, rfl, hnd.2, fun i => ?_, by simpa using hw.size_le⟩
  · simp only [Store.handleAt, Array.getElem?_modify, Handle.mk.injEq, true_and]
    split <;> cases store.slots[i]? <;> rfl
  · have hmem := hw.mem_free i
    rw [hf, List.mem_cons] at hmem
    simp only [Occupied, hm, Array.size_modify] at hmem ⊢
    by_cases h : i = index
    · simp [h, hnd.1]
    · simpa [h] using hmem

/-- Taking a new slot. -/
theorem allocate_push (hf : store.free = []) (hlt : store.slots.size < maxSlots) (m : Member) :
    ∃ store', store.allocate m = some (store.slots.size, store') ∧
      store.Allocated m store.slots.size store' := by
  have hfresh : ¬store.Occupied store.slots.size := fun h => Nat.lt_irrefl _ h.lt_size
  refine ⟨_, by simp only [allocate, hf, if_neg (Nat.not_le_of_lt hlt)]; rfl, ?_⟩
  have hm : ∀ i, Store.member? { store with
      slots := store.slots.push { generation := 0, member := some m }, free := [] } i =
        if i = store.slots.size then some m else store.member? i := by
    intro i
    simp only [Store.member?, Array.getElem?_push]
    split <;> rfl
  refine ⟨hfresh, hm, fun i => ?_, rfl, rfl, List.nodup_nil, fun i => ?_, ?_⟩
  · simp only [Store.handleAt, Array.getElem?_push, Handle.mk.injEq, true_and]
    split
    · next h => simp [h]
    · rfl
  · have hmem := hw.mem_free i
    simp only [hf, List.not_mem_nil, false_iff, not_and, not_not] at hmem
    simp only [List.not_mem_nil, Occupied, hm, Array.size_push, false_iff, not_and, not_not]
    intro hi
    by_cases h : i = store.slots.size
    · simp [h]
    · simpa [h, Occupied] using hmem (by omega)
  · rw [Array.size_push]
    exact hlt

theorem allocate_spec (m : Member) :
    (store.allocate m = none ∧ store.len = maxSlots) ∨
      ∃ index store', store.allocate m = some (index, store') ∧
        store.Allocated m index store' := by
  have hlen := hw.len_add_free
  have hsize := hw.size_le
  cases hf : store.free with
  | cons index free => exact .inr ⟨index, hw.allocate_free hf m⟩
  | nil =>
    rw [hf, List.length_nil] at hlen
    by_cases hlt : store.slots.size < maxSlots
    · exact .inr ⟨_, hw.allocate_push hf hlt m⟩
    · refine .inl ⟨?_, by omega⟩
      simp only [allocate, hf, if_pos (Nat.le_of_not_lt hlt)]

end WellFormed

/-! ## Linking the slot -/

theorem occupied_link {i : Nat} : (store.link index).Occupied i ↔ store.Occupied i := by
  rw [occupied_iff_context?, context?_link, ← occupied_iff_context?]

namespace Strict

theorem modify_of_occupied {f : Member → Member} (h : store.Occupied index) :
    modify store index f = some (store.modify index f) :=
  if_pos h

theorem link_of_threaded {ring : List Nat} (ht : store.Threaded ring)
    (ho : store.Occupied index) : link store index = some (store.link index) := by
  have hh := ht.head
  suffices h : ∃ s, link store index = some s by
    obtain ⟨s, hs⟩ := h
    rw [hs, link_sound hs]
  cases ring with
  | nil => simp [link, hh, modify_of_occupied ho]
  | cons head rest =>
    obtain ⟨z, hz, hl⟩ := ht.linked.exists_prev (List.mem_cons_self (a := head) (l := rest))
    obtain ⟨k, hk, rfl⟩ := prev?_eq_some.mp hl.2
    have hhead : store.Occupied head := Store.occupied_iff.mpr ⟨k, hk⟩
    have hzo := ht.occupied hz
    simp [link, hh, hk, modify, occupied_modify, hhead, hzo, ho]

end Strict

/-- What an insertion leaves once it has its slot. -/
theorem Allocated.link (hw : store.WellFormed) (ha : store.Allocated m index store') :
    let inserted := { store'.link index with len := (store'.link index).len + 1 }
    Strict.link store' index = some (store'.link index) ∧ inserted.WellFormed ∧
      inserted.toList = store.toList ++ [(store.handleAt index, m.context)] := by
  intro inserted
  obtain ⟨ring, ht, hmem⟩ := hw.ring
  have hi : index ∉ ring := fun h => ha.fresh ((hmem index).mp h)
  have ho : store'.Occupied index := ha.occupied_iff.mpr (.inl rfl)
  have ht' : store'.Threaded ring :=
    ht.congr (fun i h => (ha.member? i).trans (if_neg fun he : i = index => hi (he ▸ h)))
      ha.head ha.len
  have hth : inserted.Threaded (ring ++ [index]) := ht'.link hi ho
  have hocc : ∀ i, inserted.Occupied i ↔ store'.Occupied i := fun i => occupied_link
  have hsize : inserted.slots.size = store'.slots.size := size_link index
  have hfree : inserted.free = store'.free := free_link index
  refine ⟨Strict.link_of_threaded ht' ho, ⟨⟨_, hth, fun i => ?_⟩, ?_, fun i => ?_, ?_⟩, ?_⟩
  · rw [hocc, ha.occupied_iff, ← hmem, List.mem_append, List.mem_singleton, or_comm]
  · rw [hfree]
    exact ha.free_nodup
  · rw [hfree, hsize, hocc, ha.mem_free]
  · rw [hsize]
    exact ha.size_le
  · have hent : ∀ i, inserted.item? i =
        if i = index then some (store.handleAt index, m.context) else store.item? i := by
      intro i
      have hc : inserted.context? i = store'.context? i := context?_link index i
      have hh : inserted.handleAt i = store'.handleAt i := handleAt_link index i
      rw [item?_congr hc hh, item?, ha.context?, ha.handleAt]
      split
      · next h => simp [h]
      · rfl
    rw [hth.toList_eq (hsize.trans_le ha.size_le), ht.toList_eq hw.size_le, List.filterMap_append]
    congr 1
    · exact List.filterMap_congr fun i h =>
        (hent i).trans (if_neg fun he : i = index => hi (he ▸ h))
    · simp [hent]

/-- What an insertion does. It fails only if all slots there can be are occupied. -/
theorem WellFormed.insert_spec (hw : store.WellFormed) (context : Context) :
    (store.insert context = .error .noMemory ∧ store.len = maxSlots ∧
        Strict.insert store context = some (.error .noMemory, store)) ∨
      ∃ handle store', store.insert context = .ok (handle, store') ∧
        Strict.insert store context = some (.ok handle, store') ∧ store'.WellFormed ∧
        store'.toList = store.toList ++ [(handle, context)] := by
  have hfree : ∀ m, Strict.allocate store m = some (store.allocate m) := fun m =>
    if_pos fun i hi => (hw.mem_free i).mp (List.mem_of_head? hi)
  rcases hw.allocate_spec { context, prev := 0, next := 0 } with ⟨hn, hl⟩ | ⟨index, s, hs, ha⟩
  · refine .inl ⟨by simp only [insert, hn], hl, ?_⟩
    simp [Strict.insert, hfree, hn]
  · obtain ⟨hlink, hwf, hlist⟩ := ha.link hw
    have hh : (s.link index).handleAt index = store.handleAt index :=
      (handleAt_link index index).trans (ha.handleAt index)
    have ho : (s.link index).Occupied index := occupied_link.mpr (ha.occupied_iff.mpr (.inl rfl))
    have hsize : (s.link index).slots.size ≤ maxSlots := (size_link index).trans_le ha.size_le
    refine .inr ⟨store.handleAt index, _, ?_, ?_, hwf, hlist⟩
    · simp only [insert, hs]
      rw [hh]
    · simp [Strict.insert, hfree, hs, hlink, Strict.handleAt_of_occupied hsize ho, hh]

theorem WellFormed.insert_of_full (hw : store.WellFormed) (hl : store.len = maxSlots)
    (context : Context) : store.insert context = .error .noMemory := by
  rcases hw.insert_spec context with ⟨h, -⟩ | ⟨handle, store', -, -, hw', hlist⟩
  · exact h
  · -- one more context than there can be slots
    have hlen := hw'.length_toList
    rw [hlist, List.length_append, hw.length_toList, List.length_singleton] at hlen
    have hfree := hw'.len_add_free
    have hsize := hw'.size_le
    omega

theorem WellFormed.of_insert (hw : store.WellFormed) {context : Context} {handle : Handle}
    (h : store.insert context = .ok (handle, store')) :
    store'.WellFormed ∧ store'.toList = store.toList ++ [(handle, context)] := by
  rcases hw.insert_spec context with ⟨he, -⟩ | ⟨handle', s, hs, -, hspec⟩
  · cases h.symm.trans he
  · cases h.symm.trans hs
    exact hspec

/-- A context is added under a handle that no other one has. -/
theorem WellFormed.fresh_of_insert (hw : store.WellFormed) {context : Context} {handle : Handle}
    (h : store.insert context = .ok (handle, store')) : ∀ e ∈ store.toList, e.1 ≠ handle := by
  obtain ⟨hw', hlist⟩ := hw.of_insert h
  have hnd := hw'.handles_nodup
  rw [hlist, List.map_append, List.nodup_append] at hnd
  intro e he
  exact hnd.2.2 _ (List.mem_map_of_mem he) _ (List.mem_singleton_self _)

end Store

end BranchTrace
