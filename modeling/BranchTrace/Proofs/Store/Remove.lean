import BranchTrace.Proofs.Store.Family
import BranchTrace.Proofs.Store.Insert

/-!
# Removal

A removal takes the slots of a family off the ring, one after the other, and then frees them:
`Unlinked` and `Released` say what is left after each part. Main statements: `remove?_spec`, the
list of contexts loses exactly the family, and `drain_spec`, which frees every occupied slot.
-/

namespace BranchTrace

namespace Store

/-! ## Off the ring -/

/-- Some slots were taken off the ring and are still occupied. -/
structure Unlinked (store : Store) (ring doomed : List Nat) (store' : Store) : Prop where
  threaded : store'.Threaded (ring.filter (· ∉ doomed))
  context? : ∀ i, store'.context? i = store.context? i
  handleAt : ∀ i, store'.handleAt i = store.handleAt i
  size : store'.slots.size = store.slots.size
  free : store'.free = store.free

variable {store store' : Store}

theorem Unlinked.occupied_iff {ring doomed : List Nat} (hu : store.Unlinked ring doomed store')
    {i : Nat} : store'.Occupied i ↔ store.Occupied i := by
  rw [occupied_iff_context?, hu.context?, ← occupied_iff_context?]

theorem Strict.unlink_of_threaded {ring : List Nat} (ht : store.Threaded ring) {index : Nat}
    (hi : index ∈ ring) : Strict.unlink store index = some (store.unlink index) := by
  suffices h : ∃ s, Strict.unlink store index = some s by
    obtain ⟨s, hs⟩ := h
    rw [hs, unlink_sound hs]
  obtain ⟨p, hpm, hp⟩ := ht.linked.exists_prev hi
  obtain ⟨n, hnm, hn⟩ := ht.linked.exists_next hi
  obtain ⟨m, hm, rfl⟩ := next?_eq_some.mp hn.1
  obtain rfl : m.prev = p := by
    obtain ⟨m', hm', h⟩ := prev?_eq_some.mp hp.2
    rw [← h, Option.some.inj (hm.symm.trans hm')]
  have hlen : store.len ≠ 0 := by
    rw [ht.len]
    exact Nat.ne_of_gt (List.length_pos_of_mem hi)
  simp [Strict.unlink, hm, Strict.modify, occupied_modify, ht.occupied hpm, ht.occupied hnm, hlen]

/-- Taking slots off the ring, one after the other. -/
theorem Threaded.unlink_all {ring : List Nat} (ht : store.Threaded ring) {doomed : List Nat}
    (hnd : doomed.Nodup) (hsub : doomed ⊆ ring) :
    doomed.foldlM Strict.unlink store = some (doomed.foldl Store.unlink store) ∧
      store.Unlinked ring doomed (doomed.foldl Store.unlink store) := by
  induction doomed generalizing store ring with
  | nil =>
    refine ⟨rfl, ?_, fun _ => rfl, fun _ => rfl, rfl, rfl⟩
    simpa using ht
  | cons index doomed ih =>
    obtain ⟨hi, hnd⟩ := List.nodup_cons.mp hnd
    obtain ⟨him, hsub⟩ := List.cons_subset.mp hsub
    have hsub' : doomed ⊆ ring.filter (· ≠ index) := fun j hj =>
      List.mem_filter.mpr ⟨hsub hj, by simpa using fun h : j = index => hi (h ▸ hj)⟩
    obtain ⟨hs, hu⟩ := ih (ht.unlink him) hnd hsub'
    refine ⟨?_, ?_, fun i => (hu.context? i).trans (context?_unlink index i),
      fun i => (hu.handleAt i).trans (handleAt_unlink index i), hu.size.trans (size_unlink index),
      hu.free.trans (free_unlink index)⟩
    · rw [List.foldlM_cons, Strict.unlink_of_threaded ht him]
      exact hs
    · have hf : ring.filter (· ∉ index :: doomed) =
          (ring.filter (· ≠ index)).filter (· ∉ doomed) := by
        rw [List.filter_filter]
        exact List.filter_congr fun j _ => by simp [not_or, Bool.and_comm]
      rw [hf]
      exact hu.threaded

/-! ## Free -/

/-- Some slots were freed. -/
structure Released (store : Store) (doomed : List Nat) (store' : Store) : Prop where
  member? : ∀ i, store'.member? i = if i ∈ doomed then none else store.member? i
  handleAt : ∀ i, i ∉ doomed → store'.handleAt i = store.handleAt i
  free : store'.free = doomed.reverse ++ store.free
  size : store'.slots.size = store.slots.size
  head : store'.head = store.head
  len : store'.len = store.len

theorem released_release (store : Store) (index : Nat) :
    store.Released [index] (store.release index) where
  member? i := by
    simp only [release, Store.member?, Array.getElem?_modify, List.mem_singleton,
      eq_comm (a := i)]
    split <;> cases store.slots[i]? <;> rfl
  handleAt i hi := by
    have hne : index ≠ i := fun h => hi (by simp [h])
    simp [release, Store.handleAt, Array.getElem?_modify, hne]
  free := rfl
  size := Array.size_modify
  head := rfl
  len := rfl

theorem Released.occupied_iff {doomed : List Nat} (hr : store.Released doomed store') {i : Nat} :
    store'.Occupied i ↔ store.Occupied i ∧ i ∉ doomed := by
  rw [Occupied, hr.member?, Occupied]
  by_cases h : i ∈ doomed <;> simp [h]

theorem Released.trans {first second : List Nat} {store'' : Store}
    (hr : store.Released first store') (hr' : store'.Released second store'') :
    store.Released (first ++ second) store'' where
  member? i := by
    rw [hr'.member?, hr.member?]
    by_cases h : i ∈ second <;> simp [h]
  handleAt i hi := by
    rw [List.mem_append, not_or] at hi
    rw [hr'.handleAt i hi.2, hr.handleAt i hi.1]
  free := by rw [hr'.free, hr.free, List.reverse_append, List.append_assoc]
  size := hr'.size.trans hr.size
  head := hr'.head.trans hr.head
  len := hr'.len.trans hr.len

theorem released_nil : store.Released [] store :=
  ⟨by simp, fun _ _ => rfl, rfl, rfl, rfl, rfl⟩

/-- Freeing occupied slots, one after the other. -/
theorem release_all {doomed : List Nat} (hnd : doomed.Nodup)
    (ho : ∀ i ∈ doomed, store.Occupied i) :
    doomed.foldlM Strict.release store = some (doomed.foldl Store.release store) ∧
      store.Released doomed (doomed.foldl Store.release store) := by
  induction doomed generalizing store with
  | nil => exact ⟨rfl, released_nil⟩
  | cons index doomed ih =>
    obtain ⟨hi, hnd⟩ := List.nodup_cons.mp hnd
    have hr := released_release store index
    have ho' : ∀ i ∈ doomed, (store.release index).Occupied i := fun i h =>
      hr.occupied_iff.mpr ⟨ho i (List.mem_cons_of_mem _ h), by
        simpa using fun he : i = index => hi (he ▸ h)⟩
    obtain ⟨hs, hall⟩ := ih hnd ho'
    refine ⟨?_, hr.trans hall⟩
    rw [List.foldlM_cons, Strict.release, if_pos (ho index List.mem_cons_self)]
    exact hs

/-- Freed slots come onto the stack of free slots. -/
theorem Released.mem_free {doomed : List Nat} (hr : store.Released doomed store')
    (ho : ∀ i ∈ doomed, store.Occupied i)
    (hf : ∀ i, i ∈ store.free ↔ i < store.slots.size ∧ ¬store.Occupied i) (i : Nat) :
    i ∈ store'.free ↔ i < store'.slots.size ∧ ¬store'.Occupied i := by
  rw [hr.free, List.mem_append, List.mem_reverse, hf, hr.occupied_iff, hr.size]
  by_cases h : i ∈ doomed
  · simp [h, (ho i h).lt_size]
  · simp [h]

theorem Released.free_nodup {doomed : List Nat} (hr : store.Released doomed store')
    (hnd : doomed.Nodup) (ho : ∀ i ∈ doomed, store.Occupied i)
    (hf : ∀ i, i ∈ store.free ↔ i < store.slots.size ∧ ¬store.Occupied i)
    (hfn : store.free.Nodup) : store'.free.Nodup := by
  rw [hr.free]
  refine (List.nodup_reverse.mpr hnd).append hfn fun i hi hif => ?_
  exact ((hf i).mp hif).2 (ho i (List.mem_reverse.mp hi))

theorem Released.threaded {ring doomed : List Nat} (hr : store.Released doomed store')
    (ht : store.Threaded ring) (hd : ∀ i ∈ ring, i ∉ doomed) : store'.Threaded ring :=
  ht.congr (fun i hi => (hr.member? i).trans (if_neg (hd i hi))) hr.head hr.len

theorem Released.item? {doomed : List Nat} (hr : store.Released doomed store') {i : Nat}
    (hi : i ∉ doomed) : store'.item? i = store.item? i := by
  refine item?_congr ?_ (hr.handleAt i hi)
  rw [context?, hr.member?, if_neg hi, context?]

/-! ## A whole family -/

theorem handleAt_of_contains {handle : Handle} (h : store.contains handle = true) :
    store.handleAt handle.index = handle := by
  obtain ⟨c, hc⟩ := contains_iff.mp h
  exact (item?_eq_some.mp (get?_eq_some_iff_item?.mp hc)).2.symm

theorem get?_of_contains {handle : Handle} (h : store.contains handle = true) :
    store.get? handle = store.context? handle.index := by
  rw [get?, live?, if_pos (handleAt_of_contains h), context?]

/-- Of the handles to occupied slots, the number of the slot tells which one it is. -/
theorem mem_map_index {handles : List Handle} (hl : ∀ k ∈ handles, store.contains k = true)
    {i : Nat} : i ∈ handles.map (·.index) ↔ store.handleAt i ∈ handles := by
  rw [List.mem_map]
  constructor
  · rintro ⟨k, hk, rfl⟩
    rwa [handleAt_of_contains (hl k hk)]
  · intro h
    exact ⟨_, h, rfl⟩

theorem nodup_map_index {handles : List Handle} (hnd : handles.Nodup)
    (hl : ∀ k ∈ handles, store.contains k = true) : (handles.map (·.index)).Nodup := by
  refine hnd.map_on fun a ha b hb hab => ?_
  rw [← handleAt_of_contains (hl a ha), ← handleAt_of_contains (hl b hb), hab]

/-- Removing the slots of live handles: all of them leave the ring before the first is freed. -/
theorem WellFormed.remove_handles (hw : store.WellFormed) {handles : List Handle}
    (hnd : handles.Nodup) (hl : ∀ k ∈ handles, store.contains k = true) :
    let doomed := handles.map (·.index)
    let unlinked := doomed.foldl Store.unlink store
    let freed := doomed.foldl Store.release unlinked
    doomed.foldlM Strict.unlink store = some unlinked ∧
      doomed.foldlM Strict.release unlinked = some freed ∧ freed.WellFormed ∧
      freed.toList = store.toList.filter (·.1 ∉ handles) := by
  intro doomed unlinked freed
  obtain ⟨ring, ht, hmem⟩ := hw.ring
  have hdn : doomed.Nodup := nodup_map_index hnd hl
  have hdo : ∀ i ∈ doomed, store.Occupied i := by
    intro i hi
    obtain ⟨k, hk, rfl⟩ := List.mem_map.mp hi
    exact occupied_of_contains (hl k hk)
  obtain ⟨hs, hu⟩ := ht.unlink_all hdn fun i hi => (hmem i).mpr (hdo i hi)
  have hdo' : ∀ i ∈ doomed, unlinked.Occupied i := fun i hi => hu.occupied_iff.mpr (hdo i hi)
  obtain ⟨hs', hr⟩ := release_all hdn hdo'
  have hfree : ∀ i, i ∈ unlinked.free ↔ i < unlinked.slots.size ∧ ¬unlinked.Occupied i := by
    intro i
    rw [hu.free, hu.size, hu.occupied_iff, hw.mem_free]
  have hth : freed.Threaded (ring.filter (· ∉ doomed)) :=
    hr.threaded hu.threaded fun i hi => by simpa using (List.mem_filter.mp hi).2
  have hsize : freed.slots.size ≤ maxSlots := (hr.size.trans hu.size).trans_le hw.size_le
  refine ⟨hs, hs', ⟨⟨_, hth, fun i => ?_⟩, ?_, hr.mem_free hdo' hfree, hsize⟩, ?_⟩
  · rw [hr.occupied_iff, hu.occupied_iff, List.mem_filter, hmem]
    simp
  · exact hr.free_nodup hdn hdo' hfree (hu.free ▸ hw.free_nodup)
  · rw [hth.toList_eq hsize, ht.toList_eq hw.size_le, List.filterMap_filter, List.filter_filterMap]
    refine List.filterMap_congr fun i hi => ?_
    obtain ⟨e, he⟩ := Option.isSome_iff_exists.mp (item?_isSome.mpr (ht.occupied hi))
    have hh : i ∈ doomed ↔ e.1 ∈ handles := (item?_eq_some.mp he).2 ▸ mem_map_index hl
    by_cases hd : i ∈ doomed
    · simp [hd, he, Option.filter, hh.mp hd]
    · have hent : freed.item? i = store.item? i :=
        (hr.item? hd).trans (item?_congr (hu.context? i) (hu.handleAt i))
      simp [hd, hent, he, Option.filter, mt hh.mpr hd]

/-- What a removal does to a context that is there: its whole family goes, and the others keep
their order. -/
theorem WellFormed.remove?_spec (hw : store.WellFormed) {handle : Handle}
    (h : store.contains handle = true) :
    ∃ store', store.remove? handle =
        some ((store.family handle).filterMap store.get?, store') ∧
      Strict.remove store handle = some (.ok (store.family handle).length, store') ∧
      store'.WellFormed ∧ store'.toList = store.toList.filter (·.1 ∉ store.family handle) := by
  obtain ⟨hg, hnd, -, hl⟩ := hw.family_spec h
  obtain ⟨hu, hr, hwf, hlist⟩ := hw.remove_handles hnd hl
  obtain ⟨ring, ht, -⟩ := hw.ring
  refine ⟨_, ?_, ?_, hwf, hlist⟩
  · have hc : ((store.family handle).map (·.index)).filterMap store.context? =
        (store.family handle).filterMap store.get? := by
      rw [List.filterMap_map]
      exact List.filterMap_congr fun k hk => (get?_of_contains (hl k hk)).symm
    rw [remove?, if_pos h, ← hc]
    rfl
  · simp [Strict.remove, h, ht.strict_searchOrder hw.size_le, hg, hu, hr]

theorem remove?_of_not_contains {handle : Handle} (h : store.contains handle ≠ true) :
    store.remove? handle = none ∧
      Strict.remove store handle = some (.error .staleHandle, store) :=
  ⟨if_neg h, if_neg h⟩

theorem WellFormed.of_remove? (hw : store.WellFormed) {handle : Handle} {removed : List Context}
    (h : store.remove? handle = some (removed, store')) :
    store.contains handle = true ∧ store'.WellFormed ∧
      store'.toList = store.toList.filter (·.1 ∉ store.family handle) := by
  by_cases hc : store.contains handle = true
  · obtain ⟨s, hs, -, hspec⟩ := hw.remove?_spec hc
    cases h.symm.trans hs
    exact ⟨hc, hspec⟩
  · cases h.symm.trans (remove?_of_not_contains hc).1

/-- The two parts of a removal: the family leaves the ring, and then its slots are freed. -/
theorem WellFormed.parts_of_remove? (hw : store.WellFormed) {handle : Handle}
    {removed : List Context} (h : store.remove? handle = some (removed, store')) :
    let doomed := (store.family handle).map (·.index)
    doomed.Nodup ∧ (∀ i ∈ doomed, store.Occupied i) ∧
      ∃ ring unlinked, store.Unlinked ring doomed unlinked ∧
        store' = doomed.foldl Store.release unlinked ∧ unlinked.Released doomed store' := by
  intro doomed
  obtain ⟨hc, -⟩ := hw.of_remove? h
  obtain ⟨-, hnd, -, hl⟩ := hw.family_spec hc
  rw [remove?, if_pos hc, Option.some.injEq, Prod.mk.injEq] at h
  obtain ⟨-, rfl⟩ := h
  obtain ⟨ring, ht, hmem⟩ := hw.ring
  have hdn : doomed.Nodup := nodup_map_index hnd hl
  have hdo : ∀ i ∈ doomed, store.Occupied i := by
    intro i hi
    obtain ⟨k, hk, rfl⟩ := List.mem_map.mp hi
    exact occupied_of_contains (hl k hk)
  obtain ⟨-, hu⟩ := ht.unlink_all hdn fun i hi => (hmem i).mpr (hdo i hi)
  obtain ⟨-, hr⟩ := release_all hdn fun i hi => hu.occupied_iff.mpr (hdo i hi)
  exact ⟨hdn, hdo, ring, _, hu, rfl, hr⟩

/-! ## Everything -/

/-- Freeing slots if they are occupied is freeing the occupied ones. -/
theorem foldl_release_occupied {indices : List Nat} (hnd : indices.Nodup) (store : Store) :
    indices.foldl (fun s i => if (s.member? i).isSome then s.release i else s) store =
        (indices.filter (store.Occupied ·)).foldl Store.release store ∧
      indices.foldlM (fun s i => if (s.member? i).isSome then Strict.release s i else some s)
          store =
        (indices.filter (store.Occupied ·)).foldlM Strict.release store := by
  induction indices generalizing store with
  | nil => exact ⟨rfl, rfl⟩
  | cons index indices ih =>
    obtain ⟨hi, hnd⟩ := List.nodup_cons.mp hnd
    by_cases ho : store.Occupied index
    · have hm : (store.member? index).isSome = true := ho
      -- freeing the first slot leaves the others as they are
      have hf : indices.filter ((store.release index).Occupied ·) =
          indices.filter (store.Occupied ·) := by
        refine List.filter_congr fun j hj => ?_
        have hne : j ≠ index := fun h => hi (h ▸ hj)
        simp [(released_release store index).occupied_iff, hne]
      have hr : Strict.release store index = some (store.release index) := if_pos ho
      obtain ⟨h, hs⟩ := ih hnd (store.release index)
      rw [hf] at h hs
      simp [ho, hm, hr, h, hs]
    · have hm : ¬(store.member? index).isSome = true := ho
      obtain ⟨h, hs⟩ := ih hnd store
      simp [ho, hm, h, hs]

theorem WellFormed.drain_spec (hw : store.WellFormed) :
    Strict.drain store = some store.drain ∧ store.drain.1 = store.toList.length ∧
      store.drain.2.WellFormed ∧ store.drain.2.toList = [] := by
  obtain ⟨h, hs⟩ := foldl_release_occupied (List.nodup_range (n := store.slots.size)) store
  have hdn : ((List.range store.slots.size).filter (store.Occupied ·)).Nodup :=
    List.nodup_range.filter _
  have hdo : ∀ i ∈ (List.range store.slots.size).filter (store.Occupied ·), store.Occupied i :=
    fun i hi => by simpa using (List.mem_filter.mp hi).2
  obtain ⟨hs', hr⟩ := release_all hdn hdo
  rw [← h] at hr hs'
  have hnone : ∀ i, ¬store.releaseAll.Occupied i := by
    intro i hi
    obtain ⟨ho, hn⟩ := hr.occupied_iff.mp hi
    exact hn (List.mem_filter.mpr ⟨List.mem_range.mpr ho.lt_size, by simpa using ho⟩)
  refine ⟨?_, hw.length_toList.symm, ⟨⟨[], ⟨List.nodup_nil, rfl, cyclic_nil, rfl⟩, ?_⟩, ?_, ?_, ?_⟩,
    rfl⟩
  · rw [Strict.drain, hs, hs']
    rfl
  · exact fun i => iff_of_false List.not_mem_nil (hnone i)
  · exact hr.free_nodup hdn hdo hw.mem_free hw.free_nodup
  · exact hr.mem_free hdo hw.mem_free
  · exact hr.size.trans_le hw.size_le

end Store

end BranchTrace
