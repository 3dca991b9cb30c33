import BranchTrace.Proofs.Store.Strict
import BranchTrace.Proofs.Store.WellFormed

/-!
# Walks around the ring

In a well-formed store both walks come back to the head after every context was seen once
(`toList_eq`, `searchOrder_eq`), so the contexts can be spoken of as the list `toList`, from the
oldest to the newest. `get?`, `find?` and `headHandle` are look-ups in that list.
-/

namespace BranchTrace

namespace Store

/-- One step of a walk. -/
def Leads (store : Store) (follow : Member → Nat) (i j : Nat) : Prop :=
  (store.member? i).map follow = some j

variable {store : Store}

theorem Strict.handleAt_of_occupied (hsize : store.slots.size ≤ maxSlots) {index : Nat}
    (ho : store.Occupied index) : Strict.handleAt store index = some (store.handleAt index) := by
  have hlt := ho.lt_size
  have h32 : maxSlots < UInt32.size := by decide
  rw [handleAt, if_pos ⟨hlt, by omega⟩]

/-- A walk along a chain of slots, the last of which leads to the head. -/
theorem Strict.walk_of_chain (hsize : store.slots.size ≤ maxSlots) {follow : Member → Nat}
    {head : Nat} (hh : store.head = some head) {index : Nat} {rest : List Nat}
    (hc : (index :: rest).IsChain (store.Leads follow))
    (hlast : ∀ z ∈ (index :: rest).getLast?, store.Leads follow z head) (hn : head ∉ rest)
    {fuel : Nat} (hf : rest.length < fuel) :
    walk store follow fuel index = some ((index :: rest).filterMap store.item?) := by
  induction rest generalizing index fuel with
  | nil =>
    obtain ⟨fuel, rfl⟩ := Nat.exists_eq_add_one_of_ne_zero (Nat.ne_zero_of_lt hf)
    obtain ⟨m, hm, hmh⟩ := Option.map_eq_some_iff.mp (hlast index rfl)
    have ho := handleAt_of_occupied hsize (occupied_iff.mpr ⟨m, hm⟩)
    simp [walk, hm, ho, hh, hmh, item?, context?]
  | cons next rest ih =>
    obtain ⟨fuel, rfl⟩ := Nat.exists_eq_add_one_of_ne_zero (Nat.ne_zero_of_lt hf)
    obtain ⟨hl, hc⟩ := List.isChain_cons_cons.mp hc
    obtain ⟨m, hm, hmn⟩ := Option.map_eq_some_iff.mp hl
    have ho := handleAt_of_occupied hsize (occupied_iff.mpr ⟨m, hm⟩)
    have hne : head ≠ next := fun h => hn (h ▸ List.mem_cons_self)
    have hr := ih hc (fun z hz => hlast z (by simpa using hz))
      (fun h => hn (List.mem_cons_of_mem _ h)) (Nat.lt_of_succ_lt_succ hf)
    simp [walk, hm, ho, hh, hmn, hne, hr, item?, context?]

theorem Strict.walk_of_cyclic (hsize : store.slots.size ≤ maxSlots) {follow : Member → Nat}
    {head : Nat} (hh : store.head = some head) {rest : List Nat}
    (hc : Cyclic (store.Leads follow) (head :: rest)) (hnd : (head :: rest).Nodup)
    (hf : (head :: rest).length ≤ store.slots.size) :
    walk store follow store.slots.size head = some ((head :: rest).filterMap store.item?) :=
  walk_of_chain hsize hh hc.chain (fun z hz => hc.closed z hz head rfl)
    (List.nodup_cons.mp hnd).1 hf

theorem Threaded.strict_toList {ring : List Nat} (ht : store.Threaded ring)
    (hsize : store.slots.size ≤ maxSlots) :
    Strict.toList store = some (ring.filterMap store.item?) := by
  have hh := ht.head
  cases ring with
  | nil => simp [Strict.toList, hh]
  | cons head rest =>
    simp only [Strict.toList, hh, List.head?_cons]
    have hc : Cyclic (store.Leads Member.next) (head :: rest) :=
      ht.linked.imp_of_mem fun _ _ _ _ h => h.1
    exact Strict.walk_of_cyclic hsize hh hc ht.nodup ht.length_le

theorem Threaded.strict_searchOrder {ring : List Nat} (ht : store.Threaded ring)
    (hsize : store.slots.size ≤ maxSlots) :
    Strict.searchOrder store = some ((backwards ring).filterMap store.item?) := by
  have hh := ht.head
  have hp := backwards_perm ring
  have hc : Cyclic (store.Leads Member.prev) (backwards ring) :=
    ht.linked.backwards.imp_of_mem fun _ _ _ _ h => h.2
  cases ring with
  | nil => simp [Strict.searchOrder, hh, backwards]
  | cons head rest =>
    simp only [Strict.searchOrder, hh, List.head?_cons]
    exact Strict.walk_of_cyclic hsize hh hc (hp.nodup_iff.mpr ht.nodup)
      (hp.length_eq.trans_le ht.length_le)

theorem Threaded.toList_eq {ring : List Nat} (ht : store.Threaded ring)
    (hsize : store.slots.size ≤ maxSlots) : store.toList = ring.filterMap store.item? :=
  Strict.toList_sound (ht.strict_toList hsize)

theorem item?_isSome {index : Nat} : (store.item? index).isSome ↔ store.Occupied index := by
  simp [item?, context?, Occupied]

/-- The contexts are looked up from the oldest and then from the newest back. -/
theorem Threaded.searchOrder_eq {ring : List Nat} (ht : store.Threaded ring)
    (hsize : store.slots.size ≤ maxSlots) : store.searchOrder = backwards store.toList := by
  rw [Strict.searchOrder_sound (ht.strict_searchOrder hsize), ht.toList_eq hsize]
  cases ring with
  | nil => rfl
  | cons head rest =>
    have ho := item?_isSome.mpr (ht.occupied (List.mem_cons_self (a := head) (l := rest)))
    obtain ⟨e, he⟩ := Option.isSome_iff_exists.mp ho
    simp [backwards, he, List.filterMap_reverse]

theorem Threaded.map_index_toList {ring : List Nat} (ht : store.Threaded ring)
    (hsize : store.slots.size ≤ maxSlots) : store.toList.map (·.1.index) = ring := by
  rw [ht.toList_eq hsize, List.map_filterMap]
  refine (List.filterMap_congr (g := some) fun i hi => ?_).trans List.filterMap_some
  obtain ⟨e, he⟩ := Option.isSome_iff_exists.mp (item?_isSome.mpr (ht.occupied hi))
  simp [he, (item?_eq_some.mp he).2]

/-! ## The list of contexts -/

namespace WellFormed

variable (hw : store.WellFormed)
include hw

theorem searchOrder_eq : store.searchOrder = backwards store.toList := by
  obtain ⟨ring, ht, -⟩ := hw.ring
  exact ht.searchOrder_eq hw.size_le

theorem mem_searchOrder {e : Handle × Context} : e ∈ store.searchOrder ↔ e ∈ store.toList := by
  rw [hw.searchOrder_eq]
  exact (backwards_perm _).mem_iff

/-- The contexts are what stands in the slots. -/
theorem mem_toList {e : Handle × Context} :
    e ∈ store.toList ↔ store.item? e.1.index = some e := by
  obtain ⟨ring, ht, hmem⟩ := hw.ring
  rw [ht.toList_eq hw.size_le, List.mem_filterMap]
  constructor
  · rintro ⟨i, -, hi⟩
    have hidx : e.1.index = i := by rw [(item?_eq_some.mp hi).2]; rfl
    rwa [hidx]
  · intro h
    exact ⟨e.1.index, (hmem _).mpr (item?_isSome.mp (by simp [h])), h⟩

theorem mem_indices {index : Nat} :
    index ∈ store.toList.map (·.1.index) ↔ store.Occupied index := by
  obtain ⟨ring, ht, hmem⟩ := hw.ring
  rw [ht.map_index_toList hw.size_le, hmem]

theorem indices_nodup : (store.toList.map (·.1.index)).Nodup := by
  obtain ⟨ring, ht, -⟩ := hw.ring
  rw [ht.map_index_toList hw.size_le]
  exact ht.nodup

theorem handles_nodup : (store.toList.map (·.1)).Nodup := by
  refine List.Nodup.of_map Handle.index ?_
  rw [List.map_map]
  exact hw.indices_nodup

theorem length_toList : store.toList.length = store.len := by
  obtain ⟨ring, ht, -⟩ := hw.ring
  rw [ht.len, ← ht.map_index_toList hw.size_le, List.length_map]

end WellFormed

/-! ## Look-ups -/

theorem get?_eq_some_iff_item? {handle : Handle} {context : Context} :
    store.get? handle = some context ↔ store.item? handle.index = some (handle, context) := by
  rw [item?_eq_some, get?, live?, context?]
  by_cases h : store.handleAt handle.index = handle
  · simp [h]
  · simp [h, Ne.symm h]

theorem contains_iff {handle : Handle} :
    store.contains handle = true ↔ ∃ context, store.get? handle = some context := by
  rw [contains, get?, ← Option.isSome_iff_exists, Option.isSome_map]

theorem exists_of_searchFrom {pid : UInt32} {handle : Handle} {fuel index : Nat}
    (h : store.searchFrom pid fuel index = some handle) :
    ∃ context, store.get? handle = some context ∧ context.pid = pid := by
  induction fuel generalizing index with
  | zero => cases h
  | succ fuel ih =>
    rw [searchFrom] at h
    cases hm : store.member? index with
    | none => simp [hm] at h
    | some m =>
      simp only [hm] at h
      split at h
      · next hp =>
        cases h
        refine ⟨m.context, ?_, hp⟩
        rw [get?, live?, handleAt_index, if_pos rfl, hm, Option.map_some]
      · split at h
        · cases h
        · exact ih h

/-- A process is found by a context of its own. -/
theorem exists_of_find? {pid : UInt32} {handle : Handle} (h : store.find? pid = some handle) :
    ∃ context, store.get? handle = some context ∧ context.pid = pid := by
  unfold find? at h
  cases hh : store.head with
  | none => simp [hh] at h
  | some head =>
    simp only [hh] at h
    exact exists_of_searchFrom h

theorem occupied_of_contains {handle : Handle} (h : store.contains handle = true) :
    store.Occupied handle.index := by
  obtain ⟨c, hc⟩ := contains_iff.mp h
  exact item?_isSome.mp (by simp [get?_eq_some_iff_item?.mp hc])

namespace WellFormed

variable (hw : store.WellFormed)
include hw

theorem get?_eq_some {handle : Handle} {context : Context} :
    store.get? handle = some context ↔ (handle, context) ∈ store.toList := by
  rw [hw.mem_toList, get?_eq_some_iff_item?]

theorem find?_eq_none {pid : UInt32} :
    store.find? pid = none ↔ ∀ e ∈ store.toList, e.2.pid ≠ pid := by
  rw [Store.find?_eq, Option.map_eq_none_iff, List.find?_eq_none]
  simp [hw.mem_searchOrder]

theorem exists_of_find? {pid : UInt32} {handle : Handle} (h : store.find? pid = some handle) :
    ∃ context, (handle, context) ∈ store.toList ∧ context.pid = pid := by
  obtain ⟨context, hget, hpid⟩ := Store.exists_of_find? h
  exact ⟨context, hw.get?_eq_some.mp hget, hpid⟩

theorem contains_of_mem {e : Handle × Context} (he : e ∈ store.toList) :
    store.contains e.1 = true :=
  contains_iff.mpr ⟨e.2, hw.get?_eq_some.mpr he⟩

theorem contains_of_find? {pid : UInt32} {handle : Handle} (h : store.find? pid = some handle) :
    store.contains handle = true := by
  obtain ⟨c, hc, -⟩ := hw.exists_of_find? h
  exact hw.contains_of_mem hc

/-- What a process is found by is a context of its own. -/
theorem pid_of_find? {pid : UInt32} {handle : Handle} {context : Context}
    (hf : store.find? pid = some handle) (hget : store.get? handle = some context) :
    context.pid = pid := by
  obtain ⟨found, hm, hp⟩ := hw.exists_of_find? hf
  rwa [Option.some.inj (hget.symm.trans (hw.get?_eq_some.mpr hm))]

theorem headHandle_eq : store.headHandle = store.toList.head?.map (·.1) := by
  obtain ⟨ring, ht, hmem⟩ := hw.ring
  rw [headHandle, ht.head, ht.toList_eq hw.size_le]
  cases ring with
  | nil => rfl
  | cons head rest =>
    obtain ⟨e, he⟩ := Option.isSome_iff_exists.mp
      (item?_isSome.mpr (ht.occupied (List.mem_cons_self (a := head) (l := rest))))
    simp [he, (item?_eq_some.mp he).2]

theorem contains_of_headHandle {handle : Handle} (h : store.headHandle = some handle) :
    store.contains handle = true := by
  rw [hw.headHandle_eq, Option.map_eq_some_iff] at h
  obtain ⟨e, he, rfl⟩ := h
  exact hw.contains_of_mem (List.mem_of_head? he)

end WellFormed

end Store

end BranchTrace
