import BranchTrace.Proofs.Store.Walk

/-!
# Changing a context in place

`update` changes one context and nothing else. Main statements: `update_spec`, the store stays
well-formed and the list of contexts keeps its order and its handles, `update_comm`, changes of
different contexts can be done in either order, and `Edited.spec` for changes that keep whose
context it is.
-/

namespace BranchTrace

/-- Two contexts of one process that hold the same number of branches. -/
structure Context.Alike (context context' : Context) : Prop where
  pid : context'.pid = context.pid
  parent : context'.parent = context.parent
  capacity : context'.capacity = context.capacity

/-- Changes in an array can be done in either order, unless they are to one place and differ. -/
theorem array_modify_comm {α : Type} (xs : Array α) {i j : Nat} {f g : α → α}
    (h : i = j → ∀ x, g (f x) = f (g x)) :
    (xs.modify i f).modify j g = (xs.modify j g).modify i f := by
  refine Array.ext_getElem? fun k => ?_
  simp only [Array.getElem?_modify]
  by_cases hi : i = k
  · by_cases hj : j = k
    · simp only [hi, hj, if_true, Option.map_map]
      exact Option.map_congr fun x _ => h (hi.trans hj.symm) x
    · simp [hi, hj]
  · simp [hi]

namespace Store

variable {store : Store}

section Modify

variable {index : Nat} {f : Context → Context}

theorem next?_modify_context (i : Nat) :
    (store.modify index fun m => { m with context := f m.context }).next? i = store.next? i := by
  rw [next?, member?_modify]
  split
  · rw [Option.map_map]
    rfl
  · rfl

theorem prev?_modify_context (i : Nat) :
    (store.modify index fun m => { m with context := f m.context }).prev? i = store.prev? i := by
  rw [prev?, member?_modify]
  split
  · rw [Option.map_map]
    rfl
  · rfl

theorem item?_modify_context (i : Nat) :
    (store.modify index fun m => { m with context := f m.context }).item? i =
      (store.item? i).map fun e => if i = index then (e.1, f e.2) else e := by
  rw [item?, context?, member?_modify, handleAt_modify, item?, context?]
  by_cases h : i = index
  · cases hm : store.member? index <;> simp [h, hm]
  · simp only [if_neg h, Option.map_id']

theorem Threaded.modify_context {ring : List Nat} (ht : store.Threaded ring) (index : Nat)
    (f : Context → Context) :
    (store.modify index fun m => { m with context := f m.context }).Threaded ring where
  nodup := ht.nodup
  head := ht.head
  linked := ht.linked.imp_of_mem fun a _ b _ h =>
    ⟨(next?_modify_context a).trans h.1, (prev?_modify_context b).trans h.2⟩
  len := ht.len

end Modify

theorem update_of_not_contains {handle : Handle} {f : Context → Context}
    (h : store.contains handle ≠ true) : store.update handle f = store :=
  if_neg h

theorem WellFormed.update_spec (hw : store.WellFormed) (handle : Handle) (f : Context → Context) :
    (store.update handle f).WellFormed ∧
      (store.update handle f).toList =
        store.toList.map fun e => if e.1 = handle then (e.1, f e.2) else e := by
  by_cases h : store.contains handle = true
  · obtain ⟨c, hc⟩ := contains_iff.mp h
    have hlive := hw.get?_eq_some.mp hc
    obtain ⟨ring, ht, hmem⟩ := hw.ring
    rw [update, if_pos h]
    have ht' := ht.modify_context handle.index f
    have hsize : (store.modify handle.index fun m =>
        { m with context := f m.context }).slots.size ≤ maxSlots :=
      (size_modify handle.index _).trans_le hw.size_le
    refine ⟨⟨⟨ring, ht', fun i => ?_⟩, hw.free_nodup, fun i => ?_, hsize⟩, ?_⟩
    · rw [hmem, occupied_modify]
    · rw [free_modify, size_modify, occupied_modify, hw.mem_free]
    · rw [ht'.toList_eq hsize, ht.toList_eq hw.size_le, List.map_filterMap]
      refine List.filterMap_congr fun i hi => ?_
      rw [item?_modify_context]
      refine Option.map_congr fun e he => ?_
      -- a handle to the slot of a context is the handle of that context
      have hidx : i = handle.index ↔ e.1 = handle := by
        have he1 := (item?_eq_some.mp he).2
        have hh1 := (item?_eq_some.mp (get?_eq_some_iff_item?.mp hc)).2
        constructor
        · rintro rfl
          exact he1.trans hh1.symm
        · rintro rfl
          rw [he1, handleAt_index]
      simp [hidx]
  · rw [update_of_not_contains h]
    refine ⟨hw, (List.map_id _).symm.trans (List.map_congr_left fun e he => ?_)⟩
    have hne : e.1 ≠ handle := by
      rintro rfl
      exact h (contains_iff.mpr ⟨e.2, hw.get?_eq_some.mpr he⟩)
    simp [hne]

/-- Only what becomes of the context that a handle names matters to a change. -/
theorem update_congr {handle : Handle} {f g : Context → Context}
    (h : ∀ context, store.get? handle = some context → f context = g context) :
    store.update handle f = store.update handle g := by
  by_cases hc : store.contains handle = true
  · obtain ⟨context, hget⟩ := contains_iff.mp hc
    have hcontext := (item?_eq_some.mp (get?_eq_some_iff_item?.mp hget)).1
    rw [update, if_pos hc, update, if_pos hc]
    simp only [modify, Store.mk.injEq, and_true]
    refine Array.ext_getElem? fun i => ?_
    rw [Array.getElem?_modify, Array.getElem?_modify]
    split
    · next hi =>
      subst hi
      refine Option.map_congr fun slot hslot => ?_
      simp only [context?, member?, hslot, Option.bind_eq_bind, Option.bind_some] at hcontext
      obtain ⟨m, hm, rfl⟩ := Option.map_eq_some_iff.mp hcontext
      simp only [hm, Option.map_some, h _ hget]
    · rfl
  · rw [update_of_not_contains hc, update_of_not_contains hc]

/-- To put the context that a handle names in its own place changes nothing. -/
theorem update_self {handle : Handle} {context : Context}
    (h : store.get? handle = some context) : store.update handle (fun _ => context) = store := by
  have hid : store.update handle (fun _ => context) = store.update handle id :=
    update_congr fun _ hfound => Option.some.inj (h.symm.trans hfound)
  rw [hid, update]
  split
  · have hslots : (store.slots.modify handle.index fun slot =>
        { slot with member := slot.member.map fun m => { m with context := id m.context } }) =
        store.slots := by
      refine Array.ext_getElem? fun i => ?_
      rw [Array.getElem?_modify]
      split
      · cases store.slots[i]? <;> simp
      · rfl
    rw [modify, hslots]
  · rfl

/-- What a handle names after a change of a context. -/
theorem live?_update (handle : Handle) (f : Context → Context) (k : Handle) :
    (store.update handle f).live? k =
      if k = handle then (store.live? k).map fun m => { m with context := f m.context }
      else store.live? k := by
  rw [update]
  split
  · next hc =>
    have hlive : store.handleAt handle.index = handle := by
      rw [contains, live?] at hc
      by_contra hn
      simp [hn] at hc
    rw [live?, handleAt_modify, member?_modify, live?]
    by_cases hk : k = handle
    · subst hk
      simp [hlive]
    · by_cases hi : k.index = handle.index
      · have hdead : ¬store.handleAt k.index = k := by
          rw [hi, hlive]
          exact fun h => hk h.symm
        simp [hk, hdead]
      · simp [hk, hi]
  · next hc =>
    split
    · next hk =>
      have hnone : store.live? k = none := by simpa [contains, hk] using hc
      rw [hnone]
      rfl
    · rfl

theorem get?_update (handle : Handle) (f : Context → Context) (k : Handle) :
    (store.update handle f).get? k =
      if k = handle then (store.get? k).map f else store.get? k := by
  rw [get?, live?_update, get?]
  split
  · rw [Option.map_map, Option.map_map]
    rfl
  · rfl

theorem contains_update (handle : Handle) (f : Context → Context) (k : Handle) :
    (store.update handle f).contains k = store.contains k := by
  rw [contains, live?_update]
  split <;> simp [contains]

/-- Live handles to one slot are the same handle. -/
theorem index_ne_of_contains {handle handle' : Handle} (h : store.contains handle = true)
    (h' : store.contains handle' = true) (hne : handle ≠ handle') :
    handle.index ≠ handle'.index := by
  obtain ⟨context, hget⟩ := contains_iff.mp h
  obtain ⟨context', hget'⟩ := contains_iff.mp h'
  intro hi
  have hat := (item?_eq_some.mp (get?_eq_some_iff_item?.mp hget)).2
  have hat' := (item?_eq_some.mp (get?_eq_some_iff_item?.mp hget')).2
  exact hne (hat.trans ((congrArg store.handleAt hi).trans hat'.symm))

theorem modify_comm {index index' : Nat} (hne : index ≠ index') (f g : Member → Member) :
    (store.modify index f).modify index' g = (store.modify index' g).modify index f := by
  simp only [modify, Store.mk.injEq, and_true]
  exact array_modify_comm _ fun h => absurd h hne

theorem update_comm {handle handle' : Handle} (hne : handle ≠ handle') (f g : Context → Context) :
    (store.update handle f).update handle' g = (store.update handle' g).update handle f := by
  by_cases h : store.contains handle = true
  · by_cases h' : store.contains handle' = true
    · rw [update, if_pos (by rwa [contains_update]), update, if_pos h,
        update, if_pos (by rwa [contains_update]), update, if_pos h']
      exact modify_comm (index_ne_of_contains h h' hne) ..
    · rw [update_of_not_contains (by rwa [contains_update]), update_of_not_contains h']
  · have hkept : (store.update handle' g).contains handle ≠ true := by rwa [contains_update]
    rw [update_of_not_contains h, update_of_not_contains hkept]

/-- A store after the context of one handle was changed, into one of the same process. -/
structure Edited (store : Store) (handle : Handle) (store' : Store) : Prop where
  edit : ∃ context context', store.get? handle = some context ∧ context.Alike context' ∧
    store' = store.update handle fun _ => context'

/-- An edit keeps the handles and the processes of all contexts, and their order. -/
theorem Edited.spec {handle : Handle} {store' : Store} (hw : store.WellFormed)
    (he : store.Edited handle store') :
    store'.WellFormed ∧ ∃ g : Handle × Context → Handle × Context,
      store'.toList = store.toList.map g ∧
      ∀ e ∈ store.toList, (g e).1 = e.1 ∧ e.2.Alike (g e).2 ∧ (e.1 ≠ handle → g e = e) := by
  obtain ⟨context, context', hget, halike, rfl⟩ := he
  obtain ⟨hw', hlist⟩ := hw.update_spec handle fun _ => context'
  refine ⟨hw', _, hlist, fun e he => ?_⟩
  by_cases h : e.1 = handle
  · have hc : e.2 = context := by
      rw [← h] at hget
      exact Option.some.inj ((hw.get?_eq_some.mpr he).symm.trans hget)
    rw [if_pos h]
    exact ⟨rfl, hc ▸ halike, fun hn => absurd h hn⟩
  · rw [if_neg h]
    exact ⟨rfl, ⟨rfl, rfl, rfl⟩, fun _ => rfl⟩

end Store

end BranchTrace
