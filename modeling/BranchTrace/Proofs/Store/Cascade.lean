import BranchTrace.Proofs.Store.Calls
import BranchTrace.Tracer.Basic

/-!
# The cascade of a removal

What is left after a context was removed with its descendants, and what went. The parent handles
may be anything: none, handles of contexts that are gone, handles that were never given out, the
handle of the context itself, or handles that lead around in a circle. A removal starts from one
context, so a circle through it goes as a whole, and one apart from it stays as a whole.

Main statement: `remove_cascades`, for the stores that calls lead to. A live handle takes its
descendants along, each once, and the other contexts stay as they were, in their order; any other
handle is stale and changes nothing.
-/

namespace BranchTrace

namespace Store

/-- The family of a context has left a store, and nothing else has. -/
structure Cascaded (store : Store) (root : Handle) (family : List Handle) (store' : Store) :
    Prop where
  /-- Nothing is removed twice. -/
  nodup : family.Nodup
  /-- What goes is what leads to the root by parent handles of live contexts. -/
  mem_iff : ∀ handle, handle ∈ family ↔ store.Descends handle root
  live : ∀ handle ∈ family, store.contains handle = true
  /-- What stays keeps its handle and its context. -/
  get? : ∀ handle, store'.get? handle = if handle ∈ family then none else store.get? handle
  toList : store'.toList = store.toList.filter (·.1 ∉ family)
  /-- The oldest that is left is at the head. -/
  headHandle : store'.headHandle = (store.toList.find? (·.1 ∉ family)).map (·.1)
  /-- No context is left whose parent was removed. -/
  parent_live : ∀ handle context parent, store'.get? handle = some context →
    context.parent = some parent → store.contains parent = true → store'.contains parent = true

variable {store store' : Store} {root : Handle}

/-- A context forked from a member of a family is a member too. -/
theorem ForkedFrom.descends {child parent : Handle} (hf : store.ForkedFrom child parent)
    (hd : store.Descends parent root) : store.Descends child root :=
  Relation.ReflTransGen.head hf hd

theorem WellFormed.get?_filter {family : List Handle} (hw : store.WellFormed)
    (hw' : store'.WellFormed) (hlist : store'.toList = store.toList.filter (·.1 ∉ family))
    (handle : Handle) :
    store'.get? handle = if handle ∈ family then none else store.get? handle := by
  apply Option.ext
  intro context
  rw [hw'.get?_eq_some, hlist, List.mem_filter, ← hw.get?_eq_some]
  by_cases h : handle ∈ family <;> simp [h]

/-- A removal that keeps all but the family leaves no context without its parent. -/
theorem WellFormed.cascaded (hw : store.WellFormed) (hw' : store'.WellFormed)
    (h : store.contains root = true)
    (hlist : store'.toList = store.toList.filter (·.1 ∉ store.family root)) :
    store.Cascaded root (store.family root) store' := by
  obtain ⟨-, hnd, hmem, hlive⟩ := hw.family_spec h
  have hget := hw.get?_filter hw' hlist
  refine ⟨hnd, hmem, hlive, hget, hlist, ?_, ?_⟩
  · rw [hw'.headHandle_eq, hlist, List.head?_filter]
  · intro handle context parent hc hp hin
    rw [hget] at hc
    split at hc
    · cases hc
    next hout =>
      -- the parent of what stays stays: otherwise the child would be of the family
      have hpout : parent ∉ store.family root := by
        intro hpm
        apply hout
        rw [hmem] at hpm ⊢
        exact ForkedFrom.descends ⟨context, hc, hp⟩ hpm
      rw [contains_iff, hget, if_neg hpout]
      exact contains_iff.mp hin

theorem WellFormed.not_contains_of_isEmpty (hw : store.WellFormed) (h : store.isEmpty = true)
    (handle : Handle) : store.contains handle = false := by
  have hhead : store.head = none := Option.isNone_iff_eq_none.mp h
  have hlist : store.toList = [] := by simp [toList, hhead]
  apply Bool.eq_false_iff.mpr
  intro hc
  have hm := hw.mem_handles.mpr hc
  simp [hlist] at hm

/-- After any calls, removing a live handle removes it and its descendants, answers how many these
are and reports each of them once; removing any other handle answers that it is stale. Neither
breaks off, and nothing else changes. -/
theorem remove_cascades (calls : List Call) (handle : Handle) (machine : Machine) :
    let store := runCalls calls
    let tracing : Tracing := { store, machine }
    (store.contains handle = true → ∃ family store', store.Cascaded handle family store' ∧
      Strict.remove store handle = some (.ok family.length, store') ∧
      Tracing.remove handle tracing = (.ok family.length,
        (reportAll ((family.filterMap store.get?).map fun c => Event.removed c.pid)
          ({ store := store', machine } : Tracing)).2)) ∧
    (store.contains handle = false ∨ store.isEmpty = true →
      Strict.remove store handle = some (.error .staleHandle, store) ∧
      Tracing.remove handle tracing = (.error .staleHandle,
        (report (if store.isEmpty then .removeFromEmpty else .removeDead handle) tracing).2)) := by
  intro store tracing
  have hw : store.WellFormed := wellFormed_foldl_perform wellFormed_empty calls
  constructor
  · intro h
    obtain ⟨store', hr, hs, hw', hlist⟩ := hw.remove?_spec h
    refine ⟨_, store', hw.cascaded hw' h hlist, hs, ?_⟩
    simp only [Tracing.remove, tracing, hr, hw.length_filterMap_family h]
    rfl
  · intro h
    have hout : store.contains handle ≠ true := by
      rcases h with h | h
      · simp [h]
      · simp [hw.not_contains_of_isEmpty h]
    obtain ⟨hr, hs⟩ := remove?_of_not_contains hout
    refine ⟨hs, ?_⟩
    simp only [Tracing.remove, tracing, hr]
    rfl

/-- Of four contexts, two are each other's parents, one is its own, and one has a parent in a slot
that there is not. The second goes with the first. -/
theorem remove_cascades_circles :
    let context (pid : UInt32) (parent : Option Handle) : Context := ⟨pid, ⟨1⟩, 0, [], parent⟩
    let store := runCalls [.insert (context 7 none), .insert (context 8 (some ⟨0, 0⟩)),
      .insert (context 9 (some ⟨2, 0⟩)), .insert (context 10 (some ⟨9, 3⟩)),
      .edit ⟨0, 0⟩ fun c => { c with parent := some ⟨1, 0⟩ }]
    store.contains ⟨0, 0⟩ = true ∧ store.contains ⟨9, 3⟩ = false ∧
      (∃ family store', store.Cascaded ⟨0, 0⟩ family store' ∧
        Strict.remove store ⟨0, 0⟩ = some (.ok family.length, store') ∧
        store'.get? ⟨1, 0⟩ = none) ∧
      Strict.remove store ⟨9, 3⟩ = some (.error .staleHandle, store) := by
  intro context store
  have hin : store.contains ⟨0, 0⟩ = true := by decide
  have hout : store.contains ⟨9, 3⟩ = false := by decide
  obtain ⟨family, store', hc, hs, -⟩ := (remove_cascades _ ⟨0, 0⟩ (.new 1)).1 hin
  refine ⟨hin, hout, ⟨family, store', hc, hs, ?_⟩,
    ((remove_cascades _ ⟨9, 3⟩ (.new 1)).2 (.inl hout)).1⟩
  have hf : store.ForkedFrom ⟨1, 0⟩ ⟨0, 0⟩ := ⟨context 8 (some ⟨0, 0⟩), by decide, rfl⟩
  rw [hc.get?, if_pos ((hc.mem_iff _).mpr (.single hf))]

end Store

end BranchTrace
