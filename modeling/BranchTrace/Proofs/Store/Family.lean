import BranchTrace.Proofs.Store.Walk
import Mathlib.Logic.Relation

/-!
# Families

What a removal takes along. A context descends from another if its chain of parent handles leads
there (`Descends`), however the handles got into the contexts: to contexts that are long gone,
to the context itself, or around in a circle. A family is gathered with a stack of contexts whose
children are still to be looked at. `Gathering` is what one step of that keeps; it rests on every
context having one parent, so no context comes onto the stack twice, and the fuel is enough.

Main statement: `family_spec`, the family of a context lists its descendants, each once.
-/

namespace BranchTrace

namespace Store

/-- One handle names a context that was forked from the other. -/
def ForkedFrom (store : Store) (child parent : Handle) : Prop :=
  ∃ context, store.get? child = some context ∧ context.parent = some parent

/-- The chain of parent handles of a context leads to another handle. -/
def Descends (store : Store) : Handle → Handle → Prop :=
  Relation.ReflTransGen store.ForkedFrom

/-! ## Gathering -/

/-- The children of a handle that are gathered, all but the root. -/
def bornTo (children : Std.HashMap Handle (List Handle)) (root parent : Handle) : List Handle :=
  (children.getD parent []).filter (· ≠ root)

/-- What has been found of the family of `root`: all of it is among `live`, what is not on the
stack has its children found, and they were found for no other reason. -/
structure Gathering (children : Std.HashMap Handle (List Handle)) (root : Handle)
    (live stack found : List Handle) : Prop where
  stack_nodup : stack.Nodup
  found_nodup : found.Nodup
  stack_subset : stack ⊆ found
  found_subset : found ⊆ live
  root_mem : root ∈ found
  /-- A descendant was found as the child of one that is done. -/
  reason : ∀ k ∈ found, k ≠ root → ∃ p ∈ found, p ∉ stack ∧ k ∈ bornTo children root p
  closed : ∀ p ∈ found, p ∉ stack → bornTo children root p ⊆ found
  descends : ∀ k ∈ found, Relation.ReflTransGen (fun k p => k ∈ bornTo children root p) k root

variable {children : Std.HashMap Handle (List Handle)} {root : Handle} {live : List Handle}

theorem gathering_root (h : root ∈ live) : Gathering children root live [root] [root] where
  stack_nodup := List.nodup_singleton root
  found_nodup := List.nodup_singleton root
  stack_subset := List.Subset.refl _
  found_subset := by simpa using h
  root_mem := List.mem_singleton_self root
  reason k hk hne := absurd (List.mem_singleton.mp hk) hne
  closed p hp hn := absurd hp hn
  descends k hk := List.mem_singleton.mp hk ▸ .refl

/-- A child of a handle on the stack is not found yet: its only parent is not done. -/
theorem Gathering.not_found {parent k : Handle} {stack found : List Handle}
    (hg : Gathering children root live (parent :: stack) found)
    (hone : ∀ k p q, k ∈ bornTo children root p → k ∈ bornTo children root q → p = q)
    (hk : k ∈ bornTo children root parent) : k ∉ found := by
  intro hkf
  have hkr : k ≠ root := by simpa using (List.mem_filter.mp hk).2
  obtain ⟨p, -, hp, hkp⟩ := hg.reason k hkf hkr
  obtain rfl : parent = p := hone k parent p hk hkp
  exact hp List.mem_cons_self

theorem Gathering.step {parent : Handle} {stack found : List Handle}
    (hg : Gathering children root live (parent :: stack) found)
    (hlive : bornTo children root parent ⊆ live)
    (hnd : (bornTo children root parent).Nodup)
    (hone : ∀ k p q, k ∈ bornTo children root p → k ∈ bornTo children root q → p = q) :
    Gathering children root live ((bornTo children root parent).reverse ++ stack)
      ((bornTo children root parent).reverse ++ found) := by
  have hfresh : ∀ k ∈ bornTo children root parent, k ∉ found := fun _ => hg.not_found hone
  generalize hb : bornTo children root parent = born at hlive hnd hfresh
  obtain ⟨hps, hsn⟩ := List.nodup_cons.mp hg.stack_nodup
  have hpf : parent ∈ found := hg.stack_subset List.mem_cons_self
  have hdisj : born.reverse.Disjoint found := fun k hk => hfresh k (List.mem_reverse.mp hk)
  refine ⟨?_, ?_, ?_, ?_, List.mem_append_right _ hg.root_mem, ?_, ?_, ?_⟩
  · refine (List.nodup_reverse.mpr hnd).append hsn fun k hk hks => ?_
    exact hdisj hk (hg.stack_subset (List.mem_cons_of_mem _ hks))
  · exact (List.nodup_reverse.mpr hnd).append hg.found_nodup hdisj
  · exact List.append_subset.mpr ⟨List.subset_append_left _ _, fun k hk =>
      List.mem_append_right _ (hg.stack_subset (List.mem_cons_of_mem _ hk))⟩
  · exact List.append_subset.mpr ⟨fun k hk => hlive (List.mem_reverse.mp hk), hg.found_subset⟩
  · intro k hk hkr
    rcases List.mem_append.mp hk with hk | hk
    · refine ⟨parent, List.mem_append_right _ hpf, fun hp => ?_, hb ▸ List.mem_reverse.mp hk⟩
      exact (List.mem_append.mp hp).elim (fun hp => hdisj hp hpf) hps
    · obtain ⟨p, hp, hpn, hkp⟩ := hg.reason k hk hkr
      refine ⟨p, List.mem_append_right _ hp, fun hps => ?_, hkp⟩
      exact (List.mem_append.mp hps).elim (fun hps => hdisj hps hp)
        fun hps => hpn (List.mem_cons_of_mem _ hps)
  · intro p hp hpn
    obtain ⟨hpb, hps⟩ := not_or.mp (mt List.mem_append.mpr hpn)
    rcases List.mem_append.mp hp with hp | hp
    · exact absurd hp hpb
    by_cases he : p = parent
    · rw [he, hb]
      exact fun k hk => List.mem_append_left _ (List.mem_reverse.mpr hk)
    · refine fun k hk => List.mem_append_right _ (hg.closed p hp ?_ hk)
      exact fun h => (List.mem_cons.mp h).elim he hps
  · intro k hk
    rcases List.mem_append.mp hk with hk | hk
    · exact .head (hb ▸ List.mem_reverse.mp hk) (hg.descends parent hpf)
    · exact hg.descends k hk

/-- Gathering ends with every child of what was found, as long as there is fuel for all that is
live and not done. -/
theorem Gathering.run {fuel : Nat} {stack found : List Handle}
    (hg : Gathering children root live stack found)
    (hlive : ∀ p, bornTo children root p ⊆ live) (hnd : ∀ p, (bornTo children root p).Nodup)
    (hone : ∀ k p q, k ∈ bornTo children root p → k ∈ bornTo children root q → p = q)
    (hfuel : live.length + stack.length ≤ fuel + found.length) :
    ∃ family, Strict.gather children root fuel stack found = some family ∧
      Gathering children root live [] family := by
  induction fuel generalizing stack found with
  | zero =>
    have hle := hg.found_nodup.length_le_of_subset hg.found_subset
    obtain rfl : stack = [] := List.eq_nil_of_length_eq_zero (by omega)
    exact ⟨found, rfl, hg⟩
  | succ fuel ih =>
    cases stack with
    | nil => exact ⟨found, rfl, hg⟩
    | cons parent stack =>
      refine ih (hg.step (hlive parent) (hnd parent) hone) ?_
      simp only [List.length_append, List.length_cons, List.length_reverse] at hfuel ⊢
      omega

/-! ## The children of a context -/

variable {store : Store}

theorem getD_children (parent : Handle) :
    store.children.getD parent [] =
      (store.searchOrder.filter fun e => e.2.parent = some parent).map (·.1) := by
  unfold children
  induction store.searchOrder with
  | nil => simp
  | cons e es ih =>
    obtain ⟨handle, context⟩ := e
    rw [List.foldr_cons]
    generalize List.foldr _ _ es = found at ih ⊢
    cases hp : context.parent with
    | none => simpa [hp] using ih
    | some p =>
      simp only [hp, Std.HashMap.getD_insert, beq_iff_eq]
      by_cases h : p = parent
      · subst h
        simp [hp, ih]
      · simp [hp, h, ih]

namespace WellFormed

variable (hw : store.WellFormed)
include hw

theorem forkedFrom_iff {child parent : Handle} :
    store.ForkedFrom child parent ↔ child ∈ store.children.getD parent [] := by
  simp only [ForkedFrom, hw.get?_eq_some, getD_children, List.mem_map, List.mem_filter,
    hw.mem_searchOrder, decide_eq_true_eq]
  constructor
  · rintro ⟨c, hc, hp⟩
    exact ⟨(child, c), ⟨hc, hp⟩, rfl⟩
  · rintro ⟨⟨_, c⟩, ⟨hc, hp⟩, rfl⟩
    exact ⟨c, hc, hp⟩

theorem mem_bornTo {root child parent : Handle} :
    child ∈ bornTo store.children root parent ↔ store.ForkedFrom child parent ∧ child ≠ root := by
  rw [bornTo, List.mem_filter, hw.forkedFrom_iff]
  simp

theorem nodup_bornTo (root parent : Handle) : (bornTo store.children root parent).Nodup := by
  have hnd : (store.searchOrder.map (·.1)).Nodup := by
    rw [hw.searchOrder_eq]
    exact ((backwards_perm _).map _).nodup_iff.mpr hw.handles_nodup
  refine List.Nodup.filter _ ?_
  rw [getD_children]
  exact hnd.sublist (List.filter_sublist.map _)

theorem mem_handles {handle : Handle} :
    handle ∈ store.toList.map (·.1) ↔ store.contains handle = true := by
  simp [contains_iff, hw.get?_eq_some]

/-- What gathering ends with is all that descends from the root. -/
theorem mem_of_gathering {root : Handle} {live family : List Handle}
    (hg : Gathering store.children root live [] family) {handle : Handle} :
    handle ∈ family ↔ store.Descends handle root := by
  constructor
  · intro h
    exact Relation.ReflTransGen.mono (fun _ _ hk => (hw.mem_bornTo.mp hk).1) _ _
      (hg.descends handle h)
  · intro h
    induction h using Relation.ReflTransGen.head_induction_on with
    | refl => exact hg.root_mem
    | @head child parent hf _ ih =>
      by_cases hr : child = root
      · rw [hr]
        exact hg.root_mem
      · exact hg.closed parent ih (by simp) (hw.mem_bornTo.mpr ⟨hf, hr⟩)

/-- The family of a context is gathered to the end, and lists its descendants, each once. -/
theorem family_spec {root : Handle} (h : store.contains root = true) :
    Strict.gather store.children root store.slots.size [root] [root] =
        some (store.family root).reverse ∧
      (store.family root).Nodup ∧
      (∀ handle, handle ∈ store.family root ↔ store.Descends handle root) ∧
      ∀ handle ∈ store.family root, store.contains handle = true := by
  have hlive : ∀ p, bornTo store.children root p ⊆ store.toList.map (·.1) := by
    intro p k hk
    obtain ⟨c, hc, -⟩ := (hw.mem_bornTo.mp hk).1
    exact hw.mem_handles.mpr (contains_iff.mpr ⟨c, hc⟩)
  have hone : ∀ k p q, k ∈ bornTo store.children root p → k ∈ bornTo store.children root q →
      p = q := by
    intro k p q hp hq
    obtain ⟨c, hc, hcp⟩ := (hw.mem_bornTo.mp hp).1
    obtain ⟨d, hd, hdq⟩ := (hw.mem_bornTo.mp hq).1
    obtain rfl : c = d := Option.some.inj (hc.symm.trans hd)
    exact Option.some.inj (hcp.symm.trans hdq)
  have hfuel : (store.toList.map (·.1)).length + [root].length ≤
      store.slots.size + [root].length := by
    have hle := hw.len_add_free
    rw [List.length_map, hw.length_toList]
    omega
  obtain ⟨found, hf, hg⟩ :=
    (gathering_root (hw.mem_handles.mpr h)).run hlive (hw.nodup_bornTo root) hone hfuel
  have he : store.family root = found.reverse := by rw [family, Strict.gather_sound hf]
  rw [he, List.reverse_reverse]
  refine ⟨hf, List.nodup_reverse.mpr hg.found_nodup, fun handle => ?_, fun handle hh => ?_⟩
  · rw [List.mem_reverse, hw.mem_of_gathering hg]
  · exact hw.mem_handles.mp (hg.found_subset (List.mem_reverse.mp hh))

end WellFormed

end Store

end BranchTrace
