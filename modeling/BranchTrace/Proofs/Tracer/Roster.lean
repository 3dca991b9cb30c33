import BranchTrace.Proofs.Tracer.Registered

/-!
# The roster of traced processes

What the control plane of a tracer amounts to once slots, handles and registers are left out: a
list of process numbers, oldest first, each with the number of the process that forked it. A
request adds one to the list, or takes one out of it with everybody whose chain of parents leads
there.

`roster` reads that list off a store. `roster_edit`, `roster_insert` and `roster_remove` follow
it through the three ways in which a store changes.
-/

namespace BranchTrace

/-- A traced process, and the process that forked it while it was traced. -/
structure Tracee where
  pid : UInt32
  parent : Option UInt32
  deriving DecidableEq, Repr

/-- The traced processes, oldest first. -/
abbrev Roster := List Tracee

namespace Roster

/-- Whether a process is on the roster. -/
def has (roster : Roster) (pid : UInt32) : Bool :=
  roster.any (·.pid = pid)

/-- One process on the roster was forked by another. -/
def ForkedBy (roster : Roster) (child parent : UInt32) : Prop :=
  ∃ tracee ∈ roster, tracee.pid = child ∧ tracee.parent = some parent

/-- The chain of parents of a process leads to another one. -/
def Reaches (roster : Roster) : UInt32 → UInt32 → Prop :=
  Relation.ReflTransGen roster.ForkedBy

open Classical in
/-- The roster without a process and everybody whose chain of parents leads to it. -/
noncomputable def without (roster : Roster) (pid : UInt32) : Roster :=
  roster.filter fun tracee => ¬roster.Reaches tracee.pid pid

end Roster

namespace Store

/-- The process that a handle names. -/
def pidOf (store : Store) (handle : Handle) : Option UInt32 :=
  (store.get? handle).map (·.pid)

/-- The traced processes of a store, each with the one that its parent handle names. -/
def roster (store : Store) : Roster :=
  store.toList.map fun e => { pid := e.2.pid, parent := e.2.parent.bind store.pidOf }

variable {store store' : Store}

theorem WellFormed.pidOf_eq_some (hw : store.WellFormed) {handle : Handle} {pid : UInt32} :
    store.pidOf handle = some pid ↔ ∃ context, (handle, context) ∈ store.toList ∧
      context.pid = pid := by
  simp only [pidOf, Option.map_eq_some_iff, hw.get?_eq_some]

theorem WellFormed.pidOf_of_mem (hw : store.WellFormed) {e : Handle × Context}
    (he : e ∈ store.toList) : store.pidOf e.1 = some e.2.pid :=
  hw.pidOf_eq_some.mpr ⟨e.2, he, rfl⟩

theorem WellFormed.has_roster (hw : store.WellFormed) (pid : UInt32) :
    store.roster.has pid = Tracer.isTraced store pid := by
  rw [Bool.eq_iff_iff, Tracer.isTraced, Option.isSome_iff_ne_none, ne_eq, hw.find?_eq_none]
  simp [roster, Roster.has]

theorem WellFormed.length_roster (hw : store.WellFormed) : store.roster.length = store.len := by
  rw [roster, List.length_map, hw.length_toList]

theorem WellFormed.tracedPids_eq (hw : store.WellFormed) :
    Tracer.tracedPids store = backwards (store.roster.map Tracee.pid) := by
  rw [Tracer.tracedPids, hw.searchOrder_eq, roster, List.map_map, backwards_map]
  rfl

theorem WellFormed.head?_roster (hw : store.WellFormed) :
    store.roster.head?.isSome = store.headHandle.isSome := by
  rw [hw.headHandle_eq, roster, List.head?_map, Option.isSome_map, Option.isSome_map]

/-- A context that both stores have names the same process in both. -/
theorem pidOf_congr (hw : store.WellFormed) (hw' : store'.WellFormed) {e : Handle × Context}
    (he : e ∈ store.toList) (he' : e ∈ store'.toList) : store'.pidOf e.1 = store.pidOf e.1 := by
  rw [hw.pidOf_of_mem he, hw'.pidOf_of_mem he']

/-- Two stores have the same roster entry for a context whose parent is in both. -/
theorem bind_pidOf_congr {parent : Option Handle}
    (h : ∀ p ∈ parent, store'.pidOf p = store.pidOf p) :
    parent.bind store'.pidOf = parent.bind store.pidOf := by
  cases parent with
  | none => rfl
  | some p => exact h p rfl

end Store

namespace Registered

variable {config : Config} {store store' : Store} (hr : Registered config store)
include hr

theorem exists_parent {e : Handle × Context} (he : e ∈ store.toList) {parent : Handle}
    (hp : parent ∈ e.2.parent) : ∃ context, (parent, context) ∈ store.toList := by
  obtain ⟨c, hc⟩ := Store.contains_iff.mp (hr.contains_parent he hp)
  exact ⟨c, hr.wellFormed.get?_eq_some.mp hc⟩

theorem pidOf_inj {k k' : Handle} {pid : UInt32} (hk : store.pidOf k = some pid)
    (hk' : store.pidOf k' = some pid) : k = k' := by
  obtain ⟨c, hc, hp⟩ := hr.wellFormed.pidOf_eq_some.mp hk
  obtain ⟨c', hc', hp'⟩ := hr.wellFormed.pidOf_eq_some.mp hk'
  exact congrArg Prod.fst (List.inj_on_of_nodup_map hr.pids_nodup hc hc' (hp.trans hp'.symm))

theorem roster_edit {handle : Handle} (he : store.Edited handle store') :
    store'.roster = store.roster := by
  obtain ⟨hw', g, hlist, hg⟩ := he.spec hr.wellFormed
  have hpid : ∀ k, store'.pidOf k = store.pidOf k := by
    intro k
    ext pid
    rw [hw'.pidOf_eq_some, hr.wellFormed.pidOf_eq_some, hlist]
    constructor
    · rintro ⟨c, hc, rfl⟩
      obtain ⟨e, he, hge⟩ := List.mem_map.mp hc
      obtain ⟨h1, h2, -⟩ := hg e he
      rw [hge] at h1 h2
      exact ⟨e.2, by rwa [show k = e.1 from h1], h2.pid.symm⟩
    · rintro ⟨c, hc, rfl⟩
      obtain ⟨h1, h2, -⟩ := hg _ hc
      exact ⟨(g (k, c)).2, List.mem_map.mpr ⟨_, hc, Prod.ext h1 rfl⟩, h2.pid⟩
  rw [Store.roster, Store.roster, hlist, List.map_map]
  refine List.map_congr_left fun e he => ?_
  obtain ⟨-, h2, -⟩ := hg e he
  simp only [Function.comp_apply, h2.pid, h2.parent, funext hpid]

theorem roster_insert {context : Context} {handle : Handle}
    (hi : store.insert context = .ok (handle, store'))
    (hparent : ∀ parent ∈ context.parent, store.contains parent = true) :
    store'.roster = store.roster ++ [⟨context.pid, context.parent.bind store.pidOf⟩] := by
  obtain ⟨hw', hlist⟩ := hr.wellFormed.of_insert hi
  have hpid : ∀ k, store.contains k = true → store'.pidOf k = store.pidOf k := by
    intro k hk
    obtain ⟨c, hc⟩ := Store.contains_iff.mp hk
    have hm := hr.wellFormed.get?_eq_some.mp hc
    exact Store.pidOf_congr hr.wellFormed hw' hm (hlist ▸ List.mem_append_left _ hm)
  rw [Store.roster, hlist, List.map_append, List.map_singleton]
  refine congrArg₂ (· ++ ·) (List.map_congr_left fun e he => ?_) ?_
  · rw [Store.bind_pidOf_congr fun p hp => hpid p (hr.contains_parent he hp)]
  · rw [Store.bind_pidOf_congr fun p hp => hpid p (hparent p hp)]

/-! ## Families -/

theorem reaches_of_descends {k h : Handle} (hd : store.Descends k h) {a b : UInt32}
    (hk : store.pidOf k = some a) (hh : store.pidOf h = some b) : store.roster.Reaches a b := by
  induction hd using Relation.ReflTransGen.head_induction_on generalizing a with
  | refl =>
    obtain rfl : a = b := Option.some.inj (hk.symm.trans hh)
    exact .refl
  | @head k k' hf _ ih =>
    obtain ⟨c, hc, hp⟩ := hf
    have hm := hr.wellFormed.get?_eq_some.mp hc
    obtain ⟨c', hm'⟩ := hr.exists_parent hm hp
    have hk' := hr.wellFormed.pidOf_of_mem hm'
    obtain rfl : c.pid = a := Option.some.inj ((hr.wellFormed.pidOf_of_mem hm).symm.trans hk)
    refine .head ⟨_, List.mem_map_of_mem hm, rfl, ?_⟩ (ih hk')
    simp only [hp, Option.bind_some, hk']

theorem descends_of_reaches {a b : UInt32} (hab : store.roster.Reaches a b) {k h : Handle}
    (hk : store.pidOf k = some a) (hh : store.pidOf h = some b) : store.Descends k h := by
  induction hab using Relation.ReflTransGen.head_induction_on generalizing k with
  | refl =>
    obtain rfl := hr.pidOf_inj hk hh
    exact .refl
  | @head a a' hf _ ih =>
    obtain ⟨tracee, ht, rfl, hp⟩ := hf
    obtain ⟨e, he, rfl⟩ := List.mem_map.mp ht
    obtain ⟨p, hpe, hpp⟩ := Option.bind_eq_some_iff.mp hp
    obtain rfl := hr.pidOf_inj hk (hr.wellFormed.pidOf_of_mem he)
    exact .head ⟨e.2, hr.wellFormed.get?_eq_some.mpr he, hpe⟩ (ih hpp)

/-- A removal takes out of the roster a process and everybody whose chain of parents leads to it. -/
theorem roster_remove {pid : UInt32} {handle : Handle} {removed : List Context}
    (hf : store.find? pid = some handle) (hrem : store.remove? handle = some (removed, store')) :
    store'.roster = store.roster.without pid := by
  obtain ⟨hc, hw', hlist⟩ := hr.wellFormed.of_remove? hrem
  obtain ⟨-, -, hfamily, -⟩ := hr.wellFormed.family_spec hc
  obtain ⟨c, hm, hp⟩ := hr.wellFormed.exists_of_find? hf
  have hh : store.pidOf handle = some pid := hr.wellFormed.pidOf_eq_some.mpr ⟨c, hm, hp⟩
  have hgone : ∀ e ∈ store.toList,
      (e.1 ∈ store.family handle ↔ store.roster.Reaches e.2.pid pid) := by
    intro e he
    have hk := hr.wellFormed.pidOf_of_mem he
    rw [hfamily]
    exact ⟨fun h => hr.reaches_of_descends h hk hh, fun h => hr.descends_of_reaches h hk hh⟩
  -- what is left has its parents left
  have hkept : ∀ e ∈ store'.toList, e.2.parent.bind store'.pidOf = e.2.parent.bind store.pidOf := by
    intro e he
    refine Store.bind_pidOf_congr fun p hp => ?_
    obtain ⟨c', hm'⟩ := (hr.remove hrem).exists_parent he hp
    rw [hlist] at hm'
    exact Store.pidOf_congr hr.wellFormed hw' (List.mem_of_mem_filter hm') (hlist ▸ hm')
  have hroster : store'.roster = store'.toList.map fun e =>
      ({ pid := e.2.pid, parent := e.2.parent.bind store.pidOf } : Tracee) :=
    List.map_congr_left fun e he => by rw [hkept e he]
  rw [hroster, hlist, Roster.without, Store.roster, List.filter_map]
  exact congrArg (List.map _) (List.filter_congr fun e he =>
    decide_eq_decide.mpr (not_congr (hgone e he)))

end Registered

end BranchTrace
