import BranchTrace.Proofs.Store.Vacancies

/-!
# Stores under other names

The same calls on two stores that differ only in the handles they give out. A renaming of handles
leads from slot to slot and shifts the generations of each, so it carries on through every release.
`Aligned` says that one store holds what the other does, under other names, and that it takes its
slots in the same order; every call but the ones that empty a store keeps it (`Aligned.perform`).
Emptying frees the slots by their numbers, so their order is a new one afterwards: any two empty
stores are aligned, under names of their own (`aligned_of_vacant`).
-/

namespace BranchTrace

/-! ## Names -/

/-- A context with the name of its parent changed. -/
def Context.renamed (names : Handle ≃ Handle) (context : Context) : Context :=
  { context with parent := context.parent.map names }

theorem Context.renamed_symm (names : Handle ≃ Handle) (context : Context) :
    (context.renamed names).renamed names.symm = context := by
  simp [renamed, Option.map_map]

namespace Store

/-- An entry under another name. -/
def renameEntry (names : Handle ≃ Handle) (e : Handle × Context) : Handle × Context :=
  (names e.1, e.2.renamed names)

/-- A change of contexts, made under other names. -/
def renameChange (names : Handle ≃ Handle) (change : Context → Context) (context : Context) :
    Context :=
  (change (context.renamed names.symm)).renamed names

/-- Whether a call empties the store. -/
def Call.empties : Call → Bool
  | .new | .drain => true
  | _ => false

/-- The same call under other names. -/
def Call.renamed (names : Handle ≃ Handle) : Call → Call
  | .new => .new
  | .insert context => .insert (context.renamed names)
  | .remove handle => .remove (names handle)
  | .drain => .drain
  | .edit handle change => .edit (names handle) (renameChange names change)
  | .editOf pid change => .editOf pid (renameChange names change)

/-- The same answer under other names. -/
def Answer.renamed (names : Handle ≃ Handle) : Answer → Answer
  | .done => .done
  | .inserted handle => .inserted (names handle)
  | .removed count => .removed count
  | .edited handle => .edited (handle.map names)
  | .failed e => .failed e

theorem renameChange_renamed (names : Handle ≃ Handle) (change : Context → Context)
    (context : Context) :
    renameChange names change (context.renamed names) = (change context).renamed names := by
  rw [renameChange, Context.renamed_symm]

variable {names : Handle ≃ Handle} {s t : Store}

/-- One store shows what the other does, under other names, however it is looked at. -/
structure Lookalike (names : Handle ≃ Handle) (s t : Store) : Prop where
  toList : t.toList = s.toList.map (renameEntry names)
  searchOrder : t.searchOrder = s.searchOrder.map (renameEntry names)
  headHandle : t.headHandle = s.headHandle.map names
  find? : ∀ pid, t.find? pid = (s.find? pid).map names
  get? : ∀ handle, t.get? (names handle) = (s.get? handle).map (Context.renamed names)
  contains : ∀ handle, t.contains (names handle) = s.contains handle
  len : t.len = s.len

theorem mem_map_renameEntry {entries : List (Handle × Context)} {handle : Handle}
    {context : Context} :
    (names handle, context) ∈ entries.map (renameEntry names) ↔
      ∃ c, (handle, c) ∈ entries ∧ c.renamed names = context := by
  rw [List.mem_map]
  constructor
  · rintro ⟨⟨h, c⟩, hm, he⟩
    obtain ⟨hh, rfl⟩ := Prod.mk.inj he
    obtain rfl := names.injective hh
    exact ⟨c, hm, rfl⟩
  · rintro ⟨c, hm, rfl⟩
    exact ⟨_, hm, rfl⟩

/-- All that a well-formed store shows is read off the list of its contexts. -/
theorem lookalike_of_toList (hs : s.WellFormed) (ht : t.WellFormed)
    (h : t.toList = s.toList.map (renameEntry names)) : Lookalike names s t := by
  have hsearch : t.searchOrder = s.searchOrder.map (renameEntry names) := by
    rw [ht.searchOrder_eq, hs.searchOrder_eq, h, backwards_map]
  have hget : ∀ handle, t.get? (names handle) = (s.get? handle).map (Context.renamed names) := by
    intro handle
    ext context
    rw [ht.get?_eq_some, h, mem_map_renameEntry, Option.map_eq_some_iff]
    simp only [hs.get?_eq_some]
  refine ⟨h, hsearch, ?_, fun pid => ?_, hget, fun handle => ?_, ?_⟩
  · rw [ht.headHandle_eq, hs.headHandle_eq, h, List.head?_map, Option.map_map, Option.map_map]
    rfl
  · rw [find?_eq, find?_eq, hsearch, List.find?_map, Option.map_map, Option.map_map]
    rfl
  · rw [Bool.eq_iff_iff, contains_iff, contains_iff]
    simp only [hget, Option.map_eq_some_iff]
    exact ⟨fun ⟨_, c, hc, _⟩ => ⟨c, hc⟩, fun ⟨c, hc⟩ => ⟨_, c, hc, rfl⟩⟩
  · rw [← ht.length_toList, ← hs.length_toList, h, List.length_map]

/-! ## Families under other names -/

section Gather

variable {children children' : Std.HashMap Handle (List Handle)} {root : Handle}

/-- More fuel does not change what is gathered. -/
theorem Strict.gather_mono {fuel more : Nat} {stack found family : List Handle}
    (h : gather children root fuel stack found = some family) (hle : fuel ≤ more) :
    gather children root more stack found = some family := by
  induction fuel generalizing more stack found with
  | zero =>
    cases stack with
    | nil => cases more <;> exact h
    | cons parent stack => cases h
  | succ fuel ih =>
    obtain ⟨more, rfl⟩ := Nat.exists_eq_add_one_of_ne_zero (Nat.ne_zero_of_lt hle)
    cases stack with
    | nil => exact h
    | cons parent stack =>
      rw [gather] at h ⊢
      exact ih h (Nat.le_of_succ_le_succ hle)

/-- Gathering under other names. -/
theorem Strict.gather_renamed
    (hborn : ∀ p, bornTo children' (names root) (names p) = (bornTo children root p).map names)
    (fuel : Nat) (stack found : List Handle) :
    gather children' (names root) fuel (stack.map names) (found.map names) =
      (gather children root fuel stack found).map (List.map names) := by
  induction fuel generalizing stack found with
  | zero => cases stack <;> rfl
  | succ fuel ih =>
    cases stack with
    | nil => rfl
    | cons parent stack =>
      have hstep := ih ((bornTo children root parent).reverse ++ stack)
        ((bornTo children root parent).reverse ++ found)
      rw [List.map_append, List.map_append, List.map_reverse, ← hborn] at hstep
      exact hstep

end Gather

theorem Lookalike.bornTo (h : Lookalike names s t) (root parent : Handle) :
    bornTo t.children (names root) (names parent) =
      (Store.bornTo s.children root parent).map names := by
  have hparent : ∀ e : Handle × Context,
      (renameEntry names e).2.parent = some (names parent) ↔ e.2.parent = some parent := by
    intro e
    show e.2.parent.map names = some (names parent) ↔ _
    rw [← Option.map_some, (Option.map_injective names.injective).eq_iff]
  rw [Store.bornTo, Store.bornTo, getD_children, getD_children, h.searchOrder]
  have hroot : ∀ e : Handle × Context, (renameEntry names e).1 ≠ names root ↔ e.1 ≠ root :=
    fun _ => names.injective.ne_iff
  simp only [List.filter_map, List.map_map, Function.comp_def, hparent, hroot]
  rfl

theorem Lookalike.family (h : Lookalike names s t) (hs : s.WellFormed) (ht : t.WellFormed)
    {handle : Handle} (hc : s.contains handle = true) :
    t.family (names handle) = (s.family handle).map names := by
  obtain ⟨hgs, -⟩ := hs.family_spec hc
  obtain ⟨hgt, -⟩ := ht.family_spec ((h.contains handle).trans hc)
  have hs' := Strict.gather_mono hgs (Nat.le_max_left s.slots.size t.slots.size)
  have ht' := Strict.gather_mono hgt (Nat.le_max_right s.slots.size t.slots.size)
  have hr := Strict.gather_renamed (h.bornTo handle) (max s.slots.size t.slots.size) [handle]
    [handle]
  rw [hs'] at hr
  have he := Option.some.inj (ht'.symm.trans hr)
  rwa [List.map_reverse, List.reverse_inj] at he

/-! ## Renamings from slot to slot -/

/-- A renaming that leads from slot to slot, and shifts the generations of each slot. -/
structure Renaming where
  slot : Nat ≃ Nat
  shift : Nat → UInt32

/-- The renaming of all handles. -/
def Renaming.handles (r : Renaming) : Handle ≃ Handle where
  toFun handle := ⟨r.slot handle.index, handle.generation + r.shift handle.index⟩
  invFun handle :=
    ⟨r.slot.symm handle.index, handle.generation - r.shift (r.slot.symm handle.index)⟩
  left_inv handle := by simp
  right_inv handle := by simp

/-- One store holds what the other does, under other names, and takes its slots in the same order
and with the same generations. -/
structure Aligned (r : Renaming) (s t : Store) : Prop where
  left : s.WellFormed
  right : t.WellFormed
  toList : t.toList = s.toList.map (renameEntry r.handles)
  generation : ∀ i, (t.handleAt (r.slot i)).generation = (s.handleAt i).generation + r.shift i
  upcoming : t.upcoming = s.upcoming.map r.slot

variable {r : Renaming}

theorem occupied_iff_of_toList (hs : s.WellFormed) (ht : t.WellFormed)
    (h : t.toList = s.toList.map (renameEntry r.handles)) (i : Nat) :
    t.Occupied (r.slot i) ↔ s.Occupied i := by
  have hindices : t.toList.map (·.1.index) = (s.toList.map (·.1.index)).map r.slot := by
    rw [h, List.map_map, List.map_map]
    rfl
  rw [← hs.mem_indices, ← ht.mem_indices, hindices, List.mem_map_of_injective r.slot.injective]

namespace Aligned

theorem lookalike (h : Aligned r s t) : Lookalike r.handles s t :=
  lookalike_of_toList h.left h.right h.toList

theorem handleAt (h : Aligned r s t) (i : Nat) :
    t.handleAt (r.slot i) = r.handles (s.handleAt i) :=
  congrArg (Handle.mk (r.slot i)) (h.generation i)

end Aligned

/-- Any two stores without contexts are aligned: the slots that come first to those that come
first, and so on. -/
theorem aligned_of_vacant (hs : s.WellFormed) (ht : t.WellFormed) (hsl : s.toList = [])
    (htl : t.toList = []) : ∃ r, Aligned r s t := by
  let slot : Nat ≃ Nat :=
    (Equiv.ofBijective _ (hs.upcoming_bijective hsl)).symm.trans
      (Equiv.ofBijective _ (ht.upcoming_bijective htl))
  let r : Renaming :=
    { slot
      shift := fun i => (t.handleAt (slot i)).generation - (s.handleAt i).generation }
  refine ⟨r, hs, ht, by rw [hsl, htl]; rfl, fun i => ?_, ?_⟩
  · show _ = _ + (_ - _)
    rw [UInt32.add_comm, UInt32.sub_add_cancel]
  · refine Stream'.ext fun k => ?_
    show t.upcoming.get k = slot (s.upcoming.get k)
    have hfirst : (Equiv.ofBijective _ (hs.upcoming_bijective hsl)).symm (s.upcoming.get k) = k :=
      Equiv.ofBijective_symm_apply_apply ..
    rw [Equiv.trans_apply, hfirst]
    rfl

/-! ## Calls under other names -/

/-- A call has the same answer in both stores, and the same effect on the list and the slots to
come. -/
structure Matches (r : Renaming) (s t : Store) (call : Call) : Prop where
  answer : (t.perform (call.renamed r.handles)).1 = (s.perform call).1.renamed r.handles
  toList : (t.perform (call.renamed r.handles)).2.toList =
    (s.perform call).2.toList.map (renameEntry r.handles)
  upcoming : (t.perform (call.renamed r.handles)).2.upcoming =
    (s.perform call).2.upcoming.map r.slot

namespace Aligned

variable (h : Aligned r s t)
include h

theorem matches_insert (context : Context) : Matches r s t (.insert context) := by
  have hlen := h.lookalike.len
  rcases h.left.insert_spec context with ⟨hi, hfull, -⟩ | ⟨handle, s', hi, -, -, hlist⟩
  · have hi' := h.right.insert_of_full (hlen.trans hfull) (context.renamed r.handles)
    constructor <;> simp only [Store.perform, Call.renamed, hi, hi']
    · rfl
    · exact h.toList
    · exact h.upcoming
  · rcases h.right.insert_spec (context.renamed r.handles) with
      ⟨-, hfull, -⟩ | ⟨handle', t', hi', -, -, hlist'⟩
    · cases hi.symm.trans (h.left.insert_of_full (hlen.symm.trans hfull) context)
    obtain ⟨hup, hhandle⟩ := h.left.upcoming_insert hi
    obtain ⟨hup', hhandle'⟩ := h.right.upcoming_insert hi'
    have hcons := h.upcoming
    rw [hup, hup', Stream'.map_cons] at hcons
    obtain ⟨hindex, hrest⟩ := Stream'.cons_injective2 hcons
    have hnames : handle' = r.handles handle := by
      rw [hhandle', hindex, h.handleAt, ← hhandle]
    constructor <;> simp only [Store.perform, Call.renamed, hi, hi']
    · rw [hnames]
      rfl
    · rw [hlist, hlist', h.toList, List.map_append, hnames]
      rfl
    · exact hrest

theorem matches_remove (handle : Handle) : Matches r s t (.remove handle) := by
  have hcontains := h.lookalike.contains handle
  by_cases hc : s.contains handle = true
  · have hc' : t.contains (r.handles handle) = true := hcontains.trans hc
    have hfamily := h.lookalike.family h.left h.right hc
    obtain ⟨s', hr, -, -, hlist⟩ := h.left.remove?_spec hc
    obtain ⟨t', hr', -, -, hlist'⟩ := h.right.remove?_spec hc'
    have hup := h.left.upcoming_remove hr
    have hup' := h.right.upcoming_remove hr'
    constructor <;> simp only [Store.perform, Call.renamed, hr, hr']
    · rw [h.left.length_filterMap_family hc, h.right.length_filterMap_family hc', hfamily,
        List.length_map]
      rfl
    · rw [hlist, hlist', h.toList, hfamily, List.filter_map]
      have hkept : ∀ e : Handle × Context, (renameEntry r.handles e).1 ∈
          (s.family handle).map r.handles ↔ e.1 ∈ s.family handle :=
        fun e => List.mem_map_of_injective r.handles.injective
      simp only [Function.comp_def, hkept]
    · rw [hup, hup', hfamily, h.upcoming, Stream'.map_append_stream, List.map_reverse,
        List.map_map, List.map_map]
      rfl
  · have hr := (remove?_of_not_contains hc).1
    have hr' := (remove?_of_not_contains (hcontains.trans_ne hc)).1
    constructor <;> simp only [Store.perform, Call.renamed, hr, hr']
    · rfl
    · exact h.toList
    · exact h.upcoming

theorem toList_update (handle : Handle) (change : Context → Context) :
    (t.update (r.handles handle) (renameChange r.handles change)).toList =
      (s.update handle change).toList.map (renameEntry r.handles) := by
  rw [(h.left.update_spec handle change).2, (h.right.update_spec _ _).2, h.toList, List.map_map,
    List.map_map]
  refine List.map_congr_left fun e _ => ?_
  by_cases he : e.1 = handle
  · simp [renameEntry, he, renameChange_renamed]
  · simp [renameEntry, he]

theorem upcoming_update (handle : Handle) (change : Context → Context) :
    (t.update (r.handles handle) (renameChange r.handles change)).upcoming =
      (s.update handle change).upcoming.map r.slot := by
  rw [Store.upcoming_update, Store.upcoming_update, h.upcoming]

theorem matches_edit (handle : Handle) (change : Context → Context) :
    Matches r s t (.edit handle change) := by
  refine ⟨?_, h.toList_update handle change, h.upcoming_update handle change⟩
  simp only [Store.perform, Call.renamed, h.lookalike.contains]
  split <;> rfl

theorem matches_editOf (pid : UInt32) (change : Context → Context) :
    Matches r s t (.editOf pid change) := by
  have hfind := h.lookalike.find? pid
  cases hf : s.find? pid with
  | none =>
    rw [hf, Option.map_none] at hfind
    constructor <;> simp only [Store.perform, Call.renamed, hf, hfind]
    · rfl
    · exact h.toList
    · exact h.upcoming
  | some handle =>
    rw [hf, Option.map_some] at hfind
    constructor <;> simp only [Store.perform, Call.renamed, hf, hfind]
    · rfl
    · exact h.toList_update handle change
    · exact h.upcoming_update handle change

/-- What a call keeps that does not empty the store. The generations need no argument of their own:
in both stores they count what was freed. -/
theorem perform {call : Call} (hkeeps : call.empties = false) :
    (t.perform (call.renamed r.handles)).1 = (s.perform call).1.renamed r.handles ∧
      Aligned r (s.perform call).2 (t.perform (call.renamed r.handles)).2 := by
  have hm : Matches r s t call := by
    cases call with
    | new | drain => cases hkeeps
    | insert context => exact h.matches_insert context
    | remove handle => exact h.matches_remove handle
    | edit handle change => exact h.matches_edit handle change
    | editOf pid change => exact h.matches_editOf pid change
  have hs := (h.left.perform call).1
  have ht := (h.right.perform (call.renamed r.handles)).1
  have hnew : call ≠ .new := fun he => by
    rw [he] at hkeeps
    cases hkeeps
  have hnew' : call.renamed r.handles ≠ .new := by
    cases call <;> first | exact absurd rfl hnew | exact nofun
  refine ⟨hm.answer, hs, ht, hm.toList, fun i => ?_, hm.upcoming⟩
  have hbefore := occupied_iff_of_toList h.left h.right h.toList i
  have hafter := occupied_iff_of_toList hs ht hm.toList i
  have hfrees : Frees t (t.perform (call.renamed r.handles)).2 (r.slot i) ↔
      Frees s (s.perform call).2 i := and_congr hbefore (not_congr hafter)
  rw [h.right.counts_perform hnew' (r.slot i), h.left.counts_perform hnew i, h.generation,
    if_congr hfrees rfl rfl]
  rw [UInt32.add_assoc, UInt32.add_comm (r.shift i), UInt32.add_assoc]

end Aligned

/-! ## Behaviour -/

/-- A relation between stores that are alike under some names: they show the same, every call has
the same answer in both, and related stores come of it. The names change only where a call empties
the stores. -/
structure Bisimulation (Related : (Handle ≃ Handle) → Store → Store → Prop) : Prop where
  shows : ∀ {names s t}, Related names s t → Lookalike names s t
  answer : ∀ {names s t}, Related names s t → ∀ call : Call,
    (t.perform (call.renamed names)).1 = (s.perform call).1.renamed names
  step : ∀ {names s t}, Related names s t → ∀ call : Call, ∃ names',
    Related names' (s.perform call).2 (t.perform (call.renamed names)).2 ∧
      (call.empties = false → names' = names)

/-- Two stores behave alike, whatever calls are made on them, under these names to begin with. -/
def Bisimilar (names : Handle ≃ Handle) (s t : Store) : Prop :=
  ∃ Related, Bisimulation Related ∧ Related names s t

theorem bisimulation_aligned :
    Bisimulation fun names s t => ∃ r, names = Renaming.handles r ∧ Aligned r s t where
  shows := by
    rintro names s t ⟨r, rfl, h⟩
    exact h.lookalike
  answer := by
    rintro names s t ⟨r, rfl, h⟩ call
    cases call with
    | new => rfl
    | drain =>
      have hcount : t.drain.1 = s.drain.1 := h.lookalike.len
      exact congrArg Answer.removed hcount
    | _ => exact (h.perform rfl).1
  step := by
    rintro names s t ⟨r, rfl, h⟩ call
    cases call with
    | new =>
      obtain ⟨r', h'⟩ := aligned_of_vacant wellFormed_empty wellFormed_empty rfl rfl
      exact ⟨_, ⟨r', rfl, h'⟩, nofun⟩
    | drain =>
      obtain ⟨-, -, hs, hsl⟩ := h.left.drain_spec
      obtain ⟨-, -, ht, htl⟩ := h.right.drain_spec
      obtain ⟨r', h'⟩ := aligned_of_vacant hs ht hsl htl
      exact ⟨_, ⟨r', rfl, h'⟩, nofun⟩
    | _ => exact ⟨_, ⟨r, rfl, (h.perform rfl).2⟩, fun _ => rfl⟩

/-- Stores without contexts behave alike, whatever was in them before. -/
theorem bisimilar_of_vacant (hs : s.WellFormed) (ht : t.WellFormed) (hsl : s.toList = [])
    (htl : t.toList = []) : ∃ names, Bisimilar names s t := by
  obtain ⟨r, h⟩ := aligned_of_vacant hs ht hsl htl
  exact ⟨r.handles, _, bisimulation_aligned, r, rfl, h⟩

end Store

end BranchTrace
