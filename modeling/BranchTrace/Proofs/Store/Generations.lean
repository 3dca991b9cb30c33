import BranchTrace.Proofs.Store.Calls

/-!
# Generations

How long a handle stays dead once its context is gone. A call frees a slot if something stands in
it before the call and nothing does afterwards. The generation of a slot counts how often that
happened (`generation_after`), but it counts in 32 bits.

Main statements: `stale_of_gone`, a handle whose context is gone names nothing before its slot was
freed 2^32 times, and `handle_returns`, after that it can name another context.
-/

namespace BranchTrace

namespace Store

/-- A slot is given back on the way from one store to another. -/
def Frees (store store' : Store) (index : Nat) : Prop :=
  store.Occupied index ∧ ¬store'.Occupied index

instance (store store' : Store) (index : Nat) : Decidable (Frees store store' index) :=
  inferInstanceAs (Decidable (_ ∧ _))

/-- Every slot counts in its generation whether it is given back. -/
def Counts (store store' : Store) : Prop :=
  ∀ i, (store'.handleAt i).generation =
    (store.handleAt i).generation + if Frees store store' i then 1 else 0

variable {store store' : Store}

/-- A step that frees no slot and changes no handle. -/
theorem counts_of_handleAt_eq (hh : ∀ i, store'.handleAt i = store.handleAt i)
    (ho : ∀ i, store.Occupied i → store'.Occupied i) : Counts store store' := by
  intro i
  rw [hh, if_neg fun hf : Frees store store' i => hf.2 (ho i hf.1), UInt32.add_zero]

theorem counts_refl (store : Store) : Counts store store :=
  counts_of_handleAt_eq (fun _ => rfl) fun _ => id

theorem generation_release (store : Store) (index i : Nat) :
    ((store.release index).handleAt i).generation =
      (store.handleAt i).generation + if i = index ∧ i < store.slots.size then 1 else 0 := by
  simp only [release, handleAt, Array.getElem?_modify, eq_comm (a := i)]
  by_cases hi : index = i
  · subst hi
    by_cases hlt : index < store.slots.size
    · simp [hlt]
    · simp [hlt]
  · simp [hi]

/-- Freeing slots adds one to the generation of each. -/
theorem generation_release_all {doomed : List Nat} (hnd : doomed.Nodup)
    (ho : ∀ i ∈ doomed, store.Occupied i) (i : Nat) :
    ((doomed.foldl Store.release store).handleAt i).generation =
      (store.handleAt i).generation + if i ∈ doomed then 1 else 0 := by
  induction doomed generalizing store with
  | nil => simp
  | cons index doomed ih =>
    obtain ⟨hi, hnd⟩ := List.nodup_cons.mp hnd
    have hr := released_release store index
    have ho' : ∀ j ∈ doomed, (store.release index).Occupied j := fun j hj =>
      hr.occupied_iff.mpr ⟨ho j (List.mem_cons_of_mem _ hj), by
        simpa using fun he : j = index => hi (he ▸ hj)⟩
    have hlt := (ho index List.mem_cons_self).lt_size
    rw [List.foldl_cons, ih hnd ho', generation_release]
    by_cases h : i = index
    · subst h
      simp [hi, hlt]
    · simp [h]

/-- Slots that are freed after handles and contexts stayed as they were. -/
theorem counts_release_all {doomed : List Nat} {between : Store} (hnd : doomed.Nodup)
    (ho : ∀ i ∈ doomed, store.Occupied i) (hh : ∀ i, between.handleAt i = store.handleAt i)
    (hb : ∀ i, between.Occupied i ↔ store.Occupied i) :
    Counts store (doomed.foldl Store.release between) := by
  have ho' : ∀ i ∈ doomed, between.Occupied i := fun i hi => (hb i).mpr (ho i hi)
  obtain ⟨-, hr⟩ := release_all hnd ho'
  intro i
  have hf : Frees store (doomed.foldl Store.release between) i ↔ i ∈ doomed := by
    rw [Frees, hr.occupied_iff, hb]
    constructor
    · rintro ⟨hs, hn⟩
      exact Classical.byContradiction fun hd => hn ⟨hs, hd⟩
    · exact fun hi => ⟨ho i hi, fun h => h.2 hi⟩
  rw [generation_release_all hnd ho', hh]
  simp only [hf]

namespace WellFormed

variable (hw : store.WellFormed)
include hw

theorem counts_insert {context : Context} {handle : Handle}
    (hi : store.insert context = .ok (handle, store')) : Counts store store' := by
  rcases hw.allocate_spec { context, prev := 0, next := 0 } with ⟨hn, -⟩ | ⟨index, s, hs, ha⟩
  · simp [Store.insert, hn] at hi
  · simp only [Store.insert, hs, Except.ok.injEq, Prod.mk.injEq] at hi
    obtain ⟨-, rfl⟩ := hi
    refine counts_of_handleAt_eq (fun i => ?_) fun i ho => ?_
    · exact (handleAt_link index i).trans (ha.handleAt i)
    · exact occupied_link.mpr (ha.occupied_iff.mpr (.inr ho))

theorem counts_remove {handle : Handle} {removed : List Context}
    (hr : store.remove? handle = some (removed, store')) : Counts store store' := by
  obtain ⟨hdn, hdo, ring, unlinked, hu, rfl, -⟩ := hw.parts_of_remove? hr
  exact counts_release_all hdn hdo hu.handleAt fun i => hu.occupied_iff

omit hw in
theorem counts_drain (store : Store) : Counts store store.drain.2 := by
  obtain ⟨h, -⟩ := foldl_release_occupied (List.nodup_range (n := store.slots.size)) store
  have hdo : ∀ i ∈ (List.range store.slots.size).filter (store.Occupied ·), store.Occupied i :=
    fun i hi => by simpa using (List.mem_filter.mp hi).2
  have hc := counts_release_all (List.nodup_range.filter _) hdo (fun _ => rfl) fun _ => Iff.rfl
  rw [← h] at hc
  exact hc

omit hw in
theorem counts_update (store : Store) (handle : Handle) (f : Context → Context) :
    Counts store (store.update handle f) := by
  rw [update]
  split
  · exact counts_of_handleAt_eq (fun i => handleAt_modify _ _ i) fun i ho => occupied_modify.mpr ho
  · exact counts_refl store

/-- What one call keeps: the generations count what it frees. -/
theorem counts_perform {call : Call} (hnew : call ≠ .new) :
    Counts store (store.perform call).2 := by
  cases call with
  | new => exact absurd rfl hnew
  | insert context =>
    rw [Store.perform]
    cases hi : store.insert context with
    | error e => exact counts_refl store
    | ok r => exact hw.counts_insert hi
  | remove handle =>
    rw [Store.perform]
    cases hr : store.remove? handle with
    | none => exact counts_refl store
    | some r => exact hw.counts_remove hr
  | drain => exact counts_drain store
  | edit handle change => exact counts_update store handle change
  | editOf pid change =>
    rw [Store.perform]
    cases store.find? pid with
    | none => exact counts_refl store
    | some handle => exact counts_update store handle change

end WellFormed

/-! ## Runs -/

/-- The store after some more calls. -/
def after (store : Store) (calls : List Call) : Store :=
  calls.foldl (fun store call => (store.perform call).2) store

/-- How often a slot is freed by calls. -/
def timesFreed (index : Nat) : Store → List Call → Nat
  | _, [] => 0
  | store, call :: calls =>
    (if Frees store (store.perform call).2 index then 1 else 0)
      + timesFreed index (store.perform call).2 calls

theorem after_cons (store : Store) (call : Call) (calls : List Call) :
    store.after (call :: calls) = (store.perform call).2.after calls := rfl

theorem after_append (store : Store) (calls more : List Call) :
    store.after (calls ++ more) = (store.after calls).after more :=
  List.foldl_append

/-- The generation of a slot counts how often it is freed. -/
theorem generation_after (hw : store.WellFormed) {calls : List Call}
    (hcalls : ∀ call ∈ calls, call ≠ .new) (index : Nat) :
    ((store.after calls).handleAt index).generation =
      (store.handleAt index).generation + UInt32.ofNat (timesFreed index store calls) := by
  induction calls generalizing store with
  | nil => exact (UInt32.add_zero _).symm
  | cons call calls ih =>
    obtain ⟨hcall, hcalls⟩ := List.forall_mem_cons.mp hcalls
    have hstep := hw.counts_perform hcall index
    have hrest := ih (hw.perform call).1 hcalls
    rw [after_cons, hrest, hstep, timesFreed, UInt32.ofNat_add, UInt32.add_assoc]
    split <;> rfl

/-- A slot that is never freed stays occupied. -/
theorem occupied_of_timesFreed_eq_zero {calls : List Call} {index : Nat}
    (ho : store.Occupied index) (hz : timesFreed index store calls = 0) :
    (store.after calls).Occupied index := by
  induction calls generalizing store with
  | nil => exact ho
  | cons call calls ih =>
    rw [timesFreed, Nat.add_eq_zero_iff] at hz
    have hkept : ¬Frees store (store.perform call).2 index := by
      intro hf
      simp [hf] at hz
    exact ih (Classical.byContradiction fun hn => hkept ⟨ho, hn⟩) hz.2

theorem contains_iff_handleAt {handle : Handle} :
    store.contains handle = true ↔
      store.handleAt handle.index = handle ∧ store.Occupied handle.index := by
  rw [contains, live?, Occupied]
  split <;> simp_all

theorem ofNat_eq_zero_iff {n : Nat} : UInt32.ofNat n = 0 ↔ UInt32.size ∣ n := by
  rw [← UInt32.toNat_inj, UInt32.toNat_ofNat', Nat.dvd_iff_mod_eq_zero]
  rfl

/-- A handle names something later on if its slot was freed a multiple of 2^32 times since. -/
theorem contains_after_iff (hw : store.WellFormed) {handle : Handle}
    (hc : store.contains handle = true) {calls : List Call}
    (hcalls : ∀ call ∈ calls, call ≠ .new) :
    (store.after calls).contains handle = true ↔
      (store.after calls).Occupied handle.index ∧
        UInt32.size ∣ timesFreed handle.index store calls := by
  obtain ⟨hat, -⟩ := contains_iff_handleAt.mp hc
  have hgen := generation_after hw hcalls handle.index
  rw [hat] at hgen
  have hsame : (store.after calls).handleAt handle.index = handle ↔
      UInt32.size ∣ timesFreed handle.index store calls := by
    rw [← ofNat_eq_zero_iff]
    constructor
    · intro h
      rw [h] at hgen
      exact UInt32.add_eq_left.mp hgen.symm
    · intro h
      rw [h, UInt32.add_zero] at hgen
      exact congrArg (Handle.mk handle.index) hgen
  rw [contains_iff_handleAt, hsame, and_comm]

/-- The handle that an insertion answers names what was inserted. -/
theorem WellFormed.contains_of_inserted (hw : store.WellFormed) {context : Context}
    {handle : Handle} (hi : (store.perform (.insert context)).1 = .inserted handle) :
    (store.perform (.insert context)).2.contains handle = true := by
  rw [Store.perform] at hi ⊢
  cases hs : store.insert context with
  | error e => simp [hs] at hi
  | ok r =>
    obtain ⟨handle', store'⟩ := r
    simp only [hs, Answer.inserted.injEq] at hi
    subst hi
    obtain ⟨hw', hlist⟩ := hw.of_insert hs
    exact hw'.contains_of_mem (e := (handle', context)) (by simp [hlist])

/-- Calls at the end of which a handle names nothing freed its slot. -/
theorem timesFreed_pos {handle : Handle} (hw : store.WellFormed)
    (hc : store.contains handle = true) {calls : List Call} (hcalls : ∀ call ∈ calls, call ≠ .new)
    (hgone : (store.after calls).contains handle = false) :
    0 < timesFreed handle.index store calls := by
  refine Nat.pos_of_ne_zero fun hz => ?_
  have ho := occupied_of_timesFreed_eq_zero (occupied_of_contains hc) hz
  have hin := (contains_after_iff hw hc hcalls).mpr ⟨ho, hz ▸ Nat.dvd_zero _⟩
  exact Bool.false_ne_true (hgone.symm.trans hin)

theorem timesFreed_append (index : Nat) (store : Store) (calls more : List Call) :
    timesFreed index store (calls ++ more) =
      timesFreed index store calls + timesFreed index (store.after calls) more := by
  induction calls generalizing store with
  | nil => exact (Nat.zero_add _).symm
  | cons call calls ih =>
    rw [List.cons_append, timesFreed, ih, timesFreed, Nat.add_assoc]
    rfl

theorem stale_of_not_contains {handle : Handle} (h : store.contains handle = false) :
    store.get? handle = none ∧ store.perform (.remove handle) = (.failed .staleHandle, store) := by
  have hl : store.live? handle = none := by simpa [contains] using h
  have hr : store.remove? handle = none := (remove?_of_not_contains (by simp [h])).1
  exact ⟨by rw [get?, hl]; rfl, by simp only [perform, hr]⟩

/-- A handle whose context is gone is dead for as long as its slot was not freed 2^32 times since
it was given out. Whether it names a context after that is settled by how often it was freed. -/
theorem stale_of_gone {history : List Call} {context : Context} {handle : Handle}
    (hi : ((runCalls history).perform (.insert context)).1 = .inserted handle)
    {gone more : List Call} (hcalls : ∀ call ∈ gone ++ more, call ≠ .new)
    (hgone : (((runCalls history).perform (.insert context)).2.after gone).contains handle =
      false) :
    let start := ((runCalls history).perform (.insert context)).2
    let later := (start.after gone).after more
    let freed := timesFreed handle.index start (gone ++ more)
    0 < freed ∧
      (later.contains handle = true ↔
        later.Occupied handle.index ∧ UInt32.size ∣ freed) ∧
      (freed < UInt32.size → later.contains handle = false ∧ later.get? handle = none ∧
        later.perform (.remove handle) = (.failed .staleHandle, later)) := by
  intro start later freed
  have hw : (runCalls history).WellFormed := wellFormed_foldl_perform wellFormed_empty history
  have hstart : start.WellFormed := (hw.perform (.insert context)).1
  have hin : start.contains handle = true := hw.contains_of_inserted hi
  have hiff := contains_after_iff hstart hin hcalls
  rw [after_append] at hiff
  have hpos : 0 < freed := by
    have hg := timesFreed_pos hstart hin (fun c hc => hcalls c (List.mem_append_left _ hc)) hgone
    exact Nat.lt_of_lt_of_le hg ((timesFreed_append ..).ge.trans' (Nat.le_add_right ..))
  refine ⟨hpos, hiff, fun hlt => ?_⟩
  have hout : later.contains handle = false :=
    Bool.eq_false_iff.mpr fun h => Nat.not_dvd_of_pos_of_lt hpos hlt (hiff.mp h).2
  exact ⟨hout, stale_of_not_contains hout⟩

/-- A context of process 7, drained, and a context of process 9 in its slot. -/
theorem stale_of_gone_reused :
    let context : Context := ⟨7, ⟨1⟩, 0, [], none⟩
    let start := ((runCalls []).perform (.insert context)).2
    let later := (start.after [.drain]).after [.insert ⟨9, ⟨1⟩, 0, [], none⟩]
    (runCalls []).perform (.insert context) = (.inserted ⟨0, 0⟩, start) ∧
      (start.after [.drain]).contains ⟨0, 0⟩ = false ∧ later.Occupied 0 ∧
      later.contains ⟨0, 0⟩ = false ∧ later.get? ⟨0, 0⟩ = none ∧
      later.perform (.remove ⟨0, 0⟩) = (.failed .staleHandle, later) := by
  intro context start later
  have hi : (runCalls []).perform (.insert context) = (.inserted ⟨0, 0⟩, start) := rfl
  have hgone : (start.after [.drain]).contains ⟨0, 0⟩ = false := by decide
  have hcalls : ∀ call ∈ [Call.drain] ++ [.insert ⟨9, ⟨1⟩, 0, [], none⟩], call ≠ .new := by simp
  exact ⟨hi, hgone, by decide,
    (stale_of_gone (congrArg Prod.fst hi) hcalls hgone).2.2 (by decide)⟩

/-! ## Full circle -/

/-- One context in the only slot. -/
def single (generation : UInt32) (context : Context) : Store :=
  { slots := #[⟨generation, some ⟨context, 0, 0⟩⟩], free := [], head := some 0, len := 1 }

/-- A context that is drained and inserted again, some times over. -/
def turns (context : Context) : Nat → List Call
  | 0 => []
  | n + 1 => .drain :: .insert context :: turns context n

theorem single_turn (generation : UInt32) (context : Context) :
    (((single generation context).perform .drain).2.perform (.insert context)).2 =
      single (generation + 1) context := rfl

theorem single_after_turns (generation : UInt32) (context : Context) (n : Nat) :
    (single generation context).after (turns context n) =
      single (generation + UInt32.ofNat n) context := by
  induction n generalizing generation with
  | zero => exact (congrArg (single · context) (UInt32.add_zero generation)).symm
  | succ n ih =>
    rw [turns, after_cons, after_cons, single_turn, ih, UInt32.add_assoc, UInt32.add_comm 1,
      UInt32.ofNat_add]
    rfl

theorem mem_turns {context : Context} {n : Nat} :
    ∀ call ∈ turns context n, call = .drain ∨ call = .insert context := by
  induction n with
  | zero => simp [turns]
  | succ n ih => simpa [turns] using ih

/-- A handle that was dead names a context again. The context was drained once, and after 2^32
drains of its slot in all another one stands where it stood. -/
theorem handle_returns :
    let start := ((runCalls []).perform (.insert ⟨7, ⟨1⟩, 0, [], none⟩)).2
    let other : Context := ⟨9, ⟨1⟩, 0, [], none⟩
    ∃ more : List Call, (∀ call ∈ more, call = .drain ∨ call = .insert other) ∧
      ((runCalls []).perform (.insert ⟨7, ⟨1⟩, 0, [], none⟩)).1 = .inserted ⟨0, 0⟩ ∧
      (start.after [.drain]).contains ⟨0, 0⟩ = false ∧
      (start.after [.drain]).get? ⟨0, 0⟩ = none ∧
      ((start.after [.drain]).after more).contains ⟨0, 0⟩ = true ∧
      ((start.after [.drain]).after more).get? ⟨0, 0⟩ = some other := by
  intro start other
  have hback : (start.after [.drain]).after (.insert other :: turns other (UInt32.size - 1)) =
      single 0 other := by
    have hfirst : ((start.after [.drain]).perform (.insert other)).2 = single 1 other := rfl
    rw [after_cons, hfirst, single_after_turns]
    rfl
  refine ⟨.insert other :: turns other (UInt32.size - 1), ?_, rfl, by decide, by decide, ?_, ?_⟩
  · exact List.forall_mem_cons.mpr ⟨.inr rfl, mem_turns⟩
  · rw [hback]
    rfl
  · rw [hback]
    rfl

end Store

end BranchTrace
