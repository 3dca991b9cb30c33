import BranchTrace.Proofs.Store.HighWater
import BranchTrace.Proofs.Tracer.Registered
import Mathlib

/-!
# The slots that a tracer uses

A tracer whose requests fail again and again, or that starts and ends to trace processes in turn,
uses the same slots. It never has more of them than it traced processes at once, with the one that
was about to be traced (`mostLive`), so no handle that it gives is to a slot beyond.

Main statement: `slots_of_most_live`, about a store and about a tracer.
-/

namespace BranchTrace

namespace Tracer

/-- The process that an operation asks to trace. -/
def Operation.enabling? : Operation → Option UInt32
  | .enable pid _ => some pid
  | .dispatch caller number block _ =>
    match Request.ofBytes block, Command.ofNumber number with
    | .ok request, .ok .enable => some (target caller request)
    | _, _ => none
  | _ => none

/-- How many contexts there are at the start of an operation, with the one of a process that is
being enabled. -/
def Operation.live (operation : Operation) (store : Store) : Nat :=
  match operation.enabling? with
  | some pid => store.toList.length + if isTraced store pid then 0 else 1
  | none => store.toList.length

/-- The most contexts that there are at once on the way through some operations, with those of the
processes that are being enabled. -/
def mostLive (config : Config) : Tracing → List Operation → Nat
  | s, [] => s.store.toList.length
  | s, operation :: operations =>
    max (operation.live s.store) (mostLive config (operation.run config s) operations)

/-- The handle that an operation gives to its caller, if it gives one. -/
def Operation.handle? (config : Config) : Operation → Tracing → Option Handle
  | .enable pid bits, s => (Tracer.enable config pid bits s).1.toOption
  | .fork parent child, s => (Tracer.fork config parent child s).1.toOption.join
  | _, _ => none

/-- The handles that some operations give to their callers. -/
def handlesGiven (config : Config) : Tracing → List Operation → List Handle
  | _, [] => []
  | s, operation :: operations =>
    (operation.handle? config s).toList ++ handlesGiven config (operation.run config s) operations

variable {config : Config} {s : Tracing}

theorem length_le_live (operation : Operation) (store : Store) :
    store.toList.length ≤ operation.live store := by
  rw [Operation.live]
  split
  · exact Nat.le_add_right _ _
  · exact Nat.le_refl _

theorem length_le_mostLive (config : Config) (s : Tracing) (operations : List Operation) :
    s.store.toList.length ≤ mostLive config s operations := by
  cases operations with
  | nil => exact Nat.le_refl _
  | cons operation operations =>
    exact (length_le_live operation s.store).trans (Nat.le_max_left _ _)

/-! ## One operation -/

section Operation

variable (hw : s.store.WellFormed)
include hw

/-- A context that is taken out again leaves the slots that it needed while it was there. -/
theorem size_enable (pid : UInt32) (bits : UInt64) :
    (enable config pid bits s).2.store.slots.size ≤
      max s.store.slots.size ((Operation.enable pid bits).live s.store) := by
  have h := enable_outcome hw config pid bits
  generalize enable config pid bits s = o at h ⊢
  obtain ⟨r, s'⟩ := o
  cases h with
  | tooLarge => exact Nat.le_max_left _ _
  | unpinned _ hs | known _ hs | full _ hs => exact hs ▸ Nat.le_max_left _ _
  | undone _ ht _ _ _ hi hr =>
    have hin := hw.size_of_insert hi
    have hout := (hw.of_insert hi).1.size_remove hr
    rw [hout, hin, hw.length_of_insert hi]
    simp [Operation.live, Operation.enabling?, ht]
  | added ht _ _ _ hi =>
    have hin := hw.size_of_insert hi
    rw [hin, hw.length_of_insert hi]
    simp [Operation.live, Operation.enabling?, ht]

theorem index_lt_of_enable {pid : UInt32} {bits : UInt64} {handle : Handle}
    (h : (enable config pid bits s).1 = .ok handle) :
    handle.index < (enable config pid bits s).2.store.slots.size := by
  have ho := enable_outcome hw config pid bits
  generalize enable config pid bits s = o at h ho ⊢
  obtain ⟨r, s'⟩ := o
  cases ho with
  | added _ _ _ _ hi =>
    cases h
    exact hw.index_lt_of_insert hi
  | tooLarge | unpinned | known | full | undone => cases h

theorem size_disable (pid : UInt32) :
    (disable pid s).2.store.slots.size = s.store.slots.size := by
  have h := disable_outcome hw pid
  generalize disable pid s = o at h ⊢
  obtain ⟨r, s'⟩ := o
  cases h with
  | untraced => rfl
  | removed _ hr => exact hw.size_remove hr

theorem size_dump (pid? : Option UInt32) :
    (dump pid? s).2.store.slots.size = s.store.slots.size := by
  have h := dump_outcome hw pid?
  generalize dump pid? s = o at h ⊢
  obtain ⟨r, s'⟩ := o
  cases h with
  | unpinned _ hs | absent _ hs => exact congrArg (·.slots.size) hs
  | torn _ _ he | read _ he => exact he.size

theorem size_select (pid : UInt32) (bits : UInt64) :
    (select pid bits s).2.store.slots.size = s.store.slots.size := by
  have h := select_outcome hw pid bits
  generalize select pid bits s = o at h ⊢
  obtain ⟨r, s'⟩ := o
  cases h with
  | unpinned _ hs | absent _ hs => exact congrArg (·.slots.size) hs
  | torn _ _ he | loaded _ he => exact he.size

theorem size_fork (parent child : UInt32) :
    (fork config parent child s).2.store.slots.size ≤
      max s.store.slots.size (fork config parent child s).2.store.toList.length := by
  have h := fork_outcome hw config parent child
  generalize fork config parent child s = o at h ⊢
  obtain ⟨r, s'⟩ := o
  cases h with
  | untraced | tooLarge | full => exact Nat.le_max_left _ _
  | known _ hs => exact hs ▸ Nat.le_max_left _ _
  | added _ _ _ hi => exact (hw.size_of_insert hi).le

theorem index_lt_of_fork {parent child : UInt32} {handle : Handle}
    (h : (fork config parent child s).1 = .ok (some handle)) :
    handle.index < (fork config parent child s).2.store.slots.size := by
  have ho := fork_outcome hw config parent child
  generalize fork config parent child s = o at h ho ⊢
  obtain ⟨r, s'⟩ := o
  cases ho with
  | added _ _ _ hi =>
    cases h
    exact hw.index_lt_of_insert hi
  | untraced | tooLarge | known | full => cases h

theorem size_dispatch (caller number : UInt32) (block : List UInt8) (param : UInt64) :
    (dispatch config caller number block param s).2.store.slots.size ≤
      max s.store.slots.size ((Operation.dispatch caller number block param).live s.store) := by
  rw [dispatch_apply]
  cases hb : Request.ofBytes block with
  | error e => exact Nat.le_max_left _ _
  | ok request =>
    have hw' : (report (.requested number request.select request.pid) s).2.store.WellFormed := hw
    dsimp only
    cases hn : Command.ofNumber number with
    | error e => exact Nat.le_max_left _ _
    | ok command =>
      cases command with
      | enable =>
        have hlive : (Operation.dispatch caller number block param).live s.store =
            (Operation.enable (target caller request) request.select).live s.store := by
          simp only [Operation.live, Operation.enabling?, hb, hn]
        rw [hlive]
        exact size_enable hw' _ _
      | disable => exact (size_disable hw' _).trans_le (Nat.le_max_left _ _)
      | dump => exact (size_dump hw' _).trans_le (Nat.le_max_left _ _)
      | select => exact (size_select hw' _ _).trans_le (Nat.le_max_left _ _)

/-- What one operation keeps: there are no more slots than before, or than there are contexts while
it is carried out. -/
theorem size_run (config : Config) (operation : Operation) :
    (operation.run config s).store.slots.size ≤ max s.store.slots.size
      (max (operation.live s.store) (operation.run config s).store.toList.length) := by
  cases operation with
  | enable pid bits =>
    exact (size_enable hw pid bits).trans (max_le_max_left _ (Nat.le_max_left _ _))
  | dispatch caller number block param =>
    exact (size_dispatch hw caller number block param).trans
      (max_le_max_left _ (Nat.le_max_left _ _))
  | fork parent child =>
    exact (size_fork hw parent child).trans (max_le_max_left _ (Nat.le_max_right _ _))
  | disable pid => exact (size_disable hw pid).trans_le (Nat.le_max_left _ _)
  | dump pid? => exact (size_dump hw pid?).trans_le (Nat.le_max_left _ _)
  | select pid bits => exact (size_select hw pid bits).trans_le (Nat.le_max_left _ _)
  | schedOut pid =>
    have hs : (schedOut pid s).2.store.slots.size = s.store.slots.size := by
      rcases schedOut_outcome pid s with hs | ⟨handle, -, he⟩
      · exact congrArg (·.slots.size) hs
      · exact he.size
    exact hs.trans_le (Nat.le_max_left _ _)
  | schedIn pid =>
    exact (congrArg (·.slots.size) (store_schedIn pid s)).trans_le (Nat.le_max_left _ _)
  | drain => exact (Store.size_drain s.store).trans_le (Nat.le_max_left _ _)
  | outside machine => exact Nat.le_max_left _ _

theorem index_lt_of_handle? {operation : Operation} {handle : Handle}
    (h : operation.handle? config s = some handle) :
    handle.index < (operation.run config s).store.slots.size := by
  cases operation with
  | enable pid bits =>
    refine index_lt_of_enable hw ?_
    rw [Operation.handle?] at h
    cases hr : (enable config pid bits s).1 with
    | error e => simp [hr, Except.toOption] at h
    | ok given =>
      rw [hr] at h
      cases h
      rfl
  | fork parent child =>
    refine index_lt_of_fork hw ?_
    rw [Operation.handle?] at h
    cases hr : (fork config parent child s).1 with
    | error e => simp [hr, Except.toOption] at h
    | ok given =>
      rw [hr] at h
      exact congrArg _ h
  | disable | dump | select | dispatch | schedOut | schedIn | drain | outside => cases h

end Operation

/-! ## Runs -/

/-- The slots after the first of some operations are no more than before, or than there are contexts
at once on the way through all of them. -/
theorem size_run_le (config : Config) (hw : s.store.WellFormed) (operation : Operation)
    (operations : List Operation) :
    (operation.run config s).store.slots.size ≤
      max s.store.slots.size (mostLive config s (operation :: operations)) := by
  have hstep := size_run hw config operation
  have hnext := length_le_mostLive config (operation.run config s) operations
  rw [mostLive]
  omega

theorem mostLive_tail_le (config : Config) (s : Tracing) (operation : Operation)
    (operations : List Operation) :
    mostLive config (operation.run config s) operations ≤
      mostLive config s (operation :: operations) :=
  Nat.le_max_right _ _

/-- After some operations there are no more slots than before, or than there were contexts at
once. -/
theorem size_operations (hr : Registered config s.store) (operations : List Operation) :
    (operations.foldl (fun s operation => operation.run config s) s).store.slots.size ≤
      max s.store.slots.size (mostLive config s operations) := by
  induction operations generalizing s with
  | nil => exact Nat.le_max_left _ _
  | cons operation operations ih =>
    have hfirst := size_run_le config hr.wellFormed operation operations
    have hlater := ih (hr.operation operation)
    have htail := mostLive_tail_le config s operation operations
    rw [List.foldl_cons]
    omega

/-- Every handle that is given on the way is to one of those slots. -/
theorem index_lt_of_handlesGiven (hr : Registered config s.store) {operations : List Operation}
    {handle : Handle} (hg : handle ∈ handlesGiven config s operations) :
    handle.index < max s.store.slots.size (mostLive config s operations) := by
  induction operations generalizing s with
  | nil => exact absurd hg List.not_mem_nil
  | cons operation operations ih =>
    have hfirst := size_run_le config hr.wellFormed operation operations
    rcases List.mem_append.mp hg with hnow | hlater
    · exact (index_lt_of_handle? hr.wellFormed (Option.mem_toList.mp hnow)).trans_le hfirst
    · have hlt := ih (hr.operation operation) hlater
      have htail := mostLive_tail_le config s operation operations
      omega

/-- There are as many slots in a store as there were contexts when there were most of them, and
every insertion answered with one of these. A tracer has no more slots than it had contexts at once,
with that of a process that was being enabled, and every handle that it gave is to one of them. -/
theorem slots_of_most_live :
    (∀ calls : List Store.Call, (∀ call ∈ calls, call ≠ .new) →
      (Store.runCalls calls).slots.size = Store.mostLive .empty calls ∧
      ∀ handle, .inserted handle ∈ (Store.answered .empty calls).map (·.2) →
        handle.index < Store.mostLive .empty calls) ∧
    ∀ (config : Config) (machine : Machine) (operations : List Operation),
      let start : Tracing := { store := (Tracer.new config).store, machine }
      (runOperations config machine operations).store.slots.size ≤
          mostLive config start operations ∧
        ∀ handle ∈ handlesGiven config start operations,
          handle.index < mostLive config start operations := by
  constructor
  · intro calls hcalls
    have hsize : (Store.empty.after calls).slots.size = Store.mostLive .empty calls :=
      (Store.wellFormed_empty.size_after hcalls).trans (Nat.zero_max _)
    refine ⟨hsize, fun handle hanswer => ?_⟩
    obtain ⟨⟨call, answer⟩, ha, rfl⟩ := List.mem_map.mp hanswer
    rw [← hsize]
    exact Store.wellFormed_empty.index_lt_of_answered hcalls ha
  · intro config machine operations start
    have hr : Registered config start.store := .empty config
    have hvacant : max start.store.slots.size (mostLive config start operations) =
        mostLive config start operations := Nat.zero_max _
    rw [← hvacant]
    exact ⟨size_operations hr operations, fun handle hg => index_lt_of_handlesGiven hr hg⟩

/-- A family is removed, and another context inserted and drained and inserted again. Two processes
cannot be enabled, and then one is, with a child, and one more after both are gone. Two slots are
enough each time. -/
theorem slots_of_most_live_cycles :
    let context (pid : UInt32) (parent : Option Handle) : Context := ⟨pid, ⟨1⟩, 0, [], parent⟩
    let calls : List Store.Call := [.insert (context 7 none), .insert (context 8 (some ⟨0, 0⟩)),
      .remove ⟨0, 0⟩, .remove ⟨1, 0⟩, .insert (context 9 none), .drain, .insert (context 9 none)]
    let config : Config := ⟨1, .userOnly⟩
    let start : Tracing :=
      ⟨(Tracer.new config).store, { Machine.new 1 with faults := [⟨.wrmsr, 1, 0, 5, none⟩] }⟩
    let operations : List Operation := [.enable 1 5, .enable 2 5, .outside (.new 1), .enable 3 5,
      .fork 3 4, .disable 3, .enable 5 0]
    (∀ call ∈ calls, call ≠ .new) ∧ (Store.runCalls calls).slots.size = 2 ∧
      .inserted ⟨1, 2⟩ ∈ (Store.answered .empty calls).map (·.2) ∧
      (⟨1, 2⟩ : Handle).index < 2 ∧
      (runOperations config start.machine operations).store.slots.size ≤ 2 ∧
      ⟨1, 1⟩ ∈ handlesGiven config start operations ∧ (⟨1, 1⟩ : Handle).index < 2 := by
  intro context calls config start operations
  have hcalls : ∀ call ∈ calls, call ≠ .new := by simp [calls]
  have hmost : Store.mostLive .empty calls = 2 := by cbv
  have hanswers : (Store.answered .empty calls).map (·.2) =
      [.inserted ⟨0, 0⟩, .inserted ⟨1, 0⟩, .removed 2, .failed .staleHandle, .inserted ⟨1, 1⟩,
        .removed 1, .inserted ⟨1, 2⟩] := by cbv
  have hlast : .inserted ⟨1, 2⟩ ∈ (Store.answered .empty calls).map (·.2) := by simp [hanswers]
  obtain ⟨hsize, hindex⟩ := slots_of_most_live.1 calls hcalls
  have hlt := hindex ⟨1, 2⟩ hlast
  rw [hmost] at hsize hlt
  have hmost' : mostLive config start operations = 2 := by cbv
  have hgiven : handlesGiven config start operations = [⟨0, 2⟩, ⟨1, 0⟩, ⟨1, 1⟩] := by cbv
  have hmem : ⟨1, 1⟩ ∈ handlesGiven config start operations := by simp [hgiven]
  obtain ⟨hslots, hhandles⟩ := slots_of_most_live.2 config start.machine operations
  have hlt' := hhandles ⟨1, 1⟩ hmem
  rw [hmost'] at hslots hlt'
  exact ⟨hcalls, hsize, hlast, hlt, hslots, hmem, hlt'⟩

end Tracer

end BranchTrace
