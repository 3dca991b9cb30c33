import BranchTrace.Proofs.Store.Renaming

/-!
# The chronicle of a store

What a caller of a store can write down: the contexts that are in it, in the order they were
inserted, each under the handle its insertion answered and as it was last changed (`chronicle`). It
is kept from the calls and their answers alone. Main statement: `order_and_identity`, the store
shows the chronicle, and once it is drained it behaves like an empty one under other names.
-/

namespace BranchTrace

namespace Store

/-- Calls one after the other, each with its answer. -/
def answered : Store → List Call → List (Call × Answer)
  | _, [] => []
  | store, call :: calls => (call, (store.perform call).1) :: answered (store.perform call).2 calls

/-- A handle is that of an entry that was forked from the other handle. -/
def ForkedIn (entries : List (Handle × Context)) (child parent : Handle) : Prop :=
  ∃ context, (child, context) ∈ entries ∧ context.parent = some parent

open Classical in
/-- The entries after a call that was answered. An insertion adds one at the end, under the handle
that it answers. A removal strikes out every entry whose chain of parents leads to the handle. A
change changes the entry in its place. -/
noncomputable def record (entries : List (Handle × Context)) :
    Call → Answer → List (Handle × Context)
  | .new, _ => []
  | .insert context, .inserted handle => entries ++ [(handle, context)]
  | .remove handle, .removed _ =>
    entries.filter fun e => ¬Relation.ReflTransGen (ForkedIn entries) e.1 handle
  | .drain, _ => []
  | .edit _ change, .edited (some handle)
  | .editOf _ change, .edited (some handle) =>
    entries.map fun e => if e.1 = handle then (e.1, change e.2) else e
  | _, _ => entries

/-- The entries after some calls, from an empty store on. -/
noncomputable def chronicle (calls : List Call) : List (Handle × Context) :=
  (empty.answered calls).foldl (fun entries made => record entries made.1 made.2) []

/-- The entry of a process that a look-up gives: the first one, if it is of the process, and
otherwise the last one that is. -/
def lookUp (pid : UInt32) : List (Handle × Context) → Option Handle
  | [] => none
  | head :: later =>
    if head.2.pid = pid then some head.1
    else (later.reverse.find? fun e => e.2.pid = pid).map (·.1)

namespace WellFormed

variable {store : Store} (hw : store.WellFormed)
include hw

theorem forkedIn_toList : ForkedIn store.toList = store.ForkedFrom := by
  funext child parent
  simp only [ForkedIn, ForkedFrom, hw.get?_eq_some]

theorem find?_eq_lookUp (pid : UInt32) : store.find? pid = lookUp pid store.toList := by
  rw [find?_eq, hw.searchOrder_eq]
  cases store.toList with
  | nil => rfl
  | cons head later =>
    rw [backwards, lookUp, List.find?_cons]
    by_cases hp : head.2.pid = pid <;> simp [hp]

/-- One call is recorded. -/
theorem toList_perform (call : Call) :
    (store.perform call).2.toList = record store.toList call (store.perform call).1 := by
  cases call with
  | new => rfl
  | insert context =>
    rcases hw.insert_spec context with ⟨hi, -⟩ | ⟨handle, store', hi, -, -, hlist⟩
    · simp only [Store.perform, hi, record]
    · simp only [Store.perform, hi, record, hlist]
  | remove handle =>
    by_cases hc : store.contains handle = true
    · obtain ⟨store', hr, -, -, hlist⟩ := hw.remove?_spec hc
      obtain ⟨-, -, hfamily, -⟩ := hw.family_spec hc
      have hgone : ∀ e : Handle × Context, e.1 ∈ store.family handle ↔
          Relation.ReflTransGen (ForkedIn store.toList) e.1 handle := by
        intro e
        rw [hfamily, hw.forkedIn_toList]
        rfl
      simp only [Store.perform, hr, record, hlist]
      exact List.filter_congr fun e _ => decide_eq_decide.mpr (not_congr (hgone e))
    · simp only [Store.perform, (remove?_of_not_contains hc).1, record]
  | drain => exact hw.drain_spec.2.2.2
  | edit handle change =>
    by_cases hc : store.contains handle = true
    · simp only [Store.perform, if_pos hc, record, (hw.update_spec handle change).2]
    · simp only [Store.perform, if_neg hc, record, update_of_not_contains hc]
  | editOf pid change =>
    cases hf : store.find? pid with
    | none => simp only [Store.perform, hf, record]
    | some handle => simp only [Store.perform, hf, record, (hw.update_spec handle change).2]

/-- Calls are recorded one after the other. -/
theorem toList_after (calls : List Call) :
    (store.after calls).toList =
      (store.answered calls).foldl (fun entries made => record entries made.1 made.2)
        store.toList := by
  induction calls generalizing store with
  | nil => rfl
  | cons call calls ih =>
    rw [answered, List.foldl_cons, ← hw.toList_perform, ← ih (hw.perform call).1]
    rfl

end WellFormed

/-- Calls that do not empty stores that behave alike are answered alike, under the same names. -/
theorem Bisimilar.answered {names : Handle ≃ Handle} {s t : Store} (h : Bisimilar names s t)
    {calls : List Call} (hcalls : ∀ call ∈ calls, call.empties = false) :
    t.answered (calls.map (Call.renamed names)) =
      (s.answered calls).map (Prod.map (Call.renamed names) (Answer.renamed names)) := by
  obtain ⟨Related, hb, hr⟩ := h
  induction calls generalizing s t with
  | nil => rfl
  | cons call calls ih =>
    obtain ⟨hcall, hcalls⟩ := List.forall_mem_cons.mp hcalls
    obtain ⟨names', hr', hnames⟩ := hb.step hr call
    obtain rfl := hnames hcall
    rw [List.map_cons, Store.answered, Store.answered, List.map_cons, ih hcalls hr',
      hb.answer hr]
    rfl

/-- After any calls a store shows the entries of its chronicle: all of them in order, or from the
first one and then from the last one back, the first one, and by handle and process. Draining it
answers how many there are, and what is left behaves like the empty store, but for the names of the
handles; until it is emptied again, these stay the same. -/
theorem order_and_identity (calls : List Call) :
    let store := runCalls calls
    let entries := chronicle calls
    store.toList = entries ∧ (entries.map (·.1)).Nodup ∧
      (∀ handle context, store.get? handle = some context ↔ (handle, context) ∈ entries) ∧
      store.searchOrder = backwards entries ∧ store.headHandle = entries.head?.map (·.1) ∧
      (∀ pid, store.find? pid = lookUp pid entries ∧
        (store.find? pid = none ↔ ∀ e ∈ entries, e.2.pid ≠ pid)) ∧
      store.drain.1 = entries.length ∧
      ∃ names, Bisimilar names store.drain.2 empty ∧
        ∀ later : List Call, (∀ call ∈ later, call.empties = false) →
          empty.answered (later.map (Call.renamed names)) =
            (store.drain.2.answered later).map
              (Prod.map (Call.renamed names) (Answer.renamed names)) := by
  intro store entries
  have hw : store.WellFormed := wellFormed_foldl_perform wellFormed_empty calls
  have hlist : store.toList = entries := wellFormed_empty.toList_after calls
  obtain ⟨-, hcount, hdrained, hvacant⟩ := hw.drain_spec
  obtain ⟨names, hnames⟩ := bisimilar_of_vacant hdrained wellFormed_empty hvacant rfl
  rw [← hlist]
  exact ⟨rfl, hw.handles_nodup, fun _ _ => hw.get?_eq_some, hw.searchOrder_eq, hw.headHandle_eq,
    fun pid => ⟨hw.find?_eq_lookUp pid, hw.find?_eq_none⟩, hcount, names, hnames,
    fun later hlater => hnames.answered hlater⟩

end Store

end BranchTrace
