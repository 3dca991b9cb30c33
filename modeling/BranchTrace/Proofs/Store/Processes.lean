import BranchTrace.Proofs.Store.Update

/-!
# Contexts by process

Looking up and changing the context that a process is found by (`contextOf?`, `amend`), in any
store. Main statements: `contextOf?_amend_of_ne` and `amend_comm`, changes for different processes
are independent of each other as long as they keep whose contexts these are.
-/

namespace BranchTrace

namespace Store

variable {store : Store}

/-! ## Found handles -/

/-- Different processes are found by different handles. -/
theorem find?_ne {pid pid' : UInt32} {handle handle' : Handle} (hne : pid ≠ pid')
    (h : store.find? pid = some handle) (h' : store.find? pid' = some handle') :
    handle ≠ handle' := by
  rintro rfl
  obtain ⟨context, hget, hpid⟩ := exists_of_find? h
  obtain ⟨context', hget', hpid'⟩ := exists_of_find? h'
  obtain rfl : context = context' := Option.some.inj (hget.symm.trans hget')
  exact hne (hpid.symm.trans hpid')

/-! ## Changing a context keeps what is found -/

section Update

variable {f : Context → Context} (hf : ∀ context, (f context).pid = context.pid)
include hf

theorem searchFrom_modify (index : Nat) (pid : UInt32) (fuel start : Nat) :
    (store.modify index fun m => { m with context := f m.context }).searchFrom pid fuel start =
      store.searchFrom pid fuel start := by
  induction fuel generalizing start with
  | zero => rfl
  | succ fuel ih =>
    rw [searchFrom, searchFrom, member?_modify]
    by_cases hi : start = index
    · cases hm : store.member? start with
      | none => simp [hi]
      | some m => simp [hi, hf, ih]
    · simp only [if_neg hi, ih, handleAt_modify, head_modify]

theorem find?_update (handle : Handle) (pid : UInt32) :
    (store.update handle f).find? pid = store.find? pid := by
  rw [update]
  split
  · unfold find?
    rw [head_modify, size_modify]
    cases store.head with
    | none => rfl
    | some head => exact searchFrom_modify hf ..
  · rfl

end Update

/-! ## The context of a process -/

/-- The context that a process is found by. -/
def contextOf? (store : Store) (pid : UInt32) : Option Context :=
  store.find? pid >>= store.get?

/-- Changes the context that a process is found by. -/
def amend (store : Store) (pid : UInt32) (f : Context → Context) : Store :=
  match store.find? pid with
  | none => store
  | some handle => store.update handle f

variable {f g : Context → Context} {pid pid' : UInt32}

theorem amend_of_find?_eq_none (h : store.find? pid = none) : store.amend pid f = store := by
  rw [amend, h]

theorem amend_of_find?_eq_some {handle : Handle} (h : store.find? pid = some handle) :
    store.amend pid f = store.update handle f := by
  rw [amend, h]

theorem amend_eq_update {handle : Handle} {context : Context}
    (hf : store.find? pid = some handle) (hget : store.get? handle = some context) :
    store.amend pid f = store.update handle fun _ => f context := by
  rw [amend_of_find?_eq_some hf]
  refine update_congr fun found hfound => ?_
  rw [Option.some.inj (hget.symm.trans hfound)]

theorem find?_amend (hf : ∀ context, (f context).pid = context.pid) (k : UInt32) :
    (store.amend pid f).find? k = store.find? k := by
  rw [amend]
  split
  · rfl
  · exact find?_update hf ..

theorem contextOf?_amend_self (hf : ∀ context, (f context).pid = context.pid) :
    (store.amend pid f).contextOf? pid = (store.contextOf? pid).map f := by
  rw [contextOf?, find?_amend hf, contextOf?]
  cases h : store.find? pid with
  | none => rfl
  | some handle =>
    rw [amend_of_find?_eq_some h, Option.bind_eq_bind, Option.bind_some, get?_update, if_pos rfl]
    rfl

/-- The contexts of other processes stay. -/
theorem contextOf?_amend_of_ne (hf : ∀ context, (f context).pid = context.pid)
    (hne : pid ≠ pid') : (store.amend pid f).contextOf? pid' = store.contextOf? pid' := by
  rw [contextOf?, find?_amend hf, contextOf?]
  cases h' : store.find? pid' with
  | none => rfl
  | some handle' =>
    cases h : store.find? pid with
    | none => rw [amend_of_find?_eq_none h]
    | some handle =>
      rw [amend_of_find?_eq_some h, Option.bind_eq_bind, Option.bind_some, get?_update,
        if_neg (find?_ne hne h h').symm]
      rfl

/-- Contexts of different processes can be changed in either order. -/
theorem amend_comm (hf : ∀ context, (f context).pid = context.pid)
    (hg : ∀ context, (g context).pid = context.pid) (hne : pid ≠ pid') :
    (store.amend pid f).amend pid' g = (store.amend pid' g).amend pid f := by
  cases h : store.find? pid with
  | none =>
    have hkept : (store.amend pid' g).find? pid = none := (find?_amend hg pid).trans h
    rw [amend_of_find?_eq_none h, amend_of_find?_eq_none hkept]
  | some handle =>
    cases h' : store.find? pid' with
    | none =>
      have hkept : (store.amend pid f).find? pid' = none := (find?_amend hf pid').trans h'
      rw [amend_of_find?_eq_none h', amend_of_find?_eq_none hkept]
    | some handle' =>
      rw [amend_of_find?_eq_some h, amend_of_find?_eq_some h',
        amend_of_find?_eq_some (by rwa [find?_update hf]),
        amend_of_find?_eq_some (by rwa [find?_update hg])]
      exact update_comm (find?_ne hne h h') f g

end Store

end BranchTrace
