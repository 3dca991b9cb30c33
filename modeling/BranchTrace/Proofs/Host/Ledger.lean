import BranchTrace.Proofs.Host.Notifying
import BranchTrace.Proofs.Store.Remove
import BranchTrace.Proofs.Store.Update
import BranchTrace.Proofs.Lbr.Registers

/-!
# A ledger of stacks

What can happen to a platform with a tracer (`Deed`), and a ledger beside it that notes for each
process which stack it is due: the one on the cpu it last left, or that of a newly forked child, for
as long as the context stays that was its own then. `Due` says that a store keeps what a ledger
promises: a process that runs nowhere has its stack in its context.
-/

namespace BranchTrace

/-- The stack of a cpu, where the registers are kept in software. -/
def Machine.stack? (m : Machine) (cpu capacity : Nat) : Option Stack :=
  match m.bank with
  | .soft bank => some (bank.stack cpu capacity)
  | .nodes _ => none

/-- The stack each process is due, and the handle of the context that was its own at that time. -/
abbrev Ledger := UInt32 → Option (Handle × Stack)

theorem lookup_eraseKey {κ ν : Type} [DecidableEq κ] (key k : κ) (entries : List (κ × ν)) :
    (eraseKey key entries).lookup k = if k = key then none else entries.lookup k := by
  induction entries with
  | nil => simp [eraseKey]
  | cons e entries ih =>
    obtain ⟨key', value⟩ := e
    rw [eraseKey] at ih ⊢
    by_cases he : key' = key
    · rw [List.filter_cons_of_neg (by simpa using he), ih]
      split
      · rfl
      · next hk => rw [List.lookup_cons, beq_false_of_ne fun h => hk (h.trans he)]
    · rw [List.filter_cons_of_pos (by simpa using he), List.lookup_cons, List.lookup_cons, ih]
      by_cases hk : k = key'
      · subst hk
        simp [he]
      · rw [beq_false_of_ne hk]

theorem lookup_insertKey {κ ν : Type} [DecidableEq κ] (key k : κ) (value : ν)
    (entries : List (κ × ν)) :
    (insertKey key value entries).lookup k = if k = key then some value else entries.lookup k := by
  rw [insertKey, List.lookup_cons, lookup_eraseKey]
  by_cases hk : k = key
  · subst hk
    simp
  · rw [beq_false_of_ne hk, if_neg hk, if_neg hk]

namespace Platform

/-- What can happen to a platform with a tracer. -/
inductive Deed where
  | switch (cpu : Nat) (next : UInt32)
  | fork (parent child : UInt32)
  | disable (pid : UInt32)
  | dump (pid : UInt32)
  /-- The machine becomes another one: registers are written, the thread moves. -/
  | outside (machine : Machine)

/-- The platform after a deed. -/
def Deed.run (id : Nat) : Deed → Platform → Platform
  | .switch cpu next, s => (contextSwitch cpu next s).2
  | .fork parent child, s =>
    (onTracer id (.ok none) (fun config => (Tracer.fork config parent child).run) s).2
  | .disable pid, s => (onTracer id (.ok 0) (fun _ => (Tracer.disable pid).run) s).2
  | .dump pid, s =>
    (onTracer id (.error .staleHandle) (fun _ => (Tracer.dump (some pid)).run) s).2
  | .outside machine, s => { s with machine }

/-- A switch on a software bank, by the thread on that cpu, to a process that is on no other cpu,
whose pins and register accesses succeed. -/
structure Switches (id : Nat) (s : Platform) (cpu : Nat) (next : UInt32) : Prop where
  soft : ∃ bank, s.machine.bank = .soft bank
  thread : s.machine.On cpu
  apart : ∀ other, other ≠ cpu → s.host.running.lookup other ≠ some next
  leave_pin : ∀ prev, s.host.running.lookup cpu = some prev →
    Tracer.isTraced (s.tracing id).store prev = true → s.machine.Pinnable
  leave_smooth : s.machine.Smooth (s.leave id cpu).machine
  arrive_pin : Tracer.isTraced (s.leave id cpu).store next = true →
    (s.leave id cpu).machine.Pinnable
  arrive_smooth : (s.leave id cpu).machine.Smooth (contextSwitch cpu next s).2.machine

theorem lookup_ne_some_iff {ν : Type} [DecidableEq ν] {entries : List (Nat × ν)} {k : Nat} {v : ν} :
    (∀ other, other ≠ k → entries.lookup other ≠ some v) ↔
      ∀ e ∈ entries, entries.lookup e.1 = some v → e.1 = k := by
  constructor
  · intro h e _ he
    by_contra hne
    exact h e.1 hne he
  · intro h other hne ho
    obtain ⟨l, r, rfl, -⟩ := List.lookup_eq_some_iff.mp ho
    exact hne (h (other, v) (by simp) ho)

/-- Whether a switch is one can be found out by running it. -/
theorem switches_iff {id : Nat} {s : Platform} {cpu : Nat} {next : UInt32} :
    Switches id s cpu next ↔
      (s.machine.stack? cpu 0).isSome ∧ s.machine.On cpu ∧
      (∀ e ∈ s.host.running, s.host.running.lookup e.1 = some next → e.1 = cpu) ∧
      -- not a bounded quantifier, which could be decided by going through all process numbers
      (s.host.running.lookup cpu).all (fun prev =>
        Tracer.isTraced (s.tracing id).store prev = true → s.machine.Pinnable) = true ∧
      s.machine.Smooth (s.leave id cpu).machine ∧
      (Tracer.isTraced (s.leave id cpu).store next = true → (s.leave id cpu).machine.Pinnable) ∧
      (s.leave id cpu).machine.Smooth (contextSwitch cpu next s).2.machine := by
  have hsoft : (s.machine.stack? cpu 0).isSome ↔ ∃ bank, s.machine.bank = .soft bank := by
    rw [Machine.stack?]
    cases s.machine.bank <;> simp
  rw [hsoft, ← lookup_ne_some_iff, Option.all_eq_true]
  simp only [decide_eq_true_eq]
  exact ⟨fun h => ⟨h.1, h.2, h.3, h.4, h.5, h.6, h.7⟩,
    fun ⟨h1, h2, h3, h4, h5, h6, h7⟩ => ⟨h1, h2, h3, h4, h5, h6, h7⟩⟩

instance (m : Machine) (cpu : Nat) : Decidable (m.On cpu) :=
  inferInstanceAs (Decidable (_ ∧ _))

instance (id : Nat) (s : Platform) (cpu : Nat) (next : UInt32) :
    Decidable (Switches id s cpu next) :=
  decidable_of_iff' _ switches_iff

/-- What is asked of a deed: a dump is of the process that runs where the thread is. -/
def Deed.Permitted (id : Nat) (s : Platform) : Deed → Prop
  | .switch cpu next => Switches id s cpu next
  | .dump pid => s.host.running.lookup s.machine.cur = some pid
  | .fork _ _ | .disable _ | .outside _ => True

instance (id : Nat) (s : Platform) : (deed : Deed) → Decidable (deed.Permitted id s)
  | .switch cpu next => inferInstanceAs (Decidable (Switches id s cpu next))
  | .dump pid => inferInstanceAs (Decidable (s.host.running.lookup s.machine.cur = some pid))
  | .fork _ _ | .disable _ | .outside _ => .isTrue trivial

/-- The stack a process leaves behind on a cpu. -/
def leftBehind (id capacity cpu : Nat) (s : Platform) (pid : UInt32) : Option (Handle × Stack) := do
  let handle ← (s.tracing id).store.find? pid
  let stack ← s.machine.stack? cpu capacity
  return (handle, stack)

/-- The stack that a child is born with, if a fork adds it: cleared, with its parent's mask. -/
def bornWith (id capacity : Nat) (s s' : Platform) (parent child : UInt32) :
    Option (Handle × Stack) := do
  let forking ← (s.tracing id).store.find? parent >>= (s.tracing id).store.get?
  let handle ← (s'.tracing id).store.find? child
  let branches := List.replicate capacity ⟨0, 0⟩
  return (handle, { select := forking.select.bits, tos := 0, branches })

/-- The ledger once the process before has left a cpu. -/
def noteLeave (id capacity cpu : Nat) (s : Platform) (ledger : Ledger) : Ledger :=
  match s.host.running.lookup cpu with
  | none => ledger
  | some prev => Function.update ledger prev (leftBehind id capacity cpu s prev)

/-- The ledger after a deed: who leaves a cpu is due what is on it, who is born what it is born
with, and an entry is struck out once its context is gone. -/
def Deed.note (id capacity : Nat) (s : Platform) (deed : Deed) (ledger : Ledger) : Ledger :=
  let noted : Ledger :=
    match deed with
    | .switch cpu _ => noteLeave id capacity cpu s ledger
    | .fork parent child =>
      if Tracer.isTraced (s.tracing id).store child then ledger
      else Function.update ledger child (bornWith id capacity s (deed.run id s) parent child)
    | _ => ledger
  fun pid => (noted pid).filter fun entry => ((deed.run id s).tracing id).store.contains entry.1

/-- A platform and its ledger after some deeds. -/
def watch (id capacity : Nat) (deeds : List Deed) (start : Platform × Ledger) :
    Platform × Ledger :=
  deeds.foldl (fun w deed => (deed.run id w.1, deed.note id capacity w.1 w.2)) start

theorem watch_append (id capacity : Nat) (deeds : List Deed) (deed : Deed)
    (start : Platform × Ledger) :
    watch id capacity (deeds ++ [deed]) start =
      (deed.run id (watch id capacity deeds start).1,
        deed.note id capacity (watch id capacity deeds start).1
          (watch id capacity deeds start).2) := by
  rw [watch, List.foldl_append]
  rfl

/-- Every deed of a run is permitted when it comes. -/
def AllPermitted (id : Nat) : List Deed → Platform → Prop
  | [], _ => True
  | deed :: deeds, s => deed.Permitted id s ∧ AllPermitted id deeds (deed.run id s)

instance AllPermitted.decidable (id : Nat) :
    (deeds : List Deed) → (s : Platform) → Decidable (AllPermitted id deeds s)
  | [], _ => .isTrue trivial
  | deed :: deeds, s =>
    have := AllPermitted.decidable id deeds (deed.run id s)
    inferInstanceAs (Decidable (deed.Permitted id s ∧ _))

/-! ## What is due -/

/-- The contexts that a ledger names are there, and hold the stacks it promises, except those of
processes that run somewhere. -/
def Due (store : Store) (running : List (Nat × UInt32)) (ledger : Ledger) : Prop :=
  ∀ pid handle stack, ledger pid = some (handle, stack) →
    ∃ context, store.get? handle = some context ∧ context.pid = pid ∧
      ((∀ cpu, running.lookup cpu ≠ some pid) → context.stack = stack)

section Due

variable {store store' : Store} {running running' : List (Nat × UInt32)} {ledger : Ledger}

/-- The more processes run, the less is promised. -/
theorem Due.mono (hd : Due store running ledger)
    (h : ∀ pid, (∀ cpu, running'.lookup cpu ≠ some pid) → ∀ cpu, running.lookup cpu ≠ some pid) :
    Due store running' ledger := by
  intro pid handle stack hl
  obtain ⟨context, hget, hpid, hstack⟩ := hd pid handle stack hl
  exact ⟨context, hget, hpid, fun hn => hstack (h pid hn)⟩

theorem Due.filter (hd : Due store running ledger) (keep : Handle × Stack → Bool) :
    Due store running fun pid => (ledger pid).filter keep := by
  intro pid handle stack hl
  exact hd pid handle stack (Option.filter_eq_some_iff.mp hl).1

/-- Whoever runs nowhere once a cpu is left ran nowhere before, or was on that cpu. -/
theorem lookup_ne_of_eraseKey {cpu : Nat} {pid : UInt32} (hcpu : running.lookup cpu ≠ some pid)
    (hn : ∀ other, (eraseKey cpu running).lookup other ≠ some pid) (other : Nat) :
    running.lookup other ≠ some pid := by
  have h := hn other
  rw [lookup_eraseKey] at h
  by_cases ho : other = cpu
  · rwa [ho]
  · rwa [if_neg ho] at h

/-- The process that leaves a cpu gets a new entry, if it has a context for it; the contexts of the
others stay as they are. -/
theorem Due.leave (hd : Due store running ledger) {cpu : Nat} {prev : UInt32}
    (hl : running.lookup cpu = some prev) {entry : Option (Handle × Stack)}
    (hothers : ∀ handle context, store.get? handle = some context → context.pid ≠ prev →
      store'.get? handle = some context)
    (hentry : ∀ handle stack, entry = some (handle, stack) →
      ∃ context, store'.get? handle = some context ∧ context.pid = prev ∧ context.stack = stack) :
    Due store' (eraseKey cpu running) (Function.update ledger prev entry) := by
  intro pid handle stack he
  by_cases hp : pid = prev
  · subst hp
    rw [Function.update_self] at he
    obtain ⟨context, hget, hpid, hstack⟩ := hentry handle stack he
    exact ⟨context, hget, hpid, fun _ => hstack⟩
  · rw [Function.update_of_ne hp] at he
    obtain ⟨context, hget, hpid, hstack⟩ := hd pid handle stack he
    refine ⟨context, hothers handle context hget (hpid ▸ hp), hpid, fun hn => hstack ?_⟩
    exact lookup_ne_of_eraseKey (hl ▸ fun h => hp (Option.some.inj h).symm) hn

/-- A new context gets an entry of its own. -/
theorem Due.insert (hd : Due store running ledger) (hw : store.WellFormed) {context : Context}
    {handle : Handle} (hi : store.insert context = .ok (handle, store'))
    (hnew : store.find? context.pid = none) {entry : Option (Handle × Stack)}
    (hentry : ∀ h stack, entry = some (h, stack) →
      store'.find? context.pid = some h ∧ stack = context.stack) :
    Due store' running (Function.update ledger context.pid entry) := by
  obtain ⟨hw', hlist⟩ := hw.of_insert hi
  intro pid h stack he
  by_cases hp : pid = context.pid
  · subst hp
    rw [Function.update_self] at he
    obtain ⟨hf, rfl⟩ := hentry h stack he
    obtain ⟨found, hm, hpid⟩ := hw'.exists_of_find? hf
    refine ⟨found, hw'.get?_eq_some.mpr hm, hpid, fun _ => ?_⟩
    -- nobody else in the store has this number
    rw [hlist] at hm
    rcases List.mem_append.mp hm with hm | hm
    · exact absurd hpid (hw.find?_eq_none.mp hnew _ hm)
    · rw [(Prod.mk.inj (List.mem_singleton.mp hm)).2]
  · rw [Function.update_of_ne hp] at he
    obtain ⟨found, hget, hpid, hstack⟩ := hd pid h stack he
    refine ⟨found, hw'.get?_eq_some.mpr ?_, hpid, hstack⟩
    rw [hlist]
    exact List.mem_append_left _ (hw.get?_eq_some.mp hget)

/-- An entry that no context is left for is struck out. -/
theorem Due.strike (hd : Due store running ledger) (pid : UInt32) :
    Due store running (Function.update ledger pid none) := by
  intro other handle stack he
  by_cases ho : other = pid
  · subst ho
    rw [Function.update_self] at he
    cases he
  · rw [Function.update_of_ne ho] at he
    exact hd other handle stack he

/-- The context of a process that runs somewhere may change. -/
theorem Due.edit (hd : Due store running ledger) {handle : Handle}
    (he : store.Edited handle store')
    (hrun : ∀ context, store.get? handle = some context →
      ∃ cpu, running.lookup cpu = some context.pid) : Due store' running ledger := by
  obtain ⟨edited, edited', hget', halike, rfl⟩ := he
  intro pid h stack hl
  obtain ⟨context, hget, hpid, hstack⟩ := hd pid h stack hl
  by_cases hh : h = handle
  · subst hh
    obtain rfl : edited = context := Option.some.inj (hget'.symm.trans hget)
    obtain ⟨cpu, hcpu⟩ := hrun _ hget
    refine ⟨edited', ?_, halike.pid.trans hpid, fun hn => absurd (hpid ▸ hcpu) (hn cpu)⟩
    rw [Store.get?_update, if_pos rfl, hget]
    rfl
  · refine ⟨context, ?_, hpid, hstack⟩
    rw [Store.get?_update, if_neg hh, hget]

/-- Contexts may go if their entries are struck out. -/
theorem Due.remove (hd : Due store running ledger) (hw : store.WellFormed) {handle : Handle}
    {removed : List Context} (hr : store.remove? handle = some (removed, store')) :
    Due store' running fun pid => (ledger pid).filter fun entry => store'.contains entry.1 := by
  obtain ⟨-, hw', hlist⟩ := hw.of_remove? hr
  intro pid h stack hl
  obtain ⟨hl, hc⟩ := Option.filter_eq_some_iff.mp hl
  obtain ⟨context, hget, hpid, hstack⟩ := hd pid h stack hl
  obtain ⟨context', hget'⟩ := Store.contains_iff.mp hc
  have hm := hw'.get?_eq_some.mp hget'
  rw [hlist] at hm
  have hold := hw.get?_eq_some.mpr (List.mem_of_mem_filter hm)
  obtain rfl : context = context' := Option.some.inj (hget.symm.trans hold)
  exact ⟨context, hget', hpid, hstack⟩

end Due

end Platform

end BranchTrace
