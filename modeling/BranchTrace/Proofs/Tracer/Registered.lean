import BranchTrace.Proofs.Tracer.Outcomes

/-!
# The registry of traced processes

`Registered` is what the operations of a tracer keep, whatever the machine does to them: no
process is traced twice, every context has the capacity of the configuration, and parents stand
before their children in the list of contexts. That a parent handle never outlives its context
rests on removals taking every descendant along (`Registered.remove`).

Main statement: `registry_of_operations`, which is about any operations in any order, with the
machine replaced by any other one between them.
-/

namespace BranchTrace

namespace Store

/-- All contexts hold the same number of branches. -/
def Uniform (store : Store) (capacity : Nat) : Prop :=
  ∀ e ∈ store.toList, e.2.capacity = capacity

variable {store store' : Store} {capacity : Nat}

theorem Uniform.edit (hu : store.Uniform capacity) (hw : store.WellFormed) {handle : Handle}
    (he : store.Edited handle store') : store'.Uniform capacity := by
  obtain ⟨-, g, hlist, hg⟩ := he.spec hw
  intro e' he'
  rw [hlist] at he'
  obtain ⟨e, he, rfl⟩ := List.mem_map.mp he'
  rw [(hg e he).2.1.capacity]
  exact hu e he

theorem Uniform.insert (hu : store.Uniform capacity) (hw : store.WellFormed) {context : Context}
    {handle : Handle} (hi : store.insert context = .ok (handle, store'))
    (hc : context.capacity = capacity) : store'.Uniform capacity := by
  intro e he
  rw [(hw.of_insert hi).2] at he
  rcases List.mem_append.mp he with he | he
  · exact hu e he
  · rwa [List.mem_singleton.mp he]

theorem Uniform.remove (hu : store.Uniform capacity) (hw : store.WellFormed) {handle : Handle}
    {removed : List Context} (hr : store.remove? handle = some (removed, store')) :
    store'.Uniform capacity := by
  intro e he
  rw [(hw.of_remove? hr).2.2] at he
  exact hu e (List.mem_of_mem_filter he)

end Store

/-- What holds of the contexts of a tracer between two operations. -/
structure Registered (config : Config) (store : Store) : Prop where
  wellFormed : store.WellFormed
  pids_nodup : (store.toList.map (·.2.pid)).Nodup
  capacity : store.Uniform config.capacity
  /-- A parent is older than its child. -/
  parents : ∀ e ∈ store.toList, ∀ parent ∈ e.2.parent,
    ∃ p, p.1 = parent ∧ [p, e].Sublist store.toList

namespace Registered

variable {config : Config} {store store' : Store}

theorem empty (config : Config) : Registered config .empty where
  wellFormed := Store.wellFormed_empty
  pids_nodup := List.nodup_nil
  capacity _ he := absurd he List.not_mem_nil
  parents _ he := absurd he List.not_mem_nil

variable (hr : Registered config store)
include hr

theorem contains_parent {e : Handle × Context} (he : e ∈ store.toList) {parent : Handle}
    (hp : parent ∈ e.2.parent) : store.contains parent = true := by
  obtain ⟨p, rfl, hs⟩ := hr.parents e he parent hp
  exact hr.wellFormed.contains_of_mem (hs.subset List.mem_cons_self)

theorem edit {handle : Handle} (he : store.Edited handle store') : Registered config store' := by
  obtain ⟨hw', g, hlist, hg⟩ := he.spec hr.wellFormed
  refine ⟨hw', ?_, hr.capacity.edit hr.wellFormed he, ?_⟩
  · have hpids : store'.toList.map (·.2.pid) = store.toList.map (·.2.pid) := by
      rw [hlist, List.map_map]
      exact List.map_congr_left fun e he => (hg e he).2.1.pid
    exact hpids ▸ hr.pids_nodup
  · rw [hlist]
    intro e' he' parent hp
    obtain ⟨e, he, rfl⟩ := List.mem_map.mp he'
    rw [(hg e he).2.1.parent] at hp
    obtain ⟨p, rfl, hs⟩ := hr.parents e he parent hp
    exact ⟨g p, (hg p (hs.subset List.mem_cons_self)).1, hs.map g⟩

theorem insert {context : Context} {handle : Handle}
    (hi : store.insert context = .ok (handle, store')) (hpid : store.find? context.pid = none)
    (hcapacity : context.capacity = config.capacity)
    (hparent : ∀ parent ∈ context.parent, store.contains parent = true) :
    Registered config store' := by
  obtain ⟨hw', hlist⟩ := hr.wellFormed.of_insert hi
  have hnew := hr.wellFormed.find?_eq_none.mp hpid
  refine ⟨hw', ?_, hr.capacity.insert hr.wellFormed hi hcapacity, ?_⟩
  · rw [hlist, List.map_append]
    refine hr.pids_nodup.append (List.nodup_singleton _) fun pid hp hq => ?_
    obtain ⟨e, he, rfl⟩ := List.mem_map.mp hp
    exact hnew e he (List.mem_singleton.mp hq)
  · rw [hlist]
    intro e he parent hp
    rcases List.mem_append.mp he with he | he
    · obtain ⟨p, hpp, hs⟩ := hr.parents e he parent hp
      exact ⟨p, hpp, hs.trans (List.sublist_append_left _ _)⟩
    · rw [List.mem_singleton.mp he] at hp ⊢
      obtain ⟨c, hc⟩ := Store.contains_iff.mp (hparent parent hp)
      have hm := hr.wellFormed.get?_eq_some.mp hc
      exact ⟨(parent, c), rfl, (List.singleton_sublist.mpr hm).append (List.Sublist.refl _)⟩

theorem remove {handle : Handle} {removed : List Context}
    (hrem : store.remove? handle = some (removed, store')) : Registered config store' := by
  obtain ⟨hc, hw', hlist⟩ := hr.wellFormed.of_remove? hrem
  obtain ⟨-, -, hfamily, -⟩ := hr.wellFormed.family_spec hc
  have hsub : store'.toList.Sublist store.toList := hlist ▸ List.filter_sublist
  refine ⟨hw', hr.pids_nodup.sublist (hsub.map _), hr.capacity.remove hr.wellFormed hrem, ?_⟩
  intro e he parent hp
  have hmem := hsub.subset he
  obtain ⟨p, rfl, hs⟩ := hr.parents e hmem parent hp
  rw [hlist] at he ⊢
  have hkept : e.1 ∉ store.family handle := by simpa using (List.mem_filter.mp he).2
  -- if the parent had gone, the child would have gone with it
  have hpkept : p.1 ∉ store.family handle := by
    refine fun hgone => hkept ((hfamily _).mpr ?_)
    exact .head ⟨e.2, hr.wellFormed.get?_eq_some.mpr hmem, hp⟩ ((hfamily _).mp hgone)
  refine ⟨p, rfl, ?_⟩
  simpa [hkept, hpkept] using hs.filter (·.1 ∉ store.family handle)

theorem drain : Registered config store.drain.2 := by
  obtain ⟨-, -, hw', hlist⟩ := hr.wellFormed.drain_spec
  refine ⟨hw', ?_, ?_, ?_⟩ <;> simp [Store.Uniform, hlist]

end Registered

/-! ## Operations -/

namespace Tracer

/-- What can be asked of a tracer, and what can happen to the machine in between: anything. -/
inductive Operation where
  | enable (pid : UInt32) (bits : UInt64)
  | disable (pid : UInt32)
  | dump (pid? : Option UInt32)
  | select (pid : UInt32) (bits : UInt64)
  | dispatch (caller number : UInt32) (block : List UInt8) (param : UInt64)
  | fork (parent child : UInt32)
  | schedOut (pid : UInt32)
  | schedIn (pid : UInt32)
  | drain
  /-- The machine becomes another one, with any plan of failures. -/
  | outside (machine : Machine)

/-- The state after an operation. -/
def Operation.run (config : Config) : Operation → Tracing → Tracing
  | .enable pid bits, s => (Tracer.enable config pid bits s).2
  | .disable pid, s => (Tracer.disable pid s).2
  | .dump pid?, s => (Tracer.dump pid? s).2
  | .select pid bits, s => (Tracer.select pid bits s).2
  | .dispatch caller number block param, s =>
    (Tracer.dispatch config caller number block param s).2
  | .fork parent child, s => (Tracer.fork config parent child s).2
  | .schedOut pid, s => (Tracer.schedOut pid s).2
  | .schedIn pid, s => (Tracer.schedIn pid s).2
  | .drain, s => (Tracer.drain s).2
  | .outside machine, s => { s with machine }

/-- The state after operations on a tracer that is set up on a machine. -/
def runOperations (config : Config) (machine : Machine) (operations : List Operation) : Tracing :=
  operations.foldl (fun s operation => operation.run config s)
    { store := (Tracer.new config).store, machine }

end Tracer

namespace Registered

open Tracer

variable {config : Config} {s : Tracing}

theorem find?_eq_none_of_not_isTraced {pid : UInt32} (h : isTraced s.store pid = false) :
    s.store.find? pid = none := by
  simpa [isTraced] using h

variable (hr : Registered config s.store)
include hr

theorem enable (pid : UInt32) (select : UInt64) :
    Registered config (Tracer.enable config pid select s).2.store := by
  generalize ho : Tracer.enable config pid select s = o
  have h := enable_outcome hr.wellFormed config pid select
  rw [ho] at h
  obtain ⟨r, s'⟩ := o
  cases h with
  | tooLarge => exact hr
  | unpinned _ hs | known _ hs | full _ hs => exact hs ▸ hr
  | undone _ ht hpid hparent hcapacity hi hrem =>
    have hnew := find?_eq_none_of_not_isTraced ht
    exact (hr.insert hi (hpid ▸ hnew) hcapacity (by simp [hparent])).remove hrem
  | added ht hpid hparent hcapacity hi =>
    have hnew := find?_eq_none_of_not_isTraced ht
    exact hr.insert hi (hpid ▸ hnew) hcapacity (by simp [hparent])

theorem disable (pid : UInt32) : Registered config (Tracer.disable pid s).2.store := by
  have h := disable_outcome hr.wellFormed pid
  generalize Tracer.disable pid s = o at h ⊢
  obtain ⟨r, s'⟩ := o
  cases h with
  | untraced => exact hr
  | removed _ hrem => exact hr.remove hrem

theorem dump (pid? : Option UInt32) : Registered config (Tracer.dump pid? s).2.store := by
  have h := dump_outcome hr.wellFormed pid?
  generalize Tracer.dump pid? s = o at h ⊢
  obtain ⟨r, s'⟩ := o
  cases h with
  | unpinned _ hs | absent _ hs => exact hs ▸ hr
  | torn _ _ he | read _ he => exact hr.edit he

theorem select (pid : UInt32) (bits : UInt64) :
    Registered config (Tracer.select pid bits s).2.store := by
  have h := select_outcome hr.wellFormed pid bits
  generalize Tracer.select pid bits s = o at h ⊢
  obtain ⟨r, s'⟩ := o
  cases h with
  | unpinned _ hs | absent _ hs => exact hs ▸ hr
  | torn _ _ he | loaded _ he => exact hr.edit he

theorem fork (parent child : UInt32) :
    Registered config (Tracer.fork config parent child s).2.store := by
  have h := fork_outcome hr.wellFormed config parent child
  generalize Tracer.fork config parent child s = o at h ⊢
  obtain ⟨r, s'⟩ := o
  cases h with
  | untraced | tooLarge | full => exact hr
  | known _ hs => exact hs ▸ hr
  | added hf hget ht hi =>
    refine hr.insert hi (find?_eq_none_of_not_isTraced ht) (by simp [Context.capacity, bornContext])
      fun p hp => ?_
    obtain rfl : _ = p := Option.some.inj hp
    exact hr.wellFormed.contains_of_find? hf

theorem dispatch (caller number : UInt32) (block : List UInt8) (param : UInt64) :
    Registered config (Tracer.dispatch config caller number block param s).2.store := by
  rw [dispatch_apply]
  cases Request.ofBytes block with
  | error e => exact hr
  | ok request =>
    have hr' : Registered config
      (report (.requested number request.select request.pid) s).2.store := hr
    dsimp only
    cases Command.ofNumber number with
    | error e => exact hr'
    | ok command =>
      cases command with
      | enable => exact hr'.enable _ _
      | disable => exact hr'.disable _
      | dump => exact hr'.dump _
      | select => exact hr'.select _ _

theorem schedOut (pid : UInt32) : Registered config (Tracer.schedOut pid s).2.store := by
  rcases schedOut_outcome pid s with hs | ⟨handle, -, he⟩
  · exact hs ▸ hr
  · exact hr.edit he

/-- What one operation keeps. -/
theorem operation (op : Operation) : Registered config (op.run config s).store := by
  cases op with
  | enable pid bits => exact hr.enable pid bits
  | disable pid => exact hr.disable pid
  | dump pid? => exact hr.dump pid?
  | select pid bits => exact hr.select pid bits
  | dispatch caller number block param => exact hr.dispatch caller number block param
  | fork parent child => exact hr.fork parent child
  | schedOut pid => exact hr.schedOut pid
  | schedIn pid => exact (store_schedIn pid s).symm ▸ hr
  | drain => exact hr.drain
  | outside machine => exact hr

theorem operations (ops : List Operation) :
    Registered config (ops.foldl (fun s op => op.run config s) s).store := by
  induction ops generalizing s with
  | nil => exact hr
  | cons op ops ih => exact ih (hr.operation op)

end Registered

theorem Tracer.registered_runOperations (config : Config) (machine : Machine)
    (operations : List Operation) :
    Registered config (runOperations config machine operations).store :=
  Registered.operations (.empty config) operations

/-- After any operations on a tracer, in any order and on any machines, the traced processes are
distinct, their contexts have the capacity of the configuration, and the parent of a context is
there and older than the context. -/
theorem Tracer.registry_of_operations (config : Config) (machine : Machine)
    (operations : List Operation) :
    let store := (runOperations config machine operations).store
    (∀ handle context, store.get? handle = some context ↔ (handle, context) ∈ store.toList) ∧
      (store.toList.map (·.2.pid)).Nodup ∧
      (∀ e ∈ store.toList, e.2.entries.length = config.capacity) ∧
      ∀ e ∈ store.toList, ∀ parent ∈ e.2.parent, store.contains parent = true ∧
        ∃ before after, store.toList = before ++ e :: after ∧ parent ∈ before.map (·.1) := by
  intro store
  have hr : Registered config store := registered_runOperations config machine operations
  refine ⟨fun _ _ => hr.wellFormed.get?_eq_some, hr.pids_nodup, hr.capacity, fun e he parent hp =>
    ⟨hr.contains_parent he hp, ?_⟩⟩
  obtain ⟨p, rfl, hs⟩ := hr.parents e he parent hp
  obtain ⟨before, rest, h, hb, hrest⟩ := List.cons_sublist_iff.mp hs
  obtain ⟨between, after, rfl⟩ := List.append_of_mem (List.singleton_sublist.mp hrest)
  refine ⟨before ++ between, after, by rw [h, List.append_assoc], ?_⟩
  exact List.mem_map_of_mem (List.mem_append_left _ hb)

end BranchTrace
