import BranchTrace.Proofs.Host.Ledger
import BranchTrace.Proofs.Host.Notifying
import BranchTrace.Proofs.Tracer.Exchanges
import BranchTrace.Proofs.Tracer.Registered

/-!
# Switches on different cpus

A context switch is a list of moves of single contexts between the stores of the tracers and one
register file (`Host.moves`). Moves of different processes that go by different files can be made in
either order (`Scene.after_comm`), and so can lists of such moves (`Scene.run_comm`).

Main statement: `contextSwitches_commute`, context switches on cpus with registers of their own that
concern different processes come to the same in either order.
-/

namespace BranchTrace

/-- What context switches work on: the tracers, and what the registers of every file hold. -/
structure Scene where
  tracers : Array Tracer
  cells : Nat → UInt32 → UInt64

/-- One context moves between the store of a tracer and a register file. -/
structure Move where
  direction : Transfer
  tracer : Nat
  pid : UInt32
  file : Nat

/-- Two moves of different processes that go by different files. -/
structure Move.Apart (move move' : Move) : Prop where
  pid : move.pid ≠ move'.pid
  file : move.file ≠ move'.file

theorem Move.Apart.symm {move move' : Move} (h : move.Apart move') : move'.Apart move :=
  ⟨h.pid.symm, h.file.symm⟩

namespace Scene

/-- The register writes that put back the context that a tracer has for a process. -/
def writesOf (scene : Scene) (tracer : Nat) (pid : UInt32) : List (UInt32 × UInt64) :=
  ((scene.tracers[tracer]?).map fun t => t.store.writesOf pid).getD []

/-- The scene after a move. -/
def after (scene : Scene) (move : Move) : Scene :=
  match move.direction with
  | .save =>
    { scene with
      tracers := scene.tracers.modify move.tracer fun t =>
        { t with store := t.store.amend move.pid (Context.refreshed (scene.cells move.file)) } }
  | .restore =>
    { scene with
      cells := Function.update scene.cells move.file
        (overwritten (scene.cells move.file) (scene.writesOf move.tracer move.pid)) }

/-- The scene after moves in order. -/
def run (scene : Scene) (moves : List Move) : Scene :=
  moves.foldl after scene

variable (scene : Scene) {move move' : Move}

theorem run_singleton (move : Move) : scene.run [move] = scene.after move := rfl

theorem run_append (first last : List Move) :
    scene.run (first ++ last) = (scene.run first).run last :=
  List.foldl_append

/-! ## Moves that do not meet -/

/-- A move changes no file but its own. -/
theorem cells_after_of_ne {file : Nat} (h : file ≠ move.file) :
    (scene.after move).cells file = scene.cells file := by
  unfold after
  cases move.direction with
  | save => rfl
  | restore => exact Function.update_of_ne h _ _

/-- A move changes no context but that of its process. -/
theorem writesOf_after_of_ne {pid : UInt32} (h : pid ≠ move.pid) (tracer : Nat) :
    (scene.after move).writesOf tracer pid = scene.writesOf tracer pid := by
  unfold after
  cases move.direction with
  | restore => rfl
  | save =>
    simp only [writesOf, Array.getElem?_modify]
    split
    · simp only [Option.map_map, Function.comp_def, Store.writesOf,
        Store.contextOf?_amend_of_ne (Context.pid_refreshed _) h.symm]
    · rfl

/-- Moves that do not meet can be made in either order. -/
theorem after_comm (h : move.Apart move') :
    (scene.after move).after move' = (scene.after move').after move := by
  -- what either of the moves reads is not changed by the other
  have hcells := cells_after_of_ne scene h.file
  have hcells' := cells_after_of_ne scene h.symm.file
  have hwrites := writesOf_after_of_ne scene h.pid move.tracer
  have hwrites' := writesOf_after_of_ne scene h.symm.pid move'.tracer
  obtain ⟨direction, tracer, pid, file⟩ := move
  obtain ⟨direction', tracer', pid', file'⟩ := move'
  cases direction with
  | save =>
    cases direction' with
    | save =>
      -- two contexts are filled, perhaps in one store
      simp only [after, Scene.mk.injEq, and_true]
      refine array_modify_comm _ fun _ t => ?_
      simp only [Tracer.mk.injEq, true_and]
      exact Store.amend_comm (Context.pid_refreshed _) (Context.pid_refreshed _) h.pid
    | restore =>
      simp only [after] at hcells hwrites' ⊢
      rw [hwrites', hcells]
  | restore =>
    cases direction' with
    | save =>
      simp only [after] at hcells' hwrites ⊢
      rw [hwrites, hcells']
    | restore =>
      simp only [after] at hcells hcells' hwrites hwrites' ⊢
      rw [hwrites', hcells', hwrites, hcells, Function.update_comm h.symm.file]

theorem run_after {moves : List Move} (h : ∀ other ∈ moves, move.Apart other) :
    (scene.after move).run moves = (scene.run moves).after move := by
  induction moves generalizing scene with
  | nil => rfl
  | cons other moves ih =>
    refine Eq.trans ?_ (ih (scene.after other) fun m hm => h m (List.mem_cons_of_mem _ hm))
    rw [← after_comm scene (h other List.mem_cons_self)]
    rfl

/-- Lists of moves that do not meet can be made in either order. -/
theorem run_comm {first last : List Move}
    (h : ∀ move ∈ first, ∀ move' ∈ last, move.Apart move') :
    (scene.run first).run last = (scene.run last).run first := by
  induction first generalizing scene with
  | nil => rfl
  | cons move first ih =>
    have hrest := ih (scene.after move) fun m hm => h m (List.mem_cons_of_mem _ hm)
    rw [run_after scene (h move List.mem_cons_self)] at hrest
    exact hrest

end Scene

/-! ## Switches as moves -/

/-- What a client moves when it is told that a process leaves or comes. -/
def Client.moves (direction : Transfer) (pid : UInt32) (file : Nat) : Client → List Move
  | .tracer id => [{ direction, tracer := id, pid, file }]
  | .observer _ _ => []

namespace Host

/-- The processes that a context switch concerns: the one that leaves, and the one that comes. -/
def concerned (host : Host) (cpu : Nat) (next : UInt32) : List UInt32 :=
  (host.running.lookup cpu).toList ++ [next]

/-- The moves of a context switch on a cpu that uses a register file. -/
def moves (host : Host) (cpu : Nat) (next : UInt32) (file : Nat) : List Move :=
  ((host.running.lookup cpu).toList.flatMap fun prev =>
      host.notifiers.flatMap (Client.moves .save prev file)) ++
    host.notifiers.flatMap (Client.moves .restore next file)

theorem file_of_mem_moves {host : Host} {cpu file : Nat} {next : UInt32} {move : Move}
    (h : move ∈ host.moves cpu next file) :
    move.file = file ∧ move.pid ∈ host.concerned cpu next := by
  have hclient : ∀ direction pid, move ∈ host.notifiers.flatMap (Client.moves direction pid file) →
      move.file = file ∧ move.pid = pid := by
    intro direction pid hm
    obtain ⟨client, -, hm⟩ := List.mem_flatMap.mp hm
    cases client with
    | tracer id =>
      rw [List.mem_singleton.mp hm]
      exact ⟨rfl, rfl⟩
    | observer => cases hm
  rcases List.mem_append.mp h with h | h
  · obtain ⟨prev, hp, hm⟩ := List.mem_flatMap.mp h
    obtain ⟨hfile, rfl⟩ := hclient _ _ hm
    exact ⟨hfile, List.mem_append_left _ hp⟩
  · obtain ⟨hfile, rfl⟩ := hclient _ _ h
    exact ⟨hfile, List.mem_append_right _ (List.mem_singleton_self _)⟩

end Host

namespace Platform

/-- The tracers of a platform, and its registers in a number of files. -/
structure Shows (s : Platform) (files : Nat) (scene : Scene) : Prop where
  tracers : s.tracers = scene.tracers
  bank : ∃ bank, s.machine.bank = .soft bank ∧ bank.files = files ∧ bank.cells = scene.cells

/-- A step makes moves by the file of a cpu that the thread is on, and keeps it there, unless a
mishap is reported. -/
def Performs (cpu : Nat) (step : StateM Platform Unit) (moves : Nat → List Move) : Prop :=
  ∀ s, (step s).2.host = s.host ∧
    s.machine.Manages (step s).2.machine (∀ files scene, s.Shows files scene → s.machine.On cpu →
      (step s).2.Shows files (scene.run (moves (cpu % files))) ∧ (step s).2.machine.On cpu)

variable {cpu : Nat}

theorem performs_nothing (step : StateM Platform Unit) (h : ∀ s, Unmoved s (step s).2) :
    Performs cpu step fun _ => [] := by
  intro s
  obtain ⟨hm, hh, ht⟩ := h s
  refine ⟨hh, Machine.manages_of_events_eq (by rw [hm]) fun files scene hs hon => ⟨⟨?_, ?_⟩, ?_⟩⟩
  · exact ht.trans hs.tracers
  · rw [hm]
    exact hs.bank
  · rwa [hm]

theorem Performs.seq {first last : StateM Platform Unit} {moves moves' : Nat → List Move}
    (h : Performs cpu first moves) (h' : Performs cpu last moves') :
    Performs cpu (do first; last) fun file => moves file ++ moves' file := by
  intro s
  obtain ⟨hh, hm⟩ := h s
  obtain ⟨hh', hm'⟩ := h' (first s).2
  refine ⟨hh'.trans hh, (hm.and hm').imp fun hd files scene hs hon => ?_⟩
  obtain ⟨hs', hon'⟩ := hd.1 files scene hs hon
  rw [Scene.run_append]
  exact hd.2 files _ hs' hon'

theorem performs_tellAll {step : Client → StateM Platform Unit}
    {moves : Nat → Client → List Move}
    (h : ∀ client, Performs cpu (step client) fun file => moves file client)
    (clients : List Client) :
    Performs cpu (tellAll step clients) fun file => clients.flatMap (moves file) := by
  induction clients with
  | nil => exact performs_nothing _ fun _ => ⟨rfl, rfl, rfl⟩
  | cons client clients ih => exact (h client).seq ih

/-! ## What the tracers do -/

theorem modify_of_getElem?_eq_none {α : Type} {xs : Array α} {i : Nat} (h : xs[i]? = none)
    (f : α → α) : xs.modify i f = xs := by
  refine Array.ext_getElem? fun j => ?_
  rw [Array.getElem?_modify]
  split
  · next hj => rw [← hj, h, Option.map_none]
  · rfl

theorem setIfInBounds_eq_modify {α : Type} {xs : Array α} {i : Nat} {x : α} (h : xs[i]? = some x)
    (f : α → α) : xs.setIfInBounds i (f x) = xs.modify i f := by
  refine Array.ext_getElem? fun j => ?_
  rw [Array.getElem?_setIfInBounds, Array.getElem?_modify]
  split
  · next hj =>
    subst hj
    rw [if_pos (Array.getElem?_eq_some_iff.mp h).1, h, Option.map_some]
  · rfl

theorem setIfInBounds_self {α : Type} {xs : Array α} {i : Nat} {x : α} (h : xs[i]? = some x) :
    xs.setIfInBounds i x = xs := by
  refine Array.ext_getElem? fun j => ?_
  rw [Array.getElem?_setIfInBounds]
  split
  · next hj =>
    subst hj
    rw [if_pos (Array.getElem?_eq_some_iff.mp h).1, h]
  · rfl

/-- A tracer that is told that a process leaves fills the context of that process. -/
theorem performs_schedOut (id : Nat) (pid : UInt32) :
    Performs cpu (onTracer id () fun _ => Tracer.schedOut pid)
      fun file => [{ direction := .save, tracer := id, pid, file }] := by
  intro s
  unfold onTracer
  cases ht : s.tracers[id]? with
  | none =>
    refine ⟨rfl, Machine.manages_of_events_eq rfl fun files scene hs hon => ⟨⟨?_, hs.bank⟩, hon⟩⟩
    simp only [Scene.run_singleton, Scene.after]
    exact hs.tracers.trans (modify_of_getElem?_eq_none (hs.tracers ▸ ht) _).symm
  | some tracer =>
    have h := Tracer.schedOut_manages pid { store := tracer.store, machine := s.machine }
    dsimp only
    generalize Tracer.schedOut pid { store := tracer.store, machine := s.machine } = told at h ⊢
    obtain ⟨_, t⟩ := told
    refine ⟨rfl, h.imp fun hd files scene hs hon => ?_⟩
    obtain ⟨bank, hb, rfl, hcells⟩ := hs.bank
    obtain ⟨hstore, hbank, hon'⟩ := hd bank cpu hb hon
    refine ⟨⟨?_, bank, hbank.trans hb, rfl, hcells⟩, hon'⟩
    rw [hcells] at hstore
    dsimp only at hstore ⊢
    rw [hstore]
    refine (setIfInBounds_eq_modify ht fun t => { t with
      store := t.store.amend pid (Context.refreshed (scene.cells (bank.file cpu))) }).trans ?_
    rw [hs.tracers]
    rfl

/-- A tracer that is told that a process comes writes its context into the registers. -/
theorem performs_schedIn (id : Nat) (pid : UInt32) :
    Performs cpu (onTracer id () fun _ => Tracer.schedIn pid)
      fun file => [{ direction := .restore, tracer := id, pid, file }] := by
  intro s
  unfold onTracer
  cases ht : s.tracers[id]? with
  | none =>
    refine ⟨rfl, Machine.manages_of_events_eq rfl fun files scene hs hon => ⟨⟨hs.tracers, ?_⟩, hon⟩⟩
    obtain ⟨bank, hb, hfiles, hcells⟩ := hs.bank
    refine ⟨bank, hb, hfiles, hcells.trans (Eq.symm ?_)⟩
    have hwrites : scene.writesOf id pid = [] := by
      rw [Scene.writesOf, ← hs.tracers, ht]
      rfl
    simp only [Scene.run_singleton, Scene.after, hwrites]
    exact Function.update_eq_self _ _
  | some tracer =>
    have h := Tracer.schedIn_manages pid { store := tracer.store, machine := s.machine }
    dsimp only
    generalize Tracer.schedIn pid { store := tracer.store, machine := s.machine } = told at h ⊢
    obtain ⟨_, t⟩ := told
    refine ⟨rfl, h.imp fun hd files scene hs hon => ?_⟩
    obtain ⟨bank, hb, rfl, hcells⟩ := hs.bank
    obtain ⟨hstore, hbank, hon'⟩ := hd bank cpu hb hon
    dsimp only at hstore hbank ⊢
    refine ⟨⟨?_, _, hbank, SoftBank.files_writeAll .., ?_⟩, hon'⟩
    · rw [hstore]
      exact (setIfInBounds_self ht).trans hs.tracers
    · have hwrites : scene.writesOf id pid = tracer.store.writesOf pid := by
        rw [Scene.writesOf, ← hs.tracers, ht]
        rfl
      rw [SoftBank.cells_writeAll, hcells, ← hwrites]
      rfl

theorem performs_notifyOut (cpu : Nat) (pid next : UInt32) (client : Client) :
    Performs cpu (notifyOut pid next client) fun file => client.moves .save pid file := by
  cases client with
  | tracer id => exact performs_schedOut id pid
  | observer => exact performs_nothing _ fun _ => ⟨rfl, rfl, rfl⟩

theorem performs_notifyIn (cpu : Nat) (pid : UInt32) (on : Nat) (client : Client) :
    Performs cpu (notifyIn pid on client) fun file => client.moves .restore pid file := by
  cases client with
  | tracer id => exact performs_schedIn id pid
  | observer => exact performs_nothing _ fun _ => ⟨rfl, rfl, rfl⟩

/-! ## What a switch does -/

/-- The platform after a switch by a thread on the cpu, which may run on some cpus. -/
def switchOn (allowed : List Nat) (cpu : Nat) (next : UInt32) (s : Platform) : Platform :=
  (contextSwitch cpu next { s with machine := { s.machine with allowed, cur := cpu } }).2

/-- A context switch makes its moves, and the next process runs on the cpu afterwards. -/
theorem contextSwitch_manages (cpu : Nat) (next : UInt32) (s : Platform) :
    (contextSwitch cpu next s).2.host =
        { s.host with running := insertKey cpu next s.host.running } ∧
      s.machine.Manages (contextSwitch cpu next s).2.machine
        (∀ files scene, s.Shows files scene → s.machine.On cpu →
          (contextSwitch cpu next s).2.Shows files
            (scene.run (s.host.moves cpu next (cpu % files)))) := by
  have hin := performs_tellAll (performs_notifyIn cpu next cpu) s.host.notifiers
  have hget : (get : StateM Platform Platform) s = (s, s) := rfl
  simp only [contextSwitch, stateM_bind_apply, hget]
  cases hl : s.host.running.lookup cpu with
  | none =>
    obtain ⟨hhost, hm⟩ := hin
      { s with host := { s.host with running := insertKey cpu next s.host.running } }
    refine ⟨hhost, hm.imp fun hd files scene hs hon => ?_⟩
    rw [Host.moves, hl]
    exact (hd files scene ⟨hs.tracers, hs.bank⟩ hon).1
  | some prev =>
    obtain ⟨hhost, hm⟩ := ((performs_tellAll (performs_notifyOut cpu prev next)
      s.host.notifiers).seq hin)
      { s with host := { s.host with running := insertKey cpu next s.host.running } }
    refine ⟨hhost, hm.imp fun hd files scene hs hon => ?_⟩
    rw [Host.moves, hl, Option.toList_some, List.flatMap_singleton]
    exact (hd files scene ⟨hs.tracers, hs.bank⟩ hon).1

theorem switchOn_manages {allowed : List Nat} (hcpu : cpu ∈ allowed) (next : UInt32)
    (s : Platform) :
    (switchOn allowed cpu next s).host =
        { s.host with running := insertKey cpu next s.host.running } ∧
      s.machine.Manages (switchOn allowed cpu next s).machine
        (∀ files scene, s.Shows files scene →
          (switchOn allowed cpu next s).Shows files
            (scene.run (s.host.moves cpu next (cpu % files)))) := by
  obtain ⟨hhost, hm⟩ := contextSwitch_manages cpu next
    { s with machine := { s.machine with allowed, cur := cpu } }
  have hplaced : s.machine.Manages { s.machine with allowed, cur := cpu } True :=
    Machine.manages_of_events_eq rfl trivial
  refine ⟨hhost, (hplaced.and hm).imp fun hd files scene hs => ?_⟩
  exact hd.2 files scene ⟨hs.tracers, hs.bank⟩ ⟨rfl, hcpu⟩

theorem Shows.read? {s : Platform} {files : Nat} {scene : Scene} (hs : s.Shows files scene)
    (cpu : Nat) (msr : UInt32) :
    s.machine.read? cpu msr = some (scene.cells (cpu % files) msr) := by
  obtain ⟨bank, hb, rfl, hcells⟩ := hs.bank
  rw [Machine.read?_of_soft hb, ← hcells]
  rfl

section Commuting

variable {s : Platform} {cpu cpu' : Nat} {next next' : UInt32} {allowed allowed' : List Nat}

/-- Two switches on different cpus make the moves of both, one after the other. -/
theorem switchOn_switchOn (hcpu : cpu ∈ allowed) (hcpu' : cpu' ∈ allowed') (hne : cpu' ≠ cpu)
    (hu : s.machine.Untroubled
      (switchOn allowed' cpu' next' (switchOn allowed cpu next s)).machine) :
    (switchOn allowed' cpu' next' (switchOn allowed cpu next s)).host =
        { s.host with running := insertKey cpu' next' (insertKey cpu next s.host.running) } ∧
      ∀ files scene, s.Shows files scene →
        (switchOn allowed' cpu' next' (switchOn allowed cpu next s)).Shows files
          ((scene.run (s.host.moves cpu next (cpu % files))).run
            (s.host.moves cpu' next' (cpu' % files))) := by
  obtain ⟨hhost, hm⟩ := switchOn_manages hcpu next s
  obtain ⟨hhost', hm'⟩ := switchOn_manages hcpu' next' (switchOn allowed cpu next s)
  -- the first switch does not tell the second one another process to leave
  have hmoves : ∀ file, (switchOn allowed cpu next s).host.moves cpu' next' file =
      s.host.moves cpu' next' file := by
    intro file
    rw [hhost, Host.moves, lookup_insertKey, if_neg hne]
    rfl
  refine ⟨by rw [hhost', hhost], fun files scene hs => ?_⟩
  obtain ⟨hfirst, hlast⟩ := (hm.and hm').done hu
  rw [← hmoves]
  exact hlast files _ (hfirst files scene hs)

/-- Two switches on cpus with registers of their own, each by a thread on its cpu, that concern
different processes: if no mishap is reported in either order, then both orders leave the tracers
with the same stores, all cpus with the same registers, and the host with the same processes running
and the same registrations. The stores and the registers are what the moves of both switches make of
them, and the two processes that came are running. -/
theorem contextSwitches_commute {bank : SoftBank} (hb : s.machine.bank = .soft bank)
    (hfile : bank.file cpu ≠ bank.file cpu')
    (hpids : ∀ pid ∈ s.host.concerned cpu next, pid ∉ s.host.concerned cpu' next')
    (hcpu : cpu ∈ allowed) (hcpu' : cpu' ∈ allowed')
    (hforth : s.machine.Untroubled
      (switchOn allowed' cpu' next' (switchOn allowed cpu next s)).machine)
    (hback : s.machine.Untroubled
      (switchOn allowed cpu next (switchOn allowed' cpu' next' s)).machine) :
    let forth := switchOn allowed' cpu' next' (switchOn allowed cpu next s)
    let back := switchOn allowed cpu next (switchOn allowed' cpu' next' s)
    forth.tracers = back.tracers ∧
      (∀ c msr, forth.machine.read? c msr = back.machine.read? c msr) ∧
      (∀ c, forth.host.running.lookup c = back.host.running.lookup c) ∧
      { forth.host with running := [] } = { back.host with running := [] } ∧
      forth.Shows bank.files (Scene.run { tracers := s.tracers, cells := bank.cells }
        (s.host.moves cpu next (bank.file cpu) ++ s.host.moves cpu' next' (bank.file cpu'))) ∧
      ∀ c, forth.host.running.lookup c =
        if c = cpu then some next else if c = cpu' then some next' else s.host.running.lookup c := by
  intro forth back
  have hne : cpu ≠ cpu' := fun h => hfile (congrArg bank.file h)
  obtain ⟨hhost, hshows⟩ := switchOn_switchOn hcpu hcpu' hne.symm hforth
  obtain ⟨hhost', hshows'⟩ := switchOn_switchOn hcpu' hcpu hne hback
  have hapart : ∀ move ∈ s.host.moves cpu next (bank.file cpu),
      ∀ move' ∈ s.host.moves cpu' next' (bank.file cpu'), move.Apart move' := by
    intro move hm move' hm'
    obtain ⟨hf, hp⟩ := Host.file_of_mem_moves hm
    obtain ⟨hf', hp'⟩ := Host.file_of_mem_moves hm'
    exact ⟨fun h => hpids _ hp (h ▸ hp'), by rw [hf, hf']; exact hfile⟩
  have hs : s.Shows bank.files { tracers := s.tracers, cells := bank.cells } :=
    ⟨rfl, bank, hb, rfl, rfl⟩
  have hf : forth.Shows bank.files _ := hshows _ _ hs
  have hb' : back.Shows bank.files
      ((Scene.run _ (s.host.moves cpu' next' (bank.file cpu'))).run
        (s.host.moves cpu next (bank.file cpu))) := hshows' _ _ hs
  -- both orders show one scene
  rw [← Scene.run_comm _ hapart] at hb'
  have hrunning : ∀ c, forth.host.running.lookup c =
      if c = cpu then some next else if c = cpu' then some next' else s.host.running.lookup c := by
    intro c
    simp only [forth, hhost, lookup_insertKey]
    by_cases hc : c = cpu
    · simp [hc, hne]
    · simp [hc]
  refine ⟨hf.tracers.trans hb'.tracers.symm,
    fun c msr => (hf.read? c msr).trans (hb'.read? c msr).symm, fun c => ?_,
    by rw [hhost, hhost'], ?_, hrunning⟩
  · rw [hrunning, hhost']
    simp only [lookup_insertKey]
  · rw [Scene.run_append]
    exact hf

end Commuting

/-- Two cpus with registers of their own. Processes 7, 8 and 9 are traced; 7 runs on cpu 0 and 9 on
cpu 1, both with something recorded. -/
def busyPair : Platform where
  machine := { Machine.new 2 with
    bank := .soft (((SoftBank.new 2).writeAll 0 [(Msr.tos, 1), (Msr.source 1, 8)]).writeAll 1
      [(Msr.tos, 2), (Msr.target 0, 6)]) }
  host := { notifiers := [.observer "log" 0, .tracer 0], running := [(0, 7), (1, 9)] }
  tracers := #[{ Tracer.new ⟨2, .userOnly⟩ with
    store := (Tracer.runOperations ⟨2, .userOnly⟩ (.new 2)
      [.enable 7 0, .enable 8 3, .enable 9 0]).store }]

/-- Process 8 comes onto cpu 0, and 5, which is not traced, onto cpu 1. -/
theorem contextSwitches_commute_busyPair :
    let forth := switchOn [0, 1] 1 5 (switchOn [0, 1] 0 8 busyPair)
    let back := switchOn [0, 1] 0 8 (switchOn [0, 1] 1 5 busyPair)
    busyPair.machine.Untroubled forth.machine ∧ busyPair.machine.Untroubled back.machine ∧
      forth.tracers = back.tracers ∧
      (∀ c msr, forth.machine.read? c msr = back.machine.read? c msr) ∧
      (∀ c, forth.host.running.lookup c = back.host.running.lookup c) ∧
      forth.machine.read? 0 Msr.select = some 3 := by
  have hforth : busyPair.machine.Untroubled
      (switchOn [0, 1] 1 5 (switchOn [0, 1] 0 8 busyPair)).machine := by decide +kernel
  have hback : busyPair.machine.Untroubled
      (switchOn [0, 1] 0 8 (switchOn [0, 1] 1 5 busyPair)).machine := by decide +kernel
  -- not by going through all process numbers
  have hpids : ∀ pid ∈ busyPair.host.concerned 0 8, pid ∉ busyPair.host.concerned 1 5 := by
    rw [show busyPair.host.concerned 0 8 = [7, 8] from rfl,
      show busyPair.host.concerned 1 5 = [9, 5] from rfl]
    simp
  obtain ⟨htracers, hregisters, hrunning, -⟩ :=
    contextSwitches_commute (s := busyPair) rfl (by decide) hpids (by decide) (by decide) hforth
      hback
  exact ⟨hforth, hback, htracers, hregisters, hrunning, by decide +kernel⟩

end Platform

end BranchTrace
