import BranchTrace.Proofs.Cli.Reports
import BranchTrace.Proofs.Cli.Soundness

/-!
# When a simulation breaks off

From the call of the program on, whatever the simulation and the machine are and whatever fails: a
simulation ends with a report or an error, or else breaks off in its first round, because it was
asked for a branch stack without places (`Ends`). All numbers on the way stay in their bounds: those
of processes, branches and registers are what counting in natural numbers gives, the turns of the
rounds fall to somebody, and the counts of traced processes go down (`Bounded`).

Main statement: `run_broken_iff`, with `run_breaks_off` for a run that does.
-/

namespace BranchTrace.Cli

/-! ## The numbers of a round -/

/-- The writes of a round as numbers of registers and values: the pointer, and by turns the source
and the target of each branch. -/
def roundNumbers (capacity pid round : Nat) : List (Nat × Nat) :=
  (0x1c9, round % capacity) :: (branchesOf capacity pid round).zipIdx.flatMap fun branch =>
    [(0x680 + branch.2, branch.1.1), (0x6c0 + branch.2, branch.1.2)]

/-- Registers are counted up from place to place, and do not run over. -/
theorem branchWrites_toNat {first : Nat} {branches : List Branch}
    (h : first + branches.length ≤ Msr.maxPlaces) :
    (branchWrites (UInt32.ofNat first) branches).map (fun w => (w.1.toNat, w.2.toNat)) =
      ((branches.map fun b => (b.source.toNat, b.target.toNat)).zipIdx first).flatMap fun branch =>
        [(0x680 + branch.2, branch.1.1), (0x6c0 + branch.2, branch.1.2)] := by
  induction branches generalizing first with
  | nil => rfl
  | cons branch rest ih =>
    rw [List.length_cons] at h
    have hplace : Msr.targetBase.toNat + first < UInt32.size :=
      (Nat.add_lt_add_left (by omega : first < Msr.maxPlaces) _).trans (by decide)
    have hnext : UInt32.ofNat first + 1 = UInt32.ofNat (first + 1) :=
      (UInt32.ofNat_add first 1).symm
    rw [branchWrites, List.map_cons, List.map_cons, List.map_cons, List.zipIdx_cons,
      List.flatMap_cons, hnext, ih (by omega), Msr.toNat_source_ofNat hplace,
      Msr.toNat_target_ofNat hplace]
    rfl

/-- In a bank in memory a round writes what counting gives. -/
theorem recordBranches_soft {capacity : Nat} (hpos : 0 < capacity) (hc : capacity ≤ Msr.maxPlaces)
    (cpu : Nat) (pid round : UInt32) {p : Platform} {bank : SoftBank}
    (hb : p.machine.bank = .soft bank) :
    ∃ writes, recordBranches cpu capacity pid round p =
        (.ok (), { p with machine := { p.machine with bank := .soft (bank.writeAll cpu writes) } }) ∧
      writes.map (fun w => (w.1.toNat, w.2.toNat)) =
        roundNumbers capacity pid.toNat round.toNat := by
  refine ⟨_, by rw [recordBranches, if_neg hpos.ne', hb]; dsimp only; rw [writeAll_eq], ?_⟩
  have hlength : (takenBranches capacity pid round).length ≤ Msr.maxPlaces := by
    rw [takenBranches, List.length_map, List.length_range]
    exact (Nat.mod_le ..).trans hc
  have htop : round.toNat % capacity < UInt64.size :=
    (Nat.mod_le ..).trans_lt (round.toNat_lt.trans (by decide))
  have hbranches : (branchWrites 0 (takenBranches capacity pid round)).map _ = _ :=
    branchWrites_toNat ((Nat.zero_add _).trans_le hlength)
  rw [takenBranches_toNat hc] at hbranches
  rw [List.map_cons, roundNumbers]
  exact congrArg₂ _ (congrArg _ (UInt64.toNat_ofNat_of_lt' htop)) hbranches

namespace Simulation

open Platform

variable {id : Nat} {config : Config} {s : Platform}

/-! ## From loading to unloading -/

/-- What a run does on a host after its session. -/
def takingDown (id : Nat) (report : Report) : Action Platform Halt Report := do
  let _ ← Platform.unload id
  let history := (← get).host.history
  ExceptT.lift (reportAll (history.map .hostChanged))
  return { report with history }

theorem onHost_eq (simulation : Simulation) (family : List UInt32) (config : Config) :
    simulation.onHost family config =
      (ExceptT.adapt (fun e => .failed e.toSystemError) (Platform.load config) >>= fun id =>
        pinned .failed Pin.current (fun pin =>
          simulation.session family config.capacity id pin.cpu) >>= takingDown id) := rfl

/-- Taking tracing down adds the history to a report, and cannot fail. -/
theorem takingDown_spec (hs : s.Has id config) (hc : config.capacity ≤ Msr.maxPlaces)
    (report : Report) :
    ∃ history s', takingDown id report s = (.ok { report with history }, s') ∧
      s.machine.Tries (Lbr.Touches config.capacity) s'.machine := by
  have hunload := tries_unload hc hs
  have hdown : takingDown id report s =
      let unloaded := (unload id s).2
      (.ok { report with history := unloaded.host.history },
        (reportAll (unloaded.host.history.map .hostChanged) unloaded).2) := rfl
  rw [hdown]
  generalize (unload id s).2 = unloaded at hunload ⊢
  exact ⟨_, _, rfl, (Machine.composes_tries _).trans hunload
    ((Machine.composes_tries _).untouched ⟨rfl, rfl⟩)⟩

/-- What a run does on a host before its first round. -/
def beginOnHost (simulation : Simulation) (family : List UInt32) (config : Config) :
    Action Platform Halt Unit := do
  let _ ← ExceptT.adapt (fun e => .failed e.toSystemError) (Platform.load config)
  pinned .failed Pin.current fun _ => simulation.openings family

/-- How a run on a host ends, and which registers it tries. -/
theorem onHost_spec (simulation : Simulation) (family : List UInt32)
    (hc : config.capacity ≤ Msr.maxPlaces)
    (hobservers : ∀ client ∈ s.host.notifiers, ∃ name status, client = .observer name status) :
    let outcome := simulation.onHost family config s
    simulation.Ends config.capacity ((simulation.beginOnHost family config s).1 = .ok ())
        outcome.1 ∧
      s.machine.Tries (Lbr.Touches config.capacity) outcome.2.machine := by
  have hR := Machine.composes_tries (Lbr.Touches config.capacity)
  have hloading := tries_load hc s
  have hserves : ∀ id, (Platform.load config s).1 = .ok id →
      Serving id config (Platform.load config s).2 := fun id h => (serving_load hobservers h).1
  rw [onHost_eq, beginOnHost, Action.bind_apply, Action.bind_apply, Action.adapt_apply]
  generalize Platform.load config s = loading at hloading hserves ⊢
  obtain ⟨e | id, loaded⟩ := loading
  · exact ⟨.failed _ nofun, hloading⟩
  have hs : Serving id config loaded := hserves id rfl
  have hpinning := Pin.untouched_current loaded.machine
  simp only [Except.mapError, Action.bind_apply, pinned_apply, MachineState.machine,
    MachineState.setMachine]
  generalize Pin.current loaded.machine = pinning at hpinning ⊢
  obtain ⟨e | pin, m⟩ := pinning
  · exact ⟨.failed e nofun, hR.trans hloading (hR.untouched hpinning)⟩
  have hpinned : Upheld id config loaded { loaded with machine := m } := hs.upheld hpinning.accesses
  obtain ⟨hup, hends⟩ := session_spec simulation family pin.cpu hpinned.serving
  dsimp only at hup hends ⊢
  generalize simulation.session family config.capacity id pin.cpu _ = ran at hup hends ⊢
  obtain ⟨r, t⟩ := ran
  dsimp only at hup hends ⊢
  -- giving the pin back is nothing to the tracer
  have hreleased : Upheld id config t { t with machine := (pin.release t.machine).2 } :=
    hup.serving.upheld (pin.untouched_release t.machine).accesses
  have htried := hR.trans hloading
    (((hpinned.trans hup).trans hreleased).tries.mono fun _ => Or.inl)
  cases r with
  | error halt => exact ⟨hends, htried⟩
  | ok report =>
    obtain ⟨history, t', hdown, hunloaded⟩ := takingDown_spec hreleased.serving.has hc report
    dsimp only
    rw [hdown]
    have hwhole : ¬(config.capacity = 0 ∧ simulation.switches ≠ 0 ∧ _) :=
      fun hb => nomatch (hends.broken _).mpr ⟨rfl, hb⟩
    exact ⟨.of_yields (hends.disabled report rfl) hwhole, hR.trans htried hunloaded⟩

/-! ## Runs -/

/-- A run with a fresh host, on which something is done. -/
def onFresh {α : Type} (simulation : Simulation) (options : Options)
    (detected? : Option Signature)
    (step : List UInt32 → Config → Action Platform Halt α) : Action Machine Halt α := do
  let family ← orHalt simulation.family
  let capacity ← ExceptT.adapt .failed (simulation.capacity options detected?)
  let cpus ← ExceptT.adapt .failed allowedCpus
  let files := (cpus.map (· + 1)).foldl max 1
  let config := Config.new capacity options.defaultSelect?
  fun m =>
    let bank := Bank.soft (.new files)
    let (r, p) := step family config { machine := { m with bank } }
    (r, { p.machine with bank := m.bank })

theorem run_eq (simulation : Simulation) (options : Options) (detected? : Option Signature) :
    simulation.run options detected? = simulation.onFresh options detected? simulation.onHost := rfl

/-- What a run does before its first round. -/
def beginning (simulation : Simulation) (options : Options) (detected? : Option Signature) :
    Action Machine Halt Unit :=
  simulation.onFresh options detected? simulation.beginOnHost

/-- The size of the branch stack of a run: as asked for, or as known. -/
def runCapacity (simulation : Simulation) (options : Options) (detected? : Option Signature) : Nat :=
  simulation.capacity?.getD (knownCapacity options detected?)

theorem capacity_eq (simulation : Simulation) (options : Options) (detected? : Option Signature)
    (m : Machine) :
    ∃ events, simulation.capacity options detected? m =
      (.ok (simulation.runCapacity options detected?), { m with events }) := by
  rw [runCapacity]
  cases hc : simulation.capacity? with
  | some capacity => exact ⟨m.events, by rw [Simulation.capacity, hc]; rfl⟩
  | none => exact capacity_apply hc options detected? m

/-- What is done on the fresh host decides how a run ends, unless the run fails before that,
whatever it was to do. -/
theorem onFresh_cases (simulation : Simulation) (options : Options) (detected? : Option Signature)
    (m : Machine) :
    (∃ error m', m'.accesses = m.accesses ∧
      ∀ {α : Type} (step : List UInt32 → Config → Action Platform Halt α),
        simulation.onFresh options detected? step m = (.error (.failed error), m')) ∨
    ∃ family config fresh, config.capacity = simulation.runCapacity options detected? ∧
      fresh.accesses = m.accesses ∧
      ∀ {α : Type} (step : List UInt32 → Config → Action Platform Halt α),
        let outcome := step family config { machine := fresh }
        simulation.onFresh options detected? step m =
          (outcome.1, { outcome.2.machine with bank := m.bank }) := by
  obtain ⟨events, hcapacity⟩ := simulation.capacity_eq options detected? m
  simp only [onFresh, Action.bind_apply]
  cases simulation.family with
  | error e => exact .inl ⟨e, m, rfl, fun _ => rfl⟩
  | ok family =>
    simp only [orHalt, Action.pure_apply, Action.adapt_apply, hcapacity, Except.mapError]
    rcases Machine.getAffinity_cases { m with events } with ⟨e, faults, h⟩ | ⟨faults, h⟩
    · exact .inl ⟨e, { m with events, faults }, rfl, fun _ => by rw [allowedCpus, h]⟩
    · let cpus := m.allowed.filter (· < Machine.maxCpus)
      refine .inr ⟨family, .new (simulation.runCapacity options detected?) options.defaultSelect?,
        { m with events, faults, bank := .soft (.new ((cpus.map (· + 1)).foldl max 1)) }, rfl, rfl,
        fun _ => ?_⟩
      rw [allowedCpus, h]
      rfl

theorem runCapacity_le {simulation : Simulation}
    (hc : ∀ capacity, simulation.capacity? = some capacity → capacity ≤ Msr.maxPlaces)
    (options : Options) (detected? : Option Signature) :
    simulation.runCapacity options detected? ≤ Msr.maxPlaces := by
  rw [runCapacity]
  cases hasked : simulation.capacity? with
  | some capacity => exact hc capacity hasked
  | none => exact (knownCapacity_bounds options detected?).2.trans (by decide)

/-- A stack without places has to be asked for. -/
theorem runCapacity_eq_zero {simulation : Simulation} {options : Options}
    {detected? : Option Signature} :
    simulation.runCapacity options detected? = 0 ↔ simulation.capacity? = some 0 := by
  rw [runCapacity]
  cases simulation.capacity? with
  | some capacity => exact Option.some_inj.symm
  | none => exact iff_of_false (knownCapacity_bounds options detected?).1.ne' nofun

/-- How a run ends, and which registers it tries, whatever fails. -/
theorem run_spec {simulation : Simulation} {options : Options} {detected? : Option Signature}
    (hc : simulation.runCapacity options detected? ≤ Msr.maxPlaces) (m : Machine) :
    simulation.Ends (simulation.runCapacity options detected?)
        ((simulation.beginning options detected? m).1 = .ok ())
        (simulation.run options detected? m).1 ∧
      m.Tries (Lbr.Touches (simulation.runCapacity options detected?))
        (simulation.run options detected? m).2 := by
  rw [run_eq, beginning]
  rcases simulation.onFresh_cases options detected? m with
    ⟨error, m', haccesses, hfails⟩ | ⟨family, config, fresh, hconfig, haccesses, hruns⟩
  · rw [hfails, hfails]
    exact ⟨.failed error nofun, [], haccesses, nofun⟩
  · obtain ⟨hends, tried, htried, hm⟩ := simulation.onHost_spec (s := { machine := fresh }) family
      (hconfig.trans_le hc) nofun
    rw [hruns, hruns, ← hconfig]
    exact ⟨hends, tried, htried.trans (congrArg (tried ++ ·) haccesses), hm⟩

/-! ## Bounds -/

theorem numbers_of_family {simulation : Simulation} {family : List UInt32}
    (h : simulation.family = .ok family) : family.map UInt32.toNat =
      (List.range (simulation.children.toNat + 1)).map (simulation.pid.toNat + ·) := by
  by_cases hlt : simulation.pid.toNat + simulation.children.toNat < UInt32.size
  · obtain ⟨children, heq, hchildren⟩ := simulation.family_eq hlt
    cases heq.symm.trans h
    exact family_toNat hchildren
  · rw [Simulation.family, if_neg hlt] at h
    cases h

theorem lt_maxCpus_of_allowedCpus {m : Machine} {cpus : List Nat}
    (h : (allowedCpus m).1 = .ok cpus) : ∀ cpu ∈ cpus, cpu < Machine.maxCpus := by
  intro cpu hcpu
  rcases Machine.getAffinity_cases m with ⟨e, faults, hasked⟩ | ⟨faults, hasked⟩ <;>
    rw [allowedCpus, hasked] at h <;> cases h
  exact of_decide_eq_true (List.mem_filter.mp hcpu).2

/-- There is always somebody whose turn it is. -/
theorem exists_turn (family : List UInt32) (round : Nat) : ∃ next ∈ family ++ [idlePid],
    (family ++ [idlePid])[round % (family ++ [idlePid]).length]? = some next := by
  have hplace : round % (family ++ [idlePid]).length < (family ++ [idlePid]).length :=
    Nat.mod_lt _ (List.length_pos_of_mem (List.mem_append_right _ (List.mem_singleton_self _)))
  exact ⟨_, List.getElem_mem hplace, List.getElem?_eq_getElem hplace⟩

/-- The numbers that a run comes to stay in their bounds. -/
structure Bounded (simulation : Simulation) (options : Options) (detected? : Option Signature)
    (m : Machine) : Prop where
  /-- The processes of a family are counted up from the first one. -/
  family : ∀ family, simulation.family = .ok family → family.map UInt32.toNat =
    (List.range (simulation.children.toNat + 1)).map (simulation.pid.toNat + ·)
  /-- No cpu is too high for a set of cpus. -/
  cpus : ∀ (m' : Machine) (cpus : List Nat), (allowedCpus m').1 = .ok cpus →
    ∀ cpu ∈ cpus, cpu < Machine.maxCpus
  /-- Every turn is one of a process of the family, or of one that is not traced. -/
  turn : ∀ (family : List UInt32) (round : Nat), ∃ next ∈ family ++ [idlePid],
    (family ++ [idlePid])[round % (family ++ [idlePid]).length]? = some next
  /-- The registers of a round, and what is written there. -/
  records : 0 < simulation.runCapacity options detected? →
    ∀ (cpu : Nat) (pid round : UInt32) (p : Platform) (bank : SoftBank),
      p.machine.bank = .soft bank →
      ∃ writes, recordBranches cpu (simulation.runCapacity options detected?) pid round p =
          (.ok (), { p with
            machine := { p.machine with bank := .soft (bank.writeAll cpu writes) } }) ∧
        writes.map (fun w => (w.1.toNat, w.2.toNat)) =
          roundNumbers (simulation.runCapacity options detected?) pid.toNat round.toNat
  /-- All other registers that are tried. -/
  registers : ∃ tried,
    (simulation.run options detected? m).2.accesses = tried ++ m.accesses ∧
      ∀ access ∈ tried, Msr.Numbered (simulation.runCapacity options detected?) access.msr
  /-- Fewer processes are traced in the end than before. -/
  disabled : ∀ report, (simulation.run options detected? m).1 = .ok report → 0 < report.disabled

/-- A simulation on a stack of at most 2³¹ places, on any machine and whatever fails there, breaks
off exactly if it was asked for a stack without places and for a round, and comes to that round.
No other number of it leaves its bounds. -/
theorem run_broken_iff (simulation : Simulation) (options : Options)
    (detected? : Option Signature) (m : Machine)
    (hc : ∀ capacity, simulation.capacity? = some capacity → capacity ≤ Msr.maxPlaces) :
    (∀ cause, (simulation.run options detected? m).1 = .error (.broken cause) ↔
      cause = .emptyStack ∧ simulation.capacity? = some 0 ∧ simulation.switches ≠ 0 ∧
        (simulation.beginning options detected? m).1 = .ok ()) ∧
      simulation.Bounded options detected? m := by
  have hle := runCapacity_le hc options detected?
  obtain ⟨hends, hregisters⟩ := run_spec hle m
  constructor
  · intro cause
    rw [hends.broken, runCapacity_eq_zero]
  · exact {
      family := fun _ => numbers_of_family
      cpus := fun _ _ => lt_maxCpus_of_allowedCpus
      turn := exists_turn
      records := fun hpos cpu pid round _ _ => recordBranches_soft hpos hle cpu pid round
      registers := hregisters.mono fun _ => Msr.numbered_of_touches hle
      disabled := hends.disabled }

/-- Process 7 is to be traced for one round, on a stack without places. -/
def placeless : Simulation where
  pid := 7
  children := 0
  select? := none
  switches := 1
  capacity? := some 0
  json := false

/-- A program that is told nothing but that. -/
def placelessOptions : Options where
  model? := none
  defaultSelect? := none
  msrRoot := "/dev/cpu"
  verbose := false
  suppressWarnings := false
  mode := .simulate placeless

/-- Nothing fails on the machine, and the simulation breaks off. -/
theorem run_breaks_off :
    (placeless.run placelessOptions none (.new 1)).1 = .error (.broken .emptyStack) := by
  decide +kernel

/-- Where the cpu for the session cannot be found out, the same simulation fails before its first
round. -/
theorem run_broken_iff_unpinned :
    let m : Machine := { Machine.new 1 with faults := [{ call := .getcpu }] }
    (∀ capacity, placeless.capacity? = some capacity → capacity ≤ Msr.maxPlaces) ∧
      (∀ cause, (placeless.run placelessOptions none m).1 ≠ .error (.broken cause)) ∧
      placeless.Bounded placelessOptions none m := by
  intro m
  have hc : ∀ capacity, placeless.capacity? = some capacity → capacity ≤ Msr.maxPlaces := by
    rintro _ ⟨⟩
    exact Nat.zero_le _
  have hbegun : (placeless.beginning placelessOptions none m).1 ≠ .ok () := by decide +kernel
  obtain ⟨hbroken, hbounded⟩ := run_broken_iff placeless placelessOptions none m hc
  exact ⟨hc, fun cause h => hbegun ((hbroken cause).mp h).2.2.2, hbounded⟩

end Simulation

end BranchTrace.Cli
