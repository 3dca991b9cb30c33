import BranchTrace.Proofs.Cli.Session

/-!
# Reports of a simulation

What a simulation reports, from the call of the program on: on any machine where nothing fails,
and whatever the family, the masks and the number of switches are (`run_of_fits`). A family that
does not fit the process numbers is refused at once. One that has every process number there is does
not fit the store, and is traced without its last child (`last_child_untraced`).

Main statement: `run_report`.
-/

namespace BranchTrace

/-! ## Sizes of branch stacks -/

namespace Signature

/-- The size of a branch stack is known and small, or the processor is not. -/
theorem capacity_cases (signature : Signature) :
    (∃ capacity, signature.capacity = .ok capacity ∧ 0 < capacity ∧ capacity ≤ 64) ∨
      signature.capacity = .error (.unsupportedCpu signature.family signature.model) := by
  rw [capacity]
  split_ifs
  · exact .inl ⟨32, rfl, by decide⟩
  · exact .inl ⟨16, rfl, by decide⟩
  · exact .inl ⟨8, rfl, by decide⟩
  · exact .inl ⟨4, rfl, by decide⟩
  · exact .inr rfl
  · exact .inr rfl

/-- To find the size out leaves nothing but reports. -/
theorem identify_apply (detected? : Option Signature) (model? : Option UInt32) (m : Machine) :
    ∃ events, identify detected? model? m =
      (match detected? with
        | none => .error (.unsupportedCpu 0 0)
        | some detected => (detected.forced model?).capacity,
      { m with events }) := by
  cases detected? with
  | none => exact ⟨m.events, rfl⟩
  | some detected =>
    unfold identify
    cases model? with
    | none =>
      cases hc : (detected.forced none).capacity with
      | error e => exact ⟨m.events, by simp only [hc]; rfl⟩
      | ok capacity => exact ⟨_, by simp only [hc]; rfl⟩
    | some model =>
      cases hc : (detected.forced (some model)).capacity with
      | error e => exact ⟨_, by simp only [hc]; rfl⟩
      | ok capacity => exact ⟨_, by simp only [hc]; rfl⟩

end Signature

namespace Cli

/-- The branches of a round as numbers: the source and the target of each. -/
def branchesOf (capacity pid round : Nat) : List (Nat × Nat) :=
  let base := 0x400000 + pid * 2 ^ 12 + round * 2 ^ 8
  (List.range capacity).map fun i => (base + 16 * i, base + 16 * i + 8)

theorem takenBranches_toNat {capacity : Nat} (h : capacity ≤ Msr.maxPlaces) (pid round : UInt32) :
    (takenBranches capacity pid round).map (fun b => (b.source.toNat, b.target.toNat)) =
      branchesOf capacity pid.toNat round.toNat := by
  have hsize : capacity % UInt32.size = capacity := Nat.mod_eq_of_lt (h.trans_lt (by decide))
  have hp := pid.toNat_lt
  have hr := round.toNat_lt
  have hplaces : Msr.maxPlaces = 2147483648 := rfl
  rw [takenBranches, branchesOf, hsize, List.map_map]
  refine List.map_congr_left fun i hi => ?_
  have hi := List.mem_range.mp hi
  -- nothing overflows: a number of a process, a round or a place is below 2 ^ 32
  simp only [Function.comp_apply, UInt64.toNat_add, UInt64.toNat_mul, UInt64.toNat_shiftLeft,
    UInt32.toNat_toUInt64, UInt64.toNat_ofNat', UInt64.reduceToNat, Nat.shiftLeft_eq,
    Nat.reduceMod]
  rw [Prod.mk.injEq]
  constructor <;> omega

namespace Simulation

theorem lastTurn?_range_succ (runnable : List UInt32) (switches : Nat) (pid : UInt32) :
    lastTurn? runnable (List.range (switches + 1)) pid =
      if turn runnable switches = pid then some switches
      else lastTurn? runnable (List.range switches) pid := by
  rw [lastTurn?, List.range_succ, List.filter_append]
  by_cases h : turn runnable switches = pid
  · simp [h]
  · simp [h, lastTurn?]

/-- The last turn of a process is the one after which it has no other. -/
theorem lastTurn?_range {runnable : List UInt32} {switches round : Nat} {pid : UInt32}
    (hr : round < switches) (hturn : turn runnable round = pid)
    (hlast : ∀ later < switches, turn runnable later = pid → later ≤ round) :
    lastTurn? runnable (List.range switches) pid = some round := by
  induction switches with
  | zero => cases hr
  | succ switches ih =>
    rw [lastTurn?_range_succ]
    by_cases h : turn runnable switches = pid
    · have hle := hlast switches (Nat.lt_succ_self _) h
      rw [if_pos h, Nat.le_antisymm (Nat.le_of_lt_succ hr) hle]
    · have hne : round ≠ switches := fun he => h (he ▸ hturn)
      rw [if_neg h]
      exact ih (by omega) fun later hl => hlast later (by omega)

/-! ## Families -/

/-- The process that runs in a round, by number: the members of the family, and then one that is
not traced, in turn. -/
def turnOf (pid children round : Nat) : Nat :=
  let place := round % (children + 2)
  if place ≤ children then pid + place else 1

/-- The children of a process, oldest first. -/
def childrenOf (pid children : Nat) : List Nat :=
  (List.range children).map (pid + 1 + ·)

theorem length_childrenOf (pid children : Nat) : (childrenOf pid children).length = children := by
  rw [childrenOf, List.length_map, List.length_range]

/-- A family that the process numbers suffice for. -/
theorem family_eq (simulation : Simulation)
    (h : simulation.pid.toNat + simulation.children.toNat < UInt32.size) :
    ∃ children, simulation.family = .ok (simulation.pid :: children) ∧
      children.map UInt32.toNat = childrenOf simulation.pid.toNat simulation.children.toNat := by
  refine ⟨(List.range simulation.children.toNat).map fun i => simulation.pid + UInt32.ofNat (i + 1),
    ?_, ?_⟩
  · rw [family, if_pos h, List.range_succ_eq_map, List.map_cons, List.map_map]
    have hfirst : simulation.pid + UInt32.ofNat 0 = simulation.pid := by simp
    rw [hfirst]
    rfl
  · rw [childrenOf, List.map_map]
    refine List.map_congr_left fun i hi => ?_
    have hi := List.mem_range.mp hi
    have hlt : i + 1 < UInt32.size := by omega
    rw [Function.comp_apply, UInt32.toNat_add, UInt32.toNat_ofNat_of_lt' hlt, Nat.mod_eq_of_lt]
    · omega
    · have : UInt32.size = 2 ^ 32 := rfl
      omega

variable {pid : UInt32} {children : List UInt32} {count : Nat}

/-- The numbers of a family follow each other. -/
theorem family_toNat (h : children.map UInt32.toNat = childrenOf pid.toNat count) :
    (pid :: children).map UInt32.toNat = (List.range (count + 1)).map (pid.toNat + ·) := by
  rw [List.map_cons, h, childrenOf, List.range_succ_eq_map, List.map_cons, List.map_map]
  refine congrArg (pid.toNat :: ·) (List.map_congr_left fun i _ => ?_)
  rw [Function.comp_apply]
  omega

theorem nodup_family (h : children.map UInt32.toNat = childrenOf pid.toNat count) :
    (pid :: children).Nodup := by
  refine List.Nodup.of_map UInt32.toNat ?_
  rw [family_toNat h]
  exact List.nodup_range.map fun i j hij => Nat.add_left_cancel hij

theorem turn_toNat (h : children.map UInt32.toNat = childrenOf pid.toNat count) (round : Nat) :
    (turn (pid :: children ++ [idlePid]) round).toNat = turnOf pid.toNat count round := by
  have hnumbers : (pid :: children ++ [idlePid]).map UInt32.toNat =
      (List.range (count + 1)).map (pid.toNat + ·) ++ [1] := by
    rw [List.map_append, family_toNat h]
    rfl
  have hlength : (pid :: children ++ [idlePid]).length = count + 2 := by
    have := congrArg List.length hnumbers
    simpa using this
  have hplace : round % (count + 2) < count + 2 := Nat.mod_lt _ (by omega)
  have hat := congrArg (·[round % (count + 2)]?) hnumbers
  simp only [List.getElem?_map] at hat
  rw [turn, hlength, turnOf]
  obtain ⟨next, hnext⟩ : ∃ next, (pid :: children ++ [idlePid])[round % (count + 2)]? = some next :=
    ⟨_, List.getElem?_eq_getElem (hlength ▸ hplace)⟩
  rw [hnext] at hat ⊢
  rw [Option.getD_some]
  split
  case isTrue hle =>
    rw [List.getElem?_append_left (by simpa using Nat.lt_succ_of_le hle), List.getElem?_map,
      List.getElem?_range (Nat.lt_succ_of_le hle)] at hat
    exact Option.some.inj hat
  case isFalse hlt =>
    have hlast : round % (count + 2) = count + 1 := by omega
    simpa [hlast] using hat

/-! ## Snapshots -/

/-- What a report shows of a process of the family: all of its stack, under the mask that was asked
for or the default one, with the branches of its last turn, if it had one. -/
structure Depicts (simulation : Simulation) (options : Options) (capacity cpu process : Nat)
    (snapshot : Snapshot) : Prop where
  pid : snapshot.pid.toNat = process
  cpu : snapshot.cpu = cpu
  length : snapshot.entries.length = capacity
  select : snapshot.select =
    (((if process = simulation.pid.toNat then simulation.select? else none).or
      options.defaultSelect?).map Select.mk).getD .userOnly
  filled : ∀ round < simulation.switches.toNat,
    turnOf simulation.pid.toNat simulation.children.toNat round = process →
    (∀ later < simulation.switches.toNat,
      turnOf simulation.pid.toNat simulation.children.toNat later = process → later ≤ round) →
    snapshot.tos.toNat = round % capacity ∧
      snapshot.entries.map (fun branch => (branch.source.toNat, branch.target.toNat)) =
        branchesOf capacity process round
  cleared : (∀ round < simulation.switches.toNat,
      turnOf simulation.pid.toNat simulation.children.toNat round ≠ process) →
    snapshot.tos = 0 ∧ snapshot.entries = List.replicate capacity ⟨0, 0⟩

theorem maskOf_new (simulation : Simulation) (options : Options) (capacity : Nat) (pid : UInt32) :
    Select.mk (simulation.maskOf (.new capacity options.defaultSelect?) pid) =
      (((if pid.toNat = simulation.pid.toNat then simulation.select? else none).or
        options.defaultSelect?).map Select.mk).getD .userOnly := by
  rw [maskOf, Config.new]
  by_cases h : pid = simulation.pid
  · rw [if_pos h, if_pos (congrArg UInt32.toNat h)]
    cases simulation.select? <;> cases options.defaultSelect? <;> rfl
  · rw [if_neg h, if_neg fun he => h (UInt32.toNat_inj.mp he)]
    cases options.defaultSelect? <;> rfl

theorem select_afterRounds (capacity : Nat) (runnable : List UInt32) (rounds : List Nat)
    (pid : UInt32) (stack : Stack) :
    (afterRounds capacity runnable rounds pid stack).select = stack.select := by
  rw [afterRounds]
  cases lastTurn? runnable rounds pid <;> rfl

theorem length_afterRounds {capacity : Nat} (h : capacity ≤ 64) (runnable : List UInt32)
    (rounds : List Nat) (pid : UInt32) {stack : Stack} (hs : stack.branches.length = capacity) :
    (afterRounds capacity runnable rounds pid stack).branches.length = capacity := by
  rw [afterRounds]
  cases lastTurn? runnable rounds pid with
  | none => exact hs
  | some round => exact length_takenBranches h pid _

theorem depicts_snapshot (simulation : Simulation) (options : Options) {capacity : Nat}
    (h64 : capacity ≤ 64) (cpu : Nat) {children : List UInt32}
    (h : children.map UInt32.toNat =
      childrenOf simulation.pid.toNat simulation.children.toNat) (pid : UInt32) :
    Depicts simulation options capacity cpu pid.toNat
      ((simulation.stackOf (.new capacity options.defaultSelect?) (simulation.pid :: children)
        pid).snapshot pid cpu) where
  pid := rfl
  cpu := rfl
  length := length_afterRounds h64 _ _ pid List.length_replicate
  select := by
    rw [← maskOf_new simulation options capacity pid]
    exact congrArg Select.mk (select_afterRounds ..)
  filled round hr hturn hlast := by
    simp only [← turn_toNat h, UInt32.toNat_inj] at hturn hlast
    have hround : (UInt32.ofNat round).toNat = round :=
      UInt32.toNat_ofNat_of_lt' (hr.trans simulation.switches.toNat_lt)
    have hbranches := takenBranches_toNat (h64.trans (by decide)) pid (UInt32.ofNat round)
    rw [hround] at hbranches
    rw [stackOf, afterRounds, lastTurn?_range hr hturn hlast]
    refine ⟨?_, hbranches⟩
    have htop : round % capacity < UInt64.size :=
      (Nat.mod_le ..).trans_lt (hr.trans (simulation.switches.toNat_lt.trans (by decide)))
    show (UInt64.ofNat ((UInt32.ofNat round).toNat % capacity)).toNat = _
    rw [hround, UInt64.toNat_ofNat_of_lt' htop]
  cleared hnever := by
    simp only [← turn_toNat h, ne_eq, UInt32.toNat_inj] at hnever
    have hnone := lastTurn?_eq_none.mpr fun round hr => hnever round (List.mem_range.mp hr)
    rw [stackOf, afterRounds, hnone]
    exact ⟨rfl, rfl⟩

/-! ## Runs -/

/-- The size of the branch stack where none is asked for: that of the processor, with the model that
it is told to have, or else an assumed one. -/
def knownCapacity (options : Options) (detected? : Option Signature) : Nat :=
  (detected?.bind fun signature => (signature.forced options.model?).capacity.toOption).getD
    assumedCapacity

theorem knownCapacity_bounds (options : Options) (detected? : Option Signature) :
    0 < knownCapacity options detected? ∧ knownCapacity options detected? ≤ 64 := by
  have hassumed : 0 < assumedCapacity ∧ assumedCapacity ≤ 64 := by decide
  rw [knownCapacity]
  cases detected? with
  | none => exact hassumed
  | some detected =>
    rw [Option.bind_some]
    rcases (detected.forced options.model?).capacity_cases with ⟨capacity, hc, hbounds⟩ | hc
    · rw [hc]
      exact hbounds
    · rw [hc]
      exact hassumed

/-- Finding the size out reports what was found, and that is all. -/
theorem capacity_apply {simulation : Simulation} (h : simulation.capacity? = none)
    (options : Options) (detected? : Option Signature) (m : Machine) :
    ∃ events, simulation.capacity options detected? m =
      (.ok (knownCapacity options detected?), { m with events }) := by
  obtain ⟨events, hidentify⟩ := Signature.identify_apply detected? options.model? m
  have hassumed : ∀ family model, (Signature.identify detected? options.model? m).1 =
      .error (.unsupportedCpu family model) → ∃ events, simulation.capacity options detected? m =
        (.ok assumedCapacity, { m with events }) := by
    intro family model he
    rw [hidentify] at he
    rw [capacity, h, hidentify]
    dsimp only at he ⊢
    rw [he]
    dsimp only
    split <;> exact ⟨_, rfl⟩
  rw [knownCapacity]
  cases detected? with
  | none => exact hassumed 0 0 rfl
  | some detected =>
    rw [Option.bind_some]
    dsimp only at hidentify
    rcases (detected.forced options.model?).capacity_cases with ⟨capacity, hc, -⟩ | hc
    · rw [hc] at hidentify ⊢
      rw [Simulation.capacity, h, hidentify]
      exact ⟨events, rfl⟩
    · rw [hc] at hidentify ⊢
      exact hassumed _ _ (congrArg Prod.fst hidentify)

/-- A simulation on a calm machine, from loading to unloading. -/
theorem onHost_apply (simulation : Simulation) {config : Config} (hpos : 0 < config.capacity)
    (h64 : config.capacity ≤ 64) {children : List UInt32}
    (hnodup : (simulation.pid :: children).Nodup) {m : Machine} (h : m.Calm)
    (hm : m.affinity ≠ []) :
    ∃ history p, simulation.onHost (simulation.pid :: children) config { machine := m } =
      (.ok (simulation.reportOf config (simulation.pid :: children) (born children)
        (m.affinity.getLast hm) history), p) := by
  obtain ⟨loaded, hload, hserving, hcalm, haffinity, hcur, hrunning, hstore⟩ :=
    Platform.load_calm config h hm
  have hhere : loaded.machine.cur ∈ loaded.machine.affinity := by
    rw [hcur, haffinity]
    exact List.getLast_mem hm
  obtain ⟨hpin, hsteady⟩ := hcalm.current hhere
  let here : Platform :=
    { loaded with machine := { loaded.machine with allowed := [loaded.machine.cur] } }
  have hstands : here.Stands 0 config loaded.machine.cur [] fun _ => none := by
    refine ⟨hserving.of_retains (Platform.retains_of_eq rfl rfl) hserving.registered, hsteady, ?_,
      fun pid => ?_⟩
    · show (loaded.tracing 0).store.roster = []
      rw [hstore]
      rfl
    · show ((loaded.tracing 0).store.contextOf? pid).bind _ = none
      rw [hstore]
      rfl
  have hidle : here.runningOn loaded.machine.cur = none := by
    show loaded.host.running.lookup _ = none
    rw [hrunning]
    rfl
  obtain ⟨p, hsession⟩ := session_stands simulation hpos h64 hnodup hstands hidle
  have hloaded : ExceptT.adapt (fun e => Halt.failed e.toSystemError) (Platform.load config)
      ({ machine := m } : Platform) = (.ok 0, loaded) := by
    rw [Action.adapt_apply, hload]
    rfl
  have hpinned := pinned_apply Halt.failed Pin.current (fun pin =>
    simulation.session (simulation.pid :: children) config.capacity 0 pin.cpu) loaded
  simp only [MachineState.machine, MachineState.setMachine, hpin] at hpinned
  rw [hsession] at hpinned
  rw [← hcur, onHost]
  simp only [Action.bind_apply, hloaded, hpinned]
  exact ⟨_, _, rfl⟩

theorem map_born (h : children.map UInt32.toNat = childrenOf pid.toNat count) :
    (born children).map UInt32.toNat = childrenOf pid.toNat (min count (Store.maxSlots - 1)) := by
  rw [born, List.map_take, h, childrenOf, ← List.map_take, List.take_range, Nat.min_comm]
  rfl

/-- A simulation of a family that the process numbers suffice for. -/
theorem run_apply {simulation : Simulation} (options : Options) (detected? : Option Signature)
    {m : Machine} (hasked : simulation.capacity? = none) (hfaults : m.faults = [])
    (hcpus : ∀ cpu ∈ m.affinity, cpu < m.cpus) (hm : m.affinity ≠ [])
    {children : List UInt32} (hfamily : simulation.family = .ok (simulation.pid :: children))
    (hnodup : (simulation.pid :: children).Nodup) :
    let config := Config.new (knownCapacity options detected?) options.defaultSelect?
    ∃ history m', simulation.run options detected? m =
      (.ok (simulation.reportOf config (simulation.pid :: children) (born children)
        (m.affinity.getLast hm) history), m') := by
  intro config
  obtain ⟨events, hcapacity⟩ := capacity_apply hasked options detected? m
  obtain ⟨hpos, h64⟩ : 0 < config.capacity ∧ config.capacity ≤ 64 :=
    knownCapacity_bounds options detected?
  have hallowed : allowedCpus { m with events } = (.ok m.affinity, { m with events }) :=
    Machine.guarded_of_faults_eq_nil (m := { m with events }) hfaults ..
  let files := (m.affinity.map (· + 1)).foldl max 1
  have hcalm : Machine.Calm { m with events, bank := .soft (.new files) } :=
    ⟨hfaults, ⟨_, rfl⟩, hcpus⟩
  obtain ⟨history, p, hhost⟩ := onHost_apply simulation hpos h64 hnodup hcalm hm
  refine ⟨history, { p.machine with bank := m.bank }, ?_⟩
  rw [run]
  simp only [Action.bind_apply, hfamily, orHalt, Action.pure_apply, Action.adapt_apply, hcapacity,
    Except.mapError, hallowed]
  -- the registers of the simulation are gone with it
  exact congrArg (fun outcome : Except Halt Report × Platform =>
    (outcome.1, { outcome.2.machine with bank := m.bank })) hhost

/-! ## Reports -/

/-- What a simulation of a family that the process numbers suffice for comes to where nothing fails.
A store has a slot less than there are process numbers, so only the family that has all of them is
traced without its last child. -/
theorem run_of_fits {simulation : Simulation} (options : Options) (detected? : Option Signature)
    {m : Machine} (hasked : simulation.capacity? = none) (hfaults : m.faults = [])
    (hcpus : ∀ cpu ∈ m.affinity, cpu < m.cpus) (hm : m.affinity ≠ [])
    (hfits : simulation.pid.toNat + simulation.children.toNat < UInt32.size) :
    let capacity := knownCapacity options detected?
    let born := min simulation.children.toNat (Store.maxSlots - 1)
    let traced := simulation.pid.toNat :: (childrenOf simulation.pid.toNat born).reverse
    ∃ report m', simulation.run options detected? m = (.ok report, m') ∧
      report.capacity = capacity ∧
      report.traced.map UInt32.toNat = traced ∧
      report.disabled = born + 1 ∧
      List.Forall₂ (Depicts simulation options capacity (m.affinity.getLast hm)) traced
        report.snapshots := by
  intro capacity born traced
  obtain ⟨forked, hfamily, hnumbers⟩ := family_eq simulation hfits
  obtain ⟨history, m', hrun⟩ := run_apply options detected? hasked hfaults hcpus hm hfamily
    (nodup_family hnumbers)
  have htraced : (simulation.pid :: (Simulation.born forked).reverse).map UInt32.toNat = traced := by
    rw [List.map_cons, List.map_reverse, map_born hnumbers]
  have hborn : (Simulation.born forked).length = born := by
    have := congrArg List.length (map_born hnumbers)
    rwa [List.length_map, length_childrenOf] at this
  refine ⟨_, m', hrun, rfl, htraced, congrArg (· + 1) hborn, ?_⟩
  rw [← htraced, reportOf, List.forall₂_map_left_iff, List.forall₂_map_right_iff]
  exact List.forall₂_same.mpr fun process _ =>
    depicts_snapshot simulation options (knownCapacity_bounds options detected?).2 _ hnumbers
      process

/-- What a simulation comes to where nothing fails, for a thread that may run on some cpus, all of
them configured. A family whose numbers run past the largest one is refused before anything is set
up. Of every other family all processes are traced and dumped on the last of those cpus, the
children from the last on, and in the end none is traced, as long as the family does not have every
process number there is. -/
theorem run_report (simulation : Simulation) (options : Options) (detected? : Option Signature)
    {m : Machine} (hasked : simulation.capacity? = none) (hfaults : m.faults = [])
    (hcpus : ∀ cpu ∈ m.affinity, cpu < m.cpus) (hm : m.affinity ≠ []) :
    let pid := simulation.pid.toNat
    let children := simulation.children.toNat
    let capacity := knownCapacity options detected?
    (UInt32.size ≤ pid + children → simulation.run options detected? m =
      (.error (.failed (.other .invalidInput ("--pid " ++ toString pid ++ " with " ++
        toString children ++ " children runs past the largest pid"))), m)) ∧
    (pid + children < UInt32.size → children < UInt32.size - 1 →
      let traced := pid :: (childrenOf pid children).reverse
      ∃ report m', simulation.run options detected? m = (.ok report, m') ∧
        report.capacity = capacity ∧
        report.traced.map UInt32.toNat = traced ∧
        report.disabled = children + 1 ∧
        List.Forall₂ (Depicts simulation options capacity (m.affinity.getLast hm)) traced
          report.snapshots) := by
  intro pid children capacity
  constructor
  · intro hpast
    rw [run, Action.bind_apply, family, if_neg (Nat.not_lt.mpr hpast)]
    rfl
  · intro hfits hroom
    have hmax : Store.maxSlots = UInt32.size - 1 := rfl
    have hborn : min children (Store.maxSlots - 1) = children := Nat.min_eq_left (by omega)
    have hreport := run_of_fits options detected? hasked hfaults hcpus hm hfits
    simp only [children, hborn] at hreport
    exact hreport

/-- Processes 0 and 1 take turns with another process 1 that is not traced: four rounds run 0, 1, 1
and 0 again. -/
def shared : Simulation where
  pid := 0
  children := 1
  select? := some 8
  switches := 4
  capacity? := none
  json := false

/-- A program that is told nothing but to simulate. -/
def unprepared (simulation : Simulation) : Options where
  model? := none
  defaultSelect? := none
  msrRoot := "/dev/cpu"
  verbose := false
  suppressWarnings := false
  mode := .simulate simulation

theorem run_report_shared :
    shared.capacity? = none ∧ (Machine.new 2).faults = [] ∧
      (∀ cpu ∈ (Machine.new 2).affinity, cpu < (Machine.new 2).cpus) ∧
      (Machine.new 2).affinity ≠ [] ∧
      shared.pid.toNat + shared.children.toNat < UInt32.size ∧
      shared.children.toNat < UInt32.size - 1 ∧
      ∃ report m', shared.run (unprepared shared) none (Machine.new 2) = (.ok report, m') ∧
        report.capacity = 16 ∧ report.traced.map UInt32.toNat = [0, 1] ∧ report.disabled = 2 ∧
        List.Forall₂ (Depicts shared (unprepared shared) 16 1) [0, 1] report.snapshots ∧
        (List.range 4).map (turnOf 0 1) = [0, 1, 1, 0] := by
  obtain ⟨-, hfits⟩ := run_report shared (unprepared shared) none rfl (m := Machine.new 2) rfl
    (by decide) (by decide)
  obtain ⟨report, m', hrun, hcapacity, htraced, hdisabled, hshown⟩ :=
    hfits (by decide) (by decide)
  exact ⟨rfl, rfl, by decide, by decide, by decide, by decide, report, m', hrun, hcapacity,
    htraced, hdisabled, hshown, by decide⟩

/-- Process 0 with every other process as a child. -/
def everyone : Simulation where
  pid := 0
  children := 4294967295
  select? := none
  switches := 0
  capacity? := none
  json := false

/-- The process numbers suffice for the family of process 0 and all others, but the store does not:
its last child is not traced. -/
theorem last_child_untraced :
    everyone.capacity? = none ∧ (Machine.new 1).faults = [] ∧
      everyone.pid.toNat + everyone.children.toNat < UInt32.size ∧
      ∃ report m', everyone.run (unprepared everyone) none (Machine.new 1) = (.ok report, m') ∧
        report.disabled = 4294967295 ∧ report.disabled ≠ everyone.children.toNat + 1 ∧
        report.traced.map UInt32.toNat = 0 :: (childrenOf 0 4294967294).reverse ∧
        report.traced.map UInt32.toNat ≠ 0 :: (childrenOf 0 4294967295).reverse := by
  have hfits : everyone.pid.toNat + everyone.children.toNat < UInt32.size := by decide
  have hborn : min everyone.children.toNat (Store.maxSlots - 1) = 4294967294 := by decide
  obtain ⟨report, m', hrun, -, htraced, hdisabled, -⟩ :=
    run_of_fits (unprepared everyone) none rfl (m := Machine.new 1) rfl (by decide) (by decide) hfits
  rw [hborn] at htraced hdisabled
  refine ⟨rfl, rfl, hfits, report, m', hrun, hdisabled, ?_, htraced, fun hall => ?_⟩
  · rw [hdisabled]
    decide
  · -- the two lists differ in length by the last child
    have hlength := congrArg List.length (htraced.symm.trans hall)
    rw [List.length_cons, List.length_cons, List.length_reverse, List.length_reverse,
      length_childrenOf, length_childrenOf] at hlength
    exact absurd hlength (by decide)

end Simulation

end Cli

end BranchTrace
