import BranchTrace.Proofs.Host.Loading

/-!
# Bringing tracing up, all or nothing

Main statement: `load_all_or_nothing`, for a thread that can be moved to all its cpus and a host
that takes the registrations, whichever of the register writes fail. Either all of them succeed and
recording is on, or the load fails with the first failure, no registration is left, and recording
is off wherever switching it off succeeds.
-/

namespace BranchTrace

namespace Platform

variable {config : Config} {start : Platform}

/-- The sweep that switches recording on. -/
def enabling (config : Config) (start : Platform) : Visits × Machine :=
  start.machine.sweep (Lbr.switchWrites config.capacity .enable) start.machine.affinity

/-- The sweep that switches recording off after that. -/
def disabling (config : Config) (start : Platform) : Visits × Machine :=
  (start.enabling config).2.sweep (Lbr.switchWrites config.capacity .disable) start.machine.affinity

theorem enabling_pass (config : Config) (start : Platform) :
    Pass (Lbr.switchWrites config.capacity .enable) start.machine (start.enabling config).1
      (start.enabling config).2 :=
  Machine.sweep_pass ..

theorem disabling_pass (config : Config) (start : Platform) :
    Pass (Lbr.switchWrites config.capacity .disable) (start.enabling config).2
      (start.disabling config).1 (start.disabling config).2 :=
  Machine.sweep_pass ..

theorem cpus_enabling (config : Config) (start : Platform) :
    (start.enabling config).1.cpus = start.machine.affinity :=
  Machine.cpus_sweep ..

theorem cpus_disabling (config : Config) (start : Platform) :
    (start.disabling config).1.cpus = start.machine.affinity :=
  Machine.cpus_sweep ..

/-- A host that takes all registrations gets them, and the cpus are swept. If that fails somewhere,
everything is taken down again. -/
theorem load_sweep (config : Config) (hm : start.machine.Roams)
    (hrefused : start.host.refused = none)
    (hfree : start.host.devices.lookup deviceName = none) :
    ∃ t : Platform, (start.enabling config).2.Agrees t.machine ∧ t.machine.Roams ∧
      t.machine.affinity = start.machine.affinity ∧
      t.host = start.host.enlisted start.tracers.size ∧ t.tracers = (start.begun config).tracers ∧
      load config start =
        match (start.enabling config).1.verdict with
        | .ok _ => (.ok start.tracers.size, t)
        | .error e => (.error (.io e), (unload start.tracers.size t).2) := by
  have henlist : enlist start.tracers.size start.host =
      (none, start.host.enlisted start.tracers.size) := by
    simp [enlist_eq, hrefused, hfree]
  have hbegun : start.machine.Agrees (start.begun config).machine := ⟨_, _, _, rfl⟩
  obtain ⟨m, hb, hagrees, hroams, haffinity⟩ := broadcast_sweep config.capacity .enable
    (s := { start.begun config with host := start.host.enlisted start.tracers.size })
    ⟨hm.bindable, hm.configured⟩
  obtain ⟨hvisits, hswept⟩ := hbegun.sweep (Lbr.switchWrites config.capacity .enable)
    start.machine.affinity
  have hon : broadcast .enable (Lbr.enable config.capacity)
      { start.begun config with host := start.host.enlisted start.tracers.size } =
      ((start.enabling config).1.verdict,
        { start.begun config with host := start.host.enlisted start.tracers.size, machine := m }) :=
    hb.trans (congrArg (fun visits : Visits => (visits.verdict, _)) hvisits)
  rw [load_apply, henlist]
  dsimp only
  rw [hon]
  have hagrees : (start.enabling config).2.Agrees m := hswept.trans hagrees
  cases (start.enabling config).1.verdict with
  | error e =>
    let t := { start.begun config with
      host := start.host.enlisted start.tracers.size, machine := m }
    exact ⟨t, hagrees, hroams, haffinity, rfl, rfl, rfl⟩
  | ok count =>
    let t := (report (.enabledOn count) { start.begun config with
      host := start.host.enlisted start.tracers.size, machine := m }).2
    have ht : m.Agrees t.machine := ⟨_, _, _, rfl⟩
    exact ⟨t, hagrees.trans ht, ⟨hroams.bindable, hroams.configured⟩, haffinity, rfl, rfl, rfl⟩

/-! ## All or nothing -/

/-- Tracing is up: it is registered, and recording is on over a cleared stack on every cpu that the
thread may run on. -/
structure BroughtUp (config : Config) (start s : Platform) : Prop where
  hardware : (start.enabling config).2.Agrees s.machine
  host : s.host = start.host.enlisted start.tracers.size
  switched : ∀ cpu ∈ start.machine.affinity,
    start.machine.Switched config.capacity .enable cpu s.machine

/-- Tracing could not be brought up. It fails with the failure of the lowest cpu that could not be
switched on, though all were tried; no registration and no context is left, and recording is off
over a cleared stack on every cpu where that met no failure. -/
structure TakenBack (config : Config) (start : Platform) (r : Except TraceError Nat)
    (s : Platform) : Prop where
  failure : ∃ cpu e, r = .error (.io e) ∧ (cpu, .error e) ∈ (start.enabling config).1 ∧
    ∀ other e', (other, .error e') ∈ (start.enabling config).1 → cpu ≤ other
  tried : ∃ tried, (start.enabling config).2.accesses = tried ++ start.machine.accesses ∧
    ∀ cpu ∈ start.machine.affinity, ∃ access ∈ tried, access.write = true ∧ access.cpu = cpu
  hardware : (start.disabling config).2.Agrees s.machine
  devices : s.host.devices = start.host.devices
  hooks : s.host.hooks = eraseKey forkSymbol start.host.hooks
  notifiers : s.host.notifiers = start.host.notifiers.filter (· ≠ .tracer start.tracers.size)
  contexts : (s.tracing start.tracers.size).store.toList = []
  switched : ∀ cpu, (cpu, .ok ()) ∈ (start.disabling config).1 →
    start.machine.Switched config.capacity .disable cpu s.machine

theorem load_up (hc : config.capacity ≤ Msr.maxPlaces) (hm : start.machine.Roams)
    (hrefused : start.host.refused = none) (hfree : start.host.devices.lookup deviceName = none)
    {count : Nat} (hv : (start.enabling config).1.verdict = .ok count) :
    (load config start).1 = .ok start.tracers.size ∧
      BroughtUp config start (load config start).2 := by
  obtain ⟨t, hagrees, -, -, hhost, -, hload⟩ := load_sweep config hm hrefused hfree
  rw [hv] at hload
  rw [hload]
  have hpass := (enabling_pass config start).append_untouched hagrees.untouched
  refine ⟨rfl, hagrees, hhost, fun cpu hcpu => hpass.switched hc ?_⟩
  exact Visits.mem_of_ok (Visits.verdict_eq_ok hv) ((cpus_enabling config start).symm ▸ hcpu)

theorem load_back (hc : config.capacity ≤ Msr.maxPlaces) (hm : start.machine.Roams)
    (hsorted : start.machine.allowed.Pairwise (· < ·)) (hrefused : start.host.refused = none)
    (hfree : start.host.devices.lookup deviceName = none) {e : SystemError}
    (hv : (start.enabling config).1.verdict = .error e) :
    (load config start).1 = .error (.io e) ∧
      TakenBack config start (load config start).1 (load config start).2 := by
  obtain ⟨t, hagrees, hroams, haffinity, hhost, htracers, hload⟩ :=
    load_sweep config hm hrefused hfree
  rw [hv] at hload
  rw [hload]
  have hhas := has_of_begun htracers
  obtain ⟨-, hwithdrawn, hstore, -⟩ := unload_apply hhas
  obtain ⟨hdevices, hhooks, hnotifiers⟩ := withdrawn_enlisted start.tracers.size hfree
  rw [← hhost, ← hwithdrawn] at hdevices hhooks hnotifiers
  have hunload := unload_sweep hhas hroams
  rw [haffinity] at hunload
  have hoff : (start.disabling config).2.Agrees (unload start.tracers.size t).2.machine :=
    (hagrees.sweep _ start.machine.affinity).2.trans hunload
  refine ⟨rfl, ?_, ?_, hoff, hdevices, hhooks, hnotifiers, ?_, fun cpu hcpu => ?_⟩
  · have hcpus : (start.enabling config).1.cpus.Pairwise (· < ·) := by
      rw [cpus_enabling]
      exact hsorted.filter _
    obtain ⟨cpu, hmem, hlowest⟩ := Visits.verdict_eq_error hv hcpus
    exact ⟨cpu, e, rfl, hmem, hlowest⟩
  · exact Machine.sweep_tries (Lbr.switchWrites_ne_nil _ _) _ _
  · rw [hstore]
    rfl
  · have hpass := (disabling_pass config start).append_untouched hoff.untouched
    obtain ⟨hjournal, hbank⟩ := hpass.switched hc hcpu
    refine ⟨hjournal, fun bank hb => ?_⟩
    obtain ⟨bank', hb', -⟩ := (enabling_pass config start).registers hc hb
    exact hbank bank' hb'

/-- Bringing tracing up succeeds if and only if every write of the enabling sweep does, and it is
all or nothing. Registers that it does not switch are never touched. -/
theorem load_all_or_nothing (hc : config.capacity ≤ Msr.maxPlaces) (hm : start.machine.Roams)
    (hsorted : start.machine.allowed.Pairwise (· < ·)) (hrefused : start.host.refused = none)
    (hfree : start.host.devices.lookup deviceName = none) :
    ((load config start).1 = .ok start.tracers.size ↔
        start.machine.Smooth (start.enabling config).2) ∧
      (start.machine.Smooth (start.enabling config).2 →
        BroughtUp config start (load config start).2) ∧
      (¬start.machine.Smooth (start.enabling config).2 →
        TakenBack config start (load config start).1 (load config start).2) ∧
      start.machine.Writes
        (fun cpu msr => cpu ∈ start.machine.affinity ∧ Lbr.Touches config.capacity msr)
        (load config start).2.machine ∧
      ∀ bank, start.machine.bank = .soft bank → ∀ cpu msr,
        (¬Lbr.Touches config.capacity msr ∨
          ∀ visited ∈ start.machine.affinity, bank.file visited ≠ bank.file cpu) →
        (load config start).2.machine.read? cpu msr = some (bank.read cpu msr) := by
  have hsmooth := (enabling_pass config start).smooth_iff
  have hon := (enabling_pass config start).writes_touches hc
  have hoff := (disabling_pass config start).writes_touches hc
  rw [cpus_enabling] at hon
  rw [cpus_disabling] at hoff
  -- what is untouched follows from the writes alone, however the load ends
  have huntouched : ∀ {m' : Machine}, start.machine.Writes
      (fun cpu msr => cpu ∈ start.machine.affinity ∧ Lbr.Touches config.capacity msr) m' →
      ∀ bank, start.machine.bank = .soft bank → ∀ cpu msr,
        (¬Lbr.Touches config.capacity msr ∨
          ∀ visited ∈ start.machine.affinity, bank.file visited ≠ bank.file cpu) →
        m'.read? cpu msr = some (bank.read cpu msr) :=
    fun hw bank hb cpu msr hn => hw.read?_of_not hb fun c hfile hmay =>
      hn.elim (absurd hmay.2) fun hn => hn c hmay.1 hfile
  cases hv : (start.enabling config).1.verdict with
  | ok count =>
    obtain ⟨hr, hup⟩ := load_up hc hm hrefused hfree hv
    have hs := hsmooth.mpr (Visits.verdict_eq_ok hv)
    have hall := hon.trans hup.hardware.untouched.writes
    exact ⟨iff_of_true hr hs, fun _ => hup, fun hn => absurd hs hn, hall, huntouched hall⟩
  | error e =>
    obtain ⟨hr, hback⟩ := load_back hc hm hsorted hrefused hfree hv
    obtain ⟨cpu, e', -, hfailed, -⟩ := hback.failure
    have hn : ¬start.machine.Smooth (start.enabling config).2 := fun hs => by
      cases hsmooth.mp hs _ hfailed
    have hall := (hon.trans hoff).trans hback.hardware.untouched.writes
    exact ⟨iff_of_false (fun h => by cases hr.symm.trans h) hn, fun hs => absurd hs hn,
      fun _ => hback, hall, huntouched hall⟩

/-- Two cpus with stale registers. The second write on cpu 0 fails, and so does the first one that
is to switch cpu 1 off again. -/
def faultyStart : Platform where
  machine :=
    { Machine.new 2 with
      bank := .soft (((SoftBank.new 2).write 0 Msr.select 7).write 1 Msr.debugctl 9)
      faults :=
        [{ call := .wrmsr, skip := 1, errno := 13 }, { call := .wrmsr, skip := 11, errno := 7 }] }

theorem load_all_or_nothing_faulty :
    faultyStart.machine.Roams ∧
      ¬faultyStart.machine.Smooth (faultyStart.enabling ⟨1, .userOnly⟩).2 ∧
      (load ⟨1, .userOnly⟩ faultyStart).1 = .error (.io (.os 13)) ∧
      (load ⟨1, .userOnly⟩ faultyStart).2.host.devices = [] ∧
      (load ⟨1, .userOnly⟩ faultyStart).2.machine.read? 0 Msr.select = some 0 ∧
      (load ⟨1, .userOnly⟩ faultyStart).2.machine.read? 0 Msr.debugctl = some 0 ∧
      (load ⟨1, .userOnly⟩ faultyStart).2.machine.read? 1 Msr.debugctl = some 1 := by
  have hm : faultyStart.machine.Roams := by decide
  have hon : (faultyStart.enabling ⟨1, .userOnly⟩).1 = [(0, .error (.os 13)), (1, .ok ())] := by
    decide +kernel
  have hoff : (faultyStart.disabling ⟨1, .userOnly⟩).1 = [(0, .ok ()), (1, .error (.os 7))] := by
    decide +kernel
  have hn : ¬faultyStart.machine.Smooth (faultyStart.enabling ⟨1, .userOnly⟩).2 := fun hs => by
    have hok := (enabling_pass ⟨1, .userOnly⟩ faultyStart).smooth_iff.mp hs
    rw [hon] at hok
    cases hok _ List.mem_cons_self
  have hc : Config.capacity ⟨1, .userOnly⟩ ≤ Msr.maxPlaces := by decide
  have hall := load_all_or_nothing hc hm (by decide) rfl rfl
  have hback := hall.2.2.1 hn
  have hcpu1 : (faultyStart.disabling ⟨1, .userOnly⟩).2.read? 1 Msr.debugctl = some 1 := by
    decide +kernel
  have hzero : (0, .ok ()) ∈ (faultyStart.disabling ⟨1, .userOnly⟩).1 := by
    rw [hoff]
    exact List.mem_cons_self
  obtain ⟨hdebugctl, hstack⟩ := (hback.switched 0 hzero).2 _ rfl
  have hread := hback.hardware.untouched.read? 1 Msr.debugctl
  refine ⟨hm, hn, ?_, ?_, ?_, ?_, ?_⟩
  · obtain ⟨cpu, e, hr, hfailed, -⟩ := hback.failure
    rw [hon] at hfailed
    have he : cpu = 0 ∧ e = .os 13 := by simpa using hfailed
    rw [hr, he.2]
  · exact hback.devices
  · exact hstack Msr.select (.inl rfl)
  · exact hdebugctl
  · exact hread.trans hcpu1

end Platform

end BranchTrace
