import BranchTrace.Proofs.Host.Conduct
import BranchTrace.Proofs.Machine.Mishaps

/-!
# Giving the thread back

The library binds the thread wherever it touches registers: under one pin, under a pin inside
another, or under one pin after the other. Whatever fails meanwhile, each pin is given back on the
way out, and nothing but giving it back can go wrong with that; if it does, it is reported
(`Event.isKept`). So a machine `GivesBack` the cpus of the thread to the machine before, and this
is a `Machine.Conduct`.

Main statement: `affinity_given_back`, for everything that the library can be called for
(`Undertaken`).
-/

namespace BranchTrace

open MachineState

/-- Whether an event tells of a pin that could not be given back. -/
def Event.isKept : Event → Bool
  | .affinityKept .. => true
  | _ => false

namespace Machine

variable {m m' m'' : Machine}

/-- If the cpus the thread may run on are configured and every pin could be given back, then the
thread may run on the same cpus again, but for those that no set of cpus can hold. -/
structure GivesBack (m m' : Machine) : Prop where
  reports : m.events <:+ m'.events
  cpus : m'.cpus = m.cpus
  allowed : (∀ cpu ∈ m.affinity, cpu < m.cpus) → m.Unreported Event.isKept m' →
    m'.allowed = m.allowed ∨ m'.allowed = m.affinity

/-- The thread is left where it may run, and what is reported is added to the journal. -/
structure LeavesBound (m m' : Machine) : Prop where
  reports : m.events <:+ m'.events
  cpus : m'.cpus = m.cpus
  allowed : m'.allowed = m.allowed

theorem LeavesBound.givesBack (h : m.LeavesBound m') : m.GivesBack m' :=
  ⟨h.reports, h.cpus, fun _ _ => .inl h.allowed⟩

theorem Stays.leavesBound (h : m.Stays m') (he : m'.events = m.events) : m.LeavesBound m' :=
  ⟨he ▸ List.suffix_refl _, h.cpus, h.allowed⟩

theorem affinity_of_allowed (h : m'.allowed = m.allowed ∨ m'.allowed = m.affinity) :
    m'.affinity = m.affinity := by
  rcases h with h | h
  · rw [affinity, h, affinity]
  · rw [affinity, h, affinity, List.filter_filter]
    simp

theorem GivesBack.trans (h : m.GivesBack m') (h' : m'.GivesBack m'') : m.GivesBack m'' := by
  refine ⟨h.reports.trans h'.reports, h'.cpus.trans h.cpus, fun hset hback => ?_⟩
  obtain ⟨hfirst, hlast⟩ := hback.parts h.reports h'.reports
  have hallowed := h.allowed hset hfirst
  have haffinity := affinity_of_allowed hallowed
  have hset' : ∀ cpu ∈ m'.affinity, cpu < m'.cpus := by
    rw [haffinity, h.cpus]
    exact hset
  rcases h'.allowed hset' hlast with h' | h'
  · rwa [h']
  · exact .inr (h'.trans haffinity)

/-- A pin gives back the cpus that it knows, or that is reported. -/
theorem givesBack_release {pin : Pin} (ht : m.Takes pin m') (h : m'.GivesBack m'') :
    m.GivesBack (pin.release m'').2 := by
  obtain ⟨faults, rfl⟩ := ht.after
  have hreports : m.events <:+ m''.events := h.reports
  have hcpus : m''.cpus = m.cpus := h.cpus
  refine ⟨hreports.trans (events_release pin m''), ?_, fun hset hback => ?_⟩
  · rcases pin.release_cases m'' with ⟨e, faults, hr⟩ | ⟨faults, n, hb, hr⟩
    · rw [hr]
      exact hcpus
    · obtain ⟨-, cur, rfl, -⟩ := bind?_eq_some hb
      rw [hr]
      exact hcpus
  · have hlast := (hback.parts hreports (events_release pin m'')).2
    rcases pin.release_cases m'' with ⟨e, faults, hr⟩ | ⟨faults, n, hb, hr⟩
    · have hkept : Event.isKept (.affinityKept pin.cpu e) = false :=
        hlast.not_kind (congrArg (·.events) hr)
      cases hkept
    · obtain ⟨-, cur, rfl, -⟩ := bind?_eq_some hb
      have hfilter : pin.saved.filter (· < m''.cpus) = m.affinity := by
        rw [ht.saved, hcpus, List.filter_eq_self]
        exact fun cpu hcpu => decide_eq_true (hset cpu hcpu)
      rw [hr]
      exact .inr hfilter

theorem conduct_givesBack : Conduct GivesBack where
  refl _ := ⟨List.suffix_refl _, rfl, fun _ _ => .inl rfl⟩
  trans := GivesBack.trans
  event _ _ := ⟨List.suffix_cons _ _, rfl, fun _ _ => .inl rfl⟩
  faults _ _ := ⟨List.suffix_refl _, rfl, fun _ _ => .inl rfl⟩
  bank _ _ := ⟨List.suffix_refl _, rfl, fun _ _ => .inl rfl⟩
  rdmsr cpu msr m :=
    ((rdmsr_journal cpu msr m).2.leavesBound ((silent_rdmsr cpu msr).events m)).givesBack
  wrmsr cpu msr value m :=
    ((wrmsr_journal cpu msr value m).2.leavesBound ((silent_wrmsr cpu msr value).events m)).givesBack
  release := givesBack_release

/-! ## Undertakings -/

/-- The library was called on one machine and left the other: to load or unload tracing, for an
operation of a tracer, by its host, to run a step on each cpu, to read live registers or to
simulate a family. -/
inductive Undertaken : Machine → Machine → Prop
  | load (config : Config) (s : Platform) :
    Undertaken s.machine (Platform.load config s).2.machine
  | loadIdentified (detected? : Option Signature) (model? : Option UInt32)
    (select? : Option UInt64) (s : Platform) :
    Undertaken s.machine (Platform.loadIdentified detected? model? select? s).2.machine
  | unload (id : Nat) (s : Platform) : Undertaken s.machine (Platform.unload id s).2.machine
  | enable (config : Config) (pid : UInt32) (bits : UInt64) (s : Tracing) :
    Undertaken s.machine (Tracer.enable config pid bits s).2.machine
  | disable (pid : UInt32) (s : Tracing) :
    Undertaken s.machine (Tracer.disable pid s).2.machine
  | dump (pid? : Option UInt32) (s : Tracing) :
    Undertaken s.machine (Tracer.dump pid? s).2.machine
  | select (pid : UInt32) (bits : UInt64) (s : Tracing) :
    Undertaken s.machine (Tracer.select pid bits s).2.machine
  | dispatch (config : Config) (caller number : UInt32) (block : List UInt8) (param : UInt64)
    (s : Tracing) :
    Undertaken s.machine (Tracer.dispatch config caller number block param s).2.machine
  | ioctl (config : Config) (caller number : UInt32) (block : List UInt8) (param : UInt64)
    (s : Tracing) :
    Undertaken s.machine (Tracer.ioctl config caller number block param s).2.machine
  | deviceOpen (s : Tracing) : Undertaken s.machine (Tracer.deviceOpen s).2.machine
  | deviceRelease (s : Tracing) : Undertaken s.machine (Tracer.deviceRelease s).2.machine
  | deviceRead (s : Tracing) : Undertaken s.machine (Tracer.deviceRead s).2.machine
  | deviceWrite (s : Tracing) : Undertaken s.machine (Tracer.deviceWrite s).2.machine
  | fork (config : Config) (parent child : UInt32) (s : Tracing) :
    Undertaken s.machine (Tracer.fork config parent child s).2.machine
  | forkBegins (pid : UInt32) (s : Tracing) :
    Undertaken s.machine (Tracer.forkBegins pid s).2.machine
  | forkEnds (config : Config) (pid : UInt32) (child : Option UInt32) (s : Tracing) :
    Undertaken s.machine (Tracer.forkEnds config pid child s).2.machine
  | schedOut (pid : UInt32) (s : Tracing) :
    Undertaken s.machine (Tracer.schedOut pid s).2.machine
  | schedIn (pid : UInt32) (s : Tracing) :
    Undertaken s.machine (Tracer.schedIn pid s).2.machine
  | drain (s : Tracing) : Undertaken s.machine (Tracer.drain s).2.machine
  | contextSwitch (cpu : Nat) (next : UInt32) (s : Platform) :
    Undertaken s.machine (Platform.contextSwitch cpu next s).2.machine
  | hostFork (symbol : String) (parent child : UInt32) (s : Platform) :
    Undertaken s.machine (Platform.fork symbol parent child s).2.machine
  | hostIoctl (name : String) (caller number : UInt32) (block : List UInt8) (param : UInt64)
    (s : Platform) :
    Undertaken s.machine (Platform.ioctl name caller number block param s).2.machine
  | hostRead (name : String) (caller : UInt32) (length : Nat) (s : Platform) :
    Undertaken s.machine (Platform.read name caller length s).2.machine
  /-- With any step that leaves the thread where it may run. -/
  | onEachCpu {σ α : Type} [MachineState σ] (step : Pin → StateM σ α)
    (hstep : ∀ pin s, (machine s).LeavesBound (machine (step pin s).2)) (s : σ) :
    Undertaken (machine s) (machine (onEachCpu step s).2)
  | dumpMsr (detected? : Option Signature) (model? : Option UInt32) (root : String)
    (cpu? : Option Nat) (m : Machine) :
    Undertaken m (Cli.dumpMsr detected? model? root cpu? m).2
  | simulate (simulation : Cli.Simulation) (options : Cli.Options)
    (detected? : Option Signature) (m : Machine) :
    Undertaken m (simulation.run options detected? m).2

theorem Undertaken.givesBack (h : Undertaken m m') : m.GivesBack m' := by
  have hR := conduct_givesBack
  cases h with
  | load config s => exact Platform.respects_load hR config s
  | loadIdentified detected? model? select? s =>
    exact Platform.respects_loadIdentified hR detected? model? select? s
  | unload id s => exact Platform.respects_unload hR id s
  | enable config pid bits s => exact Tracer.respects_enable hR config pid bits s
  | disable pid s => exact Tracer.respects_disable hR pid s
  | dump pid? s => exact Tracer.respects_dump hR pid? s
  | select pid bits s => exact Tracer.respects_select hR pid bits s
  | dispatch config caller number block param s =>
    exact Tracer.respects_dispatch hR config caller number block param s
  | ioctl config caller number block param s =>
    exact Tracer.respects_ioctl hR config caller number block param s
  | deviceOpen s => exact hR.event .deviceOpened s.machine
  | deviceRelease s => exact hR.event .deviceClosed s.machine
  | deviceRead s => exact Tracer.respects_deviceRead hR s
  | deviceWrite s => exact hR.event .deviceWrite s.machine
  | fork config parent child s => exact Tracer.respects_fork hR config parent child s
  | forkBegins pid s => exact hR.event (.forkBegins pid) s.machine
  | forkEnds config pid child s => exact Tracer.respects_forkEnds hR config pid child s
  | schedOut pid s => exact Tracer.respects_schedOut hR pid s
  | schedIn pid s => exact Tracer.respects_schedIn hR pid s
  | drain s => exact Tracer.respects_drain hR s
  | contextSwitch cpu next s => exact Platform.respects_contextSwitch hR cpu next s
  | hostFork symbol parent child s => exact Platform.respects_fork hR symbol parent child s
  | hostIoctl name caller number block param s =>
    exact Platform.respects_ioctl hR name caller number block param s
  | hostRead name caller length s => exact Platform.respects_read hR name caller length s
  | onEachCpu step hstep s => exact hR.onEachCpu (fun pin s => (hstep pin s).givesBack) s
  | dumpMsr detected? model? root cpu? => exact Cli.respects_dumpMsr hR detected? model? root cpu? m
  | simulate simulation options detected? =>
    exact Cli.Simulation.respects_run hR simulation options detected? m

/-- Whatever the library is called for and whatever fails meanwhile, the thread may run on the
same cpus afterwards, as long as none of the pins fails to be given back. -/
theorem affinity_given_back {m m' : Machine}
    (hset : ∀ cpu ∈ m.allowed, cpu < m.cpus ∧ cpu < maxCpus) (hrun : Undertaken m m')
    (hback : m.Unreported Event.isKept m') : m'.allowed = m.allowed := by
  have haffinity : m.affinity = m.allowed := by
    rw [affinity, List.filter_eq_self]
    exact fun cpu hcpu => decide_eq_true (hset cpu hcpu).2
  have hconfigured : ∀ cpu ∈ m.affinity, cpu < m.cpus := by
    rw [haffinity]
    exact fun cpu hcpu => (hset cpu hcpu).1
  have hallowed := hrun.givesBack.allowed hconfigured hback
  rwa [haffinity, or_self] at hallowed

/-- The thread may run on two of three cpus. A write on the first one is to fail, and so is the pin
to the second one. -/
def boundStart : Platform where
  machine :=
    { Machine.new 3 with
      allowed := [0, 2]
      faults :=
        [{ call := .wrmsr, skip := 1, errno := 13 },
          { call := .setaffinity, skip := 2, errno := 22 }] }

/-- What was loaded is taken back, under pins again. -/
theorem affinity_given_back_undone :
    let loaded := Platform.load ⟨1, .userOnly⟩ boundStart
    loaded.1 = .error (.io (.os 22)) ∧
      boundStart.machine.Unreported Event.isKept loaded.2.machine ∧
      loaded.2.machine.allowed = [0, 2] := by
  have hset : ∀ cpu ∈ boundStart.machine.allowed, cpu < boundStart.machine.cpus ∧ cpu < maxCpus := by
    decide
  have hback : boundStart.machine.Unreported Event.isKept
      (Platform.load ⟨1, .userOnly⟩ boundStart).2.machine := by
    decide +kernel
  refine ⟨by decide +kernel, hback, ?_⟩
  exact affinity_given_back hset (.load _ boundStart) hback

end Machine

end BranchTrace
