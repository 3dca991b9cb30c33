import BranchTrace.Proofs.Host.Interludes

/-!
# Recording after unloading

Loading and unloading each go by the cpus that the thread may run on at their own moment. Main
statement: `recording_after_unload`, a cpu where loading switched recording on is switched off if
the thread may still run there when tracing is taken down, and records on if not.
-/

namespace BranchTrace

namespace Platform

variable {id : Nat} {config : Config}

/-- Unloading without a failure switches recording off where the thread may run by then, and
nowhere else. -/
theorem switched_off {s : Platform} (hs : s.Has id config) (hc : config.capacity ≤ Msr.maxPlaces)
    (hm : s.machine.Roams) (hsmooth : s.machine.Smooth (unload id s).2.machine) (cpu : Nat) :
    (unload id s).2.machine.lastWritten cpu Msr.debugctl =
        (if cpu ∈ s.machine.affinity then some 0 else s.machine.lastWritten cpu Msr.debugctl) ∧
      ∀ bank, s.machine.bank = .soft bank →
        (unload id s).2.machine.read? cpu Msr.debugctl =
          some (if ∃ visited ∈ s.machine.affinity, bank.file visited = bank.file cpu then 0
            else bank.read cpu Msr.debugctl) := by
  obtain ⟨visits, hp, hroams⟩ := unload_pass hs
  have hcpus := hroams hm
  have hok := hp.smooth_iff.mp hsmooth
  have hvisited : ∀ c ∈ s.machine.affinity, (c, .ok ()) ∈ visits :=
    fun c hmem => Visits.mem_of_ok hok (hcpus ▸ hmem)
  constructor
  · split
    · exact (hp.lastWritten_debugctl hc cpu).1 (hvisited cpu ‹_›)
    · exact (hp.lastWritten_debugctl hc cpu).2 (hcpus ▸ ‹_›)
  · intro bank hb
    obtain ⟨bank', hb', -, hoff, hkept⟩ := hp.registers hc hb
    rw [Machine.read?_of_soft hb']
    split
    · next h =>
      obtain ⟨visited, hmem, hfile⟩ := h
      rw [(hoff visited cpu (hvisited visited hmem) hfile).1]
      rfl
    · next h =>
      rw [hkept cpu _ (.inr fun visited hmem hfile => h ⟨visited, hcpus ▸ hmem, hfile⟩)]

/-- Tracing is brought up, anything happens, and it is taken down without a failure: then recording
was switched on last on every cpu that the thread could run on at the load and cannot run on now,
and off on every cpu it can run on now. Where registers are kept in software, a cpu also stops
recording if it shares its registers with one of the latter. -/
theorem recording_after_unload {start : Platform} (hc : config.capacity ≤ Msr.maxPlaces)
    (hobservers : ∀ client ∈ start.host.notifiers, ∃ name status, client = .observer name status)
    (hload : (load config start).1 = .ok id) (interludes : List Interlude)
    (hroams : (runInterludes id interludes (load config start).2).machine.Roams)
    (hsmooth : (runInterludes id interludes (load config start).2).machine.Smooth
      (unload id (runInterludes id interludes (load config start).2)).2.machine) :
    let m := (runInterludes id interludes (load config start).2).machine
    let m' := (unload id (runInterludes id interludes (load config start).2)).2.machine
    (∀ cpu ∈ m.affinity, m'.lastWritten cpu Msr.debugctl = some 0) ∧
      (∀ cpu ∈ start.machine.affinity, cpu ∉ m.affinity →
        m'.lastWritten cpu Msr.debugctl = some Msr.recording) ∧
      ∀ initial, start.machine.bank = .soft initial → ∀ cpu ∈ start.machine.affinity,
        m'.read? cpu Msr.debugctl =
          some (if ∃ visited ∈ m.affinity, initial.file visited = initial.file cpu then 0
            else Msr.recording) := by
  intro m m'
  obtain ⟨hserving, visits, hp, hcpus, hok⟩ := serving_load hobservers hload
  obtain ⟨hs, hleaves⟩ := hserving.run hc interludes
  have hvisited : ∀ cpu ∈ start.machine.affinity, (cpu, .ok ()) ∈ visits :=
    fun cpu hmem => Visits.mem_of_ok hok (hcpus ▸ hmem)
  have hoff := switched_off hs.has hc hroams hsmooth
  refine ⟨fun cpu hmem => ?_, fun cpu hmem hn => ?_, fun initial hb cpu hmem => ?_⟩
  · exact (hoff cpu).1.trans (if_pos hmem)
  · refine (hoff cpu).1.trans ((if_neg hn).trans ?_)
    exact (hleaves.lastWritten cpu).trans ((hp.lastWritten_debugctl hc cpu).1 (hvisited cpu hmem))
  · obtain ⟨before, hbefore, hfiles, hon, -⟩ := hp.registers hc hb
    obtain ⟨after, hafter, hfiles', hread⟩ := hleaves.bank before hbefore
    have hfile : ∀ c, after.file c = initial.file c := by
      intro c
      rw [SoftBank.file, hfiles', hfiles, SoftBank.file]
    rw [(hoff cpu).2 after hafter, hread, (hon cpu cpu (hvisited cpu hmem) rfl).1]
    simp only [hfile]
    rfl

/-- Two cpus with registers of their own, on a host without registrations. -/
def idleStart : Platform where
  machine := { Machine.new 2 with bank := .soft (.new 2) }

/-- While the thread is pinned to cpu 1, process 7 is traced and comes onto that cpu. -/
def pinnedInterludes : List Interlude :=
  [.pin (some 1), .serve (.enable 7 0), .switch 1 7]

theorem recording_after_unload_pinned :
    (load ⟨2, .userOnly⟩ idleStart).1 = .ok 0 ∧
      let s := runInterludes 0 pinnedInterludes (load ⟨2, .userOnly⟩ idleStart).2
      let m' := (unload 0 s).2.machine
      s.machine.Roams ∧ s.machine.Smooth m' ∧ s.machine.affinity = [1] ∧
        m'.lastWritten 0 Msr.debugctl = some Msr.recording ∧
        m'.lastWritten 1 Msr.debugctl = some 0 := by
  have hload : (load ⟨2, .userOnly⟩ idleStart).1 = .ok 0 := by decide +kernel
  have hroams : (runInterludes 0 pinnedInterludes
      (load ⟨2, .userOnly⟩ idleStart).2).machine.Roams := by decide +kernel
  have hsmooth : (runInterludes 0 pinnedInterludes
      (load ⟨2, .userOnly⟩ idleStart).2).machine.Smooth
        (unload 0 (runInterludes 0 pinnedInterludes (load ⟨2, .userOnly⟩ idleStart).2)).2.machine :=
    by decide +kernel
  have haffinity : (runInterludes 0 pinnedInterludes
      (load ⟨2, .userOnly⟩ idleStart).2).machine.affinity = [1] := by decide +kernel
  obtain ⟨hoff, hon, -⟩ := recording_after_unload (by decide)
    (fun _ hc => absurd hc List.not_mem_nil) hload pinnedInterludes hroams
    hsmooth
  rw [haffinity] at hoff hon
  exact ⟨hload, hroams, hsmooth, haffinity, hon 0 (by decide) (by decide), hoff 1 (by decide)⟩

/-- Nothing fails, but somebody binds the thread to cpu 1 before tracing is taken down: cpu 0, where
loading switched recording on, records on. -/
theorem recording_survives_unload :
    let loaded := load ⟨1, .userOnly⟩ idleStart
    let bound := (Interlude.bind [1]).run 0 loaded.2
    let unloaded := (unload 0 bound).2.machine
    loaded.1 = .ok 0 ∧ loaded.2.machine.read? 0 Msr.debugctl = some 1 ∧
      idleStart.machine.faults = [] ∧ idleStart.machine.Smooth unloaded ∧
      bound.machine.allowed = [1] ∧ unloaded.read? 0 Msr.debugctl = some 1 ∧
      unloaded.read? 1 Msr.debugctl = some 0 := by
  decide +kernel

end Platform

end BranchTrace
