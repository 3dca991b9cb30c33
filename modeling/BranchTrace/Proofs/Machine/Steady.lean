import BranchTrace.Proofs.Machine.Passes
import BranchTrace.Proofs.Machine.Reliable

/-!
# Steady machines

A machine is calm if nothing is planned to fail on it, its registers are kept in memory, and the
cpus of its thread are configured (`Machine.Calm`). While its thread is bound to one cpu it is
steady there, with registers that can be spoken of (`Machine.Steady`). All that is done to a steady
machine succeeds, and leaves it steady with the registers that the step makes of them.

Main statements: `Steady.wrmsrAll` and `Steady.save`, for accesses; `Calm.onEachCpu`, a pass over
the cpus of a calm machine ends well, and the thread stays on the last of them.
-/

namespace BranchTrace

namespace Machine

/-- Nothing fails on the machine, its registers are kept in memory, and the cpus that its thread
may run on are configured. -/
structure Calm (m : Machine) : Prop where
  faults : m.faults = []
  soft : ∃ bank, m.bank = .soft bank
  configured : ∀ cpu ∈ m.affinity, cpu < m.cpus

/-- The thread of a machine where nothing fails is bound to one cpu, and the registers are those of
a bank in memory. -/
structure Steady (m : Machine) (cpu : Nat) (bank : SoftBank) : Prop where
  allowed : m.allowed = [cpu]
  cur : m.cur = cpu
  numbered : cpu < maxCpus
  configured : cpu < m.cpus
  faults : m.faults = []
  bank : m.bank = .soft bank

theorem guarded_of_faults_eq_nil {α : Type} {m : Machine} (h : m.faults = []) (call : Call)
    (step : Action Machine SystemError α) : guarded call step m = step m := by
  apply guarded_of_forall_ne
  intro fault hf
  rw [h] at hf
  cases hf

/-- A thread that is bound to configured cpus, and is on one of them, stays there. -/
theorem bind?_of_mem {m : Machine} {cpus : List Nat} (hcur : m.cur ∈ cpus)
    (hc : ∀ cpu ∈ cpus, cpu < m.cpus) : m.bind? cpus = some { m with allowed := cpus } := by
  have hfilter : cpus.filter (· < m.cpus) = cpus :=
    List.filter_eq_self.mpr fun cpu h => decide_eq_true (hc cpu h)
  obtain ⟨lowest, rest, rfl⟩ := List.exists_cons_of_ne_nil (List.ne_nil_of_mem hcur)
  rw [bind?, hfilter]
  dsimp only
  rw [if_pos hcur]

namespace Calm

variable {m : Machine} (h : m.Calm)
include h

theorem bindable : m.Bindable := by
  intro fault hf
  rw [h.faults] at hf
  cases hf

/-- The thread can be pinned to any of its cpus, and is steady there. -/
theorem on {cpu : Nat} (hcpu : cpu ∈ m.affinity) :
    let there : Machine := { m with allowed := [cpu], cur := cpu }
    Pin.on cpu m = (.ok { cpu, saved := m.affinity }, there) ∧ ∃ bank, there.Steady cpu bank := by
  intro there
  have hmax : cpu < maxCpus := of_decide_eq_true (List.mem_filter.mp hcpu).2
  have hconfigured := h.configured cpu hcpu
  obtain ⟨bank, hb⟩ := h.soft
  exact ⟨Pin.on_of_bindable h.bindable hmax hconfigured, bank, rfl, rfl, hmax, hconfigured,
    h.faults, hb⟩

/-- The thread can be pinned to the cpu it is on. -/
theorem current (hcur : m.cur ∈ m.affinity) :
    let here : Machine := { m with allowed := [m.cur] }
    Pin.current m = (.ok { cpu := m.cur, saved := m.affinity }, here) ∧
      ∃ bank, here.Steady m.cur bank := by
  intro here
  obtain ⟨hon, hsteady⟩ := h.on hcur
  refine ⟨?_, hsteady⟩
  have hcpu : Machine.getCpu m = (.ok m.cur, m) := guarded_of_faults_eq_nil h.faults ..
  rw [Pin.on] at hon
  simp only [Pin.current, Action.bind_apply, h.bindable.getAffinity, hcpu] at hon ⊢
  exact hon

end Calm

namespace Steady

variable {m : Machine} {cpu : Nat} {bank : SoftBank} (h : m.Steady cpu bank)
include h

/-- Neither journal matters. -/
theorem of_journals (events : List Event) (accesses : List Access) :
    ({ m with events, accesses } : Machine).Steady cpu bank :=
  ⟨h.allowed, h.cur, h.numbered, h.configured, h.faults, h.bank⟩

/-- A thread that stays where it is is steady with the registers that it has then. -/
theorem of_stays {n : Machine} {bank' : SoftBank} (hs : m.Stays n) (hb : n.bank = .soft bank')
    (hf : n.faults = m.faults) : n.Steady cpu bank' :=
  ⟨hs.allowed.trans h.allowed, hs.cur.trans h.cur, h.numbered, hs.cpus ▸ h.configured,
    hf.trans h.faults, hb⟩

theorem report (event : Event) : (report event m).2.Steady cpu bank :=
  h.of_journals _ _

/-! ## Accesses -/

theorem reliable : m.Reliable bank where
  bank := h.bank
  faults fault hf := by
    rw [h.faults] at hf
    cases hf

theorem wrmsrAll (c : Nat) (writes : List (UInt32 × UInt64)) :
    (wrmsrAll c writes m).1 = .ok () ∧
      (wrmsrAll c writes m).2.Steady cpu (bank.writeAll c writes) := by
  obtain ⟨hok, hbank, hfaults⟩ := h.reliable.wrmsrAll c writes
  exact ⟨hok, h.of_stays (wrmsrAll_stays c writes m) hbank hfaults⟩

/-- A save fills the context from the registers of the cpu. -/
theorem save (c : Nat) (context : Context) :
    ∃ n, Lbr.save c context m =
        ((.ok (), context.refreshed (bank.cells (bank.file c))), n) ∧ n.Steady cpu bank := by
  obtain ⟨hsaved, hfaults⟩ := h.reliable.save c context
  obtain ⟨hbank, hstays, -⟩ := Lbr.save_soft h.bank c context
  exact ⟨_, Prod.ext hsaved rfl, h.of_stays hstays (hbank.trans h.bank) hfaults⟩

/-! ## Pins -/

theorem affinity : m.affinity = [cpu] := by
  rw [Machine.affinity, h.allowed]
  exact List.filter_eq_self.mpr fun c hc => decide_eq_true (List.mem_singleton.mp hc ▸ h.numbered)

theorem calm : m.Calm where
  faults := h.faults
  soft := ⟨bank, h.bank⟩
  configured c hc := by
    rw [h.affinity] at hc
    exact List.mem_singleton.mp hc ▸ h.configured

/-- Pinning the thread where it is bound already does nothing. -/
theorem current : Pin.current m = (.ok { cpu, saved := [cpu] }, m) := by
  obtain rfl := h.cur
  have hcur : m.cur ∈ m.affinity := h.affinity ▸ List.mem_singleton_self _
  rw [(h.calm.current hcur).1, h.affinity]
  simp only [← h.allowed]

/-- And so does giving that pin back. -/
theorem release : (Pin.release { cpu, saved := [cpu] } m).2 = m := by
  have hbind : m.bind? [cpu] = some { m with allowed := [cpu] } :=
    bind?_of_mem (h.cur ▸ List.mem_singleton_self _)
      fun c hc => List.mem_singleton.mp hc ▸ h.configured
  rw [Pin.release, h.calm.bindable.setAffinity, hbind]
  simp only [← h.allowed]

end Steady

/-! ## Passes -/

/-- A step on a pinned cpu that gives the same on all steady machines, and leaves them steady. -/
def Keeps {α : Type} (a : α) (step : Pin → StateM Machine α) : Prop :=
  ∀ pin bank (m : Machine), m.Steady pin.cpu bank → (step pin m).1 = a ∧
    (step pin m).2.cpus = m.cpus ∧ ∃ bank', (step pin m).2.Steady pin.cpu bank'

section Passes

variable {α : Type} {a : α} {step : Pin → StateM Machine α} {m : Machine}

/-- A visit of one cpu: the thread is there afterwards, and may run where it could before. -/
theorem Calm.visit (h : m.Calm) (hs : Keeps a step) {cpu : Nat} (hcpu : cpu ∈ m.affinity) :
    ∃ pin there next, Pin.on cpu m = (.ok pin, there) ∧ (step pin there).1 = a ∧
      (pin.release (step pin there).2).2 = next ∧ next.Calm ∧ next.affinity = m.affinity ∧
      next.cur = cpu := by
  obtain ⟨hon, bank, hthere⟩ := h.on hcpu
  obtain ⟨ha, hcpus, bank', hsteady⟩ := hs { cpu, saved := m.affinity } bank _ hthere
  refine ⟨_, _, _, hon, ha, rfl, ?_⟩
  generalize (step { cpu, saved := m.affinity } { m with allowed := [cpu], cur := cpu }).2 = n
    at hcpus hsteady
  have hbind := bind?_of_mem (m := n) (hsteady.cur ▸ hcpu) (hcpus ▸ h.configured)
  rw [Pin.release, hsteady.calm.bindable.setAffinity, hbind]
  have haffinity : ({ n with allowed := m.affinity } : Machine).affinity = m.affinity := by
    rw [affinity, affinity, List.filter_filter]
    simp
  refine ⟨⟨hsteady.faults, ⟨bank', hsteady.bank⟩, ?_⟩, haffinity, hsteady.cur⟩
  rw [haffinity]
  exact hcpus ▸ h.configured

theorem Calm.visitCpus (h : m.Calm) (hs : Keeps a step) {cpus : List Nat}
    (hcpus : ∀ cpu ∈ cpus, cpu ∈ m.affinity) :
    ∃ m', visitCpus step cpus m = ((.ok (), cpus.map fun _ => a), m') ∧ m'.Calm ∧
      m'.affinity = m.affinity ∧ m'.cur = cpus.getLastD m.cur := by
  induction cpus generalizing m with
  | nil => exact ⟨m, rfl, h, rfl, rfl⟩
  | cons cpu rest ih =>
    obtain ⟨hcpu, hrest⟩ := List.forall_mem_cons.mp hcpus
    obtain ⟨pin, there, next, hon, ha, hrelease, hcalm, haffinity, hcur⟩ := h.visit hs hcpu
    obtain ⟨m', hvisits, hcalm', haffinity', hcur'⟩ := ih hcalm (haffinity ▸ hrest)
    refine ⟨m', ?_, hcalm', haffinity'.trans haffinity, ?_⟩
    · rw [visitCpus_cons, hon]
      dsimp only
      rw [hrelease, hvisits, ha]
      rfl
    · rw [hcur', hcur, List.getLastD_cons]

/-- A pass over all cpus ends well, with the thread on the last of them. -/
theorem Calm.onEachCpu (h : m.Calm) (hs : Keeps a step) :
    ∃ m', onEachCpu step m = ((.ok m.affinity.length, m.affinity.map fun _ => a), m') ∧ m'.Calm ∧
      m'.affinity = m.affinity ∧ m'.cur = m.affinity.getLastD m.cur := by
  obtain ⟨m', hvisits, hrest⟩ := h.visitCpus hs fun _ hc => hc
  refine ⟨m', ?_, hrest⟩
  rw [onEachCpu_apply]
  simp only [MachineState.machine, MachineState.setMachine, id_eq, h.bindable.getAffinity, hvisits]
  rfl

end Passes

end Machine

end BranchTrace
