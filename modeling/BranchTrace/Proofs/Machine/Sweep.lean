import BranchTrace.Proofs.Machine.Passes

/-!
# Sweeps

On a machine that lets its thread go where it may (`Machine.Roams`), steps that make the same writes
on every cpu come to a sweep of these writes (`Machine.sweep`): one cpu after the other, whatever
becomes of the writes, and nothing in between that a register access could tell
(`Machine.Agrees`).

Main statements: `onEachCpu_sweep`, a visit of all cpus is a sweep, and the thread may run
afterwards where it could before; `Visits.verdict_eq_error`, a visit in ascending order fails with
the failure of the lowest cpu.
-/

namespace BranchTrace

namespace Machine

variable {writes : List (UInt32 × UInt64)} {m n m' : Machine}

/-! ## Events do not matter to accesses -/

theorem silent_nodeWrite (bank : NodeBank) (cpu : Nat) (msr : UInt32) (value : UInt64) :
    Silent (bank.write cpu msr value) := by
  intro m events
  have htrip : trip .pwrite { m with events } =
    ((trip .pwrite m).1, { (trip .pwrite m).2 with events }) := rfl
  rw [NodeBank.write_apply, NodeBank.write_apply, htrip]
  cases bank.node cpu with
  | error e => rfl
  | ok place =>
    dsimp only
    cases NodeBank.cutShort (trip .pwrite m).1 registerBytes with
    | error e => rfl
    | ok count =>
      dsimp only
      rcases m.files.writeAt place msr.toNat
        ((littleEndian registerBytes value.toNat).take count) with errno | ⟨moved, files⟩ <;> rfl

theorem silent_wrmsr (cpu : Nat) (msr : UInt32) (value : UInt64) :
    Silent (wrmsr cpu msr value) := by
  rintro ⟨cpus, allowed, cur, faults, bank, files, old, accesses⟩ events
  unfold wrmsr
  cases bank with
  | soft bank =>
    have hsilent : Silent (guarded .wrmsr fun m =>
        (.ok (), { m with bank := .soft (bank.write cpu msr value) })) :=
      silent_guarded fun _ _ => rfl
    have hs := hsilent ⟨cpus, allowed, cur, faults, .soft bank, files, old, accesses⟩ events
    dsimp only at hs ⊢
    rw [hs]
    rfl
  | nodes bank =>
    have hs := silent_nodeWrite bank cpu msr value
      ⟨cpus, allowed, cur, faults, .nodes bank, files, old, accesses⟩ events
    dsimp only at hs ⊢
    rw [hs]
    rfl

theorem silent_wrmsrAll (cpu : Nat) (writes : List (UInt32 × UInt64)) :
    Silent (wrmsrAll cpu writes) := by
  induction writes with
  | nil => exact fun _ _ => rfl
  | cons w writes ih => exact (silent_wrmsr cpu w.1 w.2).bind fun _ => ih

/-! ## Machines that agree -/

/-- Two machines differ only in where the thread is and in what was reported. -/
def Agrees (m n : Machine) : Prop :=
  ∃ allowed cur events, n = { m with allowed, cur, events }

theorem agrees_refl (m : Machine) : m.Agrees m :=
  ⟨m.allowed, m.cur, m.events, rfl⟩

theorem Agrees.trans (h : m.Agrees n) (h' : n.Agrees m') : m.Agrees m' := by
  obtain ⟨_, _, _, rfl⟩ := h
  obtain ⟨allowed, cur, events, rfl⟩ := h'
  exact ⟨allowed, cur, events, rfl⟩

theorem Agrees.untouched (h : m.Agrees n) : m.Untouched n := by
  obtain ⟨_, _, _, rfl⟩ := h
  exact ⟨rfl, rfl⟩

/-- Machines that agree make the same of some writes once the thread is on the same cpu. -/
theorem Agrees.wrmsrAll (h : m.Agrees n) (cpu : Nat) (writes : List (UInt32 × UInt64)) :
    ∃ events, Machine.wrmsrAll cpu writes { n with allowed := [cpu], cur := cpu } =
      ((Machine.wrmsrAll cpu writes { m with allowed := [cpu], cur := cpu }).1,
        { (Machine.wrmsrAll cpu writes { m with allowed := [cpu], cur := cpu }).2 with
          events }) := by
  obtain ⟨_, _, events, rfl⟩ := h
  exact ⟨events, silent_wrmsrAll cpu writes { m with allowed := [cpu], cur := cpu } events⟩

/-! ## Sweeps -/

/-- The same writes on one cpu after the other, the thread bound to each in its turn: how they ended
there. Writes that fail on a cpu do not keep the next from its turn. -/
def sweep (writes : List (UInt32 × UInt64)) : List Nat → StateM Machine Visits
  | [], m => ([], m)
  | cpu :: rest, m =>
    let (r, m) := wrmsrAll cpu writes { m with allowed := [cpu], cur := cpu }
    let (visits, m) := sweep writes rest m
    ((cpu, r) :: visits, m)

theorem sweep_cons (writes : List (UInt32 × UInt64)) (cpu : Nat) (rest : List Nat) (m : Machine) :
    sweep writes (cpu :: rest) m =
      let first := wrmsrAll cpu writes { m with allowed := [cpu], cur := cpu }
      let later := sweep writes rest first.2
      ((cpu, first.1) :: later.1, later.2) := rfl

theorem cpus_sweep (writes : List (UInt32 × UInt64)) (cpus : List Nat) (m : Machine) :
    (sweep writes cpus m).1.cpus = cpus := by
  induction cpus generalizing m with
  | nil => rfl
  | cons cpu rest ih => exact congrArg (cpu :: ·) (ih _)

theorem sweep_pass (writes : List (UInt32 × UInt64)) (cpus : List Nat) (m : Machine) :
    Pass writes m (sweep writes cpus m).1 (sweep writes cpus m).2 := by
  induction cpus generalizing m with
  | nil => exact .done ⟨rfl, rfl⟩
  | cons cpu rest ih => exact .visit cpu ⟨rfl, rfl⟩ (ih _)

theorem Agrees.sweep (h : m.Agrees n) (writes : List (UInt32 × UInt64)) (cpus : List Nat) :
    (Machine.sweep writes cpus n).1 = (Machine.sweep writes cpus m).1 ∧
      (Machine.sweep writes cpus m).2.Agrees (Machine.sweep writes cpus n).2 := by
  induction cpus generalizing m n with
  | nil => exact ⟨rfl, h⟩
  | cons cpu rest ih =>
    obtain ⟨events, hw⟩ := h.wrmsrAll cpu writes
    rw [sweep_cons, sweep_cons, hw]
    obtain ⟨hvisits, hagrees⟩ := ih ⟨_, _, events, rfl⟩
    exact ⟨congrArg (_ :: ·) hvisits, hagrees⟩

/-- Some write is tried on every cpu of a sweep. -/
theorem sweep_tries (hne : writes ≠ []) (cpus : List Nat) (m : Machine) :
    ∃ tried, (sweep writes cpus m).2.accesses = tried ++ m.accesses ∧
      ∀ cpu ∈ cpus, ∃ access ∈ tried, access.write = true ∧ access.cpu = cpu := by
  induction cpus generalizing m with
  | nil => exact ⟨[], rfl, nofun⟩
  | cons cpu rest ih =>
    obtain ⟨first, hfirst, htried⟩ : ∃ first, (wrmsrAll cpu writes
        { m with allowed := [cpu], cur := cpu }).2.accesses = first ++ m.accesses ∧
        ∃ access ∈ first, access.write = true ∧ access.cpu = cpu := by
      obtain ⟨w, more, rfl⟩ := List.exists_cons_of_ne_nil hne
      obtain ⟨entry, hj, hentry⟩ : ∃ entry : Access,
          (wrmsr cpu w.1 w.2 { m with allowed := [cpu], cur := cpu }).2.accesses =
            entry :: m.accesses ∧ entry.write = true ∧ entry.cpu = cpu :=
        ⟨_, (wrmsr_journal cpu w.1 w.2 _).1, rfl, rfl⟩
      rw [wrmsrAll, Action.bind_apply]
      generalize wrmsr cpu w.1 w.2 { m with allowed := [cpu], cur := cpu } = written at hj ⊢
      obtain ⟨e | _, m'⟩ := written
      · exact ⟨[entry], hj, entry, List.mem_singleton_self _, hentry⟩
      · obtain ⟨rest, hrest, -⟩ := wrmsrAll_attempts cpu more m'
        refine ⟨rest ++ [entry], ?_, entry, List.mem_append_right _ (List.mem_singleton_self _),
          hentry⟩
        rw [List.append_assoc]
        exact hrest.trans (congrArg (rest ++ ·) hj)
    obtain ⟨later, hlater, hall⟩ := ih (wrmsrAll cpu writes _).2
    refine ⟨later ++ first, ?_, List.forall_mem_cons.mpr ⟨?_, fun c hc => ?_⟩⟩
    · rw [sweep_cons, List.append_assoc, ← hfirst]
      exact hlater
    · obtain ⟨access, ha, h⟩ := htried
      exact ⟨access, List.mem_append_right _ ha, h⟩
    · obtain ⟨access, ha, h⟩ := hall c hc
      exact ⟨access, List.mem_append_left _ ha, h⟩

theorem Roams.of_cpus (hm : m.Bindable) (ha : m.allowed = n.affinity)
    (hcpus : ∀ cpu ∈ n.affinity, cpu < m.cpus) : m.Roams ∧ m.affinity = n.affinity := by
  refine ⟨⟨hm, ha ▸ hcpus⟩, ?_⟩
  rw [affinity, ha, affinity, List.filter_filter]
  simp

end Machine

/-! ## Visits that are sweeps -/

section Visits

variable {writes : List (UInt32 × UInt64)} {step : Pin → StateM Machine (Option SystemError)}
  {m n : Machine}

/-- A visit of one cpu: the thread goes there, the writes are made, and it gets its cpus back. -/
theorem visit_sweep (hs : Makes writes step) (hagrees : m.Agrees n) (hn : n.Roams) {cpu : Nat}
    (hcpu : cpu ∈ n.affinity) :
    let there : Machine := { n with allowed := [cpu], cur := cpu }
    let first := Machine.wrmsrAll cpu writes { m with allowed := [cpu], cur := cpu }
    ∃ pin n', Pin.on cpu n = (.ok pin, there) ∧ (step pin there).1 = failure? first.1 ∧
      (pin.release (step pin there).2).2 = n' ∧ first.2.Agrees n' ∧ n'.Roams ∧
      n'.affinity = n.affinity := by
  intro there first
  have hconfigured : ∀ c ∈ n.affinity, c < n.cpus :=
    fun c hc => hn.configured c (List.mem_filter.mp hc).1
  have hmax : cpu < Machine.maxCpus := of_decide_eq_true (List.mem_filter.mp hcpu).2
  obtain ⟨events, hstep⟩ := hs { cpu, saved := n.affinity } there
  obtain ⟨events', hw⟩ := hagrees.wrmsrAll cpu writes
  replace hstep := hstep.trans (congrArg
    (fun w => (failure? w.1, ({ w.2 with events := events } : Machine))) hw)
  have hthere : n.Spends there := Machine.spends_of_faults_eq rfl rfl
  have hspent := hthere.trans (hs.spends { cpu, saved := n.affinity } there)
  obtain ⟨cur, hrelease⟩ := Pin.release_of_bindable { cpu, saved := n.affinity }
    (hspent.bindable hn.bindable) (List.ne_nil_of_mem hcpu) (hspent.cpus ▸ hconfigured)
  refine ⟨_, _, Pin.on_of_bindable hn.bindable hmax (hconfigured cpu hcpu),
    congrArg Prod.fst hstep, hrelease, ?_, ?_⟩
  · rw [hstep]
    exact ⟨_, _, _, rfl⟩
  · exact Machine.Roams.of_cpus (hspent.bindable hn.bindable) rfl (hspent.cpus ▸ hconfigured)

theorem visitCpus_sweep (hs : Makes writes step) (hagrees : m.Agrees n) (hn : n.Roams)
    {cpus : List Nat} (hcpus : ∀ cpu ∈ cpus, cpu ∈ n.affinity) :
    ∃ n', visitCpus step cpus n =
        ((.ok (), (m.sweep writes cpus).1.map fun visit => failure? visit.2), n') ∧
      (m.sweep writes cpus).2.Agrees n' ∧ n'.Roams ∧ n'.affinity = n.affinity := by
  induction cpus generalizing m n with
  | nil => exact ⟨n, rfl, hagrees, hn, rfl⟩
  | cons cpu rest ih =>
    obtain ⟨hcpu, hrest⟩ := List.forall_mem_cons.mp hcpus
    obtain ⟨pin, next, hon, hr, hrelease, hagrees', hroams, haffinity⟩ :=
      visit_sweep hs hagrees hn hcpu
    obtain ⟨n', hvisits, hagrees'', hroams', haffinity'⟩ := ih hagrees' hroams (haffinity ▸ hrest)
    refine ⟨n', ?_, hagrees'', hroams', haffinity'.trans haffinity⟩
    rw [visitCpus_cons, hon]
    dsimp only
    rw [hrelease, hvisits, hr]
    rfl

theorem onEachCpu_sweep (hs : Makes writes step) (hm : m.Roams) :
    ∃ m', onEachCpu step m = ((.ok (m.sweep writes m.affinity).1.length,
        (m.sweep writes m.affinity).1.map fun visit => failure? visit.2), m') ∧
      (m.sweep writes m.affinity).2.Agrees m' ∧ m'.Roams ∧ m'.affinity = m.affinity := by
  obtain ⟨m', hvisits, hrest⟩ := visitCpus_sweep hs m.agrees_refl hm fun _ hc => hc
  refine ⟨m', ?_, hrest⟩
  have hcpus := congrArg List.length (Machine.cpus_sweep writes m.affinity m)
  have hlength : m.affinity.length = (m.sweep writes m.affinity).1.length :=
    hcpus.symm.trans (List.length_map _)
  rw [onEachCpu_apply]
  simp only [MachineState.machine, MachineState.setMachine, id_eq, hm.bindable.getAffinity, hvisits,
    hlength]
  rfl

end Visits

/-- Visits in ascending order end with the failure of the lowest cpu where there was one. -/
theorem Visits.verdict_eq_error {visits : Visits} {e : SystemError}
    (hv : visits.verdict = .error e) (hsorted : visits.cpus.Pairwise (· < ·)) :
    ∃ cpu, (cpu, .error e) ∈ visits ∧ ∀ other e', (other, .error e') ∈ visits → cpu ≤ other := by
  have hfound : visits.findSome? (fun visit => failure? visit.2) = some e := by
    unfold verdict at hv
    split at hv
    · cases hv
      assumption
    · cases hv
  obtain ⟨before, ⟨cpu, r⟩, after, rfl, hr, hbefore⟩ := List.findSome?_eq_some_iff.mp hfound
  obtain rfl : r = .error e := by
    cases r with
    | ok _ => cases hr
    | error e' => exact congrArg Except.error (Option.some.inj hr)
  refine ⟨cpu, by simp, fun other e' hmem => ?_⟩
  rcases List.mem_append.mp hmem with hmem | hmem
  · cases hbefore _ hmem
  · rcases List.mem_cons.mp hmem with h | hmem
    · exact Nat.le_of_eq (congrArg Prod.fst h).symm
    · rw [cpus, List.map_append, List.map_cons] at hsorted
      have hlater := (List.pairwise_cons.mp (List.pairwise_append.mp hsorted).2.1).1
      exact Nat.le_of_lt (hlater other (List.mem_map_of_mem hmem))

end BranchTrace
