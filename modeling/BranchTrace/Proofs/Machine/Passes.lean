import BranchTrace.Proofs.Machine.Bindable
import BranchTrace.Proofs.Machine.Replay

/-!
# Passes over the cpus

Switching recording on or off makes the same writes on one cpu after the other (`Pass`). A cpu
where one of them fails does not end the pass; only a cpu that cannot be pinned does.

Main statements: `onEachCpu_pass`, visits that make the same writes on every cpu are a pass;
`Pass.attempts`, the accesses of a pass, from which its registers can be read off.
-/

namespace BranchTrace

/-- The failure of a step, if it failed. -/
def failure? {ε α : Type} : Except ε α → Option ε
  | .error e => some e
  | .ok _ => none

/-- Each cpu that was visited, in order, and how its writes ended. -/
abbrev Visits := List (Nat × Except SystemError Unit)

/-- The cpus that were visited. -/
def Visits.cpus (visits : Visits) : List Nat :=
  visits.map (·.1)

/-- How visits of all cpus end: with the first failure, or with the number of cpus. -/
def Visits.verdict (visits : Visits) : Except SystemError Nat :=
  match visits.findSome? fun visit => failure? visit.2 with
  | some e => .error e
  | none => .ok visits.length

theorem Visits.verdict_eq_ok {visits : Visits} {count : Nat} (h : visits.verdict = .ok count) :
    ∀ visit ∈ visits, visit.2 = .ok () := by
  have hnone : visits.findSome? (fun visit => failure? visit.2) = none := by
    unfold verdict at h
    split at h
    · cases h
    · assumption
  intro visit hv
  have hvisit := List.findSome?_eq_none_iff.mp hnone visit hv
  cases hr : visit.2 with
  | ok _ => rfl
  | error e =>
    rw [hr] at hvisit
    cases hvisit

/-- A cpu was visited with success if all were. -/
theorem Visits.mem_of_ok {visits : Visits} (hok : ∀ visit ∈ visits, visit.2 = .ok ()) {cpu : Nat}
    (h : cpu ∈ visits.cpus) : (cpu, .ok ()) ∈ visits := by
  obtain ⟨⟨_, r⟩, hv, rfl⟩ := List.mem_map.mp h
  obtain rfl : r = .ok () := hok _ hv
  exact hv

/-- The same writes on one cpu after the other, and nothing else that touches a register. -/
inductive Pass (writes : List (UInt32 × UInt64)) : Machine → Visits → Machine → Prop where
  | done {m m' : Machine} (h : m.Untouched m') : Pass writes m [] m'
  | visit {m n m' : Machine} {visits : Visits} (cpu : Nat) (h : m.Untouched n)
      (rest : Pass writes (Machine.wrmsrAll cpu writes n).2 visits m') :
      Pass writes m ((cpu, (Machine.wrmsrAll cpu writes n).1) :: visits) m'

theorem Machine.Untouched.trans {m m' m'' : Machine} (h : m.Untouched m')
    (h' : m'.Untouched m'') : m.Untouched m'' :=
  ⟨h'.bank.trans h.bank, h'.accesses.trans h.accesses⟩

theorem Pass.of_untouched {writes : List (UInt32 × UInt64)} {m n m' : Machine} {visits : Visits}
    (h : m.Untouched n) (hp : Pass writes n visits m') : Pass writes m visits m' := by
  cases hp with
  | done h' => exact .done (h.trans h')
  | visit cpu h' rest => exact .visit cpu (h.trans h') rest

/-! ## The accesses of a pass -/

/-- These accesses are attempts at some writes on the visited cpus: no others, all of them on a cpu
whose visit succeeded, and all successful if all the visits were. -/
structure Attempts (writes : List (UInt32 × UInt64)) (visits : Visits) (tried : List Access) :
    Prop where
  only : ∀ access ∈ tried, access.write = true ∧ access.cpu ∈ visits.cpus ∧
    ∃ w ∈ writes, access.msr = w.1 ∧ ∀ value, access.value = some value → value = w.2
  all : ∀ cpu, (cpu, .ok ()) ∈ visits → ∀ w ∈ writes, ∃ access ∈ tried,
    access.write = true ∧ access.cpu = cpu ∧ access.msr = w.1 ∧ access.value = some w.2
  smooth : (∀ access ∈ tried, access.value.isSome) ↔ ∀ visit ∈ visits, visit.2 = .ok ()

namespace Attempts

variable {writes : List (UInt32 × UInt64)} {visits : Visits} {tried : List Access}

theorem nil (writes : List (UInt32 × UInt64)) : Attempts writes [] [] where
  only := nofun
  all := nofun
  smooth := ⟨nofun, nofun⟩

theorem append {visit : Nat × Except SystemError Unit} {later : List Access}
    (h : Attempts writes [visit] tried) (h' : Attempts writes visits later) :
    Attempts writes (visit :: visits) (later ++ tried) where
  only access ha := by
    rcases List.mem_append.mp ha with ha | ha
    · obtain ⟨hw, hc, hm⟩ := h'.only access ha
      exact ⟨hw, List.mem_cons_of_mem _ hc, hm⟩
    · obtain ⟨hw, hc, hm⟩ := h.only access ha
      exact ⟨hw, List.mem_singleton.mp hc ▸ List.mem_cons_self, hm⟩
  all cpu hc w hw := by
    rcases List.mem_cons.mp hc with hc | hc
    · obtain ⟨access, ha, hm⟩ := h.all cpu (List.mem_singleton.mpr hc) w hw
      exact ⟨access, List.mem_append_right _ ha, hm⟩
    · obtain ⟨access, ha, hm⟩ := h'.all cpu hc w hw
      exact ⟨access, List.mem_append_left _ ha, hm⟩
  smooth := by
    rw [List.forall_mem_append, List.forall_mem_cons, h.smooth, h'.smooth,
      List.forall_mem_singleton]
    exact and_comm

/-- A register of a cpu that was visited with success holds what is written to it. -/
theorem read (h : Attempts writes visits tried) {bank : SoftBank} {visited cpu : Nat}
    {msr : UInt32} {value : UInt64} (hok : (visited, .ok ()) ∈ visits)
    (hfile : bank.file visited = bank.file cpu) (hmem : (msr, value) ∈ writes)
    (hall : ∀ w ∈ writes, w.1 = msr → w.2 = value) : (bank.replay tried).read cpu msr = value := by
  refine SoftBank.read_replay_of_forall (fun access ha hs => ?_) ?_
  · obtain ⟨-, -, w, hw, hmsr, hvalue⟩ := h.only access ha
    obtain ⟨-, hsome, -, rfl⟩ := hs
    obtain ⟨v, hv⟩ := Option.isSome_iff_exists.mp hsome
    rw [hv, hvalue v hv, hall w hw hmsr.symm]
  · obtain ⟨access, ha, hw, rfl, hmsr, hv⟩ := h.all visited hok _ hmem
    exact ⟨access, ha, hw, by rw [hv]; rfl, hfile, hmsr⟩

/-- A register that is not written, or of a cpu that shares its file with none that was visited,
holds what it held before. -/
theorem read_of_not (h : Attempts writes visits tried) {bank : SoftBank} {cpu : Nat} {msr : UInt32}
    (hn : (∀ w ∈ writes, w.1 ≠ msr) ∨ ∀ visited ∈ visits.cpus, bank.file visited ≠ bank.file cpu) :
    (bank.replay tried).read cpu msr = bank.read cpu msr := by
  refine SoftBank.read_replay_of_forall_not fun access ha hs => ?_
  obtain ⟨-, hc, w, hw, hmsr, -⟩ := h.only access ha
  obtain ⟨-, -, hfile, rfl⟩ := hs
  rcases hn with hn | hn
  · exact hn w hw hmsr.symm
  · exact hn _ hc hfile

/-- What is written to a register last on a cpu that was visited with success. -/
theorem lastWritten (h : Attempts writes visits tried) {m m' : Machine}
    (ht : m'.accesses = tried ++ m.accesses) {cpu : Nat} {msr : UInt32} {value : UInt64}
    (hok : (cpu, .ok ()) ∈ visits) (hmem : (msr, value) ∈ writes)
    (hall : ∀ w ∈ writes, w.1 = msr → w.2 = value) : m'.lastWritten cpu msr = some value := by
  refine Machine.lastWritten_of_forall ht (fun access ha hmsr v hv => ?_) (h.all cpu hok _ hmem)
  obtain ⟨-, -, w, hw, hw1, hvalue⟩ := h.only access ha
  rw [hvalue v hv, hall w hw (hw1.symm.trans hmsr)]

theorem lastWritten_of_not (h : Attempts writes visits tried) {m m' : Machine}
    (ht : m'.accesses = tried ++ m.accesses) {cpu : Nat} (hn : cpu ∉ visits.cpus) (msr : UInt32) :
    m'.lastWritten cpu msr = m.lastWritten cpu msr :=
  Machine.lastWritten_of_forall_not ht fun access ha hs => hn (hs.2.1 ▸ (h.only access ha).2.1)

end Attempts

namespace Machine

/-- Where all that happened to the registers is told by the journal, it is these accesses. -/
theorem Writes.replay {may : Nat → UInt32 → Prop} {m m' : Machine} (h : m.Writes may m')
    {tried : List Access} (ht : m'.accesses = tried ++ m.accesses) {bank : SoftBank}
    (hb : m.bank = .soft bank) : m'.bank = .soft (bank.replay tried) := by
  obtain ⟨tried', ht', -, hbank⟩ := h
  obtain rfl : tried' = tried := List.append_cancel_right (ht'.symm.trans ht)
  exact hbank bank hb

theorem wrmsrAll_attempts (cpu : Nat) (writes : List (UInt32 × UInt64)) (m : Machine) :
    ∃ tried, (wrmsrAll cpu writes m).2.accesses = tried ++ m.accesses ∧
      Attempts writes [(cpu, (wrmsrAll cpu writes m).1)] tried := by
  induction writes generalizing m with
  | nil => exact ⟨[], rfl, nofun, nofun, by simp [wrmsrAll, Action.pure_apply]⟩
  | cons w writes ih =>
    obtain ⟨entry, hj, hwrite, hcpu, hmsr, hvalue⟩ : ∃ entry : Access,
        (wrmsr cpu w.1 w.2 m).2.accesses = entry :: m.accesses ∧ entry.write = true ∧
        entry.cpu = cpu ∧ entry.msr = w.1 ∧
        entry.value = (wrmsr cpu w.1 w.2 m).1.toOption.map fun _ => w.2 :=
      ⟨_, (wrmsr_journal cpu w.1 w.2 m).1, rfl, rfl, rfl, rfl⟩
    have hentry : entry.write = true ∧ entry.cpu ∈ [cpu] ∧
        ∃ v ∈ w :: writes, entry.msr = v.1 ∧ ∀ value, entry.value = some value → value = v.2 := by
      refine ⟨hwrite, List.mem_singleton.mpr hcpu, w, List.mem_cons_self, hmsr, fun value hv => ?_⟩
      obtain ⟨-, -, h⟩ := Option.map_eq_some_iff.mp (hvalue.symm.trans hv)
      exact h.symm
    rw [wrmsrAll, Action.bind_apply]
    generalize wrmsr cpu w.1 w.2 m = first at hj hvalue ⊢
    obtain ⟨e | _, m'⟩ := first
    · replace hvalue : entry.value = none := hvalue
      refine ⟨[entry], hj, ?_, ?_, ?_⟩
      · exact fun access ha => List.mem_singleton.mp ha ▸ hentry
      · exact fun c hc => by simp at hc
      · simp [hvalue]
    · replace hvalue : entry.value = some w.2 := hvalue
      obtain ⟨tried, ht, hrest⟩ := ih m'
      refine ⟨tried ++ [entry], ?_, ?_, ?_, ?_⟩
      · rw [List.append_assoc]
        exact ht.trans (congrArg (tried ++ ·) hj)
      · intro access ha
        rcases List.mem_append.mp ha with ha | ha
        · obtain ⟨hw, hc, v, hv, hm⟩ := hrest.only access ha
          exact ⟨hw, hc, v, List.mem_cons_of_mem _ hv, hm⟩
        · exact List.mem_singleton.mp ha ▸ hentry
      · intro c hc v hv
        rcases List.mem_cons.mp hv with rfl | hv
        · refine ⟨entry, List.mem_append_right _ (List.mem_singleton_self _), hwrite, ?_, hmsr,
            hvalue⟩
          exact hcpu.trans (congrArg Prod.fst (List.mem_singleton.mp hc)).symm
        · obtain ⟨access, ha, hm⟩ := hrest.all c hc v hv
          exact ⟨access, List.mem_append_left _ ha, hm⟩
      · rw [List.forall_mem_append, hrest.smooth]
        simp [hvalue]

end Machine

namespace Pass

variable {writes : List (UInt32 × UInt64)} {m m' : Machine} {visits : Visits}

theorem writes_all (h : Pass writes m visits m') :
    m.Writes (fun cpu msr => cpu ∈ visits.cpus ∧ ∃ w ∈ writes, msr = w.1) m' := by
  induction h with
  | done h => exact h.writes
  | visit cpu h rest ih =>
    refine h.writes.trans (Machine.Writes.trans ?_ (ih.mono ?_))
    · exact Machine.writes_wrmsrAll (fun w hw => ⟨List.mem_cons_self, w, hw, rfl⟩) _
    · exact fun c msr hc => ⟨List.mem_cons_of_mem _ hc.1, hc.2⟩

theorem attempts (h : Pass writes m visits m') :
    ∃ tried, m'.accesses = tried ++ m.accesses ∧ Attempts writes visits tried := by
  induction h with
  | done h => exact ⟨[], h.accesses, .nil writes⟩
  | @visit m n m' visits cpu h rest ih =>
    obtain ⟨tried, ht, hfirst⟩ := Machine.wrmsrAll_attempts cpu writes n
    obtain ⟨later, hl, hrest⟩ := ih
    exact ⟨later ++ tried, by rw [hl, ht, h.accesses, List.append_assoc], hfirst.append hrest⟩

/-- Every access of a pass succeeds if and only if every visit does. -/
theorem smooth_iff (h : Pass writes m visits m') :
    m.Smooth m' ↔ ∀ visit ∈ visits, visit.2 = .ok () := by
  obtain ⟨tried, ht, ha⟩ := h.attempts
  rw [← ha.smooth]
  constructor
  · rintro ⟨tried', ht', hs⟩
    obtain rfl : tried' = tried := List.append_cancel_right (ht'.symm.trans ht)
    exact hs
  · exact fun hs => ⟨tried, ht, hs⟩

end Pass

theorem Pass.append_untouched {writes : List (UInt32 × UInt64)} {m m' m'' : Machine}
    {visits : Visits} (hp : Pass writes m visits m') (h : m'.Untouched m'') :
    Pass writes m visits m'' := by
  induction hp with
  | done h' => exact .done (h'.trans h)
  | visit cpu h' rest ih => exact .visit cpu h' (ih h)

/-! ## Pins of given cpus -/

theorem Machine.untouched_setAffinity (cpus : List Nat) (m : Machine) :
    m.Untouched (setAffinity cpus m).2 := by
  rcases setAffinity_cases cpus m with ⟨e, faults, h⟩ | ⟨faults, m', hb, h⟩
  · exact h ▸ ⟨rfl, rfl⟩
  · obtain ⟨-, cur, rfl, -⟩ := bind?_eq_some hb
    exact h ▸ ⟨rfl, rfl⟩

namespace Pin

/-- The pin to a cpu cannot be taken, or it binds the thread there. -/
theorem on_cases (cpu : Nat) (m : Machine) :
    (∃ e faults, on cpu m = (.error e, { m with faults })) ∨
      ∃ faults, on cpu m = (.ok { cpu, saved := m.allowed.filter (· < Machine.maxCpus) },
        { m with faults, allowed := [cpu], cur := cpu }) := by
  simp only [on, Action.bind_apply, Action.pure_apply]
  rcases Machine.getAffinity_cases m with ⟨e, faults, h⟩ | ⟨faults, h⟩
  · exact .inl ⟨e, faults, by rw [h]⟩
  rw [h]
  dsimp only [bindTo]
  by_cases hmax : cpu < Machine.maxCpus
  · rw [if_pos hmax]
    rcases Machine.setAffinity_cases [cpu] { m with faults } with
      ⟨e, faults', h⟩ | ⟨faults', m', hb, h⟩
    · exact .inl ⟨e, faults', by rw [h]⟩
    · exact .inr ⟨faults', by rw [h, Machine.bind?_singleton hb]⟩
  · rw [if_neg hmax]
    exact .inl ⟨_, faults, rfl⟩

theorem untouched_on (cpu : Nat) (m : Machine) : m.Untouched (on cpu m).2 := by
  rcases on_cases cpu m with ⟨e, faults, h⟩ | ⟨faults, h⟩ <;> exact h ▸ ⟨rfl, rfl⟩

theorem untouched_current (m : Machine) : m.Untouched (current m).2 := by
  rcases current_cases m with ⟨e, faults, h⟩ | ⟨faults, h, -⟩ <;> exact h ▸ ⟨rfl, rfl⟩

theorem untouched_release (pin : Pin) (m : Machine) : m.Untouched (pin.release m).2 := by
  rcases release_cases pin m with ⟨e, faults, h⟩ | ⟨faults, m', hb, h⟩
  · rw [h]
    exact ⟨rfl, rfl⟩
  · obtain ⟨-, cur, rfl, -⟩ := Machine.bind?_eq_some hb
    rw [h]
    exact ⟨rfl, rfl⟩

end Pin

/-! ## Visits -/

section Visits

variable {writes : List (UInt32 × UInt64)}

/-- A step on a pinned cpu that makes some writes there, answers their failure, and does nothing
else but report events. -/
def Makes (writes : List (UInt32 × UInt64)) (step : Pin → StateM Machine (Option SystemError)) :
    Prop :=
  ∀ pin m, ∃ events, step pin m = (failure? (Machine.wrmsrAll pin.cpu writes m).1,
    { (Machine.wrmsrAll pin.cpu writes m).2 with events })

theorem Makes.spends {step : Pin → StateM Machine (Option SystemError)} (hs : Makes writes step)
    (pin : Pin) (m : Machine) : m.Spends (step pin m).2 := by
  obtain ⟨events, h⟩ := hs pin m
  rw [h]
  exact (Machine.spends_wrmsrAll pin.cpu writes m).trans (Machine.spends_of_faults_eq rfl rfl)

theorem visitCpus_cons {α : Type} (step : Pin → StateM Machine α) (cpu : Nat) (rest : List Nat)
    (m : Machine) :
    visitCpus step (cpu :: rest) m =
      match Pin.on cpu m with
      | (.error e, m) => ((.error e, []), m)
      | (.ok pin, m) =>
        let next := visitCpus step rest (pin.release (step pin m).2).2
        ((next.1.1, (step pin m).1 :: next.1.2), next.2) := by
  rw [visitCpus, pinned_apply]
  simp only [MachineState.machine, MachineState.setMachine, id_eq]
  rcases Pin.on cpu m with ⟨e | pin, m⟩ <;> rfl

theorem visitCpus_pass {step : Pin → StateM Machine (Option SystemError)} (hs : Makes writes step)
    (cpus : List Nat) (m : Machine) :
    ∃ visits : Visits, Pass writes m visits (visitCpus step cpus m).2 ∧
      (visitCpus step cpus m).1.2 = visits.map (fun visit => failure? visit.2) ∧
      ((visitCpus step cpus m).1.1 = .ok () → visits.cpus = cpus) := by
  induction cpus generalizing m with
  | nil => exact ⟨[], .done ⟨rfl, rfl⟩, rfl, fun _ => rfl⟩
  | cons cpu rest ih =>
    rw [visitCpus_cons]
    rcases Pin.on_cases cpu m with ⟨e, faults, h⟩ | ⟨faults, h⟩
    · rw [h]
      exact ⟨[], .done ⟨rfl, rfl⟩, rfl, nofun⟩
    · rw [h]
      dsimp only
      generalize hpin : Pin.mk cpu (m.allowed.filter (· < Machine.maxCpus)) = pin
      have hcpu : pin.cpu = cpu := by rw [← hpin]
      have hbound : m.Untouched { m with faults, allowed := [cpu], cur := cpu } := ⟨rfl, rfl⟩
      generalize { m with faults, allowed := [cpu], cur := cpu } = n at hbound ⊢
      obtain ⟨events, hstep⟩ := hs pin n
      rw [hcpu] at hstep
      rw [hstep]
      have htold : (Machine.wrmsrAll cpu writes n).2.Untouched
        { (Machine.wrmsrAll cpu writes n).2 with events } := ⟨rfl, rfl⟩
      have hrelease := htold.trans (pin.untouched_release _)
      obtain ⟨visits, hp, hseen, hall⟩ := ih (pin.release _).2
      refine ⟨(cpu, (Machine.wrmsrAll cpu writes n).1) :: visits, ?_, ?_, ?_⟩
      · exact .visit cpu hbound (hp.of_untouched hrelease)
      · exact congrArg (failure? (Machine.wrmsrAll cpu writes n).1 :: ·) hseen
      · exact fun hok => congrArg (cpu :: ·) (hall hok)

end Visits

/-! ## Visits of all cpus -/

theorem onEachCpu_apply {σ α : Type} [MachineState σ] (step : Pin → StateM σ α) (s : σ) :
    onEachCpu step s = match Machine.getAffinity (MachineState.machine s) with
      | (.error e, m) => ((.error e, []), MachineState.setMachine s m)
      | (.ok cpus, m) =>
        let visited := visitCpus step cpus (MachineState.setMachine s m)
        ((visited.1.1.map fun _ => cpus.length, visited.1.2), visited.2) := by
  rw [onEachCpu, tryMachine, allowedCpus]
  rcases Machine.getAffinity (MachineState.machine s) with ⟨e | cpus, m⟩ <;> rfl

theorem onEachCpu_pass {writes : List (UInt32 × UInt64)}
    {step : Pin → StateM Machine (Option SystemError)} (hs : Makes writes step) (m : Machine) :
    ∃ visits : Visits, Pass writes m visits (onEachCpu step m).2 ∧
      ∀ count, (onEachCpu step m).1.1 = .ok count →
        visits.cpus = m.affinity ∧ count = visits.length ∧
        (onEachCpu step m).1.2 = visits.map fun visit => failure? visit.2 := by
  rw [onEachCpu_apply]
  simp only [MachineState.machine, MachineState.setMachine, id_eq]
  rcases Machine.getAffinity_cases m with ⟨e, faults, h⟩ | ⟨faults, h⟩
  · rw [h]
    exact ⟨[], .done ⟨rfl, rfl⟩, nofun⟩
  · rw [h, ← Machine.affinity]
    dsimp only
    have hu : m.Untouched { m with faults } := ⟨rfl, rfl⟩
    obtain ⟨visits, hp, hseen, hall⟩ := visitCpus_pass hs m.affinity { m with faults }
    refine ⟨visits, hp.of_untouched hu, fun count hcount => ?_⟩
    generalize visitCpus step m.affinity { m with faults } = visited at hseen hall hcount ⊢
    obtain ⟨⟨e | _, failures⟩, m'⟩ := visited
    · cases hcount
    · have hcpus := hall rfl
      cases hcount
      exact ⟨hcpus, by rw [← hcpus, Visits.cpus, List.length_map], hseen⟩

end BranchTrace
