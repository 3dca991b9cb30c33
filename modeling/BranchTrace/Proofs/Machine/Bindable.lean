import BranchTrace.Proofs.Machine.Discipline

/-!
# Machines that let the thread be bound

On a machine whose plan has no failure for the calls about affinity (`Machine.Bindable`), every
configured cpu can be pinned (`Pin.on_of_bindable`), and this stays so: register accesses and pins
use up the plan of failures and never add to it (`Machine.Spends`).
-/

namespace BranchTrace

/-- The calls that read and bind the cpus of the thread do not fail. -/
def Machine.Bindable (m : Machine) : Prop :=
  ∀ fault ∈ m.faults, fault.call ≠ .getaffinity ∧ fault.call ≠ .setaffinity

instance (m : Machine) : Decidable m.Bindable :=
  inferInstanceAs (Decidable (∀ fault ∈ m.faults, _))

/-- A plan of failures is used up, and never grows. -/
theorem Fault.exists_of_mem_trip {call : Call} {plan : List Fault} {fault : Fault}
    (h : fault ∈ (trip call plan).2) : ∃ planned ∈ plan, planned.call = fault.call := by
  induction plan with
  | nil => exact absurd h List.not_mem_nil
  | cons first rest ih =>
    rw [trip] at h
    split at h
    · split at h
      · simp only [strike] at h
        split at h
        · exact ⟨fault, h, rfl⟩
        split at h
        · exact ⟨fault, List.mem_cons_of_mem _ h, rfl⟩
        · rcases List.mem_cons.mp h with rfl | h
          · exact ⟨first, List.mem_cons_self, rfl⟩
          · exact ⟨fault, List.mem_cons_of_mem _ h, rfl⟩
      · rcases List.mem_cons.mp h with rfl | h
        · exact ⟨first, List.mem_cons_self, rfl⟩
        · exact ⟨fault, List.mem_cons_of_mem _ h, rfl⟩
    · rcases List.mem_cons.mp h with rfl | h
      · exact ⟨fault, List.mem_cons_self, rfl⟩
      · obtain ⟨planned, hp, hc⟩ := ih h
        exact ⟨planned, List.mem_cons_of_mem _ hp, hc⟩

/-- A write through a register node, step by step. -/
theorem NodeBank.write_apply (bank : NodeBank) (cpu : Nat) (msr : UInt32) (value : UInt64)
    (m : Machine) :
    bank.write cpu msr value m =
      match bank.node cpu with
      | .error e => (.error e, m)
      | .ok place =>
        let tripped := (Machine.trip .pwrite m).2
        match cutShort (Machine.trip .pwrite m).1 registerBytes with
        | .error e => (.error e, tripped)
        | .ok count =>
          match m.files.writeAt place msr.toNat
            ((littleEndian registerBytes value.toNat).take count) with
          | .error errno => (.error (.os errno), tripped)
          | .ok (moved, files) =>
            (if moved = registerBytes then .ok ()
              else .error (.other .writeZero
                ("short write of msr " ++ Text.hex msr.toNat ++ " on cpu " ++ toString cpu)),
              { tripped with files }) := by
  rw [NodeBank.write, Action.bind_apply, Action.liftM_apply]
  cases bank.node cpu with
  | error e => rfl
  | ok place =>
    have hfiles : (Machine.trip .pwrite m).2.files = m.files := rfl
    simp only [Action.bind_apply, Action.state_apply, Action.liftM_apply]
    cases cutShort (Machine.trip .pwrite m).1 registerBytes with
    | error e => rfl
    | ok count =>
      simp only [Action.get_apply, hfiles]
      rcases m.files.writeAt place msr.toNat
        ((littleEndian registerBytes value.toNat).take count) with errno | ⟨moved, files⟩
      · rfl
      · simp only [Action.bind_apply, Action.modify_apply]
        split <;> rfl

namespace Machine

variable {m m' m'' : Machine}

/-- The computer is the same, and its plan of failures may be used up. -/
structure Spends (m m' : Machine) : Prop where
  cpus : m'.cpus = m.cpus
  faults : ∀ fault ∈ m'.faults, ∃ planned ∈ m.faults, planned.call = fault.call

theorem Spends.trans (h : m.Spends m') (h' : m'.Spends m'') : m.Spends m'' := by
  refine ⟨h'.cpus.trans h.cpus, fun fault hf => ?_⟩
  obtain ⟨planned, hp, hc⟩ := h'.faults fault hf
  obtain ⟨earlier, he, hc'⟩ := h.faults planned hp
  exact ⟨earlier, he, hc'.trans hc⟩

theorem spends_of_faults_eq (hc : m'.cpus = m.cpus) (hf : m'.faults = m.faults) : m.Spends m' :=
  ⟨hc, fun fault h => ⟨fault, hf ▸ h, rfl⟩⟩

theorem Spends.bindable (h : m.Spends m') (hm : m.Bindable) : m'.Bindable := by
  intro fault hf
  obtain ⟨planned, hp, hc⟩ := h.faults fault hf
  rw [← hc]
  exact hm planned hp

theorem spends_trip (call : Call) (m : Machine) : m.Spends (trip call m).2 :=
  ⟨rfl, fun _ => Fault.exists_of_mem_trip⟩

theorem spends_guarded {α : Type} {call : Call} {step : Action Machine SystemError α}
    (hs : ∀ m : Machine, m.Spends (step m).2) (m : Machine) :
    m.Spends (guarded call step m).2 := by
  have ht := spends_trip call m
  rw [guarded]
  rcases h : trip call m with ⟨_ | fault, m'⟩
  · rw [h] at ht
    exact ht.trans (hs m')
  · rwa [h] at ht

theorem spends_nodeWrite (bank : NodeBank) (cpu : Nat) (msr : UInt32) (value : UInt64)
    (m : Machine) : m.Spends (bank.write cpu msr value m).2 := by
  have ht := spends_trip .pwrite m
  rw [NodeBank.write_apply]
  cases bank.node cpu with
  | error e => exact spends_of_faults_eq rfl rfl
  | ok place =>
    dsimp only
    cases NodeBank.cutShort (trip .pwrite m).1 registerBytes with
    | error e => exact ht
    | ok count =>
      dsimp only
      rcases m.files.writeAt place msr.toNat
        ((littleEndian registerBytes value.toNat).take count) with errno | ⟨moved, files⟩
      · exact ht
      · exact ht.trans (spends_of_faults_eq rfl rfl)

theorem spends_wrmsr (cpu : Nat) (msr : UInt32) (value : UInt64) (m : Machine) :
    m.Spends (wrmsr cpu msr value m).2 := by
  have hjournal : ∀ (n : Machine) (r : Option UInt64), n.Spends (n.journal true cpu msr r) :=
    fun _ _ => spends_of_faults_eq rfl rfl
  unfold wrmsr
  cases m.bank with
  | soft bank =>
    exact (spends_guarded (fun _ => spends_of_faults_eq rfl rfl) m).trans (hjournal _ _)
  | nodes bank => exact (spends_nodeWrite bank cpu msr value m).trans (hjournal _ _)

theorem spends_wrmsrAll (cpu : Nat) (writes : List (UInt32 × UInt64)) (m : Machine) :
    m.Spends (wrmsrAll cpu writes m).2 := by
  induction writes generalizing m with
  | nil => exact spends_of_faults_eq rfl rfl
  | cons w writes ih =>
    have hw := spends_wrmsr cpu w.1 w.2 m
    rw [wrmsrAll, Action.bind_apply]
    rcases h : wrmsr cpu w.1 w.2 m with ⟨e | _, m'⟩
    · rwa [h] at hw
    · rw [h] at hw
      exact hw.trans (ih m')

/-! ## Binding the thread -/

theorem guarded_of_forall_ne {α : Type} {call : Call} (h : ∀ fault ∈ m.faults, fault.call ≠ call)
    (step : Action Machine SystemError α) : guarded call step m = step m := by
  rw [guarded, trip, Fault.trip_of_forall_ne h]

/-- The cpus the thread may run on, as a call for them tells. -/
def affinity (m : Machine) : List Nat :=
  m.allowed.filter (· < maxCpus)

/-- Every cpu that the thread may run on is configured, and it can be bound to each of them. -/
structure Roams (m : Machine) : Prop where
  bindable : m.Bindable
  configured : ∀ cpu ∈ m.allowed, cpu < m.cpus

instance (m : Machine) : Decidable m.Roams :=
  decidable_of_iff (m.Bindable ∧ ∀ cpu ∈ m.allowed, cpu < m.cpus)
    ⟨fun h => ⟨h.1, h.2⟩, fun h => ⟨h.bindable, h.configured⟩⟩

theorem Bindable.getAffinity (hm : m.Bindable) : getAffinity m = (.ok m.affinity, m) :=
  guarded_of_forall_ne (fun fault hf => (hm fault hf).1) _

theorem Bindable.setAffinity (hm : m.Bindable) (cpus : List Nat) :
    setAffinity cpus m = match m.bind? cpus with
      | none => (.error (.os Errno.einval), m)
      | some m => (.ok (), m) :=
  guarded_of_forall_ne (fun fault hf => (hm fault hf).2) _

end Machine

namespace Pin

variable {m : Machine}

/-- A configured cpu can be pinned. -/
theorem on_of_bindable (hm : m.Bindable) {cpu : Nat} (hmax : cpu < Machine.maxCpus)
    (hcpu : cpu < m.cpus) :
    on cpu m = (.ok { cpu, saved := m.affinity }, { m with allowed := [cpu], cur := cpu }) := by
  have hb : m.bind? [cpu] = some { m with allowed := [cpu], cur := cpu } := by
    obtain ⟨m', h⟩ : ∃ m', m.bind? [cpu] = some m' := by
      simp [Machine.bind?, hcpu]
    rw [h, Machine.bind?_singleton h]
  simp only [on, Action.bind_apply, Action.pure_apply, hm.getAffinity, bindTo, if_pos hmax,
    hm.setAffinity, hb]

/-- The thread gets configured cpus back. -/
theorem release_of_bindable (pin : Pin) (hm : m.Bindable) (hne : pin.saved ≠ [])
    (hsaved : ∀ cpu ∈ pin.saved, cpu < m.cpus) :
    ∃ cur, (pin.release m).2 = { m with allowed := pin.saved, cur } := by
  have hfilter : pin.saved.filter (· < m.cpus) = pin.saved :=
    List.filter_eq_self.mpr fun cpu hc => decide_eq_true (hsaved cpu hc)
  obtain ⟨lowest, rest, hl⟩ := List.exists_cons_of_ne_nil hne
  refine ⟨if m.cur ∈ pin.saved then m.cur else lowest, ?_⟩
  rw [release, hm.setAffinity, Machine.bind?, hfilter, hl]

end Pin

end BranchTrace
