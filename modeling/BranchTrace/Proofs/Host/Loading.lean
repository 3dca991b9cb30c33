import BranchTrace.Host.Lifecycle
import BranchTrace.Proofs.Host.Notifying
import BranchTrace.Proofs.Lbr.Switching
import BranchTrace.Proofs.Machine.Sweep

/-!
# Loading and unloading, step by step

What bringing tracing up and taking it down come to on any platform: `broadcast_pass` for the
switching of all cpus, `load_apply` and `unload_apply` for the rest, which is what they do to the
registrations, the tracers and the events.
-/

namespace BranchTrace

open MachineState

/-! ## Broadcasts -/

section Broadcast

variable {σ : Type} [MachineState σ]

theorem onMachine_apply {α : Type} (step : StateM Machine α) (s : σ) :
    onMachine step s = ((step (machine s)).1, setMachine s (step (machine s)).2) := rfl

/-- Visits that change the machine alone are visits of the machine. -/
theorem visitCpus_onMachine {α : Type} (step : Pin → StateM Machine α) (cpus : List Nat) :
    visitCpus (σ := σ) (fun pin => onMachine (step pin)) cpus =
      onMachine (visitCpus step cpus) := by
  funext s
  induction cpus generalizing s with
  | nil => exact congrArg _ (setMachine_machine s).symm
  | cons cpu rest ih =>
    rw [visitCpus, pinned_apply, onMachine, visitCpus_cons]
    rcases Pin.on cpu (machine s) with ⟨e | pin, m⟩
    · rfl
    · have hlift : (ExceptT.lift (onMachine (step pin)) : Action σ SystemError α) (setMachine s m) =
          (.ok (step pin m).1, setMachine s (step pin m).2) := by
        show (Except.ok (step pin (machine (setMachine s m))).1, setMachine (setMachine s m) _) = _
        rw [machine_setMachine, setMachine_setMachine]
      simp only [hlift, machine_setMachine, setMachine_setMachine, ih, onMachine_apply]

/-- Switching one pinned cpu: the failure, if it fails, which is reported too. -/
def attempt (switch : Switch) (step : Nat → Action Machine SystemError Unit) (pin : Pin) :
    StateM Machine (Option SystemError) := fun m =>
  match step pin.cpu m with
  | (.ok (), m) => (none, m)
  | (.error e, m) => (some e, (report (.cpuFailed switch pin.cpu e) m).2)

/-- The same inside a state that contains a machine. -/
def attemptOn (switch : Switch) (step : Nat → Action Machine SystemError Unit) (pin : Pin) :
    StateM σ (Option SystemError) := do
  match ← (tryMachine id (step pin.cpu)).run with
  | .ok () => return none
  | .error e =>
    report (.cpuFailed switch pin.cpu e)
    return some e

theorem attemptOn_apply (switch : Switch) (step : Nat → Action Machine SystemError Unit) (pin : Pin)
    (s : σ) : attemptOn switch step pin s = onMachine (attempt switch step pin) s := by
  rw [attemptOn, stateM_bind_apply, ExceptT.run, onMachine_apply, attempt, tryMachine]
  rcases step pin.cpu (machine s) with ⟨e | _, m⟩
  · show (some e, setMachine (setMachine s m) (report _ (machine (setMachine s m))).2) = _
    rw [machine_setMachine, setMachine_setMachine]
    rfl
  · rfl

/-- How a broadcast ends, from how its visits did. -/
def concluded : Except SystemError Nat × List (Option SystemError) → Except SystemError Nat
  | (.error e, _) => .error e
  | (.ok count, failures) =>
    match failures.findSome? id with
    | some e => .error e
    | none => .ok count

theorem onEachCpu_onMachine {α : Type} (step : Pin → StateM Machine α) (s : σ) :
    onEachCpu (fun pin => onMachine (step pin)) s = onMachine (onEachCpu step) s := by
  have hmachine : ∀ m : Machine, MachineState.machine m = m := fun _ => rfl
  rw [onEachCpu_apply, onMachine_apply, onEachCpu_apply, hmachine]
  rcases Machine.getAffinity (machine s) with ⟨e | cpus, m⟩
  · rfl
  · simp only [visitCpus_onMachine, onMachine_apply, machine_setMachine, setMachine_setMachine]
    rfl

/-- A broadcast is one of the machine. -/
theorem broadcast_apply (switch : Switch) (step : Nat → Action Machine SystemError Unit) (s : σ) :
    broadcast switch step s =
      (concluded (onEachCpu (attempt switch step) (machine s)).1,
        setMachine s (onEachCpu (attempt switch step) (machine s)).2) := by
  have hattempts : (attemptOn switch step : Pin → StateM σ _) =
      fun pin => onMachine (attempt switch step pin) := funext₂ (attemptOn_apply switch step)
  have hvisits : onEachCpu (attemptOn switch step) s = _ :=
    hattempts ▸ onEachCpu_onMachine (attempt switch step) s
  change (onEachCpu (attemptOn switch step) >>= _) s = _
  rw [stateM_bind_apply, hvisits, onMachine_apply]
  rcases onEachCpu (attempt switch step) (machine s) with ⟨⟨e | count, failures⟩, m⟩
  · rfl
  · dsimp only [concluded]
    cases failures.findSome? id <;> rfl

/-! ## Switching all cpus -/

theorem makes_attempt (capacity : Nat) (switch : Switch) :
    Makes (Lbr.switchWrites capacity switch) (attempt switch (Lbr.switch capacity switch)) := by
  intro pin m
  have hs := Machine.silent_wrmsrAll pin.cpu (Lbr.switchWrites capacity switch) m
    (.switchingCpu switch pin.cpu :: m.events)
  have hreported : (report (.switchingCpu switch pin.cpu) m).2 =
    { m with events := .switchingCpu switch pin.cpu :: m.events } := rfl
  rw [attempt, Lbr.switch_apply, hreported, hs]
  rcases Machine.wrmsrAll pin.cpu (Lbr.switchWrites capacity switch) m with ⟨e | _, n⟩ <;>
    exact ⟨_, rfl⟩

/-- How a broadcast ends, if all cpus were visited. -/
theorem concluded_visits (visits : Visits) :
    concluded (.ok visits.length, visits.map fun visit => failure? visit.2) = visits.verdict := by
  have hfound : (visits.map fun visit => failure? visit.2).findSome? id =
      visits.findSome? fun visit => failure? visit.2 := by
    rw [List.findSome?_map]
    rfl
  cases hv : visits.findSome? fun visit => failure? visit.2 with
  | none => simp only [concluded, Visits.verdict, hfound, hv]
  | some e => simp only [concluded, Visits.verdict, hfound, hv]

/-- A thread that can be moved to all its cpus sweeps them. -/
theorem broadcast_sweep (capacity : Nat) (switch : Switch) {s : σ} (hm : (machine s).Roams) :
    ∃ m, broadcast switch (Lbr.switch capacity switch) s =
        (((machine s).sweep (Lbr.switchWrites capacity switch) (machine s).affinity).1.verdict,
          setMachine s m) ∧
      ((machine s).sweep (Lbr.switchWrites capacity switch) (machine s).affinity).2.Agrees m ∧
      m.Roams ∧ m.affinity = (machine s).affinity := by
  obtain ⟨m, h, hrest⟩ := onEachCpu_sweep (makes_attempt capacity switch) hm
  refine ⟨m, ?_, hrest⟩
  rw [broadcast_apply, h, concluded_visits]

/-- Recording is switched on the cpus of the thread in order, and the broadcast goes by what
happened there; only a thread that cannot be moved to all of them ends it early. -/
theorem broadcast_pass (capacity : Nat) (switch : Switch) (s : σ) :
    ∃ (visits : Visits) (r : Except SystemError Nat) (m : Machine),
      broadcast switch (Lbr.switch capacity switch) s = (r, setMachine s m) ∧
      Pass (Lbr.switchWrites capacity switch) (machine s) visits m ∧
      ((∃ e, r = .error e) ∧ ¬(machine s).Roams ∨
        visits.cpus = (machine s).affinity ∧ r = visits.verdict) := by
  obtain ⟨visits, hp, hall⟩ := onEachCpu_pass (makes_attempt capacity switch) (machine s)
  refine ⟨visits, _, _, broadcast_apply .., hp, ?_⟩
  rcases h : onEachCpu (attempt switch (Lbr.switch capacity switch)) (machine s) with
    ⟨⟨e | count, failures⟩, m⟩
  · refine .inl ⟨⟨e, rfl⟩, fun hm => ?_⟩
    obtain ⟨m', hsweep, -⟩ := onEachCpu_sweep (makes_attempt capacity switch) hm
    cases h.symm.trans hsweep
  · rw [h] at hall
    obtain ⟨hcpus, rfl, rfl⟩ := hall count rfl
    exact .inr ⟨hcpus, concluded_visits visits⟩

end Broadcast

/-! ## Taking tracing down -/

/-- A host without the registrations of a tracer. -/
def Host.withdrawn (host : Host) (id : Nat) : Host :=
  ((host.unregisterNotifier (.tracer id)).unregisterHook forkSymbol).removeDevice deviceName

theorem Host.createDevice_eq (host : Host) (name : String) (client : Client) :
    host.createDevice name client =
      if host.refused = some .device then .error (.os Errno.ebusy)
      else if (host.devices.lookup name).isSome then .error (.os Errno.eexist)
      else .ok { host with
        devices := insertKey name client host.devices
        changes := .createDevice name :: host.changes } := by
  rw [createDevice, accepts]
  split
  · rfl
  · show (if _ then _ else _) = _
    split <;> rfl

theorem Host.registerHook_eq (host : Host) (symbol : String) (client : Client) :
    host.registerHook symbol client =
      if host.refused = some .forkHook then .error (.os Errno.ebusy)
      else .ok { host with
        hooks := insertKey symbol client host.hooks
        changes := .registerHook symbol :: host.changes } := by
  rw [registerHook, accepts]
  split <;> rfl

theorem Host.registerNotifier_eq (host : Host) (client : Client) :
    host.registerNotifier client =
      if host.refused = some .notifier then .error (.os Errno.ebusy)
      else .ok { host with
        notifiers := host.notifiers ++ [client]
        changes := .registerNotifier :: host.changes } := by
  rw [registerNotifier, accepts]
  split <;> rfl

/-- A host with the registrations of a tracer. -/
def Host.enlisted (host : Host) (id : Nat) : Host :=
  { host with
    notifiers := host.notifiers ++ [.tracer id]
    hooks := insertKey forkSymbol (.tracer id) host.hooks
    devices := insertKey deviceName (.tracer id) host.devices
    changes := .registerNotifier :: .registerHook forkSymbol :: .createDevice deviceName ::
      host.changes }

namespace Platform

variable {s : Platform} {id : Nat} {config : Config}

theorem drain_apply (t : Tracing) :
    Tracer.drain t = (t.store.drain.1,
      { store := t.store.drain.2
        machine := (report (.freed t.store.drain.1) t.machine).2 }) := rfl

/-- Taking tracing down empties the store, switches recording off, and withdraws the registrations,
whatever happens on the way. -/
theorem unload_apply (h : s.Has id config) :
    (∃ (t : Platform) (events events' : List Event), t.machine = { s.machine with events } ∧
        (unload id s).2.machine =
          { (broadcast .disable (Lbr.disable config.capacity) t).2.machine with
            events := events' }) ∧
      (unload id s).2.host = s.host.withdrawn id ∧
      ((unload id s).2.tracing id).store = (s.tracing id).store.drain.2 ∧
      (unload id s).2.Has id config := by
  have hcapacity : ((s.tracers[id]?).map (·.config.capacity)).getD 0 = config.capacity := by
    obtain ⟨tracer, ht, rfl⟩ := Option.map_eq_some_iff.mp h
    rw [ht]
    rfl
  obtain ⟨hfreed, htracing, hhas, hhost⟩ := onTracer_spec h 0 fun _ => Tracer.drain
  have hget : (get : StateM Platform Platform) s = (s, s) := rfl
  rw [unload]
  simp only [stateM_bind_apply, hget, hcapacity]
  generalize onTracer id 0 (fun _ => Tracer.drain) s = drained at hfreed htracing hhas hhost ⊢
  obtain ⟨freed, t⟩ := drained
  rw [drain_apply] at htracing
  have hmachine : t.machine =
      { s.machine with events := .freed (s.tracing id).store.drain.1 :: s.machine.events } :=
    congrArg Tracing.machine htracing
  have hstore : (t.tracing id).store = (s.tracing id).store.drain.2 :=
    congrArg Tracing.store htracing
  obtain ⟨visits, r, m, hb, -⟩ := broadcast_pass config.capacity .disable t
  have hdisable : broadcast .disable (Lbr.disable config.capacity) t =
    (r, { t with machine := m }) := hb
  refine ⟨⟨t, .freed (s.tracing id).store.drain.1 :: s.machine.events, ?_⟩, ?_⟩
  · simp only [hdisable]
    obtain e | count := r <;> exact ⟨_, hmachine, rfl⟩
  · simp only [hdisable]
    obtain e | count := r <;> exact ⟨congrArg (Host.withdrawn · id) hhost, hstore, hhas⟩

/-- Recording is switched off on cpus of the thread, on all of them if it can be moved there. -/
theorem unload_pass (h : s.Has id config) :
    ∃ visits, Pass (Lbr.switchWrites config.capacity .disable) s.machine visits
      (unload id s).2.machine ∧ (s.machine.Roams → visits.cpus = s.machine.affinity) := by
  obtain ⟨⟨t, events, events', ht, hlast⟩, -⟩ := unload_apply h
  obtain ⟨visits, r, m, hb, hp, hr⟩ := broadcast_pass config.capacity .disable t
  have hdisable : (broadcast .disable (Lbr.disable config.capacity) t).2.machine = m :=
    congrArg (·.2.machine) hb
  rw [hlast, hdisable]
  have hstart : s.machine.Untouched t.machine := ht ▸ ⟨rfl, rfl⟩
  refine ⟨visits, (hp.of_untouched hstart).append_untouched ⟨rfl, rfl⟩, fun hm => ?_⟩
  have hroams : t.machine.Roams := ht ▸ ⟨hm.bindable, hm.configured⟩
  have haffinity : t.machine.affinity = s.machine.affinity := ht ▸ rfl
  rcases hr with ⟨-, hn⟩ | ⟨hcpus, -⟩
  · exact absurd hroams hn
  · exact hcpus.trans haffinity

/-- The cpus of a thread that can be moved to all of them are swept. -/
theorem unload_sweep (h : s.Has id config) (hm : s.machine.Roams) :
    (s.machine.sweep (Lbr.switchWrites config.capacity .disable) s.machine.affinity).2.Agrees
      (unload id s).2.machine := by
  obtain ⟨⟨t, events, events', ht, hlast⟩, -⟩ := unload_apply h
  have hroams : t.machine.Roams := ht ▸ ⟨hm.bindable, hm.configured⟩
  have haffinity : t.machine.affinity = s.machine.affinity := ht ▸ rfl
  have hstart : s.machine.Agrees t.machine := ht ▸ ⟨_, _, _, rfl⟩
  obtain ⟨m, hb, hagrees, -⟩ := broadcast_sweep config.capacity .disable (s := t) hroams
  have hdisable : (broadcast .disable (Lbr.disable config.capacity) t).2.machine = m :=
    congrArg (·.2.machine) hb
  rw [hlast, hdisable]
  have hswept := (hstart.sweep _ s.machine.affinity).2.trans (haffinity ▸ hagrees)
  exact hswept.trans ⟨_, _, _, rfl⟩

/-! ## Bringing tracing up -/

/-- A platform where a new tracer is set up. -/
def begun (config : Config) (s : Platform) : Platform :=
  { s with
    machine := (report (.initializing config.capacity config.defaultSelect) s.machine).2
    tracers := s.tracers.push (.new config) }

/-- Registers a tracer as device, hook and notifier: why that failed, if it did, and the host after
it, which has none of the registrations then. -/
def enlist (id : Nat) (host : Host) : Option TraceError × Host :=
  match host.createDevice deviceName (.tracer id) with
  | .error e => (some (.registration Registration.device.phrase e), host)
  | .ok host =>
    match host.registerHook forkSymbol (.tracer id) with
    | .error e =>
      (some (.registration Registration.forkHook.phrase e), host.removeDevice deviceName)
    | .ok host =>
      match host.registerNotifier (.tracer id) with
      | .error e => (some (.registration Registration.notifier.phrase e),
          (host.unregisterHook forkSymbol).removeDevice deviceName)
      | .ok host => (none, host)

theorem eraseKey_insertKey {κ ν : Type} [DecidableEq κ] (key : κ) (value : ν)
    (entries : List (κ × ν)) :
    eraseKey key (insertKey key value entries) = eraseKey key entries := by
  rw [insertKey, eraseKey, List.filter_cons_of_neg (by simp), eraseKey, List.filter_filter]
  simp

theorem eraseKey_of_lookup {κ ν : Type} [DecidableEq κ] {key : κ} {entries : List (κ × ν)}
    (h : entries.lookup key = none) : eraseKey key entries = entries := by
  refine List.filter_eq_self.mpr fun e he => ?_
  have hne := List.lookup_eq_none_iff.mp h e he
  exact decide_eq_true (bne_iff_ne.mp hne).symm

/-- A host that refuses one of the registrations, or has the device already, takes none; what it
took before that is taken back. -/
theorem enlist_eq (id : Nat) (host : Host) :
    enlist id host =
      if host.refused = some .device then
        (some (.registration Registration.device.phrase (.os Errno.ebusy)), host)
      else if (host.devices.lookup deviceName).isSome then
        (some (.registration Registration.device.phrase (.os Errno.eexist)), host)
      else if host.refused = some .forkHook then
        (some (.registration Registration.forkHook.phrase (.os Errno.ebusy)),
          { host with
            devices := eraseKey deviceName host.devices
            changes := .removeDevice deviceName :: .createDevice deviceName :: host.changes })
      else if host.refused = some .notifier then
        (some (.registration Registration.notifier.phrase (.os Errno.ebusy)),
          { host with
            hooks := eraseKey forkSymbol host.hooks
            devices := eraseKey deviceName host.devices
            changes := .removeDevice deviceName :: .unregisterHook forkSymbol ::
              .registerHook forkSymbol :: .createDevice deviceName :: host.changes })
      else (none, host.enlisted id) := by
  have hdevices : (eraseKey deviceName (insertKey deviceName (.tracer id) host.devices)) =
    eraseKey deviceName host.devices := eraseKey_insertKey ..
  have hhooks : eraseKey forkSymbol (insertKey forkSymbol (.tracer id) host.hooks) =
    eraseKey forkSymbol host.hooks := eraseKey_insertKey ..
  rw [enlist, Host.createDevice_eq]
  by_cases hdevice : host.refused = some .device
  · simp only [if_pos hdevice]
  by_cases hfree : (host.devices.lookup deviceName).isSome
  · simp only [if_neg hdevice, if_pos hfree]
  simp only [if_neg hdevice, if_neg hfree, Host.registerHook_eq]
  by_cases hhook : host.refused = some .forkHook
  · simp only [if_pos hhook, Host.removeDevice, Host.note, hdevices]
  simp only [if_neg hhook, Host.registerNotifier_eq]
  by_cases hnotifier : host.refused = some .notifier
  · simp only [if_pos hnotifier, Host.unregisterHook, Host.removeDevice, Host.note, hdevices,
      hhooks]
  · simp only [if_neg hnotifier, Host.enlisted]

theorem enlist_eq_none {host host' : Host} (h : enlist id host = (none, host')) :
    host' = host.enlisted id ∧ host.devices.lookup deviceName = none := by
  rw [enlist_eq] at h
  split at h
  · cases h
  split at h
  · cases h
  next hfree =>
    rw [Bool.not_eq_true, Option.isSome_eq_false_iff, Option.isNone_iff_eq_none] at hfree
    split at h
    · cases h
    split at h
    · cases h
    · exact ⟨(Prod.mk.inj h).2.symm, hfree⟩

/-- Taking tracing down where it was just brought up leaves the host as it was, but for the hook
that stood on the symbol and the history. -/
theorem withdrawn_enlisted {host : Host} (id : Nat)
    (hfree : host.devices.lookup deviceName = none) :
    ((host.enlisted id).withdrawn id).devices = host.devices ∧
      ((host.enlisted id).withdrawn id).hooks = eraseKey forkSymbol host.hooks ∧
      ((host.enlisted id).withdrawn id).notifiers = host.notifiers.filter (· ≠ .tracer id) := by
  have hdevices := eraseKey_insertKey deviceName (Client.tracer id) host.devices
  have hhooks := eraseKey_insertKey forkSymbol (Client.tracer id) host.hooks
  refine ⟨hdevices.trans (eraseKey_of_lookup hfree), hhooks, ?_⟩
  show (host.notifiers ++ [Client.tracer id]).filter _ = _
  simp

/-- Bringing tracing up registers a new tracer, and then switches recording on; if that fails,
everything is taken down again. -/
theorem load_apply (config : Config) (s : Platform) :
    load config s = match enlist s.tracers.size s.host with
      | (some e, host) => (.error e, { s.begun config with host })
      | (none, host) =>
        match broadcast .enable (Lbr.enable config.capacity) { s.begun config with host } with
        | (.ok count, t) => (.ok s.tracers.size, (report (.enabledOn count) t).2)
        | (.error e, t) => (.error (.io e), (unload s.tracers.size t).2) := by
  have hadd : (ExceptT.lift (addTracer config) : Action Platform TraceError Nat)
      (report (.initializing config.capacity config.defaultSelect) s).2 =
        (.ok s.tracers.size, s.begun config) := rfl
  have hhost : (s.begun config).host = s.host := rfl
  rw [load, Action.bind_apply, Action.tell_apply]
  dsimp only
  rw [Action.bind_apply, hadd]
  dsimp only
  rw [Action.bind_apply, enlist, register, hhost]
  cases hd : s.host.createDevice deviceName (.tracer s.tracers.size) with
  | error e => rfl
  | ok host =>
    dsimp only
    rw [Action.bind_apply, undoing, register]
    dsimp only
    cases hk : host.registerHook forkSymbol (.tracer s.tracers.size) with
    | error e => rfl
    | ok host' =>
      dsimp only
      rw [Action.bind_apply, undoing, register]
      dsimp only
      cases hn : host'.registerNotifier (.tracer s.tracers.size) with
      | error e => rfl
      | ok host'' =>
        have hlift : ∀ t : Platform,
            (ExceptT.lift (broadcast .enable (Lbr.enable config.capacity)) :
              Action Platform TraceError _) t =
            (.ok (broadcast .enable (Lbr.enable config.capacity) t).1,
              (broadcast .enable (Lbr.enable config.capacity) t).2) := fun _ => rfl
        dsimp only
        rw [Action.bind_apply, hlift]
        dsimp only
        generalize broadcast (σ := Platform) .enable (Lbr.enable config.capacity) _ = switched
        obtain ⟨e | count, t⟩ := switched <;> rfl

theorem has_of_begun {t : Platform} (ht : t.tracers = (s.begun config).tracers) :
    t.Has s.tracers.size config := by
  rw [Has, ht, begun, Array.getElem?_push_size]
  rfl

/-- What comes of bringing tracing up. -/
inductive LoadOutcome (config : Config) (s : Platform) :
    Except TraceError Nat → Platform → Prop where
  | refused {e : TraceError} {host : Host} (he : enlist s.tracers.size s.host = (some e, host)) :
      LoadOutcome config s (.error e) { s.begun config with host }
  | up {t : Platform} {visits : Visits}
      (he : enlist s.tracers.size s.host = (none, t.host))
      (hp : Pass (Lbr.switchWrites config.capacity .enable) s.machine visits t.machine)
      (hcpus : visits.cpus = s.machine.affinity) (hok : ∀ visit ∈ visits, visit.2 = .ok ())
      (ht : t.tracers = (s.begun config).tracers) : LoadOutcome config s (.ok s.tracers.size) t
  /-- A cpu could not be switched on, or not all of them be visited. -/
  | undone {t : Platform} {visits : Visits} {e : SystemError}
      (he : enlist s.tracers.size s.host = (none, t.host))
      (hp : Pass (Lbr.switchWrites config.capacity .enable) s.machine visits t.machine)
      (hr : ¬s.machine.Roams ∨ visits.cpus = s.machine.affinity ∧ visits.verdict = .error e)
      (ht : t.tracers = (s.begun config).tracers) :
      LoadOutcome config s (.error (.io e)) (unload s.tracers.size t).2

theorem load_outcome (config : Config) (s : Platform) :
    LoadOutcome config s (load config s).1 (load config s).2 := by
  rw [load_apply]
  cases he : enlist s.tracers.size s.host with
  | mk refusal host =>
    cases refusal with
    | some e => exact .refused he
    | none =>
      dsimp only
      obtain ⟨visits, r, m, hb, hp, hr⟩ :=
        broadcast_pass config.capacity .enable { s.begun config with host }
      have henable : broadcast .enable (Lbr.enable config.capacity)
          { s.begun config with host } = (r, { s.begun config with host, machine := m }) := hb
      have hstart : s.machine.Untouched (s.begun config).machine := ⟨rfl, rfl⟩
      rw [henable]
      obtain e | count := r
      · refine .undone he (hp.of_untouched hstart) ?_ rfl
        exact hr.imp (fun hn hm => hn.2 ⟨hm.bindable, hm.configured⟩) fun hv => ⟨hv.1, hv.2.symm⟩
      · rcases hr with ⟨⟨e, he⟩, -⟩ | ⟨hcpus, hverdict⟩
        · cases he
        · refine .up he ?_ hcpus (Visits.verdict_eq_ok hverdict.symm) rfl
          exact (hp.of_untouched hstart).append_untouched ⟨rfl, rfl⟩

end Platform

end BranchTrace
