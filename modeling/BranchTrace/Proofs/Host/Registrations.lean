import BranchTrace.Proofs.Host.Interludes

/-!
# Registrations

What is registered on a host where tracing is brought up and taken down (`Turn`), with anything in
between and with any failures: a device, a hook and a notifier of the tracer that is up, and
nothing if none is (`Hosting`). The history nests (`HostChange.nest`): every withdrawal is that of
the newest registration that is open.

Main statement: `hosting_of_turns`.
-/

namespace BranchTrace

/-! ## Histories that nest -/

/-- The open registrations after one more change, newest first. A registration is open from then on;
a withdrawal closes the newest one that is open, and has to be the withdrawal of that. -/
def HostChange.nest : List HostChange → HostChange → Option (List HostChange)
  | opened, .registerNotifier => some (.registerNotifier :: opened)
  | opened, .registerHook symbol => some (.registerHook symbol :: opened)
  | opened, .createDevice name => some (.createDevice name :: opened)
  | .registerNotifier :: opened, .unregisterNotifier => some opened
  | .registerHook symbol :: opened, .unregisterHook withdrawn =>
    if symbol = withdrawn then some opened else none
  | .createDevice name :: opened, .removeDevice removed =>
    if name = removed then some opened else none
  | _, _ => none

/-- The registrations that a history leaves open, newest first, if it nests. -/
def HostChange.leftOpen (history : List HostChange) : Option (List HostChange) :=
  history.foldlM nest []

theorem HostChange.leftOpen_reverse_cons (change : HostChange) (earlier : List HostChange) :
    leftOpen (change :: earlier).reverse = (leftOpen earlier.reverse).bind (nest · change) := by
  rw [leftOpen, List.reverse_cons, List.foldlM_append]
  simp only [List.foldlM_cons, List.foldlM_nil, bind_pure]
  rfl

/-! ## What a load and an unload do to the registrations -/

namespace Host

variable {host host' : Host} {id : Nat}

/-- The registrations that are open by the history of a host, newest first. -/
def opened (host : Host) : Option (List HostChange) :=
  HostChange.leftOpen host.history

/-- What bringing tracing up opens, newest first. -/
def enlistment : List HostChange :=
  [.registerNotifier, .registerHook forkSymbol, .createDevice deviceName]

theorem opened_enlisted (host : Host) (id : Nat) :
    (host.enlisted id).opened = host.opened.map (enlistment ++ ·) := by
  show HostChange.leftOpen (List.reverse (_ :: _ :: _ :: host.changes)) = _
  simp only [HostChange.leftOpen_reverse_cons]
  rw [opened, history]
  cases HostChange.leftOpen host.changes.reverse <;> rfl

theorem opened_withdrawn {opened : List HostChange} (h : host.opened = some (enlistment ++ opened))
    (id : Nat) : (host.withdrawn id).opened = some opened := by
  rw [Host.opened, history] at h
  show HostChange.leftOpen (List.reverse (_ :: _ :: _ :: host.changes)) = _
  simp only [HostChange.leftOpen_reverse_cons, h]
  simp [enlistment, HostChange.nest]

/-- Where the registrations are not all taken, those of notifiers are as before, those of the device
and the hook are as before or erased, and the same ones are open. -/
theorem registrations_of_refusal {e : TraceError}
    (h : Platform.enlist id host = (some e, host')) :
    host'.notifiers = host.notifiers ∧ host'.opened = host.opened ∧
      (host'.devices = host.devices ∨ host'.devices = eraseKey deviceName host.devices) ∧
      (host'.hooks = host.hooks ∨ host'.hooks = eraseKey forkSymbol host.hooks) := by
  rw [Platform.enlist_eq] at h
  split at h
  · cases h
    exact ⟨rfl, rfl, .inl rfl, .inl rfl⟩
  split at h
  · cases h
    exact ⟨rfl, rfl, .inl rfl, .inl rfl⟩
  split at h
  · cases h
    refine ⟨rfl, ?_, .inr rfl, .inl rfl⟩
    show HostChange.leftOpen (List.reverse (_ :: _ :: host.changes)) = _
    simp only [HostChange.leftOpen_reverse_cons]
    rw [opened, history]
    cases HostChange.leftOpen host.changes.reverse <;> simp [HostChange.nest]
  split at h
  · cases h
    refine ⟨rfl, ?_, .inr rfl, .inr rfl⟩
    show HostChange.leftOpen (List.reverse (_ :: _ :: _ :: _ :: host.changes)) = _
    simp only [HostChange.leftOpen_reverse_cons]
    rw [opened, history]
    cases HostChange.leftOpen host.changes.reverse <;> simp [HostChange.nest]
  · cases h

end Host

namespace Platform

variable {s : Platform}

/-! ## Loads -/

/-- Setting up a new tracer is nothing to the others. -/
theorem tracing_begun {id : Nat} {config : Config} (h : s.Has id config) (other : Config) :
    ((s.begun other).tracing id).store = (s.tracing id).store ∧ (s.begun other).Has id config := by
  have hsize : id < s.tracers.size := by
    obtain ⟨tracer, ht, -⟩ := Option.map_eq_some_iff.mp h
    exact (Array.getElem?_eq_some_iff.mp ht).1
  have hget : (s.begun other).tracers[id]? = s.tracers[id]? := by
    rw [begun, Array.getElem?_push, if_neg hsize.ne]
  exact ⟨by rw [tracing, hget, tracing], by rwa [Has, hget]⟩

/-- Where the device exists already, a load fails before anything is registered. -/
theorem load_of_device (config : Config) (h : (s.host.devices.lookup deviceName).isSome) :
    load config s = (.error (.registration Registration.device.phrase
      (.os (if s.host.refused = some .device then Errno.ebusy else Errno.eexist))),
        s.begun config) := by
  have henlist : enlist s.tracers.size s.host = (some (.registration Registration.device.phrase
      (.os (if s.host.refused = some .device then Errno.ebusy else Errno.eexist))), s.host) := by
    rw [enlist_eq, if_pos h]
    split <;> rfl
  rw [load_apply, henlist]
  rfl

/-! ## Turns -/

/-- What can happen where tracing is brought up and taken down. -/
inductive Turn where
  | refuse (what : Registration)
  | load (config : Config)
  /-- A tracer that is up is taken down. -/
  | unload (id : Nat)
  /-- Anything that can come in between, for any tracer. -/
  | interlude (id : Nat) (i : Interlude)

/-- A platform, and the tracers that were brought up and not taken down since. -/
structure Course where
  platform : Platform
  up : List Nat := []

/-- The course after a turn. -/
def Turn.run : Turn → Course → Course
  | .refuse what, c =>
    { c with platform := { c.platform with host := c.platform.host.refuse what } }
  | .load config, c =>
    match Platform.load config c.platform with
    | (.ok id, s) => { platform := s, up := id :: c.up }
    | (.error _, s) => { c with platform := s }
  | .unload id, c =>
    if id ∈ c.up then
      { platform := (Platform.unload id c.platform).2, up := c.up.filter (· ≠ id) }
    else c
  | .interlude id i, c => { c with platform := i.run id c.platform }

/-- The course after some turns. -/
def runTurns (turns : List Turn) (start : Course) : Course :=
  turns.foldl (fun c turn => turn.run c) start

/-- At most one tracer is up, it is registered as device, hook and notifier and no one else is, and
these three registrations are the ones that are open by the history, which nests. -/
structure Hosting (c : Course) : Prop where
  one : c.up.length ≤ 1
  has : ∀ id ∈ c.up, ∃ config, c.platform.Has id config
  devices : c.platform.host.devices = c.up.map fun id => (deviceName, .tracer id)
  hooks : c.platform.host.hooks = c.up.map fun id => (forkSymbol, .tracer id)
  notifiers : c.platform.host.notifiers = c.up.map .tracer
  opened : c.platform.host.opened = some (c.up.flatMap fun _ => Host.enlistment)

namespace Hosting

variable {c : Course} {config : Config}

theorem up_cases (h : Hosting c) : c.up = [] ∨ ∃ id, c.up = [id] := by
  have hone := h.one
  cases hup : c.up with
  | nil => exact .inl rfl
  | cons id rest =>
    rw [hup, List.length_cons] at hone
    exact .inr ⟨id, by rw [List.length_eq_zero_iff.mp (by omega : rest.length = 0)]⟩

/-- Nothing is registered where no tracer is up. -/
theorem none_up (s : Platform) (hdevices : s.host.devices = []) (hhooks : s.host.hooks = [])
    (hnotifiers : s.host.notifiers = []) (hopened : s.host.opened = some []) :
    Hosting { platform := s } :=
  ⟨Nat.zero_le 1, nofun, hdevices, hhooks, hnotifiers, hopened⟩

theorem of_retains (h : Hosting c) {s : Platform} (hs : c.platform.Retains s) :
    Hosting { c with platform := s } := by
  obtain ⟨running, hhost⟩ := hs.host
  refine ⟨h.one, fun id hid => ?_, ?_, ?_, ?_, ?_⟩
  · obtain ⟨config, hconfig⟩ := h.has id hid
    exact ⟨config, hs.has hconfig⟩
  all_goals dsimp only; rw [hhost]
  · exact h.devices
  · exact h.hooks
  · exact h.notifiers
  · exact h.opened

theorem refuse (h : Hosting c) (what : Registration) : Hosting ((Turn.refuse what).run c) :=
  ⟨h.one, h.has, h.devices, h.hooks, h.notifiers, h.opened⟩

/-- A load where a tracer is up fails before anything is registered. -/
theorem load_of_up (h : Hosting c) {id : Nat} (hup : c.up = [id]) (config : Config) :
    Platform.load config c.platform = (.error (.registration Registration.device.phrase
      (.os (if c.platform.host.refused = some .device then Errno.ebusy else Errno.eexist))),
        c.platform.begun config) := by
  refine load_of_device config ?_
  rw [h.devices, hup]
  rfl

/-- A tracer is registered where none was. -/
theorem of_enlisted {s t : Platform} {id : Nat} (h : Hosting { platform := s })
    (hhas : t.Has id config) (hhost : t.host = s.host.enlisted id) :
    Hosting { platform := t, up := [id] } := by
  have hdevices : s.host.devices = [] := h.devices
  have hhooks : s.host.hooks = [] := h.hooks
  have hnotifiers : s.host.notifiers = [] := h.notifiers
  have hopened : s.host.opened = some [] := h.opened
  refine ⟨Nat.le_refl 1, fun other hid => ⟨config, ?_⟩, ?_, ?_, ?_, ?_⟩
  · rwa [List.mem_singleton.mp hid]
  all_goals dsimp only; rw [hhost]
  · rw [Host.enlisted, hdevices]
    rfl
  · rw [Host.enlisted, hhooks]
    rfl
  · rw [Host.enlisted, hnotifiers]
    rfl
  · rw [Host.opened_enlisted, hopened]
    rfl

/-- The one tracer that was registered is withdrawn. -/
theorem of_withdrawn {s t : Platform} {id : Nat} (h : Hosting { platform := s, up := [id] })
    (hhost : t.host = s.host.withdrawn id) : Hosting { platform := t } := by
  refine none_up _ ?_ ?_ ?_ ?_ <;> rw [hhost]
  · show eraseKey deviceName s.host.devices = []
    rw [h.devices]
    rfl
  · show eraseKey forkSymbol s.host.hooks = []
    rw [h.hooks]
    rfl
  · show s.host.notifiers.filter (· ≠ .tracer id) = []
    rw [h.notifiers]
    simp
  · exact Host.opened_withdrawn h.opened id

/-- A load on a host without registrations makes all three, or leaves none. -/
theorem load_of_none (h : Hosting c) (hup : c.up = []) (config : Config) :
    Hosting ((Turn.load config).run c) := by
  obtain ⟨s, up⟩ := c
  obtain rfl : up = [] := hup
  have ho := load_outcome config s
  rw [Turn.run]
  dsimp only
  generalize Platform.load config s = loaded at ho ⊢
  obtain ⟨r, t⟩ := loaded
  dsimp only at ho
  cases ho with
  | refused he =>
    obtain ⟨hnotifiers, hopened, hdevices, hhooks⟩ := Host.registrations_of_refusal he
    rw [show s.host.devices = [] from h.devices] at hdevices
    rw [show s.host.hooks = [] from h.hooks] at hhooks
    exact none_up _ (or_self_iff.mp hdevices) (or_self_iff.mp hhooks)
      (hnotifiers.trans h.notifiers) (hopened.trans h.opened)
  | up he hp hcpus hok ht => exact h.of_enlisted (has_of_begun ht) (enlist_eq_none he).1
  | undone he hp hr ht =>
    have hhas := has_of_begun ht
    obtain ⟨-, hwithdrawn, -⟩ := unload_apply hhas
    exact (h.of_enlisted hhas (enlist_eq_none he).1).of_withdrawn hwithdrawn

theorem load (h : Hosting c) (config : Config) : Hosting ((Turn.load config).run c) := by
  rcases h.up_cases with hup | ⟨id, hup⟩
  · exact h.load_of_none hup config
  · rw [Turn.run, h.load_of_up hup]
    refine ⟨h.one, fun id hid => ?_, h.devices, h.hooks, h.notifiers, h.opened⟩
    obtain ⟨config', hhas⟩ := h.has id hid
    exact ⟨config', (tracing_begun hhas config).2⟩

theorem unload (h : Hosting c) (id : Nat) : Hosting ((Turn.unload id).run c) := by
  rw [Turn.run]
  split
  · next hid =>
    obtain ⟨s, up⟩ := c
    rcases h.up_cases with rfl | ⟨other, rfl⟩
    · exact absurd hid List.not_mem_nil
    obtain rfl : id = other := List.mem_singleton.mp hid
    obtain ⟨config, hhas⟩ := h.has id hid
    obtain ⟨-, hwithdrawn, -⟩ := unload_apply hhas
    have hup : [id].filter (· ≠ id) = [] := by simp
    dsimp only
    rw [hup]
    exact h.of_withdrawn hwithdrawn
  · exact h

theorem turn (h : Hosting c) (t : Turn) : Hosting (t.run c) := by
  cases t with
  | refuse what => exact h.refuse what
  | load config => exact h.load config
  | unload id => exact h.unload id
  | interlude id i => exact h.of_retains (retains_interlude id i c.platform)

theorem turns (h : Hosting c) (turns : List Turn) : Hosting (runTurns turns c) := by
  induction turns generalizing c with
  | nil => exact h
  | cons t rest ih => exact ih (h.turn t)

end Hosting

/-- A host that starts without registrations has those of the one tracer that is up and no others,
whatever the turns, and its history nests. Where one is up, a further load fails before anything is
registered, and leaves the host, the registers and the contexts of that tracer as they are. -/
theorem hosting_of_turns (start : Platform) (turns : List Turn) :
    let c := runTurns turns { platform := { start with host := .new } }
    Hosting c ∧ ∀ id ∈ c.up, ∀ config,
      (Platform.load config c.platform).1 = .error (.registration Registration.device.phrase
          (.os (if c.platform.host.refused = some .device then Errno.ebusy else Errno.eexist))) ∧
        (Platform.load config c.platform).2.host = c.platform.host ∧
        c.platform.machine.Untouched (Platform.load config c.platform).2.machine ∧
        ((Platform.load config c.platform).2.tracing id).store = (c.platform.tracing id).store := by
  intro c
  have h : Hosting c := (Hosting.none_up { start with host := .new } rfl rfl rfl rfl).turns turns
  refine ⟨h, fun id hid config => ?_⟩
  obtain ⟨other, hup⟩ : ∃ other, c.up = [other] :=
    h.up_cases.resolve_left (List.ne_nil_of_mem hid)
  obtain ⟨config', hhas⟩ := h.has id hid
  rw [h.load_of_up hup config]
  exact ⟨rfl, rfl, ⟨rfl, rfl⟩, (tracing_begun hhas config).1⟩

end Platform

end BranchTrace
