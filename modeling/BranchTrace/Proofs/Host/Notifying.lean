import BranchTrace.Host.Platform
import BranchTrace.Proofs.Machine.Actions

/-!
# Telling notifiers

What a platform does with a tracer is what the tracer does with its store and the machine
(`Platform.tracing`), and observers do nothing to either. Main statement: `contextSwitch_spec`, a
context switch of a host with one tracer is `leave` and then `arrive`.
-/

namespace BranchTrace

namespace Host

/-- A tracer is registered as notifier once, and besides it only observers are. -/
def NotifiesOnly (host : Host) (id : Nat) : Prop :=
  ∃ before after, host.notifiers = before ++ .tracer id :: after ∧
    ∀ client ∈ before ++ after, ∃ name status, client = .observer name status

end Host

namespace Platform

/-- The store of a tracer, and the machine. -/
def tracing (s : Platform) (id : Nat) : Tracing :=
  { store := ((s.tracers[id]?).map (·.store)).getD .empty, machine := s.machine }

/-- A tracer of a platform has a configuration. -/
def Has (s : Platform) (id : Nat) (config : Config) : Prop :=
  (s.tracers[id]?).map (·.config) = some config

variable {s : Platform} {id : Nat} {config : Config}

theorem onTracer_spec {α : Type} (h : s.Has id config) (absent : α)
    (step : Config → StateM Tracing α) :
    (onTracer id absent step s).1 = (step config (s.tracing id)).1 ∧
      (onTracer id absent step s).2.tracing id = (step config (s.tracing id)).2 ∧
      (onTracer id absent step s).2.Has id config ∧
      (onTracer id absent step s).2.host = s.host := by
  obtain ⟨tracer, ht, rfl⟩ := Option.map_eq_some_iff.mp h
  have hsize : id < s.tracers.size := (Array.getElem?_eq_some_iff.mp ht).1
  have hs : s.tracing id = { store := tracer.store, machine := s.machine } := by simp [tracing, ht]
  rw [hs]
  simp only [onTracer, ht]
  obtain ⟨a, t⟩ := step tracer.config { store := tracer.store, machine := s.machine }
  refine ⟨rfl, ?_, ?_, rfl⟩
  · simp [tracing, Array.getElem?_setIfInBounds_self_of_lt hsize]
  · simp [Has, Array.getElem?_setIfInBounds_self_of_lt hsize]

/-- Nothing but the calls that observers noted differs. -/
structure Unmoved (s s' : Platform) : Prop where
  machine : s'.machine = s.machine
  host : s'.host = s.host
  tracers : s'.tracers = s.tracers

theorem tellAll_append (step : Client → StateM Platform Unit) (before after : List Client)
    (s : Platform) :
    tellAll step (before ++ after) s = tellAll step after (tellAll step before s).2 := by
  induction before generalizing s with
  | nil => rfl
  | cons client before ih => exact ih (step client s).2

theorem tellAll_observers {step : Client → StateM Platform Unit}
    (hstep : ∀ name status s, Unmoved s (step (.observer name status) s).2) {clients : List Client}
    (hc : ∀ client ∈ clients, ∃ name status, client = .observer name status) (s : Platform) :
    Unmoved s (tellAll step clients s).2 := by
  induction clients generalizing s with
  | nil => exact ⟨rfl, rfl, rfl⟩
  | cons client clients ih =>
    obtain ⟨name, status, rfl⟩ := hc client List.mem_cons_self
    have h := hstep name status s
    have h' := ih (fun c hm => hc c (List.mem_cons_of_mem _ hm)) (step (.observer name status) s).2
    exact ⟨h'.machine.trans h.machine, h'.host.trans h.host, h'.tracers.trans h.tracers⟩

theorem Unmoved.tracing {s s' : Platform} (h : Unmoved s s') : s'.tracing id = s.tracing id := by
  rw [Platform.tracing, h.machine, h.tracers, Platform.tracing]

theorem Unmoved.has {s s' : Platform} (h : Unmoved s s') (hs : s.Has id config) :
    s'.Has id config := by
  rwa [Has, h.tracers]

/-- Telling a tracer among observers. -/
theorem tellAll_spec {step : Client → StateM Platform Unit} (told : StateM Tracing Unit)
    (hstep : ∀ name status s, Unmoved s (step (.observer name status) s).2)
    (htracer : step (.tracer id) = onTracer id () fun _ => told) (hs : s.Has id config)
    {host : Host} (hn : host.NotifiesOnly id) :
    (tellAll step host.notifiers s).2.tracing id = (told (s.tracing id)).2 ∧
      (tellAll step host.notifiers s).2.Has id config ∧
      (tellAll step host.notifiers s).2.host = s.host := by
  obtain ⟨before, after, hb, hobs⟩ := hn
  have h1 := tellAll_observers hstep (fun c hc => hobs c (List.mem_append_left _ hc)) s
  obtain ⟨-, ht, hh, hhost⟩ := onTracer_spec (h1.has hs) () fun _ => told
  rw [← htracer] at ht hh hhost
  have h2 := tellAll_observers hstep (fun c hc => hobs c (List.mem_append_right _ hc))
    (step (.tracer id) (tellAll step before s).2).2
  rw [hb, tellAll_append]
  refine ⟨?_, h2.has hh, ?_⟩
  · exact h2.tracing.trans (ht.trans (by rw [h1.tracing]))
  · exact h2.host.trans (hhost.trans h1.host)

/-! ## Context switches -/

/-- A tracer and the machine once the process before has left a cpu. -/
def leave (id cpu : Nat) (s : Platform) : Tracing :=
  match s.host.running.lookup cpu with
  | none => s.tracing id
  | some prev => (Tracer.schedOut prev (s.tracing id)).2

/-- A tracer and the machine once the next process has come onto a cpu. -/
def arrive (id cpu : Nat) (next : UInt32) (s : Platform) : Tracing :=
  (Tracer.schedIn next (s.leave id cpu)).2

theorem contextSwitch_spec (hs : s.Has id config) (hn : s.host.NotifiesOnly id) (cpu : Nat)
    (next : UInt32) :
    (contextSwitch cpu next s).2.tracing id = s.arrive id cpu next ∧
      (contextSwitch cpu next s).2.Has id config ∧
      (contextSwitch cpu next s).2.host =
        { s.host with running := insertKey cpu next s.host.running } := by
  have hout : ∀ prev name status s, Unmoved s (notifyOut prev next (.observer name status) s).2 :=
    fun _ _ _ _ => ⟨rfl, rfl, rfl⟩
  have hin : ∀ name status s, Unmoved s (notifyIn next cpu (.observer name status) s).2 :=
    fun _ _ _ => ⟨rfl, rfl, rfl⟩
  have hs' : Has { s with host := { s.host with running := insertKey cpu next s.host.running } }
      id config := hs
  have hget : (get : StateM Platform Platform) s = (s, s) := rfl
  rw [arrive, leave]
  cases hl : s.host.running.lookup cpu with
  | none =>
    simp only [contextSwitch, stateM_bind_apply, hget, hl]
    exact tellAll_spec (Tracer.schedIn next) hin rfl hs' hn
  | some prev =>
    obtain ⟨ht, hh, hhost⟩ := tellAll_spec (Tracer.schedOut prev) (hout prev) rfl hs' hn
    obtain ⟨ht', hh', hhost'⟩ := tellAll_spec (Tracer.schedIn next) hin rfl hh hn
    simp only [contextSwitch, stateM_bind_apply, hget, hl]
    exact ⟨ht'.trans (by rw [ht]; rfl), hh', hhost'.trans hhost⟩

/-! ## What keeps the registrations -/

/-- The registrations stay, and so do the configurations of the tracers. -/
structure Retains (s s' : Platform) : Prop where
  host : ∃ running, s'.host = { s.host with running }
  has : ∀ {id config}, s.Has id config → s'.Has id config

variable {s' s'' : Platform}

theorem retains_of_eq (hhost : s'.host = s.host) (ht : s'.tracers = s.tracers) : s.Retains s' where
  host := ⟨s.host.running, hhost⟩
  has h := by rwa [Has, ht]

theorem Retains.trans (h : s.Retains s') (h' : s'.Retains s'') : s.Retains s'' where
  host := by
    obtain ⟨running, hh⟩ := h.host
    obtain ⟨running', hh'⟩ := h'.host
    exact ⟨running', by rw [hh', hh]⟩
  has hs := h'.has (h.has hs)

theorem retains_onTracer {α : Type} (id : Nat) (absent : α) (step : Config → StateM Tracing α)
    (s : Platform) : s.Retains (onTracer id absent step s).2 := by
  unfold onTracer
  cases ht : s.tracers[id]? with
  | none => exact retains_of_eq rfl rfl
  | some tracer =>
    dsimp only
    obtain ⟨a, t⟩ := step tracer.config { store := tracer.store, machine := s.machine }
    refine ⟨⟨s.host.running, rfl⟩, fun {other config} h => ?_⟩
    rw [Has] at h ⊢
    dsimp only
    rw [Array.getElem?_setIfInBounds]
    split
    · next he =>
      subst he
      rw [ht] at h
      rw [if_pos (Array.getElem?_eq_some_iff.mp ht).1]
      exact h
    · exact h

theorem retains_tellAll {step : Client → StateM Platform Unit}
    (hs : ∀ client s, Retains s (step client s).2) (clients : List Client) (s : Platform) :
    s.Retains (tellAll step clients s).2 := by
  induction clients generalizing s with
  | nil => exact retains_of_eq rfl rfl
  | cons client rest ih => exact (hs client s).trans (ih _)

theorem retains_contextSwitch (cpu : Nat) (next : UInt32) (s : Platform) :
    s.Retains (contextSwitch cpu next s).2 := by
  have hout : ∀ prev client s, Retains s (notifyOut prev next client s).2 := by
    intro prev client s
    cases client with
    | tracer id => exact retains_onTracer ..
    | observer => exact retains_of_eq rfl rfl
  have hin : ∀ client s, Retains s (notifyIn next cpu client s).2 := by
    intro client s
    cases client with
    | tracer id => exact retains_onTracer ..
    | observer => exact retains_of_eq rfl rfl
  have hget : (get : StateM Platform Platform) s = (s, s) := rfl
  have hmark : s.Retains
      { s with host := { s.host with running := insertKey cpu next s.host.running } } :=
    ⟨⟨_, rfl⟩, fun h => h⟩
  simp only [contextSwitch, stateM_bind_apply, hget]
  cases s.host.running.lookup cpu with
  | none => exact hmark.trans (retains_tellAll hin _ _)
  | some prev =>
    exact hmark.trans ((retains_tellAll (hout prev) _ _).trans (retains_tellAll hin _ _))

theorem retains_fork (symbol : String) (parent child : UInt32) (s : Platform) :
    s.Retains (fork symbol parent child s).2 := by
  have hget : (get : StateM Platform Platform) s = (s, s) := rfl
  simp only [fork, stateM_bind_apply, hget]
  cases s.host.hooks.lookup symbol with
  | none => exact retains_of_eq rfl rfl
  | some client =>
    cases client with
    | tracer id =>
      dsimp only
      rw [stateM_bind_apply]
      exact (retains_onTracer ..).trans (retains_onTracer ..)
    | observer => exact retains_of_eq rfl rfl

theorem retains_ioctl (name : String) (caller number : UInt32) (block : List UInt8)
    (param : UInt64) (s : Platform) : s.Retains (ioctl name caller number block param s).2 := by
  have hget : (get : StateM Platform Platform) s = (s, s) := rfl
  simp only [ioctl, stateM_bind_apply, hget]
  cases s.host.devices.lookup name with
  | none => exact retains_of_eq rfl rfl
  | some client =>
    cases client with
    | tracer id => exact retains_onTracer ..
    | observer => exact retains_of_eq rfl rfl

theorem retains_read (name : String) (caller : UInt32) (length : Nat) (s : Platform) :
    s.Retains (read name caller length s).2 := by
  have hget : (get : StateM Platform Platform) s = (s, s) := rfl
  simp only [read, stateM_bind_apply, hget]
  cases s.host.devices.lookup name with
  | none => exact retains_of_eq rfl rfl
  | some client =>
    cases client with
    | tracer id => exact retains_onTracer ..
    | observer => exact retains_of_eq rfl rfl

end Platform

end BranchTrace
