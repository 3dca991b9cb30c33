import BranchTrace.Proofs.Host.Ledger
import BranchTrace.Proofs.Host.Loading

/-!
# What a load that is undone leaves behind

The registrations of a host after a load that failed, and after a load with an unload right behind
it, for a host with any registrations of others before. A device that exists is never replaced and a
notifier is added to the others, so these two come back exactly. A hook however takes the place of
the one on its symbol, and is withdrawn by the symbol: a hook of somebody else on the symbol of
forks is lost as soon as that step was made.

Main statement: `registrations_of_undone_load`.
-/

namespace BranchTrace

namespace Host

/-- No tracing was registered on the way to the fork hook: the device or the hook is refused, or the
name of the device is taken. -/
def Declines (host : Host) : Prop :=
  host.refused = some .device ∨ (host.devices.lookup deviceName).isSome ∨
    host.refused = some .forkHook

instance (host : Host) : Decidable host.Declines :=
  inferInstanceAs (Decidable (_ ∨ _ ∨ _))

/-- The same device under every name, the same hook on every symbol and the same notifiers. -/
structure Restored (before after : Host) : Prop where
  devices : ∀ name, after.devices.lookup name = before.devices.lookup name
  hooks : ∀ symbol, after.hooks.lookup symbol = before.hooks.lookup symbol
  notifiers : after.notifiers = before.notifiers

/-- The same registrations, but that no hook stands on the symbol of forks. -/
structure Unhooked (before after : Host) : Prop where
  devices : ∀ name, after.devices.lookup name = before.devices.lookup name
  hooks : ∀ symbol, after.hooks.lookup symbol =
    if symbol = forkSymbol then none else before.hooks.lookup symbol
  notifiers : after.notifiers = before.notifiers

variable {host host' : Host} {id : Nat}

/-- Where no hook stood on the symbol before, nothing is lost, and only there. -/
theorem Unhooked.restored_iff (h : Unhooked host host') :
    Restored host host' ↔ host.hooks.lookup forkSymbol = none := by
  constructor
  · intro hr
    rw [← hr.hooks, h.hooks, if_pos rfl]
  · intro hnone
    refine ⟨h.devices, fun symbol => ?_, h.notifiers⟩
    rw [h.hooks]
    split
    · next hs => rw [hs, hnone]
    · rfl

/-- A notifier that was not registered before is withdrawn without a trace. -/
theorem unhooked_withdrawn (hfree : host.devices.lookup deviceName = none)
    (hnew : Client.tracer id ∉ host.notifiers) :
    Unhooked host ((host.enlisted id).withdrawn id) := by
  obtain ⟨hdevices, hhooks, hnotifiers⟩ := Platform.withdrawn_enlisted id hfree
  refine ⟨fun name => by rw [hdevices], fun symbol => ?_, ?_⟩
  · rw [hhooks, lookup_eraseKey]
  · rw [hnotifiers, List.filter_eq_self]
    exact fun client hc => decide_eq_true fun he => hnew (he ▸ hc)

/-- Registrations that are refused are taken back: all of them before the hook is made, and all but
the hook of somebody else after that. -/
theorem restored_of_refusal {e : TraceError} (h : Platform.enlist id host = (some e, host')) :
    (host.Declines → Restored host host') ∧ (¬host.Declines → Unhooked host host') := by
  rw [Platform.enlist_eq] at h
  split at h
  · next hdevice =>
    cases h
    exact ⟨fun _ => ⟨fun _ => rfl, fun _ => rfl, rfl⟩, fun hn => absurd (.inl hdevice) hn⟩
  split at h
  · next hfull =>
    cases h
    exact ⟨fun _ => ⟨fun _ => rfl, fun _ => rfl, rfl⟩, fun hn => absurd (.inr (.inl hfull)) hn⟩
  next hdevice hfull =>
    have hfree : host.devices.lookup deviceName = none :=
      Option.not_isSome_iff_eq_none.mp hfull
    have hdevices := Platform.eraseKey_of_lookup hfree
    split at h
    · next hhook =>
      cases h
      refine ⟨fun _ => ⟨fun name => ?_, fun _ => rfl, rfl⟩,
        fun hn => absurd (.inr (.inr hhook)) hn⟩
      rw [hdevices]
    split at h
    · next hhook _ =>
      cases h
      refine ⟨fun hd => ?_, fun _ => ⟨fun name => ?_, fun symbol => lookup_eraseKey .., rfl⟩⟩
      · rcases hd with hd | hd | hd
        · exact absurd hd hdevice
        · exact absurd hd hfull
        · exact absurd hd hhook
      · rw [hdevices]
    · cases h

/-- Registrations that are all made were not declined. -/
theorem not_declines_of_enlist {host'' : Host} (h : Platform.enlist id host = (none, host'')) :
    ¬host.Declines := by
  rw [Platform.enlist_eq] at h
  rintro (hd | hd | hd)
  · rw [if_pos hd] at h
    cases h
  · rw [if_pos hd] at h
    split at h <;> cases h
  · rw [if_pos hd] at h
    split at h
    · cases h
    split at h <;> cases h

end Host

namespace Platform

variable {s : Platform}

/-- Taking a tracer down right after its registrations were made. -/
theorem unhooked_unload {config : Config} {t : Platform}
    (he : enlist s.tracers.size s.host = (none, t.host))
    (ht : t.tracers = (s.begun config).tracers)
    (hnew : Client.tracer s.tracers.size ∉ s.host.notifiers) :
    Host.Unhooked s.host (unload s.tracers.size t).2.host := by
  obtain ⟨hhost, hfree⟩ := enlist_eq_none he
  obtain ⟨-, hwithdrawn, -⟩ := unload_apply (has_of_begun ht)
  rw [hwithdrawn, hhost]
  exact Host.unhooked_withdrawn hfree hnew

/-- A load that fails, for whatever reason, leaves all registrations of others as they were, but for
a hook on the symbol of forks: that one is gone, unless the load did not come as far as the hook. A
load that is followed by an unload leaves all but that hook. So the host is as before exactly if
there was no such hook, or the load did not come that far. -/
theorem registrations_of_undone_load (config : Config)
    (hnotifiers : ∀ id, Client.tracer id ∈ s.host.notifiers → id < s.tracers.size) :
    (∀ e t, load config s = (.error e, t) →
      (s.host.Declines → s.host.Restored t.host) ∧
      (¬s.host.Declines → s.host.Unhooked t.host) ∧
      (s.host.Restored t.host ↔ s.host.Declines ∨ s.host.hooks.lookup forkSymbol = none)) ∧
    ∀ id t, load config s = (.ok id, t) →
      s.host.Unhooked (unload id t).2.host ∧
      (s.host.Restored (unload id t).2.host ↔ s.host.hooks.lookup forkSymbol = none) := by
  have hnew : Client.tracer s.tracers.size ∉ s.host.notifiers :=
    fun h => Nat.lt_irrefl _ (hnotifiers _ h)
  have ho := load_outcome config s
  constructor
  · intro e t hl
    rw [hl] at ho
    have hcases : (s.host.Declines → s.host.Restored t.host) ∧
        (¬s.host.Declines → s.host.Unhooked t.host) := by
      cases ho with
      | refused he => exact Host.restored_of_refusal he
      | undone he _ _ ht =>
        exact ⟨fun hd => absurd hd (Host.not_declines_of_enlist he),
          fun _ => unhooked_unload he ht hnew⟩
    refine ⟨hcases.1, hcases.2, ?_⟩
    by_cases hd : s.host.Declines
    · exact iff_of_true (hcases.1 hd) (.inl hd)
    · rw [(hcases.2 hd).restored_iff, or_iff_right hd]
  · intro id t hl
    rw [hl] at ho
    cases ho with
    | up he _ _ _ ht =>
      have h := unhooked_unload he ht hnew
      exact ⟨h, h.restored_iff⟩

/-- A tracer and an observer are notified, the tracer has the hook on forks, and somebody else a
device of another name. Notifiers are refused from here on. -/
def hookedStart : Platform where
  machine := { Machine.new 1 with bank := .soft (.new 1) }
  host :=
    { notifiers := [.tracer 0, .observer "watch" 0]
      hooks := [(forkSymbol, .tracer 0), ("exit_mm", .observer "watch" 0)]
      devices := [("other", .observer "watch" 0)]
      refused := some .notifier }
  tracers := #[.new ⟨1, .userOnly⟩]

theorem registrations_of_undone_load_hooked :
    (∀ id, Client.tracer id ∈ hookedStart.host.notifiers → id < hookedStart.tracers.size) ∧
      let t := (load ⟨1, .userOnly⟩ hookedStart).2
      (load ⟨1, .userOnly⟩ hookedStart).1 =
          .error (.registration Registration.notifier.phrase (.os Errno.ebusy)) ∧
        t.host.devices.lookup "other" = some (.observer "watch" 0) ∧
        t.host.hooks.lookup "exit_mm" = some (.observer "watch" 0) ∧
        t.host.hooks.lookup forkSymbol = none ∧ ¬hookedStart.host.Restored t.host := by
  have hnotifiers : ∀ id, Client.tracer id ∈ hookedStart.host.notifiers →
      id < hookedStart.tracers.size := by
    intro id hid
    have hzero : id = 0 := by simpa [hookedStart] using hid
    exact hzero ▸ Nat.zero_lt_one
  have hload : (load ⟨1, .userOnly⟩ hookedStart).1 =
    .error (.registration Registration.notifier.phrase (.os Errno.ebusy)) := rfl
  have hd : ¬hookedStart.host.Declines := by decide
  obtain ⟨-, hunhooked, hrestored⟩ :=
    (registrations_of_undone_load ⟨1, .userOnly⟩ hnotifiers).1 _ _ (Prod.ext hload rfl)
  have h := hunhooked hd
  exact ⟨hnotifiers, hload, h.devices "other", h.hooks "exit_mm", h.hooks forkSymbol,
    fun hr => (hrestored.mp hr).elim hd nofun⟩

/-- An observer's hook on forks is gone after a load that fails because notifiers are refused, and
after one that succeeds and is undone. -/
theorem fork_hook_lost :
    let start : Platform :=
      { machine := { Machine.new 1 with bank := .soft (.new 1) }
        host := { hooks := [(forkSymbol, .observer "watch" 0)] } }
    let refusing : Platform := { start with host := start.host.refuse .notifier }
    start.host.hooks.lookup forkSymbol = some (.observer "watch" 0) ∧
      (load ⟨1, .userOnly⟩ refusing).1 =
        .error (.registration Registration.notifier.phrase (.os Errno.ebusy)) ∧
      (load ⟨1, .userOnly⟩ refusing).2.host.hooks.lookup forkSymbol = none ∧
      (load ⟨1, .userOnly⟩ start).1 = .ok 0 ∧
      (unload 0 (load ⟨1, .userOnly⟩ start).2).2.host.hooks.lookup forkSymbol = none := by
  decide +kernel

end Platform

end BranchTrace
