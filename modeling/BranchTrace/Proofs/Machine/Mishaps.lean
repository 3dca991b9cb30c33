import BranchTrace.Proofs.Machine.Sweep

/-!
# Mishaps

A context switch answers nobody, so what goes wrong with a context at a switch shows in the journal
of events alone (`Event.isMishap`). The way from one machine to another is `Untroubled` if no
mishap was reported on it, and it `Manages` what is done unless one was.

Main statements: `Manages.and`, two such ways make one; `silent_rdmsr`, accesses report nothing.
-/

namespace BranchTrace

/-- Whether an event tells of a context that could not be moved at a switch. -/
def Event.isMishap : Event → Bool
  | .pinFailed .. | .transferFailed .. => true
  | _ => false

namespace Machine

/-- Nothing of a kind was reported on the way from one machine to another. -/
def Unreported (kind : Event → Bool) (m m' : Machine) : Prop :=
  ∃ reported, m'.events = reported ++ m.events ∧ ∀ event ∈ reported, kind event = false

/-- No mishap was reported on the way from one machine to another. -/
def Untroubled (m m' : Machine) : Prop :=
  m.Unreported Event.isMishap m'

/-- What is reported on the way is added to the journal, and something is done unless a mishap is
reported. -/
structure Manages (m m' : Machine) (done : Prop) : Prop where
  reports : m.events <:+ m'.events
  done : m.Untroubled m' → done

variable {m m' m'' : Machine} {kind : Event → Bool}

/-- What was reported on a way can be read off the two journals. -/
theorem unreported_iff :
    m.Unreported kind m' ↔ m.events <:+ m'.events ∧
      ∀ event ∈ m'.events.take (m'.events.length - m.events.length), kind event = false := by
  constructor
  · rintro ⟨reported, hr, hm⟩
    refine ⟨⟨reported, hr.symm⟩, ?_⟩
    rwa [hr, List.length_append, Nat.add_sub_cancel, List.take_left]
  · rintro ⟨⟨reported, hr⟩, hm⟩
    refine ⟨reported, hr.symm, ?_⟩
    rwa [← hr, List.length_append, Nat.add_sub_cancel, List.take_left] at hm

instance : Decidable (m.Unreported kind m') :=
  decidable_of_iff' _ unreported_iff

instance : Decidable (m.Untroubled m') :=
  inferInstanceAs (Decidable (m.Unreported Event.isMishap m'))

/-- What is not reported on a way is reported on neither part of it. -/
theorem Unreported.parts (h : m.Unreported kind m'') (hfirst : m.events <:+ m'.events)
    (hlast : m'.events <:+ m''.events) : m.Unreported kind m' ∧ m'.Unreported kind m'' := by
  obtain ⟨reported, hr, hm⟩ := h
  obtain ⟨first, hf⟩ := hfirst
  obtain ⟨last, hl⟩ := hlast
  have hsplit : reported = last ++ first := by
    refine List.append_cancel_right (hr.symm.trans ?_)
    rw [← hl, ← hf, List.append_assoc]
  rw [hsplit] at hm
  exact ⟨⟨first, hf.symm, fun event he => hm event (List.mem_append_right _ he)⟩,
    ⟨last, hl.symm, fun event he => hm event (List.mem_append_left _ he)⟩⟩

/-- What was just reported is not unreported. -/
theorem Unreported.not_kind {event : Event} (h : m.Unreported kind m')
    (he : m'.events = event :: m.events) : kind event = false := by
  obtain ⟨reported, hr, hm⟩ := h
  have hone : reported = [event] := List.append_cancel_right (hr.symm.trans he)
  exact hm event (hone ▸ List.mem_singleton_self _)

theorem Manages.and {first last : Prop} (h : m.Manages m' first) (h' : m'.Manages m'' last) :
    m.Manages m'' (first ∧ last) where
  reports := h.reports.trans h'.reports
  done hu :=
    have hparts := Unreported.parts hu h.reports h'.reports
    ⟨h.done hparts.1, h'.done hparts.2⟩

theorem Manages.imp {done done' : Prop} (h : m.Manages m' done) (hd : done → done') :
    m.Manages m' done' :=
  ⟨h.reports, fun hu => hd (h.done hu)⟩

/-- After a mishap nothing is promised. -/
theorem manages_of_mishap {event : Event} {done : Prop} (hm : event.isMishap = true)
    (he : m'.events = event :: m.events) : m.Manages m' done where
  reports := he ▸ List.suffix_cons _ _
  done hu := absurd (hm.symm.trans (Unreported.not_kind hu he)) Bool.noConfusion

theorem manages_of_events_eq {done : Prop} (he : m'.events = m.events) (hd : done) :
    m.Manages m' done :=
  ⟨he ▸ List.suffix_refl _, fun _ => hd⟩

/-! ## What reports nothing -/

theorem Silent.events {ε α : Type} {step : Action Machine ε α} (hs : Silent step) (m : Machine) :
    (step m).2.events = m.events :=
  congrArg (fun o => o.2.events) (hs m m.events)

theorem silent_nodeRead (bank : NodeBank) (cpu : Nat) (msr : UInt32) :
    Silent (bank.read cpu msr) := by
  intro m events
  simp only [NodeBank.read, Action.bind_apply, Action.liftM_apply, Action.state_apply,
    Action.get_apply]
  cases bank.node cpu with
  | error e => rfl
  | ok place =>
    dsimp only [trip]
    cases NodeBank.cutShort (Fault.trip .pread m.faults).1 registerBytes with
    | error e => rfl
    | ok count =>
      dsimp only
      cases m.files.readAt place msr.toNat count with
      | error errno => rfl
      | ok bytes =>
        dsimp only
        split <;> rfl

theorem silent_rdmsr (cpu : Nat) (msr : UInt32) : Silent (rdmsr cpu msr) := by
  rintro ⟨cpus, allowed, cur, faults, bank, files, old, accesses⟩ events
  unfold rdmsr
  cases bank with
  | soft bank =>
    have hsilent : Silent (guarded .rdmsr (pure (bank.read cpu msr))) :=
      silent_guarded fun _ _ => rfl
    have hs := hsilent ⟨cpus, allowed, cur, faults, .soft bank, files, old, accesses⟩ events
    dsimp only at hs ⊢
    rw [hs]
    rfl
  | nodes bank =>
    have hs := silent_nodeRead bank cpu msr
      ⟨cpus, allowed, cur, faults, .nodes bank, files, old, accesses⟩ events
    dsimp only at hs ⊢
    rw [hs]
    rfl

/-- Giving back a pin reports at most that this failed. -/
theorem events_release (pin : Pin) (m : Machine) : m.events <:+ (pin.release m).2.events := by
  rcases pin.release_cases m with ⟨e, faults, h⟩ | ⟨faults, m', hb, h⟩
  · rw [h]
    exact List.suffix_cons _ _
  · obtain ⟨-, cur, rfl, -⟩ := bind?_eq_some hb
    have he : (pin.release m).2.events = m.events := congrArg (·.events) h
    exact he ▸ List.suffix_refl _

end Machine

end BranchTrace
