import BranchTrace.Host.Lifecycle
import BranchTrace.Proofs.Machine.Journal

/-!
# Pin discipline

A register access is pinned if the thread was bound to the cpu it was for, and on it. A step is
`Disciplined` if every access it tries is, given that the thread is bound to the cpu that is named
beforehand, if one is; it also leaves the thread bound there. Steps under a pin are disciplined
given the cpu of the pin, and then the pin makes them disciplined given nothing
(`disciplined_pinned`).

Main statements: `Lbr.disciplined_save` and its like for what is done to a branch stack, and
`disciplined_onEachCpu` for visits of all cpus.
-/

namespace BranchTrace

open MachineState

/-- The thread was bound to the cpu of the access and to no other, and it was there. -/
def Access.Pinned (access : Access) : Prop :=
  access.allowed = [access.cpu] ∧ access.cur = access.cpu

namespace Machine

/-- Every register access tried on the way from one machine to another was pinned. -/
def Orderly (m m' : Machine) : Prop :=
  ∃ tried, m'.accesses = tried ++ m.accesses ∧ ∀ access ∈ tried, access.Pinned

/-- The thread is bound to the cpu that is named, if one is, and on it. -/
def Bound (m : Machine) (cpu? : Option Nat) : Prop :=
  ∀ cpu ∈ cpu?, m.allowed = [cpu] ∧ m.cur = cpu

variable {m m' m'' : Machine} {cpu? : Option Nat}

theorem orderly_of_accesses_eq (h : m'.accesses = m.accesses) : m.Orderly m' :=
  ⟨[], h, by simp⟩

theorem Orderly.trans (h : m.Orderly m') (h' : m'.Orderly m'') : m.Orderly m'' := by
  obtain ⟨tried, ht, hp⟩ := h
  obtain ⟨tried', ht', hp'⟩ := h'
  refine ⟨tried' ++ tried, by rw [ht', ht, List.append_assoc], fun access ha => ?_⟩
  exact (List.mem_append.mp ha).elim (hp' access) (hp access)

theorem Idle.bound (h : m.Idle m') (hb : m.Bound cpu?) : m'.Bound cpu? := by
  intro cpu hc
  rw [h.stays.allowed, h.stays.cur]
  exact hb cpu hc

end Machine

/-- Every register access that a step tries is pinned, if the thread is bound to the cpu that is
named; afterwards it still is. -/
def Disciplined {σ α : Type} [MachineState σ] (cpu? : Option Nat) (step : StateM σ α) : Prop :=
  ∀ s, (machine s).Bound cpu? →
    (machine s).Orderly (machine (step s).2) ∧ (machine (step s).2).Bound cpu?

section Steps

variable {σ ε α β : Type} [MachineState σ] {cpu? : Option Nat}

/-- A step that tries no access. -/
theorem disciplined_of_idle {step : StateM σ α}
    (h : ∀ s, (machine s).Idle (machine (step s).2)) : Disciplined cpu? step :=
  fun s hb => ⟨Machine.orderly_of_accesses_eq (h s).accesses, (h s).bound hb⟩

namespace Disciplined

theorem bind {x : StateM σ α} {f : α → StateM σ β} (hx : Disciplined cpu? x)
    (hf : ∀ a, Disciplined cpu? (f a)) : Disciplined cpu? (x >>= f) := by
  intro s hb
  obtain ⟨ho, hb⟩ := hx s hb
  obtain ⟨ho', hb'⟩ := hf (x s).1 (x s).2 hb
  exact ⟨ho.trans ho', hb'⟩

theorem map {x : StateM σ α} (hx : Disciplined cpu? x) (f : α → β) :
    Disciplined cpu? (f <$> x) :=
  hx

theorem bindE {x : Action σ ε α} {f : α → Action σ ε β} (hx : Disciplined cpu? x)
    (hf : ∀ a, Disciplined cpu? (f a)) : Disciplined cpu? (x >>= f : Action σ ε β) := by
  intro s hb
  have h := hx s hb
  rw [Action.bind_apply]
  rcases hs : x s with ⟨e | a, t⟩
  · rwa [hs] at h
  · rw [hs] at h
    obtain ⟨ho', hb'⟩ := hf a t h.2
    exact ⟨h.1.trans ho', hb'⟩

theorem tryCatch {x : Action σ ε α} {f : ε → Action σ ε α} (hx : Disciplined cpu? x)
    (hf : ∀ e, Disciplined cpu? (f e)) : Disciplined cpu? (tryCatch x f : Action σ ε α) := by
  intro s hb
  have h := hx s hb
  rw [Action.tryCatch_apply]
  rcases hs : x s with ⟨e | a, t⟩
  · rw [hs] at h
    obtain ⟨ho', hb'⟩ := hf e t h.2
    exact ⟨h.1.trans ho', hb'⟩
  · rwa [hs] at h

theorem lift {step : StateM σ α} (h : Disciplined cpu? step) :
    Disciplined cpu? (ExceptT.lift step : Action σ ε α) :=
  h

theorem onMachine {step : StateM Machine α} (h : Disciplined cpu? step) :
    Disciplined cpu? (onMachine step : StateM σ α) := by
  intro s hb
  have hm : machine (BranchTrace.onMachine step s).2 = (step (machine s)).2 :=
    machine_setMachine ..
  rw [hm]
  exact h (machine s) hb

theorem tryMachine {wrap : SystemError → ε} {step : Action Machine SystemError α}
    (h : Disciplined cpu? step) : Disciplined cpu? (tryMachine wrap step : Action σ ε α) := by
  intro s hb
  have hm : machine (BranchTrace.tryMachine wrap step s).2 = (step (machine s)).2 :=
    machine_setMachine ..
  rw [hm]
  exact h (machine s) hb

end Disciplined

theorem disciplined_get : Disciplined cpu? (get : StateM σ σ) :=
  disciplined_of_idle fun s => (machine s).idle_refl

theorem disciplined_pure (a : α) : Disciplined cpu? (pure a : StateM σ α) :=
  disciplined_of_idle fun s => (machine s).idle_refl

theorem disciplined_pureE (a : α) : Disciplined cpu? (pure a : Action σ ε α) :=
  disciplined_of_idle fun s => (machine s).idle_refl

theorem disciplined_throw (e : ε) : Disciplined cpu? (throw e : Action σ ε α) :=
  disciplined_of_idle fun s => (machine s).idle_refl

theorem disciplined_liftM (r : Except ε α) : Disciplined cpu? (liftM r : Action σ ε α) :=
  disciplined_of_idle fun s => (machine s).idle_refl

theorem disciplined_report (event : Event) : Disciplined cpu? (report event : StateM σ Unit) :=
  Disciplined.onMachine (disciplined_of_idle fun _ => ⟨rfl, rfl, rfl, rfl⟩)

theorem disciplined_tell (event : Event) : Disciplined cpu? (tell event : Action σ ε Unit) :=
  disciplined_report event

end Steps

/-! ## Registers -/

section Registers

variable (cpu : Nat)

namespace Machine

variable {cpu} in
/-- Whoever is bound to a cpu may access its registers. -/
theorem disciplined_attempt {α : Type} {step : Action Machine SystemError α}
    (h : ∀ m : Machine, ∃ access : Access, access.cpu = cpu ∧ access.allowed = m.allowed ∧
      access.cur = m.cur ∧ (step m).2.accesses = access :: m.accesses ∧ m.Stays (step m).2) :
    Disciplined (some cpu) step := by
  intro m hb
  obtain ⟨access, rfl, ha, hc, hj, hs⟩ := h m
  obtain ⟨hallowed, hcur⟩ := hb access.cpu rfl
  refine ⟨⟨[access], hj, fun a hm => ?_⟩, fun cpu hm => ?_⟩
  · rw [List.mem_singleton.mp hm]
    exact ⟨ha.trans hallowed, hc.trans hcur⟩
  · obtain rfl : access.cpu = cpu := Option.some.inj hm
    exact ⟨hs.allowed.trans hallowed, hs.cur.trans hcur⟩

theorem disciplined_rdmsr (msr : UInt32) : Disciplined (some cpu) (rdmsr cpu msr) :=
  disciplined_attempt fun m => ⟨_, rfl, rfl, rfl, rdmsr_journal cpu msr m⟩

theorem disciplined_wrmsr (msr : UInt32) (value : UInt64) :
    Disciplined (some cpu) (wrmsr cpu msr value) :=
  disciplined_attempt fun m => ⟨_, rfl, rfl, rfl, wrmsr_journal cpu msr value m⟩

theorem disciplined_wrmsrAll (writes : List (UInt32 × UInt64)) :
    Disciplined (some cpu) (wrmsrAll cpu writes) := by
  induction writes with
  | nil => exact disciplined_pureE ()
  | cons w writes ih => exact (disciplined_wrmsr cpu w.1 w.2).bindE fun _ => ih

end Machine

namespace Lbr

theorem disciplined_restore (context : Context) :
    Disciplined (some cpu) (restore cpu context) :=
  Machine.disciplined_wrmsrAll cpu context.writes

theorem disciplined_readBranches (index : UInt32) (branches : List Branch) :
    Disciplined (some cpu) (readBranches cpu index branches) := by
  induction branches generalizing index with
  | nil => exact disciplined_pure _
  | cons branch rest ih =>
    refine Disciplined.bind (Machine.disciplined_rdmsr cpu _) fun r => ?_
    cases r with
    | error e => exact disciplined_pure _
    | ok source =>
      refine Disciplined.bind (Machine.disciplined_rdmsr cpu _) fun r => ?_
      cases r with
      | error e => exact disciplined_pure _
      | ok target => exact (ih (index + 1)).bind fun _ => disciplined_pure _

theorem disciplined_save (context : Context) : Disciplined (some cpu) (save cpu context) := by
  refine Disciplined.bind (Machine.disciplined_rdmsr cpu _) fun r => ?_
  cases r with
  | error e => exact disciplined_pure _
  | ok bits =>
    refine Disciplined.bind (Machine.disciplined_rdmsr cpu _) fun r => ?_
    cases r with
    | error e => exact disciplined_pure _
    | ok tos => exact (disciplined_readBranches cpu 0 _).bind fun _ => disciplined_pure _

theorem disciplined_flush (capacity : Nat) (enable : Bool) :
    Disciplined (some cpu) (flush capacity cpu enable) :=
  (Machine.disciplined_wrmsrAll cpu _).bindE fun _ => Machine.disciplined_wrmsr cpu _ _

theorem disciplined_enable (capacity : Nat) : Disciplined (some cpu) (enable capacity cpu) :=
  (disciplined_tell _).bindE fun _ => disciplined_flush cpu capacity true

theorem disciplined_disable (capacity : Nat) : Disciplined (some cpu) (disable capacity cpu) :=
  (disciplined_tell _).bindE fun _ => (Machine.disciplined_wrmsr cpu _ _).bindE fun _ =>
    disciplined_flush cpu capacity false

end Lbr

end Registers

/-! ## Pins -/

theorem Machine.bind?_singleton {m m' : Machine} {cpu : Nat} (h : m.bind? [cpu] = some m') :
    m' = { m with allowed := [cpu], cur := cpu } := by
  unfold Machine.bind? at h
  by_cases hc : cpu < m.cpus
  · simp only [List.filter_cons, List.filter_nil, hc, decide_true, if_true, List.mem_singleton,
      Option.some.injEq] at h
    -- a thread that was on this cpu stays, and one that was not moves there
    rw [← h, show (if m.cur = cpu then m.cur else cpu) = cpu by split <;> simp_all]
  · simp [hc] at h

/-- Taking a pin tries no access, and binds the thread to the cpu of the pin. -/
def Binds (take : Action Machine SystemError Pin) : Prop :=
  ∀ m : Machine, (take m).2.accesses = m.accesses ∧
    ∀ pin, (take m).1 = .ok pin → (take m).2.Bound (some pin.cpu)

namespace Pin

/-- The last step of taking a pin. -/
theorem binds_bindTo (cpu : Nat) (saved : List Nat) :
    Binds do
      bindTo cpu
      return { cpu, saved } := by
  intro m
  rw [Action.bind_apply, bindTo]
  by_cases hc : cpu < Machine.maxCpus
  · rw [if_pos hc]
    rcases Machine.setAffinity_cases [cpu] m with ⟨e, faults, h⟩ | ⟨faults, m', hb, h⟩
    · rw [h]
      exact ⟨rfl, nofun⟩
    · rw [h, Machine.bind?_singleton hb]
      refine ⟨rfl, fun pin hp => ?_⟩
      cases hp
      intro c hc
      obtain rfl : cpu = c := Option.some.inj hc
      exact ⟨rfl, rfl⟩
  · rw [if_neg hc]
    exact ⟨rfl, nofun⟩

/-- A call that idles may come before a pin is taken. -/
theorem binds_bind {α : Type} {x : Action Machine SystemError α}
    {take : α → Action Machine SystemError Pin} (hx : Machine.Idles x)
    (ht : ∀ a, Binds (take a)) : Binds (x >>= take) := by
  intro m
  have hm := hx m
  rw [Action.bind_apply]
  rcases h : x m with ⟨e | a, m'⟩
  · rw [h] at hm
    exact ⟨hm.accesses, nofun⟩
  · rw [h] at hm
    obtain ⟨ha, hp⟩ := ht a m'
    exact ⟨ha.trans hm.accesses, hp⟩

theorem binds_current : Binds current :=
  binds_bind (Machine.idles_guarded fun m => m.idle_refl) fun saved =>
    binds_bind (Machine.idles_guarded fun m => m.idle_refl) fun cpu => binds_bindTo cpu saved

theorem binds_on (cpu : Nat) : Binds (on cpu) :=
  binds_bind (Machine.idles_guarded fun m => m.idle_refl) fun saved => binds_bindTo cpu saved

theorem accesses_release (pin : Pin) (m : Machine) :
    (pin.release m).2.accesses = m.accesses := by
  rcases release_cases pin m with ⟨e, faults, h⟩ | ⟨faults, m', hb, h⟩
  · rw [h]
  · obtain ⟨-, cur, rfl, -⟩ := Machine.bind?_eq_some hb
    rw [h]

end Pin

section Pins

variable {σ ε α : Type} [MachineState σ]

/-- A step that is disciplined on the cpu of its pin needs nothing else. -/
theorem disciplined_pinned {wrap : SystemError → ε} {take : Action Machine SystemError Pin}
    {step : Pin → Action σ ε α} (ht : Binds take)
    (hs : ∀ pin, Disciplined (some pin.cpu) (step pin)) :
    Disciplined none (pinned wrap take step) := by
  intro s _
  refine ⟨?_, nofun⟩
  obtain ⟨ha, hb⟩ := ht (machine s)
  rw [pinned_apply]
  rcases h : take (machine s) with ⟨e | pin, m⟩
  · rw [h] at ha
    dsimp only
    rw [machine_setMachine]
    exact Machine.orderly_of_accesses_eq ha
  · rw [h] at ha hb
    have hbound : (machine (setMachine s m)).Bound (some pin.cpu) := by
      rw [machine_setMachine]
      exact hb pin rfl
    obtain ⟨ho, -⟩ := hs pin (setMachine s m) hbound
    rw [machine_setMachine] at ho
    show (machine s).Orderly (machine (setMachine (step pin (setMachine s m)).2 _))
    rw [machine_setMachine]
    exact (Machine.orderly_of_accesses_eq ha).trans
      (ho.trans (Machine.orderly_of_accesses_eq (Pin.accesses_release pin _)))

variable {step : Pin → StateM σ α} (hs : ∀ pin, Disciplined (some pin.cpu) (step pin))
include hs

theorem disciplined_visitCpus (cpus : List Nat) : Disciplined none (visitCpus step cpus) := by
  induction cpus with
  | nil => exact disciplined_of_idle fun s => (machine s).idle_refl
  | cons cpu rest ih =>
    intro s hb
    have hlift : ∀ pin : Pin, Disciplined (some pin.cpu)
      (ExceptT.lift (step pin) : Action σ SystemError α) := fun pin => (hs pin).lift
    have hp : Disciplined none (pinned id (Pin.on cpu) fun pin => ExceptT.lift (step pin)) :=
      disciplined_pinned (Pin.binds_on cpu) hlift
    replace hp := hp s hb
    rw [visitCpus]
    rcases h : pinned id (Pin.on cpu) (fun pin => ExceptT.lift (step pin)) s with ⟨e | a, t⟩
    · rwa [h] at hp
    · rw [h] at hp
      exact ⟨hp.1.trans (ih t hp.2).1, nofun⟩

/-- A visit of all cpus needs nothing if its steps are disciplined where they are pinned. -/
theorem disciplined_onEachCpu : Disciplined none (onEachCpu step) := by
  intro s hb
  have hallowed : Disciplined none allowedCpus :=
    disciplined_of_idle (Machine.idles_guarded fun m => m.idle_refl)
  have hp : Disciplined none (tryMachine id allowedCpus : Action σ SystemError (List Nat)) :=
    hallowed.tryMachine
  replace hp := hp s hb
  rw [onEachCpu]
  rcases h : tryMachine id allowedCpus s with ⟨e | cpus, t⟩
  · rwa [h] at hp
  · rw [h] at hp
    exact ⟨hp.1.trans (disciplined_visitCpus hs cpus t hp.2).1, nofun⟩

end Pins

end BranchTrace
