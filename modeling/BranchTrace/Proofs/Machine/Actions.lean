import BranchTrace.Machine.Pin
import Mathlib.Tactic.ByContra

/-!
# Actions, step by step

What an action does to the state it runs on. `Action.bind_apply` and the lemmas after it run an
action to its next step. `Pin.current_cases` and `Pin.release_cases` say what taking and giving
back a pin can do to a machine. Main statement: `Pin.current_spec`, the two together.
-/

namespace BranchTrace

open MachineState

section Steps

variable {σ ε α β : Type}

namespace Action

theorem bind_apply (x : Action σ ε α) (f : α → Action σ ε β) (s : σ) :
    (x >>= f) s = match x s with
      | (.ok a, s) => f a s
      | (.error e, s) => (.error e, s) := by
  simp only [bind, ExceptT.bind, ExceptT.mk, StateT.bind]
  rcases x s with ⟨_ | _, _⟩ <;> rfl

theorem pure_apply (a : α) (s : σ) : (pure a : Action σ ε α) s = (.ok a, s) := rfl

theorem throw_apply (e : ε) (s : σ) : (throw e : Action σ ε α) s = (.error e, s) := rfl

theorem get_apply (s : σ) : (get : Action σ ε σ) s = (.ok s, s) := rfl

theorem modify_apply (f : σ → σ) (s : σ) : (modify f : Action σ ε PUnit) s = (.ok (), f s) := rfl

theorem liftM_apply (r : Except ε α) (s : σ) : (liftM r : Action σ ε α) s = (r, s) := rfl

theorem state_apply (step : StateM σ α) (s : σ) :
    (liftM step : Action σ ε α) s = (.ok (step s).1, (step s).2) := rfl

theorem lift_apply (step : StateM σ α) (s : σ) :
    (ExceptT.lift step : Action σ ε α) s = (.ok (step s).1, (step s).2) := rfl

theorem adapt_apply {δ : Type} (wrap : ε → δ) (x : Action σ ε α) (s : σ) :
    ExceptT.adapt wrap x s = ((x s).1.mapError wrap, (x s).2) := rfl

theorem tryCatch_apply (x : Action σ ε α) (f : ε → Action σ ε α) (s : σ) :
    (tryCatch x f : Action σ ε α) s = match x s with
      | (.ok a, s) => (.ok a, s)
      | (.error e, s) => f e s := by
  show (ExceptT.tryCatch x f : Action σ ε α) s = _
  simp only [ExceptT.tryCatch, ExceptT.mk, bind, StateT.bind]
  rcases x s with ⟨_ | _, _⟩ <;> rfl

theorem tell_apply [MachineState σ] (event : Event) (s : σ) :
    (tell event : Action σ ε Unit) s = (.ok (), (report event s).2) := rfl

end Action

theorem stateM_bind_apply (x : StateM σ α) (f : α → StateM σ β) (s : σ) :
    (x >>= f) s = f (x s).1 (x s).2 := rfl

theorem pinned_apply [MachineState σ] (wrap : SystemError → ε)
    (take : Action Machine SystemError Pin) (step : Pin → Action σ ε α) (s : σ) :
    pinned wrap take step s = match take (machine s) with
      | (.error e, m) => (.error (wrap e), setMachine s m)
      | (.ok pin, m) =>
        let (r, s) := step pin (setMachine s m)
        (r, setMachine s (pin.release (machine s)).2) := by
  simp only [pinned, tryMachine]
  rcases take (machine s) with ⟨_ | _, _⟩ <;> rfl

end Steps

/-! ## Calls of the machine -/

namespace Machine

/-- A call fails and strikes a fault off the plan, or it goes through. -/
theorem guarded_cases {α : Type} (call : Call) (step : Action Machine SystemError α)
    (m : Machine) :
    (∃ e faults, guarded call step m = (.error e, { m with faults })) ∨
      ∃ faults, guarded call step m = step { m with faults } := by
  unfold guarded trip
  rcases h : Fault.trip call m.faults with ⟨_ | fault, faults⟩
  · exact .inr ⟨faults, rfl⟩
  · exact .inl ⟨failureOf call fault.errno, faults, rfl⟩

theorem getAffinity_cases (m : Machine) :
    (∃ e faults, getAffinity m = (.error e, { m with faults })) ∨
      ∃ faults, getAffinity m = (.ok (m.allowed.filter (· < maxCpus)), { m with faults }) :=
  guarded_cases ..

theorem getCpu_cases (m : Machine) :
    (∃ e faults, getCpu m = (.error e, { m with faults })) ∨
      ∃ faults, getCpu m = (.ok m.cur, { m with faults }) :=
  guarded_cases ..

theorem setAffinity_cases (cpus : List Nat) (m : Machine) :
    (∃ e faults, setAffinity cpus m = (.error e, { m with faults })) ∨
      ∃ faults m', ({ m with faults } : Machine).bind? cpus = some m' ∧
        setAffinity cpus m = (.ok (), m') := by
  refine (guarded_cases ..).elim .inl ?_
  rintro ⟨faults, h⟩
  cases hb : ({ m with faults } : Machine).bind? cpus with
  | none =>
    simp only [hb] at h
    exact .inl ⟨_, faults, h⟩
  | some m' =>
    simp only [hb] at h
    exact .inr ⟨faults, m', hb, h⟩

/-- Binding the thread changes its cpus alone. -/
theorem bind?_eq_some {m m' : Machine} {cpus : List Nat} (h : m.bind? cpus = some m') :
    cpus.filter (· < m.cpus) ≠ [] ∧
      ∃ cur, m' = { m with allowed := cpus.filter (· < m.cpus), cur } ∧
      (m.cur ∈ cpus.filter (· < m.cpus) → cur = m.cur) := by
  unfold bind? at h
  cases hf : cpus.filter (· < m.cpus) with
  | nil => simp [hf] at h
  | cons lowest rest =>
    simp only [hf, Option.some.injEq] at h
    exact ⟨List.cons_ne_nil _ _, _, h.symm, fun hm => if_pos hm⟩

end Machine

/-! ## Pins -/

namespace Pin

theorem bindTo_cases (m : Machine) :
    (∃ e faults, bindTo m.cur m = (.error e, { m with faults })) ∨
      ∃ faults, bindTo m.cur m = (.ok (), { m with faults, allowed := [m.cur] }) ∧
        m.cur < Machine.maxCpus ∧ m.cur < m.cpus := by
  unfold bindTo
  by_cases hmax : m.cur < Machine.maxCpus
  · rw [if_pos hmax]
    rcases Machine.setAffinity_cases [m.cur] m with h | ⟨faults, m', hb, h⟩
    · exact .inl h
    · obtain ⟨hne, cur, hm, hcur⟩ := Machine.bind?_eq_some hb
      have hcpus : m.cur < m.cpus := by
        by_contra hc
        simp [hc] at hne
      simp only [List.filter_cons, hcpus, decide_true, if_true, List.filter_nil] at hm hcur
      obtain rfl : cur = m.cur := hcur (List.mem_singleton_self _)
      refine .inr ⟨faults, ?_, hmax, hcpus⟩
      rw [h, hm]
  · rw [if_neg hmax]
    exact .inl ⟨_, m.faults, rfl⟩

/-- The pin to the current cpu cannot be taken, or it binds the thread to where it is. -/
theorem current_cases (m : Machine) :
    (∃ e faults, current m = (.error e, { m with faults })) ∨
      ∃ faults, current m = (.ok { cpu := m.cur, saved := m.allowed.filter (· < Machine.maxCpus) },
        { m with faults, allowed := [m.cur] }) ∧ m.cur < Machine.maxCpus ∧ m.cur < m.cpus := by
  simp only [current, Action.bind_apply, Action.pure_apply]
  rcases Machine.getAffinity_cases m with ⟨e, faults, h⟩ | ⟨faults, h⟩
  · exact .inl ⟨e, faults, by rw [h]⟩
  rw [h]
  dsimp only
  rcases Machine.getCpu_cases { m with faults } with ⟨e, faults', h⟩ | ⟨faults', h⟩
  · exact .inl ⟨e, faults', by rw [h]⟩
  rw [h]
  rcases bindTo_cases { m with faults := faults' } with ⟨e, faults', h⟩ | ⟨faults', h, hc⟩
  · exact .inl ⟨e, faults', by simp only [h]⟩
  · exact .inr ⟨faults', by simp only [h], hc⟩

/-- Where the thread is once it is pinned to the cpu it was on. -/
theorem bound_of_current {m m' : Machine} {pin : Pin} (h : current m = (.ok pin, m')) :
    pin.cpu = m.cur ∧ m'.allowed = [m.cur] ∧ m'.cur = m.cur := by
  rcases current_cases m with ⟨e, faults, h'⟩ | ⟨faults, h', -⟩
  · cases h.symm.trans h'
  · cases h.symm.trans h'
    exact ⟨rfl, rfl, rfl⟩

/-- The thread gets its cpus back, or that is reported to have failed. -/
theorem release_cases (pin : Pin) (m : Machine) :
    (∃ e faults, (pin.release m).2 =
        { m with faults, events := .affinityKept pin.cpu e :: m.events }) ∨
      ∃ faults m', ({ m with faults } : Machine).bind? pin.saved = some m' ∧
        (pin.release m).2 = m' := by
  unfold release
  rcases Machine.setAffinity_cases pin.saved m with ⟨e, faults, h⟩ | ⟨faults, m', hb, h⟩
  · exact .inl ⟨e, faults, by rw [h]; rfl⟩
  · exact .inr ⟨faults, m', hb, by rw [h]⟩

end Pin

/-! ## Under a pin -/

namespace Machine

/-- The thread can be pinned to the cpu it is on. -/
def Pinnable (m : Machine) : Prop :=
  ∃ pin, (Pin.current m).1 = .ok pin

instance (m : Machine) : Decidable m.Pinnable :=
  match h : (Pin.current m).1 with
  | .ok pin => .isTrue ⟨pin, h⟩
  | .error _ => .isFalse fun ⟨_, hp⟩ => by simp [h] at hp

/-- A step that neither reads nor writes the journal of events. -/
def Silent {ε α : Type} (step : Action Machine ε α) : Prop :=
  ∀ m events, step { m with events } = ((step m).1, { (step m).2 with events })

theorem Silent.bind {ε α β : Type} {x : Action Machine ε α} {f : α → Action Machine ε β}
    (hx : Silent x) (hf : ∀ a, Silent (f a)) : Silent (x >>= f) := by
  intro m events
  rw [Action.bind_apply, Action.bind_apply, hx]
  rcases x m with ⟨_ | a, m'⟩
  · rfl
  · exact hf a m' events

theorem silent_guarded {α : Type} {call : Call} {step : Action Machine SystemError α}
    (hs : Silent step) : Silent (guarded call step) := by
  intro m events
  unfold guarded trip
  rcases Fault.trip call m.faults with ⟨_ | fault, faults⟩
  · exact hs { m with faults } events
  · rfl

theorem silent_setAffinity (cpus : List Nat) : Silent (setAffinity cpus) := by
  refine silent_guarded fun m events => ?_
  unfold bind?
  dsimp only
  generalize cpus.filter (· < m.cpus) = found
  cases found <;> rfl

theorem silent_current : Silent Pin.current := by
  refine Silent.bind (silent_guarded fun _ _ => rfl) fun saved => ?_
  refine Silent.bind (silent_guarded fun _ _ => rfl) fun cpu => ?_
  refine Silent.bind ?_ fun _ _ _ => rfl
  unfold Pin.bindTo
  split
  · exact silent_setAffinity [cpu]
  · exact fun _ _ => rfl

/-- The registers and the journals of a machine are left alone. -/
structure Untouched (m m' : Machine) : Prop where
  bank : m'.bank = m.bank
  accesses : m'.accesses = m.accesses

/-- The thread is on a cpu that it may run on. -/
def On (m : Machine) (cpu : Nat) : Prop :=
  m.cur = cpu ∧ cpu ∈ m.allowed

/-- What steps under a pin leave of the thread: where it is and where it may run. -/
structure Stays (m m' : Machine) : Prop where
  cpus : m'.cpus = m.cpus
  allowed : m'.allowed = m.allowed
  cur : m'.cur = m.cur

theorem Stays.trans {m m' m'' : Machine} (h : m.Stays m') (h' : m'.Stays m'') : m.Stays m'' :=
  ⟨h'.cpus.trans h.cpus, h'.allowed.trans h.allowed, h'.cur.trans h.cur⟩

end Machine

theorem Machine.pinnable_report (event : Event) (m : Machine) :
    (report event m).2.Pinnable ↔ m.Pinnable := by
  have hs := Machine.silent_current m (event :: m.events)
  have h : (Pin.current (report event m).2).1 = (Pin.current m).1 := by
    rw [show (report event m).2 = { m with events := event :: m.events } from rfl, hs]
  rw [Machine.Pinnable, h, Machine.Pinnable]

/-- Taking the pin to the current cpu, and giving it back at some later machine. Neither touches
a register, and a thread that stays where it was pinned is there afterwards. -/
theorem Pin.current_spec (m : Machine) :
    (¬m.Pinnable ∧ ∃ e m', current m = (.error e, m') ∧ m.Untouched m') ∨
      ∃ pin m', current m = (.ok pin, m') ∧ pin.cpu = m.cur ∧ m'.cur = m.cur ∧ m.Untouched m' ∧
        ∀ n, n.Untouched (pin.release n).2 ∧
          (m'.Stays n → m.cur ∈ m.allowed → (pin.release n).2.On m.cur) := by
  rcases current_cases m with ⟨e, faults, h⟩ | ⟨faults, h, hmax, hcpus⟩
  · refine .inl ⟨?_, e, _, h, rfl, rfl⟩
    rintro ⟨pin, h'⟩
    rw [h] at h'
    cases h'
  · refine .inr ⟨_, _, h, rfl, rfl, ⟨rfl, rfl⟩, fun n => ?_⟩
    rcases release_cases { cpu := m.cur, saved := m.allowed.filter (· < Machine.maxCpus) } n with
      ⟨e, faults', hr⟩ | ⟨faults', n', hb, hr⟩
    · rw [hr]
      exact ⟨⟨rfl, rfl⟩, fun hs _ => ⟨hs.cur, hs.allowed ▸ List.mem_singleton_self _⟩⟩
    · obtain ⟨-, cur, rfl, hcur⟩ := Machine.bind?_eq_some hb
      rw [hr]
      refine ⟨⟨rfl, rfl⟩, fun hs hm => ?_⟩
      have hmem : m.cur ∈ (m.allowed.filter (· < Machine.maxCpus)).filter (· < n.cpus) := by
        simp [hs.cpus, hm, hmax, hcpus]
      exact ⟨(hcur (hs.cur ▸ hmem)).trans hs.cur, hmem⟩

end BranchTrace
