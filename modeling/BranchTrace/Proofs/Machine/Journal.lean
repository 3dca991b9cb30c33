import BranchTrace.Lbr.Stack
import BranchTrace.Proofs.Machine.Actions

/-!
# The journal of register accesses

Every attempt at a register goes into the machine's journal, and nothing else does: steps that
access no register are `Idle`. The way from one machine to another is `Smooth` if every attempt on
it succeeded, and `Faulty` if one failed. Main statements: `rdmsr_journal` and `wrmsr_journal`,
what one access enters; `rdmsr_accounts` and `wrmsrAll_accounts`, accesses fail only where an
attempt did.
-/

namespace BranchTrace

namespace Machine

/-- Every register access tried on the way from one machine to another succeeded. -/
def Smooth (m m' : Machine) : Prop :=
  ∃ tried, m'.accesses = tried ++ m.accesses ∧ ∀ access ∈ tried, access.value.isSome

/-- A register access tried on the way from one machine to another failed. -/
def Faulty (m m' : Machine) : Prop :=
  ∃ tried, m'.accesses = tried ++ m.accesses ∧ ∃ access ∈ tried, access.value = none

variable {m m' m'' : Machine}

/-- The attempts on a smooth way can be read off the two journals. -/
theorem smooth_iff :
    m.Smooth m' ↔ m.accesses <:+ m'.accesses ∧
      ∀ access ∈ m'.accesses.take (m'.accesses.length - m.accesses.length),
        access.value.isSome := by
  constructor
  · rintro ⟨tried, ht, hs⟩
    refine ⟨⟨tried, ht.symm⟩, ?_⟩
    rwa [ht, List.length_append, Nat.add_sub_cancel, List.take_left]
  · rintro ⟨⟨tried, ht⟩, hs⟩
    refine ⟨tried, ht.symm, ?_⟩
    rwa [← ht, List.length_append, Nat.add_sub_cancel, List.take_left] at hs

instance : Decidable (m.Smooth m') :=
  decidable_of_iff' _ smooth_iff

theorem Faulty.not_smooth (h : m.Faulty m') : ¬m.Smooth m' := by
  rintro ⟨tried, ht, hs⟩
  obtain ⟨tried', ht', a, ha, hv⟩ := h
  obtain rfl : tried = tried' := List.append_cancel_right (ht.symm.trans ht')
  simpa [hv] using hs a ha

theorem Faulty.congr {n n' : Machine} (h : m.Faulty m') (hn : n.accesses = m.accesses)
    (hn' : n'.accesses = m'.accesses) : n.Faulty n' := by
  obtain ⟨tried, ht, ha⟩ := h
  exact ⟨tried, by rw [hn', ht, hn], ha⟩

/-- A step from one machine to another fails only if a register access does. -/
def Accounts {α : Type} (m : Machine) (r : Except SystemError α) (m' : Machine) : Prop :=
  ∃ tried, m'.accesses = tried ++ m.accesses ∧
    ∀ e, r = .error e → ∃ access ∈ tried, access.value = none

theorem Accounts.faulty {α : Type} {e : SystemError} (h : m.Accounts (.error e : Except _ α) m') :
    m.Faulty m' := by
  obtain ⟨tried, ht, ha⟩ := h
  exact ⟨tried, ht, ha e rfl⟩

theorem accounts_ok {α : Type} {a : α} (h : m'.accesses = m.accesses) :
    m.Accounts (.ok a : Except SystemError α) m' :=
  ⟨[], h, by simp⟩

theorem Accounts.trans {α β : Type} {r : Except SystemError α} {q : Except SystemError β}
    (h : m.Accounts r m') (h' : m'.Accounts q m'') : m.Accounts q m'' := by
  obtain ⟨tried, ht, -⟩ := h
  obtain ⟨tried', ht', ha⟩ := h'
  refine ⟨tried' ++ tried, by rw [ht', ht, List.append_assoc], fun e he => ?_⟩
  obtain ⟨a, hm, hv⟩ := ha e he
  exact ⟨a, List.mem_append_left _ hm, hv⟩

/-- How a step ends may be told in other words. -/
theorem Accounts.imp {α β : Type} {r : Except SystemError α} {q : Except SystemError β}
    (h : m.Accounts r m') (hq : ∀ e, q = .error e → r = .error e) : m.Accounts q m' := by
  obtain ⟨tried, ht, ha⟩ := h
  exact ⟨tried, ht, fun e he => ha e (hq e he)⟩

/-- A step between machines that a smooth way leads past does not fail. -/
theorem Accounts.exists_ok {α : Type} {r : Except SystemError α} {n n' : Machine}
    (h : m.Accounts r m') (hs : n.Smooth n') (hn : n.accesses = m.accesses)
    (hn' : n'.accesses = m'.accesses) : ∃ a, r = .ok a := by
  cases r with
  | ok a => exact ⟨a, rfl⟩
  | error e => exact absurd hs (h.faulty.congr hn hn').not_smooth

/-! ## One access -/

/-- No register access is tried, and the thread stays where it is. -/
structure Idle (m m' : Machine) : Prop where
  accesses : m'.accesses = m.accesses
  stays : m.Stays m'

theorem idle_refl (m : Machine) : m.Idle m :=
  ⟨rfl, rfl, rfl, rfl⟩

theorem Idle.trans (h : m.Idle m') (h' : m'.Idle m'') : m.Idle m'' :=
  ⟨h'.accesses.trans h.accesses, h.stays.trans h'.stays⟩

/-- A step that idles. -/
def Idles {ε α : Type} (step : Action Machine ε α) : Prop :=
  ∀ m : Machine, m.Idle (step m).2

section Idles

variable {ε α β : Type}

theorem Idles.bind {x : Action Machine ε α} {f : α → Action Machine ε β}
    (hx : Idles x) (hf : ∀ a, Idles (f a)) : Idles (x >>= f) := by
  intro m
  have hm := hx m
  rw [Action.bind_apply]
  rcases h : x m with ⟨e | a, m'⟩
  · rwa [h] at hm
  · rw [h] at hm
    exact hm.trans (hf a m')

theorem idles_liftM (r : Except ε α) : Idles (liftM r : Action Machine ε α) :=
  fun m => m.idle_refl

theorem idles_throw (e : ε) : Idles (throw e : Action Machine ε α) :=
  fun m => m.idle_refl

theorem idles_trip (call : Call) : Idles (liftM (trip call) : Action Machine ε _) :=
  fun _ => ⟨rfl, rfl, rfl, rfl⟩

theorem idles_get : Idles (get : Action Machine ε Machine) :=
  fun m => m.idle_refl

theorem idles_read (bank : NodeBank) (cpu : Nat) (msr : UInt32) : Idles (bank.read cpu msr) := by
  refine (idles_liftM _).bind fun place => (idles_trip .pread).bind fun fault =>
    (idles_liftM _).bind fun count => idles_get.bind fun m => ?_
  split
  · exact idles_throw _
  · split
    · exact fun m => m.idle_refl
    · exact idles_throw _

theorem idles_write (bank : NodeBank) (cpu : Nat) (msr : UInt32) (value : UInt64) :
    Idles (bank.write cpu msr value) := by
  refine (idles_liftM _).bind fun place => (idles_trip .pwrite).bind fun fault =>
    (idles_liftM _).bind fun count => idles_get.bind fun m => ?_
  split
  · exact idles_throw _
  · refine Idles.bind (fun _ => ⟨rfl, rfl, rfl, rfl⟩) fun _ => ?_
    split
    · exact fun m => m.idle_refl
    · exact idles_throw _

theorem idles_guarded {call : Call} {step : Action Machine SystemError α} (hs : Idles step) :
    Idles (guarded call step) := by
  intro m
  rcases guarded_cases call step m with ⟨e, faults, h⟩ | ⟨faults, h⟩
  · rw [h]
    exact ⟨rfl, rfl, rfl, rfl⟩
  · rw [h]
    have hm : m.Idle { m with faults } := ⟨rfl, rfl, rfl, rfl⟩
    exact hm.trans (hs { m with faults })

end Idles

theorem Idle.journal (h : m.Idle m') (write : Bool) (cpu : Nat) (msr : UInt32)
    (value : Option UInt64) :
    (m'.journal write cpu msr value).accesses =
        { write, cpu, msr, value, allowed := m.allowed, cur := m.cur } :: m.accesses ∧
      m.Stays (m'.journal write cpu msr value) := by
  refine ⟨?_, h.stays.cpus, h.stays.allowed, h.stays.cur⟩
  rw [Machine.journal, h.accesses, h.stays.allowed, h.stays.cur]

/-- A read is one attempt, entered with the cpus that the thread is bound to. -/
theorem rdmsr_journal (cpu : Nat) (msr : UInt32) (m : Machine) :
    (rdmsr cpu msr m).2.accesses =
        { write := false, cpu, msr, value := (rdmsr cpu msr m).1.toOption, allowed := m.allowed,
          cur := m.cur } :: m.accesses ∧
      m.Stays (rdmsr cpu msr m).2 := by
  unfold rdmsr
  cases m.bank with
  | soft bank => exact (idles_guarded (fun m => m.idle_refl) m).journal ..
  | nodes bank => exact (idles_read bank cpu msr m).journal ..

/-- A write is one attempt, entered with the cpus that the thread is bound to. -/
theorem wrmsr_journal (cpu : Nat) (msr : UInt32) (value : UInt64) (m : Machine) :
    (wrmsr cpu msr value m).2.accesses =
        { write := true, cpu, msr, value := (wrmsr cpu msr value m).1.toOption.map fun _ => value,
          allowed := m.allowed, cur := m.cur } :: m.accesses ∧
      m.Stays (wrmsr cpu msr value m).2 := by
  unfold wrmsr
  cases m.bank with
  | soft bank => exact (idles_guarded (fun _ => ⟨rfl, rfl, rfl, rfl⟩) m).journal ..
  | nodes bank => exact (idles_write bank cpu msr value m).journal ..

theorem wrmsrAll_stays (cpu : Nat) (writes : List (UInt32 × UInt64)) (m : Machine) :
    m.Stays (wrmsrAll cpu writes m).2 := by
  induction writes generalizing m with
  | nil => exact ⟨rfl, rfl, rfl⟩
  | cons w writes ih =>
    have hw := (wrmsr_journal cpu w.1 w.2 m).2
    rw [wrmsrAll, Action.bind_apply]
    rcases h : wrmsr cpu w.1 w.2 m with ⟨e | _, m'⟩
    · rwa [h] at hw
    · rw [h] at hw
      exact hw.trans (ih m')

theorem rdmsr_accounts (cpu : Nat) (msr : UInt32) (m : Machine) :
    m.Accounts (rdmsr cpu msr m).1 (rdmsr cpu msr m).2 := by
  refine ⟨[_], (rdmsr_journal cpu msr m).1, fun e he => ⟨_, List.mem_singleton_self _, ?_⟩⟩
  exact congrArg Except.toOption he

theorem wrmsr_accounts (cpu : Nat) (msr : UInt32) (value : UInt64) (m : Machine) :
    m.Accounts (wrmsr cpu msr value m).1 (wrmsr cpu msr value m).2 := by
  refine ⟨[_], (wrmsr_journal cpu msr value m).1, fun e he => ⟨_, List.mem_singleton_self _, ?_⟩⟩
  exact congrArg (fun r => r.toOption.map fun _ => value) he

theorem wrmsrAll_accounts (cpu : Nat) (writes : List (UInt32 × UInt64)) (m : Machine) :
    m.Accounts (wrmsrAll cpu writes m).1 (wrmsrAll cpu writes m).2 := by
  induction writes generalizing m with
  | nil => exact accounts_ok rfl
  | cons w writes ih =>
    have hw := wrmsr_accounts cpu w.1 w.2 m
    rw [wrmsrAll, Action.bind_apply]
    rcases h : wrmsr cpu w.1 w.2 m with ⟨e | _, m'⟩
    · rw [h] at hw
      exact hw.imp fun _ he => he
    · rw [h] at hw
      exact hw.trans (ih m')

end Machine

end BranchTrace
