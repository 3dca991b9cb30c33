import BranchTrace.Proofs.Machine.Passes

/-!
# Conduct

Everything the library does to a machine comes down to a few moves: it reports events, strikes
faults off the plan, changes the bank, reads and writes registers, and takes pins that it gives
back. A relation between two machines that every such move respects is a `Machine.Conduct`; then
all steps made of them respect it too (`Respects`), however they end.

Main statements: `Conduct.pinned` and `Conduct.onEachCpu`, a step under pins respects what it does
by itself; `Conduct.save` and its like for what is done to a branch stack.
-/

namespace BranchTrace

open MachineState

/-- A relation holds from the machine before a step to the machine after it. -/
def Respects {σ α : Type} [MachineState σ] (R : Machine → Machine → Prop) (step : StateM σ α) :
    Prop :=
  ∀ s, R (machine s) (machine (step s).2)

namespace Machine

/-- A pin was taken on one machine and led to the other: the thread is bound to the cpu of the
pin, which knows the cpus it was bound to before. -/
structure Takes (m : Machine) (pin : Pin) (m' : Machine) : Prop where
  saved : pin.saved = m.affinity
  after : ∃ faults, m' = { m with faults, allowed := [pin.cpu], cur := pin.cpu }

/-- A relation that holds from the machine before a move to the machine after it, and over moves
one after the other. -/
structure Conduct (R : Machine → Machine → Prop) : Prop where
  refl : ∀ m, R m m
  trans : ∀ {m m' m''}, R m m' → R m' m'' → R m m''
  event : ∀ event m, R m { m with events := event :: m.events }
  faults : ∀ faults m, R m { m with faults }
  bank : ∀ bank m, R m { m with bank }
  rdmsr : ∀ cpu msr, Respects R (rdmsr cpu msr)
  wrmsr : ∀ cpu msr value, Respects R (wrmsr cpu msr value)
  /-- From before a pin is taken to after it is given back. -/
  release : ∀ {m m' m'' pin}, Takes m pin m' → R m' m'' → R m (pin.release m'').2

end Machine

/-- Taking a pin fails and strikes faults off the plan at most, or the pin is taken. -/
def Taking (take : Action Machine SystemError Pin) : Prop :=
  ∀ m : Machine, (∃ e faults, take m = (.error e, { m with faults })) ∨
    ∃ pin m', take m = (.ok pin, m') ∧ m.Takes pin m'

theorem Pin.taking_current : Taking current := by
  intro m
  apply (current_cases m).imp_right
  rintro ⟨faults, h, -⟩
  exact ⟨_, _, h, rfl, faults, rfl⟩

theorem Pin.taking_on (cpu : Nat) : Taking (on cpu) := by
  intro m
  apply (on_cases cpu m).imp_right
  rintro ⟨faults, h⟩
  exact ⟨_, _, h, rfl, faults, rfl⟩

namespace Respects

variable {R : Machine → Machine → Prop} {σ ε α : Type} [MachineState σ]

theorem lift {step : StateM σ α} (h : Respects R step) :
    Respects R (ExceptT.lift step : Action σ ε α) :=
  h

theorem onMachine {step : StateM Machine α} (h : Respects R step) :
    Respects R (onMachine step : StateM σ α) := by
  intro s
  show R (machine s) (machine (setMachine s (step (machine s)).2))
  rw [machine_setMachine]
  apply h

theorem tryMachine {wrap : SystemError → ε} {step : Action Machine SystemError α}
    (h : Respects R step) : Respects R (tryMachine wrap step : Action σ ε α) := by
  intro s
  show R (machine s) (machine (setMachine s (step (machine s)).2))
  rw [machine_setMachine]
  apply h

end Respects

namespace Machine.Conduct

variable {R : Machine → Machine → Prop} {σ ε α β : Type} [MachineState σ]
variable (hR : Machine.Conduct R)
include hR

/-! ## Steps -/

/-- A step that leaves the machine alone. -/
theorem still {step : StateM σ α} (h : ∀ s, machine (step s).2 = machine s) :
    Respects R step := by
  intro s
  rw [h]
  apply hR.refl

theorem get : Respects R (get : StateM σ σ) :=
  hR.still fun _ => rfl

theorem pure (a : α) : Respects R (Pure.pure a : StateM σ α) :=
  hR.still fun _ => rfl

theorem pureE (a : α) : Respects R (Pure.pure a : Action σ ε α) :=
  hR.still fun _ => rfl

theorem throw (e : ε) : Respects R (throw e : Action σ ε α) :=
  hR.still fun _ => rfl

theorem liftM (r : Except ε α) : Respects R (liftM r : Action σ ε α) :=
  hR.still fun _ => rfl

theorem bind {x : StateM σ α} {f : α → StateM σ β} (hx : Respects R x)
    (hf : ∀ a, Respects R (f a)) : Respects R (x >>= f) :=
  fun s => hR.trans (hx s) (hf _ _)

theorem bindE {x : Action σ ε α} {f : α → Action σ ε β} (hx : Respects R x)
    (hf : ∀ a, Respects R (f a)) : Respects R (x >>= f : Action σ ε β) := by
  intro s
  have h := hx s
  rw [Action.bind_apply]
  rcases hs : x s with ⟨e | a, t⟩
  · rwa [hs] at h
  · rw [hs] at h
    exact hR.trans h (hf a t)

theorem tryCatch {x : Action σ ε α} {f : ε → Action σ ε α} (hx : Respects R x)
    (hf : ∀ e, Respects R (f e)) : Respects R (tryCatch x f : Action σ ε α) := by
  intro s
  have h := hx s
  rw [Action.tryCatch_apply]
  rcases hs : x s with ⟨e | a, t⟩
  · rw [hs] at h
    exact hR.trans h (hf e t)
  · rwa [hs] at h

theorem report (event : Event) : Respects R (report event : StateM σ Unit) :=
  Respects.onMachine fun m => hR.event event m

theorem tell (event : Event) : Respects R (tell event : Action σ ε Unit) :=
  hR.report event

theorem events (events : List Event) (m : Machine) :
    R m { m with events := events ++ m.events } := by
  induction events with
  | nil => exact hR.refl m
  | cons event rest ih => exact hR.trans ih (hR.event event _)

theorem reportAll (events : List Event) : Respects R (reportAll events : StateM σ Unit) :=
  Respects.onMachine fun m => hR.events events.reverse m

theorem guarded {call : Call} {step : Action Machine SystemError α} (hs : Respects R step) :
    Respects R (guarded call step) := by
  intro m
  rcases guarded_cases call step m with ⟨e, faults, h⟩ | ⟨faults, h⟩
  · rw [h]
    exact hR.faults faults m
  · rw [h]
    exact hR.trans (hR.faults faults m) (hs _)

/-! ## Registers -/

theorem wrmsrAll (cpu : Nat) (writes : List (UInt32 × UInt64)) :
    Respects R (wrmsrAll cpu writes) := by
  induction writes with
  | nil => exact hR.pureE ()
  | cons w writes ih => exact hR.bindE (hR.wrmsr cpu w.1 w.2) fun _ => ih

theorem restore (cpu : Nat) (context : Context) : Respects R (Lbr.restore cpu context) :=
  hR.wrmsrAll cpu context.writes

theorem readBranches (cpu : Nat) (index : UInt32) (branches : List Branch) :
    Respects R (Lbr.readBranches cpu index branches) := by
  induction branches generalizing index with
  | nil => exact hR.pure _
  | cons branch rest ih =>
    apply hR.bind (hR.rdmsr cpu _)
    rintro (e | source)
    · exact hR.pure _
    apply hR.bind (hR.rdmsr cpu _)
    rintro (e | target)
    · exact hR.pure _
    · exact hR.bind (ih (index + 1)) fun _ => hR.pure _

theorem save (cpu : Nat) (context : Context) : Respects R (Lbr.save cpu context) := by
  apply hR.bind (hR.rdmsr cpu _)
  rintro (e | bits)
  · exact hR.pure _
  apply hR.bind (hR.rdmsr cpu _)
  rintro (e | tos)
  · exact hR.pure _
  · exact hR.bind (hR.readBranches cpu 0 _) fun _ => hR.pure _

theorem flush (capacity cpu : Nat) (enable : Bool) : Respects R (Lbr.flush capacity cpu enable) :=
  hR.bindE (hR.wrmsrAll cpu _) fun _ => hR.wrmsr cpu _ _

theorem enable (capacity cpu : Nat) : Respects R (Lbr.enable capacity cpu) :=
  hR.bindE (hR.tell _) fun _ => hR.flush capacity cpu true

theorem disable (capacity cpu : Nat) : Respects R (Lbr.disable capacity cpu) :=
  hR.bindE (hR.tell _) fun _ => hR.bindE (hR.wrmsr cpu _ _) fun _ => hR.flush capacity cpu false

/-! ## Pins -/

/-- A step under a pin, on every way out. -/
theorem pinned {wrap : SystemError → ε} {take : Action Machine SystemError Pin}
    {step : Pin → Action σ ε α} (ht : Taking take) (hs : ∀ pin, Respects R (step pin)) :
    Respects R (pinned wrap take step) := by
  intro s
  rw [pinned_apply]
  rcases ht (machine s) with ⟨e, faults, h⟩ | ⟨pin, m, h, htakes⟩
  · rw [h]
    show R (machine s) (machine (setMachine s _))
    rw [machine_setMachine]
    exact hR.faults faults _
  · rw [h]
    show R (machine s) (machine (setMachine (step pin (setMachine s m)).2 _))
    have hstep := hs pin (setMachine s m)
    rw [machine_setMachine] at hstep ⊢
    exact hR.release htakes hstep

variable {step : Pin → StateM σ α} (hs : ∀ pin, Respects R (step pin))
include hs

theorem visitCpus (cpus : List Nat) : Respects R (visitCpus step cpus) := by
  induction cpus with
  | nil => exact hR.still fun _ => rfl
  | cons cpu rest ih =>
    intro s
    have hpinned : Respects R
        (BranchTrace.pinned id (Pin.on cpu) fun pin => ExceptT.lift (step pin)) :=
      hR.pinned (Pin.taking_on cpu) hs
    have h := hpinned s
    rw [BranchTrace.visitCpus]
    rcases hp : BranchTrace.pinned id (Pin.on cpu) (fun pin => ExceptT.lift (step pin)) s with
      ⟨e | a, t⟩
    · rwa [hp] at h
    · rw [hp] at h
      exact hR.trans h (ih t)

/-- A step on one cpu after the other, each under a pin of its own. -/
theorem onEachCpu : Respects R (onEachCpu step) := by
  intro s
  rw [onEachCpu_apply]
  have hallowed : Respects R Machine.getAffinity := hR.guarded (hR.still fun _ => rfl)
  have h := hallowed (machine s)
  rcases ha : Machine.getAffinity (machine s) with ⟨e | cpus, m⟩
  · rw [ha] at h
    show R (machine s) (machine (setMachine s m))
    rwa [machine_setMachine]
  · rw [ha] at h
    have hvisit := hR.visitCpus hs cpus (setMachine s m)
    rw [machine_setMachine] at hvisit
    exact hR.trans h hvisit

end Machine.Conduct

end BranchTrace
