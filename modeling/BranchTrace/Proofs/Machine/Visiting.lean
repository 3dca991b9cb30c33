import BranchTrace.Proofs.Machine.Passes

/-!
# Runs on every cpu

`onEachCpu` asks for the cpus of the thread once. It then takes a pin to one after the other, runs
its step there and gives the pin back, until a pin is refused (`Pin.Refused`). Giving back is not
asked how it ended: it may leave the thread bound where it is, and the next pin binds it elsewhere
all the same.

Main statement: `onEachCpu_runs`, on which cpus any step runs, what it finds there (`Run`), and how
the visit ends.
-/

namespace BranchTrace

open MachineState

/-! ## Pins that are refused -/

/-- The call for the cpus of the thread fails, or else the call that binds it to one. -/
def Pin.Refused (cpu : Nat) (e : SystemError) (m : Machine) : Prop :=
  (Machine.getAffinity m).1 = .error e ∨
    (∃ saved, (Machine.getAffinity m).1 = .ok saved) ∧
      (Machine.setAffinity [cpu] (Machine.getAffinity m).2).1 = .error e

/-- A pin to a cpu that a set of cpus can hold is taken unless one of its calls fails. -/
theorem Pin.on_eq_error_iff {cpu : Nat} (hmax : cpu < Machine.maxCpus) {e : SystemError}
    {m : Machine} : (on cpu m).1 = .error e ↔ Refused cpu e m := by
  simp only [on, Refused, bindTo, if_pos hmax, Action.bind_apply, Action.pure_apply]
  rcases Machine.getAffinity m with ⟨e' | saved, m'⟩
  · simp
  · rcases h : Machine.setAffinity [cpu] m' with ⟨e' | _, m''⟩ <;> simp [h]

/-- Where the thread is once it is pinned to a cpu. -/
theorem Pin.bound_of_on {cpu : Nat} {pin : Pin} {m m' : Machine} (h : on cpu m = (.ok pin, m')) :
    pin.cpu = cpu ∧ m'.allowed = [cpu] ∧ m'.cur = cpu := by
  rcases on_cases cpu m with ⟨e, faults, h'⟩ | ⟨faults, h'⟩
  · cases h.symm.trans h'
  · cases h.symm.trans h'
    exact ⟨rfl, rfl, rfl⟩

section Runs

variable {σ α : Type} [MachineState σ]

/-! ## Runs of a step -/

/-- One run of a step under a pin. -/
structure Run (α : Type) where
  pin : Pin
  /-- The machine that the step found. -/
  start : Machine
  value : α

/-- A step that also gives a record of its run. -/
def recorded (step : Pin → StateM σ α) (pin : Pin) : StateM σ (Run α) := fun s =>
  ({ pin, start := machine s, value := (step pin s).1 }, (step pin s).2)

/-- The cpus of some runs, in order. -/
def Run.cpus (runs : List (Run α)) : List Nat :=
  runs.map (·.pin.cpu)

variable (step : Pin → StateM σ α)

theorem visitCpus_refused {cpu : Nat} {s : σ} {e : SystemError} {m : Machine}
    (h : Pin.on cpu (machine s) = (.error e, m)) (rest : List Nat) :
    visitCpus step (cpu :: rest) s = ((.error e, []), setMachine s m) := by
  rw [visitCpus, pinned_apply, h]
  rfl

theorem visitCpus_taken {cpu : Nat} {s : σ} {pin : Pin} {m : Machine}
    (h : Pin.on cpu (machine s) = (.ok pin, m)) (rest : List Nat) :
    visitCpus step (cpu :: rest) s =
      let next := visitCpus step rest (visitCpus step [cpu] s).2
      ((next.1.1, (step pin (setMachine s m)).1 :: next.1.2), next.2) := by
  simp only [visitCpus, pinned_apply, h]
  rfl

/-- Keeping a record changes nothing else. -/
theorem visitCpus_recorded (cpus : List Nat) (s : σ) :
    visitCpus step cpus s =
      let visited := visitCpus (recorded step) cpus s
      ((visited.1.1, visited.1.2.map (·.value)), visited.2) := by
  induction cpus generalizing s with
  | nil => rfl
  | cons cpu rest ih =>
    rcases h : Pin.on cpu (machine s) with ⟨e | pin, m⟩
    · rw [visitCpus_refused step h, visitCpus_refused (recorded step) h]
      rfl
    · have hvisit : (visitCpus step [cpu] s).2 = (visitCpus (recorded step) [cpu] s).2 := by
        simp only [visitCpus, pinned_apply, h]
        rfl
      rw [visitCpus_taken step h, visitCpus_taken (recorded step) h, hvisit, ih]
      rfl

/-! ## Cpus whose turn comes -/

/-- Every one of these cpus can be pinned when its turn comes. -/
def AllPinned : List Nat → σ → Prop
  | [], _ => True
  | cpu :: rest, s =>
    (∀ e, ¬Pin.Refused cpu e (machine s)) ∧ AllPinned rest (visitCpus step [cpu] s).2

/-- Of these cpus, the first that cannot be pinned, and those before it. -/
structure RefusedAt (cpus : List Nat) (s : σ) (before : List Nat) (e : SystemError) : Prop where
  pinned : AllPinned step before s
  refused : ∃ cpu after, cpus = before ++ cpu :: after ∧
    Pin.Refused cpu e (machine (visitCpus step before s).2)

variable {step} {cpus : List Nat} {s : σ}

theorem RefusedAt.cons {cpu : Nat} {pin : Pin} {m : Machine} {before : List Nat} {e : SystemError}
    (hmax : cpu < Machine.maxCpus) (hon : Pin.on cpu (machine s) = (.ok pin, m))
    (h : RefusedAt step cpus (visitCpus step [cpu] s).2 before e) :
    RefusedAt step (cpu :: cpus) s (cpu :: before) e := by
  obtain ⟨hpinned, next, after, rfl, hrefused⟩ := h
  refine ⟨⟨fun e' he => ?_, hpinned⟩, next, after, rfl, ?_⟩
  · rw [← Pin.on_eq_error_iff hmax, hon] at he
    cases he
  · rw [visitCpus_taken step hon]
    exact hrefused

/-- Where one is refused, not all can be pinned. -/
theorem RefusedAt.not_allPinned {before : List Nat} {e : SystemError}
    (h : RefusedAt step cpus s before e) (hmax : ∀ cpu ∈ cpus, cpu < Machine.maxCpus) :
    ¬AllPinned step cpus s := by
  obtain ⟨-, cpu, after, rfl, hrefused⟩ := h
  induction before generalizing s with
  | nil => exact fun hall => hall.1 e hrefused
  | cons first before ih =>
    rintro ⟨hfirst, hall⟩
    obtain ⟨hm, hmax⟩ := List.forall_mem_cons.mp hmax
    rcases hon : Pin.on first (machine s) with ⟨e' | pin, m⟩
    · exact hfirst e' ((Pin.on_eq_error_iff hm).mp (congrArg Prod.fst hon))
    · rw [visitCpus_taken step hon] at hrefused
      exact ih hrefused hmax hall

/-- Visits run the step on every cpu, or on those before the first that cannot be pinned. -/
theorem visitCpus_runs (step : Pin → StateM σ α) {cpus : List Nat}
    (hmax : ∀ cpu ∈ cpus, cpu < Machine.maxCpus) (s : σ) :
    let visited := (visitCpus (recorded step) cpus s).1
    (visited.1 = .ok () ∧ AllPinned step cpus s ∧ Run.cpus visited.2 = cpus) ∨
      ∃ e, visited.1 = .error e ∧ RefusedAt step cpus s (Run.cpus visited.2) e := by
  induction cpus generalizing s with
  | nil => exact .inl ⟨rfl, trivial, rfl⟩
  | cons cpu rest ih =>
    obtain ⟨hm, hrest⟩ := List.forall_mem_cons.mp hmax
    rcases hon : Pin.on cpu (machine s) with ⟨e | pin, m⟩
    · rw [visitCpus_refused (recorded step) hon]
      have hrefused := (Pin.on_eq_error_iff hm).mp (congrArg Prod.fst hon)
      exact .inr ⟨e, rfl, trivial, cpu, rest, rfl, hrefused⟩
    · obtain ⟨rfl, -⟩ := Pin.bound_of_on hon
      have hvisit : (visitCpus (recorded step) [pin.cpu] s).2 = (visitCpus step [pin.cpu] s).2 := by
        rw [visitCpus_recorded step]
      rw [visitCpus_taken (recorded step) hon, hvisit]
      rcases ih hrest (visitCpus step [pin.cpu] s).2 with ⟨hok, hall, hcpus⟩ | ⟨e, he, hrefused⟩
      · refine .inl ⟨hok, ⟨fun e he => ?_, hall⟩, congrArg (pin.cpu :: ·) hcpus⟩
        rw [← Pin.on_eq_error_iff hm, hon] at he
        cases he
      · exact .inr ⟨e, he, hrefused.cons hm hon⟩

/-! ## Visits of all cpus -/

/-- A run finds the thread bound to its cpu, and there. -/
def Run.Bound (run : Run α) : Prop :=
  run.start.allowed = [run.pin.cpu] ∧ run.start.cur = run.pin.cpu

theorem bound_of_visitCpus (step : Pin → StateM σ α) (cpus : List Nat) (s : σ) :
    ∀ run ∈ (visitCpus (recorded step) cpus s).1.2, run.Bound := by
  induction cpus generalizing s with
  | nil => exact nofun
  | cons cpu rest ih =>
    rcases hon : Pin.on cpu (machine s) with ⟨e | pin, m⟩
    · rw [visitCpus_refused (recorded step) hon]
      exact nofun
    · rw [visitCpus_taken (recorded step) hon, List.forall_mem_cons]
      obtain ⟨hcpu, hallowed, hcur⟩ := Pin.bound_of_on hon
      refine ⟨?_, ih _⟩
      rw [Run.Bound, recorded, machine_setMachine]
      exact ⟨hcpu ▸ hallowed, hcpu ▸ hcur⟩

/-- How a visit of all cpus ends, and the runs of its step. -/
structure RunsOnEach (step : Pin → StateM σ α) (s : σ) (r : Except SystemError Nat)
    (runs : List (Run α)) : Prop where
  bound : ∀ run ∈ runs, run.Bound
  /-- The step runs on the first of the cpus the thread might run on, lowest first. -/
  initial : Run.cpus runs <+: (machine s).affinity
  ascending : (Run.cpus runs).Pairwise (· < ·)
  /-- The visit ends well if its first call does and every pin is taken, and only then. -/
  ok_iff : ∀ count, r = .ok count ↔
    (Machine.getAffinity (machine s)).1 = .ok (machine s).affinity ∧
      AllPinned step (machine s).affinity (setMachine s (Machine.getAffinity (machine s)).2) ∧
      count = (machine s).affinity.length
  whole : ∀ count, r = .ok count → Run.cpus runs = (machine s).affinity
  /-- The failure is that of the first call that fails, and the step ran on the cpus before it. -/
  failed : ∀ e, r = .error e →
    ((Machine.getAffinity (machine s)).1 = .error e ∧ runs = []) ∨
      (Machine.getAffinity (machine s)).1 = .ok (machine s).affinity ∧
        RefusedAt step (machine s).affinity (setMachine s (Machine.getAffinity (machine s)).2)
          (Run.cpus runs) e

theorem runsOnEach (step : Pin → StateM σ α) {s : σ}
    (hsorted : (machine s).allowed.Pairwise (· < ·)) :
    RunsOnEach step s (onEachCpu (recorded step) s).1.1 (onEachCpu (recorded step) s).1.2 := by
  have hsorted : (machine s).affinity.Pairwise (· < ·) := hsorted.filter _
  have hmax : ∀ cpu ∈ (machine s).affinity, cpu < Machine.maxCpus :=
    fun cpu hcpu => of_decide_eq_true (List.mem_filter.mp hcpu).2
  rw [onEachCpu_apply]
  rcases Machine.getAffinity_cases (machine s) with ⟨e, faults, h⟩ | ⟨faults, h⟩
  · rw [h]
    refine ⟨List.forall_mem_nil _, List.nil_prefix, .nil, fun count => ?_, fun count hok => ?_,
      fun e' he => ?_⟩
    · rw [h]
      exact iff_of_false (by rintro ⟨⟩) (by rintro ⟨⟨⟩, -⟩)
    · cases hok
    · cases he
      exact .inl ⟨congrArg Prod.fst h, rfl⟩
  · rw [← Machine.affinity] at h
    have hbound := bound_of_visitCpus step (machine s).affinity
      (setMachine s { machine s with faults })
    have hruns := visitCpus_runs step hmax (setMachine s { machine s with faults })
    rw [h]
    dsimp only at hruns ⊢
    generalize visitCpus (recorded step) (machine s).affinity
      (setMachine s { machine s with faults }) = visited at hbound hruns ⊢
    rcases hruns with ⟨hok, hall, hcpus⟩ | ⟨e, he, hrefused⟩
    · rw [hok]
      refine ⟨hbound, hcpus ▸ List.prefix_refl _, hcpus ▸ hsorted, fun count => ?_,
        fun _ _ => hcpus, fun e he => ?_⟩
      · rw [h]
        exact ⟨fun hcount => ⟨rfl, hall, (Except.ok.inj hcount).symm⟩,
          fun hcount => congrArg Except.ok hcount.2.2.symm⟩
      · cases he
    · rw [he]
      have hinitial : Run.cpus visited.1.2 <+: (machine s).affinity := by
        obtain ⟨cpu, after, hsplit, -⟩ := hrefused.refused
        exact ⟨cpu :: after, hsplit.symm⟩
      refine ⟨hbound, hinitial, hsorted.sublist hinitial.sublist, fun count => ?_,
        fun count hok => ?_, fun e' he' => ?_⟩
      · rw [h]
        exact iff_of_false (by rintro ⟨⟩) fun hcount => hrefused.not_allPinned hmax hcount.2.1
      · cases hok
      · cases he'
        rw [h]
        exact .inr ⟨rfl, hrefused⟩

/-- Whatever a step does, and wherever a call about the cpus of the thread fails, it runs on every
cpu the thread could run on before, or on those before the one whose pin was refused. -/
theorem onEachCpu_runs (step : Pin → StateM σ α) {s : σ}
    (hsorted : (machine s).allowed.Pairwise (· < ·)) :
    let visited := onEachCpu (recorded step) s
    onEachCpu step s = ((visited.1.1, visited.1.2.map (·.value)), visited.2) ∧
      RunsOnEach step s visited.1.1 visited.1.2 := by
  refine ⟨?_, runsOnEach step hsorted⟩
  rw [onEachCpu_apply, onEachCpu_apply]
  rcases Machine.getAffinity (machine s) with ⟨e | cpus, m⟩
  · rfl
  · dsimp only
    rw [visitCpus_recorded step]

end Runs

/-- A machine of three cpus where the thread cannot be given its cpus back after the first pin. -/
def clingingMachine : Machine :=
  { Machine.new 3 with faults := [{ call := .setaffinity, skip := 1 }] }

/-- A step that tells where the thread may run and what its pin will give back. -/
def whereabouts (pin : Pin) : StateM Machine (List Nat × List Nat) := fun m =>
  ((m.allowed, pin.saved), m)

/-- The second pin finds the thread still bound to the first cpu, and all cpus are visited. -/
theorem onEachCpu_runs_clinging :
    (onEachCpu whereabouts clingingMachine).1 =
        (.ok 3, [([0], [0, 1, 2]), ([1], [0]), ([2], [0])]) ∧
      RunsOnEach whereabouts clingingMachine (onEachCpu (recorded whereabouts) clingingMachine).1.1
        (onEachCpu (recorded whereabouts) clingingMachine).1.2 := by
  have hsorted : clingingMachine.allowed.Pairwise (· < ·) := by decide
  exact ⟨rfl, (onEachCpu_runs whereabouts hsorted).2⟩

end BranchTrace
