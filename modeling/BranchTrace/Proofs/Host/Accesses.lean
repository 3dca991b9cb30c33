import BranchTrace.Proofs.Host.Interludes
import BranchTrace.Proofs.Lbr.Reading

/-!
# Registers that are tried

Whichever registers are read or written between loading and unloading, with success or not, they
are those of a stack of the configured capacity, and loading and unloading try the switch of
recording besides. Up to 2³¹ places all of them have the numbers that counting up from the first
source and the first target gives (`Msr.Numbered`).

All that happens between loading and unloading is made of saves and restores. So a relation between
machines that holds around these (`Machine.Moves`) holds around each thing that can happen:
`related_request`, `related_fork`, `related_switch`.
-/

namespace BranchTrace

/-- The number of a register of recording: that of the mask, the pointer or the switch, or one that
is counted up from that of the first source or target. -/
def Msr.Numbered (capacity : Nat) (msr : UInt32) : Prop :=
  msr.toNat = 0x1c8 ∨ msr.toNat = 0x1c9 ∨ msr.toNat = 0x1d9 ∨
    ∃ i < capacity, msr.toNat = 0x680 + i ∨ msr.toNat = 0x6c0 + i

/-- Counting does not run over. -/
theorem Msr.numbered_of_touches {capacity : Nat} (hc : capacity ≤ maxPlaces) {msr : UInt32}
    (h : Lbr.Touches capacity msr) : Numbered capacity msr := by
  rcases h with (rfl | rfl | ⟨i, hi, hm⟩) | rfl
  · exact .inl rfl
  · exact .inr (.inl rfl)
  · have hplace : targetBase.toNat + i < UInt32.size :=
      (Nat.add_lt_add_left (hi.trans_le hc) _).trans (by decide)
    refine .inr (.inr (.inr ⟨i, hi, hm.imp ?_ ?_⟩))
    · rintro rfl
      exact toNat_source_ofNat hplace
    · rintro rfl
      exact toNat_target_ofNat hplace
  · exact .inr (.inr (.inl rfl))

namespace Machine

/-- Only some registers are tried on the way from one machine to another. -/
def Tries (registers : UInt32 → Prop) (m m' : Machine) : Prop :=
  ∃ tried, m'.accesses = tried ++ m.accesses ∧ ∀ access ∈ tried, registers access.msr

variable {registers registers' : UInt32 → Prop} {m m' : Machine}

theorem Tries.mono (h : m.Tries registers m') (hr : ∀ msr, registers msr → registers' msr) :
    m.Tries registers' m' := by
  obtain ⟨tried, ht, hm⟩ := h
  exact ⟨tried, ht, fun access ha => hr _ (hm access ha)⟩

theorem composes_tries (registers : UInt32 → Prop) : Composes (Tries registers) where
  untouched h := ⟨[], h.accesses, nofun⟩
  trans := by
    rintro _ _ _ ⟨tried, ht, hm⟩ ⟨tried', ht', hm'⟩
    refine ⟨tried' ++ tried, by rw [ht', ht, List.append_assoc], fun access ha => ?_⟩
    exact (List.mem_append.mp ha).elim (hm' access) (hm access)

theorem tries_rdmsr (cpu : Nat) {msr : UInt32} (h : registers msr) (m : Machine) :
    m.Tries registers (rdmsr cpu msr m).2 :=
  ⟨[_], (rdmsr_journal cpu msr m).1, fun _ ha => List.mem_singleton.mp ha ▸ h⟩

theorem tries_wrmsrAll (cpu : Nat) {writes : List (UInt32 × UInt64)}
    (h : ∀ w ∈ writes, registers w.1) (m : Machine) :
    m.Tries registers (wrmsrAll cpu writes m).2 := by
  obtain ⟨tried, ht, ha⟩ := wrmsrAll_attempts cpu writes m
  refine ⟨tried, ht, fun access hm => ?_⟩
  obtain ⟨-, -, w, hw, he, -⟩ := ha.only access hm
  exact he ▸ h w hw

theorem tries_readAll (cpu : Nat) {msrs : List UInt32} (h : ∀ msr ∈ msrs, registers msr)
    (m : Machine) : m.Tries registers (Lbr.readAll cpu msrs m).2 := by
  induction msrs generalizing m with
  | nil => exact (composes_tries registers).untouched ⟨rfl, rfl⟩
  | cons msr rest ih =>
    obtain ⟨hmsr, hrest⟩ := List.forall_mem_cons.mp h
    have hread := tries_rdmsr cpu hmsr m
    rw [Lbr.readAll]
    rcases hr : rdmsr cpu msr m with ⟨e | value, m'⟩
    · rwa [hr] at hread
    · rw [hr] at hread
      exact (composes_tries registers).trans hread (ih hrest m')

/-- A relation that composes, and holds around every save and restore of a context of some size. -/
structure Moves (capacity : Nat) (R : Machine → Machine → Prop) : Prop extends Composes R where
  save : ∀ cpu context m, context.capacity = capacity → R m (Lbr.save cpu context m).2
  restore : ∀ cpu context m, context.capacity = capacity → R m (Lbr.restore cpu context m).2

theorem moves_tries (capacity : Nat) : Moves capacity (Tries (Msr.OfStack capacity)) where
  toComposes := composes_tries _
  save cpu context m hc := by
    rw [Lbr.save_eq]
    refine tries_readAll cpu (fun msr hm => ?_) m
    obtain ⟨w, hw, rfl⟩ := List.mem_map.mp hm
    exact hc ▸ Context.ofStack_of_mem_writes hw
  restore cpu context m hc :=
    tries_wrmsrAll cpu (fun _ hw => hc ▸ Context.ofStack_of_mem_writes hw) m

end Machine

/-- A pass tries the registers of its writes. -/
theorem Pass.tries {writes : List (UInt32 × UInt64)} {m m' : Machine} {visits : Visits}
    (h : Pass writes m visits m') {registers : UInt32 → Prop} (hw : ∀ w ∈ writes, registers w.1) :
    m.Tries registers m' := by
  obtain ⟨tried, ht, ha⟩ := h.attempts
  refine ⟨tried, ht, fun access hm => ?_⟩
  obtain ⟨-, -, w, hmem, he, -⟩ := ha.only access hm
  exact he ▸ hw w hmem

/-! ## Loading and unloading -/

namespace Platform

variable {config : Config} (hc : config.capacity ≤ Msr.maxPlaces)
include hc

theorem tries_switch {switch : Switch} {m m' : Machine} {visits : Visits}
    (h : Pass (Lbr.switchWrites config.capacity switch) m visits m') :
    m.Tries (Lbr.Touches config.capacity) m' :=
  h.tries fun _ hw => (Lbr.of_mem_switchWrites hc hw).imp And.left (congrArg Prod.fst)

theorem tries_unload {id : Nat} {s : Platform} (h : s.Has id config) :
    s.machine.Tries (Lbr.Touches config.capacity) (unload id s).2.machine := by
  obtain ⟨visits, hp, -⟩ := unload_pass h
  exact tries_switch hc hp

theorem tries_load (s : Platform) :
    s.machine.Tries (Lbr.Touches config.capacity) (load config s).2.machine := by
  have ho := load_outcome config s
  generalize load config s = loaded at ho ⊢
  obtain ⟨r, t⟩ := loaded
  cases ho with
  | refused => exact (Machine.composes_tries _).untouched ⟨rfl, rfl⟩
  | up he hp => exact tries_switch hc hp
  | undone he hp hr ht =>
    exact (Machine.composes_tries _).trans (tries_switch hc hp) (tries_unload hc (has_of_begun ht))

end Platform

/-! ## Services -/

namespace Tracer

variable {config : Config} {s : Tracing} {R : Machine → Machine → Prop}

theorem related_service (hR : Machine.Moves config.capacity R) (hr : Registered config s.store)
    (service : Service) : R s.machine (service.run config s).machine := by
  have hc := hR.toComposes
  cases service with
  | enable pid bits => exact related_enable hc config pid bits s (hR.restore _)
  | disable pid =>
    obtain ⟨events, h⟩ := disable_machine pid s
    exact hc.untouched (h ▸ ⟨rfl, rfl⟩)
  | dump pid? => exact related_dump hc hr.wellFormed hr.capacity pid? (hR.save _)
  | select pid bits => exact related_select hc hr.wellFormed hr.capacity pid bits (hR.restore _)
  | fork parent child =>
    obtain ⟨events, h⟩ := fork_machine config parent child s
    exact hc.untouched (h ▸ ⟨rfl, rfl⟩)
  | schedOut pid => exact related_schedOut hc hr.wellFormed hr.capacity pid (hR.save _)
  | schedIn pid => exact related_schedIn hc hr.wellFormed hr.capacity pid (hR.restore _)

theorem related_ioctl (hR : Machine.Moves config.capacity R) (hr : Registered config s.store)
    (caller number : UInt32) (block : List UInt8) (param : UInt64) :
    R s.machine (ioctl config caller number block param s).2.machine := by
  have hc := hR.toComposes
  rw [ioctl, stateM_bind_apply, ExceptT.run, dispatch_apply]
  cases Request.ofBytes block with
  | error e => exact hc.untouched ⟨rfl, rfl⟩
  | ok request =>
    have hreported : Registered config
      (report (.requested number request.select request.pid) s).2.store := hr
    have hbegun : R s.machine (report (.requested number request.select request.pid) s).2.machine :=
      hc.untouched ⟨rfl, rfl⟩
    dsimp only
    cases Command.ofNumber number with
    | error e => exact hc.untouched ⟨rfl, rfl⟩
    | ok command =>
      have hdone : ∀ (service : Service) (r : Except TraceError Reply),
          R s.machine (status number r (service.run config
            (report (.requested number request.select request.pid) s).2)).2.machine := by
        intro service r
        have hservice := related_service hR hreported service
        refine hc.trans hbegun (hc.trans hservice (hc.untouched ?_))
        cases r <;> exact ⟨rfl, rfl⟩
      cases command with
      | enable => exact hdone (.enable _ _) _
      | disable => exact hdone (.disable _) _
      | dump => exact hdone (.dump _) _
      | select => exact hdone (.select _ _) _

end Tracer

/-! ## Interludes -/

namespace Platform.Serving

variable {id : Nat} {config : Config} {s : Platform} (h : Serving id config s)
include h

theorem machine_onTracer {α : Type} (absent : α) (step : Config → StateM Tracing α) :
    (Platform.onTracer id absent step s).2.machine = (step config (s.tracing id)).2.machine :=
  congrArg Tracing.machine (onTracer_spec h.has absent step).2.1

variable {R : Machine → Machine → Prop} (hR : Machine.Moves config.capacity R)
include hR

theorem related_request (caller number : UInt32) (block : List UInt8) (param : UInt64) :
    R s.machine (Platform.ioctl deviceName caller number block param s).2.machine := by
  rw [h.ioctl_eq, h.machine_onTracer]
  exact Tracer.related_ioctl hR h.registered caller number block param

theorem related_fork (parent child : UInt32) :
    R s.machine (Platform.fork forkSymbol parent child s).2.machine := by
  obtain ⟨ht, hs⟩ := h.onTracer () (fun _ => Tracer.forkBegins parent) h.registered
  let begun := (Tracer.forkBegins parent (s.tracing id)).2
  obtain ⟨events, hforked⟩ := Tracer.fork_machine config parent child begun
  have hu : s.machine.Untouched (Tracer.fork config parent child begun).2.machine :=
    hforked ▸ ⟨rfl, rfl⟩
  rw [h.fork_eq, hs.machine_onTracer, ht]
  exact hR.untouched (hu.trans (Tracer.forkEnds_spec config parent child begun).2)

theorem related_switch (cpu : Nat) (next : UInt32) :
    R s.machine (contextSwitch cpu next s).2.machine := by
  have hc := hR.toComposes
  obtain ⟨ht, -⟩ := contextSwitch_spec h.has h.notifies cpu next
  have hmachine : (contextSwitch cpu next s).2.machine = (s.arrive id cpu next).machine :=
    congrArg Tracing.machine ht
  have hleave : Registered config (s.leave id cpu).store ∧ R s.machine (s.leave id cpu).machine := by
    rw [leave]
    cases s.host.running.lookup cpu with
    | none => exact ⟨h.registered, hc.untouched ⟨rfl, rfl⟩⟩
    | some prev =>
      exact ⟨h.registered.schedOut prev, Tracer.related_service hR h.registered (.schedOut prev)⟩
  rw [hmachine]
  exact hc.trans hleave.2 (Tracer.related_service hR hleave.1 (.schedIn next))

end Platform.Serving

end BranchTrace
