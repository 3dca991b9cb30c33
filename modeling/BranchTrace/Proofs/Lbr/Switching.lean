import BranchTrace.Proofs.Lbr.Reach
import BranchTrace.Proofs.Machine.Passes

/-!
# Switching recording

The writes that switch recording on or off on a cpu (`Lbr.switchWrites`). They clear the stack and
set the switch, so a register that is written more than once gets the same value every time
(`Lbr.of_mem_switchWrites`).

Main statement: `Pass.registers`, what the registers of a software bank hold after a pass that
switches recording, whichever of its writes failed.
-/

namespace BranchTrace

namespace Lbr

/-- Switches recording over a cleared stack. -/
def switch (capacity : Nat) : Switch → Nat → Action Machine SystemError Unit
  | .enable => enable capacity
  | .disable => disable capacity

/-- What the switch of recording is set to. -/
def setting : Switch → UInt64
  | .enable => Msr.recording
  | .disable => 0

/-- The register writes that switch recording, in order. -/
def switchWrites (capacity : Nat) : Switch → List (UInt32 × UInt64)
  | .enable => clearWrites capacity ++ [(Msr.debugctl, Msr.recording)]
  | .disable => (Msr.select, 0) :: (clearWrites capacity ++ [(Msr.debugctl, 0)])

theorem wrmsrAll_append (cpu : Nat) (first rest : List (UInt32 × UInt64)) :
    Machine.wrmsrAll cpu (first ++ rest) =
      Machine.wrmsrAll cpu first >>= fun _ => Machine.wrmsrAll cpu rest := by
  induction first with
  | nil => rfl
  | cons w first ih =>
    funext m
    rw [List.cons_append, Machine.wrmsrAll, ih, Machine.wrmsrAll]
    simp only [Action.bind_apply]
    rcases Machine.wrmsr cpu w.1 w.2 m with ⟨e | _, m'⟩ <;> rfl

theorem flush_apply (capacity cpu : Nat) (on : Bool) (m : Machine) :
    flush capacity cpu on m = Machine.wrmsrAll cpu
      (clearWrites capacity ++ [(Msr.debugctl, if on then Msr.recording else 0)]) m := by
  rw [wrmsrAll_append, flush, Action.bind_apply, Action.bind_apply]
  rcases Machine.wrmsrAll cpu (clearWrites capacity) m with ⟨e | _, m'⟩
  · rfl
  · dsimp only
    rw [Machine.wrmsrAll, Action.bind_apply]
    rcases Machine.wrmsr cpu Msr.debugctl (if on then Msr.recording else 0) m' with ⟨e | _, m''⟩ <;>
      rfl

/-- Switching recording is a report and then its writes. -/
theorem switch_apply (capacity : Nat) (switch : Switch) (cpu : Nat) (m : Machine) :
    Lbr.switch capacity switch cpu m =
      Machine.wrmsrAll cpu (switchWrites capacity switch)
        (report (.switchingCpu switch cpu) m).2 := by
  cases switch with
  | enable =>
    rw [Lbr.switch, enable, Action.bind_apply, Action.tell_apply]
    exact flush_apply ..
  | disable =>
    rw [Lbr.switch, disable, Action.bind_apply, Action.tell_apply]
    dsimp only
    rw [Action.bind_apply, switchWrites, Machine.wrmsrAll, Action.bind_apply]
    rcases Machine.wrmsr cpu Msr.select 0 (report (.switchingCpu .disable cpu) m).2 with
      ⟨e | _, m'⟩
    · rfl
    · exact flush_apply ..

/-! ## What is written -/

variable {capacity : Nat}

/-- Clearing writes zero to the registers of a stack. -/
theorem of_mem_clearWrites (hc : capacity ≤ Msr.maxPlaces) {w : UInt32 × UInt64}
    (hw : w ∈ clearWrites capacity) : Msr.OfStack capacity w.1 ∧ w.2 = 0 := by
  have hlt : capacity < UInt32.size := hc.trans_lt (by decide)
  rw [clearWrites, Nat.mod_eq_of_lt hlt, List.mem_cons, List.mem_cons] at hw
  rcases hw with rfl | rfl | hw
  · exact ⟨.inl rfl, rfl⟩
  · exact ⟨.inr (.inl rfl), rfl⟩
  · have h := ofStack_of_mem_branchWrites hw
    rw [List.length_replicate] at h
    refine ⟨h, ?_⟩
    obtain ⟨i, branch, hi, hv⟩ := exists_of_mem_branchWrites hw
    have hzero : branch = ⟨0, 0⟩ :=
      List.eq_of_mem_replicate (List.mem_of_getElem? hi)
    rcases hv with rfl | rfl <;> rw [hzero]

/-- Clearing reaches every register of a stack. -/
theorem mem_clearWrites (hc : capacity ≤ Msr.maxPlaces) {msr : UInt32}
    (hm : Msr.OfStack capacity msr) : (msr, 0) ∈ clearWrites capacity := by
  have hlt : capacity < UInt32.size := hc.trans_lt (by decide)
  rw [clearWrites, Nat.mod_eq_of_lt hlt, List.mem_cons, List.mem_cons]
  rcases hm with rfl | rfl | ⟨i, hi, hm⟩
  · exact .inl rfl
  · exact .inr (.inl rfl)
  · have hbranch : (List.replicate capacity (⟨0, 0⟩ : Branch))[i]? = some ⟨0, 0⟩ := by
      rw [List.getElem?_replicate, if_pos hi]
    have h := mem_branchWrites 0 hbranch
    rw [UInt32.zero_add] at h
    rcases hm with rfl | rfl
    · exact .inr (.inr h.1)
    · exact .inr (.inr h.2)

/-- The registers that switching recording touches. -/
def Touches (capacity : Nat) (msr : UInt32) : Prop :=
  Msr.OfStack capacity msr ∨ msr = Msr.debugctl

theorem of_mem_switchWrites (hc : capacity ≤ Msr.maxPlaces) {switch : Switch}
    {w : UInt32 × UInt64} (hw : w ∈ switchWrites capacity switch) :
    (Msr.OfStack capacity w.1 ∧ w.2 = 0) ∨ w = (Msr.debugctl, setting switch) := by
  cases switch with
  | enable =>
    exact (List.mem_append.mp hw).imp (of_mem_clearWrites hc) List.mem_singleton.mp
  | disable =>
    rcases List.mem_cons.mp hw with rfl | hw
    · exact .inl ⟨.inl rfl, rfl⟩
    · exact (List.mem_append.mp hw).imp (of_mem_clearWrites hc) List.mem_singleton.mp

theorem mem_switchWrites (hc : capacity ≤ Msr.maxPlaces) (switch : Switch) {msr : UInt32}
    (hm : Msr.OfStack capacity msr) : (msr, 0) ∈ switchWrites capacity switch := by
  have h := List.mem_append_left [(Msr.debugctl, setting switch)] (mem_clearWrites hc hm)
  cases switch with
  | enable => exact h
  | disable => exact List.mem_cons_of_mem _ h

theorem debugctl_mem_switchWrites (capacity : Nat) (switch : Switch) :
    (Msr.debugctl, setting switch) ∈ switchWrites capacity switch := by
  cases switch with
  | enable => exact List.mem_append_right _ (List.mem_singleton_self _)
  | disable => exact List.mem_cons_of_mem _ (List.mem_append_right _ (List.mem_singleton_self _))

theorem switchWrites_ne_nil (capacity : Nat) (switch : Switch) :
    switchWrites capacity switch ≠ [] :=
  List.ne_nil_of_mem (debugctl_mem_switchWrites capacity switch)

/-- A register of the stack is only ever cleared. -/
theorem eq_zero_of_mem_switchWrites (hc : capacity ≤ Msr.maxPlaces) {switch : Switch}
    {w : UInt32 × UInt64} (hw : w ∈ switchWrites capacity switch)
    (hm : Msr.OfStack capacity w.1) : w.2 = 0 := by
  rcases of_mem_switchWrites hc hw with h | rfl
  · exact h.2
  · exact absurd hm (Msr.not_ofStack_debugctl hc)

theorem eq_setting_of_mem_switchWrites (hc : capacity ≤ Msr.maxPlaces) {switch : Switch}
    {w : UInt32 × UInt64} (hw : w ∈ switchWrites capacity switch) (hm : w.1 = Msr.debugctl) :
    w.2 = setting switch := by
  rcases of_mem_switchWrites hc hw with h | rfl
  · exact absurd (hm ▸ h.1) (Msr.not_ofStack_debugctl hc)
  · rfl

end Lbr

/-- Registers as switching recording leaves them: the switch is set, and the stack is clear. -/
def Lbr.Switched (capacity : Nat) (switch : Switch) (values : UInt32 → Option UInt64) : Prop :=
  values Msr.debugctl = some (setting switch) ∧
    ∀ msr, Msr.OfStack capacity msr → values msr = some 0

/-- Recording was switched on a cpu on the way from one machine to another: the journal says so, and
so do the registers where they are kept in software. -/
def Machine.Switched (capacity : Nat) (switch : Switch) (cpu : Nat) (m m' : Machine) : Prop :=
  Lbr.Switched capacity switch (m'.lastWritten cpu) ∧
    ∀ bank, m.bank = .soft bank → Lbr.Switched capacity switch (m'.read? cpu)

/-! ## Passes -/

namespace Pass

variable {capacity : Nat} {switch : Switch} {m m' : Machine} {visits : Visits}

/-- Where recording was switched with success, the stack is clear and the switch is set; registers
that are not written, or of a cpu whose file no visited cpu has, stay as they were. -/
theorem registers (h : Pass (Lbr.switchWrites capacity switch) m visits m')
    (hc : capacity ≤ Msr.maxPlaces) {bank : SoftBank} (hb : m.bank = .soft bank) :
    ∃ bank', m'.bank = .soft bank' ∧ bank'.files = bank.files ∧
      (∀ visited cpu, (visited, .ok ()) ∈ visits → bank.file visited = bank.file cpu →
        bank'.read cpu Msr.debugctl = Lbr.setting switch ∧
          ∀ msr, Msr.OfStack capacity msr → bank'.read cpu msr = 0) ∧
      ∀ cpu msr, (¬Lbr.Touches capacity msr ∨
          ∀ visited ∈ visits.cpus, bank.file visited ≠ bank.file cpu) →
        bank'.read cpu msr = bank.read cpu msr := by
  obtain ⟨tried, ht, ha⟩ := h.attempts
  refine ⟨bank.replay tried, h.writes_all.replay ht hb, SoftBank.files_replay .., ?_, ?_⟩
  · intro visited cpu hok hfile
    refine ⟨ha.read hok hfile (Lbr.debugctl_mem_switchWrites capacity switch) fun w hw hm =>
      Lbr.eq_setting_of_mem_switchWrites hc hw hm, fun msr hm => ?_⟩
    exact ha.read hok hfile (Lbr.mem_switchWrites hc switch hm) fun w hw he =>
      Lbr.eq_zero_of_mem_switchWrites hc hw (he ▸ hm)
  · intro cpu msr hn
    refine ha.read_of_not (hn.imp_left fun hn w hw he => hn ?_)
    rcases Lbr.of_mem_switchWrites hc hw with ⟨hm, -⟩ | rfl
    · exact .inl (he ▸ hm)
    · exact .inr he.symm

/-- The switch of recording was set last on every cpu where that succeeded, and on no other. -/
theorem lastWritten_debugctl (h : Pass (Lbr.switchWrites capacity switch) m visits m')
    (hc : capacity ≤ Msr.maxPlaces) (cpu : Nat) :
    ((cpu, .ok ()) ∈ visits → m'.lastWritten cpu Msr.debugctl = some (Lbr.setting switch)) ∧
      (cpu ∉ visits.cpus → m'.lastWritten cpu Msr.debugctl = m.lastWritten cpu Msr.debugctl) := by
  obtain ⟨tried, ht, ha⟩ := h.attempts
  refine ⟨fun hok => ?_, fun hn => ha.lastWritten_of_not ht hn _⟩
  exact ha.lastWritten ht hok (Lbr.debugctl_mem_switchWrites capacity switch) fun w hw hm =>
    Lbr.eq_setting_of_mem_switchWrites hc hw hm

/-- Where recording was switched with success, it was switched last, over a cleared stack. -/
theorem switched (h : Pass (Lbr.switchWrites capacity switch) m visits m')
    (hc : capacity ≤ Msr.maxPlaces) {cpu : Nat} (hok : (cpu, .ok ()) ∈ visits) :
    Machine.Switched capacity switch cpu m m' := by
  refine ⟨⟨(h.lastWritten_debugctl hc cpu).1 hok, fun msr hm => ?_⟩, fun bank hb => ?_⟩
  · obtain ⟨tried, ht, ha⟩ := h.attempts
    exact ha.lastWritten ht hok (Lbr.mem_switchWrites hc switch hm) fun w hw he =>
      Lbr.eq_zero_of_mem_switchWrites hc hw (he ▸ hm)
  · obtain ⟨bank', hb', -, hswitched, -⟩ := h.registers hc hb
    obtain ⟨hdebugctl, hstack⟩ := hswitched cpu cpu hok rfl
    refine ⟨?_, fun msr hm => ?_⟩
    · rw [Machine.read?_of_soft hb', hdebugctl]
    · rw [Machine.read?_of_soft hb', hstack msr hm]

/-- Nothing else is written. -/
theorem writes_touches (h : Pass (Lbr.switchWrites capacity switch) m visits m')
    (hc : capacity ≤ Msr.maxPlaces) :
    m.Writes (fun cpu msr => cpu ∈ visits.cpus ∧ Lbr.Touches capacity msr) m' := by
  refine h.writes_all.mono fun cpu msr hmay => ⟨hmay.1, ?_⟩
  obtain ⟨w, hw, rfl⟩ := hmay.2
  exact (Lbr.of_mem_switchWrites hc hw).imp (·.1) fun he => congrArg Prod.fst he

end Pass

end BranchTrace
