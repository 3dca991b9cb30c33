import BranchTrace.Proofs.Lbr.RoundTrip
import BranchTrace.Proofs.Lbr.Switching
import BranchTrace.Proofs.Lbr.Writing

/-!
# Recording over a clean stack

The switch of recording is written last, after all registers of the stack are cleared, so wherever
the writes first fail (`Machine.FailsAt`) the switch stays as it was. To write once more what
registers hold already changes nothing, however far that comes (`Machine.Settles`).

Main statement: `Lbr.flush_over_clean_stack`.
-/

namespace BranchTrace

namespace Machine

variable {m : Machine} {bank : SoftBank} {cpu : Nat} {writes : List (UInt32 × UInt64)}

/-- The write that fails is one of them. -/
theorem FailsAt.lt_length {place : Nat} {e : SystemError} (h : FailsAt cpu writes place e m) :
    place < writes.length := by
  induction writes generalizing place m with
  | nil => exact h.elim
  | cons w rest ih =>
    cases place with
    | zero => exact Nat.succ_pos _
    | succ place => exact Nat.succ_lt_succ (ih h.2)

/-- In memory, what is written is a first part of the writes: all of them, or those before the
first that fails. -/
theorem wrmsrAll_of_soft (hb : m.bank = .soft bank) (cpu : Nat) (writes : List (UInt32 × UInt64)) :
    ((wrmsrAll cpu writes m).1 = .ok () ∧
        (wrmsrAll cpu writes m).2.bank = .soft (bank.writeAll cpu writes)) ∨
      ∃ place e, (wrmsrAll cpu writes m).1 = .error e ∧ FailsAt cpu writes place e m ∧
        (wrmsrAll cpu writes m).2.bank = .soft (bank.writeAll cpu (writes.take place)) := by
  rcases hr : (wrmsrAll cpu writes m).1 with e | ⟨⟩
  · obtain ⟨place, hfails⟩ := wrmsrAll_eq_error.mp hr
    exact .inr ⟨place, e, rfl, hfails, hfails.soft hb⟩
  · exact .inl ⟨rfl, wrmsrAll_soft hb cpu hr⟩

/-! ## Writing once more -/

/-- Once a step has gone through, to try it again changes no register in memory. -/
def Settles (step : Action Machine SystemError Unit) : Prop :=
  ∀ m bank, m.bank = .soft bank → (step m).1 = .ok () →
    ∃ after, (step m).2.bank = .soft after ∧ ∀ m', m'.bank = .soft after →
      ∃ again, (step m').2.bank = .soft again ∧
        ∀ c msr, again.read c msr = after.read c msr

end Machine

/-- What was written stays as it is when part of it is written once more, unless a register was
given two values. -/
theorem SoftBank.read_writeAll_again (bank : SoftBank) (cpu : Nat)
    {writes again : List (UInt32 × UInt64)} (hsub : ∀ w ∈ again, w ∈ writes)
    (hconsistent : ∀ v ∈ writes, ∀ w ∈ writes, v.1 = w.1 → v.2 = w.2) (c : Nat) (msr : UInt32) :
    ((bank.writeAll cpu writes).writeAll cpu again).read c msr =
      (bank.writeAll cpu writes).read c msr := by
  have hholds := (overwritten_eq_iff (bank.cells (bank.file cpu)) writes).mpr hconsistent
  rw [← cells_file_writeAll] at hholds
  generalize bank.writeAll cpu writes = held at hholds ⊢
  have hfile : (held.writeAll cpu again).file c = held.file c := by
    rw [file, files_writeAll, file]
  show (held.writeAll cpu again).cells ((held.writeAll cpu again).file c) msr = _
  rw [hfile, cells_writeAll]
  by_cases hc : held.file c = held.file cpu
  · rw [hc, Function.update_self]
    by_cases hm : msr ∈ again.map (·.1)
    · have hwritten : (msr, overwritten (held.cells (held.file cpu)) again msr) ∈ again :=
        overwritten_mem hm
      have hheld := hholds _ (hsub _ hwritten)
      rw [← hc] at hheld ⊢
      exact hheld.symm
    · rw [overwritten_of_not_mem hm, ← hc]
      rfl
  · rw [Function.update_of_ne hc]
    rfl

namespace Machine

theorem settles_wrmsrAll (cpu : Nat) {writes : List (UInt32 × UInt64)}
    (hconsistent : ∀ v ∈ writes, ∀ w ∈ writes, v.1 = w.1 → v.2 = w.2) :
    Settles (wrmsrAll cpu writes) := by
  intro m bank hb hok
  refine ⟨_, wrmsrAll_soft hb cpu hok, fun m' hb' => ?_⟩
  rcases wrmsrAll_of_soft hb' cpu writes with ⟨-, hagain⟩ | ⟨place, -, -, -, hagain⟩
  · exact ⟨_, hagain, bank.read_writeAll_again cpu (fun _ hw => hw) hconsistent⟩
  · exact ⟨_, hagain,
      bank.read_writeAll_again cpu (fun _ hw => List.mem_of_mem_take hw) hconsistent⟩

end Machine

namespace Lbr

/-! ## Flushing -/

/-- The writes of a flush, in order: the switch of recording is the last. -/
def flushWrites (capacity : Nat) (on : Bool) : List (UInt32 × UInt64) :=
  clearWrites capacity ++ [(Msr.debugctl, if on then Msr.recording else 0)]

variable {capacity : Nat}

theorem length_clearWrites (hc : capacity ≤ Msr.maxPlaces) :
    (clearWrites capacity).length = 2 * capacity + 2 := by
  have hlt : capacity < UInt32.size := hc.trans_lt (by decide)
  rw [clearWrites, Nat.mod_eq_of_lt hlt, List.length_cons, List.length_cons, length_branchWrites,
    List.length_replicate]

/-- A write of a flush clears a register of the stack, or is that of the switch. -/
theorem of_mem_flushWrites (hc : capacity ≤ Msr.maxPlaces) {on : Bool} {w : UInt32 × UInt64}
    (hw : w ∈ flushWrites capacity on) :
    (Msr.OfStack capacity w.1 ∧ w.2 = 0) ∨
      w = (Msr.debugctl, if on then Msr.recording else 0) :=
  (List.mem_append.mp hw).imp (of_mem_clearWrites hc) List.mem_singleton.mp

theorem consistent_of_cleared (hc : capacity ≤ Msr.maxPlaces) {value : UInt64}
    {writes : List (UInt32 × UInt64)}
    (h : ∀ w ∈ writes, (Msr.OfStack capacity w.1 ∧ w.2 = 0) ∨ w = (Msr.debugctl, value)) :
    ∀ v ∈ writes, ∀ w ∈ writes, v.1 = w.1 → v.2 = w.2 := by
  have hn := Msr.not_ofStack_debugctl hc
  intro v hv w hw he
  rcases h v hv with ⟨hvs, hvz⟩ | rfl
  · rcases h w hw with ⟨-, hwz⟩ | rfl
    · rw [hvz, hwz]
    · have he : v.1 = Msr.debugctl := he
      exact absurd (he ▸ hvs) hn
  · rcases h w hw with ⟨hws, -⟩ | rfl
    · have he : Msr.debugctl = w.1 := he
      exact absurd (he ▸ hws) hn
    · rfl

theorem settles_flush (hc : capacity ≤ Msr.maxPlaces) (cpu : Nat) (on : Bool) :
    Machine.Settles (flush capacity cpu on) := by
  rw [show flush capacity cpu on = Machine.wrmsrAll cpu (flushWrites capacity on) from
    funext (flush_apply capacity cpu on)]
  exact Machine.settles_wrmsrAll cpu (consistent_of_cleared hc fun _ => of_mem_flushWrites hc)

theorem settles_disable (hc : capacity ≤ Msr.maxPlaces) (cpu : Nat) :
    Machine.Settles (disable capacity cpu) := by
  have hsettles : Machine.Settles (Machine.wrmsrAll cpu (switchWrites capacity .disable)) :=
    Machine.settles_wrmsrAll cpu (consistent_of_cleared hc fun _ => of_mem_switchWrites hc)
  have happly : ∀ m, disable capacity cpu m = Machine.wrmsrAll cpu (switchWrites capacity .disable)
      (report (.switchingCpu .disable cpu) m).2 := switch_apply capacity .disable cpu
  intro m bank hb hok
  rw [happly] at hok ⊢
  obtain ⟨after, hafter, hagain⟩ :=
    hsettles (report (.switchingCpu .disable cpu) m).2 bank hb hok
  refine ⟨after, hafter, fun m' hb' => ?_⟩
  rw [happly]
  exact hagain _ hb'

/-- What comes of a flush of registers in memory. -/
structure Flushed (capacity cpu : Nat) (on : Bool) (m : Machine) (bank : SoftBank)
    (r : Except SystemError Unit) (after : SoftBank) : Prop where
  /-- The writes before the one that fails are done, and recording is not switched anywhere. -/
  failed : ∀ e, r = .error e → ∃ place ≤ 2 * capacity + 2,
    Machine.FailsAt cpu (flushWrites capacity on) place e m ∧
      after = bank.writeAll cpu ((flushWrites capacity on).take place) ∧
      ∀ c, after.read c Msr.debugctl = bank.read c Msr.debugctl
  /-- Recording is switched over a clean stack. -/
  done : r = .ok () →
    after.read cpu Msr.debugctl = (if on then Msr.recording else 0) ∧
      ∀ msr, Msr.OfStack capacity msr → after.read cpu msr = 0
  /-- Nothing else is written. -/
  elsewhere : ∀ c msr, bank.file c ≠ bank.file cpu ∨ ¬Touches capacity msr →
    after.read c msr = bank.read c msr

/-- The writes before the last one do not switch recording. -/
theorem debugctl_not_mem_take (hc : capacity ≤ Msr.maxPlaces) {on : Bool} {place : Nat}
    (hp : place ≤ 2 * capacity + 2) :
    Msr.debugctl ∉ ((flushWrites capacity on).take place).map (·.1) := by
  rw [flushWrites, List.take_append_of_le_length (by rwa [length_clearWrites hc])]
  intro hm
  obtain ⟨w, hw, he⟩ := List.mem_map.mp hm
  have hstack := (of_mem_clearWrites hc (List.mem_of_mem_take hw)).1
  exact Msr.not_ofStack_debugctl hc (he ▸ hstack)

/-- Whatever part of a flush is written, it touches nothing but the stack and the switch. -/
theorem read_writeAll_take (hc : capacity ≤ Msr.maxPlaces) (bank : SoftBank) {cpu c : Nat}
    {on : Bool} {msr : UInt32} {writes : List (UInt32 × UInt64)}
    (hsub : ∀ w ∈ writes, w ∈ flushWrites capacity on)
    (h : bank.file c ≠ bank.file cpu ∨ ¬Touches capacity msr) :
    (bank.writeAll cpu writes).read c msr = bank.read c msr := by
  refine SoftBank.read_writeAll_of_not fun ⟨hfile, hm⟩ => ?_
  obtain ⟨w, hw, rfl⟩ := List.mem_map.mp hm
  rcases h with h | h
  · exact h hfile
  · exact h ((of_mem_flushWrites hc (hsub w hw)).imp (·.1) (congrArg Prod.fst))

/-- A flush that goes through leaves its values in the registers. -/
theorem read_writeAll_flushWrites (hc : capacity ≤ Msr.maxPlaces) (bank : SoftBank) (cpu : Nat)
    {on : Bool} {w : UInt32 × UInt64} (hw : w ∈ flushWrites capacity on) :
    (bank.writeAll cpu (flushWrites capacity on)).read cpu w.1 = w.2 := by
  have hholds := (overwritten_eq_iff (bank.cells (bank.file cpu)) (flushWrites capacity on)).mpr
    (consistent_of_cleared hc fun _ => of_mem_flushWrites hc)
  rw [← SoftBank.cells_file_writeAll] at hholds
  exact hholds w hw

theorem flushed (hc : capacity ≤ Msr.maxPlaces) {m : Machine} {bank : SoftBank}
    (hb : m.bank = .soft bank) (cpu : Nat) (on : Bool) :
    ∃ after, (flush capacity cpu on m).2.bank = .soft after ∧
      Flushed capacity cpu on m bank (flush capacity cpu on m).1 after := by
  rw [show flush capacity cpu on m = Machine.wrmsrAll cpu (flushWrites capacity on) m from
    flush_apply capacity cpu on m]
  rcases Machine.wrmsrAll_of_soft hb cpu (flushWrites capacity on) with
    ⟨hok, hafter⟩ | ⟨place, e, he, hfails, hafter⟩
  · refine ⟨_, hafter, ?_⟩
    rw [hok]
    refine ⟨nofun, fun _ => ⟨?_, fun msr hm => ?_⟩, fun c msr => ?_⟩
    · exact read_writeAll_flushWrites hc bank cpu
        (List.mem_append_right _ (List.mem_singleton_self _))
    · exact read_writeAll_flushWrites hc bank cpu
        (List.mem_append_left _ (mem_clearWrites hc hm))
    · exact read_writeAll_take hc bank fun _ hw => hw
  · have hp : place ≤ 2 * capacity + 2 := by
      have hlt := hfails.lt_length
      rw [flushWrites, List.length_append, length_clearWrites hc] at hlt
      exact Nat.le_of_lt_succ hlt
    refine ⟨_, hafter, ?_⟩
    rw [he]
    refine ⟨fun _ h => ?_, nofun, fun c msr => ?_⟩
    · cases h
      refine ⟨place, hp, hfails, rfl, fun c => SoftBank.read_writeAll_of_not fun h => ?_⟩
      exact debugctl_not_mem_take hc hp h.2
    · exact read_writeAll_take hc bank fun _ => List.mem_of_mem_take

/-- Recording is only switched over a clean stack: the switch is written last, so a flush that fails
leaves it as it was, with the writes before the failure done, and one that goes through finds the
stack clear. Nothing else is written, and to flush or to switch off once more changes nothing. -/
theorem flush_over_clean_stack (hc : capacity ≤ Msr.maxPlaces) {m : Machine} {bank : SoftBank}
    (hb : m.bank = .soft bank) (cpu : Nat) (on : Bool) :
    (∃ after, (flush capacity cpu on m).2.bank = .soft after ∧
        Flushed capacity cpu on m bank (flush capacity cpu on m).1 after) ∧
      Machine.Settles (flush capacity cpu on) ∧ Machine.Settles (disable capacity cpu) :=
  ⟨flushed hc hb cpu on, settles_flush hc cpu on, settles_disable hc cpu⟩

/-- A machine of two cpus that records on the first, with the fifth write planned to fail. -/
def strickenRecorder : Machine where
  cpus := 2
  allowed := [0, 1]
  cur := 0
  faults := [{ call := .wrmsr, skip := 4 }]
  bank := .soft (((SoftBank.new 2).write 0 Msr.debugctl Msr.recording).write 0 Msr.select 5)

/-- The fifth write to a stack of one branch is that of the switch: recording goes on, over a stack
that was cleared. -/
theorem flush_over_clean_stack_stricken :
    (flush 1 0 false strickenRecorder).1 = .error (.os 5) ∧
      (flush 1 0 false strickenRecorder).2.read? 0 Msr.debugctl = some Msr.recording ∧
      (flush 1 0 false strickenRecorder).2.read? 0 Msr.select = some 0 ∧
      ∃ bank after, strickenRecorder.bank = .soft bank ∧
        (flush 1 0 false strickenRecorder).2.bank = .soft after ∧
        Flushed 1 0 false strickenRecorder bank (.error (.os 5)) after := by
  have hr : (flush 1 0 false strickenRecorder).1 = .error (.os 5) := by decide +kernel
  have hc : 1 ≤ Msr.maxPlaces := by decide
  obtain ⟨⟨after, hafter, hflushed⟩, -, -⟩ :=
    flush_over_clean_stack hc (m := strickenRecorder) rfl 0 false
  rw [hr] at hflushed
  exact ⟨hr, by decide +kernel, by decide +kernel, _, after, rfl, hafter, hflushed⟩

end Lbr

end BranchTrace
