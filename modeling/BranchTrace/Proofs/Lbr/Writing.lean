import BranchTrace.Proofs.Machine.Reliable
import BranchTrace.Proofs.Machine.Sweep

/-!
# Writing registers up to a failure

Registers are written in order until one of the writes fails (`FailsAt`): those before it are done,
and those after it are not tried.

Main statements: `wrmsrAll_eq_error`, writing fails exactly if one of the writes is the first to
fail; `failsAt_of_plan`, any of them can be.
-/

namespace BranchTrace

namespace Machine

/-- The write at a place of a list is the first to fail. -/
def FailsAt (cpu : Nat) : List (UInt32 × UInt64) → Nat → SystemError → Machine → Prop
  | [], _, _, _ => False
  | w :: _, 0, e, m => (wrmsr cpu w.1 w.2 m).1 = .error e
  | w :: rest, place + 1, e, m =>
    (wrmsr cpu w.1 w.2 m).1 = .ok () ∧ FailsAt cpu rest place e (wrmsr cpu w.1 w.2 m).2

variable {cpu : Nat} {writes : List (UInt32 × UInt64)} {place : Nat} {e : SystemError}
  {m : Machine} {bank : SoftBank}

/-- Writing fails if one of the writes is the first to fail, and only then. -/
theorem wrmsrAll_eq_error :
    (wrmsrAll cpu writes m).1 = .error e ↔ ∃ place, FailsAt cpu writes place e m := by
  induction writes generalizing m with
  | nil => exact iff_of_false nofun fun ⟨_, h⟩ => h
  | cons w rest ih =>
    rw [wrmsrAll, Action.bind_apply]
    rcases hw : wrmsr cpu w.1 w.2 m with ⟨e' | _, m'⟩
    · constructor
      · intro he
        exact ⟨0, (congrArg Prod.fst hw).trans he⟩
      · rintro ⟨_ | place, h⟩
        · exact (congrArg Prod.fst hw).symm.trans h
        · rw [FailsAt, hw] at h
          cases h.1
    · refine ih.trans ⟨?_, ?_⟩
      · rintro ⟨place, h⟩
        refine ⟨place + 1, congrArg Prod.fst hw, ?_⟩
        rwa [hw]
      · rintro ⟨_ | place, h⟩
        · cases (congrArg Prod.fst hw).symm.trans h
        · rw [FailsAt, hw] at h
          exact ⟨place, h.2⟩

theorem bank_of_wrmsr_error (hb : m.bank = .soft bank) {msr : UInt32} {value : UInt64}
    (h : (wrmsr cpu msr value m).1 = .error e) :
    (wrmsr cpu msr value m).2.bank = .soft bank := by
  simp only [wrmsr, hb] at h ⊢
  rcases guarded_cases .wrmsr
      (fun m => (.ok (), { m with bank := .soft (bank.write cpu msr value) })) m with
    ⟨e', faults, h'⟩ | ⟨faults, h'⟩
  · rw [h']
    exact hb
  · rw [h'] at h
    cases h

/-- In registers that live in memory, the writes before the one that fails are done. -/
theorem FailsAt.soft (h : FailsAt cpu writes place e m) (hb : m.bank = .soft bank) :
    (wrmsrAll cpu writes m).2.bank = .soft (bank.writeAll cpu (writes.take place)) := by
  induction writes generalizing place m bank with
  | nil => exact h.elim
  | cons w rest ih =>
    have hwritten := wrmsr_soft hb cpu w.1 w.2
    rw [wrmsrAll, Action.bind_apply]
    cases place with
    | zero =>
      rw [FailsAt] at h
      have hkept := bank_of_wrmsr_error hb h
      generalize wrmsr cpu w.1 w.2 m = written at h hkept ⊢
      obtain ⟨r, m'⟩ := written
      obtain rfl : r = .error e := h
      exact hkept
    | succ place =>
      obtain ⟨hok, h⟩ := h
      generalize wrmsr cpu w.1 w.2 m = written at hok h hwritten ⊢
      obtain ⟨r, m'⟩ := written
      obtain rfl : r = .ok () := hok
      exact ih h (hwritten rfl)

/-- What was reported before does not matter. -/
theorem failsAt_events (events : List Event) :
    FailsAt cpu writes place e { m with events } ↔ FailsAt cpu writes place e m := by
  induction writes generalizing place m with
  | nil => exact Iff.rfl
  | cons w rest ih =>
    have hs := silent_wrmsr cpu w.1 w.2 m events
    cases place with
    | zero => rw [FailsAt, FailsAt, hs]
    | succ place => rw [FailsAt, FailsAt, hs, ih]

theorem Reliable.not_failsAt (h : m.Reliable bank) : ¬FailsAt cpu writes place e m := by
  intro hf
  have he := wrmsrAll_eq_error.mpr ⟨place, hf⟩
  rw [(h.wrmsrAll cpu writes).1] at he
  cases he

/-- For every write there is a plan that makes it the first to fail. -/
theorem failsAt_of_plan (hb : m.bank = .soft bank) (rest : List Fault) (errno : Int32)
    (h : place < writes.length)
    (hf : m.faults = { call := .wrmsr, skip := place, errno } :: rest) :
    FailsAt cpu writes place (.os errno) m := by
  induction writes generalizing place m bank with
  | nil => cases h
  | cons w writes ih =>
    cases place with
    | zero =>
      rw [FailsAt, wrmsr, hb]
      simp [guarded, trip, hf, Fault.trip, failureOf]
    | succ place =>
      have hwrite : wrmsr cpu w.1 w.2 m = (.ok (),
          ({ m with
              bank := .soft (bank.write cpu w.1 w.2)
              faults := { call := .wrmsr, skip := place, errno } :: rest } : Machine).journal
            true cpu w.1 (some w.2)) := by
        rw [wrmsr, hb]
        simp [guarded, trip, hf, Fault.trip]
        rfl
      rw [FailsAt, hwrite]
      exact ⟨rfl, ih rfl (Nat.lt_of_succ_lt_succ h) rfl⟩

end Machine

end BranchTrace
