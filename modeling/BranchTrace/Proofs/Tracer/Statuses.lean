import BranchTrace.Failure.Halt
import BranchTrace.Proofs.Tracer.ControlPlane

/-!
# Statuses

The status of an error is the negation of its error number, widened, and a client that asked for
something gets that number back, cut to 32 bits again. Every error number survives this
(`errnoOfStatus_status`), so the client sees the class and the text of what failed, whatever number
the operating system gave: also a negative one, whose status is positive. The one exception is
number zero, whose status is that of success.

Main statement: `status_of_dispatch`.
-/

namespace BranchTrace

namespace TraceError

variable {e : TraceError}

/-- Only the operating system can give a number that is not positive. -/
theorem errno_pos_or_os (e : TraceError) : 0 < e.errno ∨ ∃ errno, e = .io (.os errno) := by
  cases e with
  | io source =>
    cases source with
    | os errno => exact .inr ⟨errno, rfl⟩
    | other => exact .inl (of_decide_eq_true rfl)
  | _ => exact .inl (of_decide_eq_true rfl)

theorem errno_pos_iff : 0 < e.errno ↔ ∀ errno, e = .io (.os errno) → 0 < errno := by
  constructor
  · rintro h errno rfl
    exact h
  · intro h
    rcases errno_pos_or_os e with hpos | ⟨errno, rfl⟩
    · exact hpos
    · exact h errno rfl

theorem errno_eq_zero_iff : e.errno = 0 ↔ e = .io (.os 0) := by
  constructor
  · intro h
    rcases errno_pos_or_os e with hpos | ⟨errno, rfl⟩
    · rw [h] at hpos
      exact absurd hpos (by decide)
    · exact congrArg (fun errno => io (.os errno)) h
  · rintro rfl
    rfl

theorem status_neg_iff : e.status < 0 ↔ ∀ errno, e = .io (.os errno) → 0 < errno := by
  rw [← errno_pos_iff, Int32.lt_iff_toInt_lt, Int32.toInt_zero, status]
  omega

theorem status_eq_zero_iff : e.status = 0 ↔ e = .io (.os 0) := by
  rw [← errno_eq_zero_iff, ← Int32.toInt_inj, Int32.toInt_zero, status]
  omega

/-! ## Back at the client -/

/-- A status fits into a word of 64 bits, far above the least one. -/
theorem toInt_ofInt_status (e : TraceError) : (Int64.ofInt e.status).toInt = e.status := by
  have hle := e.errno.le_toInt
  have hlt := e.errno.toInt_lt
  rw [status]
  exact Int64.toInt_ofInt_of_le (by omega) (by omega)

theorem ofInt_status_eq_zero_iff : Int64.ofInt e.status = 0 ↔ e = .io (.os 0) := by
  rw [← status_eq_zero_iff, ← Int64.toInt_inj, toInt_ofInt_status, Int64.toInt_zero]

theorem ofInt_status_ne_minValue (e : TraceError) : Int64.ofInt e.status ≠ Int64.minValue := by
  intro h
  have hmin := congrArg Int64.toInt h
  rw [toInt_ofInt_status, status, Int64.toInt_minValue] at hmin
  have hlt := e.errno.toInt_lt
  omega

/-- The negation, the widening and the cut lose no error number. -/
theorem errnoOfStatus_status (e : TraceError) : errnoOfStatus (.ofInt e.status) = e.errno := by
  rw [errnoOfStatus, status, Int64.toInt32_neg, Int64.toInt32_ofInt, Int32.ofInt_neg,
    Int32.ofInt_toInt, Int32.neg_neg]

/-- How a client sees an error: by the class and the text of its number. -/
def seen (what : String) (e : TraceError) : SystemError :=
  .other (Errno.kind e.errno) (what ++ " failed: " ++ (SystemError.os e.errno).message)

theorem checkStatus_status (what : String) (e : TraceError) :
    checkStatus what (.ofInt e.status) =
      if e = .io (.os 0) then .ok () else .error (.failed (seen what e)) := by
  rw [checkStatus]
  split
  · next h => rw [if_pos (ofInt_status_eq_zero_iff.mp h)]
  · next h =>
    rw [if_neg (ofInt_status_ne_minValue e), if_neg (mt ofInt_status_eq_zero_iff.mpr h)]
    simp only [errnoOfStatus_status, seen]

end TraceError

namespace Tracer

/-- The status of every error is negative, but for a number of the operating system that is not
positive. So a request that is rejected answers the status of success exactly if it is with number
zero, and a client takes it for a success exactly then; any other error it sees by its number. -/
theorem status_of_dispatch (config : Config) (caller number : UInt32) (block : List UInt8)
    (param : UInt64) (s : Tracing) (what : String) :
    (∀ e : TraceError, (e.status < 0 ↔ ∀ errno, e = .io (.os errno) → 0 < errno) ∧
      (e.status = 0 ↔ e = .io (.os 0))) ∧
    let outcome := (dispatch config caller number block param s).1
    let status := (ioctl config caller number block param s).1
    (status = 0 ↔ (∃ reply, outcome = .ok reply) ∨ outcome = .error (.io (.os 0))) ∧
      (checkStatus what (.ofInt status) = .ok () ↔
        (∃ reply, outcome = .ok reply) ∨ outcome = .error (.io (.os 0))) ∧
      ∀ e, outcome = .error e → e ≠ .io (.os 0) →
        checkStatus what (.ofInt status) = .error (.failed (e.seen what)) := by
  refine ⟨fun e => ⟨TraceError.status_neg_iff, TraceError.status_eq_zero_iff⟩, ?_⟩
  intro outcome status
  have hstatus : status = code outcome := (ioctl_spec config caller number block param s).1
  rw [hstatus]
  cases outcome with
  | ok reply =>
    exact ⟨iff_of_true rfl (.inl ⟨reply, rfl⟩), iff_of_true rfl (.inl ⟨reply, rfl⟩), nofun⟩
  | error e =>
    have hzero : (∃ reply, (.error e : Except TraceError Reply) = .ok reply) ∨
        (.error e : Except TraceError Reply) = .error (.io (.os 0)) ↔ e = .io (.os 0) := by
      simp
    have hcode : code (.error e : Except TraceError Reply) = e.status := rfl
    have hseen := TraceError.checkStatus_status what e
    rw [hzero, hcode, hseen]
    refine ⟨TraceError.status_eq_zero_iff, ?_, fun e' he hn => ?_⟩
    · by_cases h : e = .io (.os 0)
      · exact iff_of_true (if_pos h) h
      · rw [if_neg h]
        exact iff_of_false nofun h
    · cases he
      exact if_neg hn

/-- The system refuses to bind the thread, with a number that the library does not know and passes
on as zero. The request is rejected and nothing is traced, and its status is that of success. -/
theorem rejected_with_success :
    let s : Tracing :=
      { store := .empty
        machine :=
          { Machine.new 1 with
            bank := .soft (.new 1), faults := [{ call := .setaffinity, errno := 524 }] } }
    let block := Request.toBytes { select := 5, pid := 1 }
    (dispatch ⟨1, .userOnly⟩ 3 Command.enable.number block 0 s).1 = .error (.io (.os 0)) ∧
      (ioctl ⟨1, .userOnly⟩ 3 Command.enable.number block 0 s).1 = 0 ∧
      (ioctl ⟨1, .userOnly⟩ 3 Command.enable.number block 0 s).2.store.len = 0 ∧
      checkStatus "enable"
        (.ofInt (ioctl ⟨1, .userOnly⟩ 3 Command.enable.number block 0 s).1) = .ok () ∧
      ¬(TraceError.io (.os 0)).status < 0 := by
  decide +kernel

end Tracer

end BranchTrace
