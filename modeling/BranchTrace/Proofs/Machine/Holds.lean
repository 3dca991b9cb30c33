import BranchTrace.Machine.Hold

/-!
# Holds of a thread whose mask calls go through

What taking and letting go of a hold, and of the guard of a lock, comes to where no mask call is
refused: the thread afterwards, as one equation each. `Unrefused.change_eq` ties the brief change
of a guarded value to the guard of its lock.
-/

namespace BranchTrace

namespace Thread

variable {α β : Type} {t : Thread α}

/-- No mask call is refused from now on. -/
def Unrefused (t : Thread α) : Prop :=
  ∀ n, t.refusals n = none

/-- No mask call is refused from now on, and the mask is one that a thread can have. -/
structure Sound (t : Thread α) : Prop where
  unrefused : t.Unrefused
  proper : t.mask.Proper

namespace Unrefused

variable (h : t.Unrefused)
include h

theorem maskCall_eq (call : StateM SignalMask β) :
    t.maskCall call = (.ok (call t.mask).1, { t with mask := (call t.mask).2 }) := by
  have hlater : (fun n => t.refusals (n + 1)) = t.refusals := by
    funext n
    rw [h, h]
  unfold maskCall
  rw [h 0, hlater]
  rfl

theorem take_hold : Hold.take t =
    ({ old := t.mask, restore := true }, { t with mask := t.mask.enter.2 }) := by
  unfold Hold.take
  rw [h.maskCall_eq]
  rfl

/-- What is put back is what can be held back of the mask from before. -/
theorem release_hold (old : SignalMask) : Hold.release { old, restore := true } t =
    ((), { t with mask := t.mask.replace old }) := by
  unfold Hold.release
  rw [h.maskCall_eq]
  rfl

theorem take_guard (lock : Nat) : Guard.take lock t =
    if lock ∈ t.taken then none
    else some ({ lock, hold := { old := t.mask, restore := true } },
      { t with mask := t.mask.enter.2, taken := lock :: t.taken }) := by
  unfold Guard.take
  rw [h.take_hold]

theorem release_guard (lock : Nat) (old : SignalMask) :
    Guard.release { lock, hold := { old, restore := true } } t =
      ((), { t with mask := t.mask.replace old, taken := t.taken.erase lock }) := by
  have hlater : ({ t with taken := t.taken.erase lock } : Thread α).Unrefused := h
  exact hlater.release_hold old

/-- Changing a value in a section of its own is taking its lock, changing it and giving the lock
up. -/
theorem change_eq {lock : Nat} (hl : lock ∉ t.taken)
    (step : α → SignalMask → β × α × SignalMask) :
    ∃ guard inside, Guard.take lock t = some (guard, inside) ∧
      let (result, value, mask) := step (inside.values lock).value inside.mask
      let left := (guard.release ({ inside with mask }.modify lock fun _ => value)).2
      (t.values lock).change t.mask step = (result, left.values lock, left.mask) := by
  refine ⟨_, _, by rw [h.take_guard, if_neg hl], ?_⟩
  dsimp only
  generalize hs : step (t.values lock).value t.mask.enter.2 = stepped
  obtain ⟨result, value, mask⟩ := stepped
  have hinside : (Thread.modify lock (fun _ => value)
      { t with mask, taken := lock :: t.taken }).Unrefused := h
  rw [hinside.release_guard]
  unfold Guarded.change
  simp only [SignalMask.enter] at hs ⊢
  rw [hs]
  simp [Thread.modify, SignalMask.leave]

end Unrefused

/-- Whatever hold is let go, the mask is again one that a thread can have. -/
theorem Sound.release (h : t.Sound) (own : Hold) : (own.release t).2.Sound := by
  obtain ⟨old, _ | _⟩ := own
  · exact h
  · rw [h.unrefused.release_hold]
    exact ⟨h.unrefused, SignalMask.proper_replace t.mask old⟩

end Thread

end BranchTrace
