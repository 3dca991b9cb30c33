/-!
# Signal masks

The signals a thread holds back, one bit for each number from 1 to 64. Two signals can never be
held back, and neither can the two that the thread library keeps for itself.

A mask is changed by holding more signals back, by letting signals through, or by putting other
signals in the place of those held back (`MaskChange`). Entering a guarded section holds every
signal back that can be and remembers the mask; leaving it puts that mask in the place of what the
mask has become inside. A `Guarded` value is changed inside such a section only.
-/

namespace BranchTrace

/-- The signals a thread holds back. -/
structure SignalMask where
  bits : UInt64
  deriving DecidableEq, Repr

namespace SignalMask

/-- The bit of a signal. -/
def bit (signal : Nat) : UInt64 :=
  1 <<< UInt64.ofNat (signal - 1)

/-- The mask that holds nothing back. -/
def none : SignalMask := ⟨0⟩

/-- The signals that can be held back: all but 9, 19, 32 and 33. -/
def maskable : SignalMask :=
  ⟨~~~(bit 9 ||| bit 19 ||| bit 32 ||| bit 33)⟩

/-- Whether a signal is held back. -/
def blocks (mask : SignalMask) (signal : Nat) : Bool :=
  mask.bits &&& bit signal != 0

/-- Holds more signals back. -/
def block (mask signals : SignalMask) : SignalMask :=
  ⟨mask.bits ||| (signals.bits &&& maskable.bits)⟩

/-- Lets signals through. -/
def unblock (mask signals : SignalMask) : SignalMask :=
  ⟨mask.bits &&& ~~~signals.bits⟩

/-- Holds back these signals and no others. -/
def replace (_mask signals : SignalMask) : SignalMask :=
  ⟨signals.bits &&& maskable.bits⟩

/-- The signals held back are ones that can be. -/
def Proper (mask : SignalMask) : Prop :=
  mask.bits &&& maskable.bits = mask.bits

instance (mask : SignalMask) : Decidable mask.Proper :=
  inferInstanceAs (Decidable (_ = _))

theorem or_and_distrib (a b c : UInt64) : (a ||| b) &&& c = (a &&& c) ||| (b &&& c) := by
  apply UInt64.toBitVec_inj.mp
  ext i hi
  simp [Bool.and_or_distrib_right]

theorem Proper.block {mask : SignalMask} (h : mask.Proper) (signals : SignalMask) :
    (mask.block signals).Proper := by
  simp only [Proper, SignalMask.block] at h ⊢
  rw [or_and_distrib, h, UInt64.and_assoc, UInt64.and_self]

theorem Proper.unblock {mask : SignalMask} (h : mask.Proper) (signals : SignalMask) :
    (mask.unblock signals).Proper := by
  simp only [Proper, SignalMask.unblock] at h ⊢
  rw [UInt64.and_assoc, UInt64.and_comm (~~~signals.bits), ← UInt64.and_assoc, h]

theorem proper_replace (mask signals : SignalMask) : (mask.replace signals).Proper := by
  simp only [Proper, replace]
  rw [UInt64.and_assoc, UInt64.and_self]

/-- Enters a guarded section: the mask to put back, and the mask inside. -/
def enter (mask : SignalMask) : SignalMask × SignalMask :=
  (mask, mask.block maskable)

/-- Leaves a guarded section, whatever the mask has become inside. -/
def leave (saved inside : SignalMask) : SignalMask :=
  inside.replace saved

theorem blocks_maskable : ∀ signal, signal ≤ 64 → 1 ≤ signal → signal ∉ [9, 19, 32, 33] →
    maskable.blocks signal = true := by
  decide

/-- Inside a guarded section every signal is held back that can be. -/
theorem blocks_enter (mask : SignalMask) {signal : Nat} (h : maskable.blocks signal = true) :
    mask.enter.2.blocks signal = true := by
  simp only [blocks, enter, block, bne_iff_ne, UInt64.and_self] at h ⊢
  rw [or_and_distrib]
  simp [h]

theorem leave_of_proper {saved : SignalMask} (h : saved.Proper) (inside : SignalMask) :
    leave saved inside = saved :=
  congrArg SignalMask.mk h

end SignalMask

/-- One change of a mask. -/
inductive MaskChange where
  | block (signals : SignalMask)
  | unblock (signals : SignalMask)
  | replace (signals : SignalMask)
  deriving DecidableEq, Repr

/-- A mask after a change. -/
def MaskChange.apply : MaskChange → SignalMask → SignalMask
  | .block signals, mask => mask.block signals
  | .unblock signals, mask => mask.unblock signals
  | .replace signals, mask => mask.replace signals

theorem SignalMask.Proper.apply {mask : SignalMask} (h : mask.Proper) (change : MaskChange) :
    (change.apply mask).Proper := by
  cases change with
  | block signals => exact h.block signals
  | unblock signals => exact h.unblock signals
  | replace signals => exact proper_replace mask signals

/-- A value that is changed in guarded sections only. -/
structure Guarded (α : Type) where
  value : α

/-- Changes a guarded value inside a guarded section. The step sees the mask inside and may change
it; afterwards the mask is what it was on entry. -/
def Guarded.change {α β : Type} (guarded : Guarded α) (mask : SignalMask)
    (step : α → SignalMask → β × α × SignalMask) : β × Guarded α × SignalMask :=
  let (saved, inside) := mask.enter
  let (result, value, inside) := step guarded.value inside
  (result, { value }, SignalMask.leave saved inside)

end BranchTrace
