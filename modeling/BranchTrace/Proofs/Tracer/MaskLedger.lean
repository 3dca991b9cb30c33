import Mathlib.Logic.Function.Basic

/-!
# A ledger of select masks

The processes that are traced on one cpu share its select register, and reading the registers into
a context takes whatever mask stands there. Which mask a process ends up with is settled by the
order in which masks were given, contexts loaded, and registers read (`Mark`). A `MaskLedger`
follows them: the mask in the register, the mask of each process, and the one it was given.

Main statement: `MaskLedger.Sound.note`. A process has the mask that it was given as long as
its registers are read only while they hold what was loaded for it.
-/

namespace BranchTrace

/-- What was done about the masks of processes. -/
inductive Mark where
  /-- A process was given a mask, and its context was loaded into the registers. -/
  | given (pid : UInt32) (mask : UInt64)
  /-- A process was forked, and given the mask that its parent had. -/
  | forked (child parent : UInt32)
  /-- The context of a process was loaded into the registers. -/
  | loaded (pid : UInt32)
  /-- The registers were read into the context of a process. -/
  | read (pid : UInt32)
  deriving DecidableEq, Repr

/-- The masks on one cpu. -/
structure MaskLedger where
  /-- The mask in the select register. -/
  register : UInt64
  /-- The process whose context was loaded into the registers last. -/
  holder : Option UInt32
  /-- The mask that each process was given last, by a request or at its fork. -/
  own : UInt32 → UInt64
  /-- The mask that each process has. -/
  held : UInt32 → UInt64
  /-- Since it was given its mask, the registers were read into the context of a process only while
  they held what was loaded for it. -/
  undisturbed : UInt32 → Bool

namespace MaskLedger

/-- The ledger of a cpu where nothing is traced yet. -/
def start (register : UInt64) : MaskLedger :=
  { register, holder := none, own := fun _ => 0, held := fun _ => 0, undisturbed := fun _ => false }

/-- Enters a mark. -/
def note (ledger : MaskLedger) : Mark → MaskLedger
  | .given pid mask =>
    { register := mask
      holder := some pid
      own := Function.update ledger.own pid mask
      held := Function.update ledger.held pid mask
      undisturbed := Function.update ledger.undisturbed pid true }
  | .forked child parent =>
    { ledger with
      -- what was loaded for a process of this number before was another context
      holder := ledger.holder.filter (· ≠ child)
      own := Function.update ledger.own child (ledger.held parent)
      held := Function.update ledger.held child (ledger.held parent)
      undisturbed := Function.update ledger.undisturbed child true }
  | .loaded pid => { ledger with register := ledger.held pid, holder := some pid }
  | .read pid =>
    { ledger with
      held := Function.update ledger.held pid ledger.register
      undisturbed := Function.update ledger.undisturbed pid
        (ledger.undisturbed pid && ledger.holder == some pid) }

/-- Enters a mark, if there is one. -/
def enter (ledger : MaskLedger) (mark? : Option Mark) : MaskLedger :=
  mark?.elim ledger ledger.note

/-- The register holds the mask of the process that was loaded last, and a process that was left
undisturbed has the mask it was given. -/
structure Sound (ledger : MaskLedger) : Prop where
  held_holder : ∀ pid, ledger.holder = some pid → ledger.held pid = ledger.register
  held_own : ∀ pid, ledger.undisturbed pid = true → ledger.held pid = ledger.own pid

theorem sound_start (register : UInt64) : (start register).Sound :=
  ⟨nofun, nofun⟩

variable {ledger : MaskLedger}

theorem Sound.note (h : ledger.Sound) (mark : Mark) : (ledger.note mark).Sound := by
  cases mark with
  | given pid mask =>
    refine ⟨fun p hp => ?_, fun p hu => ?_⟩
    · obtain rfl : pid = p := Option.some.inj hp
      exact Function.update_self ..
    · by_cases hp : p = pid
      · subst hp
        simp [MaskLedger.note]
      · simp only [MaskLedger.note, Function.update_of_ne hp] at hu ⊢
        exact h.held_own p hu
  | forked child parent =>
    refine ⟨fun p hp => ?_, fun p hu => ?_⟩
    · obtain ⟨hp, hne⟩ := Option.filter_eq_some_iff.mp hp
      have hne : p ≠ child := by simpa using hne
      simp only [MaskLedger.note, Function.update_of_ne hne]
      exact h.held_holder p hp
    · by_cases hp : p = child
      · subst hp
        simp [MaskLedger.note]
      · simp only [MaskLedger.note, Function.update_of_ne hp] at hu ⊢
        exact h.held_own p hu
  | loaded pid =>
    refine ⟨fun p hp => ?_, h.held_own⟩
    obtain rfl : pid = p := Option.some.inj hp
    rfl
  | read pid =>
    refine ⟨fun p hp => ?_, fun p hu => ?_⟩
    · by_cases hpid : p = pid
      · subst hpid
        exact Function.update_self ..
      · simp only [MaskLedger.note, Function.update_of_ne hpid]
        exact h.held_holder p hp
    · by_cases hpid : p = pid
      · subst hpid
        simp only [MaskLedger.note, Function.update_self, Bool.and_eq_true, beq_iff_eq] at hu ⊢
        rw [← h.held_holder p hu.2, h.held_own p hu.1]
      · simp only [MaskLedger.note, Function.update_of_ne hpid] at hu ⊢
        exact h.held_own p hu

end MaskLedger

end BranchTrace
