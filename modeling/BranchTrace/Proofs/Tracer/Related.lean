import BranchTrace.Proofs.Lbr.Reach
import BranchTrace.Proofs.Tracer.Masks

/-!
# Services and the moves they are made of

All that the services of a tracer do to registers is to save contexts on the cpu that the thread is
on, and to restore them there. So a relation between machines that composes, and holds where no
register is touched (`Machine.Composes`), holds from before a service to after it if it holds around
the moves: `related_dump` and `related_schedOut` for those that save, `related_enable`,
`related_select` and `related_schedIn` for those that restore.
-/

namespace BranchTrace

/-- A relation that holds between machines with the same registers and journals, and from the first
to the last of several machines if from each to the next. -/
structure Machine.Composes (R : Machine → Machine → Prop) : Prop where
  untouched : ∀ {m m' : Machine}, m.Untouched m' → R m m'
  trans : ∀ {m m' m'' : Machine}, R m m' → R m' m'' → R m m''

theorem Tracing.untouched_remove (handle : Handle) (s : Tracing) :
    s.machine.Untouched (remove handle s).2.machine := by
  rw [remove]
  cases s.store.remove? handle <;> exact ⟨rfl, rfl⟩

namespace Tracer

open Tracing

variable {R : Machine → Machine → Prop} (hR : Machine.Composes R) {s : Tracing} {capacity : Nat}
include hR

/-- A step under a pin does what it does where the thread is. -/
theorem related_pinnedHere {α : Type} (step : Nat → Action Tracing TraceError α) (s : Tracing)
    (hstep : ∀ m, R m (step s.machine.cur { s with machine := m }).2.machine) :
    R s.machine (pinnedHere step s).2.machine := by
  rw [pinnedHere, pinned_apply]
  rcases Pin.current_spec s.machine with ⟨-, e, m, h, hm⟩ | ⟨pin, m, h, hcpu, -, hm, hrelease⟩
  · simp only [MachineState.machine, h]
    exact hR.untouched hm
  · simp only [MachineState.machine, h, hcpu]
    exact hR.trans (hR.untouched hm) (hR.trans (hstep m) (hR.untouched (hrelease _).1))

theorem related_enable (config : Config) (pid : UInt32) (bits : UInt64) (s : Tracing)
    (hrestore : ∀ context m, context.capacity = config.capacity →
      R m (Lbr.restore s.machine.cur context m).2) :
    R s.machine (enable config pid bits s).2.machine := by
  rw [enable, Action.bind_apply, Action.liftM_apply]
  cases hn : Context.new pid (if bits = 0 then config.defaultSelect else ⟨bits⟩)
      config.capacity with
  | error e => exact hR.untouched ⟨rfl, rfl⟩
  | ok context =>
    refine related_pinnedHere hR _ s fun m => ?_
    simp only [Action.bind_apply, contexts_apply]
    split
    · exact hR.untouched ⟨rfl, rfl⟩
    simp only [Action.bind_apply, insert_apply, Action.tryCatch_apply, io_apply, restore_apply]
    cases s.store.insert context with
    | error e => exact hR.untouched ⟨rfl, rfl⟩
    | ok inserted =>
      obtain ⟨handle, store⟩ := inserted
      have hreport : R m (report (.inserted context.pid handle.index)
          { store, machine := m : Tracing }).2.machine := hR.untouched ⟨rfl, rfl⟩
      have hloaded := hrestore context
        (report (.inserted context.pid handle.index) { store, machine := m : Tracing }).2.machine
        (Context.capacity_new hn)
      dsimp only
      generalize Lbr.restore s.machine.cur context _ = loaded at hloaded ⊢
      obtain ⟨e | _, m'⟩ := loaded
      · -- the context is taken out again
        refine hR.trans hreport (hR.trans hloaded ?_)
        dsimp only [Except.mapError]
        have hremove := untouched_remove handle { store, machine := m' }
        have hstore : (report (.inserted context.pid handle.index)
          { store, machine := m : Tracing }).2.store = store := rfl
        rw [hstore]
        generalize remove handle { store, machine := m' } = undone at hremove ⊢
        obtain ⟨_ | _, t⟩ := undone <;> exact hR.untouched hremove
      · exact hR.trans hreport hloaded

theorem related_select (hw : s.store.WellFormed) (hu : s.store.Uniform capacity) (pid : UInt32)
    (bits : UInt64)
    (hrestore : ∀ context m, context.capacity = capacity →
      R m (Lbr.restore s.machine.cur context m).2) :
    R s.machine (select pid bits s).2.machine := by
  rw [select]
  refine related_pinnedHere hR _ s fun m => ?_
  simp only [Action.bind_apply, contexts_apply]
  cases s.store.find? pid with
  | none => exact hR.untouched ⟨rfl, rfl⟩
  | some handle =>
    dsimp only
    cases hget : s.store.get? handle with
    | none => exact hR.untouched ⟨rfl, rfl⟩
    | some context =>
      have hcapacity : context.capacity = capacity := hu _ (hw.get?_eq_some.mp hget)
      simp only [Action.bind_apply, Action.modify_apply, io_apply, restore_apply]
      exact hrestore { context with select := ⟨bits⟩ } m hcapacity

theorem related_dump (hw : s.store.WellFormed) (hu : s.store.Uniform capacity)
    (pid? : Option UInt32)
    (hsave : ∀ context m, context.capacity = capacity →
      R m (Lbr.save s.machine.cur context m).2) :
    R s.machine (dump pid? s).2.machine := by
  rw [dump_eq]
  refine related_pinnedHere hR _ s fun m => ?_
  simp only [Action.bind_apply, contexts_apply]
  cases wanted s.store pid? with
  | none => exact hR.untouched ⟨rfl, rfl⟩
  | some handle =>
    dsimp only
    cases hget : s.store.get? handle with
    | none => exact hR.untouched ⟨rfl, rfl⟩
    | some context =>
      simp only [Action.bind_apply, io_apply, save_apply]
      have hsaved := hsave context m (hu _ (hw.get?_eq_some.mp hget))
      generalize Lbr.save s.machine.cur context m = saved at hsaved ⊢
      obtain ⟨⟨e | _, context'⟩, m'⟩ := saved
      · exact hsaved
      · exact hR.trans hsaved (hR.untouched ⟨rfl, rfl⟩)

theorem related_schedOut (hw : s.store.WellFormed) (hu : s.store.Uniform capacity) (pid : UInt32)
    (hsave : ∀ context m, context.capacity = capacity →
      R m (Lbr.save s.machine.cur context m).2) :
    R s.machine (schedOut pid s).2.machine := by
  rw [schedOut]
  refine transfer_induction (P := fun t => R s.machine t.machine) _ pid _
    (fun _ => hR.untouched ⟨rfl, rfl⟩) (fun _ m _ _ hm => hR.untouched hm) ?_
  intro handle context m m' hf hget hm _ moved hrelease _
  have hsaved := hsave context m (hu _ (hw.get?_eq_some.mp hget))
  simp only [moved, save_then_apply, save_apply] at hrelease
  exact hR.trans (hR.untouched hm) (hR.trans hsaved (hR.untouched hrelease))

theorem related_schedIn (hw : s.store.WellFormed) (hu : s.store.Uniform capacity) (pid : UInt32)
    (hrestore : ∀ context m, context.capacity = capacity →
      R m (Lbr.restore s.machine.cur context m).2) :
    R s.machine (schedIn pid s).2.machine := by
  rw [schedIn]
  refine transfer_induction (P := fun t => R s.machine t.machine) _ pid _
    (fun _ => hR.untouched ⟨rfl, rfl⟩) (fun _ m _ _ hm => hR.untouched hm) ?_
  intro handle context m m' hf hget hm _ moved hrelease _
  have hloaded := hrestore context m (hu _ (hw.get?_eq_some.mp hget))
  simp only [moved, restore_apply] at hrelease
  exact hR.trans (hR.untouched hm) (hR.trans hloaded (hR.untouched hrelease))

end Tracer

end BranchTrace
