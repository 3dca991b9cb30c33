import BranchTrace.Proofs.Tracer.Related

/-!
# Footprints

What each operation of a tracer leaves alone, however it ends: which registers it does not write,
and which contexts it does not change (`Service.Footprint`). That a restore stays within the stack
of the configuration rests on all contexts having its capacity.

Main statement: `Service.footprint`.
-/

namespace BranchTrace

namespace Tracer

/-- What a loaded tracer does for those who ask. -/
inductive Service where
  | enable (pid : UInt32) (bits : UInt64)
  | disable (pid : UInt32)
  | dump (pid? : Option UInt32)
  | select (pid : UInt32) (bits : UInt64)
  | fork (parent child : UInt32)
  | schedOut (pid : UInt32)
  | schedIn (pid : UInt32)
  deriving DecidableEq

/-- The state after a service. -/
def Service.run (config : Config) : Service → Tracing → Tracing
  | .enable pid bits, s => (Tracer.enable config pid bits s).2
  | .disable pid, s => (Tracer.disable pid s).2
  | .dump pid?, s => (Tracer.dump pid? s).2
  | .select pid bits, s => (Tracer.select pid bits s).2
  | .fork parent child, s => (Tracer.fork config parent child s).2
  | .schedOut pid, s => (Tracer.schedOut pid s).2
  | .schedIn pid, s => (Tracer.schedIn pid s).2

end Tracer

/-- Nothing differs but perhaps what the context of one handle holds. -/
def Store.Keeps (store : Store) (handle? : Option Handle) (store' : Store) : Prop :=
  store' = store ∨ ∃ handle, handle? = some handle ∧ store.Edited handle store'

/-- No register is written. -/
abbrev Machine.Unwritten (m m' : Machine) : Prop :=
  m.Confined (fun _ => False) m'

theorem Machine.Spares.unwritten {m m' : Machine} (h : m.Spares m') : m.Unwritten m' :=
  Writes.confined (h.mono nofun)

namespace Tracer

/-- What a service may touch. -/
def Service.Footprint (capacity : Nat) (s s' : Tracing) : Service → Prop
  | .enable _ _ => s.machine.Confined (Msr.OfStack capacity) s'.machine
  | .select pid _ => s.machine.Confined (Msr.OfStack capacity) s'.machine ∧
      s.store.Keeps (s.store.find? pid) s'.store
  | .dump pid? => s.machine.Unwritten s'.machine ∧ s.store.Keeps (wanted s.store pid?) s'.store
  | .disable _ | .fork _ _ => s.machine.Unwritten s'.machine
  | .schedOut pid => s.machine.Unwritten s'.machine ∧
      s.store.Keeps (s.store.find? pid) s'.store ∧ (isTraced s.store pid = false → s' = s)
  | .schedIn pid => s.machine.Confined (Msr.OfStack capacity) s'.machine ∧ s'.store = s.store ∧
      (isTraced s.store pid = false → s' = s)

end Tracer

/-! ## Registers -/

theorem Machine.composes_writes (may : Nat → UInt32 → Prop) : Machine.Composes (Writes may) where
  untouched := Untouched.writes
  trans := Writes.trans

namespace Tracer

open Tracing

variable {s : Tracing} {capacity : Nat}

/-- The registers of a stack on the cpu that the thread is on. -/
def reach (s : Tracing) (capacity : Nat) (cpu : Nat) (msr : UInt32) : Prop :=
  cpu = s.machine.cur ∧ Msr.OfStack capacity msr

theorem writes_restore_here (s : Tracing) {context : Context} (m : Machine)
    (hc : context.capacity = capacity) :
    m.Writes (reach s capacity) (Lbr.restore s.machine.cur context m).2 :=
  Lbr.writes_restore hc s.machine.cur m

theorem writes_enable (config : Config) (pid : UInt32) (bits : UInt64) (s : Tracing) :
    s.machine.Writes (reach s config.capacity) (enable config pid bits s).2.machine :=
  related_enable (Machine.composes_writes _) config pid bits s fun _ => writes_restore_here s

theorem writes_select (hw : s.store.WellFormed) (hu : s.store.Uniform capacity) (pid : UInt32)
    (bits : UInt64) : s.machine.Writes (reach s capacity) (select pid bits s).2.machine :=
  related_select (Machine.composes_writes _) hw hu pid bits fun _ => writes_restore_here s

theorem writes_schedIn (hw : s.store.WellFormed) (hu : s.store.Uniform capacity) (pid : UInt32) :
    s.machine.Writes (reach s capacity) (schedIn pid s).2.machine :=
  related_schedIn (Machine.composes_writes _) hw hu pid fun _ => writes_restore_here s

theorem spares_dump (hw : s.store.WellFormed) (hu : s.store.Uniform capacity)
    (pid? : Option UInt32) : s.machine.Spares (dump pid? s).2.machine :=
  related_dump (Machine.composes_writes _) hw hu pid? fun context m _ =>
    Lbr.spares_save s.machine.cur context m

theorem spares_schedOut (hw : s.store.WellFormed) (hu : s.store.Uniform capacity) (pid : UInt32) :
    s.machine.Spares (schedOut pid s).2.machine :=
  related_schedOut (Machine.composes_writes _) hw hu pid fun context m _ =>
    Lbr.spares_save s.machine.cur context m

/-! ## Contexts -/

theorem keeps_dump (hw : s.store.WellFormed) (pid? : Option UInt32) :
    s.store.Keeps (wanted s.store pid?) (dump pid? s).2.store := by
  have h := dump_outcome hw pid?
  generalize dump pid? s = o at h ⊢
  obtain ⟨r, s'⟩ := o
  cases h with
  | unpinned _ hs | absent _ hs => exact .inl hs
  | torn _ hn he | read hn he => exact .inr ⟨_, hn, he⟩

theorem keeps_select (hw : s.store.WellFormed) (pid : UInt32) (bits : UInt64) :
    s.store.Keeps (s.store.find? pid) (select pid bits s).2.store := by
  have h := select_outcome hw pid bits
  generalize select pid bits s = o at h ⊢
  obtain ⟨r, s'⟩ := o
  cases h with
  | unpinned _ hs | absent _ hs => exact .inl hs
  | torn _ hn he | loaded hn he => exact .inr ⟨_, hn, he⟩

/-- A switch of a process that is not traced does nothing at all. -/
theorem transfer_of_not_isTraced {pid : UInt32} (h : isTraced s.store pid = false)
    (direction : Transfer) (move : Nat → Handle → Context → Action Tracing SystemError Unit) :
    (transfer direction pid move s).2 = s := by
  rw [transfer, Registered.find?_eq_none_of_not_isTraced h]

theorem Service.footprint {config : Config} (hr : Registered config s.store) (service : Service) :
    service.Footprint config.capacity s (service.run config s) := by
  cases service with
  | enable pid bits => exact (writes_enable config pid bits s).confined
  | disable pid =>
    obtain ⟨events, h⟩ := disable_machine pid s
    have hu : s.machine.Untouched (Tracer.disable pid s).2.machine := h ▸ ⟨rfl, rfl⟩
    exact Machine.Spares.unwritten hu.writes
  | dump pid? => exact ⟨(spares_dump hr.wellFormed hr.capacity pid?).unwritten, keeps_dump hr.wellFormed pid?⟩
  | select pid bits =>
    exact ⟨(writes_select hr.wellFormed hr.capacity pid bits).confined,
      keeps_select hr.wellFormed pid bits⟩
  | fork parent child =>
    obtain ⟨events, h⟩ := fork_machine config parent child s
    have hu : s.machine.Untouched (Tracer.fork config parent child s).2.machine := h ▸ ⟨rfl, rfl⟩
    exact Machine.Spares.unwritten hu.writes
  | schedOut pid =>
    exact ⟨(spares_schedOut hr.wellFormed hr.capacity pid).unwritten, schedOut_outcome pid s,
      fun h => transfer_of_not_isTraced h ..⟩
  | schedIn pid =>
    exact ⟨(writes_schedIn hr.wellFormed hr.capacity pid).confined,
      store_schedIn pid s, fun h => transfer_of_not_isTraced h ..⟩

end Tracer

end BranchTrace
