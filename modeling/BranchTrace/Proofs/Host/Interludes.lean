import BranchTrace.Proofs.Host.Ledger
import BranchTrace.Proofs.Host.Loading
import BranchTrace.Proofs.Tracer.ControlPlane
import BranchTrace.Proofs.Tracer.Footprints

/-!
# Between loading and unloading

What can happen to a platform while tracing is up (`Interlude`), and what each such thing may touch
(`Interlude.Footprint`). A platform where tracing is up stays one (`Serving`), and the switch of
recording is left alone throughout.

Main statement: `footprint_of_interludes`, for any interludes in any order after a load, with any
failures.
-/

namespace BranchTrace

/-! ## A register that is left alone -/

namespace Machine

/-- A register is written on no cpu. -/
structure Leaves (msr : UInt32) (m m' : Machine) : Prop where
  accesses : ∃ tried, m'.accesses = tried ++ m.accesses ∧
    ∀ access ∈ tried, access.write = true → access.msr ≠ msr
  bank : ∀ bank, m.bank = .soft bank → ∃ bank', m'.bank = .soft bank' ∧
    bank'.files = bank.files ∧ ∀ cpu, bank'.read cpu msr = bank.read cpu msr

variable {msr : UInt32} {m m' m'' : Machine}

theorem Leaves.trans (h : m.Leaves msr m') (h' : m'.Leaves msr m'') : m.Leaves msr m'' where
  accesses := by
    obtain ⟨tried, ht, hw⟩ := h.accesses
    obtain ⟨tried', ht', hw'⟩ := h'.accesses
    refine ⟨tried' ++ tried, by rw [ht', ht, List.append_assoc], fun access ha => ?_⟩
    exact (List.mem_append.mp ha).elim (hw' access) (hw access)
  bank bank hb := by
    obtain ⟨bank', hb', hf, hread⟩ := h.bank bank hb
    obtain ⟨bank'', hb'', hf', hread'⟩ := h'.bank bank' hb'
    exact ⟨bank'', hb'', hf'.trans hf, fun cpu => (hread' cpu).trans (hread cpu)⟩

theorem Confined.leaves {registers : UInt32 → Prop} (h : m.Confined registers m')
    (hn : ¬registers msr) : m.Leaves msr m' where
  accesses := by
    obtain ⟨tried, ht, hw⟩ := h.accesses
    exact ⟨tried, ht, fun access ha hwrite he => hn (he ▸ (hw access ha hwrite).2)⟩
  bank bank hb := by
    obtain ⟨bank', hb', hf, hread⟩ := h.bank bank hb
    exact ⟨bank', hb', hf, fun cpu => hread cpu msr fun hr => hn hr.2⟩

theorem Untouched.unwritten (h : m.Untouched m') : m.Unwritten m' :=
  Spares.unwritten h.writes

/-- What touches no register may come before and after. -/
theorem Confined.extend {registers : UInt32 → Prop} {n n' : Machine} (h : m.Confined registers m')
    (hn : n.Untouched m) (hcur : m.cur = n.cur) (hn' : m'.Untouched n') :
    n.Confined registers n' where
  accesses := by
    obtain ⟨tried, ht, hw⟩ := h.accesses
    exact ⟨tried, by rw [hn'.accesses, ht, hn.accesses], hcur ▸ hw⟩
  bank bank hb := by
    obtain ⟨bank', hb', hread⟩ := h.bank bank (hn.bank.trans hb)
    exact ⟨bank', hn'.bank.trans hb', hcur ▸ hread⟩

theorem Leaves.lastWritten (h : m.Leaves msr m') (cpu : Nat) :
    m'.lastWritten cpu msr = m.lastWritten cpu msr := by
  obtain ⟨tried, ht, hw⟩ := h.accesses
  exact lastWritten_of_forall_not ht fun access ha hs => hw access ha hs.1 hs.2.2

end Machine

/-! ## Requests -/

namespace Tracer

/-- The service that a request asks for, if the request can be read. -/
def requested (caller number : UInt32) (block : List UInt8) (param : UInt64) : Option Service :=
  match Request.ofBytes block, Command.ofNumber number with
  | .ok request, .ok .enable => some (.enable (target caller request) request.select)
  | .ok request, .ok .disable => some (.disable (target caller request))
  | .ok request, .ok .dump => some (.dump (if request.pid = 0 then none else some request.pid))
  | .ok request, .ok .select => some (.select (target caller request) param)
  | _, _ => none

/-- Whether a service is one that is asked for, and not part of a context switch. -/
def Service.asked : Service → Bool
  | .enable _ _ | .disable _ | .dump _ | .select _ _ | .fork _ _ => true
  | .schedOut _ | .schedIn _ => false

/-- The status of a request; a refusal is reported. -/
def status (number : UInt32) : Except TraceError Reply → StateM Tracing Int
  | .ok _ => pure 0
  | .error e => do
    report (.rejected number e)
    return e.status

/-- What answering may touch, by the service that was asked for: nothing if none was. -/
def AnswerFootprint (capacity : Nat) (s s' : Tracing) : Option Service → Prop
  | some service => service.Footprint capacity s s'
  | none => s.machine.Unwritten s'.machine ∧ s'.store = s.store

variable {config : Config} {s t : Tracing}

/-- Reports touch nothing that a footprint speaks of, except that of a switch. -/
theorem Service.footprint_of_reported {service : Service} {capacity : Nat} (first : Event)
    (hs : service.asked = true) {t' : Tracing}
    (ht : t'.store = t.store) (hu : t.machine.Untouched t'.machine)
    (h : service.Footprint capacity (report first s).2 t) : service.Footprint capacity s t' := by
  have hconfined : ∀ registers, (report first s).2.machine.Confined registers t.machine →
      s.machine.Confined registers t'.machine := fun _ h => h.extend ⟨rfl, rfl⟩ rfl hu
  cases service with
  | schedOut | schedIn => cases hs
  | enable | disable | fork => exact hconfined _ h
  | dump | select => exact ⟨hconfined _ h.1, ht ▸ h.2⟩

/-- No service writes the switch of recording. -/
theorem Service.Footprint.leaves {service : Service} {capacity : Nat}
    (h : service.Footprint capacity s t) (hc : capacity ≤ Msr.maxPlaces) :
    s.machine.Leaves Msr.debugctl t.machine := by
  have hn := Msr.not_ofStack_debugctl hc
  cases service with
  | enable pid bits => exact Machine.Confined.leaves h hn
  | disable pid => exact Machine.Confined.leaves h not_false
  | dump pid? => exact Machine.Confined.leaves h.1 not_false
  | select pid bits => exact Machine.Confined.leaves h.1 hn
  | fork parent child => exact Machine.Confined.leaves h not_false
  | schedOut pid => exact Machine.Confined.leaves h.1 not_false
  | schedIn pid => exact Machine.Confined.leaves h.1 hn

theorem footprint_ioctl (hr : Registered config s.store) (caller number : UInt32)
    (block : List UInt8) (param : UInt64) :
    AnswerFootprint config.capacity s (ioctl config caller number block param s).2
      (requested caller number block param) := by
  have hu : ∀ first last, s.machine.Unwritten (report first (report last s).2).2.machine :=
    fun _ _ => Machine.Untouched.unwritten ⟨rfl, rfl⟩
  rw [ioctl, stateM_bind_apply, ExceptT.run, requested, dispatch_apply]
  cases Request.ofBytes block with
  | error e => exact ⟨Machine.Untouched.unwritten ⟨rfl, rfl⟩, rfl⟩
  | ok request =>
    have hreported : Registered config
      (report (.requested number request.select request.pid) s).2.store := hr
    have hservice := fun service : Service => service.footprint hreported
    dsimp only
    cases Command.ofNumber number with
    | error e => exact ⟨hu _ _, rfl⟩
    | ok command =>
      have hdone : ∀ (service : Service) (r : Except TraceError Reply), service.asked = true →
          service.Footprint config.capacity s (status number r (service.run config
            (report (.requested number request.select request.pid) s).2)).2 := by
        intro service r hs
        refine Service.footprint_of_reported _ hs ?_ ?_ (hservice service)
        · cases r <;> rfl
        · cases r <;> exact ⟨rfl, rfl⟩
      cases command with
      | enable => exact hdone (.enable _ _) _ rfl
      | disable => exact hdone (.disable _) _ rfl
      | dump => exact hdone (.dump _) _ rfl
      | select => exact hdone (.select _ _) _ rfl

/-- Reading the device dumps the oldest context. -/
theorem deviceRead_spec (s : Tracing) :
    (deviceRead s).2.store = (dump none (report .deviceRead s).2).2.store ∧
      (dump none (report .deviceRead s).2).2.machine.Untouched (deviceRead s).2.machine := by
  rw [deviceRead, stateM_bind_apply, stateM_bind_apply, ExceptT.run]
  rcases dump none (report .deviceRead s).2 with ⟨_ | _, t⟩ <;> exact ⟨rfl, rfl, rfl⟩

theorem footprint_deviceRead (hr : Registered config s.store) :
    (Service.dump none).Footprint config.capacity s (deviceRead s).2 := by
  have hreported : Registered config (report .deviceRead s).2.store := hr
  have hservice := (Service.dump none).footprint hreported
  obtain ⟨hstore, hu⟩ := deviceRead_spec s
  exact Service.footprint_of_reported _ rfl hstore hu hservice

theorem forkEnds_spec (config : Config) (parent child : UInt32) (s : Tracing) :
    (forkEnds config parent (some child) s).2.store = (fork config parent child s).2.store ∧
      (fork config parent child s).2.machine.Untouched
        (forkEnds config parent (some child) s).2.machine := by
  rw [forkEnds, stateM_bind_apply, ExceptT.run]
  rcases fork config parent child s with ⟨_ | _, t⟩ <;> exact ⟨rfl, rfl, rfl⟩

theorem registered_service (hr : Registered config s.store) (service : Service) :
    Registered config (service.run config s).store := by
  cases service with
  | enable pid bits => exact hr.enable pid bits
  | disable pid => exact hr.disable pid
  | dump pid? => exact hr.dump pid?
  | select pid bits => exact hr.select pid bits
  | fork parent child => exact hr.fork parent child
  | schedOut pid => exact hr.schedOut pid
  | schedIn pid => exact (store_schedIn pid s).symm ▸ hr

end Tracer

/-! ## Interludes -/

namespace Platform

/-- What can happen to a platform between loading and unloading. -/
inductive Interlude where
  /-- The tracer is asked directly. -/
  | serve (service : Tracer.Service)
  | request (caller number : UInt32) (block : List UInt8) (param : UInt64)
  | read (caller : UInt32) (length : Nat)
  | fork (parent child : UInt32)
  | switch (cpu : Nat) (next : UInt32)
  /-- Somebody pins the thread to a cpu, or to the one it is on, and keeps the pin. -/
  | pin (cpu? : Option Nat)
  | release (pin : Pin)
  /-- Somebody binds the thread to some cpus. -/
  | bind (cpus : List Nat)
  /-- Anything but the registers becomes otherwise: where the thread is, what will fail. -/
  | outside (machine : Machine)

/-- A tracer does something for those who ask. -/
def serve (id : Nat) (service : Tracer.Service) : StateM Platform Unit :=
  onTracer id () fun config t => ((), service.run config t)

/-- The platform after an interlude. -/
def Interlude.run (id : Nat) : Interlude → Platform → Platform
  | .serve service, s => (Platform.serve id service s).2
  | .request caller number block param, s =>
    (Platform.ioctl deviceName caller number block param s).2
  | .read caller length, s => (Platform.read deviceName caller length s).2
  | .fork parent child, s => (Platform.fork forkSymbol parent child s).2
  | .switch cpu next, s => (contextSwitch cpu next s).2
  | .pin none, s => { s with machine := (Pin.current s.machine).2 }
  | .pin (some cpu), s => { s with machine := (Pin.on cpu s.machine).2 }
  | .release held, s => { s with machine := (held.release s.machine).2 }
  | .bind cpus, s => { s with machine := (Machine.setAffinity cpus s.machine).2 }
  | .outside machine, s =>
    { s with
      machine :=
        { machine with
          bank := s.machine.bank, files := s.machine.files, accesses := s.machine.accesses } }

/-- The platform after some interludes. -/
def runInterludes (id : Nat) (interludes : List Interlude) (start : Platform) : Platform :=
  interludes.foldl (fun s interlude => interlude.run id s) start

theorem retains_interlude (id : Nat) (i : Interlude) (s : Platform) : s.Retains (i.run id s) := by
  cases i with
  | serve service => exact retains_onTracer ..
  | request caller number block param => exact retains_ioctl ..
  | read caller length => exact retains_read ..
  | fork parent child => exact retains_fork ..
  | switch cpu next => exact retains_contextSwitch ..
  | pin cpu? => cases cpu? <;> exact retains_of_eq rfl rfl
  | release | bind | outside => exact retains_of_eq rfl rfl

/-- What an interlude may touch. -/
def Interlude.Footprint (id capacity : Nat) (s s' : Platform) : Interlude → Prop
  | .serve service => service.Footprint capacity (s.tracing id) (s'.tracing id)
  | .request caller number block param =>
    Tracer.AnswerFootprint capacity (s.tracing id) (s'.tracing id)
      (Tracer.requested caller number block param)
  | .read _ _ => (Tracer.Service.dump none).Footprint capacity (s.tracing id) (s'.tracing id)
  | .fork parent child =>
    (Tracer.Service.fork parent child).Footprint capacity (s.tracing id) (s'.tracing id)
  | .switch cpu next =>
    (match s.host.running.lookup cpu with
      | none => s.leave id cpu = s.tracing id
      | some prev =>
        (Tracer.Service.schedOut prev).Footprint capacity (s.tracing id) (s.leave id cpu)) ∧
      (Tracer.Service.schedIn next).Footprint capacity (s.leave id cpu) (s'.tracing id)
  | .pin _ | .release _ | .bind _ | .outside _ =>
    s.machine.Untouched s'.machine ∧ s'.tracers = s.tracers

/-- Tracing is up on a platform: a tracer answers its device, hook and notifier, and keeps a
registry. -/
structure Serving (id : Nat) (config : Config) (s : Platform) : Prop where
  has : s.Has id config
  notifies : s.host.NotifiesOnly id
  device : s.host.devices.lookup deviceName = some (.tracer id)
  hook : s.host.hooks.lookup forkSymbol = some (.tracer id)
  registered : Registered config (s.tracing id).store

namespace Serving

variable {id : Nat} {config : Config} {s s' : Platform} (h : Serving id config s)
include h

/-- Tracing stays up while the registrations and the configuration stay. -/
theorem of_retains (hs : s.Retains s') (hr : Registered config (s'.tracing id).store) :
    Serving id config s' := by
  obtain ⟨running, hhost⟩ := hs.host
  refine ⟨hs.has h.has, ?_, ?_, ?_, hr⟩
  · rw [hhost]
    exact h.notifies
  · rw [hhost]
    exact h.device
  · rw [hhost]
    exact h.hook

/-- What the tracer does with its store and the machine. -/
theorem onTracer {α : Type} (absent : α) (step : Config → StateM Tracing α)
    (hr : Registered config (step config (s.tracing id)).2.store) :
    (Platform.onTracer id absent step s).2.tracing id = (step config (s.tracing id)).2 ∧
      Serving id config (Platform.onTracer id absent step s).2 := by
  obtain ⟨-, ht, -⟩ := onTracer_spec h.has absent step
  exact ⟨ht, h.of_retains (retains_onTracer ..) (ht ▸ hr)⟩

/-- What an interlude keeps, and what it touches. -/
def Served (id : Nat) (config : Config) (s : Platform) (i : Interlude) : Prop :=
  Serving id config (i.run id s) ∧ i.Footprint id config.capacity s (i.run id s)

theorem serve (service : Tracer.Service) : Served id config s (.serve service) := by
  obtain ⟨ht, hs⟩ := h.onTracer () (fun config t => ((), service.run config t))
    (Tracer.registered_service h.registered service)
  refine ⟨hs, ?_⟩
  show service.Footprint _ _ ((Platform.serve id service s).2.tracing id)
  rw [Platform.serve, ht]
  exact service.footprint h.registered

/-- The tracer answers what is asked of the device. -/
theorem ioctl_eq (caller number : UInt32) (block : List UInt8) (param : UInt64) :
    Platform.ioctl deviceName caller number block param s =
      Platform.onTracer id noDevice
        (fun config => Tracer.ioctl config caller number block param) s := by
  have hget : (get : StateM Platform Platform) s = (s, s) := rfl
  rw [Platform.ioctl, stateM_bind_apply, hget]
  simp only [h.device]

/-- The tracer is told of a fork before and after. -/
theorem fork_eq (parent child : UInt32) :
    Platform.fork forkSymbol parent child s =
      Platform.onTracer id () (fun config => Tracer.forkEnds config parent (some child))
        (Platform.onTracer id () (fun _ => Tracer.forkBegins parent) s).2 := by
  have hget : (get : StateM Platform Platform) s = (s, s) := rfl
  rw [Platform.fork, stateM_bind_apply, hget]
  simp only [h.hook]
  rfl

theorem request (caller number : UInt32) (block : List UInt8) (param : UInt64) :
    Served id config s (.request caller number block param) := by
  have hstore := (Tracer.ioctl_spec config caller number block param (s.tracing id)).2.1
  obtain ⟨ht, hs⟩ := h.onTracer noDevice
    (fun config => Tracer.ioctl config caller number block param)
    (hstore ▸ h.registered.dispatch caller number block param)
  rw [Served, Interlude.run, h.ioctl_eq]
  refine ⟨hs, ?_⟩
  rw [Interlude.Footprint, ht]
  exact Tracer.footprint_ioctl h.registered caller number block param

theorem read (caller : UInt32) (length : Nat) : Served id config s (.read caller length) := by
  have hget : (get : StateM Platform Platform) s = (s, s) := rfl
  have hdump : Registered config (Tracer.deviceRead (s.tracing id)).2.store :=
    (Tracer.deviceRead_spec (s.tracing id)).1 ▸
      Registered.dump (s := (report .deviceRead (s.tracing id)).2) h.registered none
  obtain ⟨ht, hs⟩ := h.onTracer noDevice (fun _ => Tracer.deviceRead) hdump
  have hrun : Platform.read deviceName caller length s =
      Platform.onTracer id noDevice (fun _ => Tracer.deviceRead) s := by
    rw [Platform.read, stateM_bind_apply, hget]
    simp only [h.device]
  rw [Served, Interlude.run, hrun]
  refine ⟨hs, ?_⟩
  rw [Interlude.Footprint, ht]
  exact Tracer.footprint_deviceRead h.registered

theorem fork (parent child : UInt32) : Served id config s (.fork parent child) := by
  obtain ⟨ht, hs⟩ := h.onTracer () (fun _ => Tracer.forkBegins parent) h.registered
  have hbegun := hs.registered
  rw [ht] at hbegun
  obtain ⟨hstore, hu⟩ := Tracer.forkEnds_spec config parent child
    (Tracer.forkBegins parent (s.tracing id)).2
  obtain ⟨ht', hs'⟩ := hs.onTracer ()
    (fun config => Tracer.forkEnds config parent (some child))
    (by rw [ht, hstore]; exact hbegun.fork parent child)
  rw [Served, Interlude.run, h.fork_eq]
  refine ⟨hs', ?_⟩
  rw [Interlude.Footprint, ht', ht]
  exact Tracer.Service.footprint_of_reported (.forkBegins parent) rfl hstore hu
    ((Tracer.Service.fork parent child).footprint hbegun)

theorem switch (cpu : Nat) (next : UInt32) : Served id config s (.switch cpu next) := by
  obtain ⟨htracing, -⟩ := contextSwitch_spec h.has h.notifies cpu next
  have hleave : Registered config (s.leave id cpu).store ∧
      (match s.host.running.lookup cpu with
        | none => s.leave id cpu = s.tracing id
        | some prev => (Tracer.Service.schedOut prev).Footprint config.capacity (s.tracing id)
            (s.leave id cpu)) := by
    rw [leave]
    cases s.host.running.lookup cpu with
    | none => exact ⟨h.registered, rfl⟩
    | some prev =>
      exact ⟨h.registered.schedOut prev, Tracer.Service.footprint h.registered (.schedOut prev)⟩
  have harrive := Tracer.registered_service hleave.1 (.schedIn next)
  refine ⟨h.of_retains (retains_contextSwitch ..) (htracing ▸ harrive), hleave.2, ?_⟩
  rw [Interlude.run, htracing]
  exact Tracer.Service.footprint hleave.1 (.schedIn next)

/-- Where the thread is, and what will fail, is nothing to the tracer. -/
theorem of_machine {m : Machine} (hm : s.machine.Untouched m) :
    Serving id config { s with machine := m } ∧
      s.machine.Untouched m ∧ s.tracers = s.tracers :=
  ⟨h.of_retains (retains_of_eq rfl rfl) h.registered, hm, rfl⟩

theorem interlude (i : Interlude) : Served id config s i := by
  cases i with
  | serve service => exact h.serve service
  | request caller number block param => exact h.request caller number block param
  | read caller length => exact h.read caller length
  | fork parent child => exact h.fork parent child
  | switch cpu next => exact h.switch cpu next
  | pin cpu? =>
    cases cpu? with
    | none => exact h.of_machine (Pin.untouched_current s.machine)
    | some cpu => exact h.of_machine (Pin.untouched_on cpu s.machine)
  | release held => exact h.of_machine (held.untouched_release _)
  | bind cpus => exact h.of_machine (Machine.untouched_setAffinity cpus s.machine)
  | outside machine => exact h.of_machine ⟨rfl, rfl⟩

end Serving

/-! ## Runs -/

variable {id : Nat} {config : Config} {s s' : Platform}

/-- An interlude leaves the switch of recording alone on every cpu. -/
theorem Interlude.Footprint.leaves {i : Interlude} (hc : config.capacity ≤ Msr.maxPlaces)
    (h : i.Footprint id config.capacity s s') : s.machine.Leaves Msr.debugctl s'.machine := by
  have hservice : ∀ {service : Tracer.Service} {t t' : Tracing},
      service.Footprint config.capacity t t' → t.machine.Leaves Msr.debugctl t'.machine :=
    fun h => h.leaves hc
  cases i with
  | serve service => exact hservice h
  | request caller number block param =>
    rw [Footprint] at h
    cases hr : Tracer.requested caller number block param with
    | none => exact (hr ▸ h : Tracer.AnswerFootprint _ _ _ none).1.leaves not_false
    | some service => exact hservice (hr ▸ h : Tracer.AnswerFootprint _ _ _ (some service))
  | read caller length =>
    have h' : (Tracer.Service.dump none).Footprint config.capacity (s.tracing id)
      (s'.tracing id) := h
    exact hservice h'
  | fork parent child =>
    have h' : (Tracer.Service.fork parent child).Footprint config.capacity (s.tracing id)
      (s'.tracing id) := h
    exact hservice h'
  | switch cpu next =>
    obtain ⟨hleave, harrive⟩ := h
    refine Machine.Leaves.trans ?_ (hservice harrive)
    cases hl : s.host.running.lookup cpu with
    | none =>
      rw [hl] at hleave
      rw [hleave]
      exact (Machine.Untouched.unwritten ⟨rfl, rfl⟩).leaves not_false
    | some prev =>
      rw [hl] at hleave
      exact hservice hleave
  | pin | release | bind | outside => exact h.1.unwritten.leaves not_false

/-- Tracing stays up through all interludes, and the switch of recording is left alone. -/
theorem Serving.run (h : Serving id config s) (hc : config.capacity ≤ Msr.maxPlaces)
    (interludes : List Interlude) :
    Serving id config (runInterludes id interludes s) ∧
      s.machine.Leaves Msr.debugctl (runInterludes id interludes s).machine := by
  induction interludes generalizing s with
  | nil => exact ⟨h, (Machine.Untouched.unwritten ⟨rfl, rfl⟩).leaves not_false⟩
  | cons i rest ih =>
    obtain ⟨hs, hfoot⟩ := h.interlude i
    obtain ⟨hrest, hleaves⟩ := ih hs
    exact ⟨hrest, (hfoot.leaves hc).trans hleaves⟩

/-- A load that succeeds brings tracing up, and switches recording on for the cpus of the thread. -/
theorem serving_load
    (hobservers : ∀ client ∈ s.host.notifiers, ∃ name status, client = .observer name status)
    (h : (load config s).1 = .ok id) :
    Serving id config (load config s).2 ∧
      ∃ visits, Pass (Lbr.switchWrites config.capacity .enable) s.machine visits
          (load config s).2.machine ∧ visits.cpus = s.machine.affinity ∧
        ∀ visit ∈ visits, visit.2 = .ok () := by
  have ho := load_outcome config s
  generalize load config s = loaded at h ho ⊢
  obtain ⟨r, t⟩ := loaded
  cases ho with
  | refused | undone => cases h
  | up he hp hcpus hok ht =>
    cases h
    obtain ⟨hhost, -⟩ := enlist_eq_none he
    have hstore : (t.tracing s.tracers.size).store = .empty := by
      rw [tracing, ht, begun, Array.getElem?_push_size]
      rfl
    refine ⟨⟨?_, ⟨s.host.notifiers, [], ?_, ?_⟩, ?_, ?_, hstore ▸ .empty config⟩, _, hp, hcpus, hok⟩
    · exact has_of_begun ht
    · rw [hhost]
      rfl
    · rwa [List.append_nil]
    · rw [hhost]
      exact (lookup_insertKey ..).trans (if_pos rfl)
    · rw [hhost]
      exact (lookup_insertKey ..).trans (if_pos rfl)

/-- From a load that succeeds on, through any interludes with any failures: the next one touches no
more than its footprint, and no switch of recording was written, so every cpu where the load
switched recording on has it on. -/
theorem footprint_of_interludes {start : Platform} {initial : SoftBank}
    (hc : config.capacity ≤ Msr.maxPlaces) (hbank : start.machine.bank = .soft initial)
    (hobservers : ∀ client ∈ start.host.notifiers, ∃ name status, client = .observer name status)
    (hload : (load config start).1 = .ok id) (interludes : List Interlude) (next : Interlude) :
    let loaded := (load config start).2
    let s := runInterludes id interludes loaded
    next.Footprint id config.capacity s (next.run id s) ∧
      (∃ tried, s.machine.accesses = tried ++ loaded.machine.accesses ∧
        ∀ access ∈ tried, access.write = true → access.msr ≠ Msr.debugctl) ∧
      ∃ before after, loaded.machine.bank = .soft before ∧ s.machine.bank = .soft after ∧
        (∀ cpu, after.read cpu Msr.debugctl = before.read cpu Msr.debugctl) ∧
        ∀ cpu ∈ start.machine.affinity, after.read cpu Msr.debugctl = Msr.recording := by
  intro loaded s
  obtain ⟨hserving, visits, hp, hcpus, hok⟩ := serving_load hobservers hload
  obtain ⟨hs, hleaves⟩ := hserving.run hc interludes
  obtain ⟨before, hbefore, -, hon, -⟩ := hp.registers hc hbank
  obtain ⟨after, hafter, -, hread⟩ := hleaves.bank before hbefore
  refine ⟨(hs.interlude next).2, hleaves.accesses, before, after, hbefore, hafter, hread, ?_⟩
  intro cpu hcpu
  rw [hread]
  exact (hon cpu cpu (Visits.mem_of_ok hok (hcpus ▸ hcpu)) rfl).1

/-- Two cpus, and an observer. -/
def observedStart : Platform where
  machine := { Machine.new 2 with bank := .soft (.new 2) }
  host := { notifiers := [.observer "watch" 0] }

/-- Process 7 comes onto cpu 0 and forks 8. It moves to the other cpu, where a register cannot be
written, and leaves it to its child when the thread cannot be pinned. -/
def faultyInterludes : List Interlude :=
  [ .serve (.enable 7 0), .switch 0 7, .serve (.fork 7 8), .bind [1],
    .outside
      { Machine.new 2 with
        cur := 1, faults := [{ call := .wrmsr, skip := 2 }, { call := .getcpu, skip := 1 }] },
    .switch 1 7, .switch 1 8 ]

theorem footprint_of_interludes_faulty :
    (load ⟨2, .userOnly⟩ observedStart).1 = .ok 0 ∧
      let loaded := (load ⟨2, .userOnly⟩ observedStart).2
      let s := runInterludes 0 faultyInterludes loaded
      Tracer.tracedPids (s.tracing 0).store = [7, 8] ∧ s.machine.faults = [] ∧
      (Interlude.request 9 0x40106c04 (Request.toBytes ⟨0, 8⟩) 5).Footprint 0 2 s
        ((Interlude.request 9 0x40106c04 (Request.toBytes ⟨0, 8⟩) 5).run 0 s) ∧
      ∃ before after, loaded.machine.bank = .soft before ∧ s.machine.bank = .soft after ∧
        (∀ cpu, after.read cpu Msr.debugctl = before.read cpu Msr.debugctl) ∧
        ∀ cpu ∈ [0, 1], after.read cpu Msr.debugctl = Msr.recording := by
  have hload : (load ⟨2, .userOnly⟩ observedStart).1 = .ok 0 := by decide +kernel
  obtain ⟨hfoot, -, h⟩ := footprint_of_interludes (by decide) rfl
    (fun client hc => ⟨_, _, List.mem_singleton.mp hc⟩) hload faultyInterludes
    (.request 9 0x40106c04 (Request.toBytes ⟨0, 8⟩) 5)
  exact ⟨hload, by decide +kernel, by decide +kernel, hfoot, h⟩

end Platform

end BranchTrace
