import BranchTrace.Cli.DumpMsr
import BranchTrace.Proofs.Machine.Discipline
import BranchTrace.Proofs.Tracer.Outcomes

/-!
# Pinned accesses

Every way to the branch registers goes through a pin: loading and unloading, all operations of a
tracer, whether they are asked for or reached through the host, and the reader of live registers
(`Procedure`). One lemma for each says that it is `Disciplined` given nothing.

Main statement: `accesses_pinned`, for any procedures in any order on any platform, where the
machine may become any other one in between.
-/

namespace BranchTrace

open MachineState

namespace Tracing

variable {ε : Type} {cpu? : Option Nat}

theorem disciplined_contexts : Disciplined cpu? (contexts : Action Tracing ε Store) :=
  disciplined_of_idle fun s => s.machine.idle_refl

theorem disciplined_insert (context : Context) : Disciplined cpu? (insert context) := by
  refine disciplined_of_idle fun s => ?_
  rw [insert]
  cases s.store.insert context <;> exact ⟨rfl, rfl, rfl, rfl⟩

theorem disciplined_remove (handle : Handle) : Disciplined cpu? (remove handle) := by
  refine disciplined_of_idle fun s => ?_
  rw [remove]
  cases s.store.remove? handle <;> exact ⟨rfl, rfl, rfl, rfl⟩

theorem disciplined_save (cpu : Nat) (handle : Handle) (context : Context) :
    Disciplined (some cpu) (save cpu handle context) :=
  fun s hb => Lbr.disciplined_save cpu context s.machine hb

theorem disciplined_restore (cpu : Nat) (context : Context) :
    Disciplined (some cpu) (restore cpu context) :=
  (Lbr.disciplined_restore cpu context).tryMachine

theorem disciplined_io {α : Type} {step : Action Tracing SystemError α}
    (h : Disciplined cpu? step) : Disciplined cpu? (io step) :=
  h

theorem disciplined_pinnedHere {α : Type} {step : Nat → Action Tracing TraceError α}
    (hs : ∀ cpu, Disciplined (some cpu) (step cpu)) : Disciplined none (pinnedHere step) :=
  disciplined_pinned Pin.binds_current fun pin => hs pin.cpu

end Tracing

namespace Tracer

open Tracing

theorem disciplined_enable (config : Config) (pid : UInt32) (bits : UInt64) :
    Disciplined none (enable config pid bits) := by
  refine (disciplined_liftM _).bindE fun context => disciplined_pinnedHere fun cpu => ?_
  refine disciplined_contexts.bindE fun store => ?_
  split
  · exact disciplined_throw _
  · refine (disciplined_insert context).bindE fun handle => ?_
    refine Disciplined.bindE (.tryCatch (disciplined_io (disciplined_restore cpu context)) ?_) ?_
    · exact fun e => (disciplined_remove handle).bindE fun _ => disciplined_throw e
    · exact fun _ => disciplined_pureE _

theorem disciplined_disable (pid : UInt32) : Disciplined none (disable pid) := by
  refine disciplined_contexts.bindE fun store => ?_
  split
  · exact disciplined_throw _
  · exact disciplined_remove _

theorem disciplined_dump (pid? : Option UInt32) : Disciplined none (dump pid?) := by
  rw [dump_eq]
  refine disciplined_pinnedHere fun cpu => disciplined_contexts.bindE fun store => ?_
  split
  · exact disciplined_throw _
  split
  · exact disciplined_throw _
  · refine (disciplined_io (disciplined_save cpu _ _)).bindE fun context => ?_
    exact (disciplined_tell _).bindE fun _ => disciplined_pureE _

theorem disciplined_select (pid : UInt32) (bits : UInt64) : Disciplined none (select pid bits) := by
  refine disciplined_pinnedHere fun cpu => disciplined_contexts.bindE fun store => ?_
  split
  · exact disciplined_throw _
  split
  · exact disciplined_throw _
  · refine Disciplined.bindE (disciplined_of_idle fun s => s.machine.idle_refl) fun _ => ?_
    exact disciplined_io (disciplined_restore cpu _)

theorem disciplined_dispatch (config : Config) (caller number : UInt32) (block : List UInt8)
    (param : UInt64) : Disciplined none (dispatch config caller number block param) := by
  refine (disciplined_liftM _).bindE fun request => (disciplined_tell _).bindE fun _ =>
    (disciplined_liftM _).bindE fun command => ?_
  cases command with
  | enable => exact (disciplined_enable config _ _).bindE fun _ => disciplined_pureE _
  | disable => exact (disciplined_disable _).bindE fun _ => disciplined_pureE _
  | dump => exact (disciplined_dump _).bindE fun _ => disciplined_pureE _
  | select => exact (disciplined_select _ param).bindE fun _ => disciplined_pureE _

theorem disciplined_ioctl (config : Config) (caller number : UInt32) (block : List UInt8)
    (param : UInt64) : Disciplined none (ioctl config caller number block param) := by
  refine Disciplined.bind (disciplined_dispatch config caller number block param) fun r => ?_
  cases r with
  | ok _ => exact disciplined_pure _
  | error e => exact (disciplined_report _).bind fun _ => disciplined_pure _

theorem disciplined_deviceRead : Disciplined none deviceRead := by
  refine (disciplined_report _).bind fun _ => Disciplined.bind (disciplined_dump none) fun r => ?_
  cases r with
  | ok _ => exact disciplined_pure _
  | error e => exact (disciplined_report _).bind fun _ => disciplined_pure _

theorem disciplined_drain : Disciplined none drain := by
  refine Disciplined.bind (disciplined_of_idle fun s => s.machine.idle_refl) fun _ => ?_
  exact (disciplined_report _).bind fun _ => disciplined_pure _

theorem disciplined_fork (config : Config) (parent child : UInt32) :
    Disciplined none (fork config parent child) := by
  refine disciplined_contexts.bindE fun store => ?_
  split
  · exact disciplined_pureE _
  refine (disciplined_liftM _).bindE fun context => disciplined_contexts.bindE fun store => ?_
  split
  · exact (disciplined_tell _).bindE fun _ => disciplined_pureE _
  · refine (disciplined_insert _).bindE fun handle => ?_
    exact (disciplined_tell _).bindE fun _ => disciplined_pureE _

theorem disciplined_forkEnds (config : Config) (pid : UInt32) (child : Option UInt32) :
    Disciplined none (forkEnds config pid child) := by
  cases child with
  | none => exact disciplined_pure _
  | some child =>
    refine Disciplined.bind (disciplined_fork config pid child) fun r => ?_
    cases r with
    | ok _ => exact disciplined_pure _
    | error e => exact disciplined_report _

/-- A move under a pin, where what fails is reported before the pin is given back. -/
theorem disciplined_transfer (direction : Transfer) (pid : UInt32)
    {move : Nat → Handle → Context → Action Tracing SystemError Unit}
    (hm : ∀ cpu handle context, Disciplined (some cpu) (move cpu handle context)) :
    Disciplined none (transfer direction pid move) := by
  refine fun s _ => ⟨?_, nofun⟩
  obtain ⟨ha, hb⟩ := Pin.binds_current (report (.switching direction pid) s.machine).2
  refine transfer_cases (P := fun t => s.machine.Orderly t.machine) direction pid move
    (fun _ => Machine.orderly_of_accesses_eq rfl) ?_ ?_
  · intro handle e m _ h
    rw [h] at ha
    exact Machine.orderly_of_accesses_eq ha
  · intro handle context pin m _ _ h moved
    rw [h] at ha hb
    have hstart : s.machine.Orderly m := Machine.orderly_of_accesses_eq ha
    obtain ⟨ho, -⟩ := hm pin.cpu handle context { s with machine := m } (hb pin rfl)
    have hreported :
        moved.2.machine.Orderly (movedMachine direction pid moved.1 moved.2.machine) := by
      cases moved.1 <;> exact Machine.orderly_of_accesses_eq rfl
    exact hstart.trans (ho.trans (hreported.trans
      (Machine.orderly_of_accesses_eq (Pin.accesses_release pin _))))

theorem disciplined_schedOut (pid : UInt32) : Disciplined none (schedOut pid) :=
  disciplined_transfer _ pid fun cpu handle context =>
    (disciplined_save cpu handle context).bindE fun _ => disciplined_pureE ()

theorem disciplined_schedIn (pid : UInt32) : Disciplined none (schedIn pid) :=
  disciplined_transfer _ pid fun cpu _ context => disciplined_restore cpu context

end Tracer

/-! ## Hosts -/

theorem disciplined_broadcast {σ : Type} [MachineState σ] (switch : Switch)
    {step : Nat → Action Machine SystemError Unit}
    (hs : ∀ cpu, Disciplined (some cpu) (step cpu)) :
    Disciplined none (broadcast switch step : StateM σ _) := by
  refine Disciplined.bind (disciplined_onEachCpu fun pin => ?_) fun visited => ?_
  · refine Disciplined.bind (hs pin.cpu).tryMachine fun r => ?_
    cases r with
    | ok _ => exact disciplined_pure _
    | error e => exact (disciplined_report _).bind fun _ => disciplined_pure _
  · rcases visited with ⟨e | count, failures⟩
    · exact disciplined_pure _
    · dsimp only
      split <;> exact disciplined_pure _

theorem Signature.disciplined_identify {σ : Type} [MachineState σ] (detected? : Option Signature)
    (model? : Option UInt32) :
    Disciplined none (identify detected? model? : Action σ TraceError Nat) := by
  unfold identify
  cases detected? with
  | none => exact disciplined_throw _
  | some detected =>
    cases model? with
    | none =>
      dsimp only
      split
      · exact disciplined_throw _
      · exact (disciplined_tell _).bindE fun _ => disciplined_pureE _
    | some model =>
      refine (disciplined_tell _).bindE fun _ => ?_
      dsimp only
      split
      · exact disciplined_throw _
      · exact (disciplined_tell _).bindE fun _ => disciplined_pureE _

namespace Platform

theorem disciplined_onTracer {α : Type} (id : Nat) (absent : α)
    {step : Config → StateM Tracing α} (hs : ∀ config, Disciplined none (step config)) :
    Disciplined none (onTracer id absent step) := by
  intro s _
  refine ⟨?_, nofun⟩
  rw [onTracer]
  cases s.tracers[id]? with
  | none => exact Machine.orderly_of_accesses_eq rfl
  | some tracer => exact (hs tracer.config { store := tracer.store, machine := s.machine } nofun).1

/-- A step that may change everything but the machine. -/
theorem disciplined_modify {f : Platform → Platform} (hf : ∀ s, (f s).machine = s.machine) :
    Disciplined none (modify f : StateM Platform Unit) := by
  refine disciplined_of_idle fun s => ?_
  show s.machine.Idle (f s).machine
  rw [hf]
  exact s.machine.idle_refl

theorem disciplined_withdraw (step : Host → Host) : Disciplined none (withdraw step) :=
  disciplined_modify fun _ => rfl

theorem disciplined_register (what : Registration) (step : Host → Except SystemError Host) :
    Disciplined none (register what step) := by
  refine disciplined_of_idle fun s => ?_
  rw [register]
  cases step s.host <;> exact s.machine.idle_refl

theorem disciplined_undoing {step : Action Platform TraceError Unit}
    {undo : StateM Platform Unit} (hs : Disciplined none step) (hu : Disciplined none undo) :
    Disciplined none (undoing step undo) := by
  intro s hb
  have h := hs s hb
  rw [undoing]
  rcases ht : step s with ⟨e | _, t⟩
  · rw [ht] at h
    exact ⟨h.1.trans (hu t h.2).1, nofun⟩
  · rwa [ht] at h

theorem disciplined_unload (id : Nat) : Disciplined none (unload id) := by
  refine disciplined_get.bind fun s => ?_
  refine (disciplined_onTracer id 0 fun _ => Tracer.disciplined_drain).bind fun freed => ?_
  refine (disciplined_broadcast _ fun cpu => Lbr.disciplined_disable cpu _).bind fun r => ?_
  have hrest : Disciplined none do
      withdraw (·.unregisterNotifier (.tracer id))
      withdraw (·.unregisterHook forkSymbol)
      withdraw (·.removeDevice deviceName)
      report (.exited freed)
      return freed :=
    (disciplined_withdraw _).bind fun _ => (disciplined_withdraw _).bind fun _ =>
      (disciplined_withdraw _).bind fun _ => (disciplined_report _).bind fun _ =>
        disciplined_pure freed
  cases r with
  | ok _ => exact hrest
  | error e => exact (disciplined_report _).bind fun _ => hrest

theorem disciplined_load (config : Config) : Disciplined none (load config) := by
  have hadd : Disciplined none (addTracer config) :=
    disciplined_of_idle fun s => s.machine.idle_refl
  refine (disciplined_tell _).bindE fun _ => hadd.lift.bindE fun id => ?_
  refine (disciplined_register _ _).bindE fun _ => ?_
  refine (disciplined_undoing (disciplined_register _ _) (disciplined_withdraw _)).bindE fun _ => ?_
  refine (disciplined_undoing (disciplined_register _ _)
    ((disciplined_withdraw _).bind fun _ => disciplined_withdraw _)).bindE fun _ => ?_
  refine (disciplined_broadcast .enable
    fun cpu => Lbr.disciplined_enable cpu config.capacity).lift.bindE fun r => ?_
  cases r with
  | ok count => exact (disciplined_tell _).bindE fun _ => disciplined_pureE id
  | error e => exact (disciplined_unload id).lift.bindE fun _ => disciplined_throw _

theorem disciplined_loadIdentified (detected? : Option Signature) (model? : Option UInt32)
    (select? : Option UInt64) : Disciplined none (loadIdentified detected? model? select?) :=
  (Signature.disciplined_identify detected? model?).bindE fun _ => disciplined_load _

/-! ## Reaching tracers through the host -/

theorem disciplined_observe (name : String) (call : HostCall) :
    Disciplined none (observe name call) :=
  disciplined_modify fun _ => rfl

theorem disciplined_tellAll {step : Client → StateM Platform Unit}
    (hs : ∀ client, Disciplined none (step client)) (clients : List Client) :
    Disciplined none (tellAll step clients) := by
  induction clients with
  | nil => exact disciplined_pure ()
  | cons client rest ih => exact (hs client).bind fun _ => ih

theorem disciplined_contextSwitch (cpu : Nat) (next : UInt32) :
    Disciplined none (contextSwitch cpu next) := by
  have hin : ∀ client, Disciplined none (notifyIn next cpu client) := fun
    | .tracer id => disciplined_onTracer id () fun _ => Tracer.disciplined_schedIn next
    | .observer _ _ => disciplined_observe _ _
  have hout : ∀ prev client, Disciplined none (notifyOut prev next client) := fun
    | prev, .tracer id => disciplined_onTracer id () fun _ => Tracer.disciplined_schedOut prev
    | _, .observer _ _ => disciplined_observe _ _
  refine disciplined_get.bind fun s => ?_
  dsimp only
  refine Disciplined.bind (disciplined_modify fun _ => rfl) fun _ => ?_
  split
  · exact disciplined_tellAll hin _
  · exact (disciplined_tellAll (hout _) _).bind fun _ => disciplined_tellAll hin _

theorem disciplined_fork (symbol : String) (parent child : UInt32) :
    Disciplined none (fork symbol parent child) := by
  refine disciplined_get.bind fun s => ?_
  split
  · exact disciplined_report _
  · refine (disciplined_onTracer _ () fun _ => disciplined_report _).bind fun _ => ?_
    exact disciplined_onTracer _ () fun config => Tracer.disciplined_forkEnds config parent _
  · exact (disciplined_observe _ _).bind fun _ => disciplined_observe _ _

theorem disciplined_ioctl (name : String) (caller number : UInt32) (block : List UInt8)
    (param : UInt64) : Disciplined none (ioctl name caller number block param) := by
  refine disciplined_get.bind fun s => ?_
  split
  · exact disciplined_pure _
  · exact disciplined_onTracer _ _ fun config =>
      Tracer.disciplined_ioctl config caller number block param
  · exact (disciplined_observe _ _).bind fun _ => disciplined_pure _

theorem disciplined_read (name : String) (caller : UInt32) (length : Nat) :
    Disciplined none (read name caller length) := by
  refine disciplined_get.bind fun s => ?_
  split
  · exact disciplined_pure _
  · exact disciplined_onTracer _ _ fun _ => Tracer.disciplined_deviceRead
  · exact (disciplined_observe _ _).bind fun _ => disciplined_pure _

end Platform

/-! ## Live registers -/

namespace Cli

theorem disciplined_nodes (root : String) (cpus : List Nat) :
    Disciplined none (NodeBank.openNodes root cpus) := by
  induction cpus with
  | nil => exact disciplined_pure _
  | cons cpu rest ih =>
    refine disciplined_get.bind fun m => ?_
    dsimp only
    split
    · exact ih.bind fun _ => disciplined_pure _
    · exact (disciplined_report _).bind fun _ => ih.bind fun _ => disciplined_pure _

theorem disciplined_openAll (root : String) : Disciplined none (NodeBank.openAll root) := by
  have hnproc : Machine.Idles Machine.nproc := by
    refine Machine.idles_guarded (Machine.idles_get.bind fun m => ?_)
    dsimp only
    split
    · exact Machine.idles_throw _
    · exact fun m => m.idle_refl
  refine Disciplined.bindE (disciplined_of_idle hnproc) fun cpus => ?_
  refine (disciplined_nodes root (List.range cpus)).lift.bindE fun opened => ?_
  dsimp only
  split
  · exact disciplined_pureE _
  · exact disciplined_throw _

theorem disciplined_openNodes (root : String) : Disciplined none (openNodes root) := by
  intro m hb
  have h := disciplined_openAll root m hb
  rw [openNodes]
  rcases ho : NodeBank.openAll root m with ⟨e | bank, m'⟩
  · rw [ho] at h
    exact h
  · rwa [ho] at h

theorem disciplined_withBank {ε α : Type} (bank : Bank) {step : Action Machine ε α}
    (hs : Disciplined none step) : Disciplined none (withBank bank step) :=
  fun m _ => ⟨(hs { m with bank } nofun).1, nofun⟩

theorem disciplined_dumpMsr (detected? : Option Signature) (model? : Option UInt32)
    (root : String) (cpu? : Option Nat) :
    Disciplined none (dumpMsr detected? model? root cpu?) := by
  have hadapt : Disciplined none (ExceptT.adapt TraceError.toSystemError
    (Signature.identify detected? model?) : Action Machine SystemError Nat) :=
    fun m hb => Signature.disciplined_identify detected? model? m hb
  refine hadapt.bindE fun capacity => (disciplined_openNodes root).bindE fun bank => ?_
  refine disciplined_withBank _ (disciplined_pinned ?_ fun pin => ?_)
  · cases cpu? with
    | none => exact Pin.binds_current
    | some cpu => exact Pin.binds_on cpu
  split
  · exact disciplined_throw _
  · refine (Lbr.disciplined_save pin.cpu _).lift.bindE fun saved => ?_
    rcases saved with ⟨e | _, context⟩
    · exact disciplined_throw _
    · exact disciplined_pureE _

end Cli

/-! ## Procedures -/

namespace Platform

/-- What can reach the branch registers, and what can happen to the machine in between: anything. -/
inductive Procedure where
  | load (config : Config)
  | loadIdentified (detected? : Option Signature) (model? : Option UInt32) (select? : Option UInt64)
  | unload (id : Nat)
  | enable (id : Nat) (pid : UInt32) (bits : UInt64)
  | disable (id : Nat) (pid : UInt32)
  | dump (id : Nat) (pid? : Option UInt32)
  | select (id : Nat) (pid : UInt32) (bits : UInt64)
  | dispatch (id : Nat) (caller number : UInt32) (block : List UInt8) (param : UInt64)
  | deviceRead (id : Nat)
  | fork (id : Nat) (parent child : UInt32)
  | schedOut (id : Nat) (pid : UInt32)
  | schedIn (id : Nat) (pid : UInt32)
  | drain (id : Nat)
  | contextSwitch (cpu : Nat) (next : UInt32)
  | hostFork (symbol : String) (parent child : UInt32)
  | hostIoctl (name : String) (caller number : UInt32) (block : List UInt8) (param : UInt64)
  | hostRead (name : String) (caller : UInt32) (length : Nat)
  | dumpMsr (detected? : Option Signature) (model? : Option UInt32) (root : String)
      (cpu? : Option Nat)
  /-- The machine becomes another one; its journal goes on. -/
  | outside (machine : Machine)

/-- Asks a tracer of a platform for something. -/
def ask {α : Type} (id : Nat) (step : Config → StateM Tracing α) : StateM Platform (Option α) :=
  onTracer id none fun config => some <$> step config

/-- The platform after a procedure. -/
def Procedure.run : Procedure → Platform → Platform
  | .load config, s => (Platform.load config s).2
  | .loadIdentified detected? model? select?, s =>
    (Platform.loadIdentified detected? model? select? s).2
  | .unload id, s => (Platform.unload id s).2
  | .enable id pid bits, s => (ask id (fun config => Tracer.enable config pid bits) s).2
  | .disable id pid, s => (ask id (fun _ => Tracer.disable pid) s).2
  | .dump id pid?, s => (ask id (fun _ => Tracer.dump pid?) s).2
  | .select id pid bits, s => (ask id (fun _ => Tracer.select pid bits) s).2
  | .dispatch id caller number block param, s =>
    (ask id (fun config => Tracer.dispatch config caller number block param) s).2
  | .deviceRead id, s => (ask id (fun _ => Tracer.deviceRead) s).2
  | .fork id parent child, s => (ask id (fun config => Tracer.fork config parent child) s).2
  | .schedOut id pid, s => (ask id (fun _ => Tracer.schedOut pid) s).2
  | .schedIn id pid, s => (ask id (fun _ => Tracer.schedIn pid) s).2
  | .drain id, s => (ask id (fun _ => Tracer.drain) s).2
  | .contextSwitch cpu next, s => (Platform.contextSwitch cpu next s).2
  | .hostFork symbol parent child, s => (Platform.fork symbol parent child s).2
  | .hostIoctl name caller number block param, s =>
    (Platform.ioctl name caller number block param s).2
  | .hostRead name caller length, s => (Platform.read name caller length s).2
  | .dumpMsr detected? model? root cpu?, s =>
    (tryMachine id (Cli.dumpMsr detected? model? root cpu?) s).2
  | .outside machine, s => { s with machine := { machine with accesses := s.machine.accesses } }

theorem disciplined_ask {α : Type} (id : Nat) {step : Config → StateM Tracing α}
    (hs : ∀ config, Disciplined none (step config)) : Disciplined none (ask id step) :=
  disciplined_onTracer id none fun config => (hs config).map some

/-- What one procedure keeps. -/
theorem Procedure.orderly (procedure : Procedure) (s : Platform) :
    s.machine.Orderly (procedure.run s).machine := by
  have asked {α : Type} (id : Nat) {step : Config → StateM Tracing α}
      (hs : ∀ config, Disciplined none (step config)) :
      s.machine.Orderly (ask id step s).2.machine := (disciplined_ask id hs s nofun).1
  cases procedure with
  | load config => exact (disciplined_load config s nofun).1
  | loadIdentified detected? model? select? =>
    exact (disciplined_loadIdentified detected? model? select? s nofun).1
  | unload id => exact (disciplined_unload id s nofun).1
  | enable id pid bits => exact asked id fun config => Tracer.disciplined_enable config pid bits
  | disable id pid => exact asked id fun _ => Tracer.disciplined_disable pid
  | dump id pid? => exact asked id fun _ => Tracer.disciplined_dump pid?
  | select id pid bits => exact asked id fun _ => Tracer.disciplined_select pid bits
  | dispatch id caller number block param =>
    exact asked id fun config => Tracer.disciplined_dispatch config caller number block param
  | deviceRead id => exact asked id fun _ => Tracer.disciplined_deviceRead
  | fork id parent child =>
    exact asked id fun config => Tracer.disciplined_fork config parent child
  | schedOut id pid => exact asked id fun _ => Tracer.disciplined_schedOut pid
  | schedIn id pid => exact asked id fun _ => Tracer.disciplined_schedIn pid
  | drain id => exact asked id fun _ => Tracer.disciplined_drain
  | contextSwitch cpu next => exact (disciplined_contextSwitch cpu next s nofun).1
  | hostFork symbol parent child => exact (disciplined_fork symbol parent child s nofun).1
  | hostIoctl name caller number block param =>
    exact (disciplined_ioctl name caller number block param s nofun).1
  | hostRead name caller length => exact (disciplined_read name caller length s nofun).1
  | dumpMsr detected? model? root cpu? =>
    exact ((Cli.disciplined_dumpMsr detected? model? root cpu?).tryMachine s nofun).1
  | outside machine => exact Machine.orderly_of_accesses_eq rfl

/-- The platform after some procedures. -/
def runProcedures (start : Platform) (procedures : List Procedure) : Platform :=
  procedures.foldl (fun s procedure => procedure.run s) start

theorem orderly_runProcedures (start : Platform) (procedures : List Procedure) :
    start.machine.Orderly (runProcedures start procedures).machine := by
  induction procedures generalizing start with
  | nil => exact Machine.orderly_of_accesses_eq rfl
  | cons procedure rest ih => exact (procedure.orderly start).trans (ih (procedure.run start))

/-- Whenever a register of a cpu is read or written, the thread is bound to that cpu alone and on
it, from any platform on and through any procedures. -/
theorem accesses_pinned (start : Platform) (procedures : List Procedure) :
    ∃ tried, (runProcedures start procedures).machine.accesses =
        tried ++ start.machine.accesses ∧
      ∀ access ∈ tried, access.allowed = [access.cpu] ∧ access.cur = access.cpu :=
  orderly_runProcedures start procedures

end Platform

end BranchTrace
