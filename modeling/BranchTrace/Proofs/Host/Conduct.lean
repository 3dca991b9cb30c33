import BranchTrace.Cli.DumpMsr
import BranchTrace.Cli.Simulate
import BranchTrace.Proofs.Machine.Conduct
import BranchTrace.Proofs.Tracer.Outcomes

/-!
# The conduct of the library

What every move on a machine respects (`Machine.Conduct`), the operations of a tracer respect, and
so do the host that calls them, loading and unloading, the reader of live registers and the
simulation of a family. There is one lemma for each, by the moves it is made of.

Main statements: `Platform.respects_load` and `Platform.respects_unload`,
`Cli.respects_dumpMsr`, `Cli.Simulation.respects_run`.
-/

namespace BranchTrace

open MachineState

variable {R : Machine → Machine → Prop} (hR : Machine.Conduct R)
include hR

namespace Tracing

theorem respects_contexts {ε : Type} : Respects R (contexts : Action Tracing ε Store) :=
  hR.still fun _ => rfl

theorem respects_insert (context : Context) : Respects R (insert context) := by
  intro s
  rw [insert]
  cases s.store.insert context with
  | error e => exact hR.refl _
  | ok r => exact hR.event _ _

theorem respects_remove (handle : Handle) : Respects R (remove handle) := by
  intro s
  rw [remove]
  cases s.store.remove? handle with
  | none => exact hR.event _ _
  | some r => exact hR.events _ _

theorem respects_save (cpu : Nat) (handle : Handle) (context : Context) :
    Respects R (save cpu handle context) :=
  fun s => hR.save cpu context s.machine

theorem respects_restore (cpu : Nat) (context : Context) : Respects R (restore cpu context) :=
  Respects.tryMachine (hR.restore cpu context)

omit hR in
theorem respects_io {α : Type} {step : Action Tracing SystemError α} (h : Respects R step) :
    Respects R (io step) :=
  h

theorem respects_pinnedHere {α : Type} {step : Nat → Action Tracing TraceError α}
    (hs : ∀ cpu, Respects R (step cpu)) : Respects R (pinnedHere step) :=
  hR.pinned Pin.taking_current fun pin => hs pin.cpu

end Tracing

namespace Tracer

open Tracing

theorem respects_enable (config : Config) (pid : UInt32) (bits : UInt64) :
    Respects R (enable config pid bits) := by
  apply hR.bindE (hR.liftM _)
  intro context
  apply respects_pinnedHere hR
  intro cpu
  apply hR.bindE (respects_contexts hR)
  intro store
  split
  · exact hR.throw _
  apply hR.bindE (respects_insert hR context)
  intro handle
  have hrestore : Respects R (io (restore cpu context)) := respects_restore hR cpu context
  apply hR.bindE (hR.tryCatch hrestore ?_) fun _ => hR.pureE _
  exact fun e => hR.bindE (respects_remove hR handle) fun _ => hR.throw e

theorem respects_disable (pid : UInt32) : Respects R (disable pid) := by
  apply hR.bindE (respects_contexts hR)
  intro store
  split
  · exact hR.throw _
  · exact respects_remove hR _

theorem respects_dump (pid? : Option UInt32) : Respects R (dump pid?) := by
  rw [dump_eq]
  apply respects_pinnedHere hR
  intro cpu
  apply hR.bindE (respects_contexts hR)
  intro store
  split
  · exact hR.throw _
  split
  · exact hR.throw _
  · exact hR.bindE (respects_io (respects_save hR cpu _ _)) fun _ =>
      hR.bindE (hR.tell _) fun _ => hR.pureE _

theorem respects_select (pid : UInt32) (bits : UInt64) : Respects R (select pid bits) := by
  apply respects_pinnedHere hR
  intro cpu
  apply hR.bindE (respects_contexts hR)
  intro store
  split
  · exact hR.throw _
  split
  · exact hR.throw _
  · exact hR.bindE (hR.still fun _ => rfl) fun _ => respects_io (respects_restore hR cpu _)

theorem respects_dispatch (config : Config) (caller number : UInt32) (block : List UInt8)
    (param : UInt64) : Respects R (dispatch config caller number block param) := by
  apply hR.bindE (hR.liftM _)
  intro request
  apply hR.bindE (hR.tell _)
  intro _
  apply hR.bindE (hR.liftM _)
  rintro (_ | _ | _ | _)
  · exact hR.bindE (respects_enable hR config _ _) fun _ => hR.pureE _
  · exact hR.bindE (respects_disable hR _) fun _ => hR.pureE _
  · exact hR.bindE (respects_dump hR _) fun _ => hR.pureE _
  · exact hR.bindE (respects_select hR _ param) fun _ => hR.pureE _

theorem respects_ioctl (config : Config) (caller number : UInt32) (block : List UInt8)
    (param : UInt64) : Respects R (ioctl config caller number block param) := by
  apply hR.bind (respects_dispatch hR config caller number block param)
  rintro (e | _)
  · exact hR.bind (hR.report _) fun _ => hR.pure _
  · exact hR.pure _

theorem respects_deviceRead : Respects R deviceRead := by
  apply hR.bind (hR.report _)
  intro _
  apply hR.bind (respects_dump hR none)
  rintro (e | _)
  · exact hR.bind (hR.report _) fun _ => hR.pure _
  · exact hR.pure _

theorem respects_drain : Respects R drain :=
  hR.bind (hR.still fun _ => rfl) fun _ => hR.bind (hR.report _) fun _ => hR.pure _

theorem respects_fork (config : Config) (parent child : UInt32) :
    Respects R (fork config parent child) := by
  apply hR.bindE (respects_contexts hR)
  intro store
  split
  · exact hR.pureE _
  apply hR.bindE (hR.liftM _)
  intro context
  apply hR.bindE (respects_contexts hR)
  intro store
  split
  · exact hR.bindE (hR.tell _) fun _ => hR.pureE _
  · exact hR.bindE (respects_insert hR _) fun _ => hR.bindE (hR.tell _) fun _ => hR.pureE _

theorem respects_forkEnds (config : Config) (pid : UInt32) (child : Option UInt32) :
    Respects R (forkEnds config pid child) := by
  cases child with
  | none => exact hR.pure _
  | some child =>
    apply hR.bind (respects_fork hR config pid child)
    rintro (e | _)
    · exact hR.report _
    · exact hR.pure _

/-- A move under a pin, where what fails is reported before the pin is given back. -/
theorem respects_transfer (direction : Transfer) (pid : UInt32)
    {move : Nat → Handle → Context → Action Tracing SystemError Unit}
    (hm : ∀ cpu handle context, Respects R (move cpu handle context)) :
    Respects R (transfer direction pid move) := by
  intro s
  have htold : R s.machine (report (.switching direction pid) s.machine).2 := hR.event _ _
  apply transfer_cases (P := fun t => R s.machine t.machine) direction pid move
  · exact fun _ => hR.refl _
  · intro handle e m _ h
    rcases Pin.taking_current (report (.switching direction pid) s.machine).2 with
      ⟨e', faults, h'⟩ | ⟨pin, m', h', -⟩
    · cases h.symm.trans h'
      exact hR.trans htold (hR.trans (hR.faults faults _) (hR.event _ _))
    · cases h.symm.trans h'
  · intro handle context pin m _ _ h moved
    rcases Pin.taking_current (report (.switching direction pid) s.machine).2 with
      ⟨e', faults, h'⟩ | ⟨pin', m', h', htakes⟩
    · cases h.symm.trans h'
    cases h.symm.trans h'
    have hmoved : R m moved.2.machine := hm pin.cpu handle context { s with machine := m }
    have hreported : R moved.2.machine (movedMachine direction pid moved.1 moved.2.machine) := by
      cases moved.1 with
      | ok _ => exact hR.refl _
      | error e => exact hR.event _ _
    exact hR.trans htold (hR.release htakes (hR.trans hmoved hreported))

theorem respects_schedOut (pid : UInt32) : Respects R (schedOut pid) :=
  respects_transfer hR _ pid fun cpu handle context =>
    hR.bindE (respects_save hR cpu handle context) fun _ => hR.pureE ()

theorem respects_schedIn (pid : UInt32) : Respects R (schedIn pid) :=
  respects_transfer hR _ pid fun cpu _ context => respects_restore hR cpu context

end Tracer

/-! ## Hosts -/

theorem respects_broadcast {σ : Type} [MachineState σ] (switch : Switch)
    {step : Nat → Action Machine SystemError Unit} (hs : ∀ cpu, Respects R (step cpu)) :
    Respects R (broadcast switch step : StateM σ _) := by
  apply hR.bind (hR.onEachCpu fun pin => ?_)
  · rintro ⟨e | count, failures⟩
    · exact hR.pure _
    · dsimp only
      split <;> exact hR.pure _
  · apply hR.bind (hs pin.cpu).tryMachine
    rintro (e | _)
    · exact hR.bind (hR.report _) fun _ => hR.pure _
    · exact hR.pure _

theorem Signature.respects_identify {σ : Type} [MachineState σ] (detected? : Option Signature)
    (model? : Option UInt32) :
    Respects R (identify detected? model? : Action σ TraceError Nat) := by
  unfold identify
  cases detected? with
  | none => exact hR.throw _
  | some detected =>
    dsimp only
    cases (detected.forced model?).capacity with
    | error e =>
      cases model? with
      | none => exact hR.throw _
      | some model => exact hR.bindE (hR.tell _) fun _ => hR.throw _
    | ok size =>
      have hfound : ∀ event, Respects R (do tell event; return size : Action σ TraceError Nat) :=
        fun event => hR.bindE (hR.tell event) fun _ => hR.pureE size
      cases model? with
      | none => exact hfound _
      | some model => exact hR.bindE (hR.tell _) fun _ => hfound _

namespace Platform

theorem respects_onTracer {α : Type} (id : Nat) (absent : α)
    {step : Config → StateM Tracing α} (hs : ∀ config, Respects R (step config)) :
    Respects R (onTracer id absent step) := by
  intro s
  rw [onTracer]
  cases s.tracers[id]? with
  | none => exact hR.refl _
  | some tracer => exact hs tracer.config { store := tracer.store, machine := s.machine }

theorem respects_withdraw (step : Host → Host) : Respects R (withdraw step) :=
  hR.still fun _ => rfl

theorem respects_register (what : Registration) (step : Host → Except SystemError Host) :
    Respects R (register what step) := by
  intro s
  rw [register]
  cases step s.host <;> exact hR.refl _

theorem respects_undoing {step : Action Platform TraceError Unit} {undo : StateM Platform Unit}
    (hs : Respects R step) (hu : Respects R undo) : Respects R (undoing step undo) := by
  intro s
  have h := hs s
  rw [undoing]
  rcases ht : step s with ⟨e | _, t⟩
  · rw [ht] at h
    exact hR.trans h (hu t)
  · rwa [ht] at h

theorem respects_unload (id : Nat) : Respects R (unload id) := by
  apply hR.bind hR.get
  intro s
  apply hR.bind (respects_onTracer hR id 0 fun _ => Tracer.respects_drain hR)
  intro freed
  apply hR.bind (respects_broadcast hR _ fun cpu => hR.disable _ cpu)
  have hrest : Respects R do
      withdraw (·.unregisterNotifier (.tracer id))
      withdraw (·.unregisterHook forkSymbol)
      withdraw (·.removeDevice deviceName)
      report (.exited freed)
      return freed :=
    hR.bind (respects_withdraw hR _) fun _ => hR.bind (respects_withdraw hR _) fun _ =>
      hR.bind (respects_withdraw hR _) fun _ => hR.bind (hR.report _) fun _ => hR.pure freed
  rintro (e | _)
  · exact hR.bind (hR.report _) fun _ => hrest
  · exact hrest

theorem respects_load (config : Config) : Respects R (load config) := by
  apply hR.bindE (hR.tell _)
  intro _
  have hadd : Respects R (addTracer config) := hR.still fun _ => rfl
  apply hR.bindE hadd.lift
  intro id
  apply hR.bindE (respects_register hR _ _)
  intro _
  apply hR.bindE (respects_undoing hR (respects_register hR _ _) (respects_withdraw hR _))
  intro _
  apply hR.bindE (respects_undoing hR (respects_register hR _ _)
    (hR.bind (respects_withdraw hR _) fun _ => respects_withdraw hR _))
  intro _
  apply hR.bindE (respects_broadcast hR .enable fun cpu => hR.enable config.capacity cpu).lift
  rintro (e | count)
  · exact hR.bindE (respects_unload hR id).lift fun _ => hR.throw _
  · exact hR.bindE (hR.tell _) fun _ => hR.pureE id

theorem respects_loadIdentified (detected? : Option Signature) (model? : Option UInt32)
    (select? : Option UInt64) : Respects R (loadIdentified detected? model? select?) :=
  hR.bindE (Signature.respects_identify hR detected? model?) fun _ => respects_load hR _

theorem respects_observe (name : String) (call : HostCall) : Respects R (observe name call) :=
  hR.still fun _ => rfl

theorem respects_tellAll {step : Client → StateM Platform Unit}
    (hs : ∀ client, Respects R (step client)) (clients : List Client) :
    Respects R (tellAll step clients) := by
  induction clients with
  | nil => exact hR.pure ()
  | cons client rest ih => exact hR.bind (hs client) fun _ => ih

theorem respects_contextSwitch (cpu : Nat) (next : UInt32) :
    Respects R (contextSwitch cpu next) := by
  have hin : ∀ client, Respects R (notifyIn next cpu client) := fun
    | .tracer id => respects_onTracer hR id () fun _ => Tracer.respects_schedIn hR next
    | .observer _ _ => respects_observe hR _ _
  have hout : ∀ prev client, Respects R (notifyOut prev next client) := fun
    | prev, .tracer id => respects_onTracer hR id () fun _ => Tracer.respects_schedOut hR prev
    | _, .observer _ _ => respects_observe hR _ _
  apply hR.bind hR.get
  intro s
  dsimp only
  apply hR.bind (hR.still fun _ => rfl)
  intro _
  split
  · exact respects_tellAll hR hin _
  · exact hR.bind (respects_tellAll hR (hout _) _) fun _ => respects_tellAll hR hin _

theorem respects_fork (symbol : String) (parent child : UInt32) :
    Respects R (fork symbol parent child) := by
  apply hR.bind hR.get
  intro s
  split
  · exact hR.report _
  · exact hR.bind (respects_onTracer hR _ () fun _ => hR.report _) fun _ =>
      respects_onTracer hR _ () fun config => Tracer.respects_forkEnds hR config parent _
  · exact hR.bind (respects_observe hR _ _) fun _ => respects_observe hR _ _

theorem respects_ioctl (name : String) (caller number : UInt32) (block : List UInt8)
    (param : UInt64) : Respects R (ioctl name caller number block param) := by
  apply hR.bind hR.get
  intro s
  split
  · exact hR.pure _
  · exact respects_onTracer hR _ _ fun config =>
      Tracer.respects_ioctl hR config caller number block param
  · exact hR.bind (respects_observe hR _ _) fun _ => hR.pure _

theorem respects_read (name : String) (caller : UInt32) (length : Nat) :
    Respects R (read name caller length) := by
  apply hR.bind hR.get
  intro s
  split
  · exact hR.pure _
  · exact respects_onTracer hR _ _ fun _ => Tracer.respects_deviceRead hR
  · exact hR.bind (respects_observe hR _ _) fun _ => hR.pure _

end Platform

/-! ## Live registers -/

namespace Cli

theorem respects_nodes (root : String) (cpus : List Nat) :
    Respects R (NodeBank.openNodes root cpus) := by
  induction cpus with
  | nil => exact hR.pure _
  | cons cpu rest ih =>
    apply hR.bind hR.get
    intro m
    dsimp only
    split
    · exact hR.bind ih fun _ => hR.pure _
    · exact hR.bind (hR.report _) fun _ => hR.bind ih fun _ => hR.pure _

theorem respects_openAll (root : String) : Respects R (NodeBank.openAll root) := by
  have hnproc : Respects R Machine.nproc := by
    apply hR.guarded
    apply hR.bindE (hR.still fun _ => rfl)
    intro m
    dsimp only
    split
    · exact hR.throw _
    · exact hR.pureE _
  apply hR.bindE hnproc
  intro cpus
  apply hR.bindE (respects_nodes hR root (List.range cpus)).lift
  intro opened
  dsimp only
  split
  · exact hR.pureE _
  · exact hR.throw _

theorem respects_openNodes (root : String) : Respects R (openNodes root) := by
  intro m
  have h := respects_openAll hR root m
  rw [openNodes]
  rcases ho : NodeBank.openAll root m with ⟨e | bank, m'⟩
  · rw [ho] at h
    exact hR.trans h (hR.report _ _)
  · rwa [ho] at h

theorem respects_withBank {ε α : Type} (bank : Bank) {step : Action Machine ε α}
    (hs : Respects R step) : Respects R (withBank bank step) :=
  fun m => hR.trans (hR.bank bank m) (hR.trans (hs _) (hR.bank m.bank _))

theorem respects_dumpMsr (detected? : Option Signature) (model? : Option UInt32)
    (root : String) (cpu? : Option Nat) : Respects R (dumpMsr detected? model? root cpu?) := by
  have hidentify : Respects R (ExceptT.adapt TraceError.toSystemError
    (Signature.identify detected? model?) : Action Machine SystemError Nat) :=
    Signature.respects_identify hR detected? model?
  apply hR.bindE hidentify
  intro capacity
  apply hR.bindE (respects_openNodes hR root)
  intro bank
  apply respects_withBank hR
  apply hR.pinned
  · cases cpu? with
    | none => exact Pin.taking_current
    | some cpu => exact Pin.taking_on cpu
  intro pin
  split
  · exact hR.throw _
  apply hR.bindE (hR.save pin.cpu _).lift
  rintro ⟨e | _, context⟩
  · exact hR.throw _
  · exact hR.pureE _

/-! ## The simulation -/

theorem respects_orHalt {σ α : Type} [MachineState σ] (result : Except SystemError α) :
    Respects R (orHalt result : Action σ Halt α) := by
  cases result with
  | error e => exact hR.throw _
  | ok a => exact hR.pureE _

theorem respects_recordBranches (cpu capacity : Nat) (pid round : UInt32) :
    Respects R (recordBranches cpu capacity pid round) := by
  intro p
  rw [recordBranches]
  split
  · exact hR.refl _
  · cases p.machine.bank with
    | nodes bank => exact hR.refl _
    | soft bank => exact hR.bank _ _

namespace Simulation

theorem respects_capacity (simulation : Simulation) (options : Options)
    (detected? : Option Signature) : Respects R (simulation.capacity options detected?) := by
  intro m
  have h := Signature.respects_identify (σ := Machine) hR detected? options.model? m
  rw [capacity]
  cases simulation.capacity? with
  | some capacity => exact hR.refl _
  | none =>
    dsimp only
    rcases hi : Signature.identify detected? options.model? m with ⟨e | capacity, m'⟩
    · rw [hi] at h
      cases e with
      | unsupportedCpu family model =>
        dsimp only
        split
        · exact h
        · exact hR.trans h (hR.report _ _)
      | _ => exact h
    · rwa [hi] at h

theorem respects_request (what : String) (caller : UInt32) (command : Command) (target : UInt32)
    (param : UInt64) : Respects R (request what caller command target param) :=
  hR.bindE (Platform.respects_ioctl hR deviceName caller _ _ param).lift fun _ => hR.still fun _ => rfl

theorem respects_forkAll (pid : UInt32) (children : List UInt32) :
    Respects R (forkAll pid children) := by
  induction children with
  | nil => exact hR.pure ()
  | cons child rest ih => exact hR.bind (Platform.respects_fork hR _ pid child) fun _ => ih

theorem respects_runRounds (cpu capacity : Nat) (runnable : List UInt32) (rounds : List Nat) :
    Respects R (runRounds cpu capacity runnable rounds) := by
  induction rounds with
  | nil => exact hR.pureE ()
  | cons round rest ih =>
    apply hR.bindE (Platform.respects_contextSwitch hR cpu _).lift
    intro _
    exact hR.bindE (respects_recordBranches hR cpu capacity _ _) fun _ => ih

theorem respects_dumpAll (cpu id : Nat) (pids : List UInt32) :
    Respects R (dumpAll cpu id pids) := by
  induction pids with
  | nil => exact hR.pureE _
  | cons pid rest ih =>
    apply hR.bindE (Platform.respects_contextSwitch hR cpu pid).lift
    intro _
    have hdump : Respects R (dump id pid) :=
      Platform.respects_onTracer hR id _ fun _ => Tracer.respects_dump hR (some pid)
    apply hR.bindE hdump.lift
    intro dumped
    apply hR.bindE (respects_orHalt hR _)
    intro snapshot
    exact hR.bindE ih fun _ => hR.pureE _

theorem respects_session (simulation : Simulation) (family : List UInt32) (capacity id cpu : Nat) :
    Respects R (simulation.session family capacity id cpu) := by
  have htraced : Respects R (traced id) :=
    Platform.respects_onTracer hR id _ fun _ => hR.still fun _ => rfl
  have hcount : Respects R (countTraced id) :=
    Platform.respects_onTracer hR id _ fun _ => hR.still fun _ => rfl
  have hrequest : ∀ what command target param,
      Respects R (request what simulation.pid command target param) := fun _ _ _ _ =>
    respects_request hR _ _ _ _ _
  apply hR.bindE (hrequest _ _ _ _)
  intro _
  apply hR.bindE (respects_forkAll hR simulation.pid (family.drop 1)).lift
  intro _
  -- what comes after the mask was set, if one was given
  have hrest : ∀ u : PUnit, Respects R ((fun _ => do
      runRounds cpu capacity (family ++ [idlePid]) (List.range simulation.switches.toNat)
      let pids ← traced id
      let snapshots ← dumpAll cpu id pids
      Platform.contextSwitch cpu idlePid
      let before ← countTraced id
      request "DISABLE_TRACE" simulation.pid .disable 0 0
      let disabled := before - (← countTraced id)
      return { capacity, traced := pids, snapshots, disabled, history := [] } :
      PUnit → Action Platform Halt Report) u) := by
    intro _
    apply hR.bindE (respects_runRounds hR cpu capacity _ _)
    intro _
    apply hR.bindE htraced.lift
    intro pids
    apply hR.bindE (respects_dumpAll hR cpu id pids)
    intro snapshots
    apply hR.bindE (Platform.respects_contextSwitch hR cpu idlePid).lift
    intro _
    apply hR.bindE hcount.lift
    intro before
    apply hR.bindE (hrequest _ _ _ _)
    intro _
    exact hR.bindE hcount.lift fun _ => hR.pureE _
  split
  · exact hR.bindE (hrequest _ _ _ _) hrest
  · exact hrest ()

theorem respects_onHost (simulation : Simulation) (family : List UInt32) (config : Config) :
    Respects R (simulation.onHost family config) := by
  have hload : Respects R (ExceptT.adapt (fun e => Halt.failed e.toSystemError)
    (Platform.load config) : Action Platform Halt Nat) := Platform.respects_load hR config
  apply hR.bindE hload
  intro id
  apply hR.bindE (hR.pinned Pin.taking_current fun pin =>
    respects_session hR simulation family config.capacity id pin.cpu)
  intro report
  apply hR.bindE (Platform.respects_unload hR id).lift
  intro _
  apply hR.bindE (hR.still fun _ => rfl)
  intro s
  exact hR.bindE (hR.reportAll _).lift fun _ => hR.pureE _

theorem respects_run (simulation : Simulation) (options : Options)
    (detected? : Option Signature) : Respects R (simulation.run options detected?) := by
  have hcapacity : Respects R (ExceptT.adapt Halt.failed
    (simulation.capacity options detected?) : Action Machine Halt Nat) :=
    respects_capacity hR simulation options detected?
  have hallowed : Respects R (ExceptT.adapt Halt.failed allowedCpus :
    Action Machine Halt (List Nat)) := hR.guarded (hR.still fun _ => rfl)
  apply hR.bindE (respects_orHalt hR _)
  intro family
  apply hR.bindE hcapacity
  intro capacity
  apply hR.bindE hallowed
  intro cpus m
  apply hR.trans (hR.bank _ m)
  exact hR.trans (respects_onHost hR simulation family _ ({ machine := _ } : Platform))
    (hR.bank m.bank _)

end Simulation

end Cli

end BranchTrace
