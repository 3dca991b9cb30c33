import BranchTrace.Proofs.Cli.Session
import BranchTrace.Proofs.Host.Accesses
import BranchTrace.Proofs.Tracer.Statuses

/-!
# Steps that do not break off

While tracing is up, a step of a session keeps it up, tries only the registers of a stack, and gives
a result or fails (`Sound`), on any machine and whatever goes wrong. It never breaks off: the status
of a request always has an error number, since no answer is the least status. Only a stack without
places cannot be filled. And if the request that ends tracing goes through, fewer processes are
traced after it than before, so what is left when the counts are subtracted is how many were taken
out.

Main statements: `session_spec`, when a session breaks off; `sound_closing`, on the counts.
-/

namespace BranchTrace

/-- A step that did not break off: it gave a good result, or failed. -/
def Yields {α : Type} (good : α → Prop) : Except Halt α → Prop
  | .ok a => good a
  | .error (.failed _) => True
  | .error (.broken _) => False

namespace Platform

variable {α β : Type} {id : Nat} {config : Config} {s s' s'' : Platform}

/-- Tracing stays up, and registers of a stack alone were tried. -/
structure Upheld (id : Nat) (config : Config) (s s' : Platform) : Prop where
  serving : Serving id config s'
  tries : s.machine.Tries (Msr.OfStack config.capacity) s'.machine

theorem Upheld.trans (h : Upheld id config s s') (h' : Upheld id config s' s'') :
    Upheld id config s s'' :=
  ⟨h'.serving, (Machine.composes_tries _).trans h.tries h'.tries⟩

/-- Nothing that matters to the tracer has happened. -/
theorem Serving.upheld (h : Serving id config s) {m : Machine}
    (hm : m.accesses = s.machine.accesses) : Upheld id config s { s with machine := m } :=
  ⟨h.of_retains (retains_of_eq rfl rfl) h.registered, [], hm, nofun⟩

/-- A step that, from wherever tracing is up, upholds it and does not break off. -/
def Sound (id : Nat) (config : Config) (step : Action Platform Halt α) (good : α → Prop) : Prop :=
  ∀ s, Serving id config s → Upheld id config s (step s).2 ∧ Yields good (step s).1

theorem sound_pure {a : α} {good : α → Prop} (h : good a) : Sound id config (pure a) good :=
  fun _ hs => ⟨hs.upheld rfl, h⟩

theorem Sound.bind {x : Action Platform Halt α} {f : α → Action Platform Halt β} {fine : α → Prop}
    {good : β → Prop} (hx : Sound id config x fine)
    (hf : ∀ a, fine a → Sound id config (f a) good) : Sound id config (x >>= f) good := by
  intro s hs
  obtain ⟨hup, hy⟩ := hx s hs
  rw [Action.bind_apply]
  generalize x s = outcome at hup hy ⊢
  obtain ⟨(error | cause) | a, t⟩ := outcome
  · exact ⟨hup, trivial⟩
  · exact hy.elim
  · obtain ⟨hup', hy'⟩ := hf a hy t hup.serving
    exact ⟨hup.trans hup', hy'⟩

/-- A step that cannot fail only has to uphold tracing. -/
theorem sound_lift {step : StateM Platform α}
    (h : ∀ s, Serving id config s → Upheld id config s (step s).2) :
    Sound id config (ExceptT.lift step) fun _ => True :=
  fun s hs => ⟨h s hs, trivial⟩

theorem sound_orHalt (result : Except SystemError α) :
    Sound id config (Cli.orHalt result) fun _ => True := by
  cases result <;> exact fun _ hs => ⟨hs.upheld rfl, trivial⟩

/-! ## Steps of the host -/

theorem Serving.switch_upheld (hs : Serving id config s) (cpu : Nat) (next : UInt32) :
    Upheld id config s (contextSwitch cpu next s).2 :=
  ⟨(hs.switch cpu next).1, hs.related_switch (Machine.moves_tries _) cpu next⟩

theorem Serving.fork_upheld (hs : Serving id config s) (parent child : UInt32) :
    Upheld id config s (Platform.fork forkSymbol parent child s).2 :=
  ⟨(hs.fork parent child).1, hs.related_fork (Machine.moves_tries _) parent child⟩

theorem Serving.ioctl_upheld (hs : Serving id config s) (caller number : UInt32)
    (block : List UInt8) (param : UInt64) :
    Upheld id config s (Platform.ioctl deviceName caller number block param s).2 :=
  ⟨(hs.request caller number block param).1,
    hs.related_request (Machine.moves_tries _) caller number block param⟩

/-- A question to the tracer is answered, and changes nothing. -/
theorem Serving.ask (hs : Serving id config s) (absent : α) (answer : Tracing → α) :
    let asked := Platform.onTracer id absent (fun _ t => (answer t, t)) s
    asked.1 = answer (s.tracing id) ∧ asked.2.tracing id = s.tracing id ∧
      Upheld id config s asked.2 := by
  obtain ⟨hanswer, htracing, -⟩ := onTracer_spec hs.has absent fun _ t => (answer t, t)
  obtain ⟨-, hserving⟩ := hs.onTracer absent (fun _ t => (answer t, t)) hs.registered
  exact ⟨hanswer, htracing, hserving, (Machine.composes_tries _).untouched
    (hs.machine_onTracer absent (fun _ t => (answer t, t)) ▸ ⟨rfl, rfl⟩)⟩

end Platform

/-! ## Rosters -/

/-- Without a process that is on it, a roster is shorter. -/
theorem Roster.length_without_lt {roster : Roster} {pid : UInt32} (h : roster.has pid = true) :
    (roster.without pid).length < roster.length := by
  obtain ⟨tracee, hm, hp⟩ := List.any_eq_true.mp h
  refine List.length_filter_lt_length_iff_exists.mpr ⟨tracee, hm, ?_⟩
  simp only [decide_eq_true_eq, not_not, of_decide_eq_true hp]
  exact .refl

/-- A request to end tracing that is not rejected takes somebody out. -/
theorem Tracer.len_dispatch_disable {config : Config} {s : Tracing}
    (hr : Registered config s.store) {caller pid : UInt32} {request : Request}
    (htarget : target caller request = pid) (param : UInt64) :
    let outcome := dispatch config caller Command.disable.number request.toBytes param s
    outcome.1 = .error (.notFound pid) ∨
      ∃ reply, outcome.1 = .ok reply ∧ outcome.2.store.len < s.store.len := by
  intro outcome
  let asked := (report (.requested Command.disable.number request.select request.pid) s).2
  have hd : outcome = ((disable pid asked).1.map Reply.disabled, (disable pid asked).2) :=
    dispatch_disable_eq config htarget param s
  have houtcome := disable_outcome (s := asked) hr.wellFormed pid
  have hkept := hr.disable (s := asked) pid
  rw [hd]
  generalize disable pid asked = disabled at houtcome hkept ⊢
  obtain ⟨r, t⟩ := disabled
  dsimp only at houtcome hkept ⊢
  cases houtcome with
  | untraced => exact .inl rfl
  | removed hf hremoved =>
    have hhas : s.store.roster.has pid = true := by
      rw [hr.wellFormed.has_roster, isTraced]
      exact Option.isSome_iff_exists.mpr ⟨_, hf⟩
    refine .inr ⟨_, rfl, ?_⟩
    rw [← hr.wellFormed.length_roster, ← hkept.wellFormed.length_roster,
      hr.roster_remove hf hremoved]
    exact Roster.length_without_lt hhas

namespace Cli.Simulation

open Platform

variable {id : Nat} {config : Config} {s : Platform}

/-! ## Requests -/

/-- The status of every answer of a tracer has an error number, or is that of success. -/
theorem yields_checkStatus (what : String) (outcome : Except TraceError Reply) :
    Yields (fun _ => True) (checkStatus what (.ofInt (Tracer.code outcome))) := by
  cases outcome with
  | ok reply => exact trivial
  | error e =>
    rw [Tracer.code, TraceError.checkStatus_status]
    split <;> exact trivial

theorem sound_request (what : String) (caller : UInt32) (command : Command) (pid : UInt32)
    (param : UInt64) :
    Sound id config (request what caller command pid param) fun _ => True := by
  intro s hs
  refine ⟨hs.ioctl_upheld caller command.number _ param, ?_⟩
  rw [request_eq, hs.ioctl_eq]
  obtain ⟨hanswer, -⟩ := onTracer_spec hs.has noDevice fun config =>
    Tracer.ioctl config caller command.number (Request.toBytes { select := 0, pid }) param
  dsimp only
  rw [hanswer, (Tracer.ioctl_spec ..).1]
  exact yields_checkStatus what _

theorem sound_forkAll (pid : UInt32) (children : List UInt32) :
    Sound id config (ExceptT.lift (forkAll pid children)) fun _ => True := by
  refine sound_lift fun s hs => ?_
  induction children generalizing s with
  | nil => exact hs.upheld rfl
  | cons child rest ih =>
    have hforked := hs.fork_upheld pid child
    exact hforked.trans (ih _ hforked.serving)

theorem sound_askMask (simulation : Simulation) :
    Sound id config simulation.askMask fun _ => True := by
  rw [askMask]
  cases simulation.select? with
  | none => exact sound_pure trivial
  | some bits => exact sound_request _ _ _ _ _

/-- What a session does before the first round. -/
def openings (simulation : Simulation) (family : List UInt32) : Action Platform Halt Unit := do
  request "ENABLE_TRACE" simulation.pid .enable 0 0
  ExceptT.lift (forkAll simulation.pid (family.drop 1))
  simulation.askMask

theorem sound_openings (simulation : Simulation) (family : List UInt32) :
    Sound id config (simulation.openings family) fun _ => True :=
  (sound_request _ _ _ _ _).bind fun _ _ => (sound_forkAll _ _).bind fun _ _ =>
    sound_askMask simulation

/-! ## Rounds and dumps -/

theorem sound_recordBranches (hpos : config.capacity ≠ 0) (cpu : Nat) (pid round : UInt32) :
    Sound id config (recordBranches cpu config.capacity pid round) fun _ => True := by
  intro s hs
  rw [recordBranches, if_neg hpos]
  cases s.machine.bank <;> exact ⟨hs.upheld rfl, trivial⟩

theorem sound_runRounds (hpos : config.capacity ≠ 0) (cpu : Nat) (runnable : List UInt32)
    (rounds : List Nat) :
    Sound id config (runRounds cpu config.capacity runnable rounds) fun _ => True := by
  induction rounds with
  | nil => exact sound_pure trivial
  | cons round rounds ih =>
    rw [runRounds_cons]
    exact (sound_lift fun _ hs => hs.switch_upheld cpu _).bind fun _ _ =>
      (sound_recordBranches hpos cpu _ _).bind fun _ _ => ih

/-- A stack without places ends the first round. -/
theorem runRounds_empty (hs : Serving id config s) (cpu : Nat) (runnable : List UInt32)
    {rounds : List Nat} (h : rounds ≠ []) :
    ∃ s', runRounds cpu 0 runnable rounds s = (.error (.broken .emptyStack), s') ∧
      Upheld id config s s' := by
  obtain ⟨round, rounds, rfl⟩ := List.exists_cons_of_ne_nil h
  refine ⟨_, ?_, hs.switch_upheld cpu (turn runnable round)⟩
  rw [runRounds_cons, Action.bind_apply, Action.lift_apply]
  rfl

theorem sound_dump (pid : UInt32) :
    Sound id config (ExceptT.lift (dump id pid)) fun _ => True := by
  refine sound_lift fun s hs => ?_
  obtain ⟨-, hserving⟩ := hs.onTracer (.error (.notFound pid))
    (fun _ => (Tracer.dump (some pid)).run) (hs.registered.dump (some pid))
  refine ⟨hserving, ?_⟩
  rw [dump, hs.machine_onTracer]
  exact Tracer.related_service (Machine.moves_tries _) hs.registered (.dump (some pid))

theorem sound_dumpAll (cpu : Nat) (pids : List UInt32) :
    Sound id config (dumpAll cpu id pids) fun _ => True := by
  induction pids with
  | nil => exact sound_pure trivial
  | cons pid rest ih =>
    rw [dumpAll_cons]
    exact (sound_lift fun _ hs => hs.switch_upheld cpu pid).bind fun _ _ =>
      (sound_dump pid).bind fun dumped _ => (sound_orHalt _).bind fun _ _ =>
        ih.bind fun _ _ => sound_pure trivial

/-! ## The end of tracing -/

/-- What a session does after the last dump. -/
def closing (simulation : Simulation) (capacity id : Nat) (pids : List UInt32)
    (snapshots : List Snapshot) : Action Platform Halt Report := do
  let before ← ExceptT.lift (countTraced id)
  request "DISABLE_TRACE" simulation.pid .disable 0 0
  let disabled := before - (← ExceptT.lift (countTraced id))
  return { capacity, traced := pids, snapshots, disabled, history := [] }

/-- A request to end tracing that goes through leaves fewer processes traced. -/
theorem len_of_disable (hs : Serving id config s) {what : String} {caller pid : UInt32}
    {param : UInt64} {s' : Platform}
    (h : request what caller .disable pid param s = (.ok (), s')) :
    (s'.tracing id).store.len < (s.tracing id).store.len := by
  let step := fun config : Config => Tracer.ioctl config caller Command.disable.number
    (Request.toBytes { select := 0, pid }) param
  obtain ⟨hanswer, htracing, -⟩ := onTracer_spec hs.has noDevice step
  obtain ⟨hstatus, hstore, -⟩ := Tracer.ioctl_spec config caller Command.disable.number
    (Request.toBytes { select := 0, pid }) param (s.tracing id)
  rw [request_eq, hs.ioctl_eq] at h
  obtain ⟨hcheck, rfl⟩ := Prod.mk.inj h
  rw [hanswer, hstatus] at hcheck
  rw [htracing, hstore]
  rcases Tracer.len_dispatch_disable hs.registered rfl param with he | ⟨reply, -, hlt⟩
  · rw [he, Tracer.code, TraceError.checkStatus_status, if_neg nofun] at hcheck
    cases hcheck
  · exact hlt

/-- The processes that are no longer traced in the end are counted, and there are some. -/
theorem sound_closing (simulation : Simulation) (capacity : Nat) (pids : List UInt32)
    (snapshots : List Snapshot) :
    Sound id config (simulation.closing capacity id pids snapshots) fun report =>
      0 < report.disabled := by
  intro s hs
  obtain ⟨hbefore, hsame, hasked⟩ := hs.ask 0 fun t => t.store.len
  obtain ⟨hended, hyields⟩ :=
    sound_request "DISABLE_TRACE" simulation.pid .disable 0 0 _ hasked.serving
  rw [closing]
  simp only [Action.bind_apply, Action.lift_apply]
  rw [countTraced]
  generalize onTracer id 0 (fun _ t => (t.store.len, t)) s = asked at *
  cases hr : request "DISABLE_TRACE" simulation.pid .disable 0 0 asked.2 with
  | mk r t =>
    rw [hr] at hended hyields
    rcases r with (error | cause) | ⟨⟩
    · exact ⟨hasked.trans hended, trivial⟩
    · exact hyields.elim
    · obtain ⟨hafter, -, hcounted⟩ := hended.serving.ask 0 fun t => t.store.len
      have hlt := len_of_disable hasked.serving hr
      refine ⟨(hasked.trans hended).trans hcounted, ?_⟩
      show 0 < asked.1 - (onTracer id 0 (fun _ t => (t.store.len, t)) t).1
      rw [hafter, hbefore, ← hsame]
      exact Nat.sub_pos_of_lt hlt

/-! ## The whole session -/

theorem runAndDump_eq (simulation : Simulation) (family : List UInt32) (capacity id cpu : Nat) :
    simulation.runAndDump family capacity id cpu =
      (runRounds cpu capacity (family ++ [idlePid]) (List.range simulation.switches.toNat) >>=
        fun _ => ExceptT.lift (traced id) >>= fun pids => dumpAll cpu id pids >>= fun snapshots =>
        ExceptT.lift (contextSwitch cpu idlePid) >>= fun _ =>
        simulation.closing capacity id pids snapshots) := rfl

theorem sound_runAndDump (simulation : Simulation) (family : List UInt32) (cpu : Nat)
    (h : config.capacity ≠ 0 ∨ simulation.switches = 0) :
    Sound id config (simulation.runAndDump family config.capacity id cpu) fun report =>
      0 < report.disabled := by
  have hrounds : Sound id config (runRounds cpu config.capacity (family ++ [idlePid])
      (List.range simulation.switches.toNat)) fun _ => True := by
    rcases h with hpos | hnone
    · exact sound_runRounds hpos cpu _ _
    · rw [hnone]
      exact sound_pure trivial
  rw [runAndDump_eq]
  exact hrounds.bind fun _ _ => (sound_lift fun _ hs => (hs.ask [] _).2.2).bind fun pids _ =>
    (sound_dumpAll cpu pids).bind fun snapshots _ =>
    (sound_lift fun _ hs => hs.switch_upheld cpu idlePid).bind fun _ _ => sound_closing _ _ _ _

/-- How a simulation on a stack of some size ends, if `begun` says whether it came to the rounds: it
breaks off in the first one if the stack has no places, and only there, and what it reports counts
somebody who is no longer traced. -/
structure Ends (simulation : Simulation) (capacity : Nat) (begun : Prop)
    (outcome : Except Halt Report) : Prop where
  broken : ∀ cause, outcome = .error (.broken cause) ↔
    cause = .emptyStack ∧ capacity = 0 ∧ simulation.switches ≠ 0 ∧ begun
  disabled : ∀ report, outcome = .ok report → 0 < report.disabled

theorem Ends.of_yields {simulation : Simulation} {capacity : Nat} {begun : Prop}
    {outcome : Except Halt Report} (h : Yields (fun report => 0 < report.disabled) outcome)
    (hn : ¬(capacity = 0 ∧ simulation.switches ≠ 0 ∧ begun)) :
    simulation.Ends capacity begun outcome where
  broken cause := by
    refine iff_of_false ?_ fun hc => hn hc.2
    rintro rfl
    exact h
  disabled report := by
    rintro rfl
    exact h

theorem Ends.failed {simulation : Simulation} {capacity : Nat} {begun : Prop} (error : SystemError)
    (hn : ¬begun) : simulation.Ends capacity begun (.error (.failed error)) :=
  .of_yields trivial fun h => hn h.2.2

theorem session_eq_openings (simulation : Simulation) (family : List UInt32)
    (capacity id cpu : Nat) :
    simulation.session family capacity id cpu =
      simulation.openings family >>= fun _ => simulation.runAndDump family capacity id cpu := by
  rw [session_eq]
  simp only [openings, bind_assoc]

/-- A session upholds tracing, and breaks off in its first round if the stack has no places. -/
theorem session_spec (simulation : Simulation) (family : List UInt32) (cpu : Nat)
    (hs : Serving id config s) :
    let outcome := simulation.session family config.capacity id cpu s
    Upheld id config s outcome.2 ∧
      simulation.Ends config.capacity ((simulation.openings family s).1 = .ok ()) outcome.1 := by
  obtain ⟨hopened, hyields⟩ := sound_openings simulation family s hs
  intro outcome
  have houtcome : outcome = _ := congrFun (session_eq_openings ..) s
  rw [houtcome, Action.bind_apply]
  generalize simulation.openings family s = opening at hopened hyields ⊢
  obtain ⟨(error | cause) | ⟨⟩, t⟩ := opening
  · exact ⟨hopened, .failed error nofun⟩
  · exact hyields.elim
  by_cases h : config.capacity = 0 ∧ simulation.switches ≠ 0
  · obtain ⟨hempty, hrounds⟩ := h
    have hne : List.range simulation.switches.toNat ≠ [] := by
      rw [ne_eq, List.range_eq_nil]
      exact fun hz => hrounds (UInt32.toNat_inj.mp hz)
    obtain ⟨t', hran, hup⟩ := runRounds_empty hopened.serving cpu (family ++ [idlePid]) hne
    dsimp only
    rw [runAndDump_eq, Action.bind_apply, hempty, hran]
    refine ⟨hopened.trans hup, fun cause => ?_, nofun⟩
    exact ⟨fun h => ⟨by cases h; rfl, rfl, hrounds, rfl⟩, fun h => h.1 ▸ rfl⟩
  · obtain ⟨hup, hy⟩ := sound_runAndDump simulation family cpu (by tauto) t hopened.serving
    exact ⟨hopened.trans hup, .of_yields hy fun hn => h ⟨hn.1, hn.2.1⟩⟩

end Cli.Simulation

end BranchTrace
