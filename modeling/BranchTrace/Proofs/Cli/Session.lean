import BranchTrace.Proofs.Cli.Rounds

/-!
# Sessions of a simulation

What happens between loading and unloading, on a steady machine: a process has itself traced and
forks its children, who are added as long as there is room for them; the rounds are run; every
traced process is dumped; and the process has tracing of itself ended, which ends it for all of
them.

Main statement: `session_stands`, the report of the whole session.
-/

namespace BranchTrace

/-! ## Families on the roster -/

namespace Roster

/-- The stacks of the processes on a roster. -/
def each (roster : Roster) (stack : UInt32 → Stack) (pid : UInt32) : Option Stack :=
  if roster.has pid then some (stack pid) else none

theorem each_of_has {roster : Roster} {pid : UInt32} (h : roster.has pid = true)
    (stack : UInt32 → Stack) : roster.each stack pid = some (stack pid) :=
  if_pos h

/-- A process is added. -/
theorem update_each_append (roster : Roster) (stack : UInt32 → Stack) (tracee : Tracee) :
    Function.update (roster.each stack) tracee.pid (some (stack tracee.pid)) =
      (roster ++ [tracee]).each stack := by
  funext pid
  rw [Function.update_apply, each, each, has, has, List.any_append]
  by_cases hp : pid = tracee.pid
  · subst hp
    simp
  · simp [hp, Ne.symm hp]

/-- A process on the roster gets another stack. -/
theorem update_each {roster : Roster} {pid : UInt32} (h : roster.has pid = true)
    (stack : UInt32 → Stack) (new : Stack) :
    Function.update (roster.each stack) pid (some new) =
      roster.each (Function.update stack pid new) := by
  funext other
  rw [Function.update_apply, each, each, Function.update_apply]
  by_cases hp : other = pid
  · subst hp
    simp [h]
  · simp [hp]

theorem map_each (roster : Roster) (stack : UInt32 → Stack) (f : UInt32 → Stack → Stack)
    (pid : UInt32) :
    (roster.each stack pid).map (f pid) = roster.each (fun pid => f pid (stack pid)) pid := by
  rw [each, each]
  split <;> rfl

/-- The roster of a process and children that it forked. -/
def ofFamily (parent : UInt32) (children : List UInt32) : Roster :=
  ⟨parent, none⟩ :: children.map fun child => ⟨child, some parent⟩

theorem map_pid_ofFamily (parent : UInt32) (children : List UInt32) :
    (ofFamily parent children).map Tracee.pid = parent :: children := by
  rw [ofFamily, List.map_cons, List.map_map]
  exact congrArg (parent :: ·) (List.map_id _)

theorem has_ofFamily (parent : UInt32) (children : List UInt32) (pid : UInt32) :
    (ofFamily parent children).has pid = true ↔ pid ∈ parent :: children := by
  rw [← map_pid_ofFamily parent children, has, List.any_eq_true, List.mem_map]
  simp only [decide_eq_true_eq]

theorem ofFamily_append (parent child : UInt32) (children : List UInt32) :
    ofFamily parent (children ++ [child]) = ofFamily parent children ++ [⟨child, some parent⟩] := by
  rw [ofFamily, ofFamily, List.map_append, List.cons_append]
  rfl

theorem length_ofFamily (parent : UInt32) (children : List UInt32) :
    (ofFamily parent children).length = children.length + 1 := by
  rw [ofFamily, List.length_cons, List.length_map]

/-- Nobody is left of a family without its parent. -/
theorem without_ofFamily (parent : UInt32) (children : List UInt32) :
    (ofFamily parent children).without parent = [] := by
  refine List.filter_eq_nil_iff.mpr fun tracee ht => ?_
  simp only [decide_eq_true_eq, not_not]
  rcases List.mem_cons.mp ht with rfl | hchild
  · exact .refl
  · obtain ⟨child, -, rfl⟩ := List.mem_map.mp hchild
    exact .single ⟨_, ht, rfl, rfl⟩

end Roster

namespace Cli.Simulation

open Platform

variable {id : Nat} {config : Config} {cpu : Nat} {roster : Roster} {s : Platform}

/-! ## Requests and forks -/

/-- A request goes by the status that it is answered with. -/
theorem request_eq (what : String) (caller : UInt32) (command : Command) (pid : UInt32)
    (param : UInt64) (s : Platform) :
    request what caller command pid param s =
      let answer := Platform.ioctl deviceName caller command.number
        (Request.toBytes { select := 0, pid }) param s
      (checkStatus what (.ofInt answer.1), answer.2) := rfl

/-- A request that the device grants goes through. -/
theorem request_apply {what : String} {caller : UInt32} {command : Command} {pid : UInt32}
    {param : UInt64} {s' : Platform}
    (h : Platform.ioctl deviceName caller command.number (Request.toBytes { select := 0, pid })
      param s = (0, s')) :
    request what caller command pid param s = (.ok (), s') := by
  have hstatus : checkStatus what (.ofInt 0) = .ok () := rfl
  rw [request_eq, h]
  exact congrArg (·, s') hstatus

/-- The children that there is room for are added, in the order in which they are forked. -/
theorem forkAll_stands (h64 : config.capacity ≤ 64) {mask : UInt64} {parent : UInt32}
    {forked children : List UInt32} (hnodup : (parent :: forked ++ children).Nodup)
    (hsize : forked.length < Store.maxSlots)
    (h : Stands id config cpu (.ofFamily parent forked)
      ((Roster.ofFamily parent forked).each fun _ => config.cleared mask) s)
    (hidle : s.runningOn cpu = none) :
    ∃ s', forkAll parent children s = ((), s') ∧ s'.runningOn cpu = none ∧
      let born := forked ++ children.take (Store.maxSlots - 1 - forked.length)
      Stands id config cpu (.ofFamily parent born)
        ((Roster.ofFamily parent born).each fun _ => config.cleared mask) s' := by
  induction children generalizing s forked with
  | nil =>
    rw [List.take_nil, List.append_nil]
    exact ⟨s, rfl, hidle, h⟩
  | cons child rest ih =>
    have hnew : (Roster.ofFamily parent forked).has child = false := by
      rw [Bool.eq_false_iff, ne_eq, Roster.has_ofFamily]
      exact fun hm => (List.nodup_append.mp hnodup).2.2 child hm child (List.mem_cons_self ..) rfl
    have hparent := (Roster.has_ofFamily parent forked parent).mpr (List.mem_cons_self ..)
    obtain ⟨next, hfork, hidle', hroom, hfull⟩ :=
      h.fork hidle h64 (Roster.each_of_has hparent _) hnew
    have hstep : ∀ {s'}, forkAll parent rest next = ((), s') →
        forkAll parent (child :: rest) s = ((), s') := by
      intro s' hrest
      rw [forkAll, stateM_bind_apply, hfork, hrest]
    rw [Roster.length_ofFamily] at hroom hfull
    rcases Nat.lt_or_ge (forked.length + 1) Store.maxSlots with hlt | hge
    · have hadded : Stands id config cpu (.ofFamily parent (forked ++ [child]))
          ((Roster.ofFamily parent (forked ++ [child])).each fun _ => config.cleared mask) next := by
        rw [Roster.ofFamily_append, ← Roster.update_each_append]
        exact hroom hlt
      have hnodup' : (parent :: (forked ++ [child]) ++ rest).Nodup := by simpa using hnodup
      have hsize' : (forked ++ [child]).length < Store.maxSlots := by simpa using hlt
      obtain ⟨s', hrest, hidle'', hstands⟩ := ih hnodup' hsize' hadded hidle'
      have hleft : Store.maxSlots - 1 - forked.length =
          Store.maxSlots - 1 - (forked ++ [child]).length + 1 := by
        rw [List.length_append, List.length_singleton]
        omega
      refine ⟨s', hstep hrest, hidle'', ?_⟩
      rw [hleft, List.take_succ_cons, List.append_cons]
      exact hstands
    · -- no room is left, so nobody else is added
      have hnone : Store.maxSlots - 1 - forked.length = 0 := by omega
      have hsub : (parent :: forked ++ rest).Sublist (parent :: forked ++ child :: rest) :=
        (List.sublist_cons_self child rest).append_left _
      obtain ⟨s', hrest, hidle'', hstands⟩ := ih (hsub.nodup hnodup) hsize
        (hfull (by omega)) hidle'
      refine ⟨s', hstep hrest, hidle'', ?_⟩
      rw [hnone, List.take_zero] at hstands ⊢
      exact hstands

/-! ## Dumps -/

theorem dumpAll_cons (cpu id : Nat) (pid : UInt32) (rest : List UInt32) :
    dumpAll cpu id (pid :: rest) =
      ExceptT.lift (contextSwitch cpu pid) >>= fun _ => ExceptT.lift (dump id pid) >>= fun dumped =>
        orHalt (dumped.mapError TraceError.toSystemError) >>= fun snapshot =>
          dumpAll cpu id rest >>= fun snapshots => pure (snapshot :: snapshots) := rfl

/-- Every process that is dumped shows its stack. -/
theorem dumpAll_stands (h64 : config.capacity ≤ 64) {stack : UInt32 → Stack}
    (h : Stands id config cpu roster (roster.each stack) s) {pids : List UInt32}
    (hpids : ∀ pid ∈ pids, roster.has pid = true) :
    ∃ s', dumpAll cpu id pids s = (.ok (pids.map fun pid => (stack pid).snapshot pid cpu), s') ∧
      Stands id config cpu roster (roster.each stack) s' := by
  induction pids generalizing s with
  | nil => exact ⟨s, rfl, h⟩
  | cons pid rest ih =>
    obtain ⟨hpid, hrest⟩ := List.forall_mem_cons.mp hpids
    obtain ⟨hswitched, hrun⟩ := h.switch h64 pid
    obtain ⟨dumped, hdump, hstands, -⟩ :=
      hswitched.dump (.error (.notFound pid)) hrun (Roster.each_of_has hpid stack)
    obtain ⟨s', hdumps, hstands'⟩ := ih hstands hrest
    refine ⟨s', ?_, hstands'⟩
    simp only [dumpAll_cons, Action.bind_apply, Action.lift_apply, dump, hdump, Except.mapError, orHalt,
      Action.pure_apply, hdumps]
    rfl

/-! ## The whole session -/

/-- The children that there is room for besides their parent. -/
def born (children : List UInt32) : List UInt32 :=
  children.take (Store.maxSlots - 1)

/-- The mask of a process of the family. -/
def maskOf (simulation : Simulation) (config : Config) (pid : UInt32) : UInt64 :=
  if pid = simulation.pid then simulation.select?.getD config.defaultSelect.bits
  else config.defaultSelect.bits

/-- The stack of a process of the family in the end. -/
def stackOf (simulation : Simulation) (config : Config) (family : List UInt32) (pid : UInt32) :
    Stack :=
  afterRounds config.capacity (family ++ [idlePid]) (List.range simulation.switches.toNat) pid
    (config.cleared (simulation.maskOf config pid))

/-- What is reported of a process and some children of it that were traced on a cpu. -/
def reportOf (simulation : Simulation) (config : Config) (family children : List UInt32) (cpu : Nat)
    (history : List HostChange) : Report where
  capacity := config.capacity
  traced := simulation.pid :: children.reverse
  snapshots := (simulation.pid :: children.reverse).map fun pid =>
    (simulation.stackOf config family pid).snapshot pid cpu
  disabled := children.length + 1
  history := history

/-- A mask is asked for if there is one to ask for. -/
def askMask (simulation : Simulation) : Action Platform Halt Unit :=
  match simulation.select? with
  | some bits => request "SELECT_LBR" simulation.pid .select simulation.pid bits
  | none => pure ()

/-- What follows once the family is traced. -/
def runAndDump (simulation : Simulation) (family : List UInt32) (capacity id cpu : Nat) :
    Action Platform Halt Report := do
  runRounds cpu capacity (family ++ [idlePid]) (List.range simulation.switches.toNat)
  let pids ← ExceptT.lift (traced id)
  let snapshots ← dumpAll cpu id pids
  ExceptT.lift (Platform.contextSwitch cpu idlePid)
  let before ← ExceptT.lift (countTraced id)
  request "DISABLE_TRACE" simulation.pid .disable 0 0
  let disabled := before - (← ExceptT.lift (countTraced id))
  return { capacity, traced := pids, snapshots, disabled, history := [] }

theorem session_eq (simulation : Simulation) (family : List UInt32) (capacity id cpu : Nat) :
    simulation.session family capacity id cpu = (do
      request "ENABLE_TRACE" simulation.pid .enable 0 0
      ExceptT.lift (forkAll simulation.pid (family.drop 1))
      simulation.askMask
      simulation.runAndDump family capacity id cpu) := by
  rw [session, askMask]
  cases simulation.select? <;> rfl

/-- A process has itself traced. -/
theorem enable_stands (h64 : config.capacity ≤ 64) (pid : UInt32)
    (h : Stands id config cpu [] (fun _ => none) s) (hidle : s.runningOn cpu = none) :
    ∃ s', request "ENABLE_TRACE" pid .enable 0 0 s = (.ok (), s') ∧ s'.runningOn cpu = none ∧
      Stands id config cpu (.ofFamily pid [])
        ((Roster.ofFamily pid []).each fun _ => config.cleared config.defaultSelect.bits) s' := by
  have htarget : Tracer.target pid { select := 0, pid := 0 } = pid := if_pos rfl
  obtain ⟨s', henable, hidle', hstands⟩ := h.enable hidle h64 htarget 0 rfl (by decide)
  have hadded := Roster.update_each_append [] (fun _ => config.cleared config.defaultSelect.bits)
    ⟨pid, none⟩
  exact ⟨s', request_apply henable, hidle', hadded ▸ hstands⟩

/-- The process gets another mask, for itself alone. -/
theorem select_stands {pid : UInt32} {children : List UInt32} {stack : Stack}
    (h : Stands id config cpu (.ofFamily pid children)
      ((Roster.ofFamily pid children).each fun _ => stack) s)
    (hidle : s.runningOn cpu = none) (bits : UInt64) :
    ∃ s', request "SELECT_LBR" pid .select pid bits s = (.ok (), s') ∧
      Stands id config cpu (.ofFamily pid children)
        ((Roster.ofFamily pid children).each
          (Function.update (fun _ => stack) pid { stack with select := bits })) s' := by
  have htarget : Tracer.target pid { select := 0, pid } = pid := ite_self _
  have hpid := (Roster.has_ofFamily pid children pid).mpr (List.mem_cons_self ..)
  obtain ⟨s', hselect, -, hstands⟩ :=
    h.select hidle htarget bits (Roster.each_of_has hpid _)
  exact ⟨s', request_apply hselect, Roster.update_each hpid _ _ ▸ hstands⟩

theorem askMask_stands (simulation : Simulation) {children : List UInt32}
    (h : Stands id config cpu (.ofFamily simulation.pid children)
      ((Roster.ofFamily simulation.pid children).each fun _ =>
        config.cleared config.defaultSelect.bits) s)
    (hidle : s.runningOn cpu = none) :
    ∃ s', simulation.askMask s = (.ok (), s') ∧
      Stands id config cpu (.ofFamily simulation.pid children)
        ((Roster.ofFamily simulation.pid children).each fun pid =>
          config.cleared (simulation.maskOf config pid)) s' := by
  rw [askMask]
  cases hselect : simulation.select? with
  | none =>
    refine ⟨s, rfl, ?_⟩
    simp only [maskOf, hselect, Option.getD_none, ite_self]
    exact h
  | some bits =>
    obtain ⟨s', hrequest, hstands⟩ := select_stands h hidle bits
    refine ⟨s', hrequest, ?_⟩
    convert hstands using 2
    funext pid
    rw [Function.update_apply, maskOf, hselect]
    split <;> rfl

/-- The process ends tracing, which was all the tracing there is. -/
theorem disable_stands {pid : UInt32} {children : List UInt32} {owned : UInt32 → Option Stack}
    (h : Stands id config cpu (.ofFamily pid children) owned s) :
    ∃ s', request "DISABLE_TRACE" pid .disable 0 0 s = (.ok (), s') ∧ (countTraced id s').1 = 0 := by
  have htarget : Tracer.target pid { select := 0, pid := 0 } = pid := if_pos rfl
  have hpid := (Roster.has_ofFamily pid children pid).mpr (List.mem_cons_self ..)
  obtain ⟨s', hdisable, hserving, hroster⟩ := h.disable htarget 0 hpid
  refine ⟨s', request_apply hdisable, ?_⟩
  obtain ⟨hcount, -⟩ := onTracer_spec hserving.has 0 fun _ t => (t.store.len, t)
  rw [countTraced, hcount, ← hserving.registered.wellFormed.length_roster, hroster,
    Roster.without_ofFamily]
  rfl

/-- The rounds, the dumps, and the end of tracing. -/
theorem runAndDump_stands (simulation : Simulation) (hpos : 0 < config.capacity)
    (h64 : config.capacity ≤ 64) (family : List UInt32) {children : List UInt32}
    (h : Stands id config cpu (.ofFamily simulation.pid children)
      ((Roster.ofFamily simulation.pid children).each fun pid =>
        config.cleared (simulation.maskOf config pid)) s) :
    ∃ s', simulation.runAndDump family config.capacity id cpu s =
      (.ok (simulation.reportOf config family children cpu []), s') := by
  obtain ⟨ran, hrun, h⟩ := runRounds_stands h hpos h64 (family ++ [idlePid])
    (List.range simulation.switches.toNat)
  simp only [Roster.map_each] at h
  have htraced : Tracer.tracedPids (ran.tracing id).store =
      simulation.pid :: children.reverse := by
    rw [h.serving.registered.wellFormed.tracedPids_eq, h.roster, Roster.map_pid_ofFamily]
    rfl
  obtain ⟨asked, hask, h⟩ := h.ask [] fun t => Tracer.tracedPids t.store
  rw [htraced] at hask
  have hpids : ∀ pid ∈ simulation.pid :: children.reverse,
      (Roster.ofFamily simulation.pid children).has pid = true := by
    intro pid hp
    rw [Roster.has_ofFamily]
    simpa using hp
  obtain ⟨dumped, hdump, h⟩ := dumpAll_stands h64 h hpids
  obtain ⟨h, -⟩ := h.switch h64 idlePid
  have hlen := h.len_eq
  obtain ⟨counted, hcount, h⟩ := h.ask 0 fun t => t.store.len
  rw [hlen, Roster.length_ofFamily] at hcount
  obtain ⟨s', hdisable, hnone⟩ := disable_stands h
  refine ⟨(countTraced id s').2, ?_⟩
  rw [countTraced] at hnone
  simp only [runAndDump, Action.bind_apply, Action.lift_apply, hrun, traced, hask, hdump,
    countTraced, hcount, hdisable, Action.pure_apply, hnone, Nat.sub_zero]
  rfl

/-- The report of a session. -/
theorem session_stands (simulation : Simulation) (hpos : 0 < config.capacity)
    (h64 : config.capacity ≤ 64) {children : List UInt32}
    (hnodup : (simulation.pid :: children).Nodup)
    (h : Stands id config cpu [] (fun _ => none) s) (hidle : s.runningOn cpu = none) :
    ∃ s', simulation.session (simulation.pid :: children) config.capacity id cpu s =
      (.ok (simulation.reportOf config (simulation.pid :: children) (born children) cpu []), s') := by
  obtain ⟨enabled, henable, hidle, h⟩ := enable_stands h64 simulation.pid h hidle
  have hnodup' : (simulation.pid :: [] ++ children).Nodup := hnodup
  obtain ⟨forked, hfork, hidle, h⟩ := forkAll_stands h64 hnodup' (by decide) h hidle
  have h : Stands id config cpu (.ofFamily simulation.pid (born children))
      ((Roster.ofFamily simulation.pid (born children)).each fun _ =>
        config.cleared config.defaultSelect.bits) forked := h
  obtain ⟨masked, hmask, h⟩ := askMask_stands simulation h hidle
  obtain ⟨s', hreport⟩ :=
    runAndDump_stands simulation hpos h64 (simulation.pid :: children) h
  refine ⟨s', ?_⟩
  simp only [session_eq, Action.bind_apply, Action.lift_apply, henable, List.drop_one,
    List.tail_cons, hfork, hmask, hreport]

end Cli.Simulation

end BranchTrace
