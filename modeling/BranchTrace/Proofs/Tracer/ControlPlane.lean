import BranchTrace.Proofs.Tracer.Roster

/-!
# The control plane as a list

What callers see of a tracer while pins, allocations and register accesses succeed: requests,
forks and context switches act on a roster, a list of process numbers, and on nothing else
(`Roster.ioctl`, `Roster.fork`). One lemma for each operation says so, in any registered store;
main statement: `control_plane_refines_roster`, for any sequence of them on any tracer.
-/

namespace BranchTrace

namespace Roster

variable (roster : Roster)

/-- The process number in a request block: four bytes from the eighth on, lowest first. -/
def requestPid (block : List UInt8) : UInt32 :=
  (block.getD 8 0).toUInt32 + 0x100 * (block.getD 9 0).toUInt32 +
    0x10000 * (block.getD 10 0).toUInt32 + 0x1000000 * (block.getD 11 0).toUInt32

/-- Adds a process that nobody forked, or answers -EEXIST. -/
def enable (pid : UInt32) : Int × Roster :=
  if roster.has pid then (-17, roster) else (0, roster ++ [⟨pid, none⟩])

/-- Takes out a process and its descendants, or answers -ENOENT. -/
noncomputable def disable (pid : UInt32) : Int × Roster :=
  if roster.has pid then (0, roster.without pid) else (-2, roster)

/-- Reads a process, or the oldest one for process 0, or answers -ENOENT. -/
def dump (pid : UInt32) : Int × Roster :=
  if pid = 0 then (if roster.head?.isSome then 0 else -2, roster)
  else (if roster.has pid then 0 else -2, roster)

/-- Reconfigures a process, or answers -ENOENT. -/
def select (pid : UInt32) : Int × Roster :=
  (if roster.has pid then 0 else -2, roster)

/-- A request: the status, and the roster after it. A request of the wrong length answers -EFAULT,
and one with an unknown command -EINVAL. -/
noncomputable def ioctl (caller number : UInt32) (block : List UInt8) : Int × Roster :=
  if block.length = 16 then
    let pid := requestPid block
    let target := if pid = 0 then caller else pid
    if number = 0x40106c01 then roster.enable target
    else if number = 0x40106c02 then roster.disable target
    else if number = 0x40106c03 then roster.dump pid
    else if number = 0x40106c04 then roster.select target
    else (-22, roster)
  else (-14, roster)

/-- A fork: whether the child is traced from now on, and the roster after it. -/
def fork (parent child : UInt32) : Bool × Roster :=
  if roster.has parent ∧ ¬roster.has child then (true, roster ++ [⟨child, some parent⟩])
  else (false, roster)

end Roster

namespace Tracer

open Tracing

variable {config : Config} {s : Tracing}

/-- The status that a result is answered with. -/
def code {α : Type} : Except TraceError α → Int
  | .ok _ => 0
  | .error e => e.status

theorem code_map {α β : Type} (f : α → β) (r : Except TraceError α) : code (r.map f) = code r := by
  cases r <;> rfl

theorem enable_refines (hr : Registered config s.store)
    (hc : config.capacity * Context.branchBytes ≤ Context.maxAllocation)
    (hl : s.store.len < Store.maxSlots) (pid : UInt32) (bits : UInt64)
    (hf : ¬s.Faulted (enable config pid bits s).2) :
    (code (enable config pid bits s).1, (enable config pid bits s).2.store.roster) =
      s.store.roster.enable pid := by
  have h := enable_outcome hr.wellFormed config pid bits
  generalize enable config pid bits s = o at h hf ⊢
  obtain ⟨r, s'⟩ := o
  dsimp only at h hf ⊢
  rw [Roster.enable, hr.wellFormed.has_roster]
  cases h with
  | tooLarge hn => exact absurd hc hn
  | unpinned hf' _ | undone hf' => exact absurd hf' hf
  | known ht hs => simp only [ht, if_true, hs]; rfl
  | full hn => exact absurd hn (Nat.ne_of_lt hl)
  | added ht hpid hparent _ hi =>
    rw [if_neg (by simp [ht]), hr.roster_insert hi (by simp [hparent]), hpid, hparent]
    rfl

theorem disable_refines (hr : Registered config s.store) (pid : UInt32) :
    (code (disable pid s).1, (disable pid s).2.store.roster) = s.store.roster.disable pid := by
  have h := disable_outcome hr.wellFormed pid
  generalize disable pid s = o at h ⊢
  obtain ⟨r, s'⟩ := o
  dsimp only at h ⊢
  rw [Roster.disable, hr.wellFormed.has_roster, isTraced]
  cases h with
  | untraced hn => simp only [hn]; rfl
  | removed hf hrem => simp only [hf, hr.roster_remove hf hrem]; rfl

theorem dump_refines (hr : Registered config s.store) (pid : UInt32)
    (hf : ¬s.Faulted (dump (if pid = 0 then none else some pid) s).2) :
    (code (dump (if pid = 0 then none else some pid) s).1,
      (dump (if pid = 0 then none else some pid) s).2.store.roster) = s.store.roster.dump pid := by
  have h := dump_outcome hr.wellFormed (if pid = 0 then none else some pid)
  generalize dump (if pid = 0 then none else some pid) s = o at h hf ⊢
  obtain ⟨r, s'⟩ := o
  dsimp only at h hf ⊢
  have hwanted : s.store.roster.dump pid =
      (if (wanted s.store (if pid = 0 then none else some pid)).isSome then 0 else -2,
        s.store.roster) := by
    rw [Roster.dump, hr.wellFormed.has_roster, hr.wellFormed.head?_roster, isTraced]
    split <;> rfl
  rw [hwanted]
  cases h with
  | unpinned hf' _ | torn hf' => exact absurd hf' hf
  | absent hn hs => simp only [hn, hs]; rfl
  | read hn he => simp only [hn, hr.roster_edit he]; rfl

theorem select_refines (hr : Registered config s.store) (pid : UInt32) (bits : UInt64)
    (hf : ¬s.Faulted (select pid bits s).2) :
    (code (select pid bits s).1, (select pid bits s).2.store.roster) =
      s.store.roster.select pid := by
  have h := select_outcome hr.wellFormed pid bits
  generalize select pid bits s = o at h hf ⊢
  obtain ⟨r, s'⟩ := o
  dsimp only at h hf ⊢
  rw [Roster.select, hr.wellFormed.has_roster, isTraced]
  cases h with
  | unpinned hf' _ | torn hf' => exact absurd hf' hf
  | absent hn hs => simp only [hn, hs]; rfl
  | loaded hn he => simp only [hn, hr.roster_edit he]; rfl

theorem fork_refines (hr : Registered config s.store)
    (hc : config.capacity * Context.branchBytes ≤ Context.maxAllocation)
    (hl : s.store.len < Store.maxSlots) (parent child : UInt32) :
    ((fork config parent child s).1.map Option.isSome,
        (fork config parent child s).2.store.roster) =
      (.ok (s.store.roster.fork parent child).1, (s.store.roster.fork parent child).2) := by
  have h := fork_outcome hr.wellFormed config parent child
  generalize fork config parent child s = o at h ⊢
  obtain ⟨r, s'⟩ := o
  dsimp only at h ⊢
  rw [Roster.fork, hr.wellFormed.has_roster, hr.wellFormed.has_roster]
  cases h with
  | untraced hn => simp [isTraced, hn, Except.map]
  | tooLarge hn => exact absurd hc hn
  | known ht hs => simp [ht, hs, Except.map]
  | full hn => exact absurd hn (Nat.ne_of_lt hl)
  | @added _ handle parentHandle _ hf hget ht hi =>
    obtain ⟨c, hm, hp⟩ := hr.wellFormed.exists_of_find? hf
    have hpid : s.store.pidOf parentHandle = some parent :=
      hr.wellFormed.pidOf_eq_some.mpr ⟨c, hm, hp⟩
    have htp : isTraced s.store parent = true := by simp [isTraced, hf]
    rw [hr.roster_insert hi fun p hp => by cases hp; exact hr.wellFormed.contains_of_find? hf]
    simp [htp, ht, bornContext, hpid, Except.map]

/-! ## Requests -/

theorem ofNat_ofLittleEndian (a b c d : UInt8) :
    UInt32.ofNat (ofLittleEndian [a, b, c, d]) =
      a.toUInt32 + 0x100 * b.toUInt32 + 0x10000 * c.toUInt32 + 0x1000000 * d.toUInt32 := by
  have ha := a.toNat_lt
  have hb := b.toNat_lt
  have hc := c.toNat_lt
  have hd := d.toNat_lt
  rw [← UInt32.toNat_inj]
  simp only [ofLittleEndian, UInt32.toNat_add, UInt32.toNat_mul, UInt8.toNat_toUInt32,
    UInt32.toNat_ofNat, UInt32.toNat_ofNat']
  omega

theorem ofBytes_eq_ok {block : List UInt8} (h : block.length = 16) :
    ∃ bits, Request.ofBytes block = .ok { select := bits, pid := Roster.requestPid block } := by
  refine ⟨UInt64.ofNat (ofLittleEndian (block.take 8)), ?_⟩
  have hp : (block.drop 8).take 4 =
      [block.getD 8 0, block.getD 9 0, block.getD 10 0, block.getD 11 0] := by
    rw [List.drop_eq_getElem_cons (by omega), List.drop_eq_getElem_cons (by omega),
      List.drop_eq_getElem_cons (by omega), List.drop_eq_getElem_cons (by omega)]
    simp (disch := omega) only [List.take_succ_cons, List.take_zero, List.getD_eq_getElem?_getD,
      List.getElem?_eq_getElem, Option.getD_some]
  rw [Request.ofBytes, if_pos (show block.length = Request.size from h), hp, ofNat_ofLittleEndian]
  rfl

theorem ofNumber_eq (number : UInt32) :
    Command.ofNumber number =
      if number = 0x40106c01 then .ok .enable
      else if number = 0x40106c02 then .ok .disable
      else if number = 0x40106c03 then .ok .dump
      else if number = 0x40106c04 then .ok .select
      else .error (.badCommand number) := rfl

/-- Whether a request pins the thread: all do but the one that ends tracing, if they can be read. -/
def takesPin (number : UInt32) (block : List UInt8) : Bool :=
  block.length = 16 ∧ number ∈ [0x40106c01, 0x40106c03, 0x40106c04]

theorem ioctl_spec (config : Config) (caller number : UInt32) (block : List UInt8)
    (param : UInt64) (s : Tracing) :
    (ioctl config caller number block param s).1 =
        code (dispatch config caller number block param s).1 ∧
      (ioctl config caller number block param s).2.store =
        (dispatch config caller number block param s).2.store ∧
      (ioctl config caller number block param s).2.machine.accesses =
        (dispatch config caller number block param s).2.machine.accesses := by
  rw [ioctl, stateM_bind_apply, ExceptT.run]
  rcases dispatch config caller number block param s with ⟨e | reply, t⟩ <;> exact ⟨rfl, rfl, rfl⟩

/-- Where a request is noted first, its faults are those of the machine before the note. -/
theorem not_faulted_of_report (event : Event) {t : Tracing} (hp : s.machine.Pinnable)
    (hs : s.machine.Smooth t.machine) : ¬(report event s).2.Faulted t := by
  rintro (hf | hf)
  · exact hf ((Machine.pinnable_report event s.machine).mpr hp)
  · exact hf.not_smooth hs

theorem dispatch_refines (hr : Registered config s.store)
    (hc : config.capacity * Context.branchBytes ≤ Context.maxAllocation)
    (hl : s.store.len < Store.maxSlots) (caller number : UInt32) (block : List UInt8)
    (param : UInt64) (hp : takesPin number block = true → s.machine.Pinnable)
    (hs : s.machine.Smooth (dispatch config caller number block param s).2.machine) :
    (code (dispatch config caller number block param s).1,
        (dispatch config caller number block param s).2.store.roster) =
      s.store.roster.ioctl caller number block := by
  rw [Roster.ioctl]
  by_cases hb : block.length = 16
  · obtain ⟨bits, hreq⟩ := ofBytes_eq_ok hb
    rw [if_pos hb]
    simp only [dispatch_apply, hreq, ofNumber_eq, target] at hs ⊢
    have hfaulted {t : Tracing} (hpin : takesPin number block = true)
        (ht : s.machine.Smooth t.machine) :=
      not_faulted_of_report (.requested number bits (Roster.requestPid block)) (hp hpin) ht
    -- the note changes neither the store nor the registers
    generalize hrep : (report (.requested number bits (Roster.requestPid block)) s).2 = noted
      at hs hfaulted ⊢
    have hr' : Registered config noted.store := by rwa [← hrep]
    have hl' : noted.store.len < Store.maxSlots := by rwa [← hrep]
    have hroster : s.store.roster = noted.store.roster := by rw [← hrep]; rfl
    rw [hroster]
    generalize (if Roster.requestPid block = 0 then caller else Roster.requestPid block) = pid
      at hs ⊢
    by_cases h1 : number = 0x40106c01
    · simp only [h1, if_true] at hs ⊢
      rw [code_map]
      exact enable_refines hr' hc hl' pid bits (hfaulted (by simp [takesPin, hb, h1]) hs)
    by_cases h2 : number = 0x40106c02
    · simp only [if_neg h1, if_pos h2]
      rw [code_map]
      exact disable_refines hr' pid
    by_cases h3 : number = 0x40106c03
    · simp only [if_neg h1, if_neg h2, if_pos h3] at hs ⊢
      rw [code_map]
      exact dump_refines hr' _ (hfaulted (by simp [takesPin, hb, h3]) hs)
    by_cases h4 : number = 0x40106c04
    · simp only [if_neg h1, if_neg h2, if_neg h3, if_pos h4] at hs ⊢
      rw [code_map]
      exact select_refines hr' pid param (hfaulted (by simp [takesPin, hb, h4]) hs)
    · simp only [if_neg h1, if_neg h2, if_neg h3, if_neg h4]
      rfl
  · have hreq : Request.ofBytes block = .error (.partialRequest Request.size block.length) :=
      if_neg hb
    rw [if_neg hb]
    simp only [dispatch_apply, hreq]
    rfl

/-- A request acts on the roster alone, as long as its pin and its register accesses succeed. -/
theorem ioctl_refines (hr : Registered config s.store)
    (hc : config.capacity * Context.branchBytes ≤ Context.maxAllocation)
    (hl : s.store.len < Store.maxSlots) (caller number : UInt32) (block : List UInt8)
    (param : UInt64) (hp : takesPin number block = true → s.machine.Pinnable)
    (hs : s.machine.Smooth (ioctl config caller number block param s).2.machine) :
    ((ioctl config caller number block param s).1,
        (ioctl config caller number block param s).2.store.roster) =
      s.store.roster.ioctl caller number block := by
  obtain ⟨hcode, hstore, hacc⟩ := ioctl_spec config caller number block param s
  rw [hcode, hstore]
  refine dispatch_refines hr hc hl caller number block param hp ?_
  rw [Machine.Smooth, hacc] at hs
  exact hs

/-! ## Runs -/

/-- What reaches a tracer from outside, and what can happen to the machine in between: anything. -/
inductive Input where
  | ioctl (caller number : UInt32) (block : List UInt8) (param : UInt64)
  | fork (parent child : UInt32)
  | schedOut (pid : UInt32)
  | schedIn (pid : UInt32)
  | outside (machine : Machine)

/-- What comes back: the status of a request, or whether a forked child is traced. -/
inductive Response where
  | status (code : Int)
  | forked (born : Except TraceError Bool)
  | silence
  deriving DecidableEq

/-- What a tracer does with an input. -/
def Input.run (config : Config) : Input → Tracing → Response × Tracing
  | .ioctl caller number block param, s =>
    (.status (Tracer.ioctl config caller number block param s).1,
      (Tracer.ioctl config caller number block param s).2)
  | .fork parent child, s =>
    (.forked ((Tracer.fork config parent child s).1.map Option.isSome),
      (Tracer.fork config parent child s).2)
  | .schedOut pid, s => (.silence, (Tracer.schedOut pid s).2)
  | .schedIn pid, s => (.silence, (Tracer.schedIn pid s).2)
  | .outside machine, s => (.silence, { s with machine })

/-- What an input does to a roster. -/
noncomputable def Input.onRoster : Input → Roster → Response × Roster
  | .ioctl caller number block _, roster =>
    (.status (roster.ioctl caller number block).1, (roster.ioctl caller number block).2)
  | .fork parent child, roster =>
    (.forked (.ok (roster.fork parent child).1), (roster.fork parent child).2)
  | .schedOut _, roster | .schedIn _, roster | .outside _, roster => (.silence, roster)

/-- The responses to some inputs, and the state after them. -/
def runInputs {σ : Type} (step : Input → σ → Response × σ) : List Input → σ → List Response × σ
  | [], s => ([], s)
  | input :: inputs, s =>
    ((step input s).1 :: (runInputs step inputs (step input s).2).1,
      (runInputs step inputs (step input s).2).2)

/-- There is room for one more process, and the pin and the register accesses of a request
succeed. Switches may fail in any way. -/
def Input.Succeeds (config : Config) (s : Tracing) (input : Input) : Prop :=
  s.store.len < Store.maxSlots ∧
    match input with
    | .ioctl caller number block param =>
      (takesPin number block = true → s.machine.Pinnable) ∧
        s.machine.Smooth (Tracer.ioctl config caller number block param s).2.machine
    | _ => True

instance Input.Succeeds.decidable (config : Config) (s : Tracing) :
    (input : Input) → Decidable (input.Succeeds config s)
  | .ioctl caller number block param =>
    inferInstanceAs (Decidable (_ ∧ (takesPin number block = true → s.machine.Pinnable) ∧
      s.machine.Smooth (Tracer.ioctl config caller number block param s).2.machine))
  | .fork _ _ | .schedOut _ | .schedIn _ | .outside _ => inferInstanceAs (Decidable (_ ∧ True))

/-- Every input of a run succeeds. -/
def AllSucceed (config : Config) : List Input → Tracing → Prop
  | [], _ => True
  | input :: inputs, s =>
    input.Succeeds config s ∧ AllSucceed config inputs (input.run config s).2

instance AllSucceed.decidable (config : Config) :
    (inputs : List Input) → (s : Tracing) → Decidable (AllSucceed config inputs s)
  | [], _ => .isTrue trivial
  | input :: inputs, s =>
    have := AllSucceed.decidable config inputs (input.run config s).2
    inferInstanceAs (Decidable (input.Succeeds config s ∧ _))

/-- What one input keeps: the registry, and that the roster of the store follows it. -/
theorem Input.run_refines (hr : Registered config s.store)
    (hc : config.capacity * Context.branchBytes ≤ Context.maxAllocation) {input : Input}
    (hs : input.Succeeds config s) :
    Registered config (input.run config s).2.store ∧
      ((input.run config s).1, (input.run config s).2.store.roster) =
        input.onRoster s.store.roster := by
  obtain ⟨hl, hs⟩ := hs
  cases input with
  | ioctl caller number block param =>
    have h := ioctl_refines hr hc hl caller number block param hs.1 hs.2
    have hreg := hr.dispatch caller number block param
    rw [← (ioctl_spec config caller number block param s).2.1] at hreg
    refine ⟨hreg, ?_⟩
    rw [Input.onRoster, ← h]
    rfl
  | fork parent child =>
    have h := fork_refines hr hc hl parent child
    rw [Prod.mk.injEq] at h
    exact ⟨hr.fork parent child, Prod.ext (congrArg Response.forked h.1) h.2⟩
  | schedOut pid =>
    refine ⟨hr.schedOut pid, Prod.ext rfl ?_⟩
    rcases schedOut_outcome pid s with h | ⟨handle, -, he⟩
    · exact congrArg Store.roster h
    · exact hr.roster_edit he
  | schedIn pid =>
    have h := store_schedIn pid s
    exact ⟨h.symm ▸ hr, Prod.ext rfl (congrArg Store.roster h)⟩
  | outside machine => exact ⟨hr, rfl⟩

theorem runInputs_refines (hr : Registered config s.store)
    (hc : config.capacity * Context.branchBytes ≤ Context.maxAllocation) {inputs : List Input}
    (hs : AllSucceed config inputs s) :
    ((runInputs (Input.run config) inputs s).1,
        (runInputs (Input.run config) inputs s).2.store.roster) =
      runInputs Input.onRoster inputs s.store.roster := by
  induction inputs generalizing s with
  | nil => rfl
  | cons input inputs ih =>
    obtain ⟨hr', h⟩ := Input.run_refines hr hc hs.1
    have hrest := ih hr' hs.2
    rw [runInputs, runInputs, ← h, ← hrest]

/-- On a tracer with any history, requests, forks and switches have the responses that they have
on the roster of its processes, and leave the processes and parents that they leave there. -/
theorem control_plane_refines_roster (config : Config) (machine : Machine)
    (history : List Operation) (inputs : List Input)
    (hc : config.capacity * Context.branchBytes ≤ Context.maxAllocation)
    (hs : AllSucceed config inputs (runOperations config machine history)) :
    let start := runOperations config machine history
    let finish := runInputs (Input.run config) inputs start
    (finish.1, finish.2.store.roster) = runInputs Input.onRoster inputs start.store.roster :=
  runInputs_refines (registered_runOperations config machine history) hc hs

/-- A process traces itself and forks, its child forks and is read, and all three are given up. -/
def familyInputs : List Input :=
  [ .ioctl 7 0x40106c01 (Request.toBytes ⟨0, 0⟩) 0, .fork 7 8, .fork 8 9, .schedIn 9,
    .ioctl 1 0x40106c03 (Request.toBytes ⟨0, 8⟩) 0, .ioctl 1 0x40106c02 (Request.toBytes ⟨0, 7⟩) 0 ]

theorem control_plane_refines_roster_family :
    (1 * Context.branchBytes ≤ Context.maxAllocation ∧
        AllSucceed ⟨1, .userOnly⟩ familyInputs
          (runOperations ⟨1, .userOnly⟩ (.new 1) [.enable 3 0])) ∧
      ((runInputs (Input.run ⟨1, .userOnly⟩) familyInputs
          (runOperations ⟨1, .userOnly⟩ (.new 1) [.enable 3 0])).1,
        (runInputs (Input.run ⟨1, .userOnly⟩) familyInputs
          (runOperations ⟨1, .userOnly⟩ (.new 1) [.enable 3 0])).2.store.roster) =
        runInputs Input.onRoster familyInputs
          (runOperations ⟨1, .userOnly⟩ (.new 1) [.enable 3 0]).store.roster := by
  have hs : AllSucceed ⟨1, .userOnly⟩ familyInputs
      (runOperations ⟨1, .userOnly⟩ (.new 1) [.enable 3 0]) := by decide +kernel
  exact ⟨⟨by decide, hs⟩,
    control_plane_refines_roster ⟨1, .userOnly⟩ (.new 1) [.enable 3 0] familyInputs (by decide) hs⟩

end Tracer

end BranchTrace
