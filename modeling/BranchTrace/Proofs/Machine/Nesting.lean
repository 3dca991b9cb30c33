import BranchTrace.Proofs.Machine.Holds

/-!
# Nested sections

What a thread does around its signal mask, step by step (`Nest.Step`): it enters sections, under a
hold alone or under the guard of a lock, it leaves any section that it has open, it changes its
mask in any way, and it changes the values behind the locks that it has taken. `Nested` are the
steps that leave each section they enter, the youngest first, and take no lock under its own
guard.

Once they are through, such steps have changed nothing but the mask and the values
(`Nested.settles`), and a section around them not even the mask (`Settles.unwound`), since the hold
of the section has the mask from the entry. Main statement: `Nest.masks_of_nested`.
-/

namespace BranchTrace

/-! ## Sections -/

/-- What a section is entered under. -/
inductive Cover where
  | hold
  | guard (lock : Nat)
  deriving DecidableEq, Repr

/-- A section that is open. -/
inductive Section where
  | hold (own : Hold)
  | guard (own : Guard)
  deriving DecidableEq, Repr

/-- Enters a section, unless the thread would wait for itself. -/
def Cover.enter {α : Type} : Cover → Thread α → Option (Section × Thread α)
  | .hold, t =>
    let (own, t) := Hold.take t
    some (.hold own, t)
  | .guard lock, t => (Guard.take lock t).map fun (own, t) => (.guard own, t)

/-- Leaves a section. -/
def Section.leave {α : Type} : Section → Thread α → Thread α
  | .hold own, t => (own.release t).2
  | .guard own, t => (own.release t).2

namespace Cover

variable {α : Type}

/-- The lock of a guard. -/
def locks : Cover → List Nat
  | .hold => []
  | .guard lock => [lock]

/-- The section that is entered with a mask. -/
def opened (cover : Cover) (old : SignalMask) : Section :=
  match cover with
  | .hold => .hold { old, restore := true }
  | .guard lock => .guard { lock, hold := { old, restore := true } }

theorem enter_eq {t : Thread α} (h : t.Unrefused) (cover : Cover) :
    cover.enter t =
      if ∃ lock ∈ cover.locks, lock ∈ t.taken then none
      else some (cover.opened t.mask,
        { t with mask := t.mask.enter.2, taken := cover.locks ++ t.taken }) := by
  cases cover with
  | hold => simp [enter, locks, opened, h.take_hold]
  | guard lock =>
    simp only [enter, locks, opened, h.take_guard, List.mem_singleton, exists_eq_left]
    split <;> rfl

/-- Leaving a section puts the mask from its entry back, and the locks are those of then. -/
theorem leave_opened {t : Thread α} (h : t.Unrefused) {cover : Cover} {taken : List Nat}
    (ht : t.taken = cover.locks ++ taken) {old : SignalMask} (hp : old.Proper) :
    (cover.opened old).leave t = { t with mask := old, taken } := by
  have hback : t.mask.replace old = old := SignalMask.leave_of_proper hp t.mask
  cases cover with
  | hold =>
    obtain rfl : t.taken = taken := ht
    simp [opened, Section.leave, h.release_hold, hback]
  | guard lock => simp [opened, Section.leave, h.release_guard, hback, ht, locks]

end Cover

theorem Thread.Sound.leave {α : Type} {t : Thread α} (h : t.Sound) (left : Section) :
    (left.leave t).Sound := by
  cases left with
  | hold own => exact h.release own
  | guard own =>
    have hfreed : ({ t with taken := t.taken.erase own.lock } : Thread α).Sound :=
      ⟨h.unrefused, h.proper⟩
    exact hfreed.release own.hold

/-! ## Steps -/

/-- A thread and the sections that it has open, youngest first. -/
structure Nest (α : Type) where
  thread : Thread α
  sections : List Section := []

namespace Nest

variable {α : Type}

/-- What a thread does. -/
inductive Step (α : Type) where
  /-- Changes the mask. -/
  | change (change : MaskChange)
  /-- Changes the value behind a lock that is taken. -/
  | modify (lock : Nat) (update : α → α)
  | enter (cover : Cover)
  /-- Leaves the section that was entered last but so many. -/
  | leave (age : Nat)

/-- Carries out one step, if it comes to an end. -/
def step (nest : Nest α) : Step α → Option (Nest α)
  | .change change =>
    some { nest with thread := (nest.thread.maskCall fun mask => ((), change.apply mask)).2 }
  | .modify lock update =>
    if lock ∈ nest.thread.taken then some { nest with thread := nest.thread.modify lock update }
    else none
  | .enter cover =>
    (cover.enter nest.thread).map fun (entered, thread) =>
      { thread, sections := entered :: nest.sections }
  | .leave age =>
    nest.sections[age]?.map fun left =>
      { thread := left.leave nest.thread, sections := nest.sections.eraseIdx age }

/-- Carries out steps one after the other. -/
def run (steps : List (Step α)) (nest : Nest α) : Option (Nest α) :=
  steps.foldlM step nest

theorem run_cons (first : Step α) (steps : List (Step α)) (nest : Nest α) :
    run (first :: steps) nest = (nest.step first).bind (run steps) :=
  List.foldlM_cons

theorem run_append (steps more : List (Step α)) (nest : Nest α) :
    run (steps ++ more) nest = (run steps nest).bind (run more) :=
  List.foldlM_append

/-! ## Nested steps -/

/-- Steps that leave each section they enter, the youngest first, and take no lock under its own
guard. Some locks are taken already. -/
inductive Nested : List Nat → List (Step α) → Prop where
  | nil (taken : List Nat) : Nested taken []
  | change {taken : List Nat} (change : MaskChange) {rest : List (Step α)} :
      Nested taken rest → Nested taken (.change change :: rest)
  | modify {taken : List Nat} {lock : Nat} (update : α → α) {rest : List (Step α)} :
      lock ∈ taken → Nested taken rest → Nested taken (.modify lock update :: rest)
  | within {taken : List Nat} (cover : Cover) (body rest : List (Step α)) :
      (∀ lock ∈ cover.locks, lock ∉ taken) → Nested (cover.locks ++ taken) body →
      Nested taken rest → Nested taken (.enter cover :: (body ++ .leave 0 :: rest))

/-- The same but for the mask and the values behind the locks. -/
def changed (nest : Nest α) (mask : SignalMask) (values : Nat → Guarded α) : Nest α :=
  { nest with thread := { nest.thread with mask, values } }

/-- Right after a section was entered. -/
def inside (nest : Nest α) (cover : Cover) : Nest α where
  thread :=
    { nest.thread with mask := nest.thread.mask.enter.2, taken := cover.locks ++ nest.thread.taken }
  sections := cover.opened nest.thread.mask :: nest.sections

/-- Once they are through, the steps have changed the mask and the values at most. -/
def Settles (steps : List (Step α)) : Prop :=
  ∀ ⦃nest last : Nest α⦄, nest.thread.Sound → run steps nest = some last →
    ∃ mask values, mask.Proper ∧ last = nest.changed mask values

section Sound

variable {nest : Nest α} (h : nest.thread.Sound)
include h

theorem sound_changed {mask : SignalMask} (hm : mask.Proper) (values : Nat → Guarded α) :
    (nest.changed mask values).thread.Sound :=
  ⟨h.unrefused, hm⟩

theorem sound_inside (cover : Cover) : (nest.inside cover).thread.Sound :=
  ⟨h.unrefused, h.proper.block _⟩

theorem step_change (change : MaskChange) :
    nest.step (.change change) =
      some (nest.changed (change.apply nest.thread.mask) nest.thread.values) := by
  rw [step, h.unrefused.maskCall_eq]
  rfl

theorem step_enter (cover : Cover) :
    nest.step (.enter cover) =
      if ∃ lock ∈ cover.locks, lock ∈ nest.thread.taken then none
      else some (nest.inside cover) := by
  rw [step, Cover.enter_eq h.unrefused]
  split <;> rfl

/-- Leaving the youngest section puts the mask from its entry back. -/
theorem step_leave (cover : Cover) (mask : SignalMask) (values : Nat → Guarded α) :
    ((nest.inside cover).changed mask values).step (.leave 0) =
      some (nest.changed nest.thread.mask values) := by
  have hunrefused : ((nest.inside cover).changed mask values).thread.Unrefused := h.unrefused
  have htaken : ((nest.inside cover).changed mask values).thread.taken =
      cover.locks ++ nest.thread.taken := rfl
  have hleave := Cover.leave_opened hunrefused htaken h.proper
  exact congrArg (fun thread => some (Nest.mk thread nest.sections)) hleave

/-- A section from its entry to its exit, around steps that settle. -/
theorem run_within (cover : Cover) {body : List (Step α)} (hb : Settles body)
    (rest : List (Step α)) :
    run (.enter cover :: (body ++ .leave 0 :: rest)) nest =
      if ∃ lock ∈ cover.locks, lock ∈ nest.thread.taken then none
      else (run body (nest.inside cover)).bind fun last =>
        run rest (nest.changed nest.thread.mask last.thread.values) := by
  rw [run_cons, step_enter h]
  split
  · rfl
  rw [Option.bind_some, run_append]
  refine Option.bind_congr fun last hlast => ?_
  obtain ⟨mask, values, -, rfl⟩ := hb (sound_inside h cover) hlast
  rw [run_cons, step_leave h]
  rfl

end Sound

/-- Nested steps leave all but the mask and the values as they were. -/
theorem Nested.settles {taken : List Nat} {steps : List (Step α)} (hn : Nested taken steps) :
    Settles steps := by
  induction hn with
  | nil taken =>
    intro nest last h hr
    obtain rfl := Option.some.inj hr
    exact ⟨_, _, h.proper, rfl⟩
  | change change _ ih =>
    intro nest last h hr
    rw [run_cons, step_change h] at hr
    obtain ⟨mask, values, hmask, rfl⟩ := ih (sound_changed h (h.proper.apply change) _) hr
    exact ⟨mask, values, hmask, rfl⟩
  | @modify taken lock update rest hlock _ ih =>
    intro nest last h hr
    by_cases htaken : lock ∈ nest.thread.taken
    · rw [run_cons, step, if_pos htaken] at hr
      obtain ⟨mask, values, hmask, rfl⟩ := ih (sound_changed h h.proper _) hr
      exact ⟨mask, values, hmask, rfl⟩
    · rw [run_cons, step, if_neg htaken] at hr
      cases hr
  | within cover body rest hl _ _ ihbody ihrest =>
    intro nest last h hr
    rw [run_within h cover ihbody] at hr
    split at hr
    · cases hr
    obtain ⟨done, -, hr⟩ := Option.bind_eq_some_iff.mp hr
    obtain ⟨mask, values, hmask, rfl⟩ := ihrest (sound_changed h h.proper _) hr
    exact ⟨mask, values, hmask, rfl⟩

/-- Nested steps come to an end. -/
theorem Nested.exists_run {taken : List Nat} {steps : List (Step α)} (hn : Nested taken steps)
    {nest : Nest α} (h : nest.thread.Sound) (ht : nest.thread.taken = taken) :
    ∃ last, run steps nest = some last := by
  induction hn generalizing nest with
  | nil taken => exact ⟨nest, rfl⟩
  | change change _ ih =>
    rw [run_cons, step_change h]
    exact ih (sound_changed h (h.proper.apply change) _) ht
  | modify update hlock _ ih =>
    rw [run_cons, step, if_pos (ht ▸ hlock)]
    exact ih (sound_changed h h.proper _) ht
  | within cover body rest hl hbody _ ihbody ihrest =>
    obtain ⟨done, hdone⟩ := ihbody (sound_inside h cover) (congrArg (cover.locks ++ ·) ht)
    have hfree : ¬∃ lock ∈ cover.locks, lock ∈ nest.thread.taken := by
      rintro ⟨lock, hlock, htaken⟩
      exact hl lock hlock (ht ▸ htaken)
    rw [run_within h cover hbody.settles, if_neg hfree, hdone]
    exact ihrest (sound_changed h h.proper _) ht

/-! ## Entries and exits -/

/-- The section that is left after the steps `before` was entered after `outer`: the steps from the
entry on are nested. -/
def Matches (before outer : List (Step α)) : Prop :=
  ∃ taken cover body, before = outer ++ .enter cover :: body ∧ Nested taken body

theorem Matches.append {before outer : List (Step α)} (h : Matches before outer)
    (earlier : List (Step α)) : Matches (earlier ++ before) (earlier ++ outer) := by
  obtain ⟨taken, cover, body, rfl, hbody⟩ := h
  exact ⟨taken, cover, body, (List.append_assoc ..).symm, hbody⟩

/-- One step stands before another, at its place, or after it. -/
theorem split_cases {earlier later before after : List (Step α)} {a b : Step α}
    (h : earlier ++ a :: later = before ++ b :: after) :
    (∃ rest, earlier = before ++ b :: rest) ∨ (earlier = before ∧ a = b) ∨
      ∃ rest, before = earlier ++ a :: rest ∧ later = rest ++ b :: after := by
  rcases List.append_eq_append_iff.mp h with ⟨mid, rfl, hmid⟩ | ⟨mid, rfl, hmid⟩
  · rcases List.cons_eq_append_iff.mp hmid with ⟨rfl, hrest⟩ | ⟨rest, rfl, hrest⟩
    · exact .inr (.inl ⟨(List.append_nil _).symm, (List.cons.inj hrest).1.symm⟩)
    · exact .inr (.inr ⟨rest, rfl, hrest⟩)
  · rcases List.cons_eq_append_iff.mp hmid with ⟨rfl, hrest⟩ | ⟨rest, rfl, -⟩
    · exact .inr (.inl ⟨List.append_nil _, (List.cons.inj hrest).1⟩)
    · exact .inl ⟨rest, rfl⟩

theorem split_first {first : Step α} {age : Nat} {rest before after : List (Step α)}
    (hne : first ≠ .leave age) (h : first :: rest = before ++ .leave age :: after) :
    ∃ more, before = first :: more ∧ rest = more ++ .leave age :: after := by
  rcases List.cons_eq_append_iff.mp h with ⟨-, hfirst⟩ | hmore
  · exact absurd (List.cons.inj hfirst).1.symm hne
  · exact hmore

/-- Each exit is that of the youngest section, and there is an entry to it. -/
theorem Nested.exists_matches {taken : List Nat} {steps : List (Step α)} (hn : Nested taken steps)
    {before after : List (Step α)} {age : Nat} (hs : steps = before ++ .leave age :: after) :
    age = 0 ∧ ∃ outer, Matches before outer := by
  induction hn generalizing before after with
  | nil taken => simp at hs
  | change change _ ih =>
    obtain ⟨more, rfl, hmore⟩ := split_first (by simp) hs
    obtain ⟨hage, outer, hm⟩ := ih hmore
    exact ⟨hage, _, hm.append [_]⟩
  | modify update hlock _ ih =>
    obtain ⟨more, rfl, hmore⟩ := split_first (by simp) hs
    obtain ⟨hage, outer, hm⟩ := ih hmore
    exact ⟨hage, _, hm.append [_]⟩
  | within cover body rest hl hbody _ ihbody ihrest =>
    obtain ⟨more, rfl, hmore⟩ := split_first (by simp) hs
    rcases split_cases hmore with ⟨later, hin⟩ | ⟨rfl, heq⟩ | ⟨later, rfl, hout⟩
    · -- The exit is one in the body.
      obtain ⟨hage, outer, hm⟩ := ihbody hin
      exact ⟨hage, _, hm.append [_]⟩
    · -- It is the one of this section.
      exact ⟨(Step.leave.inj heq).symm, [], _, cover, _, rfl, hbody⟩
    · -- It comes later.
      obtain ⟨hage, outer, hm⟩ := ihrest hout
      exact ⟨hage, _, ((hm.append [.leave 0]).append body).append [.enter cover]⟩

/-! ## Masks -/

theorem sound_of_step {nest next : Nest α} {first : Step α} (h : nest.thread.Sound)
    (hs : nest.step first = some next) : next.thread.Sound := by
  cases first with
  | change change =>
    rw [step_change h] at hs
    obtain rfl := Option.some.inj hs
    exact sound_changed h (h.proper.apply change) _
  | modify lock update =>
    rw [step] at hs
    split at hs
    · obtain rfl := Option.some.inj hs
      exact ⟨h.unrefused, h.proper⟩
    · cases hs
  | enter cover =>
    rw [step_enter h] at hs
    split at hs
    · cases hs
    · obtain rfl := Option.some.inj hs
      exact sound_inside h cover
  | leave age =>
    obtain ⟨left, -, rfl⟩ := Option.map_eq_some_iff.mp hs
    exact h.leave left

theorem sound_of_run {nest last : Nest α} {steps : List (Step α)} (h : nest.thread.Sound)
    (hr : run steps nest = some last) : last.thread.Sound := by
  induction steps generalizing nest with
  | nil => exact Option.some.inj hr ▸ h
  | cons first steps ih =>
    rw [run_cons] at hr
    obtain ⟨next, hs, hr⟩ := Option.bind_eq_some_iff.mp hr
    exact ih (sound_of_step h hs) hr

theorem exists_run_of_append {nest last : Nest α} {steps more : List (Step α)}
    (hr : run (steps ++ more) nest = some last) :
    ∃ here, run steps nest = some here ∧ run more here = some last := by
  rw [run_append] at hr
  exact Option.bind_eq_some_iff.mp hr

/-- Of a section and what is done in it nothing shows afterwards but the values. -/
structure Unwound (there here : Nest α) : Prop where
  mask : here.thread.mask = there.thread.mask
  refusals : here.thread.refusals = there.thread.refusals
  taken : here.thread.taken = there.thread.taken
  events : here.thread.events = there.thread.events
  sections : here.sections = there.sections

theorem Settles.unwound {body : List (Step α)} (hb : Settles body) {nest here : Nest α}
    (h : nest.thread.Sound) {cover : Cover}
    (hr : run (.enter cover :: (body ++ [.leave 0])) nest = some here) : Unwound nest here := by
  rw [run_within h cover hb] at hr
  split at hr
  · cases hr
  obtain ⟨last, -, hlast⟩ := Option.bind_eq_some_iff.mp hr
  obtain rfl := Option.some.inj hlast
  exact ⟨rfl, rfl, rfl, rfl, rfl⟩

/-- Steps that nest are carried out to the end. Right after each entry all signals are held back
that can be. Right after each exit, to which there is an entry, the mask is the one from before
the entry, and the rest of the thread is as it was then but for the values behind the locks. -/
theorem masks_of_nested {nest : Nest α} {steps : List (Step α)}
    (hn : Nested nest.thread.taken steps) (h : nest.thread.Sound) :
    (∃ last, run steps nest = some last) ∧
      (∀ before cover after, steps = before ++ .enter cover :: after →
        ∃ here, run (before ++ [.enter cover]) nest = some here ∧
          ∀ signal, signal ≤ 64 → 1 ≤ signal → signal ∉ [9, 19, 32, 33] →
            here.thread.mask.blocks signal = true) ∧
      ∀ before age after, steps = before ++ .leave age :: after →
        (∃ outer, Matches before outer) ∧
          ∀ outer, Matches before outer → ∃ there here, run outer nest = some there ∧
            run (before ++ [.leave age]) nest = some here ∧ Unwound there here := by
  obtain ⟨last, hlast⟩ := hn.exists_run h rfl
  refine ⟨⟨last, hlast⟩, ?_, ?_⟩
  · rintro before cover after rfl
    obtain ⟨there, hthere, hafter⟩ := exists_run_of_append hlast
    rw [run_cons] at hafter
    obtain ⟨here, hhere, -⟩ := Option.bind_eq_some_iff.mp hafter
    refine ⟨here, by rw [run_append, hthere, Option.bind_some, run_cons, hhere]; rfl, ?_⟩
    intro signal hle hge hne
    rw [step_enter (sound_of_run h hthere)] at hhere
    split at hhere
    · cases hhere
    obtain rfl := Option.some.inj hhere
    exact SignalMask.blocks_enter _ (SignalMask.blocks_maskable signal hle hge hne)
  · rintro before age after rfl
    obtain ⟨rfl, hm⟩ := hn.exists_matches rfl
    refine ⟨hm, ?_⟩
    rintro outer ⟨taken, cover, body, rfl, hbody⟩
    have hsplit : outer ++ .enter cover :: body ++ .leave 0 :: after =
        outer ++ ((.enter cover :: (body ++ [.leave 0])) ++ after) := by simp
    rw [hsplit] at hlast
    obtain ⟨there, hthere, hafter⟩ := exists_run_of_append hlast
    obtain ⟨here, hhere, -⟩ := exists_run_of_append hafter
    refine ⟨there, here, hthere, ?_, hbody.settles.unwound (sound_of_run h hthere) hhere⟩
    rw [List.append_assoc, run_append, hthere, Option.bind_some]
    exact hhere

/-- A signal that was held back is let through under the guard of a lock, and every signal in a hold
under a second guard. After the second guard the first signal alone is let through, and after the
first guard it alone is held back. -/
theorem masks_of_nested_under_guards :
    let term : SignalMask := ⟨SignalMask.bit 15⟩
    let nest : Nest Nat := { thread :=
      { mask := term, refusals := fun _ => none, values := fun _ => { value := 7 } } }
    let body : List (Step Nat) :=
      [.enter .hold, .change (.replace .none), .leave 0, .modify 5 (· + 1)]
    let outer := [.enter (.guard 3), .change (.unblock term)]
    let before := outer ++ .enter (.guard 5) :: body
    Nested nest.thread.taken (before ++ [.leave 0, .leave 0]) ∧ nest.thread.Sound ∧
      (∃ here, run (before ++ [.leave 0]) nest = some here ∧
        here.thread.mask = SignalMask.maskable.unblock term) ∧
      ∃ here, run (before ++ [.leave 0, .leave 0]) nest = some here ∧ here.thread.mask = term := by
  intro term nest body outer before
  have hhold : Nested [5, 3] ([.change (.replace .none)] : List (Step Nat)) := .change _ (.nil _)
  have hbody : Nested [5, 3] body :=
    .within .hold _ [.modify 5 (· + 1)] nofun hhold (.modify _ (by decide) (.nil _))
  have hunder : Nested [3] (.change (.unblock term) :: .enter (.guard 5) :: (body ++ [.leave 0])) :=
    .change _ (.within (.guard 5) body [] (by decide) hbody (.nil _))
  have hsteps : Nested nest.thread.taken (before ++ [.leave 0, .leave 0]) :=
    .within (.guard 3) _ [] (by decide) hunder (.nil _)
  have hsound : nest.thread.Sound := ⟨fun _ => rfl, by decide⟩
  obtain ⟨-, -, hexits⟩ := masks_of_nested hsteps hsound
  refine ⟨hsteps, hsound, ?_, ?_⟩
  · obtain ⟨-, hexit⟩ := hexits before 0 [.leave 0] rfl
    obtain ⟨there, here, hthere, hhere, hunwound⟩ := hexit outer ⟨_, _, body, rfl, hbody⟩
    refine ⟨here, hhere, hunwound.mask.trans ?_⟩
    have hmask : (run outer nest).map (·.thread.mask) = some (SignalMask.maskable.unblock term) := by
      decide
    rw [hthere] at hmask
    exact Option.some.inj hmask
  · obtain ⟨-, hexit⟩ := hexits (before ++ [.leave 0]) 0 [] rfl
    obtain ⟨there, here, hthere, hhere, hunwound⟩ := hexit [] ⟨_, _, _, rfl, hunder⟩
    obtain rfl := Option.some.inj hthere
    exact ⟨here, hhere, hunwound.mask⟩

/-- Two holds that are let go in the order they were taken leave all signals held back. -/
example :
    (run [.enter .hold, .enter .hold, .leave 1, .leave 0] { thread :=
      { mask := .none, refusals := fun _ => none, values := fun _ => { value := 0 } } }).map
        (·.thread.mask) = some .maskable := by
  decide

end Nest

end BranchTrace
