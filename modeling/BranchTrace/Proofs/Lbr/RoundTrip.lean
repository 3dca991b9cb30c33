import BranchTrace.Proofs.Lbr.Reach
import BranchTrace.Proofs.Machine.Reliable

/-!
# From a context to the registers and back

The sources of a stack lie 64 registers below its targets. A stack of more branches than that has
registers that are a source and a target at once, and these keep what they were given last. What
comes back of a context that was restored is then another stack, unless no register was asked for
two values (`Context.Consistent`): the target of a branch comes back as the source of the one 64
places on (`Context.crossed`).

Main statement: `Lbr.save_after_restore`.
-/

namespace BranchTrace

/-! ## What registers hold after writes -/

section Overwritten

variable {registers : UInt32 → UInt64} {writes : List (UInt32 × UInt64)} {msr : UInt32}

theorem overwritten_append (registers : UInt32 → UInt64) (before after : List (UInt32 × UInt64)) :
    overwritten registers (before ++ after) = overwritten (overwritten registers before) after :=
  List.foldl_append

/-- A register holds what the last of the writes to it put there. -/
theorem overwritten_of_last (before : List (UInt32 × UInt64)) {after : List (UInt32 × UInt64)}
    {value : UInt64} (h : msr ∉ after.map (·.1)) :
    overwritten registers (before ++ (msr, value) :: after) msr = value := by
  rw [overwritten_append]
  exact (overwritten_of_not_mem h).trans (Function.update_self ..)

/-- A register that is written holds what one of the writes put there. -/
theorem overwritten_mem (h : msr ∈ writes.map (·.1)) :
    (msr, overwritten registers writes msr) ∈ writes := by
  induction writes using List.reverseRecOn with
  | nil => cases h
  | append_singleton before w ih =>
    rw [overwritten_append, List.mem_append]
    by_cases hw : msr = w.1
    · subst hw
      exact .inr (List.mem_singleton.mpr (Prod.ext rfl (Function.update_self ..)))
    · have hbefore : msr ∈ before.map (·.1) := by simpa [hw] using h
      have hkeep : overwritten (overwritten registers before) [w] msr =
          overwritten registers before msr := Function.update_of_ne hw ..
      rw [hkeep]
      exact .inl (ih hbefore)

/-- All registers hold what each of the writes put there if no two writes disagree. -/
theorem overwritten_eq_iff (registers : UInt32 → UInt64) (writes : List (UInt32 × UInt64)) :
    (∀ w ∈ writes, overwritten registers writes w.1 = w.2) ↔
      ∀ v ∈ writes, ∀ w ∈ writes, v.1 = w.1 → v.2 = w.2 := by
  constructor
  · intro h v hv w hw he
    rw [← h v hv, ← h w hw, he]
  · intro h w hw
    exact h _ (overwritten_mem (List.mem_map_of_mem hw)) w hw rfl

end Overwritten

/-! ## Contexts whose writes agree -/

/-- Targets lie 64 registers above their sources. -/
theorem Msr.source_add (i : Nat) : source (UInt32.ofNat (i + 64)) = target (UInt32.ofNat i) := by
  rw [source, target, UInt32.ofNat_add, UInt32.add_comm _ (UInt32.ofNat 64), ← UInt32.add_assoc]
  rfl

theorem branchWrites_append (index : UInt32) (first last : List Branch) :
    branchWrites index (first ++ last) =
      branchWrites index first ++ branchWrites (index + UInt32.ofNat first.length) last := by
  induction first generalizing index with
  | nil => exact congrArg (branchWrites · last) (UInt32.add_zero index).symm
  | cons branch first ih =>
    rw [List.cons_append, branchWrites, branchWrites, ih, add_one_add_ofNat]
    rfl

namespace Context

variable {s t : Context} {registers : UInt32 → UInt64}

/-- No register is asked for two values. -/
def Consistent (context : Context) : Prop :=
  ∀ v ∈ context.writes, ∀ w ∈ context.writes, v.1 = w.1 → v.2 = w.2

theorem consistent_of_capacity (h : s.capacity ≤ 64) : s.Consistent := by
  intro v hv w hw he
  exact congrArg Prod.snd (List.inj_on_of_nodup_map (Context.nodup_writes h) hv hw he)

/-- From 65 branches on there are contexts that ask a register for two values. -/
theorem exists_not_consistent {capacity : Nat} (h : 64 < capacity) :
    ∃ context : Context, context.capacity = capacity ∧ ¬context.Consistent := by
  let context : Context := ⟨0, ⟨0⟩, 0, List.replicate capacity ⟨1, 0⟩, none⟩
  have hmem : ∀ i < capacity, (Msr.source (UInt32.ofNat i), 1) ∈ context.writes ∧
      (Msr.target (UInt32.ofNat i), 0) ∈ context.writes := by
    intro i hi
    have hbranch : context.entries[i]? = some ⟨1, 0⟩ :=
      List.getElem?_replicate.trans (if_pos hi)
    have hwrites := mem_branchWrites 0 hbranch
    rw [UInt32.zero_add] at hwrites
    exact ⟨mem_writes_of_mem hwrites.1, mem_writes_of_mem hwrites.2⟩
  refine ⟨context, List.length_replicate, fun hc => ?_⟩
  -- the source of branch 64 lies in the register of the first target
  exact absurd (hc _ (hmem 64 h).1 _ (hmem 0 (by omega)).2 rfl) (by decide)

/-- All contexts of a capacity can come back as they were up to 64 branches, and not beyond. -/
theorem forall_consistent_iff (capacity : Nat) :
    (∀ context : Context, context.capacity = capacity → context.Consistent) ↔ capacity ≤ 64 := by
  constructor
  · intro h
    by_contra hlt
    obtain ⟨context, hc, hn⟩ := exists_not_consistent (Nat.lt_of_not_le hlt)
    exact hn (h context hc)
  · intro h context hc
    exact consistent_of_capacity (hc.trans_le h)

/-! ## What comes back -/

/-- A context is read back from registers that hold all that its writes put there, and from no
others. -/
theorem stack_refreshed_eq_iff (hc : t.capacity = s.capacity) :
    (t.refreshed registers).stack = s.stack ↔ ∀ w ∈ s.writes, registers w.1 = w.2 := by
  simp only [stack, refreshed, hc, Stack.mk.injEq]
  constructor
  · rintro ⟨hselect, htos, hentries⟩ w hw
    rw [writes, List.mem_cons, List.mem_cons] at hw
    rcases hw with rfl | rfl | hw
    · exact hselect
    · exact htos
    · obtain ⟨i, branch, hi, hw⟩ := exists_of_mem_branchWrites hw
      have hlt : i < s.capacity := (List.getElem?_eq_some_iff.mp hi).1
      rw [← hentries, List.getElem?_map, List.getElem?_range hlt] at hi
      obtain rfl := Option.some.inj hi
      rw [UInt32.zero_add] at hw
      rcases hw with rfl | rfl <;> rfl
  · intro h
    refine ⟨h _ List.mem_cons_self, h _ (List.mem_cons_of_mem _ List.mem_cons_self), ?_⟩
    refine List.ext_getElem (by simp [capacity]) fun i _ hi => ?_
    obtain ⟨hs, ht⟩ := mem_branchWrites 0 (List.getElem?_eq_getElem hi)
    rw [UInt32.zero_add] at hs ht
    rw [List.getElem_map, List.getElem_range, h _ (mem_writes_of_mem hs),
      h _ (mem_writes_of_mem ht)]

/-- The branches of a context as they come back: where the register of a target is that of a source
too, the source was written later. -/
def crossed (context : Context) : List Branch :=
  context.entries.mapIdx fun i branch =>
    { branch with target := (context.entries[i + 64]?.map (·.source)).getD branch.target }

/-- The writes of a branch among those of its context. -/
theorem writes_eq_append {i : Nat} (h : i < s.entries.length) :
    ∃ before, s.writes = before ++ (Msr.source (UInt32.ofNat i), s.entries[i].source) ::
      (Msr.target (UInt32.ofNat i), s.entries[i].target) ::
      branchWrites (UInt32.ofNat (i + 1)) (s.entries.drop (i + 1)) := by
  have hsplit : s.entries = s.entries.take i ++ s.entries[i] :: s.entries.drop (i + 1) := by
    rw [← List.drop_eq_getElem_cons h, List.take_append_drop]
  refine ⟨(Msr.select, s.select.bits) :: (Msr.tos, s.tos) :: branchWrites 0 (s.entries.take i), ?_⟩
  have hlength : (s.entries.take i).length = i := by
    rw [List.length_take]
    omega
  rw [writes]
  conv_lhs => rw [hsplit]
  rw [branchWrites_append, hlength, UInt32.zero_add, branchWrites, UInt32.ofNat_add]
  rfl

/-- The writes after those of a branch are of registers with greater numbers of their kind. -/
theorem Fits.exists_of_mem_drop (hf : s.Fits) {i : Nat} {msr : UInt32}
    (hm : msr ∈ (branchWrites (UInt32.ofNat (i + 1)) (s.entries.drop (i + 1))).map (·.1)) :
    ∃ j, i < j ∧ j < s.capacity ∧ (msr.toNat = 0x680 + j ∨ msr.toNat = 0x6c0 + j) := by
  obtain ⟨w, hw, rfl⟩ := List.mem_map.mp hm
  obtain ⟨k, branch, hk, hw⟩ := exists_of_mem_branchWrites hw
  rw [List.getElem?_drop] at hk
  have hlt : i + 1 + k < s.capacity := (List.getElem?_eq_some_iff.mp hk).1
  have hplace : Msr.targetBase.toNat + (i + 1 + k) < UInt32.size :=
    Nat.lt_of_lt_of_le (Nat.add_lt_add_left hlt _) hf
  rw [← UInt32.ofNat_add] at hw
  refine ⟨i + 1 + k, by omega, hlt, hw.imp ?_ ?_⟩
  · rintro rfl
    exact Msr.toNat_source_ofNat hplace
  · rintro rfl
    exact Msr.toNat_target_ofNat hplace

theorem Fits.numbered (hf : s.Fits) {i : Nat} (h : i < s.entries.length) :
    Msr.targetBase.toNat + i < UInt32.size :=
  Nat.lt_of_lt_of_le (Nat.add_lt_add_left h _) hf

/-- No write after that of a source is of its register. -/
theorem Fits.overwritten_source (hf : s.Fits) {i : Nat} (h : i < s.entries.length) :
    overwritten registers s.writes (Msr.source (UInt32.ofNat i)) = s.entries[i].source := by
  obtain ⟨before, hw⟩ := writes_eq_append h
  have hsource := Msr.toNat_source_ofNat (hf.numbered h)
  have htarget := Msr.toNat_target_ofNat (hf.numbered h)
  rw [hw]
  refine overwritten_of_last before ?_
  rw [List.map_cons, List.mem_cons, not_or]
  refine ⟨fun he => ?_, fun hm => ?_⟩
  · have hn := congrArg UInt32.toNat he
    rw [hsource, htarget] at hn
    omega
  · obtain ⟨j, hj, -, hn⟩ := hf.exists_of_mem_drop hm
    omega

/-- A write after that of a target is of its register if there is a branch 64 places on. -/
theorem Fits.overwritten_target (hf : s.Fits) {i : Nat} (h : i < s.entries.length) :
    overwritten registers s.writes (Msr.target (UInt32.ofNat i)) =
      (s.entries[i + 64]?.map (·.source)).getD s.entries[i].target := by
  by_cases hlater : i + 64 < s.entries.length
  · rw [List.getElem?_eq_getElem hlater, ← Msr.source_add]
    exact hf.overwritten_source hlater
  · rw [List.getElem?_eq_none (Nat.le_of_not_lt hlater)]
    obtain ⟨before, hw⟩ := writes_eq_append h
    have htarget := Msr.toNat_target_ofNat (hf.numbered h)
    rw [hw, List.append_cons]
    refine overwritten_of_last _ fun hm => ?_
    obtain ⟨j, hj, hlt, hn⟩ := hf.exists_of_mem_drop hm
    rw [capacity] at hlt
    omega

/-- A context filled from registers in which another one was put back. -/
theorem Fits.stack_refreshed (hf : s.Fits) (hc : t.capacity = s.capacity)
    (registers : UInt32 → UInt64) :
    (t.refreshed (overwritten registers s.writes)).stack =
      { s.stack with branches := s.crossed } := by
  have hselect : overwritten registers s.writes Msr.select = s.select.bits :=
    overwritten_of_last [] hf.select_not_mem
  have htos : overwritten registers s.writes Msr.tos = s.tos :=
    overwritten_of_last [(Msr.select, s.select.bits)] hf.tos_not_mem
  simp only [stack, refreshed, hselect, htos, hc, Stack.mk.injEq, true_and]
  refine List.ext_getElem (by simp [capacity, crossed]) fun i _ hi => ?_
  rw [crossed, List.length_mapIdx] at hi
  simp only [List.getElem_map, List.getElem_range, crossed, List.getElem_mapIdx,
    hf.overwritten_source hi, hf.overwritten_target hi]

end Context

namespace Lbr

/-- What is in a context `t` after a context `s` was put into registers and these were saved into
`t`. -/
structure Returned (s t saved : Context) : Prop where
  pid : saved.pid = t.pid
  parent : saved.parent = t.parent
  /-- The stack is as it was exactly if no register was asked for two values. -/
  faithful : saved.stack = s.stack ↔ s.Consistent
  short : s.capacity ≤ 64 → saved.stack = s.stack
  crossed : s.Fits → saved.stack = { s.stack with branches := s.crossed }

theorem returned_of_save {m : Machine} {bank : SoftBank} (hm : m.Reliable bank) (cpu : Nat)
    {s t : Context} (hc : t.capacity = s.capacity) :
    (restore cpu s m).1 = .ok () ∧ ∃ saved,
      (save cpu t (restore cpu s m).2).1 = (.ok (), saved) ∧ Returned s t saved := by
  obtain ⟨hok, hbank, hfaults⟩ := hm.wrmsrAll cpu s.writes
  obtain ⟨hsaved, -⟩ := (hm.congr hbank hfaults).save cpu t
  rw [SoftBank.cells_file_writeAll] at hsaved
  have hfaithful := (Context.stack_refreshed_eq_iff hc).trans
    (overwritten_eq_iff (bank.cells (bank.file cpu)) s.writes)
  exact ⟨hok, _, hsaved, rfl, rfl, hfaithful,
    fun h64 => hfaithful.mpr (Context.consistent_of_capacity h64),
    fun hf => hf.stack_refreshed hc _⟩

/-- What comes back of a context that is put into the registers of a cpu and saved from there, and
for which capacities that is always what it was. -/
theorem save_after_restore {m : Machine} {bank : SoftBank} (hm : m.Reliable bank) (cpu : Nat)
    {s t : Context} (hc : t.capacity = s.capacity) :
    ((restore cpu s m).1 = .ok () ∧ ∃ saved,
      (save cpu t (restore cpu s m).2).1 = (.ok (), saved) ∧ Returned s t saved) ∧
    ((∀ other : Context, other.capacity = s.capacity → other.Consistent) ↔ s.capacity ≤ 64) :=
  ⟨returned_of_save hm cpu hc, Context.forall_consistent_iff s.capacity⟩

/-- Branches that all lead from 1 to 0, in more places than there are registers between a source
and its target. -/
def longContext : Context where
  pid := 1
  select := ⟨5⟩
  tos := 3
  entries := List.replicate 65 ⟨1, 0⟩
  parent := none

/-- A cleared context of as many branches. -/
def longBlank : Context where
  pid := 2
  select := ⟨0⟩
  tos := 0
  entries := List.replicate 65 ⟨0, 0⟩
  parent := none

/-- The first branch comes back with the source of the last one for a target. -/
theorem save_after_restore_long :
    ∃ saved, Returned longContext longBlank saved ∧
      (save 0 longBlank (restore 0 longContext (Machine.new 1)).2).1 = (.ok (), saved) ∧
      saved.stack = { longContext.stack with branches := ⟨1, 1⟩ :: List.replicate 64 ⟨1, 0⟩ } := by
  have hm : (Machine.new 1).Reliable (SoftBank.new 1) := ⟨rfl, nofun⟩
  have hc : longBlank.capacity = longContext.capacity := by decide
  have hfits : longContext.Fits := by unfold Context.Fits; decide
  have hcrossed : longContext.crossed = ⟨1, 1⟩ :: List.replicate 64 ⟨1, 0⟩ := by decide
  obtain ⟨⟨-, saved, hsaved, hreturned⟩, -⟩ := save_after_restore hm 0 hc
  exact ⟨saved, hreturned, hsaved, hcrossed ▸ hreturned.crossed hfits⟩

/-- Contexts of 65 branches are made, put back and saved without a failure, and what comes back is
not what was put back. -/
theorem target_overwritten :
    (Context.new 2 ⟨0⟩ 65).toOption = some longBlank ∧
      (restore 0 longContext (Machine.new 1)).1 = .ok () ∧
      (save 0 longBlank (restore 0 longContext (Machine.new 1)).2).1.1 = .ok () ∧
      longContext.entries.head? = some ⟨1, 0⟩ ∧
      (save 0 longBlank (restore 0 longContext (Machine.new 1)).2).1.2.entries.head? =
        some ⟨1, 1⟩ := by
  decide +kernel

end Lbr

end BranchTrace
