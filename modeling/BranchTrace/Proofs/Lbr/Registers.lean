import BranchTrace.Proofs.Lbr.Moves

/-!
# Stacks in a software bank

What the stack registers of one cpu hold is a `Stack`, and so is what a context keeps of them.
Main statements: a save that succeeds leaves in the context the stack of the cpu (`save_soft`), and
a restore that succeeds leaves on the cpu the stack of the context (`restore_soft`), as long as
there are at most 64 branches, so that the registers of sources and targets do not overlap.
-/

namespace BranchTrace

/-- The contents of a branch stack. -/
structure Stack where
  select : UInt64
  tos : UInt64
  branches : List Branch
  deriving DecidableEq

/-- The stack that a context keeps. -/
def Context.stack (context : Context) : Stack :=
  { select := context.select.bits, tos := context.tos, branches := context.entries }

namespace SoftBank

variable (bank : SoftBank)

/-- The branch at a place of the stack of a cpu. -/
def branch (cpu : Nat) (index : UInt32) : Branch :=
  { source := bank.read cpu (Msr.source index), target := bank.read cpu (Msr.target index) }

/-- The stack of a cpu, up to a number of branches. -/
def stack (cpu capacity : Nat) : Stack :=
  { select := bank.read cpu Msr.select
    tos := bank.read cpu Msr.tos
    branches := (List.range capacity).map fun i => bank.branch cpu (UInt32.ofNat i) }

/-- Writes registers of a cpu in order. -/
def writeAll (cpu : Nat) (writes : List (UInt32 × UInt64)) : SoftBank :=
  writes.foldl (fun bank w => bank.write cpu w.1 w.2) bank

variable {bank}

theorem read_writeAll_of_not_mem {cpu : Nat} {writes : List (UInt32 × UInt64)} {msr : UInt32}
    (h : msr ∉ writes.map (·.1)) : (bank.writeAll cpu writes).read cpu msr = bank.read cpu msr := by
  induction writes generalizing bank with
  | nil => rfl
  | cons w writes ih =>
    rw [List.map_cons, List.mem_cons, not_or] at h
    rw [writeAll, List.foldl_cons]
    refine (ih h.2).trans ?_
    rw [read_write, if_neg fun hw => h.1 hw.2.symm]

/-- Where no register is written twice, every register reads as it was written. -/
theorem read_writeAll_of_mem {cpu : Nat} {writes : List (UInt32 × UInt64)}
    (hnd : (writes.map (·.1)).Nodup) {msr : UInt32} {value : UInt64} (h : (msr, value) ∈ writes) :
    (bank.writeAll cpu writes).read cpu msr = value := by
  induction writes generalizing bank with
  | nil => cases h
  | cons w writes ih =>
    obtain ⟨hw, hnd⟩ := List.nodup_cons.mp hnd
    rw [writeAll, List.foldl_cons]
    rcases List.mem_cons.mp h with rfl | h
    · refine (read_writeAll_of_not_mem hw).trans ?_
      rw [read_write, if_pos ⟨rfl, rfl⟩]
    · exact ih hnd h

end SoftBank

/-! ## The registers of a context -/

namespace Msr

theorem toNat_source {index : UInt32} (h : index.toNat < 64) :
    (source index).toNat = 0x680 + index.toNat := by
  rw [source, sourceBase, UInt32.toNat_add]
  simp only [UInt32.reduceToNat]
  omega

theorem toNat_target {index : UInt32} (h : index.toNat < 64) :
    (target index).toNat = 0x6c0 + index.toNat := by
  rw [target, targetBase, UInt32.toNat_add]
  simp only [UInt32.reduceToNat]
  omega

end Msr

theorem toNat_add_one {index : UInt32} (h : index.toNat < 64) :
    (index + 1).toNat = index.toNat + 1 := by
  rw [UInt32.toNat_add]
  simp only [UInt32.reduceToNat]
  omega

theorem add_one_add_ofNat (index : UInt32) (i : Nat) :
    index + 1 + UInt32.ofNat i = index + UInt32.ofNat (i + 1) := by
  rw [UInt32.ofNat_add, UInt32.add_assoc, UInt32.add_comm 1]
  rfl

/-- The registers of branches from a place on lie in two ranges that do not overlap. -/
theorem bounds_of_mem_branchWrites {branches : List Branch} {index : UInt32}
    (h : index.toNat + branches.length ≤ 64) {w : UInt32 × UInt64}
    (hw : w ∈ branchWrites index branches) :
    (0x680 + index.toNat ≤ w.1.toNat ∧ w.1.toNat < 0x6c0) ∨
      (0x6c0 + index.toNat ≤ w.1.toNat ∧ w.1.toNat < 0x700) := by
  induction branches generalizing index with
  | nil => cases hw
  | cons branch rest ih =>
    rw [List.length_cons] at h
    have hi : index.toNat < 64 := by omega
    rw [branchWrites, List.mem_cons, List.mem_cons] at hw
    rcases hw with rfl | rfl | hw
    · exact .inl ⟨(Msr.toNat_source hi).ge, by rw [Msr.toNat_source hi]; omega⟩
    · exact .inr ⟨(Msr.toNat_target hi).ge, by rw [Msr.toNat_target hi]; omega⟩
    · have hn := toNat_add_one hi
      have hrest := ih (by omega) hw
      omega

theorem nodup_branchWrites {branches : List Branch} {index : UInt32}
    (h : index.toNat + branches.length ≤ 64) :
    ((branchWrites index branches).map (·.1)).Nodup := by
  induction branches generalizing index with
  | nil => exact List.nodup_nil
  | cons branch rest ih =>
    rw [List.length_cons] at h
    have hi : index.toNat < 64 := by omega
    have hn := toNat_add_one hi
    have hs := Msr.toNat_source hi
    have ht := Msr.toNat_target hi
    have hrest : ∀ msr ∈ (branchWrites (index + 1) rest).map (·.1),
        msr.toNat ≠ (Msr.source index).toNat ∧ msr.toNat ≠ (Msr.target index).toNat := by
      intro msr hm
      obtain ⟨w, hw, rfl⟩ := List.mem_map.mp hm
      have hb := bounds_of_mem_branchWrites (by omega) hw
      omega
    rw [branchWrites, List.map_cons, List.map_cons, List.nodup_cons, List.nodup_cons,
      List.mem_cons, not_or]
    refine ⟨⟨fun he => ?_, fun hm => (hrest _ hm).1 rfl⟩, fun hm => (hrest _ hm).2 rfl,
      ih (by omega)⟩
    have := congrArg UInt32.toNat (show Msr.source index = Msr.target index from he)
    omega

theorem mem_branchWrites {branches : List Branch} (index : UInt32) {i : Nat} {branch : Branch}
    (h : branches[i]? = some branch) :
    (Msr.source (index + UInt32.ofNat i), branch.source) ∈ branchWrites index branches ∧
      (Msr.target (index + UInt32.ofNat i), branch.target) ∈ branchWrites index branches := by
  induction branches generalizing index i with
  | nil => simp at h
  | cons first rest ih =>
    rw [branchWrites]
    cases i with
    | zero =>
      obtain rfl : first = branch := by simpa using h
      simp
    | succ i =>
      have hrest := ih (index + 1) (by simpa using h)
      rw [add_one_add_ofNat] at hrest
      exact ⟨List.mem_cons_of_mem _ (List.mem_cons_of_mem _ hrest.1),
        List.mem_cons_of_mem _ (List.mem_cons_of_mem _ hrest.2)⟩

/-- The register numbers of a context fit in 32 bits. -/
def Context.Fits (context : Context) : Prop :=
  Msr.targetBase.toNat + context.capacity ≤ UInt32.size

/-- The registers of branches lie above the others, unless their numbers overflow. -/
theorem sourceBase_le_of_mem_branchWrites {branches : List Branch} {index : UInt32}
    (h : Msr.targetBase.toNat + (index.toNat + branches.length) ≤ UInt32.size)
    {w : UInt32 × UInt64} (hw : w ∈ branchWrites index branches) :
    Msr.sourceBase.toNat ≤ w.1.toNat := by
  have hs : Msr.sourceBase.toNat = 0x680 := rfl
  have ht : Msr.targetBase.toNat = 0x6c0 := rfl
  have h32 : UInt32.size = 4294967296 := rfl
  induction branches generalizing index with
  | nil => cases hw
  | cons branch rest ih =>
    rw [List.length_cons] at h
    rw [branchWrites, List.mem_cons, List.mem_cons] at hw
    rcases hw with rfl | rfl | hw
    · rw [Msr.source, UInt32.toNat_add]
      omega
    · rw [Msr.target, UInt32.toNat_add]
      omega
    · refine ih ?_ hw
      rw [UInt32.toNat_add, show (1 : UInt32).toNat = 1 from rfl]
      omega

theorem Context.Fits.not_mem_branchWrites {context : Context} (h : context.Fits) {msr : UInt32}
    (hlt : msr.toNat < Msr.sourceBase.toNat) :
    msr ∉ (branchWrites 0 context.entries).map (·.1) := by
  intro hm
  obtain ⟨w, hw, rfl⟩ := List.mem_map.mp hm
  have hfits : Msr.targetBase.toNat +
      ((0 : UInt32).toNat + context.entries.length) ≤ UInt32.size := by
    simpa [Context.Fits, Context.capacity] using h
  exact absurd (sourceBase_le_of_mem_branchWrites hfits hw) (Nat.not_le_of_lt hlt)

theorem Context.Fits.tos_not_mem {context : Context} (h : context.Fits) :
    Msr.tos ∉ (branchWrites 0 context.entries).map (·.1) :=
  h.not_mem_branchWrites (by decide)

theorem Context.Fits.select_not_mem {context : Context} (h : context.Fits) :
    Msr.select ∉ ((Msr.tos, context.tos) :: branchWrites 0 context.entries).map (·.1) := by
  rw [List.map_cons, List.mem_cons, not_or]
  exact ⟨show Msr.select ≠ Msr.tos by decide, h.not_mem_branchWrites (by decide)⟩

theorem Context.fits_of_capacity {context : Context} (h : context.capacity ≤ 64) :
    context.Fits := by
  have ht : Msr.targetBase.toNat = 0x6c0 := rfl
  have h32 : UInt32.size = 4294967296 := rfl
  rw [Context.Fits]
  omega

theorem Context.nodup_writes {context : Context} (h : context.capacity ≤ 64) :
    (context.writes.map (·.1)).Nodup := by
  have hfits := Context.fits_of_capacity h
  refine List.nodup_cons.mpr ⟨hfits.select_not_mem, List.nodup_cons.mpr ⟨hfits.tos_not_mem, ?_⟩⟩
  exact nodup_branchWrites (by simpa [capacity] using h)

theorem Context.mem_writes_of_mem {context : Context} {w : UInt32 × UInt64}
    (hw : w ∈ branchWrites 0 context.entries) : w ∈ context.writes :=
  List.mem_cons_of_mem _ (List.mem_cons_of_mem _ hw)

/-- The writes that put a context back leave its stack on the cpu. -/
theorem Context.stack_writeAll {context : Context} (h : context.capacity ≤ 64) (bank : SoftBank)
    (cpu : Nat) :
    (bank.writeAll cpu context.writes).stack cpu context.capacity = context.stack := by
  have hnd := Context.nodup_writes h
  have hbranches : (List.range context.capacity).map (fun i =>
      (bank.writeAll cpu context.writes).branch cpu (UInt32.ofNat i)) = context.entries := by
    refine List.ext_getElem (by simp [capacity]) fun i hi hi' => ?_
    obtain ⟨hs, ht⟩ := mem_branchWrites 0 (List.getElem?_eq_getElem hi')
    rw [UInt32.zero_add] at hs ht
    rw [List.getElem_map, List.getElem_range, SoftBank.branch,
      SoftBank.read_writeAll_of_mem hnd (mem_writes_of_mem hs),
      SoftBank.read_writeAll_of_mem hnd (mem_writes_of_mem ht)]
  have hselect : (Msr.select, context.select.bits) ∈ context.writes := List.mem_cons_self
  have htos : (Msr.tos, context.tos) ∈ context.writes :=
    List.mem_cons_of_mem _ List.mem_cons_self
  rw [SoftBank.stack, Context.stack, hbranches, SoftBank.read_writeAll_of_mem hnd hselect,
    SoftBank.read_writeAll_of_mem hnd htos]

/-! ## Moving contexts -/

namespace Machine

variable {m : Machine} {bank : SoftBank}

theorem rdmsr_soft (hb : m.bank = .soft bank) (cpu : Nat) (msr : UInt32) :
    (rdmsr cpu msr m).2.bank = m.bank ∧ m.Stays (rdmsr cpu msr m).2 ∧
      ∀ value, (rdmsr cpu msr m).1 = .ok value → value = bank.read cpu msr := by
  simp only [rdmsr, hb]
  rcases guarded_cases .rdmsr (pure (bank.read cpu msr)) m with ⟨e, faults, h⟩ | ⟨faults, h⟩
  · rw [h]
    exact ⟨hb, ⟨rfl, rfl, rfl⟩, fun value hv => by cases hv⟩
  · rw [h]
    exact ⟨hb, ⟨rfl, rfl, rfl⟩, fun value hv => by cases hv; rfl⟩

theorem wrmsr_soft (hb : m.bank = .soft bank) (cpu : Nat) (msr : UInt32) (value : UInt64) :
    (wrmsr cpu msr value m).1 = .ok () →
      (wrmsr cpu msr value m).2.bank = .soft (bank.write cpu msr value) := by
  simp only [wrmsr, hb]
  rcases guarded_cases .wrmsr
      (fun m => (.ok (), { m with bank := .soft (bank.write cpu msr value) })) m with
    ⟨e, faults, h⟩ | ⟨faults, h⟩
  · rw [h]
    exact fun hv => by cases hv
  · rw [h]
    exact fun _ => rfl

/-- If none of the writes fails, the bank is as after all of them in order. -/
theorem wrmsrAll_soft (hb : m.bank = .soft bank) (cpu : Nat) {writes : List (UInt32 × UInt64)}
    (hok : (wrmsrAll cpu writes m).1 = .ok ()) :
    (wrmsrAll cpu writes m).2.bank = .soft (bank.writeAll cpu writes) := by
  induction writes generalizing m bank with
  | nil => exact hb
  | cons w writes ih =>
    have hw := wrmsr_soft hb cpu w.1 w.2
    rw [wrmsrAll, Action.bind_apply] at hok ⊢
    generalize wrmsr cpu w.1 w.2 m = written at hw hok ⊢
    obtain ⟨e | _, m'⟩ := written
    · cases hok
    · exact ih (hw rfl) hok

end Machine

namespace Lbr

variable {m : Machine} {bank : SoftBank}

theorem readBranches_soft (hb : m.bank = .soft bank) (cpu : Nat) (index : UInt32)
    (branches : List Branch) :
    (readBranches cpu index branches m).2.bank = m.bank ∧
      m.Stays (readBranches cpu index branches m).2 ∧
      ((readBranches cpu index branches m).1.1 = .ok () →
        (readBranches cpu index branches m).1.2 =
          (List.range branches.length).map fun i => bank.branch cpu (index + UInt32.ofNat i)) := by
  induction branches generalizing index m with
  | nil => exact ⟨rfl, ⟨rfl, rfl, rfl⟩, fun _ => rfl⟩
  | cons branch rest ih =>
    obtain ⟨hbs, hss, hvs⟩ := Machine.rdmsr_soft hb cpu (Msr.source index)
    rw [readBranches_cons]
    generalize Machine.rdmsr cpu (Msr.source index) m = read at hbs hss hvs ⊢
    obtain ⟨e | source, m'⟩ := read
    · exact ⟨hbs, hss, fun h => by cases h⟩
    obtain ⟨hbt, hst, hvt⟩ := Machine.rdmsr_soft (hbs.trans hb) cpu (Msr.target index)
    dsimp only at hbs hss ⊢
    generalize Machine.rdmsr cpu (Msr.target index) m' = read at hbt hst hvt ⊢
    obtain ⟨e | target, m''⟩ := read
    · exact ⟨hbt.trans hbs, hss.trans hst, fun h => by cases h⟩
    dsimp only at hbt hst ⊢
    obtain ⟨hbr, hsr, hvr⟩ := ih (hbt.trans (hbs.trans hb)) (index + 1)
    generalize readBranches cpu (index + 1) rest m'' = read at hbr hsr hvr ⊢
    obtain ⟨⟨r, read⟩, n⟩ := read
    dsimp only at hbr hsr hvr ⊢
    refine ⟨hbr.trans (hbt.trans hbs), hss.trans (hst.trans hsr), fun hok => ?_⟩
    rw [hvr hok, hvs source rfl, hvt target rfl, List.length_cons, List.range_succ_eq_map,
      List.map_cons, List.map_map]
    refine congrArg₂ List.cons ?_ (List.map_congr_left fun i _ => ?_)
    · rw [SoftBank.branch, show index + UInt32.ofNat 0 = index from UInt32.add_zero index]
    · rw [add_one_add_ofNat]
      rfl

/-- A save touches no register, and leaves the stack of the cpu in the context if it succeeds. -/
theorem save_soft (hb : m.bank = .soft bank) (cpu : Nat) (context : Context) :
    (save cpu context m).2.bank = m.bank ∧ m.Stays (save cpu context m).2 ∧
      ((save cpu context m).1.1 = .ok () →
        (save cpu context m).1.2.stack = bank.stack cpu context.capacity) := by
  obtain ⟨hbs, hss, hvs⟩ := Machine.rdmsr_soft hb cpu Msr.select
  rw [save_apply]
  generalize Machine.rdmsr cpu Msr.select m = read at hbs hss hvs ⊢
  obtain ⟨e | bits, m'⟩ := read
  · exact ⟨hbs, hss, fun h => by cases h⟩
  obtain ⟨hbt, hst, hvt⟩ := Machine.rdmsr_soft (hbs.trans hb) cpu Msr.tos
  dsimp only at hbs hss ⊢
  generalize Machine.rdmsr cpu Msr.tos m' = read at hbt hst hvt ⊢
  obtain ⟨e | tos, m''⟩ := read
  · exact ⟨hbt.trans hbs, hss.trans hst, fun h => by cases h⟩
  dsimp only at hbt hst ⊢
  obtain ⟨hbr, hsr, hvr⟩ := readBranches_soft (hbt.trans (hbs.trans hb)) cpu 0 context.entries
  generalize readBranches cpu 0 context.entries m'' = read at hbr hsr hvr ⊢
  obtain ⟨⟨r, entries⟩, n⟩ := read
  dsimp only at hbr hsr hvr ⊢
  refine ⟨hbr.trans (hbt.trans hbs), hss.trans (hst.trans hsr), fun hok => ?_⟩
  rw [Context.stack, SoftBank.stack, hvr hok, hvs bits rfl, hvt tos rfl]
  simp only [UInt32.zero_add, Context.capacity]

/-- A restore that succeeds leaves the stack of the context on the cpu. -/
theorem restore_soft (hb : m.bank = .soft bank) (cpu : Nat) {context : Context}
    (h64 : context.capacity ≤ 64) (hok : (restore cpu context m).1 = .ok ()) :
    ∃ bank', (restore cpu context m).2.bank = .soft bank' ∧
      bank'.stack cpu context.capacity = context.stack :=
  ⟨_, Machine.wrmsrAll_soft hb cpu hok, Context.stack_writeAll h64 bank cpu⟩

end Lbr

end BranchTrace
