import BranchTrace.Lbr.Context
import BranchTrace.Proofs.Text.Digits

/-!
# Snapshots in a dump

The text of a snapshot is all that a reader of a dump sees. Its lines are told apart by the line
breaks, since no field has one in it; the first three and the last are always there, so what is
between them is the branches; and each line shows its number in full.

Main statement: `Snapshot.text_inj`.
-/

namespace BranchTrace

namespace Snapshot

theorem oneLine_branchLines (index : Nat) (branch : Branch) :
    ∀ line ∈ branchLines index branch, Text.OneLine line := by
  have hliteral : Text.OneLine "MSR_LBR_NHM_FROM" ∧ Text.OneLine "MSR_LBR_NHM_TO  " ∧
      Text.OneLine "[" ∧ Text.OneLine "]: " := by decide
  simp only [branchLines, List.forall_mem_cons, Text.oneLine_append, hliteral,
    Text.oneLine_padded, Text.oneLine_hex, List.not_mem_nil, false_imp_iff, implies_true, and_self]

theorem oneLine_entryLines (index : Nat) (entries : List Branch) :
    ∀ line ∈ entryLines index entries, Text.OneLine line := by
  induction entries generalizing index with
  | nil => exact fun _ h => absurd h List.not_mem_nil
  | cons branch rest ih =>
    rw [entryLines]
    exact List.forall_mem_append.mpr ⟨oneLine_branchLines index branch, ih (index + 1)⟩

theorem oneLine_lines (snapshot : Snapshot) : ∀ line ∈ snapshot.lines, Text.OneLine line := by
  have hliteral : Text.OneLine "PROC_PID:             " ∧ Text.OneLine "MSR_LBR_SELECT:       " ∧
      Text.OneLine "MSR_LBR_TOS:          " ∧ Text.OneLine "LBR info for cpu: " := by decide
  simp only [lines, List.forall_mem_append, List.forall_mem_cons, Text.oneLine_append, hliteral,
    Text.oneLine_toString, Text.oneLine_hex, List.not_mem_nil, false_imp_iff, implies_true,
    and_self, true_and, and_true]
  exact oneLine_entryLines 0 snapshot.entries

theorem branchLines_inj {index : Nat} {branch branch' : Branch}
    (h : branchLines index branch = branchLines index branch') : branch = branch' := by
  simp only [branchLines, List.cons.injEq, String.append_right_inj, Text.hex_inj,
    UInt64.toNat_inj, and_true] at h
  cases branch
  cases branch'
  simp_all

/-- Lines of branches with one more line after them tell the branches and that line. -/
theorem entryLines_inj {index : Nat} {entries entries' : List Branch} {last last' : String}
    (h : entryLines index entries ++ [last] = entryLines index entries' ++ [last']) :
    entries = entries' ∧ last = last' := by
  induction entries generalizing index entries' with
  | nil =>
    cases entries' with
    | nil => exact ⟨rfl, List.singleton_inj.mp h⟩
    | cons branch' rest' =>
      have hlen := congrArg List.length h
      simp [entryLines, branchLines] at hlen
  | cons branch rest ih =>
    cases entries' with
    | nil =>
      have hlen := congrArg List.length h
      simp [entryLines, branchLines] at hlen
    | cons branch' rest' =>
      rw [entryLines, entryLines, List.append_assoc, List.append_assoc] at h
      obtain ⟨hbranch, hrest⟩ := List.append_inj h rfl
      obtain ⟨rfl, hlast⟩ := ih hrest
      exact ⟨by rw [branchLines_inj hbranch], hlast⟩

theorem lines_injective {snapshot snapshot' : Snapshot} (h : snapshot.lines = snapshot'.lines) :
    snapshot = snapshot' := by
  obtain ⟨pid, cpu, ⟨bits⟩, tos, entries⟩ := snapshot
  obtain ⟨pid', cpu', ⟨bits'⟩, tos', entries'⟩ := snapshot'
  rw [lines, lines, List.append_assoc, List.append_assoc] at h
  obtain ⟨hhead, htail⟩ := List.append_inj h rfl
  obtain ⟨rfl, hcpu⟩ := entryLines_inj htail
  simp only [List.cons.injEq, String.append_right_inj, Text.toString_inj, Text.hex_inj,
    UInt32.toNat_inj, UInt64.toNat_inj, and_true] at hhead hcpu
  obtain ⟨rfl, rfl, rfl⟩ := hhead
  obtain rfl := hcpu
  rfl

/-- The text of a snapshot tells all of it. -/
theorem text_inj (snapshot snapshot' : Snapshot) :
    snapshot.text = snapshot'.text ↔ snapshot = snapshot' := by
  have hne : ∀ snapshot : Snapshot, snapshot.lines ≠ [] := fun _ => List.cons_ne_nil _ _
  rw [text, text, Text.lines_inj snapshot.oneLine_lines snapshot'.oneLine_lines (hne _) (hne _)]
  exact ⟨lines_injective, congrArg lines⟩

end Snapshot

end BranchTrace
