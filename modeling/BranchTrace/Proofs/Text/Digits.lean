import BranchTrace.Text.Hex
import Mathlib.Data.List.TakeDrop
import Mathlib.Data.String.Basic

/-!
# Numbers and lines in a text

The digits of a number tell which number it is (`toDigits_injective`), and there is no line break
among them. A text tells the lines it was put together from, as long as none of them has a line
break in it (`OneLine`).

Main statements: `toString_inj`, `hex_inj` and `lines_inj`.
-/

namespace BranchTrace.Text

/-! ## Digits -/

section Digits

variable {base : Nat} (hlow : 1 < base)
include hlow

/-- The last digit of a number, and those before it. -/
theorem toDigits_eq_append (n : Nat) :
    Nat.toDigits base n =
      (if n < base then [] else Nat.toDigits base (n / base)) ++ [(n % base).digitChar] := by
  rw [Nat.toDigits_eq_if hlow]
  split
  · rw [Nat.mod_eq_of_lt ‹_›, List.nil_append]
  · rfl

theorem mem_toDigits {n : Nat} {c : Char} (h : c ∈ Nat.toDigits base n) :
    ∃ d < base, c = d.digitChar := by
  induction n using Nat.strongRecOn with
  | ind n ih =>
    rw [toDigits_eq_append hlow, List.mem_append] at h
    rcases h with h | h
    · split at h
      · exact absurd h List.not_mem_nil
      · exact ih (n / base) (Nat.div_lt_self (by omega) hlow) h
    · exact ⟨n % base, Nat.mod_lt n (by omega), List.mem_singleton.mp h⟩

/-- Two numbers with the same digits are the same. -/
theorem toDigits_injective (hhigh : base ≤ 16) {m n : Nat}
    (h : Nat.toDigits base m = Nat.toDigits base n) : m = n := by
  have hdigit : ∀ d < 16, ∀ e < 16, d.digitChar = e.digitChar → d = e := by decide
  have hmod : ∀ k, k % base < 16 := fun k => (Nat.mod_lt k (by omega)).trans_le hhigh
  induction m using Nat.strongRecOn generalizing n with
  | ind m ih =>
    rw [toDigits_eq_append hlow m, toDigits_eq_append hlow n] at h
    obtain ⟨hinit, hlast⟩ := List.append_inj' h rfl
    have hrest : m % base = n % base :=
      hdigit _ (hmod m) _ (hmod n) (List.singleton_inj.mp hlast)
    by_cases hm : m < base <;> by_cases hn : n < base
    · rwa [Nat.mod_eq_of_lt hm, Nat.mod_eq_of_lt hn] at hrest
    · rw [if_pos hm, if_neg hn] at hinit
      exact absurd hinit.symm Nat.toDigits_ne_nil
    · rw [if_neg hm, if_pos hn] at hinit
      exact absurd hinit Nat.toDigits_ne_nil
    · rw [if_neg hm, if_neg hn] at hinit
      have hquot := ih (m / base) (Nat.div_lt_self (by omega) hlow) hinit
      rw [← Nat.div_add_mod m base, hquot, hrest, Nat.div_add_mod]

end Digits

theorem toString_inj {m n : Nat} : toString m = toString n ↔ m = n := by
  refine ⟨fun h => ?_, congrArg toString⟩
  have hlist := congrArg String.toList h
  rw [Nat.toString_eq_repr, Nat.toString_eq_repr, Nat.toList_repr, Nat.toList_repr] at hlist
  exact toDigits_injective (by decide) (by decide) hlist

theorem hex_inj {m n : Nat} : hex m = hex n ↔ m = n := by
  refine ⟨fun h => ?_, congrArg hex⟩
  have hlist := congrArg String.toList h
  rw [hex_toList, hex_toList, List.cons_inj_right, List.cons_inj_right] at hlist
  exact toDigits_injective (by decide) (by decide) hlist

/-! ## Lines -/

/-- There is no line break in a text. -/
def OneLine (text : String) : Prop :=
  '\n' ∉ text.toList

instance (text : String) : Decidable (OneLine text) :=
  inferInstanceAs (Decidable ('\n' ∉ text.toList))

theorem oneLine_append {a b : String} : OneLine (a ++ b) ↔ OneLine a ∧ OneLine b := by
  simp only [OneLine, String.toList_append, List.mem_append, not_or]

theorem not_mem_toDigits {base : Nat} (hlow : 1 < base) (n : Nat) :
    '\n' ∉ Nat.toDigits base n := by
  intro h
  obtain ⟨d, -, hd⟩ := mem_toDigits hlow h
  exact Nat.digitChar_ne '\n' (by decide) hd.symm

theorem oneLine_toString (n : Nat) : OneLine (toString n) := by
  rw [OneLine, Nat.toString_eq_repr, Nat.toList_repr]
  exact not_mem_toDigits (by decide) n

theorem oneLine_hex (n : Nat) : OneLine (hex n) := by
  rw [OneLine, hex_toList, List.mem_cons, List.mem_cons]
  simp [not_mem_toDigits]

theorem oneLine_padded (width n : Nat) : OneLine (padded width n) := by
  rw [OneLine, padded, String.toList_ofList, List.mem_append, not_or]
  refine ⟨fun h => ?_, not_mem_toDigits (by decide) n⟩
  exact absurd (List.eq_of_mem_replicate h) (by decide)

/-- Lines put together are the same text only if they are the same lines. -/
theorem lines_inj {lines lines' : List String} (hlines : ∀ line ∈ lines, OneLine line)
    (hlines' : ∀ line ∈ lines', OneLine line) (hne : lines ≠ []) (hne' : lines' ≠ []) :
    "\n".intercalate lines = "\n".intercalate lines' ↔ lines = lines' := by
  have hsplit : ∀ lines : List String, (∀ line ∈ lines, OneLine line) → lines ≠ [] →
      ("\n".intercalate lines).toList.splitOn '\n' = lines.map String.toList := by
    intro lines hone hne
    rw [String.toList_intercalate]
    refine List.splitOn_intercalate '\n' (fun line hmem => ?_) (mt List.map_eq_nil_iff.mp hne)
    obtain ⟨line, hline, rfl⟩ := List.mem_map.mp hmem
    exact hone line hline
  refine ⟨fun h => ?_, congrArg _⟩
  have hpieces := congrArg (fun text : String => text.toList.splitOn '\n') h
  rw [hsplit lines hlines hne, hsplit lines' hlines' hne'] at hpieces
  exact List.map_injective_iff.mpr (fun _ _ => String.toList_injective) hpieces

end BranchTrace.Text
