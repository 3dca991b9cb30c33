import BranchTrace.Text.Numeral
import Mathlib.Data.Nat.Digits.Defs
import Mathlib.Data.List.Forall2
import Mathlib.Tactic.SplitIfs

/-!
# What is a numeral

A numeral of a base is perhaps a sign and then digits of the base, and it stands for what their
positions make of them (`Written`). Reading it from the left takes the value so far for one more
digit in front of the rest (`parseDigits_eq_ok_iff`): the value never falls, so a numeral is refused
as soon as some part of it reaches the bound, and not otherwise.

Main statements: `parseMarked_eq_ok_iff`, and `parseMarked_words` for the two widths that options
have.
-/

namespace BranchTrace.Text.Numeral

/-! ## Grammar -/

/-- A character is written for a digit of a base, in either case. -/
def Denotes (base : Nat) (c : Char) (d : Nat) : Prop :=
  d < base ∧ (c = d.digitChar ∨ c = d.digitChar.toUpper)

/-- Digits of a base, at least one of them, and their value; the first is worth most. -/
def Digits (base : Nat) (cs : List Char) (n : Nat) : Prop :=
  cs ≠ [] ∧ ∃ values, List.Forall₂ (Denotes base) cs values ∧ n = Nat.ofDigits base values.reverse

/-- A numeral of a base and its value: perhaps a sign, and then digits. -/
def Written (base : Nat) (cs : List Char) (n : Nat) : Prop :=
  ∃ sign ∈ [[], ['+']], ∃ digits, cs = sign ++ digits ∧ Digits base digits n

/-- A text that is a numeral: a decimal one, or a hexadecimal one behind a marker. -/
def WrittenMarked (text : String) (n : Nat) : Prop :=
  Written 10 text.toList n ∨
    ∃ x ∈ ['x', 'X'], ∃ cs, text.toList = '0' :: x :: cs ∧ Written 16 cs n

/-! ## Digits -/

/-- The places of the digits among the characters. -/
theorem toNat_digitChar {d : Nat} (hd : d < 16) :
    d.digitChar.toNat = (if d < 10 then '0'.toNat + d else 'a'.toNat + d - 10) ∧
      d.digitChar.toUpper.toNat = (if d < 10 then '0'.toNat + d else 'A'.toNat + d - 10) := by
  revert d
  decide

theorem digit?_sixteen_eq_some_iff {c : Char} {d : Nat} :
    digit? 16 c = some d ↔ Denotes 16 c d := by
  constructor
  · intro h
    rw [digit?, Option.filter_eq_some_iff, decide_eq_true_eq] at h
    obtain ⟨hvalue, hlt⟩ := h
    refine ⟨hlt, ?_⟩
    rw [← Char.toNat_inj, ← Char.toNat_inj, (toNat_digitChar hlt).1, (toNat_digitChar hlt).2]
    have hplace : ∀ low high : Char, low ≤ c ∧ c ≤ high →
        low.toNat ≤ c.toNat ∧ c.toNat ≤ high.toNat := fun _ _ => id
    split_ifs at hvalue with hc hc hc
    all_goals
      replace hc := hplace _ _ hc
      simp only [Char.reduceToNat, Option.some.injEq] at hc hvalue ⊢
    · exact .inl (by split <;> omega)
    · exact .inl (by split <;> omega)
    · exact .inr (by split <;> omega)
  · rintro ⟨hlt, rfl | rfl⟩
    · revert d
      decide
    · revert d
      decide

section Reading

variable {base : Nat}

theorem digit?_eq_some_iff (hbase : base ≤ 16) {c : Char} {d : Nat} :
    digit? base c = some d ↔ Denotes base c d := by
  have hsixteen : digit? 16 c = some d ↔ Denotes 16 c d := digit?_sixteen_eq_some_iff
  rw [digit?, Option.filter_eq_some_iff, decide_eq_true_eq, Denotes] at hsixteen ⊢
  constructor
  · rintro ⟨hvalue, hlt⟩
    exact ⟨hlt, (hsixteen.mp ⟨hvalue, hlt.trans_le hbase⟩).2⟩
  · rintro ⟨hlt, hchar⟩
    exact ⟨(hsixteen.mpr ⟨hlt.trans_le hbase, hchar⟩).1, hlt⟩

theorem not_denotes_sign (hbase : base ≤ 16) (d : Nat) : ¬ Denotes base '+' d := by
  have hsign : digit? base '+' = none := rfl
  rw [← digit?_eq_some_iff hbase, hsign]
  exact nofun

/-- The digits that characters stand for, after the first of them. -/
theorem exists_denoted_cons (hbase : base ≤ 16) {c : Char} {cs : List Char} {p : List Nat → Prop} :
    (∃ values, List.Forall₂ (Denotes base) (c :: cs) values ∧ p values) ↔
      ∃ d, digit? base c = some d ∧
        ∃ values, List.Forall₂ (Denotes base) cs values ∧ p (d :: values) := by
  simp only [digit?_eq_some_iff hbase, List.forall₂_cons_left_iff]
  constructor
  · rintro ⟨_, ⟨d, values, hd, hvalues, rfl⟩, hp⟩
    exact ⟨d, hd, values, hvalues, hp⟩
  · rintro ⟨d, hd, values, hvalues, hp⟩
    exact ⟨_, ⟨d, values, hd, hvalues, rfl⟩, hp⟩

/-! ## Reading digits -/

/-- The value of a first digit and of the one after it, as one digit. -/
theorem ofDigits_reverse_cons_cons (a d : Nat) (ds : List Nat) :
    Nat.ofDigits base (a :: d :: ds).reverse = Nat.ofDigits base ((a * base + d) :: ds).reverse := by
  simp only [List.reverse_cons, Nat.ofDigits_append, Nat.ofDigits_singleton, List.length_append,
    List.length_singleton]
  ring

/-- The first digit is no more than the value. -/
theorem le_ofDigits_reverse_cons (hpos : 0 < base) (a : Nat) (ds : List Nat) :
    a ≤ Nat.ofDigits base (a :: ds).reverse := by
  rw [List.reverse_cons, Nat.ofDigits_append, Nat.ofDigits_singleton]
  exact (Nat.le_mul_of_pos_left a (Nat.pow_pos hpos)).trans (Nat.le_add_left _ _)

/-- Digits are read as the value so far and they make it, unless that reaches the bound. -/
theorem parseDigits_eq_ok_iff (hpos : 0 < base) (hbase : base ≤ 16)
    {bound acc n : Nat} {cs : List Char} (hacc : acc < bound) :
    parseDigits base bound acc cs = .ok n ↔
      ∃ values, List.Forall₂ (Denotes base) cs values ∧
        n = Nat.ofDigits base (acc :: values).reverse ∧ n < bound := by
  induction cs generalizing acc with
  | nil =>
    simp only [parseDigits, List.forall₂_nil_left_iff, exists_eq_left, List.reverse_singleton,
      Nat.ofDigits_singleton, Except.ok.injEq]
    constructor
    · rintro rfl
      exact ⟨rfl, hacc⟩
    · rintro ⟨rfl, -⟩
      rfl
  | cons c cs ih =>
    rw [parseDigits, exists_denoted_cons hbase]
    cases digit? base c with
    | none => simp
    | some d =>
      simp only [Option.some.injEq, exists_eq_left', ofDigits_reverse_cons_cons]
      split
      case isTrue hlt => exact ih hlt
      case isFalse hge =>
        -- what follows takes nothing off a value that is too great
        refine iff_of_false nofun ?_
        rintro ⟨values, -, rfl, hbound⟩
        exact hge ((le_ofDigits_reverse_cons hpos _ _).trans_lt hbound)

theorem parseDigits_zero_eq_ok_iff (hpos : 0 < base) (hbase : base ≤ 16) {bound n : Nat}
    {cs : List Char} (hbound : 0 < bound) (hne : cs ≠ []) :
    parseDigits base bound 0 cs = .ok n ↔ Digits base cs n ∧ n < bound := by
  simp only [parseDigits_eq_ok_iff hpos hbase hbound, List.reverse_cons, Nat.ofDigits_append,
    Nat.ofDigits_singleton, Nat.mul_zero, Nat.add_zero, Digits, hne, ne_eq, not_false_eq_true,
    true_and, ← and_assoc, exists_and_right]

/-! ## Signs -/

theorem not_digits_sign_cons (hbase : base ≤ 16) (cs : List Char) (n : Nat) :
    ¬ Digits base ('+' :: cs) n := by
  rintro ⟨-, _, hvalues, -⟩
  obtain ⟨d, _, hd, -, -⟩ := List.forall₂_cons_left_iff.mp hvalues
  exact not_denotes_sign hbase d hd

theorem written_sign_cons (hbase : base ≤ 16) {cs : List Char} {n : Nat} :
    Written base ('+' :: cs) n ↔ Digits base cs n := by
  constructor
  · rintro ⟨sign, hsign, digits, hcs, hdigits⟩
    rcases List.mem_pair.mp hsign with rfl | rfl
    · obtain rfl : '+' :: cs = digits := hcs
      exact absurd hdigits (not_digits_sign_cons hbase cs n)
    · obtain rfl : cs = digits := List.tail_eq_of_cons_eq hcs
      exact hdigits
  · intro h
    exact ⟨['+'], by simp, cs, rfl, h⟩

theorem written_of_unsigned {cs : List Char} {n : Nat} (h : ∀ digits, cs ≠ '+' :: digits) :
    Written base cs n ↔ Digits base cs n := by
  constructor
  · rintro ⟨sign, hsign, digits, rfl, hdigits⟩
    rcases List.mem_pair.mp hsign with rfl | rfl
    · exact hdigits
    · exact absurd rfl (h digits)
  · intro h
    exact ⟨[], by simp, cs, rfl, h⟩

theorem parseChars_eq_ok_iff (hpos : 0 < base) (hbase : base ≤ 16) {bound n : Nat}
    (hbound : 0 < bound) (cs : List Char) :
    parseChars base bound cs = .ok n ↔ Written base cs n ∧ n < bound := by
  fun_cases parseChars base bound cs with
  | case1 =>
    rw [written_of_unsigned (by simp)]
    exact iff_of_false nofun fun h => h.1.1 rfl
  | case2 =>
    rw [written_sign_cons hbase]
    exact iff_of_false nofun fun h => h.1.1 rfl
  | case3 cs hne =>
    rw [written_sign_cons hbase]
    exact parseDigits_zero_eq_ok_iff hpos hbase hbound hne
  | case4 cs hne _ hunsigned =>
    rw [written_of_unsigned hunsigned]
    exact parseDigits_zero_eq_ok_iff hpos hbase hbound hne

end Reading

/-! ## Markers -/

/-- A marker is no decimal numeral, however it goes on. -/
theorem not_written_marker {x : Char} (hx : x ∈ ['x', 'X']) (cs : List Char) (n : Nat) :
    ¬ Written 10 ('0' :: x :: cs) n := by
  rw [written_of_unsigned (by simp)]
  rintro ⟨-, _, hvalues, -⟩
  obtain ⟨_, _, -, hrest, -⟩ := List.forall₂_cons_left_iff.mp hvalues
  obtain ⟨d, _, hd, -, -⟩ := List.forall₂_cons_left_iff.mp hrest
  have hdigit : digit? 10 x = none := by
    rcases List.mem_pair.mp hx with rfl | rfl <;> rfl
  rw [← digit?_eq_some_iff (by decide), hdigit] at hd
  exact nomatch hd

/-- Numerals are read as what they stand for, unless that reaches the bound. -/
theorem parseMarked_eq_ok_iff {bound n : Nat} (hbound : 0 < bound) (text : String) :
    parseMarked bound text = .ok n ↔ WrittenMarked text n ∧ n < bound := by
  have hmarked : ∀ x ∈ ['x', 'X'], ∀ cs, text.toList = '0' :: x :: cs →
      (parseChars 16 bound cs = .ok n ↔ WrittenMarked text n ∧ n < bound) := by
    intro x hx cs hcs
    rw [parseChars_eq_ok_iff (by decide) (by decide) hbound, WrittenMarked, hcs,
      or_iff_right (not_written_marker hx cs n)]
    refine and_congr_left fun _ => ⟨fun h => ⟨x, hx, cs, rfl, h⟩, ?_⟩
    rintro ⟨_, -, _, heq, h⟩
    cases heq
    exact h
  fun_cases parseMarked bound text with
  | case1 cs hcs => exact hmarked 'x' (by simp) cs hcs
  | case2 cs hcs => exact hmarked 'X' (by simp) cs hcs
  | case3 hlower hupper =>
    have hunmarked : ¬ ∃ x ∈ ['x', 'X'], ∃ cs, text.toList = '0' :: x :: cs ∧ Written 16 cs n := by
      rintro ⟨x, hx, cs, hcs, -⟩
      rcases List.mem_pair.mp hx with rfl | rfl
      · exact hlower cs hcs
      · exact hupper cs hcs
    rw [parseChars_eq_ok_iff (by decide) (by decide) hbound, WrittenMarked,
      or_iff_left hunmarked]

/-- A text is read in 64 bits exactly if it is a numeral of a value that fits, and in 32 bits
exactly if it is read in 64 bits and fits. -/
theorem parseMarked_words (text : String) (n : Nat) :
    (parseMarked UInt64.size text = .ok n ↔ WrittenMarked text n ∧ n < 2 ^ 64) ∧
      (parseMarked UInt32.size text = .ok n ↔
        parseMarked UInt64.size text = .ok n ∧ n < 2 ^ 32) := by
  have hwide : parseMarked UInt64.size text = .ok n ↔ WrittenMarked text n ∧ n < 2 ^ 64 :=
    parseMarked_eq_ok_iff (by decide) text
  have hnarrow : parseMarked UInt32.size text = .ok n ↔ WrittenMarked text n ∧ n < 2 ^ 32 :=
    parseMarked_eq_ok_iff (by decide) text
  refine ⟨hwide, ?_⟩
  rw [hnarrow, hwide, and_assoc]
  have hfits : n < 2 ^ 32 → n < 2 ^ 64 := fun h => h.trans (by decide)
  exact and_congr_right fun _ => ⟨fun h => ⟨hfits h, h⟩, And.right⟩

-- the sign stands behind the marker, and zeros in front count for nothing
example : parseMarked UInt32.size "0X+0000000001fF" = .ok 511 := by decide

end BranchTrace.Text.Numeral
