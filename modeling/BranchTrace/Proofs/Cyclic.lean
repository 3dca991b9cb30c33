import Mathlib.Data.List.Chain

/-!
# Cyclic chains

A list whose neighbours are related, and whose last entry is related to the first: the shape of a
ring of slots. What the store needs of it: a ring may be read from any of its entries
(`Cyclic.append_comm`) and in either direction (`cyclic_reverse`), an entry can be taken out
(`Cyclic.bypass`), and one can be put before the first (`Cyclic.append_singleton`).
-/

namespace BranchTrace

variable {α : Type} {R S : α → α → Prop}

/-- Neighbours in the list are related, and the last entry is related to the first. -/
structure Cyclic (R : α → α → Prop) (l : List α) : Prop where
  chain : l.IsChain R
  closed : ∀ z ∈ l.getLast?, ∀ a ∈ l.head?, R z a

theorem cyclic_nil : Cyclic R [] :=
  ⟨.nil, by simp⟩

theorem cyclic_singleton {a : α} : Cyclic R [a] ↔ R a a :=
  ⟨fun h => h.closed a rfl a rfl, fun h => ⟨.singleton a, by simpa using h⟩⟩

/-- A ring may be read from any of its entries. -/
theorem Cyclic.append_comm {l r : List α} (h : Cyclic R (l ++ r)) : Cyclic R (r ++ l) := by
  rcases eq_or_ne l [] with rfl | hl
  · simpa using h
  rcases eq_or_ne r [] with rfl | hr
  · simpa using h
  obtain ⟨hc, he⟩ := h
  obtain ⟨cl, cr, hlr⟩ := List.isChain_append.mp hc
  rw [List.getLast?_append_of_ne_nil _ hr, List.head?_append_of_ne_nil _ hl] at he
  refine ⟨List.isChain_append.mpr ⟨cr, cl, he⟩, ?_⟩
  rw [List.getLast?_append_of_ne_nil _ hl, List.head?_append_of_ne_nil _ hr]
  exact hlr

/-- A ring may be read backwards. -/
theorem cyclic_reverse {l : List α} : Cyclic R l.reverse ↔ Cyclic (fun a b => R b a) l := by
  constructor
  · rintro ⟨hc, he⟩
    rw [List.getLast?_reverse, List.head?_reverse] at he
    exact ⟨List.isChain_reverse.mp hc, fun z hz a ha => he a ha z hz⟩
  · rintro ⟨hc, he⟩
    refine ⟨List.isChain_reverse.mpr hc, ?_⟩
    rw [List.getLast?_reverse, List.head?_reverse]
    exact fun z hz a ha => he a ha z hz

/-- The first entry, then the others from the last. -/
def backwards : List α → List α
  | [] => []
  | a :: l => a :: l.reverse

theorem backwards_map {β : Type} (f : α → β) (l : List α) :
    backwards (l.map f) = (backwards l).map f := by
  cases l with
  | nil => rfl
  | cons a l => exact congrArg (f a :: ·) List.map_reverse.symm

theorem backwards_perm (l : List α) : (backwards l).Perm l := by
  cases l with
  | nil => rfl
  | cons a l => exact (List.reverse_perm l).cons a

theorem Cyclic.backwards {l : List α} (h : Cyclic R l) :
    Cyclic (fun a b => R b a) (backwards l) := by
  cases l with
  | nil => exact cyclic_nil
  | cons a l =>
    -- read from its second entry, the ring ends with `a`, and backwards it starts there
    have hc : Cyclic R (l ++ [a]) := Cyclic.append_comm h
    have hr : Cyclic (fun a b => R b a) (l ++ [a]).reverse := cyclic_reverse.mpr hc
    simpa [BranchTrace.backwards] using hr

theorem Cyclic.imp_of_mem {l : List α} (hRS : ∀ a ∈ l, ∀ b ∈ l, R a b → S a b)
    (h : Cyclic R l) : Cyclic S l where
  chain := h.chain.imp_of_mem_imp fun a b ha hb => hRS a ha b hb
  closed z hz a ha :=
    hRS z (List.mem_of_getLast? hz) a (List.mem_of_head? ha) (h.closed z hz a ha)

theorem Cyclic.exists_prev {l : List α} (h : Cyclic R l) {x : α} (hx : x ∈ l) :
    ∃ p ∈ l, R p x := by
  obtain ⟨a, b, rfl⟩ := List.append_of_mem hx
  -- read from `x`, its predecessor is the last entry
  have hc : Cyclic R (x :: b ++ a) := h.append_comm
  refine ⟨(x :: b ++ a).getLast (by simp), ?_,
    hc.closed _ (List.getLast?_eq_getLast_of_ne_nil _) x rfl⟩
  exact (List.perm_append_comm.mem_iff).mp (List.getLast_mem _)

theorem Cyclic.exists_next {l : List α} (h : Cyclic R l) {x : α} (hx : x ∈ l) :
    ∃ n ∈ l, R x n := by
  have hr : Cyclic (fun a b => R b a) l.reverse := cyclic_reverse.mpr h
  obtain ⟨n, hn, hxn⟩ := hr.exists_prev (List.mem_reverse.mpr hx)
  exact ⟨n, List.mem_reverse.mp hn, hxn⟩

/-- Taking the first entry out of a ring of several. -/
theorem Cyclic.bypass {x : α} {l : List α} (h : Cyclic R (x :: l)) (hne : l ≠ [])
    (hkeep : ∀ a ∈ l, ∀ b ∈ l, R a b → S a b) (hjoin : ∀ p n, R p x → R x n → S p n) :
    Cyclic S l := by
  obtain ⟨hc, he⟩ := h
  obtain ⟨hx, hl⟩ := List.isChain_cons.mp hc
  refine ⟨hl.imp_of_mem_imp fun a b ha hb => hkeep a ha b hb, fun z hz a ha => ?_⟩
  refine hjoin z a (he z ?_ x rfl) (hx a ha)
  cases l with
  | nil => exact absurd rfl hne
  | cons b l => simpa using hz

/-- Putting an entry between the last and the first. -/
theorem Cyclic.append_singleton {x : α} {l : List α} (h : Cyclic R l) (hne : l ≠ [])
    (hkeep : ∀ a ∈ l, ∀ b ∈ l.tail, R a b → S a b) (hlast : ∀ z ∈ l.getLast?, S z x)
    (hfirst : ∀ a ∈ l.head?, S x a) : Cyclic S (l ++ [x]) := by
  refine ⟨List.isChain_append.mpr ⟨h.chain.imp_of_mem_tail_imp fun a b ha hb => hkeep a ha b hb,
    .singleton x, fun z hz y hy => ?_⟩, fun z hz a ha => ?_⟩
  · obtain rfl : y = x := by simpa using hy.symm
    exact hlast z hz
  · obtain rfl : z = x := by simpa using hz.symm
    rw [List.head?_append_of_ne_nil _ hne] at ha
    exact hfirst a ha

end BranchTrace
