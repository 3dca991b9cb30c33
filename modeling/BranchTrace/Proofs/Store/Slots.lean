import BranchTrace.Store.Basic
import Mathlib.Tactic.SplitIfs

/-!
# What stands in the slots

How the steps of an operation on the store change single slots: `member?` for what stands in a
slot, `handleAt` for its handle, and the two together, as a walk gives them, in `item?`.
`modify`, `link` and `unlink` change neighbours only, so they keep every `handleAt` and every
`context?`; `allocate` and `release` change one slot.
-/

namespace BranchTrace

namespace Store

variable (store : Store)

/-- The slot that follows one on the ring. -/
def next? (index : Nat) : Option Nat :=
  (store.member? index).map (·.next)

/-- The slot before one on the ring. -/
def prev? (index : Nat) : Option Nat :=
  (store.member? index).map (·.prev)

/-- The context in a slot. -/
def context? (index : Nat) : Option Context :=
  (store.member? index).map (·.context)

/-- The context in a slot, with its handle. -/
def item? (index : Nat) : Option (Handle × Context) :=
  (store.context? index).map fun context => (store.handleAt index, context)

/-- Whether something stands in a slot. -/
def Occupied (index : Nat) : Prop :=
  (store.member? index).isSome

instance (index : Nat) : Decidable (store.Occupied index) :=
  inferInstanceAs (Decidable (_ = true))

variable {store}

theorem Occupied.lt_size {index : Nat} (h : store.Occupied index) : index < store.slots.size := by
  refine Nat.lt_of_not_le fun hge => ?_
  rw [Occupied, member?, Array.getElem?_eq_none hge] at h
  exact absurd h (by simp)

theorem occupied_iff {index : Nat} : store.Occupied index ↔ ∃ m, store.member? index = some m :=
  Option.isSome_iff_exists

theorem occupied_iff_context? {index : Nat} :
    store.Occupied index ↔ (store.context? index).isSome := by
  simp [Occupied, context?]

@[simp] theorem handleAt_index (index : Nat) : (store.handleAt index).index = index := rfl

theorem item?_eq_some {index : Nat} {e : Handle × Context} :
    store.item? index = some e ↔ store.context? index = some e.2 ∧ e.1 = store.handleAt index := by
  rcases e with ⟨h, c⟩
  simp only [item?, Option.map_eq_some_iff, Prod.mk.injEq]
  constructor
  · rintro ⟨c, hc, rfl, rfl⟩
    exact ⟨hc, rfl⟩
  · rintro ⟨hc, rfl⟩
    exact ⟨c, hc, rfl, rfl⟩

/-! ## Changing what stands in a slot -/

theorem member?_modify (f : Member → Member) (index i : Nat) :
    (store.modify index f).member? i =
      if i = index then (store.member? i).map f else store.member? i := by
  simp only [modify, member?, Array.getElem?_modify, eq_comm (a := i)]
  split <;> cases store.slots[i]? <;> rfl

@[simp] theorem size_modify (index : Nat) (f : Member → Member) :
    (store.modify index f).slots.size = store.slots.size :=
  Array.size_modify

@[simp] theorem handleAt_modify (index : Nat) (f : Member → Member) (i : Nat) :
    (store.modify index f).handleAt i = store.handleAt i := by
  simp only [modify, handleAt, Array.getElem?_modify, Handle.mk.injEq, true_and]
  split <;> cases store.slots[i]? <;> rfl

@[simp] theorem free_modify (index : Nat) (f : Member → Member) :
    (store.modify index f).free = store.free := rfl

@[simp] theorem head_modify (index : Nat) (f : Member → Member) :
    (store.modify index f).head = store.head := rfl

@[simp] theorem len_modify (index : Nat) (f : Member → Member) :
    (store.modify index f).len = store.len := rfl

theorem occupied_modify {index : Nat} {f : Member → Member} {i : Nat} :
    (store.modify index f).Occupied i ↔ store.Occupied i := by
  rw [Occupied, member?_modify]
  split <;> simp [Occupied]

theorem context?_modify {f : Member → Member} (hf : ∀ m, (f m).context = m.context)
    (index i : Nat) : (store.modify index f).context? i = store.context? i := by
  rw [context?, member?_modify]
  split
  · rw [Option.map_map, context?]
    exact Option.map_congr fun m _ => hf m
  · rfl

/-- A slot keeps its context and its handle. -/
theorem item?_congr {store' : Store} {i : Nat} (hc : store'.context? i = store.context? i)
    (hh : store'.handleAt i = store.handleAt i) : store'.item? i = store.item? i := by
  rw [item?, hc, hh, item?]

/-! ## Changing neighbours -/

@[simp] theorem context?_link (index i : Nat) :
    (store.link index).context? i = store.context? i := by
  unfold link
  split
  · exact context?_modify (by simp) index i
  · rw [context?_modify (by simp), context?_modify (by simp), context?_modify (by simp)]

@[simp] theorem handleAt_link (index i : Nat) :
    (store.link index).handleAt i = store.handleAt i := by
  unfold link
  split
  · exact handleAt_modify index _ i
  · simp

@[simp] theorem size_link (index : Nat) :
    (store.link index).slots.size = store.slots.size := by
  unfold link
  split
  · exact size_modify index _
  · simp

@[simp] theorem free_link (index : Nat) : (store.link index).free = store.free := by
  unfold link
  split <;> simp

@[simp] theorem len_link (index : Nat) : (store.link index).len = store.len := by
  unfold link
  split <;> simp

@[simp] theorem context?_unlink (index i : Nat) :
    (store.unlink index).context? i = store.context? i := by
  unfold unlink
  split
  · rfl
  · show ((store.modify _ _).modify _ _).context? i = store.context? i
    rw [context?_modify (by simp), context?_modify (by simp)]

@[simp] theorem handleAt_unlink (index i : Nat) :
    (store.unlink index).handleAt i = store.handleAt i := by
  unfold unlink
  split
  · rfl
  · show ((store.modify _ _).modify _ _).handleAt i = store.handleAt i
    simp

@[simp] theorem size_unlink (index : Nat) :
    (store.unlink index).slots.size = store.slots.size := by
  unfold unlink
  split <;> simp

@[simp] theorem free_unlink (index : Nat) : (store.unlink index).free = store.free := by
  unfold unlink
  split <;> simp

/-- The neighbours of all slots after a slot is put before the head. -/
theorem member?_link_of_head {head : Nat} (hh : store.head = some head) {z : Nat}
    (hz : store.prev? head = some z) (index i : Nat) :
    (store.link index).member? i = (store.member? i).map fun m =>
      { m with
        next := if i = index then head else if i = z then index else m.next
        prev := if i = head then index else if i = index then z else m.prev } := by
  have ht : ((store.member? head).map (·.prev)).getD head = z := by
    rw [show (store.member? head).map (·.prev) = some z from hz]; rfl
  simp only [link, hh, ht, member?_modify]
  cases store.member? i with
  | none => simp
  | some k => simp only [Option.map_some]; split_ifs <;> simp_all

theorem member?_link_of_none (hh : store.head = none) (index i : Nat) :
    (store.link index).member? i = (store.member? i).map fun m =>
      { m with
        next := if i = index then index else m.next
        prev := if i = index then index else m.prev } := by
  have hm : (store.link index).member? i =
      (store.modify index fun m => { m with prev := index, next := index }).member? i := by
    simp only [link, hh]; rfl
  rw [hm, member?_modify]
  cases store.member? i with
  | none => simp
  | some k => simp only [Option.map_some]; split_ifs <;> simp_all

/-- The neighbours of all slots after one is taken off the ring. -/
theorem member?_unlink {index : Nat} {m : Member} (hm : store.member? index = some m) (i : Nat) :
    (store.unlink index).member? i = (store.member? i).map fun k =>
      { k with
        next := if i = m.prev then m.next else k.next
        prev := if i = m.next then m.prev else k.prev } := by
  have hs : (store.unlink index).member? i =
      ((store.modify m.prev fun p => { p with next := m.next }).modify m.next
        fun n => { n with prev := m.prev }).member? i := by
    simp only [unlink, hm]; rfl
  rw [hs, member?_modify, member?_modify]
  cases store.member? i with
  | none => simp
  | some k => simp only [Option.map_some]; split_ifs <;> simp_all

end Store

end BranchTrace
