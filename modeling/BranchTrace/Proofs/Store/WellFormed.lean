import BranchTrace.Proofs.Cyclic
import BranchTrace.Proofs.Store.Slots
import Mathlib.Data.List.Nodup

/-!
# Well-formed stores

`WellFormed` is what every operation on the store relies on and keeps: one ring that visits each
occupied slot once, and a stack of free slots that holds each of the others once. `Threaded` is
the part about the ring alone, which also holds halfway through a removal, when slots are off the
ring and not yet free.

The steps of the operations: `Threaded.link` and `Threaded.unlink` for the ring, `Allocated` for a
slot taken into use, `Released` for slots given back.
-/

namespace BranchTrace

namespace Store

/-- Two slots point to each other as neighbours. -/
def Links (store : Store) (i j : Nat) : Prop :=
  store.next? i = some j ∧ store.prev? j = some i

/-- The slots that hang together under `head`, from the oldest to the newest. -/
structure Threaded (store : Store) (ring : List Nat) : Prop where
  nodup : ring.Nodup
  head : store.head = ring.head?
  linked : Cyclic store.Links ring
  len : store.len = ring.length

/-- The occupied slots hang together, and the others wait on the stack of free slots. -/
structure WellFormed (store : Store) : Prop where
  ring : ∃ ring, store.Threaded ring ∧ ∀ i, i ∈ ring ↔ store.Occupied i
  free_nodup : store.free.Nodup
  mem_free : ∀ i, i ∈ store.free ↔ i < store.slots.size ∧ ¬store.Occupied i
  /-- The number of every slot fits a handle. -/
  size_le : store.slots.size ≤ maxSlots

variable {store : Store}

theorem next?_eq_some {i j : Nat} :
    store.next? i = some j ↔ ∃ m, store.member? i = some m ∧ m.next = j :=
  Option.map_eq_some_iff

theorem prev?_eq_some {i j : Nat} :
    store.prev? j = some i ↔ ∃ m, store.member? j = some m ∧ m.prev = i :=
  Option.map_eq_some_iff

theorem Threaded.occupied {ring : List Nat} (ht : store.Threaded ring) {i : Nat} (hi : i ∈ ring) :
    store.Occupied i := by
  obtain ⟨j, -, hl⟩ := ht.linked.exists_next hi
  obtain ⟨m, hm, -⟩ := next?_eq_some.mp hl.1
  exact occupied_iff.mpr ⟨m, hm⟩

theorem Threaded.length_le {ring : List Nat} (ht : store.Threaded ring) :
    ring.length ≤ store.slots.size := by
  have hsub : ring ⊆ List.range store.slots.size := fun i hi =>
    List.mem_range.mpr (ht.occupied hi).lt_size
  simpa using ht.nodup.length_le_of_subset hsub

theorem wellFormed_empty : WellFormed .empty where
  ring := ⟨[], ⟨List.nodup_nil, rfl, cyclic_nil, rfl⟩, fun i => by simp [Occupied, member?, empty]⟩
  free_nodup := List.nodup_nil
  mem_free i := by simp [empty]
  size_le := by simp [empty]

/-- The ring lists the occupied slots. -/
theorem Threaded.perm_filter_range {ring : List Nat} (ht : store.Threaded ring)
    (hmem : ∀ i, i ∈ ring ↔ store.Occupied i) :
    ring.Perm ((List.range store.slots.size).filter (store.Occupied ·)) := by
  refine (List.perm_ext_iff_of_nodup ht.nodup (List.nodup_range.filter _)).mpr fun i => ?_
  rw [List.mem_filter, List.mem_range, decide_eq_true_iff, hmem]
  exact ⟨fun h => ⟨h.lt_size, h⟩, fun h => h.2⟩

theorem WellFormed.len_eq_countP (hw : store.WellFormed) :
    store.len = (List.range store.slots.size).countP (store.Occupied ·) := by
  obtain ⟨ring, ht, hmem⟩ := hw.ring
  rw [ht.len, (ht.perm_filter_range hmem).length_eq, List.countP_eq_length_filter]

theorem WellFormed.head_eq_none (hw : store.WellFormed) :
    store.head = none ↔ ∀ i, ¬store.Occupied i := by
  obtain ⟨ring, ht, hmem⟩ := hw.ring
  rw [ht.head, List.head?_eq_none_iff, List.eq_nil_iff_forall_not_mem]
  simp only [hmem]

/-- Every slot is on the ring or free. -/
theorem WellFormed.len_add_free (hw : store.WellFormed) :
    store.len + store.free.length = store.slots.size := by
  obtain ⟨ring, ht, hmem⟩ := hw.ring
  have hnd : (ring ++ store.free).Nodup := by
    refine List.nodup_append.mpr ⟨ht.nodup, hw.free_nodup, fun i hi j hj hij => ?_⟩
    exact ((hw.mem_free j).mp hj).2 (hij ▸ ht.occupied hi)
  have hperm : (ring ++ store.free).Perm (List.range store.slots.size) := by
    refine (List.perm_ext_iff_of_nodup hnd List.nodup_range).mpr fun i => ?_
    rw [List.mem_append, List.mem_range, hmem, hw.mem_free]
    by_cases ho : store.Occupied i
    · simp [ho, ho.lt_size]
    · simp [ho]
  rw [ht.len, ← List.length_append, hperm.length_eq, List.length_range]

/-! ## Taking a slot off the ring -/

section Unlink

variable {p index n : Nat}

theorem next?_unlink (hp : store.Links p index) (hn : store.Links index n) (i : Nat) :
    (store.unlink index).next? i = if i = p then some n else store.next? i := by
  obtain ⟨m, hm, rfl⟩ := next?_eq_some.mp hn.1
  obtain ⟨m', hm', rfl⟩ := prev?_eq_some.mp hp.2
  obtain rfl : m = m' := Option.some.inj (hm.symm.trans hm')
  obtain ⟨k, hk, -⟩ := next?_eq_some.mp hp.1
  rw [next?, member?_unlink hm]
  by_cases h : i = m.prev
  · simp [h, hk]
  · cases hi : store.member? i <;> simp [next?, h, hi]

theorem prev?_unlink (hp : store.Links p index) (hn : store.Links index n) (i : Nat) :
    (store.unlink index).prev? i = if i = n then some p else store.prev? i := by
  obtain ⟨m, hm, rfl⟩ := next?_eq_some.mp hn.1
  obtain ⟨m', hm', rfl⟩ := prev?_eq_some.mp hp.2
  obtain rfl : m = m' := Option.some.inj (hm.symm.trans hm')
  obtain ⟨k, hk, -⟩ := prev?_eq_some.mp hn.2
  rw [prev?, member?_unlink hm]
  by_cases h : i = m.next
  · simp [h, hk]
  · cases hi : store.member? i <;> simp [prev?, h, hi]

theorem head_unlink (hn : store.Links index n) :
    (store.unlink index).head =
      if store.head = some index then (if n = index then none else some n) else store.head := by
  obtain ⟨m, hm, rfl⟩ := next?_eq_some.mp hn.1
  simp [unlink, hm]

theorem len_unlink (ho : store.Occupied index) : (store.unlink index).len = store.len - 1 := by
  obtain ⟨m, hm⟩ := occupied_iff.mp ho
  simp [unlink, hm]

/-- Neighbours stay neighbours unless one of them is taken off the ring. -/
theorem Links.unlink {a b : Nat} (h : store.Links a b) (hp : store.Links p index)
    (hn : store.Links index n) (ha : a ≠ index) (hb : b ≠ index) :
    (store.unlink index).Links a b := by
  have hap : a ≠ p := by
    rintro rfl
    exact hb (Option.some.inj (h.1.symm.trans hp.1))
  have hbn : b ≠ n := by
    rintro rfl
    exact ha (Option.some.inj (h.2.symm.trans hn.2))
  exact ⟨by rw [next?_unlink hp hn, if_neg hap, h.1], by rw [prev?_unlink hp hn, if_neg hbn, h.2]⟩

/-- The neighbours of a slot that is taken off the ring become neighbours. -/
theorem Links.unlink_join (hp : store.Links p index) (hn : store.Links index n) :
    (store.unlink index).Links p n :=
  ⟨by rw [next?_unlink hp hn, if_pos rfl], by rw [prev?_unlink hp hn, if_pos rfl]⟩

end Unlink

theorem filter_ne_append_cons {l r : List Nat} {index : Nat} (hnd : (l ++ index :: r).Nodup) :
    (l ++ index :: r).filter (· ≠ index) = l ++ r := by
  rw [List.nodup_middle, List.nodup_cons] at hnd
  rw [List.filter_append, List.filter_cons_of_neg (by simp), ← List.filter_append]
  refine List.filter_eq_self.mpr fun i hi => ?_
  simpa using fun h : i = index => hnd.1 (h ▸ hi)

/-- Taking a slot off the ring joins its neighbours and keeps the order of the others. -/
theorem Threaded.unlink {ring : List Nat} (ht : store.Threaded ring) {index : Nat}
    (hi : index ∈ ring) : (store.unlink index).Threaded (ring.filter (· ≠ index)) := by
  obtain ⟨p, -, hp⟩ := ht.linked.exists_prev hi
  obtain ⟨n, -, hn⟩ := ht.linked.exists_next hi
  have hlen := len_unlink (ht.occupied hi)
  obtain ⟨l, r, rfl⟩ := List.append_of_mem hi
  rw [filter_ne_append_cons ht.nodup]
  have hnd := ht.nodup
  rw [List.nodup_middle, List.nodup_cons] at hnd
  have hne : ∀ i ∈ l ++ r, i ≠ index := fun i hi he => hnd.1 (he ▸ hi)
  refine ⟨hnd.2, ?_, ?_, ?_⟩
  · rw [head_unlink hn, ht.head]
    cases l with
    | cons a l => simp [hne a (by simp)]
    | nil =>
      cases r with
      | nil =>
        obtain rfl : index = n :=
          Option.some.inj ((cyclic_singleton.mp ht.linked).1.symm.trans hn.1)
        simp
      | cons b r =>
        obtain rfl : b = n :=
          Option.some.inj ((List.isChain_cons_cons.mp ht.linked.chain).1.1.symm.trans hn.1)
        simp [hne b (by simp)]
  · -- read from the slot on, what is left is the ring without its first
    have hc : Cyclic store.Links (index :: (r ++ l)) := by simpa using ht.linked.append_comm
    rcases eq_or_ne (r ++ l) [] with he | he
    · obtain ⟨rfl, rfl⟩ := List.append_eq_nil_iff.mp he
      exact cyclic_nil
    · have hne' : ∀ i ∈ r ++ l, i ≠ index := fun i hi =>
        hne i (List.perm_append_comm.mem_iff.mp hi)
      refine Cyclic.append_comm (hc.bypass he (fun a ha b hb h => ?_) fun p n hp hn => ?_)
      · exact h.unlink hp hn (hne' a ha) (hne' b hb)
      · exact hp.unlink_join hn
  · simp only [hlen, ht.len, List.length_append, List.length_cons]
    omega

/-! ## Putting a slot onto the ring -/

section Link

variable {z head index : Nat}

theorem next?_link (hh : store.head = some head) (hz : store.Links z head)
    (ho : store.Occupied index) (i : Nat) :
    (store.link index).next? i =
      if i = index then some head else if i = z then some index else store.next? i := by
  obtain ⟨m, hm⟩ := occupied_iff.mp ho
  obtain ⟨k, hk, -⟩ := next?_eq_some.mp hz.1
  rw [next?, member?_link_of_head hh hz.2]
  by_cases h : i = index
  · simp [h, hm]
  by_cases hi : i = z
  · subst hi
    simp [h, hk]
  · cases hs : store.member? i <;> simp [next?, h, hi, hs]

theorem prev?_link (hh : store.head = some head) (hz : store.Links z head)
    (ho : store.Occupied index) (i : Nat) :
    (store.link index).prev? i =
      if i = head then some index else if i = index then some z else store.prev? i := by
  obtain ⟨m, hm⟩ := occupied_iff.mp ho
  obtain ⟨k, hk, -⟩ := prev?_eq_some.mp hz.2
  rw [prev?, member?_link_of_head hh hz.2]
  by_cases h : i = head
  · simp [h, hk]
  by_cases hi : i = index
  · subst hi
    simp [h, hm]
  · cases hs : store.member? i <;> simp [prev?, h, hi, hs]

theorem links_link_of_none (hh : store.head = none) (ho : store.Occupied index) :
    (store.link index).Links index index := by
  obtain ⟨m, hm⟩ := occupied_iff.mp ho
  constructor
  · simp [next?, member?_link_of_none hh, hm]
  · simp [prev?, member?_link_of_none hh, hm]

end Link

theorem Threaded.cyclic_link {ring : List Nat} (ht : store.Threaded ring) {index : Nat}
    (hi : index ∉ ring) (ho : store.Occupied index) :
    Cyclic (store.link index).Links (ring ++ [index]) := by
  cases ring with
  | nil => exact cyclic_singleton.mpr (links_link_of_none ht.head ho)
  | cons head rest =>
    obtain ⟨z, hz⟩ : ∃ z, z ∈ (head :: rest).getLast? := ⟨_, List.getLast?_cons⟩
    have hzh : store.Links z head := ht.linked.closed z hz head rfl
    have hzi : z ≠ index := fun h => hi (h ▸ List.mem_of_getLast? hz)
    have hhi : index ≠ head := fun h => hi (h ▸ List.mem_cons_self)
    refine ht.linked.append_singleton (List.cons_ne_nil _ _) (fun a ha b hb h => ?_) ?_ ?_
    · have hai : a ≠ index := fun h => hi (h ▸ ha)
      have hbi : b ≠ index := fun h => hi (h ▸ List.mem_of_mem_tail hb)
      have hbh : b ≠ head := fun h => (List.nodup_cons.mp ht.nodup).1 (h ▸ hb)
      have haz : a ≠ z := by
        rintro rfl
        exact hbh (Option.some.inj (h.1.symm.trans hzh.1))
      exact ⟨by rw [next?_link ht.head hzh ho, if_neg hai, if_neg haz, h.1],
        by rw [prev?_link ht.head hzh ho, if_neg hbh, if_neg hbi, h.2]⟩
    · intro y hy
      obtain rfl : z = y := Option.mem_unique hz hy
      exact ⟨by rw [next?_link ht.head hzh ho, if_neg hzi, if_pos rfl],
        by rw [prev?_link ht.head hzh ho, if_neg hhi, if_pos rfl]⟩
    · intro y hy
      obtain rfl : head = y := Option.some.inj hy
      exact ⟨by rw [next?_link ht.head hzh ho, if_pos rfl],
        by rw [prev?_link ht.head hzh ho, if_pos rfl]⟩

/-- A slot put before the head is the last on the ring. -/
theorem Threaded.link {ring : List Nat} (ht : store.Threaded ring) {index : Nat}
    (hi : index ∉ ring) (ho : store.Occupied index) :
    { store.link index with len := (store.link index).len + 1 }.Threaded (ring ++ [index]) := by
  refine ⟨?_, ?_, ht.cyclic_link hi ho, by simp [ht.len]⟩
  · refine List.nodup_append.mpr ⟨ht.nodup, List.nodup_singleton index, fun a ha b hb hab => ?_⟩
    rw [List.mem_singleton.mp hb] at hab
    exact hi (hab ▸ ha)
  · have hh := ht.head
    cases ring <;> simp_all [Store.link]

end Store

end BranchTrace
