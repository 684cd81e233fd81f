import Mathlib.Tactic

/-! # Queues kept in an array of slots

A slot is in use or not, and what is in the slots in use is listed by index. Where an
element is put behind all slots in use, and the first slot in use is taken, the list is a
queue.
-/

namespace PosFirmware.Foundation

variable {α : Type*} {used used' : Nat → Bool} {item item' : Nat → α}

/-- What is in the slots in use, a number of slots from a first one on, by index. -/
def slots (used : Nat → Bool) (item : Nat → α) (first count : Nat) : List α :=
  ((List.range' first count).filter used).map item

/-- The first slot in use. -/
def firstSlot (used : Nat → Bool) (count : Nat) : Option Nat := (List.range count).find? used

theorem slots_append (used : Nat → Bool) (item : Nat → α) (first m n : Nat) :
    slots used item first (m + n) =
      slots used item first m ++ slots used item (first + m) n := by
  rw [slots, ← List.range'_append_1, List.filter_append, List.map_append]
  rfl

/-- The slots around one of them. -/
theorem slots_around (used : Nat → Bool) (item : Nat → α) {j count : Nat} (inside : j < count) :
    slots used item 0 count = slots used item 0 j ++
      (if used j then [item j] else []) ++ slots used item (j + 1) (count - (j + 1)) := by
  have total : count = j + (1 + (count - (j + 1))) := by omega
  conv_lhs => rw [total]
  rw [slots_append, slots_append, List.append_assoc, Nat.zero_add]
  congr 2
  by_cases inUse : used j = true <;> simp [slots, inUse]

theorem slots_congr {first count : Nat}
    (same : ∀ i, first ≤ i → i < first + count →
      used' i = used i ∧ (used i = true → item' i = item i)) :
    slots used' item' first count = slots used item first count := by
  have kept : (List.range' first count).filter used' = (List.range' first count).filter used :=
    List.filter_congr fun i member =>
      (same i (List.mem_range'_1.mp member).1 (List.mem_range'_1.mp member).2).1
  rw [slots, slots, kept]
  refine List.map_congr_left fun i member => ?_
  obtain ⟨member, inUse⟩ := List.mem_filter.mp member
  exact (same i (List.mem_range'_1.mp member).1 (List.mem_range'_1.mp member).2).2 inUse

theorem slots_none {first count : Nat}
    (free : ∀ i, first ≤ i → i < first + count → used i = false) :
    slots used item first count = [] := by
  have none : (List.range' first count).filter used = [] := by
    refine List.filter_eq_nil_iff.mpr fun i member => ?_
    simp [free i (List.mem_range'_1.mp member).1 (List.mem_range'_1.mp member).2]
  rw [slots, none, List.map_nil]

/-- **An element put behind all slots in use** is the last of the queue. -/
theorem slots_push {j count : Nat} (inside : j < count) (free : used j = false)
    (last : ∀ i, j < i → i < count → used i = false) (now : used' j = true)
    (same : ∀ i, i ≠ j → used' i = used i ∧ (used i = true → item' i = item i)) :
    slots used' item' 0 count = slots used item 0 count ++ [item' j] := by
  have above : slots used item (j + 1) (count - (j + 1)) = [] :=
    slots_none fun i low high => last i low (by omega)
  have above' : slots used' item' (j + 1) (count - (j + 1)) = [] :=
    slots_none fun i low high => (same i (by omega)).1.trans (last i low (by omega))
  have below : slots used' item' 0 j = slots used item 0 j :=
    slots_congr fun i _ high => same i (by omega)
  rw [slots_around used' item' inside, slots_around used item inside, above, above', below, now,
    free]
  simp

/-- **An element put into a free slot** is in the queue. -/
theorem slots_insert {j count : Nat} (inside : j < count) (free : used j = false)
    (now : used' j = true) (same : ∀ i, i ≠ j → used' i = used i ∧ (used i = true → item' i = item i)) :
    (slots used' item' 0 count).Perm (item' j :: slots used item 0 count) := by
  have below : slots used' item' 0 j = slots used item 0 j :=
    slots_congr fun i _ high => same i (by omega)
  have above : slots used' item' (j + 1) (count - (j + 1)) =
      slots used item (j + 1) (count - (j + 1)) :=
    slots_congr fun i low _ => same i (by omega)
  rw [slots_around used' item' inside, slots_around used item inside, below, above, now, free]
  simp [List.perm_middle]

theorem firstSlot_eq_some {j count : Nat} (first : firstSlot used count = some j) :
    j < count ∧ used j = true ∧ ∀ i, i < j → used i = false := by
  obtain ⟨inUse, before, after, split, earlier⟩ := List.find?_eq_some_iff_append.mp first
  have member : j ∈ List.range count := by simp [split]
  refine ⟨List.mem_range.mp member, inUse, fun i low => ?_⟩
  have place : i ∈ before := by
    have listed : i ∈ List.range count :=
      List.mem_range.mpr (low.trans (List.mem_range.mp member))
    rw [split, List.mem_append, List.mem_cons] at listed
    rcases listed with earlier | same | later
    · exact earlier
    · omega
    · have sorted : (before ++ j :: after).Pairwise (· < ·) := by
        rw [← split]
        exact List.pairwise_lt_range
      have behind := (List.pairwise_cons.mp (List.pairwise_append.mp sorted).2.1).1 i later
      omega
  simpa using earlier i place

/-- One slot more is looked at where none was in use. -/
theorem firstSlot_succ (used : Nat → Bool) (count : Nat) :
    firstSlot used (count + 1) =
      (firstSlot used count).or (if used count then some count else none) := by
  rw [firstSlot, List.range_succ, List.find?_append, firstSlot]
  congr 1
  by_cases inUse : used count = true <;> simp [inUse]

theorem firstSlot_eq_none {count : Nat} (none : firstSlot used count = none) {i : Nat}
    (inside : i < count) : used i = false := by
  have free := List.find?_eq_none.mp none i (List.mem_range.mpr inside)
  simpa using free

/-- **The first slot in use** holds the first of the queue. -/
theorem slots_take {j count : Nat} (first : firstSlot used count = some j) (now : used' j = false)
    (same : ∀ i, i ≠ j → used' i = used i ∧ (used i = true → item' i = item i)) :
    slots used item 0 count = item j :: slots used' item' 0 count := by
  obtain ⟨inside, inUse, earlier⟩ := firstSlot_eq_some first
  have below : slots used item 0 j = [] := slots_none fun i _ high => earlier i (by omega)
  have below' : slots used' item' 0 j = [] :=
    slots_none fun i _ high => (same i (by omega)).1.trans (earlier i (by omega))
  have above : slots used' item' (j + 1) (count - (j + 1)) =
      slots used item (j + 1) (count - (j + 1)) :=
    slots_congr fun i low _ => same i (by omega)
  rw [slots_around used' item' inside, slots_around used item inside, above, below, below', now,
    inUse]
  simp

end PosFirmware.Foundation
