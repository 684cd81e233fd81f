import Mathlib.Tactic

/-! # Ring buffers

An array of fixed size with a place to write next and a place to read next. One place
stays empty, so that equal places mean an empty ring. `contents` lists what is between
the places in the order in which it was written; a write at a full ring empties it.
-/

namespace PosFirmware.Foundation

/-- A ring buffer; both places are inside the array. -/
structure RingBuffer (α : Type*) where
  /-- Length of the array. -/
  size : Nat
  /-- Where the next element is written. -/
  head : Nat
  /-- Where the next element is read. -/
  tail : Nat
  /-- The array. -/
  buf : Nat → α
  /-- The write place is inside. -/
  head_lt : head < size
  /-- The read place is inside. -/
  tail_lt : tail < size

namespace RingBuffer

variable {α : Type*}

/-- An empty ring. -/
def empty (size : Nat) (positive : 0 < size) (buf : Nat → α) : RingBuffer α :=
  ⟨size, 0, 0, buf, positive, positive⟩

/-- Number of elements between the places. -/
def count (r : RingBuffer α) : Nat := (r.head + r.size - r.tail) % r.size

/-- The place a number of elements behind the read place. -/
def place (r : RingBuffer α) (i : Nat) : Nat := (r.tail + i) % r.size

/-- What is between the places, oldest first. -/
def contents (r : RingBuffer α) : List α := (List.range r.count).map fun i => r.buf (r.place i)

/-- A write would make the places equal. -/
def Full (r : RingBuffer α) : Prop := (r.head + 1) % r.size = r.tail

instance (r : RingBuffer α) : Decidable r.Full := inferInstanceAs (Decidable (_ = _))

/-- Write one element, whether there is room or not. -/
def push (a : α) (r : RingBuffer α) : RingBuffer α where
  size := r.size
  head := (r.head + 1) % r.size
  tail := r.tail
  buf := fun i => if i = r.head then a else r.buf i
  head_lt := Nat.mod_lt _ (Nat.zero_lt_of_lt r.head_lt)
  tail_lt := r.tail_lt

/-- Read one element past. -/
def drop (r : RingBuffer α) : RingBuffer α where
  size := r.size
  head := r.head
  tail := (r.tail + 1) % r.size
  buf := r.buf
  head_lt := r.head_lt
  tail_lt := Nat.mod_lt _ (Nat.zero_lt_of_lt r.tail_lt)

/-- Write an element at a place, without moving the place to write next. -/
def store (place : Nat) (a : α) (r : RingBuffer α) : RingBuffer α where
  size := r.size
  head := r.head
  tail := r.tail
  buf := fun i => if i = place then a else r.buf i
  head_lt := r.head_lt
  tail_lt := r.tail_lt

/-- Move the place to write next behind a number of elements. -/
def publish (start n : Nat) (r : RingBuffer α) : RingBuffer α where
  size := r.size
  head := (start + n) % r.size
  tail := r.tail
  buf := r.buf
  head_lt := Nat.mod_lt _ (Nat.zero_lt_of_lt r.head_lt)
  tail_lt := r.tail_lt

/-- Write elements one after the other. -/
def pushAll (r : RingBuffer α) (elements : List α) : RingBuffer α :=
  elements.foldl (fun r a => r.push a) r

/-- Read a number of elements past. -/
def skip (n : Nat) (r : RingBuffer α) : RingBuffer α where
  size := r.size
  head := r.head
  tail := (r.tail + n) % r.size
  buf := r.buf
  head_lt := r.head_lt
  tail_lt := Nat.mod_lt _ (Nat.zero_lt_of_lt r.head_lt)

/-- How many elements can still be written. -/
def room (r : RingBuffer α) : Nat :=
  if r.head = r.tail then r.size - 1 else (r.tail + r.size - r.head) % r.size - 1

@[simp] theorem push_size (a : α) (r : RingBuffer α) : (r.push a).size = r.size := rfl

@[simp] theorem push_tail (a : α) (r : RingBuffer α) : (r.push a).tail = r.tail := rfl

@[simp] theorem pushAll_size (r : RingBuffer α) (elements : List α) :
    (r.pushAll elements).size = r.size := by
  induction elements generalizing r with
  | nil => rfl
  | cons a rest past => exact past (r.push a)

@[simp] theorem drop_size (r : RingBuffer α) : r.drop.size = r.size := rfl

@[simp] theorem drop_head (r : RingBuffer α) : r.drop.head = r.head := rfl

@[simp] theorem length_contents (r : RingBuffer α) : r.contents.length = r.count := by
  simp [contents]

/-- The count without the remainder. -/
theorem count_eq (r : RingBuffer α) :
    r.count = if r.tail ≤ r.head then r.head - r.tail else r.head + r.size - r.tail := by
  have head := r.head_lt
  have tail := r.tail_lt
  unfold count
  split
  · next ordered =>
    have wrapped : r.head + r.size - r.tail = (r.head - r.tail) + r.size := by omega
    rw [wrapped, Nat.add_mod_right, Nat.mod_eq_of_lt (by omega)]
  · exact Nat.mod_eq_of_lt (by omega)

/-- The next place without the remainder. -/
theorem next_eq {size place : Nat} (inside : place < size) :
    (place + 1) % size = if place + 1 = size then 0 else place + 1 := by
  split
  · next last => rw [last, Nat.mod_self]
  · exact Nat.mod_eq_of_lt (by omega)

/-- A place behind the read place without the remainder. -/
theorem place_eq {r : RingBuffer α} {i : Nat} (inside : i < r.size) :
    r.place i = if r.tail + i < r.size then r.tail + i else r.tail + i - r.size := by
  have tail := r.tail_lt
  unfold place
  split
  · next before => exact Nat.mod_eq_of_lt before
  · rw [Nat.mod_eq_sub_mod (by omega), Nat.mod_eq_of_lt (by omega)]

theorem count_lt (r : RingBuffer α) : r.count < r.size :=
  Nat.mod_lt _ (Nat.zero_lt_of_lt r.head_lt)

/-- Equal places mean an empty ring. -/
theorem count_eq_zero_iff (r : RingBuffer α) : r.count = 0 ↔ r.head = r.tail := by
  have head := r.head_lt
  have tail := r.tail_lt
  rw [count_eq]
  split <;> omega

/-- An empty ring. -/
theorem contents_empty (size : Nat) (positive : 0 < size) (buf : Nat → α) :
    (empty size positive buf).contents = [] := by
  rw [← List.length_eq_zero_iff, length_contents, count_eq_zero_iff]
  rfl

/-- A full ring has one empty place. -/
theorem full_iff (r : RingBuffer α) : r.Full ↔ r.count + 1 = r.size := by
  have head := r.head_lt
  have tail := r.tail_lt
  rw [Full, next_eq head, count_eq]
  split <;> split <;> omega

theorem count_push {r : RingBuffer α} (room : ¬ r.Full) (a : α) :
    (r.push a).count = r.count + 1 := by
  have head := r.head_lt
  have tail := r.tail_lt
  have before := r.count_eq
  have after := (r.push a).count_eq
  have next : (r.push a).head = if r.head + 1 = r.size then 0 else r.head + 1 := next_eq head
  have free : (r.push a).head ≠ r.tail := room
  rw [push_tail, push_size] at after
  split at next <;> split at before <;> split at after <;> omega

/-- A write at a full ring empties it. -/
theorem count_push_full {r : RingBuffer α} (full : r.Full) (a : α) : (r.push a).count = 0 :=
  (count_eq_zero_iff _).mpr full

theorem count_drop {r : RingBuffer α} (some : r.count ≠ 0) : r.drop.count + 1 = r.count := by
  have head := r.head_lt
  have tail := r.tail_lt
  have before := r.count_eq
  have after := r.drop.count_eq
  have next : r.drop.tail = if r.tail + 1 = r.size then 0 else r.tail + 1 := next_eq tail
  have apart : r.head ≠ r.tail := fun same => some ((count_eq_zero_iff r).mpr same)
  rw [drop_head, drop_size] at after
  split at next <;> split at before <;> split at after <;> omega

/-- **Writing appends** where there is room. -/
theorem contents_push {r : RingBuffer α} (room : ¬ r.Full) (a : α) :
    (r.push a).contents = r.contents ++ [a] := by
  have head := r.head_lt
  have tail := r.tail_lt
  have small := r.count_lt
  have counted := r.count_eq
  have last : r.place r.count = r.head := by
    rw [place_eq small, counted]
    split <;> split <;> omega
  rw [contents, count_push room a, List.range_succ, List.map_append]
  congr 1
  · rw [contents]
    refine List.map_congr_left fun i member => ?_
    have early := List.mem_range.mp member
    have other : r.place i ≠ r.head := by
      rw [place_eq (by omega)]
      split at counted <;> split <;> omega
    exact if_neg other
  · simp only [List.map_cons, List.map_nil]
    have written : (r.push a).buf ((r.push a).place r.count) = a := if_pos last
    rw [written]

/-- The elements and the room make up the array, but for the empty place. -/
theorem room_add_count (r : RingBuffer α) : r.room + r.count + 1 = r.size := by
  have head := r.head_lt
  have tail := r.tail_lt
  have counted := r.count_eq
  unfold room
  split
  · next same => split at counted <;> omega
  · next apart =>
    split at counted
    · next ordered =>
      rw [Nat.mod_eq_of_lt (by omega)]
      omega
    · have wrapped : r.tail + r.size - r.head = (r.tail - r.head) + r.size := by omega
      rw [wrapped, Nat.add_mod_right, Nat.mod_eq_of_lt (by omega)]
      omega

/-- **Writing many appends them** where there is room for all. -/
theorem contents_pushAll {elements : List α} {r : RingBuffer α}
    (fits : elements.length ≤ r.room) : (r.pushAll elements).contents = r.contents ++ elements := by
  induction elements generalizing r with
  | nil => rw [List.append_nil]; rfl
  | cons a rest past =>
    have total := r.room_add_count
    rw [List.length_cons] at fits
    have room : ¬ r.Full := by
      rw [full_iff]
      omega
    have after := (r.push a).room_add_count
    rw [push_size, count_push room] at after
    have later : ((r.push a).pushAll rest).contents = (r.push a).contents ++ rest :=
      past (by omega)
    rw [contents_push room, List.append_assoc, List.singleton_append] at later
    exact later

/-- **Reading takes the oldest.** -/
theorem contents_drop {r : RingBuffer α} (some : r.count ≠ 0) :
    r.contents = r.buf r.tail :: r.drop.contents := by
  have one := count_drop some
  have small := r.count_lt
  rw [contents, contents, ← one, List.range_succ_eq_map, List.map_cons, List.map_map]
  congr 1
  · rw [place, Nat.add_zero, Nat.mod_eq_of_lt r.tail_lt]
  · refine List.map_congr_left fun i _ => ?_
    have shifted : r.place (i + 1) = r.drop.place i := by
      simp only [place, drop]
      rw [Nat.mod_add_mod, Nat.add_assoc, Nat.add_comm 1 i]
    simp only [Function.comp_apply, shifted]
    rfl

/-! ## Writing ahead of the place to write next -/

/-- There is room for a list, and its first elements are in the array behind what is between
the places. -/
structure Staged (r : RingBuffer α) (elements : List α) (n : Nat) : Prop where
  /-- All of the list fits. -/
  fits : r.count + elements.length < r.size
  /-- The elements that were stored. -/
  stored : ∀ j < n, elements[j]? = some (r.buf ((r.head + j) % r.size))

/-- The places ahead are those behind the last element. -/
theorem ahead_eq_place (r : RingBuffer α) (j : Nat) :
    (r.head + j) % r.size = r.place (r.count + j) := by
  have head := r.head_lt
  have tail := r.tail_lt
  have counted := r.count_eq
  have same : (r.tail + r.count) % r.size = r.head := by
    split at counted
    · rw [show r.tail + r.count = r.head by omega, Nat.mod_eq_of_lt head]
    · rw [show r.tail + r.count = r.head + r.size by omega, Nat.add_mod_right,
        Nat.mod_eq_of_lt head]
  rw [place, ← Nat.add_assoc, ← same, Nat.mod_add_mod]

/-- Different distances are different places. -/
theorem place_inj {r : RingBuffer α} {i j : Nat} (insideI : i < r.size) (insideJ : j < r.size)
    (same : r.place i = r.place j) : i = j := by
  have tail := r.tail_lt
  rw [place_eq insideI, place_eq insideJ] at same
  split at same <;> split at same <;> omega

/-- A place ahead is not between the places. -/
theorem place_ne_ahead {r : RingBuffer α} {i j : Nat} (early : i < r.count)
    (room : r.count + j < r.size) : r.place i ≠ (r.head + j) % r.size := by
  rw [ahead_eq_place]
  intro same
  have equal := place_inj (by omega) room same
  omega

/-- Storing ahead leaves what is between the places. -/
theorem contents_store {r : RingBuffer α} {j : Nat} (room : r.count + j < r.size) (a : α) :
    (r.store ((r.head + j) % r.size) a).contents = r.contents := by
  rw [contents, contents]
  refine List.map_congr_left fun i member => ?_
  exact if_neg (place_ne_ahead (List.mem_range.mp member) room)

/-- Nothing is stored yet. -/
theorem staged_zero {r : RingBuffer α} {elements : List α}
    (fits : r.count + elements.length < r.size) : r.Staged elements 0 :=
  ⟨fits, fun j none => absurd none (Nat.not_lt_zero j)⟩

/-- The next element is stored. -/
theorem Staged.store {r : RingBuffer α} {elements : List α} {n : Nat} {a : α}
    (staged : r.Staged elements n) (next : elements[n]? = some a) :
    (r.store ((r.head + n) % r.size) a).Staged elements (n + 1) := by
  have fits := staged.fits
  have inside : n < elements.length := (List.getElem?_eq_some_iff.mp next).1
  refine ⟨fits, fun j early => ?_⟩
  show elements[j]? = some (if (r.head + j) % r.size = (r.head + n) % r.size then a
    else r.buf ((r.head + j) % r.size))
  by_cases last : j = n
  · rw [if_pos (by rw [last]), last, next]
  · have other : (r.head + j) % r.size ≠ (r.head + n) % r.size := by
      rw [ahead_eq_place, ahead_eq_place]
      intro same
      have equal := place_inj (by omega) (by omega) same
      omega
    rw [if_neg other]
    exact staged.stored j (by omega)

/-- Reading leaves what is stored ahead. -/
theorem Staged.drop {r : RingBuffer α} {elements : List α} {n : Nat}
    (staged : r.Staged elements n) (some : r.count ≠ 0) : r.drop.Staged elements n := by
  have fewer := count_drop some
  have fits := staged.fits
  refine ⟨?_, staged.stored⟩
  rw [drop_size]
  omega

/-- The count after moving the place to write next. -/
theorem count_publish {r : RingBuffer α} {n : Nat} (fits : r.count + n < r.size) :
    (r.publish r.head n).count = r.count + n := by
  have head := r.head_lt
  have tail := r.tail_lt
  have before := r.count_eq
  have after := (r.publish r.head n).count_eq
  have size : (r.publish r.head n).size = r.size := rfl
  have same : (r.publish r.head n).tail = r.tail := rfl
  have moved : (r.publish r.head n).head =
      if r.head + n < r.size then r.head + n else r.head + n - r.size := by
    show (r.head + n) % r.size = _
    split
    · next inside => exact Nat.mod_eq_of_lt inside
    · rw [Nat.mod_eq_sub_mod (by omega), Nat.mod_eq_of_lt (by omega)]
  rw [size, same] at after
  split at moved <;> split at before <;> split at after <;> omega

/-- **Publishing appends** a list that is stored ahead. -/
theorem contents_publish {r : RingBuffer α} {elements : List α}
    (staged : r.Staged elements elements.length) :
    (r.publish r.head elements.length).contents = r.contents ++ elements := by
  have counted : (r.publish r.head elements.length).contents =
      (List.range (r.count + elements.length)).map fun i => r.buf (r.place i) := by
    rw [contents, count_publish staged.fits]
    rfl
  rw [counted, List.range_add, List.map_append, List.map_map]
  congr 1
  apply List.ext_getElem?
  intro j
  by_cases inside : j < elements.length
  · rw [List.getElem?_map, List.getElem?_range inside, staged.stored j inside, ahead_eq_place]
    rfl
  · rw [List.getElem?_eq_none (by simp; omega), List.getElem?_eq_none (by omega)]

/-! ## Many elements at once -/

@[simp] theorem skip_size (n : Nat) (r : RingBuffer α) : (r.skip n).size = r.size := rfl

/-- Rings that agree between the places hold the same. -/
theorem contents_congr {r r' : RingBuffer α} (size : r'.size = r.size) (head : r'.head = r.head)
    (tail : r'.tail = r.tail) (same : ∀ i < r.count, r'.buf (r.place i) = r.buf (r.place i)) :
    r'.contents = r.contents := by
  have counts : r'.count = r.count := by rw [count, count, size, head, tail]
  have places : ∀ i, r'.place i = r.place i := fun i => by rw [place, place, size, tail]
  rw [contents, contents, counts]
  refine List.map_congr_left fun i member => ?_
  rw [places, same i (List.mem_range.mp member)]

/-- An element between the places. -/
theorem getElem?_contents {r : RingBuffer α} {i : Nat} (inside : i < r.count) :
    r.contents[i]? = some (r.buf (r.place i)) := by
  rw [contents, List.getElem?_map, List.getElem?_range inside]
  rfl

/-- A ring that holds more at its end holds the same elements in front. -/
theorem buf_of_prefix {r r' : RingBuffer α} (more : r.contents <+: r'.contents) {i : Nat}
    (inside : i < r.count) : r'.buf (r'.place i) = r.buf (r.place i) := by
  have longer := more.length_le
  rw [length_contents, length_contents] at longer
  have early : i < r.contents.length := by
    rw [length_contents]
    exact inside
  have same := List.prefix_iff_getElem?.mp more i early
  rw [← List.getElem?_eq_getElem early, getElem?_contents inside,
    getElem?_contents (by omega)] at same
  exact Option.some.inj same

/-- The oldest elements. -/
theorem contents_take {r : RingBuffer α} {n : Nat} (inside : n ≤ r.count) :
    r.contents.take n = (List.range n).map fun i => r.buf (r.place i) := by
  rw [contents, ← List.map_take, List.take_range, Nat.min_eq_left inside]

theorem count_skip {r : RingBuffer α} {n : Nat} (inside : n ≤ r.count) :
    (r.skip n).count = r.count - n := by
  have head := r.head_lt
  have tail := r.tail_lt
  have before := r.count_eq
  have small := r.count_lt
  have after := (r.skip n).count_eq
  have moved : (r.skip n).tail =
      if r.tail + n < r.size then r.tail + n else r.tail + n - r.size := place_eq (by omega)
  have same : (r.skip n).head = r.head := rfl
  rw [same, skip_size] at after
  split at moved <;> split at before <;> split at after <;> omega

/-- **Reading many takes the oldest.** -/
theorem contents_skip {r : RingBuffer α} {n : Nat} (inside : n ≤ r.count) :
    (r.skip n).contents = r.contents.drop n := by
  have split : r.count = n + (r.count - n) := by omega
  have whole : r.contents =
      (List.range (n + (r.count - n))).map fun i => r.buf (r.place i) := by
    rw [← split]
    rfl
  rw [whole, List.range_add, List.map_append, List.map_map,
    List.drop_left' (by rw [List.length_map, List.length_range]), contents, count_skip inside]
  refine List.map_congr_left fun i _ => ?_
  have shifted : (r.skip n).place i = r.place (n + i) := by
    simp only [place, skip]
    rw [Nat.mod_add_mod, Nat.add_assoc]
  rw [shifted]
  rfl

end RingBuffer

end PosFirmware.Foundation
