import Mathlib.Data.List.TakeWhile
import Mathlib.Data.List.Range
import Mathlib.Logic.Function.Basic

/-! # Memory and fields

Bytes of a buffer read as a list, bytes written over a part of it, and the text before
the first zero.
-/

namespace PosFirmware.Foundation

variable {α : Type}

/-- The `n` values from a position on. -/
def slice (mem : Nat → α) (start n : Nat) : List α := (List.range n).map fun i => mem (start + i)

/-- The values of a list, written from a position on. -/
def blit (mem : Nat → α) (start : Nat) (values : List α) : Nat → α := fun i =>
  if start ≤ i then (values[i - start]?).getD (mem i) else mem i

@[simp] theorem slice_length (mem : Nat → α) (start n : Nat) : (slice mem start n).length = n := by
  simp [slice]

theorem slice_congr {mem mem' : Nat → α} {start n : Nat}
    (same : ∀ i < n, mem (start + i) = mem' (start + i)) :
    slice mem start n = slice mem' start n :=
  List.map_congr_left fun i member => same i (List.mem_range.mp member)

theorem slice_getElem? {mem : Nat → α} {start n i : Nat} (inside : i < n) :
    (slice mem start n)[i]? = some (mem (start + i)) := by
  simp [slice, inside]

theorem blit_outside {mem : Nat → α} {start : Nat} {values : List α} {i : Nat}
    (outside : i < start ∨ start + values.length ≤ i) : blit mem start values i = mem i := by
  unfold blit
  split
  · rw [List.getElem?_eq_none (by omega)]
    rfl
  · rfl

theorem blit_inside {mem : Nat → α} {start : Nat} {values : List α} {i : Nat}
    (inside : i < values.length) : blit mem start values (start + i) = values[i] := by
  simp [blit, inside]

/-- The first value of a part and the rest. -/
theorem slice_succ (mem : Nat → α) (start n : Nat) :
    slice mem start (n + 1) = mem start :: slice mem (start + 1) n := by
  rw [slice, List.range_succ_eq_map, List.map_cons, List.map_map]
  refine congrArg (mem start :: ·) (List.map_congr_left fun i _ => congrArg mem ?_)
  omega

/-- A part in two. -/
theorem slice_add (mem : Nat → α) (start n m : Nat) :
    slice mem start (n + m) = slice mem start n ++ slice mem (start + n) m := by
  induction n generalizing start with
  | zero => simp [slice]
  | succ n past =>
      rw [Nat.add_right_comm, slice_succ, slice_succ, past, List.cons_append,
        Nat.add_assoc, Nat.add_comm 1 n]

/-- A part that reads as three parts reads as the second where the second is. -/
theorem slice_middle {mem : Nat → α} {start n : Nat} {front middle back : List α}
    (whole : slice mem start n = front ++ (middle ++ back)) :
    slice mem (start + front.length) middle.length = middle := by
  have size := congrArg List.length whole
  simp only [slice_length, List.length_append] at size
  rw [show n = front.length + (middle.length + back.length) by omega, slice_add, slice_add] at whole
  have second := (List.append_inj whole (slice_length ..)).2
  exact (List.append_inj second (slice_length ..)).1

/-- The first values of a part. -/
theorem take_slice {mem : Nat → α} {start n m : Nat} (shorter : m ≤ n) :
    (slice mem start n).take m = slice mem start m := by
  rw [slice, ← List.map_take, List.take_range, Nat.min_eq_left shorter, slice]

/-- A part that was not written reads as before. -/
theorem slice_blit_outside {mem : Nat → α} {start position n : Nat} {values : List α}
    (outside : position + n ≤ start ∨ start + values.length ≤ position) :
    slice (blit mem start values) position n = slice mem position n :=
  slice_congr fun i inside => blit_outside (by omega)

/-- A part of what was written reads as it was written. -/
theorem slice_blit_inside {mem : Nat → α} {start skip n : Nat} {values : List α}
    (inside : skip + n ≤ values.length) :
    slice (blit mem start values) (start + skip) n = (values.drop skip).take n := by
  refine List.ext_getElem? fun i => ?_
  rw [List.getElem?_take]
  split
  next lower =>
    rw [slice_getElem? lower, List.getElem?_drop, Nat.add_assoc,
      blit_inside (by omega : skip + i < values.length), List.getElem?_eq_getElem]
  next upper => exact List.getElem?_eq_none (by rw [slice_length]; omega)

theorem slice_blit_self {mem : Nat → α} {start : Nat} {values : List α} :
    slice (blit mem start values) start values.length = values := by
  have whole := @slice_blit_inside _ mem start 0 values.length values (by omega)
  rwa [Nat.add_zero, List.drop_zero, List.take_length] at whole

/-- Writing on after what was written. -/
theorem blit_append (mem : Nat → α) (start : Nat) (front back : List α) :
    blit (blit mem start front) (start + front.length) back = blit mem start (front ++ back) := by
  funext i
  simp only [blit]
  by_cases before : start ≤ i
  · by_cases within : i < start + front.length
    · rw [if_neg (by omega), if_pos before, if_pos before,
        List.getElem?_append_left (by omega)]
    · rw [if_pos (by omega), if_pos before, if_pos before,
        List.getElem?_append_right (by omega), List.getElem?_eq_none (by omega : front.length ≤ _)]
      congr 2
      omega
  · rw [if_neg (by omega), if_neg before, if_neg before]

/-- One value written. -/
theorem blit_singleton (mem : Nat → α) (i : Nat) (value : α) :
    blit mem i [value] = Function.update mem i value := by
  funext j
  unfold blit
  by_cases same : j = i
  · subst same
    simp
  · rw [Function.update_of_ne same]
    split
    · rw [List.getElem?_eq_none (by simp; omega)]
      rfl
    · rfl

/-! ## Strings -/

variable [Zero α] [DecidableEq α]

/-- The text before the first zero. -/
def cstr (bytes : List α) : List α := bytes.takeWhile (· ≠ 0)

theorem zero_notMem_cstr (bytes : List α) : (0 : α) ∉ cstr bytes := fun member => by
  simpa using List.mem_takeWhile_imp member

/-- A text without a zero, closed by one, is the text. -/
theorem cstr_append_zero {text : List α} (rest : List α) (clean : (0 : α) ∉ text) :
    cstr (text ++ 0 :: rest) = text := by
  have all : ∀ c ∈ text, decide (c ≠ 0) = true := fun c member => by
    simpa using fun zero : c = 0 => clean (zero ▸ member)
  rw [cstr, List.takeWhile_append_of_pos all]
  simp

end PosFirmware.Foundation

/-! ## Fields with a length

A search for a field with some tag: the fields of a buffer stand one behind the other, and each one
says where the next one begins. A search notes where it looked. `seek_ended` says when it ends, and
`seek_passed` and `seek_found` what it finds in a buffer of encoded fields.
-/

namespace PosFirmware.Foundation

/-- Where a search looked, where it stopped, and whether it came to its end. -/
structure Search where
  visited : List Nat
  stop : Nat
  ended : Bool

/-- A search from a position on; it stops at a field with the tag or behind the limit. -/
def seek (isTag : Nat → Bool) (next : Nat → Nat) (limit : Nat) : Nat → Nat → Search
  | 0, p => ⟨[], p, decide (limit ≤ p)⟩
  | turns + 1, p =>
      if p < limit then
        if isTag p then ⟨[p], p, true⟩
        else
          { seek isTag next limit turns (next p) with
            visited := p :: (seek isTag next limit turns (next p)).visited }
      else ⟨[], p, true⟩

variable {α β : Type} {isTag : Nat → Bool} {next : Nat → Nat} {limit turns p : Nat}

theorem seek_tag (more : p < limit) (tag : isTag p = true) :
    seek isTag next limit (turns + 1) p = ⟨[p], p, true⟩ := by
  rw [seek, if_pos more, if_pos tag]

theorem seek_next (more : p < limit) (other : isTag p = false) :
    seek isTag next limit (turns + 1) p =
      { seek isTag next limit turns (next p) with
        visited := p :: (seek isTag next limit turns (next p)).visited } := by
  rw [seek, if_pos more, if_neg (by rw [other]; exact Bool.false_ne_true)]

theorem seek_end (last : limit ≤ p) : seek isTag next limit turns p = ⟨[], p, true⟩ := by
  cases turns with
  | zero => rw [seek, decide_eq_true last]
  | succ turns => rw [seek, if_neg (Nat.not_lt.mpr last)]

/-- A search comes to its end if it only goes on. -/
theorem seek_ended (grows : ∀ p < limit, p < next p) (enough : limit ≤ p + turns) :
    (seek isTag next limit turns p).ended = true := by
  induction turns generalizing p with
  | zero => exact decide_eq_true enough
  | succ turns ih =>
      rcases Nat.lt_or_ge p limit with more | last
      · cases tag : isTag p with
        | true => rw [seek_tag more tag]
        | false =>
            rw [seek_next more tag]
            have further := grows p more
            exact ih (by omega)
      · rw [seek_end last]

theorem seek_visited {q : Nat} (member : q ∈ (seek isTag next limit turns p).visited) :
    q < limit := by
  induction turns generalizing p with
  | zero => exact absurd member List.not_mem_nil
  | succ turns ih =>
      rcases Nat.lt_or_ge p limit with more | last
      · cases tag : isTag p with
        | true =>
            rw [seek_tag more tag] at member
            exact List.mem_singleton.mp member ▸ more
        | false =>
            rw [seek_next more tag] at member
            rcases List.mem_cons.mp member with rfl | later
            · exact more
            · exact ih later
      · rw [seek_end last] at member
        exact absurd member List.not_mem_nil

/-- A field that was found was looked at. -/
theorem seek_stop (ended : (seek isTag next limit turns p).ended = true)
    (found : (seek isTag next limit turns p).stop < limit) :
    (seek isTag next limit turns p).stop ∈ (seek isTag next limit turns p).visited := by
  induction turns generalizing p with
  | zero => exact absurd (of_decide_eq_true ended) (Nat.not_le.mpr found)
  | succ turns ih =>
      rcases Nat.lt_or_ge p limit with more | last
      · cases tag : isTag p with
        | true =>
            rw [seek_tag more tag]
            exact List.mem_singleton.mpr rfl
        | false =>
            rw [seek_next more tag] at ended found ⊢
            exact List.mem_cons_of_mem _ (ih ended found)
      · rw [seek_end last] at found
        exact absurd found (Nat.not_lt.mpr last)

/-! ## Fields in a buffer -/

/-- A buffer has some values from a position on. -/
def Holds (mem : Nat → β) (p : Nat) (values : List β) : Prop := slice mem p values.length = values

variable {mem : Nat → β} {front back : List β}

theorem holds_append : Holds mem p (front ++ back) ↔
    Holds mem p front ∧ Holds mem (p + front.length) back := by
  rw [Holds, List.length_append, slice_add]
  constructor
  · intro whole
    exact List.append_inj whole (slice_length ..)
  · rintro ⟨first, second⟩
    rw [first, second]

theorem holds_cons {value : β} {rest : List β} : Holds mem p (value :: rest) ↔
    mem p = value ∧ Holds mem (p + 1) rest := by
  rw [Holds, List.length_cons, slice_succ, List.cons.injEq]
  rfl

/-- A search reads a field as it was encoded. -/
def ReadsField (mem : Nat → β) (isTag : Nat → Bool) (next : Nat → Nat) (limit : Nat)
    (encode : α → List β) (tagged : α → Bool) (field : α) : Prop :=
  ∀ p, Holds mem p (encode field) → p + (encode field).length ≤ limit →
    isTag p = tagged field ∧ next p = p + (encode field).length

variable {encode : α → List β} {tagged : α → Bool} {fields before after : List α} {field : α}

/-- There are no more fields than values. -/
theorem length_le_flatMap (some : ∀ field ∈ fields, encode field ≠ []) :
    fields.length ≤ (fields.flatMap encode).length := by
  induction fields with
  | nil => exact Nat.le_refl _
  | cons field fields ih =>
      have more := List.length_pos_iff.mpr (some field List.mem_cons_self)
      have rest := ih fun f member => some f (List.mem_cons_of_mem _ member)
      rw [List.flatMap_cons, List.length_append, List.length_cons]
      omega

/-- Fields without the tag are passed. -/
theorem seek_passed (holds : Holds mem p (fields.flatMap encode))
    (inside : p + (fields.flatMap encode).length ≤ limit)
    (reads : ∀ field ∈ fields, ReadsField mem isTag next limit encode tagged field)
    (others : ∀ field ∈ fields, tagged field = false)
    (some : ∀ field ∈ fields, encode field ≠ []) :
    (seek isTag next limit (fields.length + turns) p).stop =
      (seek isTag next limit turns (p + (fields.flatMap encode).length)).stop := by
  induction fields generalizing p with
  | nil =>
      rw [List.length_nil, Nat.zero_add]
      rfl
  | cons field fields ih =>
      rw [List.flatMap_cons, holds_append] at holds
      rw [List.flatMap_cons, List.length_append, ← Nat.add_assoc] at inside ⊢
      have more := List.length_pos_iff.mpr (some field List.mem_cons_self)
      obtain ⟨tag, further⟩ := reads field List.mem_cons_self p holds.1 (by omega)
      rw [others field List.mem_cons_self] at tag
      rw [List.length_cons, Nat.add_right_comm, seek_next (by omega) tag, further]
      exact ih holds.2 inside (fun f member => reads f (List.mem_cons_of_mem _ member))
        (fun f member => others f (List.mem_cons_of_mem _ member))
        fun f member => some f (List.mem_cons_of_mem _ member)

/-- Without the tag nothing is found if what is behind the fields leads behind the limit. -/
theorem seek_missing (holds : Holds mem p (fields.flatMap encode))
    (inside : p + (fields.flatMap encode).length ≤ limit)
    (reads : ∀ field ∈ fields, ReadsField mem isTag next limit encode tagged field)
    (others : ∀ field ∈ fields, tagged field = false)
    (some : ∀ field ∈ fields, encode field ≠ []) (enough : fields.length < turns)
    (behind : isTag (p + (fields.flatMap encode).length) = false)
    (far : limit ≤ next (p + (fields.flatMap encode).length)) :
    limit ≤ (seek isTag next limit turns p).stop := by
  obtain ⟨rest, rfl⟩ := Nat.exists_eq_add_of_lt enough
  rw [Nat.add_assoc, seek_passed holds inside reads others some]
  rcases Nat.lt_or_ge (p + (fields.flatMap encode).length) limit with more | last
  · rw [seek_next more behind, seek_end far]
    exact far
  · rw [seek_end last]
    exact last

/-- The first field with the tag is found. -/
theorem seek_found (holds : Holds mem p ((before ++ field :: after).flatMap encode))
    (inside : p + ((before ++ field :: after).flatMap encode).length ≤ limit)
    (reads : ∀ f ∈ before ++ [field], ReadsField mem isTag next limit encode tagged f)
    (others : ∀ f ∈ before, tagged f = false) (tag : tagged field = true)
    (some : ∀ f ∈ before ++ [field], encode f ≠ []) (enough : before.length < turns) :
    (seek isTag next limit turns p).stop = p + (before.flatMap encode).length ∧
      Holds mem (p + (before.flatMap encode).length) (encode field) := by
  rw [List.flatMap_append, List.flatMap_cons, holds_append, holds_append] at holds
  obtain ⟨first, here, -⟩ := holds
  rw [List.flatMap_append, List.flatMap_cons, List.length_append, List.length_append] at inside
  have member : field ∈ before ++ [field] := List.mem_append_right _ List.mem_cons_self
  have more := List.length_pos_iff.mpr (some field member)
  refine ⟨?_, here⟩
  obtain ⟨rest, rfl⟩ := Nat.exists_eq_add_of_lt enough
  have found := (reads field member _ here (by omega)).1
  rw [Nat.add_assoc, seek_passed first (by omega)
    (fun f member => reads f (List.mem_append_left _ member)) others
    fun f member => some f (List.mem_append_left _ member),
    seek_tag (by omega) (found.trans tag)]

end PosFirmware.Foundation
