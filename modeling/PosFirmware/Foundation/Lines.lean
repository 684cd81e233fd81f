import Mathlib.Data.List.Infix

/-! # Lines

A text that is read line by line. `beforeMark` is the part in front of a mark, such as that of a
comment, and `fromLast` the part from the last of a symbol on.
-/

namespace PosFirmware.Foundation

variable {α : Type} {sep : α} {mark front back xs ys : List α}

/-- A text is a line, or a line and a text behind it. -/
theorem lines_induction [DecidableEq α] (sep : α) {motive : List α → Prop}
    (last : ∀ line, sep ∉ line → motive line)
    (next : ∀ line rest, sep ∉ line → motive rest → motive (line ++ sep :: rest))
    (xs : List α) : motive xs := by
  induction count : xs.count sep generalizing xs with
  | zero => exact last xs (List.count_eq_zero.mp count)
  | succ n ih =>
      have member : sep ∈ xs := List.count_pos_iff.mp (by rw [count]; exact n.succ_pos)
      obtain ⟨line, rest, rfl, free⟩ := List.eq_append_cons_of_mem member
      apply next line rest free
      apply ih
      rw [List.count_append, List.count_eq_zero.mpr free, List.count_cons_self] at count
      exact Nat.succ.inj (count.symm.trans (Nat.zero_add _)).symm

/-! ## In front of a mark -/

/-- The part in front of the first mark. -/
def beforeMark [DecidableEq α] (mark : List α) : List α → List α
  | [] => []
  | x :: xs => if mark <+: x :: xs then [] else x :: beforeMark mark xs

section

variable [DecidableEq α]

theorem beforeMark_cons {x : α} (clear : ¬mark <+: x :: xs) :
    beforeMark mark (x :: xs) = x :: beforeMark mark xs := if_neg clear

theorem beforeMark_starts (starts : mark <+: xs) : beforeMark mark xs = [] := by
  cases xs with
  | nil => rfl
  | cons x xs => exact if_pos starts

theorem beforeMark_initial (mark xs : List α) : beforeMark mark xs <+: xs := by
  induction xs with
  | nil => exact List.prefix_refl _
  | cons x xs ih =>
      rw [beforeMark]
      split
      · exact List.nil_prefix
      · exact (List.cons_prefix_cons).mpr ⟨rfl, ih⟩

/-- Behind the part stands nothing, or the mark. -/
theorem beforeMark_parts (mark xs : List α) :
    beforeMark mark xs = xs ∨ ∃ rest, xs = beforeMark mark xs ++ rest ∧ mark <+: rest := by
  induction xs with
  | nil => exact .inl rfl
  | cons x xs ih =>
      by_cases starts : mark <+: x :: xs
      · rw [beforeMark_starts starts]
        exact .inr ⟨x :: xs, rfl, starts⟩
      · rw [beforeMark_cons starts]
        rcases ih with same | ⟨rest, parts, behind⟩
        · exact .inl (congrArg (x :: ·) same)
        · exact .inr ⟨rest, congrArg (x :: ·) parts, behind⟩

/-- A part of the part stands in front of what is left of it. -/
theorem beforeMark_append (parts : beforeMark mark xs = front ++ back) :
    ∃ ys, xs = front ++ ys ∧ beforeMark mark ys = back := by
  induction front generalizing xs with
  | nil => exact ⟨xs, rfl, parts⟩
  | cons x front ih =>
      cases xs with
      | nil => cases parts
      | cons y xs =>
          by_cases starts : mark <+: y :: xs
          · rw [beforeMark_starts starts] at parts
            cases parts
          · rw [beforeMark_cons starts, List.cons_append] at parts
            obtain ⟨same, parts⟩ := List.cons.inj parts
            obtain ⟨ys, rfl, left⟩ := ih parts
            exact ⟨ys, congrArg (· :: (front ++ ys)) same, left⟩

/-- Nothing starts a mark in the part. -/
theorem beforeMark_clear (inFront : front <+: beforeMark mark (front ++ ys)) :
    beforeMark mark (front ++ ys) = front ++ beforeMark mark ys := by
  obtain ⟨back, parts⟩ := inFront
  obtain ⟨zs, same, left⟩ := beforeMark_append parts.symm
  rw [← parts, List.append_cancel_left same, left]

/-- What stands behind a part of the part. -/
theorem beforeMark_behind (front : List α) (inFront : front ++ back <+: beforeMark mark (front ++ ys)) :
    back <+: beforeMark mark ys := by
  rw [beforeMark_clear ((List.prefix_append front back).trans inFront)] at inFront
  exact (List.prefix_append_right_inj front).mp inFront

theorem beforeMark_inside (inside : mark <:+: front) :
    beforeMark mark (front ++ ys) = beforeMark mark front := by
  induction front with
  | nil =>
      rw [List.infix_nil.mp inside]
      exact beforeMark_starts List.nil_prefix
  | cons x front ih =>
      by_cases starts : mark <+: x :: front
      · rw [beforeMark_starts starts,
          beforeMark_starts (starts.trans (List.prefix_append _ _))]
      · have inside := (List.infix_cons_iff.mp inside).resolve_left starts
        by_cases later : mark <+: x :: (front ++ ys)
        · exact absurd later fun later => starts (List.prefix_of_prefix_length_le later
            (List.prefix_append (x :: front) ys) (Nat.le_succ_of_le inside.length_le))
        · rw [List.cons_append, beforeMark_cons later, beforeMark_cons starts, ih inside]

/-- A symbol that is not in the mark, and what stands in front of it. -/
theorem beforeMark_through {c : α} (other : c ∉ mark) (some_ : mark ≠ [])
    (clear : ¬mark <:+: front) :
    beforeMark mark (front ++ c :: ys) = front ++ c :: beforeMark mark ys := by
  have here : ¬mark <+: c :: ys := by
    rintro starts
    cases mark with
    | nil => exact some_ rfl
    | cons m mark =>
        obtain ⟨same, -⟩ := List.cons_prefix_cons.mp starts
        exact other (same ▸ List.mem_cons_self)
  induction front with
  | nil => exact beforeMark_cons here
  | cons x front ih =>
      have starts : ¬mark <+: x :: (front ++ c :: ys) := by
        intro starts
        by_cases short : mark.length ≤ (x :: front).length
        · exact clear (List.prefix_of_prefix_length_le starts
            (List.prefix_append (x :: front) (c :: ys)) short).isInfix
        · have through : (x :: front) ++ [c] <+: x :: (front ++ c :: ys) :=
            ⟨ys, by rw [List.append_assoc]; rfl⟩
          have within := List.prefix_of_prefix_length_le through starts (by
            rw [List.length_append, List.length_singleton]
            exact Nat.lt_of_not_le short)
          exact other (within.subset (List.mem_append_right _ List.mem_cons_self))
      rw [List.cons_append, beforeMark_cons starts,
        ih fun inside => clear (inside.trans (List.suffix_cons x front).isInfix)]
      rfl

theorem beforeMark_eq_self (some_ : mark ≠ []) : beforeMark mark xs = xs ↔ ¬mark <:+: xs := by
  constructor
  · intro same inside
    have inFront := @beforeMark_inside _ mark xs [] _ inside
    obtain ⟨front, back, rfl⟩ := inside
    rw [List.append_assoc] at same
    have clear := @beforeMark_clear _ mark front (mark ++ back) _ ⟨mark ++ back, same.symm⟩
    rw [same, beforeMark_starts (List.prefix_append mark back), List.append_nil] at clear
    have empty := List.append_right_eq_self.mp clear
    exact some_ (List.append_eq_nil_iff.mp empty).1
  · intro clear
    rcases beforeMark_parts mark xs with same | ⟨rest, parts, behind⟩
    · exact same
    · exact absurd (behind.isInfix.trans ⟨beforeMark mark xs, [], by
        rw [List.append_nil]; exact parts.symm⟩) clear

end

/-! ## From the last of a symbol -/

/-- The part from the last `sep` on, or all of it. -/
def fromLast [DecidableEq α] (sep : α) (xs : List α) : List α :=
  if sep ∈ xs then sep :: (xs.reverse.takeWhile (· ≠ sep)).reverse else xs

section

variable [DecidableEq α]

theorem fromLast_of_free (free : sep ∉ xs) : fromLast sep xs = xs := if_neg free

theorem fromLast_append (free : sep ∉ ys) : fromLast sep (xs ++ sep :: ys) = sep :: ys := by
  have member : sep ∈ xs ++ sep :: ys := List.mem_append_right _ List.mem_cons_self
  rw [fromLast, if_pos member, List.reverse_append, List.reverse_cons, List.append_assoc,
    List.takeWhile_append_of_pos, List.singleton_append, List.takeWhile_cons_of_neg,
    List.append_nil, List.reverse_reverse]
  · simp
  · intro c inside
    exact decide_eq_true fun same => free (same ▸ List.mem_reverse.mp inside)

/-- What is without the symbol goes on with the part. -/
theorem fromLast_behind (free : sep ∉ ys) : fromLast sep (xs ++ ys) = fromLast sep xs ++ ys := by
  by_cases member : sep ∈ xs
  · obtain ⟨front, back, parts, lastOne⟩ := List.eq_append_cons_of_mem (List.mem_reverse.mpr member)
    have same : xs = back.reverse ++ sep :: front.reverse := by
      rw [← List.reverse_reverse xs, parts, List.reverse_append, List.reverse_cons,
        List.append_assoc]
      rfl
    have noMore : sep ∉ front.reverse := fun inside => lastOne (List.mem_reverse.mp inside)
    rw [same, List.append_assoc, List.cons_append, fromLast_append noMore, fromLast_append]
    · rfl
    · exact fun inside => (List.mem_append.mp inside).elim noMore free
  · rw [fromLast_of_free member, fromLast_of_free]
    exact fun inside => (List.mem_append.mp inside).elim member free

theorem fromLast_snoc : fromLast sep (xs ++ [sep]) = [sep] := fromLast_append List.not_mem_nil

theorem fromLast_suffix (sep : α) (xs : List α) : fromLast sep xs <:+ xs := by
  induction xs using List.reverseRecOn with
  | nil => exact List.suffix_refl _
  | append_singleton xs c ih =>
      by_cases same : c = sep
      · rw [same, fromLast_snoc]
        exact List.suffix_append _ _
      · rw [fromLast_behind fun member => same (List.mem_singleton.mp member).symm]
        obtain ⟨front, parts⟩ := ih
        exact ⟨front, by rw [← List.append_assoc, parts]⟩

end

end PosFirmware.Foundation
