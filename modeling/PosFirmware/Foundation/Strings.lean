import Mathlib.Data.List.GetD
import Mathlib.Data.List.TakeWhile

/-! # Strings in buffers

Strings that end with a certain symbol, the first place of one string in another, and copies into
a buffer that must have room for them.
-/

namespace PosFirmware.Foundation

variable {α : Type} {needle front middle back written : List α} {place size : Nat}
  {stop : α}

/-- The symbols before the first one that ends a string. -/
def stringOf [DecidableEq α] (stop : α) (buf : List α) : List α := buf.takeWhile fun c => c ≠ stop

/-- A string filled up to a size. -/
def filledUp (stop : α) (size : Nat) (string : List α) : List α :=
  string ++ List.replicate (size - string.length) stop

/-- The first place of a string in another. -/
def strstr [DecidableEq α] : List α → List α → Option Nat
  | [], needle => if needle = [] then some 0 else none
  | c :: hay, needle => if needle <+: c :: hay then some 0 else (strstr hay needle).map (· + 1)

/-- A copy into a buffer, if there is room. -/
def copyTo (buf : List α) (place : Nat) (written : List α) : Option (List α) :=
  if place + written.length ≤ buf.length then
    some (buf.take place ++ (written ++ buf.drop (place + written.length)))
  else none

/-! ## Strings -/

section

variable [DecidableEq α]

theorem stringOf_append (free : stop ∉ front) : stringOf stop (front ++ stop :: back) = front := by
  rw [stringOf, List.takeWhile_append_of_pos, List.takeWhile_cons_of_neg (by simp), List.append_nil]
  intro c member
  exact decide_eq_true fun same => free (same ▸ member)

theorem stringOf_of_free (free : stop ∉ front) : stringOf stop front = front := by
  rw [stringOf, List.takeWhile_eq_self_iff]
  intro c member
  exact decide_eq_true fun same => free (same ▸ member)

/-- A string with symbols that end it behind it. -/
theorem stringOf_replicate (free : stop ∉ front) (count : Nat) :
    stringOf stop (front ++ List.replicate count stop) = front := by
  cases count with
  | zero => rw [List.replicate_zero, List.append_nil, stringOf_of_free free]
  | succ count => exact stringOf_append free

theorem stringOf_stop (buf : List α) : stringOf stop (stop :: buf) = [] :=
  List.takeWhile_cons_of_neg (by simp)

theorem stringOf_cons {c : α} (other : c ≠ stop) (buf : List α) :
    stringOf stop (c :: buf) = c :: stringOf stop buf :=
  List.takeWhile_cons_of_pos (decide_eq_true other)

/-- A part of a buffer holds the end of its first string if the string is shorter. -/
theorem stop_mem_take_iff {buf : List α} {count : Nat} :
    stop ∈ buf.take count ↔ stop ∈ buf ∧ (stringOf stop buf).length < count := by
  induction buf generalizing count with
  | nil => simp
  | cons c buf ih =>
      cases count with
      | zero => simp
      | succ count =>
          by_cases same : c = stop
          · simp [same, stringOf_stop]
          · rw [List.take_succ_cons, stringOf_cons same, List.mem_cons, List.mem_cons,
              or_iff_right (Ne.symm same), or_iff_right (Ne.symm same), List.length_cons,
              Nat.succ_lt_succ_iff]
            exact ih

theorem stringOf_take (buf : List α) (count : Nat) :
    stringOf stop (buf.take count) = (stringOf stop buf).take count := by
  induction buf generalizing count with
  | nil => rw [List.take_nil, stringOf, List.takeWhile_nil, List.take_nil]
  | cons c buf ih =>
      cases count with
      | zero => rfl
      | succ count =>
          rw [List.take_succ_cons]
          by_cases same : c = stop
          · rw [same, stringOf_stop, stringOf_stop, List.take_nil]
          · rw [stringOf_cons same, stringOf_cons same, List.take_succ_cons, ih]

theorem stop_not_mem_stringOf (buf : List α) : stop ∉ stringOf stop buf := by
  intro member
  have other := List.mem_takeWhile_imp (show stop ∈ buf.takeWhile fun c => c ≠ stop from member)
  exact absurd rfl (of_decide_eq_true other)

end

theorem filledUp_length (fits : front.length ≤ size) : (filledUp stop size front).length = size := by
  rw [filledUp, List.length_append, List.length_replicate]
  omega

theorem stringOf_filledUp [DecidableEq α] (free : stop ∉ front) : stringOf stop (filledUp stop size front) = front :=
  stringOf_replicate free _

/-- A string without the filling is in front of what was filled up if it is in front of the
string. -/
theorem prefix_filledUp (free : stop ∉ needle) :
    needle <+: filledUp stop size front ↔ needle <+: front := by
  refine ⟨fun inFront => ?_, fun inFront => inFront.trans (List.prefix_append _ _)⟩
  rcases List.prefix_or_prefix_of_prefix inFront (List.prefix_append front _) with short | long
  · exact short
  obtain ⟨tail, rfl⟩ := long
  cases tail with
  | nil => exact ⟨[], (List.append_nil _).trans (List.append_nil front)⟩
  | cons c tail =>
      have filling := (List.prefix_append_right_inj front).mp inFront
      have same : c = stop := List.eq_of_mem_replicate (filling.subset List.mem_cons_self)
      exact absurd (List.mem_append_right front (same ▸ List.mem_cons_self)) free

/-! ## Copies -/

/-- A copy in the place of a part of the same length. -/
theorem copyTo_part (same : written.length = middle.length) :
    copyTo (front ++ (middle ++ back)) front.length written = some (front ++ (written ++ back)) := by
  have room : front.length + written.length ≤ (front ++ (middle ++ back)).length := by
    simp only [List.length_append]
    omega
  rw [copyTo, if_pos room, List.take_left, same, ← List.drop_drop, List.drop_left, List.drop_left]

/-- A copy over a filling. -/
theorem copyTo_replicate {count : Nat} (fits : written.length ≤ size) (room : size ≤ count) :
    copyTo (front ++ List.replicate count stop) front.length written =
      some (front ++ filledUp stop size written ++ List.replicate (count - size) stop) := by
  have split : List.replicate count stop = List.replicate written.length stop ++
      (List.replicate (size - written.length) stop ++ List.replicate (count - size) stop) := by
    rw [List.replicate_append_replicate, List.replicate_append_replicate]
    congr 1
    omega
  rw [split, copyTo_part List.length_replicate.symm, filledUp, List.append_assoc, List.append_assoc]

end PosFirmware.Foundation
