import Mathlib.Data.List.Basic
import Mathlib.Data.Finset.Card
import Mathlib.Tactic

/-! # Parity of Boolean families

The exclusive or of the first values of a Boolean family, its linearity, and
the two ways the development uses it: folding a family onto its halves, and
reading the parity of a family with few raised values.
-/

namespace PosFirmware.Foundation

/-- The exclusive or of the first `count` values of a family. -/
def xorSum (count : Nat) (family : Nat → Bool) : Bool :=
  (List.range count).foldl (fun total index => total ^^ family index) false

@[simp] theorem xorSum_zero (family : Nat → Bool) : xorSum 0 family = false := rfl

/-- One more value is added to the parity. -/
theorem xorSum_succ (count : Nat) (family : Nat → Bool) :
    xorSum (count + 1) family = (xorSum count family ^^ family count) := by
  simp only [xorSum, List.range_succ, List.foldl_append, List.foldl_cons, List.foldl_nil]

/-- Families that agree below the count have the same parity. -/
theorem xorSum_congr {count : Nat} {first second : Nat → Bool}
    (same : ∀ index < count, first index = second index) :
    xorSum count first = xorSum count second := by
  induction count with
  | zero => rfl
  | succ count ih =>
      rw [xorSum_succ, xorSum_succ, ih fun index below => same index (by omega),
        same count (by omega)]

/-- Parity is additive. -/
theorem xorSum_xor (count : Nat) (first second : Nat → Bool) :
    xorSum count (fun index => first index ^^ second index) =
      (xorSum count first ^^ xorSum count second) := by
  induction count with
  | zero => rfl
  | succ count ih =>
      rw [xorSum_succ, xorSum_succ, xorSum_succ, ih]
      cases xorSum count first <;> cases xorSum count second <;> cases first count <;>
        cases second count <;> rfl

/-- The parity of a family raised at one index. -/
theorem xorSum_single (count raised : Nat) :
    xorSum count (fun index => decide (index = raised)) = decide (raised < count) := by
  induction count with
  | zero => rfl
  | succ count ih =>
      rw [xorSum_succ, ih]
      by_cases here : count = raised
      · subst here
        simp
      · by_cases below : raised < count
        · simp [here, below, Nat.lt_succ_of_lt below]
        · have above : ¬ raised < count + 1 := by omega
          simp [here, below, above]

/-- The parity of a family raised nowhere. -/
theorem xorSum_false (count : Nat) : xorSum count (fun _ => false) = false := by
  induction count with
  | zero => rfl
  | succ count ih => rw [xorSum_succ, ih]; rfl

/-- The parity of two consecutive runs is the parity of both. -/
theorem xorSum_add (first second : Nat) (family : Nat → Bool) :
    xorSum (first + second) family =
      (xorSum first family ^^ xorSum second fun index => family (first + index)) := by
  induction second with
  | zero => simp
  | succ second ih =>
      rw [← Nat.add_assoc, xorSum_succ, ih, xorSum_succ, Bool.xor_assoc]

/-- A family may be folded onto its first half before its parity is taken. -/
theorem xorSum_halve (half : Nat) (family : Nat → Bool) :
    xorSum (half + half) family =
      xorSum half (fun index => family index ^^ family (half + index)) := by
  rw [xorSum_add, xorSum_xor]

/-- The parity of consecutive blocks of one size is the parity of the block
parities. -/
theorem xorSum_mul (blocks size : Nat) (family : Nat → Bool) :
    xorSum (blocks * size) family =
      xorSum blocks (fun block => xorSum size fun index => family (block * size + index)) := by
  induction blocks with
  | zero => simp
  | succ blocks ih => rw [Nat.succ_mul, xorSum_add, ih, xorSum_succ]

end PosFirmware.Foundation
