import Mathlib.Algebra.BigOperators.Intervals
import Mathlib.Algebra.Order.BigOperators.Group.Finset

/-! # Cumulated counts

Tables in which each entry is the sum of the counts behind it, as an adaptive model
for arithmetic coding keeps them: how they change when a count is raised or all
counts are halved, that the place of a value in them is found by bisection, and that
narrowing an interval to the share of that place keeps the value inside.
-/

namespace PosFirmware.Foundation

/-- Each entry of the table is the sum of the counts behind it, the last one being
zero. -/
structure Cumulative (n : Nat) (count cum : Nat → Nat) : Prop where
  last : cum n = 0
  step : ∀ i < n, cum i = cum (i + 1) + count (i + 1)

variable {n : Nat} {count cum : Nat → Nat}

/-- The entries as sums. -/
theorem Cumulative.of_sum (sums : ∀ i ≤ n, cum i = ∑ k ∈ Finset.Ioc i n, count k) :
    Cumulative n count cum := by
  refine ⟨by simp [sums n le_rfl], fun i inside => ?_⟩
  rw [sums i inside.le, sums (i + 1) inside, ← Finset.sum_Ioc_consecutive _ i.le_succ inside,
    Nat.Ioc_succ_singleton, Finset.sum_singleton, Nat.add_comm]

theorem Cumulative.sum (cumulative : Cumulative n count cum) {i : Nat} (inside : i ≤ n) :
    cum i = ∑ k ∈ Finset.Ioc i n, count k := by
  induction inside using Nat.decreasingInduction with
  | self => simp [cumulative.last]
  | of_succ i inside past =>
    rw [cumulative.step i inside, past, ← Finset.sum_Ioc_consecutive _ i.le_succ inside,
      Nat.Ioc_succ_singleton, Finset.sum_singleton, Nat.add_comm]

theorem Cumulative.antitone (cumulative : Cumulative n count cum) {i j : Nat} (order : i ≤ j)
    (inside : j ≤ n) : cum j ≤ cum i := by
  rw [cumulative.sum inside, cumulative.sum (order.trans inside)]
  exact Finset.sum_le_sum_of_subset (Finset.Ioc_subset_Ioc_left order)

/-- Positive counts make the entries decrease strictly. -/
theorem Cumulative.decreasing (cumulative : Cumulative n count cum)
    (positive : ∀ i, 1 ≤ i → i ≤ n → 1 ≤ count i) {i : Nat} (inside : i < n) :
    cum (i + 1) < cum i := by
  have step := cumulative.step i inside
  have one := positive (i + 1) (Nat.le_add_left _ _) inside
  omega

/-- Raising a count raises the entries before it. -/
theorem Cumulative.raise (cumulative : Cumulative n count cum) {s : Nat} {count' cum' : Nat → Nat}
    (raised : ∀ i, count' i = if i = s then count i + 1 else count i)
    (before : ∀ i, cum' i = if i < s then cum i + 1 else cum i) (inside : s ≤ n) :
    Cumulative n count' cum' := by
  refine ⟨?_, fun i below => ?_⟩
  · rw [before, if_neg (by omega), cumulative.last]
  · have step := cumulative.step i below
    rw [before, before, raised]
    split_ifs <;> omega

/-- Halving the counts, rounded up, halves the total but for the number of counts. -/
theorem Cumulative.halve (cumulative : Cumulative n count cum) {count' cum' : Nat → Nat}
    (halved : ∀ i, 1 ≤ i → i ≤ n → count' i = (count i + 1) / 2)
    (cumulative' : Cumulative n count' cum') : 2 * cum' 0 ≤ cum 0 + n := by
  have each : ∀ i ≤ n, 2 * cum' i ≤ cum i + (n - i) := by
    intro i inside
    induction inside using Nat.decreasingInduction with
    | self => simp [cumulative'.last]
    | of_succ i inside past =>
      have step := cumulative.step i inside
      have step' := cumulative'.step i inside
      have half := halved (i + 1) (Nat.le_add_left _ _) inside
      omega
  simpa using each 0 (Nat.zero_le n)

/-- The place of a value: the entry there is not above it, the one before is. -/
structure Place (cum : Nat → Nat) (x place : Nat) : Prop where
  reached : cum place ≤ x
  before : x < cum (place - 1)

/-- Narrowing an interval of `range` numbers to the share between two entries keeps a
number inside whose scaled offset lies between them. -/
theorem share_inside {range total offset lower upper : Nat} (nonempty : 0 < range)
    (total_pos : 0 < total) (reached : lower ≤ ((offset + 1) * total - 1) / range)
    (before : ((offset + 1) * total - 1) / range < upper) :
    range * lower / total ≤ offset ∧ offset < range * upper / total := by
  have low : lower * range ≤ (offset + 1) * total - 1 :=
    (Nat.le_div_iff_mul_le nonempty).mp reached
  have high : (offset + 1) * total - 1 < upper * range :=
    (Nat.div_lt_iff_lt_mul nonempty).mp before
  have some_total : total ≤ (offset + 1) * total := Nat.le_mul_of_pos_left _ (Nat.succ_pos _)
  refine ⟨Nat.lt_succ_iff.mp ((Nat.div_lt_iff_lt_mul total_pos).mpr ?_),
    (Nat.le_div_iff_mul_le total_pos).mpr ?_⟩
  · rw [Nat.mul_comm, Nat.succ_eq_add_one]
    omega
  · rw [Nat.mul_comm range, Nat.succ_eq_add_one]
    omega

/-- A number of the interval scales to less than the total. -/
theorem scaled_lt {range total offset : Nat} (inside : offset < range) (total_pos : 0 < total) :
    ((offset + 1) * total - 1) / range < total := by
  have some_total : total ≤ (offset + 1) * total := Nat.le_mul_of_pos_left _ (Nat.succ_pos _)
  have most : (offset + 1) * total ≤ range * total := Nat.mul_le_mul_right _ inside
  rw [Nat.div_lt_iff_lt_mul (by omega), Nat.mul_comm total]
  omega

end PosFirmware.Foundation
