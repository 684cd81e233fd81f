import Mathlib.Data.Nat.ModEq

/-!
# Sums with an end-around carry

Words of `w` bits are added so that a carry out of the highest bit comes in at the lowest. The
result is a residue of the sum modulo `2 ^ w - 1`, with `2 ^ w - 1` in the place of zero unless
every word is zero.
-/

namespace PosFirmware.Foundation

variable {w m n : Nat}

/-- The carries of a sum, added to it. -/
def endAround (w n : Nat) : Nat := n / 2 ^ w + n % 2 ^ w

/-- The residue of a sum: zero for the sum zero, and else a number from `1` to `2 ^ w - 1`. -/
def endAroundSum (w n : Nat) : Nat := if n = 0 then 0 else (n - 1) % (2 ^ w - 1) + 1

theorem endAround_modEq (w n : Nat) : endAround w n ≡ n [MOD 2 ^ w - 1] := by
  have positive : 0 < 2 ^ w := Nat.two_pow_pos w
  have one : 2 ^ w ≡ 1 [MOD 2 ^ w - 1] :=
    ((Nat.modEq_iff_dvd' positive).mpr (dvd_refl _)).symm
  have parts := (one.mul_right (n / 2 ^ w)).add_right (n % 2 ^ w)
  rw [Nat.div_add_mod, Nat.one_mul] at parts
  exact parts.symm

theorem endAround_pos (some : 0 < n) : 0 < endAround w n := by
  rw [endAround, Nat.add_comm]
  by_contra none
  have both := Nat.div_add_mod n (2 ^ w)
  rw [Nat.eq_zero_of_add_eq_zero_left (Nat.eq_zero_of_not_pos none),
    Nat.eq_zero_of_add_eq_zero_right (Nat.eq_zero_of_not_pos none)] at both
  omega

theorem endAround_pos_iff : 0 < endAround w n ↔ 0 < n := by
  refine ⟨fun positive => Nat.pos_of_ne_zero fun zero => ?_, endAround_pos⟩
  rw [zero, endAround, Nat.zero_div, Nat.zero_mod] at positive
  exact absurd positive (Nat.lt_irrefl 0)

theorem endAroundSum_modEq (w n : Nat) : endAroundSum w n ≡ n [MOD 2 ^ w - 1] := by
  unfold endAroundSum
  split
  · next zero => rw [zero]
  · next some =>
    have residue := (Nat.mod_modEq (n - 1) (2 ^ w - 1)).add_right 1
    rw [Nat.sub_add_cancel (Nat.pos_of_ne_zero some)] at residue
    exact residue

theorem endAroundSum_le (w n : Nat) (wide : 1 < 2 ^ w) : endAroundSum w n ≤ 2 ^ w - 1 := by
  unfold endAroundSum
  split
  · exact Nat.zero_le _
  · exact Nat.mod_lt _ (by omega)

/-- Numbers from `1` to `m` with one residue are equal. -/
theorem eq_of_modEq_pos {x y : Nat} (same : x ≡ y [MOD m]) (posX : 0 < x) (leX : x ≤ m)
    (posY : 0 < y) (leY : y ≤ m) : x = y := by
  wlog order : x ≤ y with swapped
  · exact (swapped same.symm posY leY posX leX (Nat.le_of_not_le order)).symm
  have zero := Nat.eq_zero_of_dvd_of_lt ((Nat.modEq_iff_dvd' order).mp same) (by omega)
  omega

/-- What is left of a sum when its carries were added is its residue. -/
theorem eq_endAroundSum {n total : Nat} (wide : 1 < 2 ^ w) (same : n ≡ total [MOD 2 ^ w - 1])
    (small : n < 2 ^ w) (positive : 0 < total ↔ 0 < n) : n = endAroundSum w total := by
  by_cases zero : total = 0
  · have none : n = 0 := by omega
    rw [none, zero]
    rfl
  · refine eq_of_modEq_pos (same.trans (endAroundSum_modEq w total).symm)
      (positive.mp (Nat.pos_of_ne_zero zero)) (by omega) ?_ (endAroundSum_le w total wide)
    rw [endAroundSum, if_neg zero]
    exact Nat.succ_pos _

theorem endAroundSum_pos_iff : 0 < endAroundSum w n ↔ 0 < n := by
  unfold endAroundSum
  split
  · next zero => rw [zero]
  · next some => exact iff_of_true (Nat.succ_pos _) (Nat.pos_of_ne_zero some)

/-- A part of a sum may be taken by its residue. -/
theorem endAroundSum_add (wide : 1 < 2 ^ w) (m n : Nat) :
    endAroundSum w (endAroundSum w m + n) = endAroundSum w (m + n) := by
  have bound := endAroundSum_le w (endAroundSum w m + n) wide
  refine eq_endAroundSum wide ?_ (by omega) ?_
  · exact (endAroundSum_modEq w _).trans ((endAroundSum_modEq w m).add_right n)
  · rw [endAroundSum_pos_iff, Nat.add_pos_iff_pos_or_pos, Nat.add_pos_iff_pos_or_pos,
      endAroundSum_pos_iff]

theorem endAroundSum_idem (wide : 1 < 2 ^ w) (n : Nat) :
    endAroundSum w (endAroundSum w n) = endAroundSum w n := endAroundSum_add wide n 0

/-- A sum is all ones when it is a multiple of `2 ^ w - 1` other than zero. -/
theorem endAroundSum_ones (wide : 1 < 2 ^ w) :
    endAroundSum w n = 2 ^ w - 1 ↔ 0 < n ∧ 2 ^ w - 1 ∣ n := by
  constructor
  · intro ones
    have some : n ≠ 0 := by
      rintro rfl
      rw [endAroundSum, if_pos rfl] at ones
      omega
    have residue := endAroundSum_modEq w n
    rw [ones] at residue
    exact ⟨Nat.pos_of_ne_zero some, (Nat.modEq_zero_iff_dvd.mp
      (residue.symm.trans (Nat.modEq_zero_iff_dvd.mpr (dvd_refl _))))⟩
  · rintro ⟨some, divides⟩
    refine (eq_endAroundSum (n := 2 ^ w - 1) wide ?_ (by omega) ?_).symm
    · exact (Nat.modEq_zero_iff_dvd.mpr (dvd_refl _)).trans (Nat.modEq_zero_iff_dvd.mpr divides).symm
    · exact iff_of_true some (by omega)

end PosFirmware.Foundation
