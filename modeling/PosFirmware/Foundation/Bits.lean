import Mathlib.Data.List.Basic

/-! # Bits shifted into a word

A word packed from bits, the lowest first (`pack`), and a word into which bits are shifted from
above: after some of them it has the last ones (`shiftIn_shifted`).
-/

namespace PosFirmware.Foundation

variable {w : Nat}

/-- One bit as a word. -/
def bitWord (w : Nat) (bit : Bool) : BitVec w := if bit then 1 else 0

/-- A word of the first bits of a sequence, the lowest first. -/
def pack (w size : Nat) (bits : Nat → Bool) : BitVec w :=
  (List.range size).foldl (fun data i => data ||| bitWord w (bits i) <<< i) 0

/-- A word shifted down, with a bit on top of a number of bits. -/
def shiftIn (size : Nat) (data : BitVec w) (bit : Bool) : BitVec w :=
  data >>> 1 ||| bitWord w bit <<< (size - 1)

variable {size i k : Nat} {bits bits' : Nat → Bool} {data : BitVec w}

theorem getLsbD_bitWord (bit : Bool) (positive : 0 < w) :
    (bitWord w bit).getLsbD i = (bit && decide (i = 0)) := by
  cases bit with
  | false => simp [bitWord]
  | true => simp [bitWord, positive]

theorem pack_succ : pack w (size + 1) bits = pack w size bits ||| bitWord w (bits size) <<< size := by
  rw [pack, List.range_succ, List.foldl_append]
  rfl

theorem pack_congr (same : ∀ i < size, bits i = bits' i) : pack w size bits = pack w size bits' := by
  induction size with
  | zero => rfl
  | succ size ih =>
      rw [pack_succ, pack_succ, ih fun i below => same i (Nat.lt_succ_of_lt below),
        same size (Nat.lt_succ_self size)]

theorem getLsbD_pack (fits : size ≤ w) :
    (pack w size bits).getLsbD i = (decide (i < size) && bits i) := by
  induction size with
  | zero => simp [pack]
  | succ size ih =>
      rw [pack_succ, BitVec.getLsbD_or, ih (by omega), BitVec.getLsbD_shiftLeft,
        getLsbD_bitWord _ (by omega)]
      rcases Nat.lt_trichotomy i size with below | rfl | above
      · simp [below, Nat.lt_succ_of_lt below]
      · have within : i < w := by omega
        simp [within]
      · have other : ¬ i < size + 1 := by omega
        have behind : ¬ i - size = 0 := by omega
        simp [other, behind, Nat.lt_asymm above]

/-- A word packed from its own bits. -/
theorem pack_getLsbD (word : BitVec w) (fits : size ≤ w)
    (small : ∀ i, size ≤ i → word.getLsbD i = false) : pack w size word.getLsbD = word := by
  refine BitVec.eq_of_getLsbD_eq fun i _ => ?_
  rw [getLsbD_pack fits]
  by_cases below : i < size
  · simp [below]
  · simp [below, small i (by omega)]

/-- The word has the last of the bits that were shifted in. -/
def Shifted (size : Nat) (bits : Nat → Bool) (k : Nat) (data : BitVec w) : Prop :=
  ∀ i, data.getLsbD i = (decide (i < size ∧ size ≤ k + i) && bits (k + i - size))

theorem shifted_zero : Shifted size bits 0 (0 : BitVec w) := by
  intro i
  have empty : ¬ (i < size ∧ size ≤ 0 + i) := by omega
  rw [decide_eq_false empty, Bool.false_and]
  exact BitVec.getLsbD_zero

theorem shiftIn_shifted (positive : 0 < size) (fits : size ≤ w) (shifted : Shifted size bits k data) :
    Shifted size bits (k + 1) (shiftIn size data (bits k)) := by
  intro i
  rw [shiftIn, BitVec.getLsbD_or, BitVec.getLsbD_ushiftRight, BitVec.getLsbD_shiftLeft,
    getLsbD_bitWord _ (by omega), shifted (1 + i)]
  rcases Nat.lt_trichotomy (i + 1) size with below | last | above
  · have other : ¬ i - (size - 1) = 0 ∨ i < size - 1 := .inr (by omega)
    have same : k + (1 + i) - size = k + 1 + i - size := by omega
    have sameSide : (1 + i < size ∧ size ≤ k + (1 + i)) ↔ (i < size ∧ size ≤ k + 1 + i) := by omega
    have early : i < size - 1 := by omega
    simp [same, sameSide, early]
  · obtain rfl : i = size - 1 := by omega
    have within : size - 1 < w := by omega
    have off : ¬ (1 + (size - 1) < size ∧ size ≤ k + (1 + (size - 1))) := by omega
    have on : size - 1 < size ∧ size ≤ k + 1 + (size - 1) := by omega
    have same : k + 1 + (size - 1) - size = k := by omega
    simp only [off, on, within, same, Nat.lt_irrefl, Nat.sub_self, decide_true, decide_false,
      Bool.false_and, Bool.true_and, Bool.and_true, Bool.not_false, Bool.false_or, and_self]
  · have off : ¬ (1 + i < size ∧ size ≤ k + (1 + i)) := by omega
    have off' : ¬ (i < size ∧ size ≤ k + 1 + i) := by omega
    have other : ¬ i - (size - 1) = 0 := by omega
    simp [off, off', other]

/-- Once all bits of a word were shifted in, it is packed from them. -/
theorem Shifted.eq_pack (shifted : Shifted size bits k data) (fits : size ≤ w)
    (enough : size ≤ k) : data = pack w size fun i => bits (k - size + i) := by
  refine BitVec.eq_of_getLsbD_eq fun i _ => ?_
  rw [shifted, getLsbD_pack fits]
  have same : k + i - size = k - size + i := by omega
  have side : size ≤ k + i := by omega
  simp [same, side]

/-- Before that its lowest bit is not set. -/
theorem Shifted.lowest (shifted : Shifted size bits k data) (few : k < size) :
    data.getLsbD 0 = false := by
  have off : ¬ (0 < size ∧ size ≤ k + 0) := by omega
  rw [shifted 0, decide_eq_false off, Bool.false_and]

end PosFirmware.Foundation
