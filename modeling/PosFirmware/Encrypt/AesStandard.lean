import PosFirmware.Encrypt.Aes
import PosFirmware.Foundation.XorLinear
import Mathlib.Logic.Function.Iterate
import Mathlib.Data.Fin.VecNotation
import Mathlib.Algebra.Group.Basic
import Mathlib.Data.ZMod.Defs
import Mathlib.Data.List.GetD

/-! # The standard of the second block cipher

The standard describes the cipher by bytes in four columns: a box that inverts in a field of 256
elements, rows that are shifted, columns that are mixed, and keys that are added. The field's laws
make its two directions inverse to each other (`decipher_cipher`), and the boxes that the firmware
makes from powers and logarithms are the standard's (`FSb_eq`, `RSb_eq`).
-/

namespace PosFirmware.Encrypt

open Foundation

/-! ## The field -/

/-- The product with the element `x`. -/
def timesTwo (b : Byte) : Byte := b <<< 1 ^^^ (if b.msb then 0x1b else 0)

/-- The product in the field, by the bits of the first factor from the highest one on. -/
def gmul (a b : Byte) : Byte :=
  (List.range 8).foldl (fun sum i => timesTwo sum ^^^ (if a.getLsbD (7 - i) then b else 0)) 0

/-- The inverse in the field, and zero for zero. -/
def fieldInverse (b : Byte) : Byte :=
  (((List.range 256).map (BitVec.ofNat 8)).find? fun c => gmul b c = 1).getD 0

/-- The affine map behind the inversion, and what takes it back. -/
def affine (b : Byte) : Byte :=
  b ^^^ b.rotateLeft 1 ^^^ b.rotateLeft 2 ^^^ b.rotateLeft 3 ^^^ b.rotateLeft 4 ^^^ 0x63

def affineBack (b : Byte) : Byte := b.rotateLeft 1 ^^^ b.rotateLeft 3 ^^^ b.rotateLeft 6 ^^^ 0x05

def sBox (b : Byte) : Byte := affine (fieldInverse b)

def invSBox (b : Byte) : Byte := fieldInverse (affineBack b)

/-! ## The standard -/

/-- The bytes of a state, by their columns and rows. -/
abbrev Grid := Fin 4 → Fin 4 → Byte

def subBytes (s : Grid) : Grid := fun c r => sBox (s c r)

def shiftRows (s : Grid) : Grid := fun c r => s (c + r) r

/-- A column combined with the rotations of one row of factors. -/
def mixColumn (factors column : Fin 4 → Byte) : Fin 4 → Byte := fun r =>
  gmul (factors 0) (column r) ^^^ gmul (factors 1) (column (r + 1)) ^^^
    gmul (factors 2) (column (r + 2)) ^^^ gmul (factors 3) (column (r + 3))

def mixColumns (s : Grid) : Grid := fun c => mixColumn ![2, 3, 1, 1] (s c)

def addRoundKey (key s : Grid) : Grid := fun c r => s c r ^^^ key c r

def invSubBytes (s : Grid) : Grid := fun c r => invSBox (s c r)

def invShiftRows (s : Grid) : Grid := fun c r => s (c - r) r

def invMixColumns (s : Grid) : Grid := fun c => mixColumn ![14, 11, 13, 9] (s c)

def cipher (nr : Nat) (keys : Nat → Grid) (input : Grid) : Grid :=
  let s := (List.range (nr - 1)).foldl
    (fun s i => addRoundKey (keys (i + 1)) (mixColumns (shiftRows (subBytes s))))
    (addRoundKey (keys 0) input)
  addRoundKey (keys nr) (shiftRows (subBytes s))

def decipher (nr : Nat) (keys : Nat → Grid) (input : Grid) : Grid :=
  let s := (List.range (nr - 1)).foldl
    (fun s i => invMixColumns (addRoundKey (keys (nr - 1 - i)) (invSubBytes (invShiftRows s))))
    (addRoundKey (keys nr) input)
  addRoundKey (keys 0) (invSubBytes (invShiftRows s))

/-- The constant of a group of the key expansion. -/
def roundConstant (i : Nat) : Byte := timesTwo^[i - 1] 1

/-- The word of a key of `nk` words that is combined with the one `nk` places before. -/
def keyTemp (nk n : Nat) (last : Fin 4 → Byte) : Fin 4 → Byte :=
  if n % nk = 0 then fun r => sBox (last (r + 1)) ^^^ (if r = 0 then roundConstant (n / nk) else 0)
  else if nk > 6 ∧ n % nk = 4 then fun r => sBox (last r)
  else last

/-- A word of the expanded key. -/
def keyWord (nk : Nat) (key : List Byte) (n : Nat) : Fin 4 → Byte :=
  if n < nk ∨ nk = 0 then fun r => key.getD (4 * n + r) 0
  else fun r => keyWord nk key (n - nk) r ^^^ keyTemp nk n (keyWord nk key (n - 1)) r
termination_by n
decreasing_by all_goals omega

def standardRoundKey (nk : Nat) (key : List Byte) (round : Nat) : Grid := fun c => keyWord nk key (4 * round + c)

/-- The bytes of a block of sixteen, column after column. -/
def gridOf (bytes : List Byte) : Grid := fun c r => bytes.getD (4 * c + r) 0

/-! ## The laws of the field -/

theorem timesTwo_linear : XorLinear timesTwo := by
  have carried : XorLinear fun b : Byte => (if b.msb then 0x1b else 0 : Byte) := by
    intro a b
    cases first : a.msb <;> cases second : b.msb <;> simp [first, second]
  exact (XorLinear.id.shiftLeft 1).xor carried

theorem foldl_timesTwo_xor (items : List Nat) {f g h : Nat → Byte} (sum : ∀ i, f i = g i ^^^ h i)
    (one other : Byte) : items.foldl (fun (sum : Byte) i => timesTwo sum ^^^ f i) (one ^^^ other) =
      items.foldl (fun (sum : Byte) i => timesTwo sum ^^^ g i) one ^^^
        items.foldl (fun (sum : Byte) i => timesTwo sum ^^^ h i) other := by
  induction items generalizing one other with
  | nil => rfl
  | cons i items ih =>
      rw [List.foldl_cons, List.foldl_cons, List.foldl_cons, ← ih, timesTwo_linear, sum]
      congr 1
      ac_rfl

theorem gmul_linear (factor : Byte) : XorLinear (gmul factor) := by
  intro a b
  refine foldl_timesTwo_xor (List.range 8) (fun i => ?_) 0 0
  split_ifs
  · rfl
  · rfl

theorem linear_gmul (b : Byte) : XorLinear fun factor => gmul factor b := by
  intro one other
  refine foldl_timesTwo_xor (List.range 8) (fun i => ?_) 0 0
  rw [BitVec.getLsbD_xor]
  cases one.getLsbD (7 - i) <;> cases other.getLsbD (7 - i) <;> simp

theorem gmul_comm (a b : Byte) : gmul a b = gmul b a := by
  have single : ∀ i < 8, ∀ j < 8, gmul (BitVec.twoPow 8 i) (BitVec.twoPow 8 j) =
      gmul (BitVec.twoPow 8 j) (BitVec.twoPow 8 i) := by decide
  have first := (linear_gmul b).eq_of_single (gmul_linear b) fun i inside =>
    congrFun ((gmul_linear (BitVec.twoPow 8 i)).eq_of_single (linear_gmul _) (single i inside)) b
  exact congrFun first a

theorem gmul_assoc (a b c : Byte) : gmul (gmul a b) c = gmul a (gmul b c) := by
  have single : ∀ i < 8, ∀ j < 8, ∀ k < 8,
      gmul (gmul (BitVec.twoPow 8 i) (BitVec.twoPow 8 j)) (BitVec.twoPow 8 k) =
        gmul (BitVec.twoPow 8 i) (gmul (BitVec.twoPow 8 j) (BitVec.twoPow 8 k)) := by decide
  have third (i j : Nat) (first : i < 8) (second : j < 8) (c : Byte) :=
    congrFun ((gmul_linear (gmul (BitVec.twoPow 8 i) (BitVec.twoPow 8 j))).eq_of_single
      ((gmul_linear (BitVec.twoPow 8 i)).comp (gmul_linear (BitVec.twoPow 8 j)))
      (single i first j second)) c
  have second (i : Nat) (first : i < 8) (b c : Byte) :=
    congrFun (((linear_gmul c).comp (gmul_linear (BitVec.twoPow 8 i))).eq_of_single
      ((gmul_linear (BitVec.twoPow 8 i)).comp (linear_gmul c))
      fun j inside => third i j first inside c) b
  have first := ((linear_gmul c).comp (linear_gmul b)).eq_of_single (linear_gmul (gmul b c))
    fun i inside => second i inside b c
  exact congrFun first a

theorem gmul_one (b : Byte) : gmul b 1 = b :=
  congrFun ((linear_gmul 1).eq_of_single XorLinear.id (by decide)) b

theorem fieldInverse_eq {b c : Byte} (inverse : gmul b c = 1) : fieldInverse b = c := by
  unfold fieldInverse
  have member : c ∈ (List.range 256).map (BitVec.ofNat 8) :=
    List.mem_map.mpr ⟨c.toNat, List.mem_range.mpr c.isLt, BitVec.ofNat_toNat .. |>.trans (by simp)⟩
  cases found : ((List.range 256).map (BitVec.ofNat 8)).find? fun c => gmul b c = 1 with
  | none => exact absurd inverse (by simpa using List.find?_eq_none.mp found c member)
  | some c' =>
      have inverse' : gmul b c' = 1 := by simpa using List.find?_some found
      calc c' = gmul c' (gmul b c) := by rw [inverse, gmul_one]
        _ = gmul (gmul b c') c := by rw [← gmul_assoc, gmul_comm c' b]
        _ = c := by rw [inverse', gmul_comm, gmul_one]

theorem fieldInverse_zero : fieldInverse 0 = 0 := by
  have none : ((List.range 256).map (BitVec.ofNat 8)).find? (fun c => gmul 0 c = 1) = none := by
    refine List.find?_eq_none.mpr fun c _ => ?_
    have zero : gmul 0 c = 0 := (linear_gmul c).zero
    rw [zero]
    decide
  rw [fieldInverse, none]
  rfl

/-! ## The boxes -/

set_option maxRecDepth 4000 in
theorem gmul_table : ∀ b : Byte, b ≠ 0 →
    gmul b (BitVec.ofNat 8 (aesPow (255 - aesLog b.toNat))) = 1 := by decide

theorem fieldInverse_table {b : Byte} (other : b ≠ 0) :
    fieldInverse b = BitVec.ofNat 8 (aesPow (255 - aesLog b.toNat)) := fieldInverse_eq (gmul_table b other)

theorem fieldInverse_fieldInverse (b : Byte) : fieldInverse (fieldInverse b) = b := by
  by_cases zero : b = 0
  · rw [zero, fieldInverse_zero, fieldInverse_zero]
  · apply fieldInverse_eq
    rw [gmul_comm, fieldInverse_table zero, gmul_table b zero]

theorem affineBack_affine : ∀ b : Byte, affineBack (affine b) = b := by decide

theorem invSBox_sBox (b : Byte) : invSBox (sBox b) = b := by
  rw [invSBox, sBox, affineBack_affine, fieldInverse_fieldInverse]

theorem aesPow_lt (i : Nat) : aesPow i < 256 := by
  cases i with
  | zero => decide
  | succ i => exact Nat.lt_of_le_of_lt Nat.and_le_right (by decide)

theorem rotations_affine : ∀ x : Byte,
    BitVec.ofNat 8 (x.toNat ^^^ rotateByte x.toNat ^^^ rotateByte (rotateByte x.toNat) ^^^
      rotateByte (rotateByte (rotateByte x.toNat)) ^^^
      (rotateByte (rotateByte (rotateByte (rotateByte x.toNat))) ^^^ 0x63)) = affine x := by
  decide

theorem FSb_eq (b : Byte) : FSb b = sBox b := by
  by_cases zero : b = 0
  · rw [zero, sBox, fieldInverse_zero]
    decide
  · have small := Nat.mod_eq_of_lt (aesPow_lt (255 - aesLog b.toNat))
    have map := rotations_affine (BitVec.ofNat 8 (aesPow (255 - aesLog b.toNat)))
    have positive : b.toNat ≠ 0 := fun same => zero (BitVec.eq_of_toNat_eq same)
    rw [BitVec.toNat_ofNat, small] at map
    rw [sBox, fieldInverse_table zero, ← map, FSb, FSbValue, if_neg positive]

theorem affine_affineBack : ∀ b : Byte, affine (affineBack b) = b := by decide

theorem sBox_invSBox (b : Byte) : sBox (invSBox b) = b := by
  rw [invSBox, sBox, fieldInverse_fieldInverse, affine_affineBack]

theorem FSbValue_lt (i : Nat) : FSbValue i < 256 := by
  have bound (x y : Nat) (first : x < 2 ^ 8) (second : y < 2 ^ 8) : x ^^^ y < 2 ^ 8 :=
    Nat.xor_lt_two_pow first second
  have rotated (y : Nat) : rotateByte y < 2 ^ 8 := Nat.lt_of_le_of_lt Nat.and_le_right (by decide)
  unfold FSbValue
  split_ifs
  · decide
  · exact bound _ _ (bound _ _ (bound _ _ (bound _ _ (aesPow_lt _) (rotated _)) (rotated _))
      (rotated _)) (bound _ _ (rotated _) (by decide))

theorem FSbValue_eq {i : Nat} (inside : i < 256) : FSbValue i = (sBox (BitVec.ofNat 8 i)).toNat := by
  rw [← FSb_eq, FSb, BitVec.toNat_ofNat, BitVec.toNat_ofNat, Nat.mod_eq_of_lt inside,
    Nat.mod_eq_of_lt (FSbValue_lt _)]

theorem FSbValue_injective {i j : Nat} (first : i < 256) (second : j < 256)
    (same : FSbValue i = FSbValue j) : i = j := by
  rw [FSbValue_eq first, FSbValue_eq second] at same
  have back := congrArg invSBox (BitVec.eq_of_toNat_eq same)
  rw [invSBox_sBox, invSBox_sBox] at back
  have numbers := congrArg BitVec.toNat back
  rwa [BitVec.toNat_ofNat, BitVec.toNat_ofNat, Nat.mod_eq_of_lt first, Nat.mod_eq_of_lt second]
    at numbers

theorem RSb_FSb (b : Byte) : RSb (FSb b) = b := by
  have small := b.isLt
  have value : RSbValue (FSbValue b.toNat) = b.toNat := by
    unfold RSbValue
    by_cases zero : b.toNat = 0
    · rw [fillTable_outside, zero]
      · rfl
      · intro j inside same
        have number := FSbValue_injective (by omega) small same
        omega
    · obtain ⟨i, next⟩ := Nat.exists_eq_succ_of_ne_zero zero
      have apart : ∀ j < 255, i < j → FSbValue (j + 1) ≠ FSbValue (i + 1) := by
        intro j inside later same
        have number := FSbValue_injective (by omega) (by omega) same
        omega
      rw [next]
      exact fillTable_place _ (· + 1) apart (by omega)
  rw [RSb, FSb, BitVec.toNat_ofNat, Nat.mod_eq_of_lt (FSbValue_lt _), value]
  exact BitVec.ofNat_toNat .. |>.trans (by simp)

theorem RSb_eq (b : Byte) : RSb b = invSBox b := by
  have back := RSb_FSb (invSBox b)
  rwa [FSb_eq, sBox_invSBox] at back

/-! ## The two directions -/

theorem factors_inverse (b : Byte) :
    gmul 14 (gmul 2 b) ^^^ gmul 11 (gmul 1 b) ^^^ gmul 13 (gmul 1 b) ^^^ gmul 9 (gmul 3 b) = b ∧
    gmul 14 (gmul 3 b) ^^^ gmul 11 (gmul 2 b) ^^^ gmul 13 (gmul 1 b) ^^^ gmul 9 (gmul 1 b) = 0 ∧
    gmul 14 (gmul 1 b) ^^^ gmul 11 (gmul 3 b) ^^^ gmul 13 (gmul 2 b) ^^^ gmul 9 (gmul 1 b) = 0 ∧
    gmul 14 (gmul 1 b) ^^^ gmul 11 (gmul 1 b) ^^^ gmul 13 (gmul 3 b) ^^^ gmul 9 (gmul 2 b) = 0 := by
  have sum (c₀ c₁ c₂ c₃ d₀ d₁ d₂ d₃ : Byte) :
      gmul c₀ (gmul d₀ b) ^^^ gmul c₁ (gmul d₁ b) ^^^ gmul c₂ (gmul d₂ b) ^^^ gmul c₃ (gmul d₃ b) =
        gmul (gmul c₀ d₀ ^^^ gmul c₁ d₁ ^^^ gmul c₂ d₂ ^^^ gmul c₃ d₃) b := by
    rw [← gmul_assoc, ← gmul_assoc, ← gmul_assoc, ← gmul_assoc, ← linear_gmul b, ← linear_gmul b,
      ← linear_gmul b]
  have one : gmul 1 b = b := (gmul_comm 1 b).trans (gmul_one b)
  have zero : gmul 0 b = 0 := (linear_gmul b).zero
  rw [sum, sum, sum, sum]
  refine ⟨Eq.trans (congrArg (gmul · b) ?_) one, Eq.trans (congrArg (gmul · b) ?_) zero,
    Eq.trans (congrArg (gmul · b) ?_) zero, Eq.trans (congrArg (gmul · b) ?_) zero⟩ <;> decide

theorem mixColumn_inverse (column : Fin 4 → Byte) :
    mixColumn ![14, 11, 13, 9] (mixColumn ![2, 3, 1, 1] column) = column := by
  funext r
  have places : r + 1 + 1 = r + 2 ∧ r + 1 + 2 = r + 3 ∧ r + 1 + 3 = r ∧ r + 2 + 1 = r + 3 ∧
      r + 2 + 2 = r ∧ r + 2 + 3 = r + 1 ∧ r + 3 + 1 = r ∧ r + 3 + 2 = r + 1 ∧ r + 3 + 3 = r + 2 := by
    revert r
    decide
  have first := factors_inverse (column r)
  have second := factors_inverse (column (r + 1))
  have third := factors_inverse (column (r + 2))
  have fourth := factors_inverse (column (r + 3))
  simp only [mixColumn, Matrix.cons_val, places, gmul_linear _ _ _]
  calc _ = (gmul 14 (gmul 2 (column r)) ^^^ gmul 11 (gmul 1 (column r)) ^^^
        gmul 13 (gmul 1 (column r)) ^^^ gmul 9 (gmul 3 (column r))) ^^^
      (gmul 14 (gmul 3 (column (r + 1))) ^^^ gmul 11 (gmul 2 (column (r + 1))) ^^^
        gmul 13 (gmul 1 (column (r + 1))) ^^^ gmul 9 (gmul 1 (column (r + 1)))) ^^^
      (gmul 14 (gmul 1 (column (r + 2))) ^^^ gmul 11 (gmul 3 (column (r + 2))) ^^^
        gmul 13 (gmul 2 (column (r + 2))) ^^^ gmul 9 (gmul 1 (column (r + 2)))) ^^^
      (gmul 14 (gmul 1 (column (r + 3))) ^^^ gmul 11 (gmul 1 (column (r + 3))) ^^^
        gmul 13 (gmul 3 (column (r + 3))) ^^^ gmul 9 (gmul 2 (column (r + 3)))) := by ac_rfl
    _ = column r := by
      rw [first.1, second.2.1, third.2.2.1, fourth.2.2.2]
      simp

theorem invMixColumns_mixColumns (s : Grid) : invMixColumns (mixColumns s) = s :=
  funext fun c => mixColumn_inverse (s c)

theorem invSubBytes_subBytes (s : Grid) : invSubBytes (subBytes s) = s :=
  funext fun c => funext fun r => invSBox_sBox (s c r)

theorem invShiftRows_shiftRows (s : Grid) : invShiftRows (shiftRows s) = s := by
  funext c r
  rw [invShiftRows, shiftRows, sub_add_cancel]

theorem addRoundKey_addRoundKey (key s : Grid) : addRoundKey key (addRoundKey key s) = s := by
  funext c r
  rw [addRoundKey, addRoundKey, BitVec.xor_assoc, BitVec.xor_self, BitVec.xor_zero]

/-- The state of an encryption after a number of rounds. -/
def cipherState (keys : Nat → Grid) (input : Grid) (rounds : Nat) : Grid :=
  (List.range rounds).foldl
    (fun s i => addRoundKey (keys (i + 1)) (mixColumns (shiftRows (subBytes s))))
    (addRoundKey (keys 0) input)

theorem cipherState_succ (keys : Nat → Grid) (input : Grid) (rounds : Nat) :
    cipherState keys input (rounds + 1) = addRoundKey (keys (rounds + 1))
      (mixColumns (shiftRows (subBytes (cipherState keys input rounds)))) := by
  rw [cipherState, List.range_succ, List.foldl_append]
  rfl

theorem decipher_state (keys : Nat → Grid) (input : Grid) (n i : Nat) (inside : i ≤ n) :
    (List.range i).foldl
        (fun s i => invMixColumns (addRoundKey (keys (n - i)) (invSubBytes (invShiftRows s))))
        (shiftRows (subBytes (cipherState keys input n))) =
      shiftRows (subBytes (cipherState keys input (n - i))) := by
  induction i with
  | zero => rfl
  | succ i ih =>
      have next : n - i = n - (i + 1) + 1 := by omega
      rw [List.range_succ, List.foldl_append, ih (by omega), List.foldl_cons, List.foldl_nil,
        invShiftRows_shiftRows, invSubBytes_subBytes, next, cipherState_succ,
        addRoundKey_addRoundKey, invMixColumns_mixColumns]

theorem decipher_cipher (nr : Nat) (keys : Nat → Grid) (input : Grid) :
    decipher nr keys (cipher nr keys input) = input := by
  have rounds := decipher_state keys input (nr - 1) (nr - 1) (Nat.le_refl _)
  rw [decipher, cipher, addRoundKey_addRoundKey]
  change addRoundKey (keys 0) (invSubBytes (invShiftRows ((List.range (nr - 1)).foldl _
    (shiftRows (subBytes (cipherState keys input (nr - 1))))))) = input
  rw [rounds, Nat.sub_self, invShiftRows_shiftRows, invSubBytes_subBytes]
  exact addRoundKey_addRoundKey (keys 0) input

end PosFirmware.Encrypt
