import PosFirmware.Encrypt.DesRoundTrip
import PosFirmware.Foundation.XorLinear
import Mathlib.Tactic.IntervalCases

/-! # The block cipher is the standard one

The standard describes the cipher bit for bit: permutations of numbered bits, eight boxes of four
rows, and a key schedule that rotates two halves. The firmware has it in words instead: exchanges
of bits, boxes and permutation in one table, everything rotated by one bit, and the round keys
cooked to where the rounds look them up. Both compute the same function (`des_standard`).
-/

namespace PosFirmware.Encrypt

open Foundation

variable {w : Nat}

/-! ## The standard -/

def initialPermutation : List Nat := [
  58, 50, 42, 34, 26, 18, 10, 2, 60, 52, 44, 36, 28, 20, 12, 4,
  62, 54, 46, 38, 30, 22, 14, 6, 64, 56, 48, 40, 32, 24, 16, 8,
  57, 49, 41, 33, 25, 17, 9, 1, 59, 51, 43, 35, 27, 19, 11, 3,
  61, 53, 45, 37, 29, 21, 13, 5, 63, 55, 47, 39, 31, 23, 15, 7]

def finalPermutation : List Nat := [
  40, 8, 48, 16, 56, 24, 64, 32, 39, 7, 47, 15, 55, 23, 63, 31,
  38, 6, 46, 14, 54, 22, 62, 30, 37, 5, 45, 13, 53, 21, 61, 29,
  36, 4, 44, 12, 52, 20, 60, 28, 35, 3, 43, 11, 51, 19, 59, 27,
  34, 2, 42, 10, 50, 18, 58, 26, 33, 1, 41, 9, 49, 17, 57, 25]

def expansion : List Nat := [
  32, 1, 2, 3, 4, 5, 4, 5, 6, 7, 8, 9,
  8, 9, 10, 11, 12, 13, 12, 13, 14, 15, 16, 17,
  16, 17, 18, 19, 20, 21, 20, 21, 22, 23, 24, 25,
  24, 25, 26, 27, 28, 29, 28, 29, 30, 31, 32, 1]

def boxPermutation : List Nat := [
  16, 7, 20, 21, 29, 12, 28, 17, 1, 15, 23, 26, 5, 18, 31, 10,
  2, 8, 24, 14, 32, 27, 3, 9, 19, 13, 30, 6, 22, 11, 4, 25]

def firstChoice : List Nat := [
  57, 49, 41, 33, 25, 17, 9, 1, 58, 50, 42, 34, 26, 18,
  10, 2, 59, 51, 43, 35, 27, 19, 11, 3, 60, 52, 44, 36,
  63, 55, 47, 39, 31, 23, 15, 7, 62, 54, 46, 38, 30, 22,
  14, 6, 61, 53, 45, 37, 29, 21, 13, 5, 28, 20, 12, 4]

def secondChoice : List Nat := [
  14, 17, 11, 24, 1, 5, 3, 28, 15, 6, 21, 10,
  23, 19, 12, 4, 26, 8, 16, 7, 27, 20, 13, 2,
  41, 52, 31, 37, 47, 55, 30, 40, 51, 45, 33, 48,
  44, 49, 39, 56, 34, 53, 46, 42, 50, 36, 29, 32]

/-- How far both halves of the key are rotated before a round. -/
def rotations : List Nat := [1, 1, 2, 2, 2, 2, 2, 2, 1, 2, 2, 2, 2, 2, 2, 1]

/-- The four rows of a box, one behind the other. -/
def substitutions : List (List Nat) := [
  [14, 4, 13, 1, 2, 15, 11, 8, 3, 10, 6, 12, 5, 9, 0, 7,
   0, 15, 7, 4, 14, 2, 13, 1, 10, 6, 12, 11, 9, 5, 3, 8,
   4, 1, 14, 8, 13, 6, 2, 11, 15, 12, 9, 7, 3, 10, 5, 0,
   15, 12, 8, 2, 4, 9, 1, 7, 5, 11, 3, 14, 10, 0, 6, 13],
  [15, 1, 8, 14, 6, 11, 3, 4, 9, 7, 2, 13, 12, 0, 5, 10,
   3, 13, 4, 7, 15, 2, 8, 14, 12, 0, 1, 10, 6, 9, 11, 5,
   0, 14, 7, 11, 10, 4, 13, 1, 5, 8, 12, 6, 9, 3, 2, 15,
   13, 8, 10, 1, 3, 15, 4, 2, 11, 6, 7, 12, 0, 5, 14, 9],
  [10, 0, 9, 14, 6, 3, 15, 5, 1, 13, 12, 7, 11, 4, 2, 8,
   13, 7, 0, 9, 3, 4, 6, 10, 2, 8, 5, 14, 12, 11, 15, 1,
   13, 6, 4, 9, 8, 15, 3, 0, 11, 1, 2, 12, 5, 10, 14, 7,
   1, 10, 13, 0, 6, 9, 8, 7, 4, 15, 14, 3, 11, 5, 2, 12],
  [7, 13, 14, 3, 0, 6, 9, 10, 1, 2, 8, 5, 11, 12, 4, 15,
   13, 8, 11, 5, 6, 15, 0, 3, 4, 7, 2, 12, 1, 10, 14, 9,
   10, 6, 9, 0, 12, 11, 7, 13, 15, 1, 3, 14, 5, 2, 8, 4,
   3, 15, 0, 6, 10, 1, 13, 8, 9, 4, 5, 11, 12, 7, 2, 14],
  [2, 12, 4, 1, 7, 10, 11, 6, 8, 5, 3, 15, 13, 0, 14, 9,
   14, 11, 2, 12, 4, 7, 13, 1, 5, 0, 15, 10, 3, 9, 8, 6,
   4, 2, 1, 11, 10, 13, 7, 8, 15, 9, 12, 5, 6, 3, 0, 14,
   11, 8, 12, 7, 1, 14, 2, 13, 6, 15, 0, 9, 10, 4, 5, 3],
  [12, 1, 10, 15, 9, 2, 6, 8, 0, 13, 3, 4, 14, 7, 5, 11,
   10, 15, 4, 2, 7, 12, 9, 5, 6, 1, 13, 14, 0, 11, 3, 8,
   9, 14, 15, 5, 2, 8, 12, 3, 7, 0, 4, 10, 1, 13, 11, 6,
   4, 3, 2, 12, 9, 5, 15, 10, 11, 14, 1, 7, 6, 0, 8, 13],
  [4, 11, 2, 14, 15, 0, 8, 13, 3, 12, 9, 7, 5, 10, 6, 1,
   13, 0, 11, 7, 4, 9, 1, 10, 14, 3, 5, 12, 2, 15, 8, 6,
   1, 4, 11, 13, 12, 3, 7, 14, 10, 15, 6, 8, 0, 5, 9, 2,
   6, 11, 13, 8, 1, 4, 10, 7, 9, 5, 0, 15, 14, 2, 3, 12],
  [13, 2, 8, 4, 6, 15, 11, 1, 10, 9, 3, 14, 5, 0, 12, 7,
   1, 15, 13, 8, 10, 3, 7, 4, 12, 5, 6, 11, 0, 14, 9, 2,
   7, 11, 4, 1, 9, 12, 14, 2, 0, 6, 10, 13, 15, 3, 5, 8,
   2, 1, 14, 7, 4, 10, 8, 13, 15, 12, 9, 0, 3, 5, 6, 11]]

/-- A box: the outer two bits choose the row, the inner four the column. -/
def substitute (box : Nat) (six : BitVec 6) : BitVec 4 :=
  let row := (six.extractLsb' 5 1 ++ six.extractLsb' 0 1).toNat
  let column := (six.extractLsb' 1 4).toNat
  BitVec.ofNat 4 ((substitutions.getD box []).getD (16 * row + column) 0)

/-- The six bits of a round key, or of an expanded half, that go to a box. -/
def sixOf (box : Nat) (bits : BitVec 48) : BitVec 6 := bits.extractLsb' (42 - 6 * box) 6

/-- What comes out of a box, at its place among the others. -/
def boxOutput (bits : BitVec 48) (box : Nat) : Word :=
  (substitute box (sixOf box bits)).setWidth 32 <<< (28 - 4 * box)

/-- The function of a round. -/
def cipherFunction (roundKey : BitVec 48) (half : Word) : Word :=
  let bits := select 48 expansion half ^^^ roundKey
  select 32 boxPermutation
    ((List.range 8).foldl (fun out box => out ^^^ boxOutput bits box) 0)

/-- The halves of the key after a number of rotations. -/
def keyHalves (key : BitVec 64) : Nat → BitVec 28 × BitVec 28
  | 0 =>
      let chosen := select 56 firstChoice key
      (chosen.extractLsb' 28 28, chosen.extractLsb' 0 28)
  | i + 1 =>
      let halves := keyHalves key i
      (halves.1.rotateLeft (rotations.getD i 0), halves.2.rotateLeft (rotations.getD i 0))

/-- The key of a round. -/
def standardKey (key : BitVec 64) (i : Nat) : BitVec 48 :=
  let halves := keyHalves key (i + 1)
  select 48 secondChoice (halves.1 ++ halves.2)

/-- The cipher, with the keys of the rounds in their order. -/
def encipher (keys : List (BitVec 48)) (block : BitVec 64) : BitVec 64 :=
  let start := select 64 initialPermutation block
  let halves := feistel (· ^^^ ·) cipherFunction keys (start.extractLsb' 32 32, start.extractLsb' 0 32)
  select 64 finalPermutation (halves.2 ++ halves.1)

/-! ## The permutations -/

/-- The words of a block of 64 bits. -/
def upper (block : BitVec 64) : Word := block.extractLsb' 32 32

def lower (block : BitVec 64) : Word := block.extractLsb' 0 32

theorem upper_append_lower (block : BitVec 64) : upper block ++ lower block = block := by
  have joined : block.extractLsb' 32 32 ++ block.extractLsb' 0 32 = block.extractLsb' 0 64 :=
    BitVec.extractLsb'_append_extractLsb'_eq_extractLsb' rfl
  exact joined.trans BitVec.extractLsb'_eq_self

theorem upper_linear {f : BitVec w → BitVec 64} (linear : XorLinear f) :
    XorLinear fun word => upper (f word) := linear.extract 32 32

theorem lower_linear {f : BitVec w → BitVec 64} (linear : XorLinear f) :
    XorLinear fun word => lower (f word) := linear.extract 0 32

theorem rotateUp_linear {f : BitVec w → Word} (linear : XorLinear f) :
    XorLinear fun word => rotateUp (f word) := by
  apply (linear.shiftLeft 1).or ((linear.ushiftRight 31).and_right 1)
  intro word
  refine BitVec.eq_of_getLsbD_eq fun i _ => ?_
  by_cases lowest : i = 0
  · subst lowest
    simp
  · simp [lowest]

/-- Two words that depend linearly on one. -/
def PairLinear (f : BitVec w → Word × Word) : Prop :=
  (XorLinear fun word => (f word).1) ∧ XorLinear fun word => (f word).2

namespace PairLinear

variable {f : BitVec w → Word × Word}

theorem swap (linear : PairLinear f) : PairLinear fun word => (f word).swap :=
  ⟨linear.2, linear.1⟩

theorem exchange (shift : Nat) (mask : Word) (linear : PairLinear f) :
    PairLinear fun word => Foundation.exchange shift mask (f word) :=
  exchange_linear linear.1 linear.2

theorem rotateFirst (linear : PairLinear f) : PairLinear fun word => (f word).map rotateUp id :=
  ⟨rotateUp_linear linear.1, linear.2⟩

theorem rotateSecond (linear : PairLinear f) : PairLinear fun word => (f word).map id rotateUp :=
  ⟨linear.1, rotateUp_linear linear.2⟩

end PairLinear

theorem permuteIn_linear : PairLinear fun block : BitVec 64 => permuteIn (upper block, lower block) := by
  simp only [permuteIn_eq]
  have words : PairLinear fun block : BitVec 64 => (upper block, lower block) :=
    ⟨upper_linear XorLinear.id, lower_linear XorLinear.id⟩
  apply PairLinear.rotateFirst
  apply PairLinear.exchange
  apply PairLinear.rotateSecond
  apply PairLinear.swap
  apply PairLinear.exchange
  apply PairLinear.exchange
  apply PairLinear.swap
  apply PairLinear.exchange
  exact words.exchange 4 0x0f0f0f0f

set_option maxRecDepth 2000 in
theorem permuteIn_select (block : BitVec 64) : permuteIn (upper block, lower block) =
    (rotateUp (upper (select 64 initialPermutation block)),
      rotateUp (lower (select 64 initialPermutation block))) := by
  have chosen : XorLinear (select (w := 64) 64 initialPermutation) := select_linear _
  have first := permuteIn_linear.1.eq_of_single (rotateUp_linear (upper_linear chosen)) (by decide)
  have second := permuteIn_linear.2.eq_of_single (rotateUp_linear (lower_linear chosen)) (by decide)
  exact Prod.ext (congrFun first block) (congrFun second block)

set_option maxRecDepth 2000 in
theorem select_final (block : BitVec 64) :
    select 64 initialPermutation (select 64 finalPermutation block) = block := by
  have chosen : XorLinear (select (w := 64) 64 finalPermutation) := select_linear _
  have both := (select_linear (v := 64) initialPermutation).comp chosen
  exact congrFun (both.eq_of_single XorLinear.id (by decide)) block

theorem permuteOut_select (first second : Word) : permuteOut (rotateUp first, rotateUp second) =
    (upper (select 64 finalPermutation (second ++ first)),
      lower (select 64 finalPermutation (second ++ first))) := by
  have start := permuteIn_select (select 64 finalPermutation (second ++ first))
  have words : upper (second ++ first) = second ∧ lower (second ++ first) = first :=
    ⟨BitVec.extractLsb'_append_eq_left, BitVec.extractLsb'_append_eq_right⟩
  rw [select_final, words.1, words.2] at start
  have back := permuteOut_permuteIn (upper (select 64 finalPermutation (second ++ first)),
    lower (select 64 finalPermutation (second ++ first)))
  rwa [start] at back

/-! ## The function of a round -/

/-- The table that has a box and the permutation behind the boxes. -/
def spTable (box : Nat) : List Word := [sp1, sp2, sp3, sp4, sp5, sp6, sp7, sp8].getD box []

set_option maxRecDepth 2000 in
theorem spTable_eq : ∀ box < 8, ∀ six : BitVec 6, (spTable box).getD six.toNat 0 =
    rotateUp (select 32 boxPermutation ((substitute box six).setWidth 32 <<< (28 - 4 * box))) := by
  decide

/-- The bits that a table has. -/
def boxMask (box : Nat) : Word := rotateUp (select 32 boxPermutation ((0xf0000000 : Word) >>> (4 * box)))

set_option maxRecDepth 2000 in
theorem spTable_within : ∀ box < 8, ∀ six : BitVec 6,
    (spTable box).getD six.toNat 0 &&& boxMask box = (spTable box).getD six.toNat 0 := by
  decide

theorem lookUp_eq (table : List Word) (work : Word) (shift : Nat) :
    lookUp table work shift = table.getD (work.extractLsb' shift 6).toNat 0 := by
  have index : (work >>> shift &&& 0x3f).toNat = (work.extractLsb' shift 6).toNat := by
    rw [BitVec.toNat_and, BitVec.extractLsb'_toNat, BitVec.toNat_ushiftRight]
    exact Nat.and_two_pow_sub_one_eq_mod _ 6
  rw [lookUp, index]

theorem or_apart {a b m n : Word} (first : a &&& m = a) (second : b &&& n = b)
    (apart : m &&& n = 0) : a ||| b = a ^^^ b ∧ (a ||| b) &&& (m ||| n) = a ||| b := by
  have bits (i : Nat) : a.getLsbD i = (a.getLsbD i && m.getLsbD i) ∧
      b.getLsbD i = (b.getLsbD i && n.getLsbD i) ∧ (m.getLsbD i && n.getLsbD i) = false := by
    have one := congrArg (fun word => word.getLsbD i) first
    have two := congrArg (fun word => word.getLsbD i) second
    have three := congrArg (fun word => word.getLsbD i) apart
    simp only [BitVec.getLsbD_and] at one two three
    exact ⟨one.symm, two.symm, three.trans BitVec.getLsbD_zero⟩
  constructor <;> refine BitVec.eq_of_getLsbD_eq fun i _ => ?_ <;>
    obtain ⟨one, two, three⟩ := bits i <;>
    simp only [BitVec.getLsbD_or, BitVec.getLsbD_xor, BitVec.getLsbD_and] <;>
    revert one two three <;>
    cases a.getLsbD i <;> cases b.getLsbD i <;> cases m.getLsbD i <;> cases n.getLsbD i <;> decide

/-- The half as the first four tables see it. -/
def turned (half : Word) : Word := half <<< 28 ||| half >>> 4

theorem turned_linear {f : BitVec w → Word} (linear : XorLinear f) :
    XorLinear fun word => turned (f word) := by
  apply (linear.shiftLeft 28).or (linear.ushiftRight 4)
  intro word
  refine BitVec.eq_of_getLsbD_eq fun i _ => ?_
  simp only [BitVec.getLsbD_and, BitVec.getLsbD_shiftLeft, BitVec.getLsbD_ushiftRight]
  by_cases high : i < 28
  · simp [high]
  · rw [BitVec.getLsbD_of_ge (f word) (4 + i) (by omega), Bool.and_false, BitVec.getLsbD_zero]

/-- The six bits of a half that the loop looks up for a box. -/
def groupOf (words : Word × Word) (box : Nat) : BitVec 6 :=
  if box % 2 = 0 then words.1.extractLsb' (24 - 4 * box) 6
  else words.2.extractLsb' (28 - 4 * box) 6

set_option maxRecDepth 2000 in
theorem groupOf_half (half : Word) {box : Nat} (inside : box < 8) :
    groupOf (turned (rotateUp half), rotateUp half) box = sixOf box (select 48 expansion half) := by
  have chosen : XorLinear (select (w := 32) 48 expansion) := select_linear _
  have half' : XorLinear rotateUp := rotateUp_linear XorLinear.id
  have spec : XorLinear fun half => sixOf box (select 48 expansion half) :=
    chosen.extract (42 - 6 * box) 6
  have code : XorLinear fun half => groupOf (turned (rotateUp half), rotateUp half) box := by
    unfold groupOf
    split_ifs
    · exact (turned_linear half').extract (24 - 4 * box) 6
    · exact half'.extract (28 - 4 * box) 6
  have single : ∀ box < 8, ∀ i < 32, groupOf (turned (rotateUp (BitVec.twoPow 32 i)),
      rotateUp (BitVec.twoPow 32 i)) box =
        sixOf box (select 48 expansion (BitVec.twoPow 32 i)) := by decide
  exact congrFun (code.eq_of_single spec (single box inside)) half

/-- The words of the schedule that have a round key where the tables look it up. -/
def Cooked (key : BitVec 48) (words : Word × Word) : Prop := ∀ box < 8, groupOf words box = sixOf box key

theorem groupOf_xor (one other : Word × Word) (box : Nat) :
    groupOf (one.1 ^^^ other.1, one.2 ^^^ other.2) box = groupOf one box ^^^ groupOf other box := by
  unfold groupOf
  split_ifs
  · exact XorLinear.id.extract (24 - 4 * box) 6 one.1 other.1
  · exact XorLinear.id.extract (28 - 4 * box) 6 one.2 other.2

/-- What is looked up for a box, from the two words of the turn. -/
def found (work : Word × Word) (box : Nat) : Word := (spTable box).getD (groupOf work box).toNat 0

theorem fval_eq_or (keys : Word × Word) (half : Word) :
    let work := (turned half ^^^ keys.1, half ^^^ keys.2)
    fval keys half = found work 6 ||| found work 4 ||| found work 2 ||| found work 0 ||| found work 7 |||
      found work 5 ||| found work 3 ||| found work 1 := by
  simp only [fval, lookUp_eq]
  rfl

theorem fval_eq_xor (keys : Word × Word) (half : Word) :
    fval keys half = (List.range 8).foldl (fun out box =>
      out ^^^ found (turned half ^^^ keys.1, half ^^^ keys.2) box) 0 := by
  generalize same : (turned half ^^^ keys.1, half ^^^ keys.2) = work
  have within (box : Nat) (inside : box < 8) : found work box &&& boxMask box = found work box :=
    spTable_within box inside _
  have two := or_apart (within 6 (by decide)) (within 4 (by decide)) (by decide)
  have three := or_apart two.2 (within 2 (by decide)) (by decide)
  have four := or_apart three.2 (within 0 (by decide)) (by decide)
  have five := or_apart four.2 (within 7 (by decide)) (by decide)
  have six := or_apart five.2 (within 5 (by decide)) (by decide)
  have seven := or_apart six.2 (within 3 (by decide)) (by decide)
  have eight := or_apart seven.2 (within 1 (by decide)) (by decide)
  have sum : (List.range 8).foldl (fun out box => out ^^^ found work box) 0 =
      0#32 ^^^ found work 0 ^^^ found work 1 ^^^ found work 2 ^^^ found work 3 ^^^ found work 4 ^^^
        found work 5 ^^^ found work 6 ^^^ found work 7 := rfl
  rw [fval_eq_or, same, eight.1, seven.1, six.1, five.1, four.1, three.1, two.1, sum, BitVec.zero_xor]
  ac_rfl

theorem fval_cipherFunction {key : BitVec 48} {keys : Word × Word} (cooked : Cooked key keys)
    (half : Word) : fval keys (rotateUp half) = rotateUp (cipherFunction key half) := by
  have linear : XorLinear fun word : Word => rotateUp (select 32 boxPermutation word) :=
    rotateUp_linear (select_linear _)
  have clear : rotateUp (select 32 boxPermutation (0 : Word)) = 0 := linear.zero
  rw [fval_eq_xor, cipherFunction, linear.foldl_xor, clear]
  apply List.foldl_ext
  intro out box member
  have inside := List.mem_range.mp member
  have sum := groupOf_xor (turned (rotateUp half), rotateUp half) keys box
  have index : groupOf (turned (rotateUp half) ^^^ keys.1, rotateUp half ^^^ keys.2) box =
      sixOf box (select 48 expansion half ^^^ key) := by
    rw [sum, groupOf_half half inside, cooked box inside]
    exact (XorLinear.id.extract (42 - 6 * box) 6 (select 48 expansion half) key).symm
  rw [found, index, spTable_eq box inside, boxOutput]

/-! ## The key schedule -/

theorem rawKey_bits (key : List Byte) (i skip count : Nat) (fits : count ≤ 24) :
    ∀ j < 32, ((List.range count).foldl (fun kn j =>
      if pcr key i (pc2.getD (j + skip) 0) then kn ||| bigbyte j else kn) (0 : Word)).getLsbD j =
        (decide (24 - count ≤ j ∧ j < 24) && pcr key i (pc2.getD (23 - j + skip) 0)) := by
  induction count with
  | zero =>
      intro j _
      have none : ¬ (24 - 0 ≤ j ∧ j < 24) := by omega
      simp [none]
  | succ count ih =>
      intro j inside
      have before := ih (by omega) j inside
      have one : (bigbyte count).getLsbD j = decide (j = 23 - count) := by
        have all : ∀ count < 24, ∀ j < 32, (bigbyte count).getLsbD j = decide (j = 23 - count) := by
          decide
        exact all count (by omega) j inside
      rw [List.range_succ, List.foldl_append, List.foldl_cons, List.foldl_nil]
      by_cases place : j = 23 - count
      · have here : 24 - (count + 1) ≤ j ∧ j < 24 := by omega
        have off : ¬ (24 - count ≤ j ∧ j < 24) := by omega
        have same : 23 - j = count := by omega
        rw [decide_eq_false off, Bool.false_and] at before
        rw [decide_eq_true here, Bool.true_and, same]
        split_ifs with bit
        · rw [BitVec.getLsbD_or, before, one, decide_eq_true place, bit, Bool.false_or]
        · rw [before, Bool.eq_false_iff.mpr bit]
      · have same : (24 - (count + 1) ≤ j ∧ j < 24) = (24 - count ≤ j ∧ j < 24) :=
          propext (by omega)
        simp only [same]
        split_ifs with bit
        · rw [BitVec.getLsbD_or, before, one, decide_eq_false place, Bool.or_false]
        · exact before

theorem getLsbD_rawKey (key : List Byte) (i skip : Nat) {j : Nat} (inside : j < 32) :
    (rawKey key i skip).getLsbD j =
      (decide (j < 24) && pcr key i (pc2.getD (23 - j + skip) 0)) := by
  have bits := rawKey_bits key i skip 24 (Nat.le_refl 24) j inside
  simp only [Nat.sub_self, Nat.zero_le, true_and] at bits
  exact bits

theorem groupOf_cookey (raw : Nat → Word) (box t : Nat) (inside : box < 8) (small : t < 6) :
    (groupOf (cookey raw 0, cookey raw 1) box).getLsbD t =
      if box < 4 then (raw 0).getLsbD (18 - 6 * box + t) else (raw 1).getLsbD (42 - 6 * box + t) := by
  have words : cookey raw 0 = (raw 0 &&& 0x00fc0000) <<< 6 ||| (raw 0 &&& 0x00000fc0) <<< 10 |||
      (raw 1 &&& 0x00fc0000) >>> 10 ||| (raw 1 &&& 0x00000fc0) >>> 6 ∧
    cookey raw 1 = (raw 0 &&& 0x0003f000) <<< 12 ||| (raw 0 &&& 0x0000003f) <<< 16 |||
      (raw 1 &&& 0x0003f000) >>> 4 ||| (raw 1 &&& 0x0000003f) := ⟨rfl, rfl⟩
  rw [words.1, words.2]
  interval_cases box <;> interval_cases t <;> simp [groupOf]

/-- The bits of a block of eight bytes, the first one on the left. -/
def blockBits (bytes : List Byte) : BitVec 64 := (scrunch bytes).1 ++ (scrunch bytes).2

theorem bytebit_eq : ∀ m < 8, ∀ byte : Byte, decide (byte &&& bytebit m ≠ 0) = byte.getMsbD m := by
  decide

theorem getMsbD_joinOctets (a b c d : Byte) {l : Nat} (inside : l < 32) :
    (joinOctets a b c d).getMsbD l = ([a, b, c, d].getD (l / 8) 0).getMsbD (l % 8) := by
  have split := Nat.div_add_mod l 8
  have low := Nat.mod_lt l (show 0 < 8 by decide)
  have high : l / 8 < 4 := by omega
  rw [joinOctets, BitVec.getMsbD_append, BitVec.getMsbD_append, BitVec.getMsbD_append]
  generalize l / 8 = q at *
  generalize l % 8 = r at *
  subst split
  interval_cases q <;> simp <;> grind

theorem getMsbD_blockBits (bytes : List Byte) {l : Nat} (inside : l < 64) :
    (blockBits bytes).getMsbD l = (bytes.getD (l / 8) 0).getMsbD (l % 8) := by
  rw [blockBits, BitVec.getMsbD_append]
  split_ifs with second
  · have place : (l - 32) / 8 = l / 8 - 4 ∧ (l - 32) % 8 = l % 8 := by omega
    have high : 4 ≤ l / 8 ∧ l / 8 < 8 := by omega
    rw [scrunch, getMsbD_joinOctets _ _ _ _ (by omega), place.1, place.2]
    generalize l / 8 = q at *
    obtain ⟨low, high⟩ := high
    interval_cases q <;> rfl
  · have high : l / 8 < 4 := by omega
    rw [scrunch, getMsbD_joinOctets _ _ _ _ (by omega)]
    generalize l / 8 = q at *
    interval_cases q <;> rfl

theorem pc1m_eq (key : List Byte) {j : Nat} (inside : j < 56) :
    pc1m key j = (blockBits key).getMsbD (pc1.getD j 0) := by
  have place : ∀ j < 56, pc1.getD j 0 < 64 := by decide
  have shift : pc1.getD j 0 >>> 3 = pc1.getD j 0 / 8 := Nat.shiftRight_eq_div_pow _ 3
  have low : pc1.getD j 0 &&& 7 = pc1.getD j 0 % 8 := Nat.and_two_pow_sub_one_eq_mod _ 3
  rw [getMsbD_blockBits key (place j inside)]
  simp only [pc1m, shift, low]
  exact bytebit_eq _ (Nat.mod_lt _ (by decide)) _

theorem keyHalves_bits (key : BitVec 64) (i : Nat) {n : Nat} (inside : n < 28) :
    (keyHalves key i).1.getMsbD n = (keyHalves key 0).1.getMsbD (((rotations.take i).sum + n) % 28) ∧
      (keyHalves key i).2.getMsbD n =
        (keyHalves key 0).2.getMsbD (((rotations.take i).sum + n) % 28) := by
  induction i generalizing n with
  | zero => simp [Nat.mod_eq_of_lt inside]
  | succ i ih =>
      have more : (rotations.take (i + 1)).sum = (rotations.take i).sum + rotations.getD i 0 := by
        rw [List.take_add_one, List.sum_append, List.getD_eq_getElem?_getD]
        cases rotations[i]? <;> simp
      have before := ih (n := (rotations.getD i 0 + n) % 28) (Nat.mod_lt _ (by decide))
      have places : ((rotations.take i).sum + (rotations.getD i 0 + n) % 28) % 28 =
          ((rotations.take (i + 1)).sum + n) % 28 := by omega
      rw [places] at before
      have next : keyHalves key (i + 1) = ((keyHalves key i).1.rotateLeft (rotations.getD i 0),
        (keyHalves key i).2.rotateLeft (rotations.getD i 0)) := rfl
      rw [next, BitVec.getMsbD_rotateLeft, BitVec.getMsbD_rotateLeft, decide_eq_true inside,
        Bool.true_and, Bool.true_and, before.1, before.2]
      exact ⟨rfl, rfl⟩

theorem pcr_eq (key : List Byte) {i j : Nat} (round : i < 16) (inside : j < 56) :
    pcr key i j = ((keyHalves (blockBits key) (i + 1)).1 ++
      (keyHalves (blockBits key) (i + 1)).2).getMsbD j := by
  have total : ∀ i < 16, (rotations.take (i + 1)).sum = totrot.getD i 0 ∧ totrot.getD i 0 ≤ 28 := by
    decide
  have choice : ∀ j < 56, firstChoice.getD j 0 - 1 = pc1.getD j 0 := by decide
  have chosen (j : Nat) (inside : j < 56) :
      (select 56 firstChoice (blockBits key)).getMsbD j = pc1m key j := by
    rw [getMsbD_select _ (show firstChoice.length = 56 from rfl) inside, choice j inside,
      pc1m_eq key inside]
  obtain ⟨sum, small⟩ := total i round
  rw [BitVec.getMsbD_append]
  split_ifs with second
  · have start : ∀ n < 28, (keyHalves (blockBits key) 0).2.getMsbD n = pc1m key (28 + n) := by
      intro n below
      rw [keyHalves, BitVec.getMsbD_extractLsb', ← chosen (28 + n) (by omega)]
      have place : 56 - (0 + 28 - n) = 28 + n ∧ 0 + 28 - n ≤ 56 := by omega
      simp [below, place]
    have bits := (keyHalves_bits (blockBits key) (i + 1) (n := j - 28) (by omega)).2
    rw [bits, sum, start _ (Nat.mod_lt _ (by decide))]
    simp only [pcr, if_neg (Nat.not_lt.mpr second)]
    split_ifs with wrapped
    · congr 1
      omega
    · congr 1
      omega
  · have start : ∀ n < 28, (keyHalves (blockBits key) 0).1.getMsbD n = pc1m key n := by
      intro n below
      rw [keyHalves, BitVec.getMsbD_extractLsb', ← chosen n (by omega)]
      have place : 56 - (28 + 28 - n) = n ∧ 28 + 28 - n ≤ 56 := by omega
      simp [below, place]
    have below : j < 28 := Nat.not_le.mp second
    have bits := (keyHalves_bits (blockBits key) (i + 1) below).1
    rw [bits, sum, start _ (Nat.mod_lt _ (by decide))]
    simp only [pcr, if_pos below]
    split_ifs with wrapped
    · congr 1
      omega
    · congr 1
      omega

theorem roundKey_cooked (key : List Byte) {i : Nat} (round : i < 16) :
    Cooked (standardKey (blockBits key) i) (roundKey key i) := by
  have choice : ∀ j < 48, secondChoice.getD j 0 - 1 = pc2.getD j 0 ∧ pc2.getD j 0 < 56 := by decide
  intro box inside
  refine BitVec.eq_of_getLsbD_eq fun t small => ?_
  have place : 42 - 6 * box + t < 48 ∧ 48 - 1 - (42 - 6 * box + t) = 5 + 6 * box - t ∧
    5 + 6 * box - t < 48 := by omega
  obtain ⟨chosen, fits⟩ := choice (5 + 6 * box - t) place.2.2
  have spec : (sixOf box (standardKey (blockBits key) i)).getLsbD t =
      pcr key i (pc2.getD (5 + 6 * box - t) 0) := by
    rw [sixOf, BitVec.getLsbD_extractLsb', BitVec.getLsbD_eq_getMsbD, place.2.1, standardKey,
      getMsbD_select _ (show secondChoice.length = 48 from rfl) place.2.2, chosen,
      ← pcr_eq key round fits]
    simp [small, place.1]
  rw [spec, roundKey, groupOf_cookey _ box t inside small]
  by_cases first : box < 4
  · have bit := getLsbD_rawKey key i 0 (j := 18 - 6 * box + t) (by omega)
    have back : 23 - (18 - 6 * box + t) + 0 = 5 + 6 * box - t := by omega
    rw [decide_eq_true (by omega), Bool.true_and, back] at bit
    rw [if_pos first]
    exact bit
  · have bit := getLsbD_rawKey key i 24 (j := 42 - 6 * box + t) (by omega)
    have back : 23 - (42 - 6 * box + t) + 24 = 5 + 6 * box - t := by omega
    rw [decide_eq_true (by omega), Bool.true_and, back] at bit
    rw [if_neg first]
    exact bit

/-! ## The cipher -/

theorem feistel_rotateUp (rounds : List (BitVec 48 × (Word × Word)))
    (cooked : ∀ round ∈ rounds, Cooked round.1 round.2) (halves : Word × Word) :
    feistel (· ^^^ ·) fval (rounds.map Prod.snd) (rotateUp halves.1, rotateUp halves.2) =
      (rotateUp (feistel (· ^^^ ·) cipherFunction (rounds.map Prod.fst) halves).1,
        rotateUp (feistel (· ^^^ ·) cipherFunction (rounds.map Prod.fst) halves).2) := by
  induction rounds generalizing halves with
  | nil => rfl
  | cons round rounds ih =>
      have first := fval_cipherFunction (cooked round List.mem_cons_self) halves.2
      have turn : feistelRound (· ^^^ ·) fval (rotateUp halves.1, rotateUp halves.2) round.2 =
          (rotateUp (feistelRound (· ^^^ ·) cipherFunction halves round.1).1,
            rotateUp (feistelRound (· ^^^ ·) cipherFunction halves round.1).2) := by
        have sum : rotateUp (halves.1 ^^^ cipherFunction round.1 halves.2) =
            rotateUp halves.1 ^^^ rotateUp (cipherFunction round.1 halves.2) :=
          rotateUp_linear XorLinear.id _ _
        simp only [feistelRound, first, sum]
      rw [List.map_cons, List.map_cons]
      refine (congrArg (feistel _ fval (rounds.map Prod.snd)) turn).trans ?_
      exact ih (fun other member => cooked other (List.mem_cons_of_mem _ member)) _

/-- The keys of the rounds in the order of a mode. -/
def standardKeys (key : BitVec 64) (mode : Int) : List (BitVec 48) :=
  let keys := (List.range 16).map (standardKey key)
  if mode = DE1 then keys.reverse else keys

/-- The rounds, each with its key in the standard and in the schedule of the firmware. -/
def keyedRounds (key : List Byte) (mode : Int) : List (BitVec 48 × (Word × Word)) :=
  let rounds := (List.range 16).map fun i => (standardKey (blockBits key) i, roundKey key i)
  if mode = DE1 then rounds.reverse else rounds

theorem keyedRounds_cooked (key : List Byte) (mode : Int) :
    ∀ round ∈ keyedRounds key mode, Cooked round.1 round.2 := by
  intro round member
  have rounds : round ∈ (List.range 16).map fun i => (standardKey (blockBits key) i, roundKey key i) := by
    unfold keyedRounds at member
    split_ifs at member
    · exact List.mem_reverse.mp member
    · exact member
  obtain ⟨i, inside, rfl⟩ := List.mem_map.mp rounds
  exact roundKey_cooked key (List.mem_range.mp inside)

theorem keyedRounds_schedule (key : List Byte) (mode : Int) :
    (keyedRounds key mode).map Prod.fst = standardKeys (blockBits key) mode ∧
      (keyedRounds key mode).map Prod.snd = schedule (deskey key mode) 16 := by
  unfold keyedRounds standardKeys
  by_cases decrypt : mode = DE1
  · rw [if_pos decrypt, if_pos decrypt, decrypt, schedule_decrypt, List.map_reverse, List.map_reverse,
      List.map_map, List.map_map]
    exact ⟨rfl, rfl⟩
  · rw [if_neg decrypt, if_neg decrypt, schedule_encrypt decrypt, List.map_map, List.map_map]
    exact ⟨rfl, rfl⟩

/-- The firmware encrypts and decrypts as the standard says, with every key. -/
theorem des_standard (input key : List Byte) (mode : Int) :
    blockBits (des input key mode) = encipher (standardKeys (blockBits key) mode) (blockBits input) := by
  have words : (upper (blockBits input), lower (blockBits input)) = scrunch input :=
    Prod.ext BitVec.extractLsb'_append_eq_left BitVec.extractLsb'_append_eq_right
  obtain ⟨keys, cooked⟩ := keyedRounds_schedule key mode
  have start := permuteIn_select (blockBits input)
  have rounds := feistel_rotateUp (keyedRounds key mode) (keyedRounds_cooked key mode)
    (upper (select 64 initialPermutation (blockBits input)),
      lower (select 64 initialPermutation (blockBits input)))
  rw [keys, cooked] at rounds
  rw [words] at start
  rw [des, sDes, blockBits, scrunch_unscrun, desfunc_eq, start, rounds, permuteOut_select, encipher]
  exact upper_append_lower _

end PosFirmware.Encrypt
