import Mathlib.Data.List.Basic
import Mathlib.Logic.Function.Basic

/-! # Words and their bytes

A word of 32 bits put together from four bytes, the highest first, and taken apart again.
-/

namespace PosFirmware.Foundation

/-- The word of four bytes, the highest first. -/
def joinOctets (a b c d : BitVec 8) : BitVec 32 := a ++ b ++ c ++ d

/-- The byte of a word that starts at a bit. -/
def octet (word : BitVec 32) (low : Nat) : BitVec 8 := word.extractLsb' low 8

variable (a b c d : BitVec 8)

@[simp] theorem octet_joinOctets_24 : octet (joinOctets a b c d) 24 = a := by
  have first : (a ++ b ++ c ++ d).extractLsb' 24 8 = (a ++ b ++ c).extractLsb' 16 8 :=
    BitVec.extractLsb'_append_eq_of_le (by decide)
  have second : (a ++ b ++ c).extractLsb' 16 8 = (a ++ b).extractLsb' 8 8 :=
    BitVec.extractLsb'_append_eq_of_le (by decide)
  exact (first.trans second).trans BitVec.extractLsb'_append_eq_left

@[simp] theorem octet_joinOctets_16 : octet (joinOctets a b c d) 16 = b := by
  have first : (a ++ b ++ c ++ d).extractLsb' 16 8 = (a ++ b ++ c).extractLsb' 8 8 :=
    BitVec.extractLsb'_append_eq_of_le (by decide)
  have second : (a ++ b ++ c).extractLsb' 8 8 = (a ++ b).extractLsb' 0 8 :=
    BitVec.extractLsb'_append_eq_of_le (by decide)
  exact (first.trans second).trans BitVec.extractLsb'_append_eq_right

@[simp] theorem octet_joinOctets_8 : octet (joinOctets a b c d) 8 = c := by
  have first : (a ++ b ++ c ++ d).extractLsb' 8 8 = (a ++ b ++ c).extractLsb' 0 8 :=
    BitVec.extractLsb'_append_eq_of_le (by decide)
  exact first.trans BitVec.extractLsb'_append_eq_right

@[simp] theorem octet_joinOctets_0 : octet (joinOctets a b c d) 0 = d :=
  BitVec.extractLsb'_append_eq_right

/-- A word is the word of its bytes. -/
@[simp] theorem joinOctets_octet (word : BitVec 32) :
    joinOctets (octet word 24) (octet word 16) (octet word 8) (octet word 0) = word := by
  have high : word.extractLsb' 24 8 ++ word.extractLsb' 16 8 = word.extractLsb' 16 16 :=
    BitVec.extractLsb'_append_extractLsb'_eq_extractLsb' rfl
  have middle : word.extractLsb' 16 16 ++ word.extractLsb' 8 8 = word.extractLsb' 8 24 :=
    BitVec.extractLsb'_append_extractLsb'_eq_extractLsb' rfl
  have low : word.extractLsb' 8 24 ++ word.extractLsb' 0 8 = word.extractLsb' 0 32 :=
    BitVec.extractLsb'_append_extractLsb'_eq_extractLsb' rfl
  simp only [joinOctets, octet, high, middle, low]
  exact BitVec.extractLsb'_eq_self

/-- A word is known by its bytes. -/
theorem word_eq_of_octets {one other : BitVec 32} (same : ∀ r < 4, octet one (8 * r) = octet other (8 * r)) :
    one = other := by
  have first := same 0 (by decide)
  have second := same 1 (by decide)
  have third := same 2 (by decide)
  have fourth := same 3 (by decide)
  rw [← joinOctets_octet one, ← joinOctets_octet other]
  exact congr (congr (congr (congrArg joinOctets fourth) third) second) first

theorem octet_xor (one other : BitVec 32) (low : Nat) :
    octet (one ^^^ other) low = octet one low ^^^ octet other low := by
  refine BitVec.eq_of_getLsbD_eq fun i inside => ?_
  simp only [octet, BitVec.getLsbD_extractLsb', BitVec.getLsbD_xor, inside, decide_true, Bool.true_and]

/-- Four bytes added at their places. -/
theorem xor_shiftLeft_eq_joinOctets :
    d.setWidth 32 ^^^ c.setWidth 32 <<< 8 ^^^ b.setWidth 32 <<< 16 ^^^ a.setWidth 32 <<< 24 =
      joinOctets a b c d := by
  refine BitVec.eq_of_getLsbD_eq fun i inside => ?_
  simp only [joinOctets, BitVec.getLsbD_append, BitVec.getLsbD_xor, BitVec.getLsbD_shiftLeft,
    BitVec.getLsbD_setWidth]
  have beyond (x : BitVec 8) (n : Nat) (high : 8 ≤ n) : x.getLsbD n = false :=
    BitVec.getLsbD_of_ge x n high
  rcases Nat.lt_or_ge i 8 with first | first
  · have less : i < 16 ∧ i < 24 := by omega
    simp [first, less, inside]
  · rcases Nat.lt_or_ge i 16 with second | second
    · have other : i - 8 < 8 ∧ i < 24 ∧ ¬ i < 8 ∧ i - 8 < 32 := by omega
      simp [beyond d i first, second, other, inside]
    · rcases Nat.lt_or_ge i 24 with third | third
      · have other : ¬ i < 8 ∧ ¬ i < 16 ∧ ¬ i - 8 < 8 ∧ i - 8 - 8 < 8 ∧ i - 16 = i - 8 - 8 ∧
            i - 8 - 8 < 32 := by omega
        simp [beyond d i first, beyond c (i - 8) (by omega), third, other, inside]
      · have other : ¬ i < 8 ∧ ¬ i < 16 ∧ ¬ i < 24 ∧ ¬ i - 8 < 8 ∧ ¬ i - 8 - 8 < 8 ∧
            i - 24 = i - 8 - 8 - 8 ∧ i - 8 - 8 - 8 < 32 := by omega
        simp [beyond d i first, beyond c (i - 8) (by omega), beyond b (i - 16) (by omega), other,
          inside]

end PosFirmware.Foundation

/-! ## Words in a memory of bytes

A 32-bit number in four bytes, the lowest first. A word reads as it was stored
(`loadWord_putWord`), and as before where nothing of it was stored (`loadWord_congr`). Records
of two words that do not overlap (`Spaced`) are changed one word at a time.
-/

namespace PosFirmware.Foundation

/-- The number in four bytes. -/
def loadWord (mem : Nat → BitVec 8) (address : Nat) : Nat :=
  (mem address).toNat + 256 * (mem (address + 1)).toNat + 65536 * (mem (address + 2)).toNat +
    16777216 * (mem (address + 3)).toNat

/-- A number stored in four bytes. -/
def putWord (mem : Nat → BitVec 8) (address value : Nat) : Nat → BitVec 8 := fun i =>
  if i = address then BitVec.ofNat 8 value
  else if i = address + 1 then BitVec.ofNat 8 (value / 256)
  else if i = address + 2 then BitVec.ofNat 8 (value / 65536)
  else if i = address + 3 then BitVec.ofNat 8 (value / 16777216)
  else mem i

/-- One value in all bytes of a part. -/
def fillBytes (mem : Nat → BitVec 8) (address size : Nat) (value : BitVec 8) : Nat → BitVec 8 :=
  fun i => if address ≤ i ∧ i < address + size then value else mem i

variable {mem mem' : Nat → BitVec 8} {address value other size : Nat}

theorem loadWord_congr (same : ∀ i, address ≤ i → i < address + 4 → mem' i = mem i) :
    loadWord mem' address = loadWord mem address := by
  rw [loadWord, loadWord, same _ (Nat.le_refl _) (by omega), same _ (by omega) (by omega),
    same _ (by omega) (by omega), same _ (by omega) (by omega)]

theorem loadWord_lt (mem : Nat → BitVec 8) (address : Nat) : loadWord mem address < 4294967296 := by
  unfold loadWord
  omega

theorem putWord_outside {i : Nat} (outside : i < address ∨ address + 4 ≤ i) :
    putWord mem address value i = mem i := by
  rw [putWord, if_neg (by omega), if_neg (by omega), if_neg (by omega), if_neg (by omega)]

theorem fillBytes_outside {byte : BitVec 8} {i : Nat}
    (outside : i < address ∨ address + size ≤ i) : fillBytes mem address size byte i = mem i :=
  if_neg (by omega)

theorem loadWord_putWord (fits : value < 4294967296) :
    loadWord (putWord mem address value) address = value := by
  have first : putWord mem address value address = BitVec.ofNat 8 value := if_pos rfl
  have second : putWord mem address value (address + 1) = BitVec.ofNat 8 (value / 256) := by
    rw [putWord, if_neg (by omega), if_pos rfl]
  have third : putWord mem address value (address + 2) = BitVec.ofNat 8 (value / 65536) := by
    rw [putWord, if_neg (by omega), if_neg (by omega), if_pos rfl]
  have fourth : putWord mem address value (address + 3) = BitVec.ofNat 8 (value / 16777216) := by
    rw [putWord, if_neg (by omega), if_neg (by omega), if_neg (by omega), if_pos rfl]
  rw [loadWord, first, second, third, fourth]
  simp only [BitVec.toNat_ofNat]
  omega

theorem loadWord_putWord_apart (apart : other + 4 ≤ address ∨ address + 4 ≤ other) :
    loadWord (putWord mem address value) other = loadWord mem other :=
  loadWord_congr fun _ _ _ => putWord_outside (by omega)

/-! ## Records of two words -/

/-- The second word of a record. -/
def loadSecond (mem : Nat → BitVec 8) (record : Nat) : Nat := loadWord mem (record + 4)

/-- The second word of a record stored. -/
def putSecond (mem : Nat → BitVec 8) (record value : Nat) : Nat → BitVec 8 :=
  putWord mem (record + 4) value

/-- Records of two words that do not overlap. -/
structure Spaced (records : List Nat) : Prop where
  apart : ∀ one ∈ records, ∀ other ∈ records, one ≠ other → one + 8 ≤ other ∨ other + 8 ≤ one

namespace Spaced

variable {records : List Nat} {record : Nat}

theorem mono {more : List Nat} (spaced : Spaced more) (inside : records ⊆ more) : Spaced records :=
  ⟨fun one oneIn other otherIn => spaced.apart one (inside oneIn) other (inside otherIn)⟩

theorem first_putWord (spaced : Spaced records) (recordIn : record ∈ records)
    (otherIn : other ∈ records) (fits : value < 4294967296) :
    loadWord (putWord mem record value) other = Function.update (loadWord mem) record value other := by
  by_cases same : other = record
  · rw [same, Function.update_self]
    exact loadWord_putWord fits
  · have apart := spaced.apart other otherIn record recordIn same
    rw [Function.update_of_ne same]
    exact loadWord_putWord_apart (by omega)

theorem second_putSecond (spaced : Spaced records) (recordIn : record ∈ records)
    (otherIn : other ∈ records) (fits : value < 4294967296) :
    loadSecond (putSecond mem record value) other =
      Function.update (loadSecond mem) record value other := by
  by_cases same : other = record
  · rw [same, Function.update_self]
    exact loadWord_putWord fits
  · have apart := spaced.apart other otherIn record recordIn same
    rw [Function.update_of_ne same]
    exact loadWord_putWord_apart (by omega)

theorem first_putSecond (spaced : Spaced records) (recordIn : record ∈ records)
    (otherIn : other ∈ records) : loadWord (putSecond mem record value) other = loadWord mem other := by
  apply loadWord_putWord_apart
  by_cases same : other = record
  · omega
  · have apart := spaced.apart other otherIn record recordIn same
    omega

theorem second_putWord (spaced : Spaced records) (recordIn : record ∈ records)
    (otherIn : other ∈ records) : loadSecond (putWord mem record value) other = loadSecond mem other := by
  apply loadWord_putWord_apart
  by_cases same : other = record
  · omega
  · have apart := spaced.apart other otherIn record recordIn same
    omega

end Spaced

end PosFirmware.Foundation
