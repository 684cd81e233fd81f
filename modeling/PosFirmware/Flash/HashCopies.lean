import PosFirmware.Flash.EccCorrection

/-!
# The two copies of the hash of a page

A page whose data and parity are intact is read back with bits of the hash cleared, none of them
in both copies. `eccCorrect` merges the copies by raising every bit of a byte in which they differ,
so that the page is delivered exactly when each of these bytes was `0xff` (`eccCorrect_cleared_iff`).
-/

namespace PosFirmware.Flash

open PosFirmware.Foundation

/-- The two copies of a byte of the hash. -/
def firstCopy (datain : Words) (i : Nat) : Byte := byteAt datain (PAGE_SIZE + 32 + i)
def secondCopy (datain : Words) (i : Nat) : Byte := byteAt datain (PAGE_SIZE + 32 + HASH_SIZE + i)

/-- Bits of the copies of the hash are cleared, none in both. -/
def HashCleared (sha1 : List Byte → List Byte) (page datain : Words) : Prop :=
  ∀ i < HASH_SIZE, (sha1 (pageBytes page))[i]? = some (firstCopy datain i ||| secondCopy datain i)

/-- A page is accepted with its data. -/
def Delivers (sha1 : List Byte → List Byte) (page datain : Words) : Prop :=
  0 ≤ (eccCorrect sha1 datain).1 ∧ ∃ out, (eccCorrect sha1 datain).2 = some out ∧
    ∀ i < PAGE_SIZE / 4, out i = page i

/-! ## The merge -/

theorem oneByteBit_getLsbD {place : Nat} (below : place < 8) (bit : Nat) :
    ((1 : Byte) <<< place).getLsbD bit = decide (bit = place) := by
  have one : (1 : Byte) <<< place = BitVec.twoPow 8 place := by
    rw [BitVec.twoPow_eq]
    rfl
  rw [one, BitVec.getLsbD_twoPow]
  by_cases here : bit = place
  · simp [here, below]
  · simp [here, Ne.symm here]

theorem mergeStep_eq (pt second : Byte) {place : Nat} (below : place < 8) :
    (if (pt &&& (1 : Byte) <<< place) > (second &&& (1 : Byte) <<< place) then pt
      else pt ||| (1 : Byte) <<< place) = pt ||| (1 : Byte) <<< place := by
  split
  · next above =>
    have raised : pt.getLsbD place = true := by
      by_contra cleared
      have none : pt &&& (1 : Byte) <<< place = 0 := by
        refine BitVec.eq_of_getLsbD_eq fun bit _ => ?_
        rw [BitVec.getLsbD_and, oneByteBit_getLsbD below]
        by_cases here : bit = place
        · rw [here, (Bool.not_eq_true _).mp cleared, Bool.false_and]
          exact (BitVec.getLsbD_zero).symm
        · rw [decide_eq_false here, Bool.and_false]
          exact (BitVec.getLsbD_zero).symm
      rw [none] at above
      exact absurd above (BitVec.not_lt_zero)
    refine BitVec.eq_of_getLsbD_eq fun bit _ => ?_
    rw [BitVec.getLsbD_or, oneByteBit_getLsbD below]
    by_cases here : bit = place
    · rw [here, raised, Bool.true_or]
    · rw [decide_eq_false here, Bool.or_false]
  · rfl

/-- **Where the copies differ, the merge is all ones.** -/
theorem mergeHashByte_of_ne {first second : Byte} (differ : first ≠ second) :
    mergeHashByte first second = 0xff := by
  rw [mergeHashByte, if_neg differ]
  have turns : ∀ n ≤ 8, ∀ bit, ((List.range n).foldl (fun pt j =>
      if (pt &&& (1 : Byte) <<< j) > (second &&& (1 : Byte) <<< j) then pt
      else pt ||| (1 : Byte) <<< j) first).getLsbD bit = (first.getLsbD bit || decide (bit < n)) := by
    intro n
    induction n with
    | zero =>
      intro _ bit
      exact (Bool.or_false _).symm
    | succ n past =>
      intro inside bit
      rw [List.range_succ, List.foldl_append, List.foldl_cons, List.foldl_nil,
        mergeStep_eq _ _ inside, BitVec.getLsbD_or, past (by omega), oneByteBit_getLsbD inside,
        Bool.or_assoc, ← Bool.decide_or]
      exact congrArg _ (decide_eq_decide.mpr Nat.lt_succ_iff_lt_or_eq.symm)
  refine BitVec.eq_of_getLsbD_eq fun bit below => ?_
  refine (turns 8 (Nat.le_refl 8) bit).trans ?_
  rw [decide_eq_true below, Bool.or_true]
  exact (BitVec.getLsbD_allOnes.trans (decide_eq_true below)).symm

theorem mergeHashByte_eq_or_iff (first second : Byte) :
    mergeHashByte first second = first ||| second ↔ first = second ∨ first ||| second = 0xff := by
  by_cases same : first = second
  · rw [mergeHashByte, if_pos same, same, BitVec.or_self]
    exact iff_of_true rfl (Or.inl rfl)
  · rw [mergeHashByte_of_ne same]
    exact ⟨fun ones => Or.inr ones.symm, fun either => (either.resolve_left same).symm⟩

/-! ## Intact data -/

variable {sha1 : List Byte → List Byte} {page datain : Words}

theorem eccTried_of_intact (intact : Damaged page datain ∅) :
    eccTried datain = ([], 0, -0x1000) := by
  have damaged : DamagedAt page datain ECC_BITS (ECC_BITS + 1) := by
    refine ⟨Nat.lt_succ_self _, fun bit below => ?_⟩
    rw [intact.bits bit below]
    simp [below.ne, (Nat.lt_succ_of_lt below).ne]
  have cols : RaisedAt (colEccBuf datain) MATRIX_NUM (MATRIX_NUM + 1) :=
    raisedAt_of_eq damaged.colEccBuf
  have rows : RaisedAt (rowEccBuf datain) MATRIX_NUM (MATRIX_NUM + 1) :=
    raisedAt_of_ne (Nat.lt_succ_self _) damaged.rowEccBuf
  exact eccTried_of_raised cols (Nat.lt_succ_self _) rows (Nat.lt_succ_self _)

theorem delivers_iff (intact : Damaged page datain ∅) :
    Delivers sha1 page datain ↔ (sha1 (pageBytes page)).take HASH_SIZE = storedHash datain := by
  have same : SamePage datain page := fun bit below => by
    rw [intact.bits bit (by simp only [ECC_BITS]; omega), bitAt_withEcc_data _ _ below]
    simp
  have bytes := same.pageBytes_eq
  unfold Delivers eccCorrect
  simp only [eccTried_of_intact intact, bytes]
  by_cases hashed : (sha1 (pageBytes page)).take HASH_SIZE = storedHash datain
  · simp only [hashed, beq_self_eq_true, if_true]
    exact iff_of_true ⟨le_rfl, datain, rfl, same.words_eq⟩ trivial
  · have differs : ((sha1 (pageBytes page)).take HASH_SIZE == storedHash datain) = false :=
      beq_eq_false_iff_ne.mpr hashed
    simp only [differs, Bool.false_eq_true, if_false, List.find?_nil]
    refine iff_of_false (fun delivers => ?_) hashed
    exact absurd delivers.1 (by decide)

theorem storedHash_eq_iff (cleared : HashCleared sha1 page datain) :
    (sha1 (pageBytes page)).take HASH_SIZE = storedHash datain ↔
      ∀ i < HASH_SIZE, mergeHashByte (firstCopy datain i) (secondCopy datain i) =
        firstCopy datain i ||| secondCopy datain i := by
  have stored : ∀ i < HASH_SIZE, (storedHash datain)[i]? =
      some (mergeHashByte (firstCopy datain i) (secondCopy datain i)) := fun i below => by
    rw [storedHash, List.getElem?_map, List.getElem?_range below]
    rfl
  constructor
  · intro same i below
    have there := congrArg (·[i]?) same
    simp only [List.getElem?_take_of_lt below, cleared i below, stored i below] at there
    exact (Option.some.inj there).symm
  · intro merged
    refine List.ext_getElem? fun i => ?_
    by_cases below : i < HASH_SIZE
    · rw [List.getElem?_take_of_lt below, cleared i below, stored i below, merged i below]
    · rw [List.getElem?_take, if_neg below, storedHash, List.getElem?_eq_none]
      simpa using below

/-- **Damage to the copies of the hash.** A page with intact data, of whose hash bits are cleared,
none in both copies, is delivered exactly when every byte in which the copies differ is `0xff`. -/
theorem eccCorrect_cleared_iff (intact : Damaged page datain ∅)
    (cleared : HashCleared sha1 page datain) :
    Delivers sha1 page datain ↔ ∀ i < HASH_SIZE, firstCopy datain i = secondCopy datain i ∨
      firstCopy datain i ||| secondCopy datain i = 0xff := by
  rw [delivers_iff intact, storedHash_eq_iff cleared]
  exact forall₂_congr fun i _ => mergeHashByte_eq_or_iff _ _

/-- A page of zeros with its parity and hashes, with a bit of the first copy cleared. -/
def zerosCleared : Words := fun i =>
  if i < (PAGE_SIZE + 32) / 4 then 0
  else ([0xfdb35d40, 0xa14bffba, 0x1a372937, 0xfdb35d60, 0xa14bffba, 0x1a372937] :
    List Word).getD (i - (PAGE_SIZE + 32) / 4) 0

theorem zerosCleared_intact : Damaged (fun _ => 0) zerosCleared ∅ := by
  refine ⟨by simp, fun bit below => ?_⟩
  have inSpare : bit / 32 < (PAGE_SIZE + 32) / 4 := by
    simp only [ECC_BITS, PAGE_BITS, MATRIX_NUM, PAGE_SIZE] at *
    omega
  rw [withEcc_zeros bit below, bitAt, zerosCleared, if_pos inSpare]
  simp

theorem zerosCleared_cleared : HashCleared sha1OfZeros (fun _ => 0) zerosCleared := by
  intro i below
  have hashed : sha1OfZeros (pageBytes fun _ => 0) =
      [0x60, 0x5d, 0xb3, 0xfd, 0xba, 0xff, 0x4b, 0xa1, 0x37, 0x29,
        0x37, 0x1a, 0xd0, 0xc4, 0xfb, 0xab, 0x38, 0x89, 0x37, 0x8e] := by
    rw [sha1OfZeros, if_pos pageBytes_zeros]
  rw [hashed]
  revert i
  decide

/-- A page with one bit of one copy of its hash cleared is lost. -/
theorem zerosCleared_lost : Damaged (fun _ => 0) zerosCleared ∅ ∧
    HashCleared sha1OfZeros (fun _ => 0) zerosCleared ∧
    ¬ Delivers sha1OfZeros (fun _ => 0) zerosCleared := by
  refine ⟨zerosCleared_intact, zerosCleared_cleared, fun delivers => ?_⟩
  rw [delivers_iff zerosCleared_intact, storedHash_eq_iff zerosCleared_cleared] at delivers
  exact absurd (delivers 0 (by decide)) (by decide)

theorem eccCorrect_cleared_iff_zeros :
    Delivers sha1OfZeros (fun _ => 0) zerosCleared ↔ ∀ i < HASH_SIZE,
      firstCopy zerosCleared i = secondCopy zerosCleared i ∨
        firstCopy zerosCleared i ||| secondCopy zerosCleared i = 0xff :=
  eccCorrect_cleared_iff zerosCleared_intact zerosCleared_cleared

end PosFirmware.Flash
