import PosFirmware.Flash.Ecc

/-! # What the parity code stores

`calEcc` holds the exclusive or of every column and of every row of the page
matrix (`calEcc_col`, `calEcc_row`), and the scan of a syndrome with at most two
raised bits returns their number and their positions (`errNum_eq`,
`bitmaps_single`, `bitmaps_pair`).
-/

namespace PosFirmware.Flash

open PosFirmware.Foundation

theorem parity_fold (half : Nat) (dt : Word) :
    xorSum (half + half) dt.getLsbD = xorSum half ((dt >>> half) ^^^ dt).getLsbD := by
  rw [xorSum_halve]
  apply xorSum_congr
  intro bit _
  rw [BitVec.getLsbD_xor, BitVec.getLsbD_ushiftRight, Bool.xor_comm]

theorem isBitodd_eq (dt : Word) :
    isBitodd dt = if xorSum 32 dt.getLsbD then 1 else 0 := by
  have lowBit : ∀ folded : Word, folded &&& 1 = if folded.getLsbD 0 then 1 else 0 := by
    intro folded
    apply BitVec.eq_of_getLsbD_eq
    intro bit below
    rw [BitVec.getLsbD_and]
    cases bit with
    | zero => cases raised : folded.getLsbD 0 <;> simp
    | succ bit => cases folded.getLsbD 0 <;> simp [BitVec.getLsbD_one]
  rw [isBitodd, lowBit, parity_fold 16, parity_fold 8, parity_fold 4, parity_fold 2, parity_fold 1,
    xorSum_succ, xorSum_zero, Bool.false_xor]

theorem oneBit_getLsbD (place bit : Nat) (below : place < 32) :
    ((1 : Word) <<< place).getLsbD bit = decide (bit = place) := by
  have one : (1 : Word) <<< place = BitVec.twoPow 32 place := by
    rw [BitVec.twoPow_eq]
    rfl
  rw [one, BitVec.getLsbD_twoPow]
  by_cases here : bit = place
  · simp [here, below]
  · simp [here, Ne.symm here]

/-- The parity of a row of the matrix. -/
def rowParity (datain : Words) (row : Nat) : Bool :=
  xorSum MATRIX_NUM fun col => bitAt datain (MATRIX_NUM * row + col)

/-- The parity of a column of the matrix. -/
def colParity (datain : Words) (col : Nat) : Bool :=
  xorSum MATRIX_NUM fun row => bitAt datain (MATRIX_NUM * row + col)

theorem bitAt_row (datain : Words) (row word bit : Nat) (inWord : bit < 32) :
    bitAt datain (MATRIX_NUM * row + (32 * word + bit)) =
      (datain (MATRIX_NUM / 32 * row + word)).getLsbD bit := by
  have place : (MATRIX_NUM * row + (32 * word + bit)) / 32 = MATRIX_NUM / 32 * row + word := by
    simp only [MATRIX_NUM]; omega
  have offset : (MATRIX_NUM * row + (32 * word + bit)) % 32 = bit := by
    simp only [MATRIX_NUM]; omega
  rw [bitAt, place, offset]

theorem rowTemp_parity (datain : Words) (row : Nat) :
    xorSum 32 (0 ^^^ datain (4 * row + 0) ^^^ datain (4 * row + 1) ^^^ datain (4 * row + 2) ^^^
      datain (4 * row + 3)).getLsbD = rowParity datain row := by
  have blocks : rowParity datain row = xorSum 4 fun word => xorSum 32 fun bit =>
      bitAt datain (MATRIX_NUM * row + (word * 32 + bit)) := xorSum_mul 4 32 _
  have words : ∀ word, (xorSum 32 fun bit =>
      bitAt datain (MATRIX_NUM * row + (word * 32 + bit))) =
      xorSum 32 (datain (4 * row + word)).getLsbD := by
    intro word
    apply xorSum_congr
    intro bit below
    rw [Nat.mul_comm word 32, bitAt_row datain row word bit below]
    rfl
  simp only [blocks, words]
  rw [show (xorSum 4 fun word => xorSum 32 (datain (4 * row + word)).getLsbD) =
    (((xorSum 32 (datain (4 * row + 0)).getLsbD ^^ xorSum 32 (datain (4 * row + 1)).getLsbD) ^^
      xorSum 32 (datain (4 * row + 2)).getLsbD) ^^ xorSum 32 (datain (4 * row + 3)).getLsbD) from by
      simp [xorSum_succ 3, xorSum_succ 2, xorSum_succ 1, xorSum_succ 0]]
  rw [← xorSum_xor, ← xorSum_xor, ← xorSum_xor]
  apply xorSum_congr
  intro bit below
  simp

theorem calEccRow_col (datain eccBuf : Words) (row word : Nat) (below : word < 4) :
    calEccRow datain eccBuf row word = eccBuf word ^^^ datain (4 * row + word) := by
  have away : word ≠ 4 + row / 32 := by omega
  obtain rfl | rfl | rfl | rfl : word = 0 ∨ word = 1 ∨ word = 2 ∨ word = 3 := by omega
  all_goals
    simp [calEccRow, MATRIX_NUM, List.range_succ, Function.update_apply, away]

theorem calEccRow_row (datain eccBuf : Words) (row word : Nat) :
    calEccRow datain eccBuf row (4 + word) =
      if word = row / 32 then
        eccBuf (4 + word) ||| (if rowParity datain row then (1 : Word) else 0) <<< (row % 32)
      else eccBuf (4 + word) := by
  have lines : MATRIX_NUM / 32 = 4 := rfl
  simp only [calEccRow, lines, List.range_succ, List.range_zero, List.nil_append,
    List.cons_append, List.foldl_cons, List.foldl_nil, isBitodd_eq, rowTemp_parity]
  have far : ∀ col < 4, 4 + word ≠ col := by omega
  by_cases here : word = row / 32
  · rw [if_pos here, ← here, Function.update_self]
    simp [far]
  · rw [if_neg here, Function.update_of_ne (by omega)]
    simp [far]

theorem calEccRow_foldl (datain : Words) (rows : Nat) (rows_le : rows ≤ MATRIX_NUM) :
    let eccBuf := (List.range rows).foldl (calEccRow datain) (fun _ => 0)
    (∀ word < 4, ∀ bit < 32, (eccBuf word).getLsbD bit =
      xorSum rows fun row => bitAt datain (MATRIX_NUM * row + (32 * word + bit))) ∧
    ∀ word < 4, ∀ bit < 32, (eccBuf (4 + word)).getLsbD bit =
      (decide (32 * word + bit < rows) && rowParity datain (32 * word + bit)) := by
  induction rows with
  | zero => simp
  | succ rows ih =>
      obtain ⟨colsBefore, rowsBefore⟩ := ih (by omega)
      rw [List.range_succ, List.foldl_append, List.foldl_cons, List.foldl_nil]
      refine ⟨fun word wordBelow bit bitBelow => ?_, fun word wordBelow bit bitBelow => ?_⟩
      · rw [calEccRow_col _ _ _ _ wordBelow, BitVec.getLsbD_xor, colsBefore word wordBelow bit
          bitBelow, xorSum_succ, bitAt_row datain rows word bit bitBelow]
        rfl
      · rw [calEccRow_row]
        by_cases here : word = rows / 32
        · have raised : ((if rowParity datain rows then (1 : Word) else 0) <<<
              (rows % 32)).getLsbD bit = (decide (bit = rows % 32) && rowParity datain rows) := by
            cases rowParity datain rows
            · simp
            · simp only [↓reduceIte, Bool.and_true]
              exact oneBit_getLsbD _ _ (Nat.mod_lt _ (by decide))
          rw [if_pos here, BitVec.getLsbD_or, rowsBefore word wordBelow bit bitBelow, raised]
          by_cases last : 32 * word + bit = rows
          · have place : bit = rows % 32 := by omega
            rw [last, decide_eq_true place]
            simp
          · have away : bit ≠ rows % 32 := by omega
            have same : decide (32 * word + bit < rows + 1) = decide (32 * word + bit < rows) := by
              simp only [decide_eq_decide]; omega
            rw [same, decide_eq_false away, Bool.false_and, Bool.or_false]
        · have same : decide (32 * word + bit < rows + 1) = decide (32 * word + bit < rows) := by
            simp only [decide_eq_decide]; omega
          rw [if_neg here, rowsBefore word wordBelow bit bitBelow, same]

theorem calEcc_col (datain : Words) (col : Nat) (below : col < MATRIX_NUM) :
    bitAt (calEcc datain) col = colParity datain col := by
  have stored := (calEccRow_foldl datain MATRIX_NUM le_rfl).1 (col / 32)
    (by simp only [MATRIX_NUM] at below; omega) (col % 32) (Nat.mod_lt _ (by decide))
  rw [Nat.div_add_mod] at stored
  exact stored

theorem calEcc_row (datain : Words) (row : Nat) (below : row < MATRIX_NUM) :
    bitAt (calEcc datain) (MATRIX_NUM + row) = rowParity datain row := by
  have stored := (calEccRow_foldl datain MATRIX_NUM le_rfl).2 (row / 32)
    (by simp only [MATRIX_NUM] at below; omega) (row % 32) (Nat.mod_lt _ (by decide))
  have place : (MATRIX_NUM + row) / 32 = 4 + row / 32 := by simp only [MATRIX_NUM]; omega
  have offset : (MATRIX_NUM + row) % 32 = row % 32 := by simp only [MATRIX_NUM]; omega
  rw [Nat.div_add_mod] at stored
  rw [bitAt, place, offset, calEcc, stored, decide_eq_true below, Bool.true_and]

theorem byteAt_getLsbD (buffer : Words) (offset bit : Nat) (below : bit < 8) :
    (byteAt buffer offset).getLsbD bit = bitAt buffer (offset * 8 + bit) := by
  have place : (offset * 8 + bit) / 32 = offset / 4 := by omega
  have within : (offset * 8 + bit) % 32 = 8 * (offset % 4) + bit := by omega
  rw [byteAt, BitVec.getLsbD_extractLsb', decide_eq_true below, Bool.true_and, bitAt, place,
    within]

theorem bit1NumLoop_eq (fuel : Nat) (dt : Word) (rsl : Nat) :
    bit1NumLoop fuel dt rsl = rsl + (List.range fuel).countP dt.getLsbD := by
  induction fuel generalizing dt rsl with
  | zero => rfl
  | succ fuel ih =>
      have shifted : (fun bit => dt.getLsbD bit) ∘ Nat.succ = (dt >>> 1).getLsbD := by
        funext bit
        simp [Nat.add_comm]
      have lowBit : (if dt &&& 1 = 0 then rsl else rsl + 1) =
          rsl + if dt.getLsbD 0 then 1 else 0 := by
        have low : dt &&& 1 = 0 ↔ dt.getLsbD 0 = false := by
          constructor
          · intro zero
            have := congrArg (fun word => word.getLsbD 0) zero
            simpa using this
          · intro clear
            apply BitVec.eq_of_getLsbD_eq
            intro bit below
            cases bit with
            | zero => simp_all
            | succ bit => simp [BitVec.getLsbD_one]
        cases raised : dt.getLsbD 0
        · rw [if_pos (low.mpr raised)]
          rfl
        · rw [if_neg fun zero => by rw [low.mp zero] at raised; cases raised]
          rfl
      rw [List.range_succ_eq_map, List.countP_cons, List.countP_map, shifted, bit1NumLoop, lowBit]
      by_cases done : dt >>> 1 = 0
      · rw [if_pos done, done, List.countP_eq_zero.mpr (by simp)]
        omega
      · rw [if_neg done, ih]
        omega

theorem errNum_eq (syndrome : Words) :
    errNum syndrome = (List.range MATRIX_NUM).countP (bitAt syndrome) := by
  have counted : ∀ words, (List.range words).foldl (fun total i => total + bit1Num (syndrome i)) 0 =
      (List.range (words * 32)).countP (bitAt syndrome) := by
    intro words
    induction words with
    | zero => rfl
    | succ words ih =>
        have ofWord : bitAt syndrome ∘ (fun bit => words * 32 + bit) =
            fun bit => (syndrome (words + bit / 32)).getLsbD (bit % 32) := by
          funext bit
          rw [Function.comp_apply, bitAt, show (words * 32 + bit) / 32 = words + bit / 32 by omega,
            show (words * 32 + bit) % 32 = bit % 32 by omega]
        rw [List.range_succ, List.foldl_append, ih, Nat.succ_mul, List.range_add,
          List.countP_append, List.countP_map, ofWord, List.foldl_cons, List.foldl_nil, bit1Num,
          bit1NumLoop_eq, Nat.zero_add]
        rfl
  exact counted 4

/-- A syndrome raised at two positions at most; a position past the end stands
for one that is missing. -/
def RaisedAt (syndrome : Words) (first second : Nat) : Prop :=
  ∀ bit < MATRIX_NUM, bitAt syndrome bit = decide (bit = first ∨ bit = second)

/-- A position of a syndrome as the scan returns it. -/
def bitmapOf (position scanned : Nat) : Int := if position < scanned then position else -1

/-- The number of raised bits of a syndrome raised at two positions at most. -/
def raisedNum (first second : Nat) : Nat :=
  (if first < MATRIX_NUM then 1 else 0) + if second < MATRIX_NUM then 1 else 0

theorem RaisedAt.errNum {syndrome : Words} {first second : Nat}
    (raised : RaisedAt syndrome first second) (order : first < second) :
    errNum syndrome = raisedNum first second := by
  have counted : ∀ count, (List.range count).countP
      (fun bit => decide (bit = first ∨ bit = second)) =
      (if first < count then 1 else 0) + if second < count then 1 else 0 := by
    intro count
    induction count with
    | zero => simp
    | succ count ih =>
        rw [List.range_succ, List.countP_append, ih]
        by_cases atFirst : count = first
        · subst atFirst
          have notSecond : ¬ second < count := by omega
          have notNext : ¬ second < count + 1 := by omega
          simp [notSecond, notNext]
        · by_cases atSecond : count = second
          · subst atSecond
            have before : first < count + 1 := by omega
            simp [order, before]
          · have firstSame : first < count + 1 ↔ first < count := by omega
            have secondSame : second < count + 1 ↔ second < count := by omega
            simp [atFirst, atSecond, firstSame, secondSame]
  rw [errNum_eq, raisedNum, ← counted]
  apply List.countP_congr
  intro bit member
  rw [raised bit (List.mem_range.mp member)]

theorem RaisedAt.bitmaps {syndrome : Words} {first second : Nat}
    (raised : RaisedAt syndrome first second) (order : first < second) :
    bitmaps syndrome = (bitmapOf first MATRIX_NUM, bitmapOf second MATRIX_NUM) := by
  -- within a byte, the scan has seen the positions below the current bit
  have inByte : ∀ i < MATRIX_NUM / 8, ∀ count ≤ 8, ¬ second < i * 8 →
      (List.range count).foldl (bitmapStep syndrome i)
        (bitmapOf first (i * 8), bitmapOf second (i * 8)) =
        (bitmapOf first (i * 8 + count), bitmapOf second (i * 8 + count)) := by
    intro i inside count count_le later
    induction count with
    | zero => rfl
    | succ count ih =>
        have bitIs := raised (i * 8 + count) (by simp only [MATRIX_NUM] at inside ⊢; omega)
        rw [List.range_succ, List.foldl_append, ih (by omega), List.foldl_cons, List.foldl_nil,
          bitmapStep, byteAt_getLsbD _ _ _ (by omega), bitIs]
        simp only [bitmapOf]
        grind
  have scanned : ∀ count ≤ MATRIX_NUM / 8, (List.range count).foldl (fun bitmap i =>
      if 0 < bitmap.2 then bitmap
      else if byteAt syndrome i = 0 then bitmap
      else (List.range 8).foldl (bitmapStep syndrome i) bitmap) ((-1, -1) : Int × Int) =
      (bitmapOf first (count * 8), bitmapOf second (count * 8)) := by
    intro count count_le
    induction count with
    | zero => rfl
    | succ count ih =>
        rw [@List.range_succ count, List.foldl_append, ih (by omega), List.foldl_cons,
          List.foldl_nil, Nat.succ_mul]
        by_cases found : second < count * 8
        · simp only [bitmapOf]
          grind
        · have notYet : ¬ 0 < bitmapOf second (count * 8) := by
            simp only [bitmapOf, if_neg found]
            decide
          rw [if_neg notYet]
          by_cases blank : byteAt syndrome count = 0
          · have clear : ∀ bit < 8, count * 8 + bit ≠ first ∧ count * 8 + bit ≠ second := by
              intro bit below
              have bitIs := raised (count * 8 + bit) (by simp only [MATRIX_NUM] at *; omega)
              rw [← byteAt_getLsbD _ _ _ below, blank] at bitIs
              simpa using bitIs
            have firstOut : first < count * 8 + 8 ↔ first < count * 8 := by
              have := clear (first - count * 8)
              omega
            have secondOut : second < count * 8 + 8 ↔ second < count * 8 := by
              have := clear (second - count * 8)
              omega
            rw [if_pos blank]
            simp only [bitmapOf, firstOut, secondOut]
          · rw [if_neg blank, inByte count (by omega) 8 le_rfl found]
  exact scanned (MATRIX_NUM / 8) le_rfl

end PosFirmware.Flash
