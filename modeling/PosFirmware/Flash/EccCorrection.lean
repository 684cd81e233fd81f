import PosFirmware.Flash.EccParity

/-! # The parity code corrects two flipped bits

A page read back with at most two bits of its data and parity flipped has column
and row syndromes that place the flipped data bits. The pages tried by
`eccCorrect` then include the page that was written (`Damaged.tried`), and
without a collision of the stored hash among the pages tried the page delivered
is that page (`eccCorrect_exact`).
-/

namespace PosFirmware.Flash

open PosFirmware.Foundation

/-- The number of data bits of a page. -/
def PAGE_BITS : Nat := 8 * PAGE_SIZE

/-- The number of data and parity bits of a page. -/
def ECC_BITS : Nat := PAGE_BITS + 2 * MATRIX_NUM

/-- A page followed by its parity, as it is programmed. -/
def withEcc (page : Words) : Words := fun i =>
  if i < PAGE_SIZE / 4 then page i else calEcc page (i - PAGE_SIZE / 4)

/-- Two pages with the same data bits. -/
def SamePage (first second : Words) : Prop :=
  ∀ bit < PAGE_BITS, bitAt first bit = bitAt second bit

/-- A page read back with at most two flipped bits of data and parity. -/
structure Damaged (page datain : Words) (flipped : Finset Nat) : Prop where
  few : flipped.card ≤ 2
  bits : ∀ bit < ECC_BITS, bitAt datain bit = (bitAt (withEcc page) bit ^^ decide (bit ∈ flipped))

/-- Both copies of the hash kept with a page read back are those of the page. -/
def HashIntact (sha1 : List Byte → List Byte) (page datain : Words) : Prop :=
  ∀ i < HASH_SIZE, (sha1 (pageBytes page))[i]? = some (byteAt datain (PAGE_SIZE + 32 + i)) ∧
    (sha1 (pageBytes page))[i]? = some (byteAt datain (PAGE_SIZE + 32 + HASH_SIZE + i))

/-- No page hashed for a page read back, other than the page written, has its
stored hash. -/
def NoCollision (sha1 : List Byte → List Byte) (page datain : Words) : Prop :=
  ∀ tried ∈ datain :: (eccTried datain).1,
    (sha1 (pageBytes tried)).take HASH_SIZE = (sha1 (pageBytes page)).take HASH_SIZE →
      SamePage tried page

theorem SamePage.pageBytes_eq {first second : Words} (same : SamePage first second) :
    pageBytes first = pageBytes second := by
  unfold pageBytes
  refine List.map_congr_left fun offset member => ?_
  have below := List.mem_range.mp member
  apply BitVec.eq_of_getLsbD_eq
  intro bit inByte
  rw [byteAt_getLsbD _ _ _ inByte, byteAt_getLsbD _ _ _ inByte]
  exact same _ (by simp only [PAGE_BITS, PAGE_SIZE] at *; omega)

theorem SamePage.of_pageBytes {first second : Words} (same : pageBytes first = pageBytes second) :
    SamePage first second := by
  intro bit below
  have inPage : bit / 8 < PAGE_SIZE := by simp only [PAGE_BITS] at below; omega
  have bytes := congrArg (fun bytes => bytes[bit / 8]?) same
  simp only [pageBytes, List.getElem?_map, List.getElem?_range inPage, Option.map_some,
    Option.some.injEq] at bytes
  have bits := congrArg (fun byte => byte.getLsbD (bit % 8)) bytes
  simp only [byteAt_getLsbD _ _ _ (Nat.mod_lt bit (show 0 < 8 by decide))] at bits
  rwa [show bit / 8 * 8 + bit % 8 = bit by omega] at bits

theorem SamePage.words_eq {first second : Words} (same : SamePage first second) (i : Nat)
    (below : i < PAGE_SIZE / 4) : first i = second i := by
  apply BitVec.eq_of_getLsbD_eq
  intro bit inWord
  have bits := same (32 * i + bit) (by simp only [PAGE_BITS, PAGE_SIZE] at *; omega)
  rwa [bitAt, bitAt, show (32 * i + bit) / 32 = i by omega,
    show (32 * i + bit) % 32 = bit by omega] at bits

theorem HashIntact.storedHash_eq {sha1 : List Byte → List Byte} {page datain : Words}
    (intact : HashIntact sha1 page datain) :
    storedHash datain = (sha1 (pageBytes page)).take HASH_SIZE := by
  apply List.ext_getElem?
  intro i
  by_cases below : i < HASH_SIZE
  · obtain ⟨first, second⟩ := intact i below
    have copies := Option.some.inj (first.symm.trans second)
    rw [List.getElem?_take_of_lt below, first, storedHash, List.getElem?_map,
      List.getElem?_range below, Option.map_some, mergeHashByte, if_pos copies]
  · rw [List.getElem?_take, if_neg below, storedHash, List.getElem?_eq_none]
    simpa using below

theorem eccTried_nonneg (datain : Words) : 0 ≤ (eccTried datain).2.1 := by
  simp only [eccTried, eccCandidates]
  split_ifs <;> simp

theorem eccTried_pos {datain tried : Words} (member : tried ∈ (eccTried datain).1) :
    0 < (eccTried datain).2.1 := by
  revert member
  simp only [eccTried, eccCandidates]
  split_ifs <;> simp

theorem eccCorrect_of_tried {sha1 : List Byte → List Byte} {page datain tried : Words}
    (intact : HashIntact sha1 page datain) (noCollision : NoCollision sha1 page datain)
    (member : tried ∈ datain :: (eccTried datain).1) (same : SamePage tried page) :
    0 ≤ (eccCorrect sha1 datain).1 ∧
      ∃ out, (eccCorrect sha1 datain).2 = some out ∧ SamePage out page := by
  have stored := intact.storedHash_eq
  unfold eccCorrect
  simp only [beq_iff_eq, stored]
  by_cases clean : (sha1 (pageBytes datain)).take HASH_SIZE =
      (sha1 (pageBytes page)).take HASH_SIZE
  · rw [if_pos clean]
    exact ⟨le_rfl, datain, rfl, noCollision datain List.mem_cons_self clean⟩
  · rw [if_neg clean]
    have inTail : tried ∈ (eccTried datain).1 := by
      rcases List.mem_cons.mp member with rfl | tail
      · exact absurd (by rw [same.pageBytes_eq]) clean
      · exact tail
    cases found : (eccTried datain).1.find? fun tried =>
        (sha1 (pageBytes tried)).take HASH_SIZE == (sha1 (pageBytes page)).take HASH_SIZE with
    | none =>
        have := List.find?_eq_none.mp found tried inTail
        rw [same.pageBytes_eq] at this
        simp at this
    | some out =>
        refine ⟨eccTried_nonneg datain, out, rfl, ?_⟩
        have hashed := List.find?_some found
        exact noCollision out (List.mem_cons_of_mem _ (List.mem_of_find?_eq_some found))
          (by simpa using hashed)

theorem bitAt_flipBit (datain : Words) (row col bit : Nat) :
    bitAt (flipBit datain row col) bit =
      (bitAt datain bit ^^ decide (bit = MATRIX_NUM * row + col)) := by
  unfold flipBit bitAt
  simp only [Int.toNat_natCast]
  by_cases word : bit / 32 = row * (MATRIX_NUM / 32) + col / 32
  · rw [word, Function.update_self, BitVec.getLsbD_xor,
      oneBit_getLsbD _ _ (Nat.mod_lt _ (by decide))]
    congr 1
    simp only [MATRIX_NUM] at *
    apply decide_eq_decide.mpr
    omega
  · rw [Function.update_of_ne word]
    have away : bit ≠ MATRIX_NUM * row + col := by
      simp only [MATRIX_NUM] at *; omega
    simp [away]

/-- The column whose parity a flipped bit changes; past the end for a bit of the
row parities. -/
def colOf (bit : Nat) : Nat :=
  if bit < PAGE_BITS + MATRIX_NUM then bit % MATRIX_NUM else MATRIX_NUM

/-- The row whose parity a flipped bit changes; past the end for a bit of the
column parities. -/
def rowOf (bit : Nat) : Nat :=
  if bit < PAGE_BITS then bit / MATRIX_NUM
  else if bit < PAGE_BITS + MATRIX_NUM then MATRIX_NUM
  else bit - (PAGE_BITS + MATRIX_NUM)

/-- A page read back whose flipped bits are two positions, in order; a position
past the parity stands for one that is missing. -/
structure DamagedAt (page datain : Words) (first second : Nat) : Prop where
  order : first < second
  bits : ∀ bit < ECC_BITS, bitAt datain bit =
    (bitAt (withEcc page) bit ^^ (decide (bit = first) ^^ decide (bit = second)))

theorem Damaged.positions {page datain : Words} {flipped : Finset Nat}
    (damaged : Damaged page datain flipped) :
    ∃ first second, DamagedAt page datain first second := by
  have cases : flipped.card = 0 ∨ flipped.card = 1 ∨ flipped.card = 2 := by
    have := damaged.few
    omega
  rcases cases with none | one | two
  · rw [Finset.card_eq_zero] at none
    refine ⟨ECC_BITS, ECC_BITS + 1, Nat.lt_succ_self _, fun bit below => ?_⟩
    rw [damaged.bits bit below, none]
    simp [below.ne, (Nat.lt_succ_of_lt below).ne]
  · obtain ⟨only, rfl⟩ := Finset.card_eq_one.mp one
    refine ⟨only, only + 1 + ECC_BITS, by omega, fun bit below => ?_⟩
    rw [damaged.bits bit below]
    have away : bit ≠ only + 1 + ECC_BITS := by omega
    simp [away]
  · obtain ⟨one, other, different, rfl⟩ := Finset.card_eq_two.mp two
    rcases Nat.lt_or_gt_of_ne different with order | order
    · refine ⟨one, other, order, fun bit below => ?_⟩
      rw [damaged.bits bit below]
      by_cases here : bit = one <;> simp [here, different]
    · refine ⟨other, one, order, fun bit below => ?_⟩
      rw [damaged.bits bit below]
      by_cases here : bit = one <;> simp [here, different]

theorem bitAt_withEcc_data (page : Words) (bit : Nat) (below : bit < PAGE_BITS) :
    bitAt (withEcc page) bit = bitAt page bit := by
  rw [bitAt, bitAt, withEcc, if_pos]
  simp only [PAGE_BITS, PAGE_SIZE] at *
  omega

theorem bitAt_withEcc_parity (page : Words) (bit : Nat) :
    bitAt (withEcc page) (PAGE_BITS + bit) = bitAt (calEcc page) bit := by
  have word : (PAGE_BITS + bit) / 32 = PAGE_SIZE / 4 + bit / 32 := by
    simp only [PAGE_BITS, PAGE_SIZE]; omega
  have within : (PAGE_BITS + bit) % 32 = bit % 32 := by
    simp only [PAGE_BITS, PAGE_SIZE]; omega
  rw [bitAt, word, within, withEcc, if_neg (by omega), Nat.add_sub_cancel_left, bitAt]

theorem col_flips (col position : Nat) (below : col < MATRIX_NUM) :
    ((xorSum MATRIX_NUM fun row => decide (MATRIX_NUM * row + col = position)) ^^
      decide (PAGE_BITS + col = position)) = decide (col = colOf position) := by
  by_cases inCol : position % MATRIX_NUM = col ∧ position < PAGE_BITS
  · have same : ∀ row < MATRIX_NUM, decide (MATRIX_NUM * row + col = position) =
        decide (row = position / MATRIX_NUM) := by
      intro row _
      apply decide_eq_decide.mpr
      simp only [MATRIX_NUM] at *
      omega
    rw [xorSum_congr same, xorSum_single]
    have near : position < PAGE_BITS + MATRIX_NUM := by omega
    have rowBelow : position / MATRIX_NUM < MATRIX_NUM := by
      simp only [MATRIX_NUM, PAGE_BITS, PAGE_SIZE] at *; omega
    have notParity : PAGE_BITS + col ≠ position := by omega
    rw [colOf, if_pos near, decide_eq_true rowBelow, decide_eq_false notParity, Bool.xor_false,
      inCol.1, decide_eq_true rfl]
  · have clear : ∀ row < MATRIX_NUM, decide (MATRIX_NUM * row + col = position) = false := by
      intro row rowBelow
      apply decide_eq_false
      simp only [MATRIX_NUM, PAGE_BITS, PAGE_SIZE] at *
      omega
    rw [xorSum_congr clear, xorSum_false, Bool.false_xor]
    apply decide_eq_decide.mpr
    by_cases near : position < PAGE_BITS + MATRIX_NUM
    · rw [colOf, if_pos near]
      simp only [MATRIX_NUM, PAGE_BITS, PAGE_SIZE] at *
      omega
    · rw [colOf, if_neg near]
      simp only [MATRIX_NUM, PAGE_BITS, PAGE_SIZE] at *
      omega

theorem row_flips (row position : Nat) (below : row < MATRIX_NUM) :
    ((xorSum MATRIX_NUM fun col => decide (MATRIX_NUM * row + col = position)) ^^
      decide (PAGE_BITS + (MATRIX_NUM + row) = position)) = decide (row = rowOf position) := by
  by_cases inRow : position / MATRIX_NUM = row
  · have same : ∀ col < MATRIX_NUM, decide (MATRIX_NUM * row + col = position) =
        decide (col = position % MATRIX_NUM) := by
      intro col _
      apply decide_eq_decide.mpr
      simp only [MATRIX_NUM] at *
      omega
    rw [xorSum_congr same, xorSum_single]
    have inData : position < PAGE_BITS := by
      simp only [MATRIX_NUM, PAGE_BITS, PAGE_SIZE] at *; omega
    have colBelow : position % MATRIX_NUM < MATRIX_NUM := Nat.mod_lt _ (by decide)
    have notParity : PAGE_BITS + (MATRIX_NUM + row) ≠ position := by omega
    rw [rowOf, if_pos inData, decide_eq_true colBelow, decide_eq_false notParity, Bool.xor_false,
      inRow, decide_eq_true rfl]
  · have clear : ∀ col < MATRIX_NUM, decide (MATRIX_NUM * row + col = position) = false := by
      intro col colBelow
      apply decide_eq_false
      simp only [MATRIX_NUM] at *
      omega
    rw [xorSum_congr clear, xorSum_false, Bool.false_xor]
    apply decide_eq_decide.mpr
    by_cases inData : position < PAGE_BITS
    · rw [rowOf, if_pos inData]
      simp only [MATRIX_NUM, PAGE_BITS, PAGE_SIZE] at *
      omega
    · by_cases inCols : position < PAGE_BITS + MATRIX_NUM
      · rw [rowOf, if_neg inData, if_pos inCols]
        simp only [MATRIX_NUM, PAGE_BITS, PAGE_SIZE] at *
        omega
      · rw [rowOf, if_neg inData, if_neg inCols]
        simp only [MATRIX_NUM, PAGE_BITS, PAGE_SIZE] at *
        omega

private theorem xor_cancel : ∀ parity first second firstBit secondBit : Bool,
    ((parity ^^ (first ^^ second)) ^^ (parity ^^ (firstBit ^^ secondBit))) =
      ((first ^^ firstBit) ^^ (second ^^ secondBit)) := by
  decide

/-- The column syndrome of a damaged page is raised at the columns of its two
flipped bits. -/
theorem DamagedAt.colEccBuf {page datain : Words} {first second : Nat}
    (damaged : DamagedAt page datain first second) (col : Nat) (below : col < MATRIX_NUM) :
    bitAt (colEccBuf datain) col =
      (decide (col = colOf first) ^^ decide (col = colOf second)) := by
  have syndrome : bitAt (Flash.colEccBuf datain) col =
      (bitAt (calEcc datain) col ^^ bitAt datain (PAGE_BITS + col)) := by
    have word : (PAGE_BITS + col) / 32 = PAGE_SIZE / 4 + col / 32 := by
      simp only [PAGE_BITS, PAGE_SIZE]; omega
    have within : (PAGE_BITS + col) % 32 = col % 32 := by
      simp only [PAGE_BITS, PAGE_SIZE]; omega
    rw [bitAt, bitAt, bitAt, word, within, Flash.colEccBuf, BitVec.getLsbD_xor]
  have parity : colParity datain col = (colParity page col ^^
      ((xorSum MATRIX_NUM fun row => decide (MATRIX_NUM * row + col = first)) ^^
        xorSum MATRIX_NUM fun row => decide (MATRIX_NUM * row + col = second))) := by
    rw [colParity, colParity, ← xorSum_xor, ← xorSum_xor]
    apply xorSum_congr
    intro row rowBelow
    have inData : MATRIX_NUM * row + col < PAGE_BITS := by
      simp only [MATRIX_NUM, PAGE_BITS, PAGE_SIZE] at *; omega
    rw [damaged.bits _ (by simp only [ECC_BITS]; omega), bitAt_withEcc_data _ _ inData]
  rw [syndrome, calEcc_col _ _ below, parity,
    damaged.bits _ (by simp only [ECC_BITS, MATRIX_NUM] at *; omega), bitAt_withEcc_parity,
    calEcc_col _ _ below, ← col_flips col first below, ← col_flips col second below]
  exact xor_cancel _ _ _ _ _

/-- The row syndrome of a damaged page is raised at the rows of its two flipped
bits. -/
theorem DamagedAt.rowEccBuf {page datain : Words} {first second : Nat}
    (damaged : DamagedAt page datain first second) (row : Nat) (below : row < MATRIX_NUM) :
    bitAt (rowEccBuf datain) row =
      (decide (row = rowOf first) ^^ decide (row = rowOf second)) := by
  have syndrome : bitAt (Flash.rowEccBuf datain) row =
      (bitAt (calEcc datain) (MATRIX_NUM + row) ^^ bitAt datain (PAGE_BITS + (MATRIX_NUM + row))) := by
    have word : (PAGE_BITS + (MATRIX_NUM + row)) / 32 = (PAGE_SIZE + 16) / 4 + row / 32 := by
      simp only [PAGE_BITS, PAGE_SIZE, MATRIX_NUM]; omega
    have within : (PAGE_BITS + (MATRIX_NUM + row)) % 32 = row % 32 := by
      simp only [PAGE_BITS, PAGE_SIZE, MATRIX_NUM]; omega
    have parityWord : (MATRIX_NUM + row) / 32 = MATRIX_NUM / 32 + row / 32 := by
      simp only [MATRIX_NUM]; omega
    have parityBit : (MATRIX_NUM + row) % 32 = row % 32 := by simp only [MATRIX_NUM]; omega
    rw [bitAt, bitAt, bitAt, word, within, parityWord, parityBit, Flash.rowEccBuf,
      BitVec.getLsbD_xor]
  have parity : rowParity datain row = (rowParity page row ^^
      ((xorSum MATRIX_NUM fun col => decide (MATRIX_NUM * row + col = first)) ^^
        xorSum MATRIX_NUM fun col => decide (MATRIX_NUM * row + col = second))) := by
    rw [rowParity, rowParity, ← xorSum_xor, ← xorSum_xor]
    apply xorSum_congr
    intro col colBelow
    have inData : MATRIX_NUM * row + col < PAGE_BITS := by
      simp only [MATRIX_NUM, PAGE_BITS, PAGE_SIZE] at *; omega
    rw [damaged.bits _ (by simp only [ECC_BITS]; omega), bitAt_withEcc_data _ _ inData]
  rw [syndrome, calEcc_row _ _ below, parity,
    damaged.bits _ (by simp only [ECC_BITS, MATRIX_NUM] at *; omega), bitAt_withEcc_parity,
    calEcc_row _ _ below, ← row_flips row first below, ← row_flips row second below]
  exact xor_cancel _ _ _ _ _

theorem raisedAt_of_ne {syndrome : Words} {one other : Nat} (order : one < other)
    (bits : ∀ bit < MATRIX_NUM, bitAt syndrome bit =
      (decide (bit = one) ^^ decide (bit = other))) : RaisedAt syndrome one other := by
  intro bit below
  rw [bits bit below]
  by_cases here : bit = one
  · simp [here, order.ne]
  · simp [here]

theorem raisedAt_of_eq {syndrome : Words} {place : Nat}
    (bits : ∀ bit < MATRIX_NUM, bitAt syndrome bit =
      (decide (bit = place) ^^ decide (bit = place))) :
    RaisedAt syndrome MATRIX_NUM (MATRIX_NUM + 1) := by
  intro bit below
  rw [bits bit below, Bool.xor_self]
  exact (decide_eq_false (by omega)).symm

theorem eccTried_of_raised {datain : Words} {col col' row row' : Nat}
    (cols : RaisedAt (colEccBuf datain) col col') (colOrder : col < col')
    (rows : RaisedAt (rowEccBuf datain) row row') (rowOrder : row < row') :
    eccTried datain = eccCandidates datain (raisedNum col col') (raisedNum row row')
      (bitmapOf col MATRIX_NUM, bitmapOf col' MATRIX_NUM)
      (bitmapOf row MATRIX_NUM, bitmapOf row' MATRIX_NUM) := by
  have few : ∀ first second, ¬ 2 < raisedNum first second := by
    intro first second
    unfold raisedNum
    split_ifs <;> omega
  simp only [eccTried, cols.errNum colOrder, rows.errNum rowOrder, cols.bitmaps colOrder,
    rows.bitmaps rowOrder]
  rw [if_neg (few col col'), if_neg (few row row')]

theorem DamagedAt.restore_one {page datain : Words} {first second : Nat}
    (damaged : DamagedAt page datain first second) (parity : PAGE_BITS ≤ second) :
    SamePage (flipBit datain (first / MATRIX_NUM : Nat) (first % MATRIX_NUM : Nat)) page := by
  intro bit below
  have notSecond : bit ≠ second := by omega
  rw [bitAt_flipBit, Nat.div_add_mod,
    damaged.bits bit (by simp only [ECC_BITS]; omega), bitAt_withEcc_data _ _ below]
  simp [notSecond]

theorem DamagedAt.restore_two {page datain : Words} {first second row col row' col' : Nat}
    (damaged : DamagedAt page datain first second)
    (places : MATRIX_NUM * row + col = first ∧ MATRIX_NUM * row' + col' = second ∨
      MATRIX_NUM * row + col = second ∧ MATRIX_NUM * row' + col' = first) :
    SamePage (flipBit (flipBit datain row col) row' col') page := by
  intro bit below
  rw [bitAt_flipBit, bitAt_flipBit, damaged.bits bit (by simp only [ECC_BITS]; omega),
    bitAt_withEcc_data _ _ below]
  rcases places with ⟨one, other⟩ | ⟨one, other⟩
  · rw [one, other]
    cases bitAt page bit <;> cases decide (bit = first) <;> cases decide (bit = second) <;> rfl
  · rw [one, other]
    cases bitAt page bit <;> cases decide (bit = first) <;> cases decide (bit = second) <;> rfl

/-- One data bit flipped, and at most one parity bit of a row: the page written is
tried. -/
theorem DamagedAt.tried_rowParity {page datain : Words} {first second : Nat}
    (damaged : DamagedAt page datain first second) (inData : first < PAGE_BITS)
    (parity : PAGE_BITS + MATRIX_NUM ≤ second) :
    ∃ tried ∈ (eccTried datain).1, SamePage tried page := by
  refine ⟨_, ?_, damaged.restore_one (by omega)⟩
  have colFirst : colOf first = first % MATRIX_NUM := if_pos (by omega)
  have colSecond : colOf second = MATRIX_NUM := if_neg (by omega)
  have rowFirst : rowOf first = first / MATRIX_NUM := if_pos inData
  have colBelow : first % MATRIX_NUM < MATRIX_NUM := Nat.mod_lt _ (by decide)
  have rowBelow : first / MATRIX_NUM < MATRIX_NUM := by
    simp only [MATRIX_NUM, PAGE_BITS, PAGE_SIZE] at *; omega
  have cols := damaged.colEccBuf
  have rows := damaged.rowEccBuf
  rw [colFirst, colSecond] at cols
  rw [rowFirst] at rows
  have oneCol : raisedNum (first % MATRIX_NUM) MATRIX_NUM = 1 := by
    simp [raisedNum, colBelow]
  rcases Nat.lt_trichotomy (first / MATRIX_NUM) (rowOf second) with order | same | order
  · rw [eccTried_of_raised (raisedAt_of_ne colBelow cols) colBelow (raisedAt_of_ne order rows) order,
      oneCol]
    by_cases missing : rowOf second < MATRIX_NUM
    · simp [eccCandidates, raisedNum, rowBelow, missing, bitmapOf, colBelow]
    · simp [eccCandidates, raisedNum, rowBelow, missing, bitmapOf, colBelow]
  · rw [← same] at rows
    rw [eccTried_of_raised (raisedAt_of_ne colBelow cols) colBelow (raisedAt_of_eq rows)
      (Nat.lt_succ_self _), oneCol]
    simp only [eccCandidates, raisedNum, bitmapOf, colBelow]
    exact List.mem_map.mpr ⟨first / MATRIX_NUM, List.mem_range.mpr rowBelow, rfl⟩
  · have secondBelow : rowOf second < MATRIX_NUM := by omega
    have swapped := fun bit below => (rows bit below).trans (Bool.xor_comm _ _)
    rw [eccTried_of_raised (raisedAt_of_ne colBelow cols) colBelow (raisedAt_of_ne order swapped)
      order, oneCol]
    simp [eccCandidates, raisedNum, rowBelow, secondBelow, bitmapOf, colBelow]

/-- One data bit flipped, and one parity bit of a column: the page written is
tried. -/
theorem DamagedAt.tried_colParity {page datain : Words} {first second : Nat}
    (damaged : DamagedAt page datain first second) (inData : first < PAGE_BITS)
    (parity : PAGE_BITS ≤ second) (inCols : second < PAGE_BITS + MATRIX_NUM) :
    ∃ tried ∈ (eccTried datain).1, SamePage tried page := by
  refine ⟨_, ?_, damaged.restore_one parity⟩
  have colFirst : colOf first = first % MATRIX_NUM := if_pos (by omega)
  have rowFirst : rowOf first = first / MATRIX_NUM := if_pos inData
  have rowSecond : rowOf second = MATRIX_NUM := by
    rw [rowOf, if_neg (by omega), if_pos inCols]
  have colBelow : first % MATRIX_NUM < MATRIX_NUM := Nat.mod_lt _ (by decide)
  have rowBelow : first / MATRIX_NUM < MATRIX_NUM := by
    simp only [MATRIX_NUM, PAGE_BITS, PAGE_SIZE] at *; omega
  have secondBelow : colOf second < MATRIX_NUM := by
    rw [colOf, if_pos inCols]; exact Nat.mod_lt _ (by decide)
  have cols := damaged.colEccBuf
  have rows := damaged.rowEccBuf
  rw [colFirst] at cols
  rw [rowFirst, rowSecond] at rows
  have oneRow : raisedNum (first / MATRIX_NUM) MATRIX_NUM = 1 := by
    simp [raisedNum, rowBelow]
  rcases Nat.lt_trichotomy (first % MATRIX_NUM) (colOf second) with order | same | order
  · rw [eccTried_of_raised (raisedAt_of_ne order cols) order (raisedAt_of_ne rowBelow rows) rowBelow,
      oneRow]
    simp [eccCandidates, raisedNum, rowBelow, secondBelow, bitmapOf, colBelow]
  · rw [← same] at cols
    rw [eccTried_of_raised (raisedAt_of_eq cols) (Nat.lt_succ_self _) (raisedAt_of_ne rowBelow rows)
      rowBelow, oneRow]
    simp only [eccCandidates, raisedNum, bitmapOf, rowBelow]
    exact List.mem_map.mpr ⟨first % MATRIX_NUM, List.mem_range.mpr colBelow, rfl⟩
  · have swapped := fun bit below => (cols bit below).trans (Bool.xor_comm _ _)
    rw [eccTried_of_raised (raisedAt_of_ne order swapped) order (raisedAt_of_ne rowBelow rows)
      rowBelow, oneRow]
    simp [eccCandidates, raisedNum, rowBelow, secondBelow, bitmapOf, colBelow]

theorem DamagedAt.tried_data {page datain : Words} {first second : Nat}
    (damaged : DamagedAt page datain first second) (inData : second < PAGE_BITS) :
    ∃ tried ∈ (eccTried datain).1, SamePage tried page := by
  have order := damaged.order
  have colFirst : colOf first = first % MATRIX_NUM := if_pos (by omega)
  have colSecond : colOf second = second % MATRIX_NUM := if_pos (by omega)
  have rowFirst : rowOf first = first / MATRIX_NUM := if_pos (by omega)
  have rowSecond : rowOf second = second / MATRIX_NUM := if_pos inData
  have firstPlace := Nat.div_add_mod first MATRIX_NUM
  have secondPlace := Nat.div_add_mod second MATRIX_NUM
  have colBelow : first % MATRIX_NUM < MATRIX_NUM := Nat.mod_lt _ (by decide)
  have colBelow' : second % MATRIX_NUM < MATRIX_NUM := Nat.mod_lt _ (by decide)
  have rowBelow : first / MATRIX_NUM < MATRIX_NUM := by
    simp only [MATRIX_NUM, PAGE_BITS, PAGE_SIZE] at *; omega
  have rowBelow' : second / MATRIX_NUM < MATRIX_NUM := by
    simp only [MATRIX_NUM, PAGE_BITS, PAGE_SIZE] at *; omega
  have rowOrder : first / MATRIX_NUM ≤ second / MATRIX_NUM := Nat.div_le_div_right order.le
  have cols := damaged.colEccBuf
  have rows := damaged.rowEccBuf
  rw [colFirst, colSecond] at cols
  rw [rowFirst, rowSecond] at rows
  have swapped := fun bit below => (cols bit below).trans (Bool.xor_comm _ _)
  rcases rowOrder.lt_or_eq with rowOrder | sameRow
  · rcases Nat.lt_trichotomy (first % MATRIX_NUM) (second % MATRIX_NUM) with
      colOrder | sameCol | colOrder
    · refine ⟨_, ?_, damaged.restore_two (.inl ⟨firstPlace, secondPlace⟩)⟩
      rw [eccTried_of_raised (raisedAt_of_ne colOrder cols) colOrder (raisedAt_of_ne rowOrder rows)
        rowOrder]
      simp [eccCandidates, raisedNum, rowBelow, rowBelow', bitmapOf, colBelow, colBelow']
    · refine ⟨_, ?_, damaged.restore_two (.inl ⟨firstPlace, secondPlace⟩)⟩
      rw [← sameCol] at cols
      rw [eccTried_of_raised (raisedAt_of_eq cols) (Nat.lt_succ_self _)
        (raisedAt_of_ne rowOrder rows) rowOrder]
      simp only [eccCandidates, raisedNum, bitmapOf, rowBelow, rowBelow', ← sameCol]
      exact List.mem_map.mpr ⟨first % MATRIX_NUM, List.mem_range.mpr colBelow, rfl⟩
    · refine ⟨_, ?_, damaged.restore_two (.inl ⟨firstPlace, secondPlace⟩)⟩
      rw [eccTried_of_raised (raisedAt_of_ne colOrder swapped) colOrder
        (raisedAt_of_ne rowOrder rows) rowOrder]
      simp [eccCandidates, raisedNum, rowBelow, rowBelow', bitmapOf, colBelow, colBelow']
  · have colOrder : first % MATRIX_NUM < second % MATRIX_NUM := by
      rw [← sameRow] at secondPlace; omega
    refine ⟨_, ?_, damaged.restore_two (.inl ⟨firstPlace, secondPlace⟩)⟩
    rw [← sameRow] at rows
    rw [eccTried_of_raised (raisedAt_of_ne colOrder cols) colOrder (raisedAt_of_eq rows)
      (Nat.lt_succ_self _)]
    simp only [eccCandidates, raisedNum, bitmapOf, colBelow, colBelow', ← sameRow]
    exact List.mem_map.mpr ⟨first / MATRIX_NUM, List.mem_range.mpr rowBelow, rfl⟩

theorem Damaged.tried {page datain : Words} {flipped : Finset Nat}
    (damaged : Damaged page datain flipped) :
    ∃ tried ∈ datain :: (eccTried datain).1, SamePage tried page := by
  obtain ⟨first, second, at_⟩ := damaged.positions
  have order := at_.order
  by_cases inData : first < PAGE_BITS
  · have found : ∃ tried ∈ (eccTried datain).1, SamePage tried page := by
      by_cases both : second < PAGE_BITS
      · exact at_.tried_data both
      · by_cases inCols : second < PAGE_BITS + MATRIX_NUM
        · exact at_.tried_colParity inData (by omega) inCols
        · exact at_.tried_rowParity inData (by omega)
    obtain ⟨tried, member, same⟩ := found
    exact ⟨tried, List.mem_cons_of_mem _ member, same⟩
  · refine ⟨datain, List.mem_cons_self, fun bit below => ?_⟩
    have notFirst : bit ≠ first := by omega
    have notSecond : bit ≠ second := by omega
    rw [at_.bits bit (by simp only [ECC_BITS]; omega), bitAt_withEcc_data _ _ below]
    simp [notFirst, notSecond]

theorem eccCorrect_pos {sha1 : List Byte → List Byte} {page datain : Words} {flipped : Finset Nat}
    (damaged : Damaged page datain flipped) (intact : HashIntact sha1 page datain)
    (noCollision : NoCollision sha1 page datain) (misread : ¬ SamePage datain page) :
    0 < (eccCorrect sha1 datain).1 := by
  have stored := intact.storedHash_eq
  obtain ⟨tried, member, same⟩ := damaged.tried
  have inTail : tried ∈ (eccTried datain).1 := by
    obtain rfl | inTail := List.mem_cons.mp member
    · exact absurd same misread
    · exact inTail
  unfold eccCorrect
  simp only [beq_iff_eq, stored]
  rw [if_neg fun clean => misread (noCollision datain List.mem_cons_self clean)]
  cases found : (eccTried datain).1.find? fun tried =>
      (sha1 (pageBytes tried)).take HASH_SIZE == (sha1 (pageBytes page)).take HASH_SIZE with
  | none =>
    have absent := List.find?_eq_none.mp found tried inTail
    rw [same.pageBytes_eq, beq_self_eq_true] at absent
    exact absurd rfl absent
  | some out => exact eccTried_pos inTail

/-- **The correction is exact.** A page read back with at most two flipped bits of
data and parity and both hash copies intact is delivered as it was written,
unless another page tried has the stored hash. -/
theorem eccCorrect_exact (sha1 : List Byte → List Byte) (page datain : Words)
    (flipped : Finset Nat) (damaged : Damaged page datain flipped)
    (intact : HashIntact sha1 page datain) (noCollision : NoCollision sha1 page datain) :
    0 ≤ (eccCorrect sha1 datain).1 ∧ ∃ out, (eccCorrect sha1 datain).2 = some out ∧
      ∀ i < PAGE_SIZE / 4, out i = page i := by
  obtain ⟨tried, member, same⟩ := damaged.tried
  obtain ⟨nonneg, out, delivered, samePage⟩ :=
    eccCorrect_of_tried intact noCollision member same
  exact ⟨nonneg, out, delivered, samePage.words_eq⟩

/-- The SHA-1 of a page of zeros, and of the page that differs in its first bit. -/
def sha1OfZeros (data : List Byte) : List Byte :=
  if data = List.replicate PAGE_SIZE 0 then
    [0x60, 0x5d, 0xb3, 0xfd, 0xba, 0xff, 0x4b, 0xa1, 0x37, 0x29,
      0x37, 0x1a, 0xd0, 0xc4, 0xfb, 0xab, 0x38, 0x89, 0x37, 0x8e]
  else
    [0x6d, 0xb3, 0x66, 0x2d, 0x42, 0x0e, 0x8a, 0x09, 0x49, 0x97,
      0xbd, 0xbb, 0x09, 0xae, 0x9f, 0x36, 0xe5, 0x7c, 0x25, 0x49]

/-- A page of zeros with its parity and hashes, read with its first bit flipped. -/
def zerosMisread : Words := fun i =>
  if i = 0 then 1
  else if i < (PAGE_SIZE + 32) / 4 then 0
  else ([0xfdb35d60, 0xa14bffba, 0x1a372937, 0xfdb35d60, 0xa14bffba, 0x1a372937] :
    List Word).getD (i - (PAGE_SIZE + 32) / 4) 0

theorem pageBytes_zeros : pageBytes (fun _ => 0) = List.replicate PAGE_SIZE 0 := by
  rw [pageBytes, List.eq_replicate_iff]
  refine ⟨by simp, fun byte member => ?_⟩
  obtain ⟨offset, -, rfl⟩ := List.mem_map.mp member
  simp [byteAt]

theorem withEcc_zeros (bit : Nat) (below : bit < ECC_BITS) :
    bitAt (withEcc fun _ => 0) bit = false := by
  by_cases inData : bit < PAGE_BITS
  · rw [bitAt_withEcc_data _ _ inData]
    simp [bitAt]
  · obtain ⟨parity, rfl⟩ := Nat.exists_eq_add_of_le (not_lt.mp inData)
    rw [bitAt_withEcc_parity]
    by_cases inCols : parity < MATRIX_NUM
    · rw [calEcc_col _ _ inCols, colParity]
      simp [bitAt, xorSum_false]
    · obtain ⟨row, rfl⟩ := Nat.exists_eq_add_of_le (not_lt.mp inCols)
      rw [calEcc_row _ _ (by simp only [ECC_BITS] at below; omega), rowParity]
      simp [bitAt, xorSum_false]

/-- A page of zeros read with its first bit flipped is corrected. -/
theorem eccCorrect_exact_zerosMisread :
    0 ≤ (eccCorrect sha1OfZeros zerosMisread).1 ∧
      ∃ out, (eccCorrect sha1OfZeros zerosMisread).2 = some out ∧
        ∀ i < PAGE_SIZE / 4, out i = 0 := by
  have hashed : sha1OfZeros (pageBytes fun _ => 0) =
      [0x60, 0x5d, 0xb3, 0xfd, 0xba, 0xff, 0x4b, 0xa1, 0x37, 0x29,
        0x37, 0x1a, 0xd0, 0xc4, 0xfb, 0xab, 0x38, 0x89, 0x37, 0x8e] := by
    rw [sha1OfZeros, if_pos pageBytes_zeros]
  refine eccCorrect_exact sha1OfZeros (fun _ => 0) zerosMisread {0} ⟨by simp, ?_⟩ ?_ ?_
  · intro bit below
    rw [withEcc_zeros bit below, Bool.false_xor]
    have inSpare : bit / 32 < (PAGE_SIZE + 32) / 4 := by
      simp only [ECC_BITS, PAGE_BITS, MATRIX_NUM, PAGE_SIZE] at *; omega
    by_cases inWord : bit / 32 = 0
    · have place : bit % 32 = bit := by omega
      rw [bitAt, zerosMisread, if_pos inWord, place]
      simp
    · have away : bit ≠ 0 := by omega
      rw [bitAt, zerosMisread, if_neg inWord, if_pos inSpare]
      simp [away]
  · intro i below
    rw [hashed]
    simp only [HASH_SIZE] at below
    interval_cases i <;> exact ⟨rfl, rfl⟩
  · intro tried _ collides bit below
    have zeros : pageBytes tried = List.replicate PAGE_SIZE 0 := by
      by_contra other
      rw [hashed, sha1OfZeros, if_neg other] at collides
      exact absurd collides (by decide)
    have byte : byteAt tried (bit / 8) = 0 := by
      have member : byteAt tried (bit / 8) ∈ pageBytes tried :=
        List.mem_map.mpr ⟨bit / 8, List.mem_range.mpr
          (by simp only [PAGE_BITS, PAGE_SIZE] at *; omega), rfl⟩
      rw [zeros] at member
      exact List.eq_of_mem_replicate member
    have raised := byteAt_getLsbD tried (bit / 8) (bit % 8) (Nat.mod_lt _ (by decide))
    rw [byte, Nat.div_add_mod'] at raised
    rw [← raised]
    simp [bitAt]

end PosFirmware.Flash
