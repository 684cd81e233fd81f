import PosFirmware.Flash.WornChip

/-! # Reading the monitor back

`ReadMonitor` takes the marked blocks in order for the pieces of the image. It returns every
range of an image that `WriteMonitor` has written exactly when the marked block of each number
holds the piece of that number, and this is so when the writer passes over no block that keeps
a mark (`writeMonitor_reads`).
-/

namespace PosFirmware.Flash

variable {δ : Type} {chip : Chip δ}

/-- Every range of the image is read. -/
def MonitorReads (chip : Chip δ) (state : δ) (image : Buffer) (len : Nat) : Prop :=
  ∀ (start dataLen : Nat) (data : Buffer), start < len → start + dataLen ≤ len →
    (readMonitor chip state (MONITOR_BASE_ADDR + start) data dataLen).1 = 0 ∧ ∀ j < dataLen,
      (readMonitor chip state (MONITOR_BASE_ADDR + start) data dataLen).2 j = image (start + j)

/-- The marked blocks, as `ReadMonitor` counts them. -/
def markedBlocks (chip : Chip δ) (state : δ) : List Nat :=
  monitorRange.filter (isMarked chip state)

/-- A piece of the image. -/
def pieceOf (image : Buffer) (k : Nat) : Buffer := fun i => image (k * MON_BLOCK_SIZE + i)

/-- The marked block of each number holds the piece of that number. -/
def PiecesInPlace (chip : Chip δ) (state : δ) (image : Buffer) (len : Nat) : Prop :=
  ∀ k, k * MON_BLOCK_SIZE < len → ∃ block, (markedBlocks chip state)[k]? = some block ∧
    HoldsPiece chip state block (pieceOf image k) (pieceLen (len - k * MON_BLOCK_SIZE))

/-- The blocks that the writer passes over are left without a mark. -/
def PassesUnmarked (chip : Chip δ) (image : Buffer) (blockNum : Nat) :
    (left : Nat) → δ → (cnt pos len : Nat) → Prop
  | 0, _, _, _, _ => True
  | left + 1, state, cnt, pos, len =>
      cnt < blockNum →
        let i := MONITOR_END_ADDR / BLOCK_SIZE - (left + 1)
        let block := writeBlock chip state i (fun i => image (pos + i)) (pieceLen len)
        if block.1 then
          PassesUnmarked chip image blockNum left block.2 (cnt + 1) (pos + pieceLen len)
            (len - pieceLen len)
        else
          isMarked chip block.2 i = false ∧
            PassesUnmarked chip image blockNum left block.2 cnt pos len

/-! ## The reader -/

theorem findBlock_spec (state : δ) (blocks : List Nat) (i : Nat) :
    match (blocks.filter (isMarked chip state))[i]? with
    | none => findBlock chip state blocks i = none
    | some block => ∃ rest, findBlock chip state blocks i = some (block, rest) ∧
        rest.filter (isMarked chip state) =
          (blocks.filter (isMarked chip state)).drop (i + 1) := by
  induction blocks generalizing i with
  | nil => rfl
  | cons block rest past =>
      unfold findBlock
      cases marked : isMarked chip state block with
      | false =>
          rw [List.filter_cons_of_neg (by rw [marked]; decide), if_neg (by decide)]
          exact past i
      | true =>
          rw [List.filter_cons_of_pos marked, if_pos rfl]
          cases i with
          | zero => exact ⟨rest, rfl, rfl⟩
          | succ i => exact past i

theorem readOn_ok {part : Int × Buffer} (rest : Buffer → Int × Buffer) (ok : part.1 = 0) :
    readOn part rest = rest part.2 := if_neg (not_not.mpr ok)

theorem withPart_fst (data : Buffer) (pos len : Nat) (part : Int × Buffer) :
    (withPart data pos len part).1 = part.1 := rfl

theorem withPart_snd (data : Buffer) (pos len : Nat) (part : Int × Buffer) (j : Nat) :
    (withPart data pos len part).2 j =
      if pos ≤ j ∧ j < pos + len then part.2 (0 + (j - pos)) else data j := rfl

/-- The second loop reads pieces from the marked blocks that hold them. -/
theorem readBlocks_spec (state : δ) (blocks : List Nat) (image : Buffer) (pos : Nat) (data : Buffer)
    {dataLen : Nat} (some' : 0 < dataLen)
    (holds : ∀ k, k * MON_BLOCK_SIZE < dataLen → ∃ block,
      (blocks.filter (isMarked chip state))[k]? = some block ∧
        HoldsPiece chip state block (pieceOf image k) (pieceLen (dataLen - k * MON_BLOCK_SIZE))) :
    (readBlocks chip state blocks pos data dataLen).1 = 0 ∧ ∀ j,
      (readBlocks chip state blocks pos data dataLen).2 j =
        if pos ≤ j ∧ j < pos + dataLen then image (j - pos) else data j := by
  induction blocks generalizing image pos data dataLen with
  | nil =>
      obtain ⟨block, found, -⟩ := holds 0 (by omega)
      cases found
  | cons block rest past =>
      unfold readBlocks
      cases marked : isMarked chip state block with
      | false =>
          rw [List.filter_cons_of_neg (by rw [marked]; decide)] at holds
          rw [if_neg (by decide)]
          exact past image pos data some' holds
      | true =>
          rw [List.filter_cons_of_pos marked] at holds
          rw [if_pos rfl]
          obtain ⟨found, is, first⟩ := holds 0 (by omega)
          obtain rfl := Option.some.inj is
          have piece : ∀ i, pieceOf image 0 i = image i := fun i => by
            rw [pieceOf, Nat.zero_mul, Nat.zero_add]
          split_ifs with more
          · have whole : pieceLen (dataLen - 0 * MON_BLOCK_SIZE) = MON_BLOCK_SIZE := by
              rw [Nat.zero_mul, Nat.sub_zero, pieceLen, if_pos more]
            rw [whole] at first
            obtain ⟨ok, bytes⟩ := first 0 MON_BLOCK_SIZE (fun i => data (pos + i)) (by decide)
              (by rw [Nat.zero_add])
            rw [Nat.add_zero] at ok bytes
            generalize monitorNandRead chip state (block * BLOCK_SIZE) (fun i => data (pos + i))
              MON_BLOCK_SIZE = part at ok bytes ⊢
            rw [readOn_ok _ ((withPart_fst ..).trans ok)]
            obtain ⟨ok', bytes'⟩ := past (fun i => image (MON_BLOCK_SIZE + i))
              (pos + MON_BLOCK_SIZE) (withPart data pos MON_BLOCK_SIZE part).2
              (Nat.sub_pos_of_lt more) fun k within => by
                obtain ⟨block', found', holds'⟩ := holds (k + 1) (by
                  rw [Nat.succ_mul]
                  omega)
                have left : dataLen - (k + 1) * MON_BLOCK_SIZE =
                    dataLen - MON_BLOCK_SIZE - k * MON_BLOCK_SIZE := by
                  rw [Nat.succ_mul]
                  omega
                have same : pieceOf image (k + 1) =
                    pieceOf (fun i => image (MON_BLOCK_SIZE + i)) k := funext fun i => by
                  unfold pieceOf
                  rw [Nat.succ_mul, Nat.add_comm (k * MON_BLOCK_SIZE), Nat.add_assoc]
                rw [← left, ← same]
                exact ⟨block', found', holds'⟩
            refine ⟨ok', fun j => ?_⟩
            rw [bytes' j, withPart_snd]
            split_ifs with later whole' here here'
            · exact congrArg image (by omega)
            · omega
            · rw [Nat.zero_add, bytes _ (by omega), piece, Nat.zero_add]
            · omega
            · omega
            · rfl
          · have short : pieceLen (dataLen - 0 * MON_BLOCK_SIZE) = dataLen := by
              rw [Nat.zero_mul, Nat.sub_zero, pieceLen, if_neg more]
            rw [short] at first
            obtain ⟨ok, bytes⟩ := first 0 dataLen (fun i => data (pos + i)) some'
              (by rw [Nat.zero_add])
            rw [Nat.add_zero] at ok bytes
            generalize monitorNandRead chip state (block * BLOCK_SIZE) (fun i => data (pos + i))
              dataLen = part at ok bytes ⊢
            rw [withPart_fst]
            refine ⟨ok, fun j => ?_⟩
            rw [withPart_snd]
            split_ifs with here
            · rw [Nat.zero_add, bytes _ (by omega), piece, Nat.zero_add]
            · rfl

theorem readMonitor_eq (state : δ) (start dataLen : Nat) (data : Buffer) :
    readMonitor chip state (MONITOR_BASE_ADDR + start) data dataLen =
      readFrom chip state (start % MON_BLOCK_SIZE) data dataLen
        (findBlock chip state monitorRange (start / MON_BLOCK_SIZE)) := by
  unfold readMonitor
  rw [Nat.add_sub_cancel_left]

theorem blockOff_div {k off : Nat} (inside : off < MON_BLOCK_SIZE) :
    (k * MON_BLOCK_SIZE + off) / MON_BLOCK_SIZE = k ∧
      (k * MON_BLOCK_SIZE + off) % MON_BLOCK_SIZE = off := by
  have pos : 0 < MON_BLOCK_SIZE := by decide
  rw [Nat.add_comm, Nat.add_mul_div_right _ _ pos, Nat.div_eq_of_lt inside, Nat.zero_add,
    Nat.add_mul_mod_self_right, Nat.mod_eq_of_lt inside]
  exact ⟨rfl, rfl⟩

theorem pieceLen_eq (len : Nat) : pieceLen len = min MON_BLOCK_SIZE len := by
  unfold pieceLen
  split_ifs <;> omega

theorem pieceLen_mono {len len' : Nat} (shorter : len ≤ len') : pieceLen len ≤ pieceLen len' := by
  rw [pieceLen_eq, pieceLen_eq]
  exact min_le_min_left _ shorter

theorem HoldsPiece.start {state : δ} {block len2 len2' : Nat} {piece : Buffer}
    (holds : HoldsPiece chip state block piece len2) (shorter : len2' ≤ len2) :
    HoldsPiece chip state block piece len2' := fun off dataLen data begins ends =>
  holds off dataLen data (begins.trans_le shorter) (ends.trans shorter)

theorem PiecesInPlace.reads {state : δ} {image : Buffer} {len : Nat}
    (inPlace : PiecesInPlace chip state image len) : MonitorReads chip state image len := by
  intro start dataLen data begins ends
  have place := Nat.div_add_mod start MON_BLOCK_SIZE
  rw [Nat.mul_comm] at place
  have inBlock : start % MON_BLOCK_SIZE < MON_BLOCK_SIZE := Nat.mod_lt _ (by decide)
  rw [readMonitor_eq]
  generalize start / MON_BLOCK_SIZE = k at place ⊢
  generalize start % MON_BLOCK_SIZE = off at place inBlock ⊢
  obtain ⟨block, found, holds⟩ := inPlace k (by omega)
  have search := @findBlock_spec _ chip state monitorRange k
  unfold markedBlocks at found
  rw [found] at search
  obtain ⟨rest, search, behind⟩ := search
  rw [search, readFrom]
  rw [pieceLen_eq] at holds
  have byte : ∀ j, pieceOf image k (off + j) = image (start + j) := fun j => by
    rw [pieceOf, ← Nat.add_assoc, place]
  split_ifs with single
  · obtain ⟨ok, bytes⟩ := holds off dataLen data (by omega) (by omega)
    exact ⟨ok, fun j below => (bytes j below).trans (byte j)⟩
  · obtain ⟨ok, bytes⟩ := holds off (MON_BLOCK_SIZE - off) data (by omega) (by omega)
    generalize monitorNandRead chip state (block * BLOCK_SIZE + off) data (MON_BLOCK_SIZE - off) =
      first at ok bytes ⊢
    rw [readOn_ok _ ok]
    -- what is left begins with the next piece
    obtain ⟨ok', bytes'⟩ := @readBlocks_spec _ chip state rest
      (fun i => image (start + (MON_BLOCK_SIZE - off) + i)) (MON_BLOCK_SIZE - off) first.2
      (dataLen - (MON_BLOCK_SIZE - off)) (by omega) fun m within => by
        have next : (k + 1 + m) * MON_BLOCK_SIZE =
            k * MON_BLOCK_SIZE + MON_BLOCK_SIZE + m * MON_BLOCK_SIZE := by
          rw [Nat.add_mul, Nat.succ_mul]
        obtain ⟨block', found', holds'⟩ := inPlace (k + 1 + m) (by omega)
        have same : pieceOf image (k + 1 + m) =
            pieceOf (fun i => image (start + (MON_BLOCK_SIZE - off) + i)) m := funext fun i =>
          congrArg image (by omega)
        rw [same] at holds'
        rw [behind, List.getElem?_drop]
        exact ⟨block', found', holds'.start (pieceLen_mono (by omega))⟩
    refine ⟨ok', fun j below => ?_⟩
    rw [bytes' j]
    split_ifs with later
    · exact congrArg image (by omega)
    · rw [bytes j (by omega), byte]

theorem MonitorReads.inPlace {state : δ} {image : Buffer} {len : Nat}
    (reads : MonitorReads chip state image len) : PiecesInPlace chip state image len := by
  intro k begins
  have found : ∃ block rest, (markedBlocks chip state)[k]? = some block ∧
      findBlock chip state monitorRange k = some (block, rest) := by
    obtain ⟨ok, -⟩ := reads (k * MON_BLOCK_SIZE) 0 (fun _ => 0) begins (by omega)
    obtain ⟨number, -⟩ := @blockOff_div k 0 (by decide)
    rw [Nat.add_zero] at number
    rw [readMonitor_eq, number] at ok
    have search := @findBlock_spec _ chip state monitorRange k
    unfold markedBlocks
    cases found : (monitorRange.filter (isMarked chip state))[k]? with
    | none =>
        rw [found] at search
        rw [search] at ok
        cases ok
    | some block =>
        rw [found] at search
        obtain ⟨rest, search, -⟩ := search
        exact ⟨block, rest, rfl, search⟩
  obtain ⟨block, rest, marked, search⟩ := found
  refine ⟨block, marked, fun off dataLen data inside ends => ?_⟩
  rw [pieceLen_eq] at inside ends
  obtain ⟨number, place⟩ := @blockOff_div k off (by omega)
  have read := reads (k * MON_BLOCK_SIZE + off) dataLen data (by omega) (by omega)
  rw [readMonitor_eq, number, place, search, readFrom, if_pos (by omega)] at read
  refine ⟨read.1, fun j below => (read.2 j below).trans ?_⟩
  rw [pieceOf, Nat.add_assoc]

/-! ## The writer -/

theorem monitorBlocks_eq (len : Nat) : monitorBlocks len = (len + 129023) / 129024 := by
  unfold monitorBlocks
  split_ifs with whole
  all_goals
    simp only [MON_BLOCK_SIZE, BLOCK_SIZE, PAGE_SIZE] at *
    omega

theorem monitorBlocks_pred {len : Nat} (some' : 0 < monitorBlocks len) :
    monitorBlocks (len - pieceLen len) + 1 = monitorBlocks len := by
  rw [monitorBlocks_eq] at some'
  rw [monitorBlocks_eq, monitorBlocks_eq, pieceLen_eq]
  simp only [MON_BLOCK_SIZE, BLOCK_SIZE, PAGE_SIZE]
  omega

theorem monitorBlocks_pos {len : Nat} (some' : 0 < len) : 0 < monitorBlocks len := by
  rw [monitorBlocks_eq]
  omega

/-- The pieces from byte `pos` of the image on are in the first marked blocks of a range. -/
def Written (chip : Chip δ) (state : δ) (image : Buffer) (pos len : Nat) (blocks : List Nat) :
    Prop :=
  ∀ k, k * MON_BLOCK_SIZE < len → ∃ block, (blocks.filter (isMarked chip state))[k]? = some block ∧
    HoldsPiece chip state block (fun i => image (pos + k * MON_BLOCK_SIZE + i))
      (pieceLen (len - k * MON_BLOCK_SIZE))

theorem Written.empty {state : δ} {image : Buffer} {pos len : Nat} {blocks : List Nat}
    (none : monitorBlocks len = 0) : Written chip state image pos len blocks := fun k within => by
  have := monitorBlocks_pos (show 0 < len by omega)
  omega

theorem Written.cons {state : δ} {image : Buffer} {pos len block : Nat} {blocks : List Nat}
    (marked : isMarked chip state block = true)
    (holds : HoldsPiece chip state block (fun i => image (pos + i)) (pieceLen len))
    (rest : Written chip state image (pos + pieceLen len) (len - pieceLen len) blocks) :
    Written chip state image pos len (block :: blocks) := by
  intro k within
  rw [List.filter_cons_of_pos marked]
  cases k with
  | zero =>
      simp only [Nat.zero_mul, Nat.add_zero, Nat.sub_zero]
      exact ⟨block, rfl, holds⟩
  | succ k =>
      rw [Nat.succ_mul] at within
      have whole : pieceLen len = MON_BLOCK_SIZE := by
        rw [pieceLen_eq]
        omega
      rw [whole] at rest
      obtain ⟨block', found, holds'⟩ := rest k (by omega)
      have place : pos + (k + 1) * MON_BLOCK_SIZE = pos + MON_BLOCK_SIZE + k * MON_BLOCK_SIZE := by
        rw [Nat.succ_mul]
        omega
      have left : len - (k + 1) * MON_BLOCK_SIZE = len - MON_BLOCK_SIZE - k * MON_BLOCK_SIZE := by
        rw [Nat.succ_mul]
        omega
      rw [place, left]
      exact ⟨block', found, holds'⟩

theorem Written.skip {state : δ} {image : Buffer} {pos len block : Nat} {blocks : List Nat}
    (unmarked : isMarked chip state block = false)
    (rest : Written chip state image pos len blocks) :
    Written chip state image pos len (block :: blocks) := by
  intro k within
  rw [List.filter_cons_of_neg (by rw [unmarked]; decide)]
  exact rest k within

theorem writeBlocks_written (framed : chip.PageFramed) (image : Buffer) (blockNum left : Nat)
    (state : δ) (cnt pos len : Nat) (few : left ≤ MONITOR_END_ADDR / BLOCK_SIZE)
    (count : cnt + monitorBlocks len = blockNum)
    (ok : (writeBlocks chip image blockNum left state cnt pos len).1 = FTO_RET_OK)
    (passes : PassesUnmarked chip image blockNum left state cnt pos len) :
    Written chip (writeBlocks chip image blockNum left state cnt pos len).2 image pos len
        (List.range' (MONITOR_END_ADDR / BLOCK_SIZE - left) left) ∧
      ∀ other < MONITOR_END_ADDR / BLOCK_SIZE - left,
        SameBlock chip (writeBlocks chip image blockNum left state cnt pos len).2 state other := by
  induction left generalizing state cnt pos len with
  | zero =>
      unfold writeBlocks at ok ⊢
      split_ifs at ok ⊢ with more
      · cases ok
      · exact ⟨Written.empty (by omega), fun _ _ _ _ => rfl⟩
  | succ left past =>
      unfold writeBlocks at ok ⊢
      split_ifs at ok ⊢ with more
      · unfold PassesUnmarked at passes
        have passes := passes more
        dsimp only at ok passes ⊢
        have next : MONITOR_END_ADDR / BLOCK_SIZE - left =
            MONITOR_END_ADDR / BLOCK_SIZE - (left + 1) + 1 := by omega
        have short : pieceLen len ≤ MON_BLOCK_SIZE := by
          rw [pieceLen_eq]
          exact min_le_left _ _
        have others : ∀ other, other ≠ MONITOR_END_ADDR / BLOCK_SIZE - (left + 1) → _ := fun other =>
          writeBlock_other framed state (fun i => image (pos + i)) short
        have completes : (writeBlock chip state (MONITOR_END_ADDR / BLOCK_SIZE - (left + 1))
            (fun i => image (pos + i)) (pieceLen len)).1 = true → _ :=
          writeBlock_completes framed short
        have past := fun state cnt pos len => past state cnt pos len (Nat.le_of_succ_le few)
        rw [List.range'_succ]
        rw [next] at past
        generalize MONITOR_END_ADDR / BLOCK_SIZE - (left + 1) = i at *
        generalize writeBlock chip state i (fun i => image (pos + i)) (pieceLen len) = block at *
        have pieces : 0 < monitorBlocks len := by omega
        split_ifs at ok passes ⊢ with completed
        · obtain ⟨marked, holds⟩ := completes completed
          obtain ⟨rest, same⟩ := past block.2 (cnt + 1) (pos + pieceLen len) (len - pieceLen len)
            (by have := monitorBlocks_pred pieces; omega) ok passes
          refine ⟨Written.cons ?_ (holds.congr (same i (Nat.lt_succ_self i)).symm short) rest,
            fun other before => (same other (before.trans (Nat.lt_succ_self i))).trans
              (others other before.ne)⟩
          rw [isMarked_congr (same i (Nat.lt_succ_self i)), marked]
        · obtain ⟨unmarked, passes⟩ := passes
          obtain ⟨rest, same⟩ := past block.2 cnt pos len count ok passes
          refine ⟨Written.skip ?_ rest,
            fun other before => (same other (before.trans (Nat.lt_succ_self i))).trans
              (others other before.ne)⟩
          rw [isMarked_congr (same i (Nat.lt_succ_self i)), unmarked]
      · exact ⟨Written.empty (by omega), fun _ _ _ _ => rfl⟩

theorem wornChip_writes (image : Buffer) (blockNum left : Nat) (state : WornPages)
    (cnt pos len : Nat) (good : ∀ block, state.worn block = false) (few : left ≤ MONITOR_BLOCKS)
    (enough : blockNum ≤ cnt + left) :
    (writeBlocks wornChip image blockNum left state cnt pos len).1 = FTO_RET_OK ∧
      PassesUnmarked wornChip image blockNum left state cnt pos len := by
  induction left generalizing state cnt pos len with
  | zero =>
      unfold writeBlocks PassesUnmarked
      rw [if_neg (by omega)]
      exact ⟨rfl, trivial⟩
  | succ left past =>
      unfold writeBlocks PassesUnmarked
      split_ifs with more
      · have blocks : MONITOR_BLOCKS = 28 ∧ MONITOR_BASE_ADDR / BLOCK_SIZE = 4 ∧
            MONITOR_END_ADDR / BLOCK_SIZE = 32 := by decide
        have short : pieceLen len ≤ MON_BLOCK_SIZE := by
          rw [pieceLen_eq]
          exact min_le_left _ _
        obtain ⟨completed, worn⟩ := @wornChip_completes state
          (MONITOR_END_ADDR / BLOCK_SIZE - (left + 1)) (pieceLen len) (fun i => image (pos + i))
          (good _) (by omega) (by omega) short
        dsimp only
        generalize writeBlock wornChip state (MONITOR_END_ADDR / BLOCK_SIZE - (left + 1))
          (fun i => image (pos + i)) (pieceLen len) = block at *
        rw [if_pos completed, if_pos completed]
        obtain ⟨ok, passes⟩ := past block.2 (cnt + 1) (pos + pieceLen len) (len - pieceLen len)
          (fun other => by rw [worn]; exact good other) (by omega) (by omega)
        exact ⟨ok, fun _ => passes⟩
      · exact ⟨rfl, fun more' => absurd more' more⟩

-- a run over all blocks is not to be unfolded by the elaborator
attribute [irreducible] PassesUnmarked

/-- **Writing the monitor and reading it back.** After `WriteMonitor` has succeeded, on a chip
with any faults in its blocks, every range of the image is read if and only if the marked
block of each number holds the piece of that number. It is so when no block that the writer
passed over keeps a mark. -/
theorem writeMonitor_reads (framed : chip.PageFramed) (bootSecLevel : Nat)
    (securityLevel : Buffer → Nat → Nat) (state : δ) (image : Buffer) (len : Nat)
    (ok : (writeMonitor chip bootSecLevel securityLevel state image len).1 = FTO_RET_OK) :
    (MonitorReads chip (writeMonitor chip bootSecLevel securityLevel state image len).2 image len ↔
      PiecesInPlace chip (writeMonitor chip bootSecLevel securityLevel state image len).2 image
        len) ∧
    (PassesUnmarked chip image (monitorBlocks len) MONITOR_BLOCKS state 0 0 len →
      MonitorReads chip (writeMonitor chip bootSecLevel securityLevel state image len).2 image
        len) := by
  refine ⟨⟨MonitorReads.inPlace, PiecesInPlace.reads⟩, fun passes => PiecesInPlace.reads ?_⟩
  unfold writeMonitor at ok ⊢
  split_ifs at ok ⊢ with refused
  · cases ok
  · have few : MONITOR_BLOCKS ≤ MONITOR_END_ADDR / BLOCK_SIZE := Nat.sub_le _ _
    obtain ⟨written, -⟩ := writeBlocks_written framed image (monitorBlocks len) MONITOR_BLOCKS state
      0 0 len few (Nat.zero_add _) ok passes
    intro k within
    obtain ⟨block, found, holds⟩ := written k within
    refine ⟨block, ?_, ?_⟩
    · -- the blocks that the reader goes over begin with those of the writer
      have range : monitorRange = List.range' (MONITOR_END_ADDR / BLOCK_SIZE - MONITOR_BLOCKS)
          MONITOR_BLOCKS ++ List.range' (MONITOR_END_ADDR / BLOCK_SIZE)
            (DATA_START_NUM - MONITOR_END_ADDR / BLOCK_SIZE) := by decide
      rw [markedBlocks, range, List.filter_append,
        List.getElem?_append_left (List.getElem?_eq_some_iff.mp found).1]
      exact found
    · have same : (fun i => image (0 + k * MON_BLOCK_SIZE + i)) = pieceOf image k := funext fun i => by
        rw [pieceOf, Nat.zero_add]
      rwa [same] at holds

/-- An image of two pieces, written to a new flash. -/
theorem writeMonitor_reads_new :
    MonitorReads wornChip (writeMonitor wornChip 0 (fun _ _ => 0) ⟨blank, fun _ => false⟩
      (fun i => BitVec.ofNat 8 i) 200000).2 (fun i => BitVec.ofNat 8 i) 200000 := by
  have pieces : monitorBlocks 200000 ≤ 0 + MONITOR_BLOCKS := by
    rw [monitorBlocks_eq]
    decide
  obtain ⟨ok, passes⟩ := wornChip_writes (fun i => BitVec.ofNat 8 i) (monitorBlocks 200000)
    MONITOR_BLOCKS ⟨blank, fun _ => false⟩ 0 0 200000 (fun _ => rfl) le_rfl pieces
  refine (writeMonitor_reads wornChip_framed 0 (fun _ _ => 0) ⟨blank, fun _ => false⟩ _ _ ?_).2
    passes
  unfold writeMonitor
  rw [if_neg (fun refused => refused.1 rfl)]
  exact ok

theorem writeBlocks_done {image : Buffer} {blockNum cnt : Nat} (done : ¬ cnt < blockNum)
    (left : Nat) (state : δ) (pos len : Nat) :
    writeBlocks chip image blockNum left state cnt pos len = (FTO_RET_OK, state) := by
  cases left <;> exact if_neg done

theorem writeMonitor_short (state : δ) (image : Buffer) :
    writeMonitor chip 0 (fun _ _ => 0) state image 1 =
      writeBlocks chip image 1 28 state 0 0 1 := by
  have one : monitorBlocks 1 = 1 := by
    rw [monitorBlocks_eq]
  have blocks : MONITOR_BLOCKS = 28 := by decide
  unfold writeMonitor
  rw [if_neg (fun refused => refused.1 rfl), one, blocks]

theorem writeBlocks_round (image : Buffer) (left : Nat) {state next : δ} {i : Nat} {written : Bool}
    (here : MONITOR_END_ADDR / BLOCK_SIZE - (left + 1) = i)
    (block : writeBlock chip state i (fun i => image (0 + i)) 1 = (written, next)) :
    writeBlocks chip image 1 (left + 1) state 0 0 1 =
      if written then (FTO_RET_OK, next) else writeBlocks chip image 1 left next 0 0 1 := by
  have short : pieceLen 1 = 1 := by decide
  conv_lhs => unfold writeBlocks
  rw [if_pos Nat.one_pos]
  dsimp only
  rw [writeBlocks_done (by omega), short, here, block]

theorem HoldsPiece.filled {state : WornPages} {block : Nat} {piece : Buffer}
    (holds : HoldsPiece wornChip state block piece 1) (notIdle : piece 0 ≠ 0xFF)
    (first : MONITOR_BASE_ADDR / BLOCK_SIZE ≤ block) (last : block < MONITOR_END_ADDR / BLOCK_SIZE) :
    checkBadBlock wornChip state block ≠ 0 := by
  intro empty
  unfold checkBadBlock at empty
  split_ifs at empty with erased
  have one : numberOfSectors (block * BLOCK_SIZE + 0) 1 = 1 := by
    rw [numberOfSectors_eq]
    simp only [BLOCK_SIZE]
    omega
  have bytes := erased 0 (by decide)
  have addr : pageAddrOf (block * BLOCK_SIZE + 0 + 0) = (block * BLOCK_SIZE + 0 * PAGE_SIZE) * 2 ∧
      (block * BLOCK_SIZE + 0 + 0) % PAGE_SIZE = 0 ∧
      sectorAddr (block * BLOCK_SIZE + 0) 0 = (block * BLOCK_SIZE + 0 * PAGE_SIZE) * 2 := by
    simp only [pageAddrOf, sectorAddr, BLOCK_SIZE, PAGE_SIZE]
    omega
  have inside : ¬ outsideMonitor ((block * BLOCK_SIZE + 0 * PAGE_SIZE) * 2) := by
    unfold outsideMonitor
    simp only [MONITOR_BASE_ADDR, MONITOR_END_ADDR, BLOCK_SIZE] at *
    omega
  have read : monitorNandPhyPageRead wornChip state ((block * BLOCK_SIZE + 0 * PAGE_SIZE) * 2) =
      (0, wornChip.pageRd state ((block * BLOCK_SIZE + 0 * PAGE_SIZE) * 2)) := by
    unfold monitorNandPhyPageRead
    rw [if_neg inside]
    exact if_pos fun i below => bytes _ (by omega)
  have good : ∀ p < numberOfSectors (block * BLOCK_SIZE + 0) 1, (monitorNandPhyPageRead wornChip
      state (sectorAddr (block * BLOCK_SIZE + 0) p)).1 = 0 := fun p below => by
    obtain rfl : p = 0 := by omega
    rw [addr.2.2, read]
  obtain ⟨-, delivered⟩ := monitorNandRead_good (fun _ => 0) good
  have byte := delivered 0 Nat.one_pos
  rw [(holds 0 1 (fun _ => 0) Nat.one_pos le_rfl).2 0 Nat.one_pos, addr.1, addr.2.1, read] at byte
  exact notIdle (byte.trans (bytes 0 (by decide)))

/-- Where block 4 is worn and holds an image of one byte, another byte is written behind it,
and the old one is read. -/
theorem writeMonitor_behind {state : WornPages} {old new : Byte}
    (marked : isMarked wornChip state 4 = true)
    (holds : HoldsPiece wornChip state 4 (fun _ => old) 1) (worn : state.worn 4 = true)
    (good : state.worn 5 = false) (notIdle : old ≠ 0xFF) (differ : new ≠ old) :
    (writeMonitor wornChip 0 (fun _ _ => 0) state (fun _ => new) 1).1 = FTO_RET_OK ∧
      ¬ MonitorReads wornChip (writeMonitor wornChip 0 (fun _ _ => 0) state (fun _ => new) 1).2
        (fun _ => new) 1 := by
  have short : 1 ≤ MON_BLOCK_SIZE := by decide
  have passed := wornChip_passes (fun _ => new) 1 worn (by decide)
    (holds.filled notIdle (by decide) (by decide))
  have completed := (@wornChip_completes state 5 1 (fun _ => new) good (by decide) (by decide)
    short).1
  have other : SameBlock wornChip (writeBlock wornChip state 5 (fun _ => new) 1).2 state 4 :=
    writeBlock_other wornChip_framed state _ short (by decide)
  rcases block : writeBlock wornChip state 5 (fun _ => new) 1 with ⟨written, after⟩
  rw [block] at completed other
  dsimp only at completed other
  subst completed
  have run : writeMonitor wornChip 0 (fun _ _ => 0) state (fun _ => new) 1 =
      (FTO_RET_OK, after) := by
    rw [writeMonitor_short, writeBlocks_round (fun _ => new) 27 (by decide) passed,
      if_neg Bool.false_ne_true, writeBlocks_round (fun _ => new) 26 (by decide) block, if_pos rfl]
  rw [run]
  refine ⟨rfl, fun reads => ?_⟩
  obtain ⟨found, is, holds'⟩ := reads.inPlace 0 (by decide)
  have first : monitorRange = 4 :: List.range' 5 59 := by decide
  rw [markedBlocks, first, List.filter_cons_of_pos (by rw [isMarked_congr other, marked])] at is
  obtain rfl := Option.some.inj is
  have one : pieceLen (1 - 0 * MON_BLOCK_SIZE) = 1 := by decide
  rw [one] at holds'
  have byte := (holds.congr other.symm short 0 1 (fun _ => 0) Nat.one_pos le_rfl).2 0 Nat.one_pos
  rw [(holds' 0 1 (fun _ => 0) Nat.one_pos le_rfl).2 0 Nat.one_pos] at byte
  exact differ byte

/-- The flash with an image of one byte, whose first block has worn out. -/
def wornAfterImage : WornPages :=
  { (writeMonitor wornChip 0 (fun _ _ => 0) ⟨blank, fun _ => false⟩ (fun _ => 0x11) 1).2 with
    worn := fun block => block = 4 }

/-- A worn block keeps its mark: the next image is written behind it, and the old one is
read. -/
theorem writeMonitor_stale :
    (writeMonitor wornChip 0 (fun _ _ => 0) wornAfterImage (fun _ => 0x22) 1).1 = FTO_RET_OK ∧
      ¬ MonitorReads wornChip
        (writeMonitor wornChip 0 (fun _ _ => 0) wornAfterImage (fun _ => 0x22) 1).2
        (fun _ => 0x22) 1 := by
  have completed := (@wornChip_completes ⟨blank, fun _ => false⟩ 4 1 (fun _ => 0x11) rfl
    (by decide) (by decide) (by decide)).1
  obtain ⟨marked, holds⟩ := writeBlock_completes wornChip_framed (by decide) completed
  rcases block : writeBlock wornChip ⟨blank, fun _ => false⟩ 4 (fun _ => 0x11) 1 with
    ⟨written, state⟩
  rw [block] at completed marked holds
  dsimp only at completed marked holds
  subst completed
  have after : wornAfterImage = { state with worn := fun block => block = 4 } := by
    unfold wornAfterImage
    rw [writeMonitor_short, writeBlocks_round (fun _ => 0x11) 27 (by decide) block, if_pos rfl]
  have same : SameBlock wornChip state { state with worn := fun block => block = 4 } 4 :=
    fun _ _ => rfl
  rw [after]
  exact writeMonitor_behind ((isMarked_congr same).symm.trans marked)
    (holds.congr same (by decide)) rfl rfl (by decide) (by decide)

end PosFirmware.Flash
