import PosFirmware.Flash.Kept

/-! # What a map copy depends on

A range of bytes is read from the pages it lies in (`sNandRead_apply`), and an
operation on one block leaves the others as they are (`Chip.Framed`). A block
into which the map was written and read back without a difference holds that map
(`sWriteMapBlock_holds`).
-/

namespace PosFirmware.Flash

open PosFirmware.Foundation

variable {δ : Type} (chip : Chip δ)

/-! ## Reading -/

/-- The address of the page of a byte. -/
def pageAddrOf (offset : Nat) : Nat := offset / PAGE_SIZE * (2 * PAGE_SIZE)

/-- The block of a page address. -/
def blockOfPage (pageAddr : Nat) : Nat := pageAddr / (2 * BLOCK_SIZE)

theorem blockOfPage_pageAddrOf (block offset : Nat) (inside : offset < BLOCK_SIZE) :
    blockOfPage (pageAddrOf (block * BLOCK_SIZE + offset)) = block := by
  simp only [blockOfPage, pageAddrOf, PAGE_SIZE, BLOCK_SIZE] at *
  omega

theorem numberOfSectors_eq (offset dataLen : Nat) :
    numberOfSectors offset dataLen = (offset + dataLen + 2047) / 2048 - offset / 2048 := by
  unfold numberOfSectors
  split_ifs
  all_goals
    simp only [PAGE_SIZE] at *
    omega

/-- The place of the data of a page of a range: each page goes on where the one
before it ended. -/
theorem sectorPart_spec {offset dataLen i : Nat} (below : i < numberOfSectors offset dataLen) :
    (sectorPart offset dataLen i).2.1 = min dataLen (i * 2048 - offset % 2048) ∧
      (sectorPart offset dataLen i).2.1 + (sectorPart offset dataLen i).2.2 =
        min dataLen ((i + 1) * 2048 - offset % 2048) ∧
      offset % 2048 + (sectorPart offset dataLen i).2.1 =
        i * 2048 + (sectorPart offset dataLen i).1 := by
  have count : numberOfSectors offset dataLen = (offset % 2048 + dataLen + 2047) / 2048 := by
    rw [numberOfSectors_eq]
    omega
  have ends : 2048 * numberOfSectors offset dataLen ≤ offset % 2048 + dataLen + 2047 ∧
      offset % 2048 + dataLen ≤ 2048 * numberOfSectors offset dataLen := by
    rw [count]
    omega
  have small : offset % 2048 < 2048 := Nat.mod_lt _ (by decide)
  have leave : leaveBytes offset dataLen = min dataLen (2048 - offset % 2048) := by
    unfold leaveBytes
    split_ifs with fits
    all_goals
      simp only [PAGE_SIZE] at *
      omega
  clear count
  unfold sectorPart
  rw [leave]
  split_ifs with first last
  all_goals
    simp only [PAGE_SIZE]
    omega

theorem sNandRead_apply (nand : Nand δ) (offset dataLen i : Nat) (below : i < dataLen) :
    (sNandRead chip nand offset dataLen).2 i =
      (nandPhyPageRead chip nand (pageAddrOf (offset + i))).2 ((offset + i) % PAGE_SIZE) := by
  suffices filled : ∀ count ≤ numberOfSectors offset dataLen,
      ∀ i < min dataLen (count * 2048 - offset % 2048),
      ((List.range count).foldl (readSector chip nand offset dataLen)
        (NAND_RET_OK, fun _ => 0)).2 i =
        (nandPhyPageRead chip nand (pageAddrOf (offset + i))).2 ((offset + i) % PAGE_SIZE) by
    refine filled _ le_rfl i ?_
    rw [numberOfSectors_eq]
    omega
  intro count
  induction count with
  | zero => exact fun _ i none => absurd none (by simp)
  | succ count ih =>
      intro bound i inside
      obtain ⟨start, stop, place⟩ := sectorPart_spec (i := count) bound
      rw [← stop] at inside
      rw [List.range_succ, List.foldl_append, List.foldl_cons, List.foldl_nil]
      rcases part : sectorPart offset dataLen count with ⟨first, done, len⟩
      simp only [part] at start stop place inside
      simp only [readSector, memcpy, part]
      split_ifs with here
      · -- the byte lies in the page just read
        have page : pageAddrOf (offset + i) = sectorAddr offset count ∧
            (offset + i) % PAGE_SIZE = first + (i - done) := by
          simp only [pageAddrOf, sectorAddr, PAGE_SIZE]
          omega
        rw [page.1, page.2]
      · exact ih (Nat.le_of_succ_le bound) i (by omega)

/-! ## Operations on other blocks -/

/-- A chip on which an erase or a program changes the pages of its own block
only. -/
structure Chip.Framed (chip : Chip δ) : Prop where
  erase : ∀ state block pageAddr, blockOfPage pageAddr ≠ block →
    chip.pageRd (chip.blkErase state block) pageAddr = chip.pageRd state pageAddr
  prg : ∀ state pageAddr src len other, blockOfPage other ≠ blockOfPage pageAddr →
    chip.pageRd (chip.pagePrg state pageAddr src len) other = chip.pageRd state other

/-- Two states of the chip with the same pages in a block. -/
def SameBlock (state state' : δ) (block : Nat) : Prop :=
  ∀ pageAddr, blockOfPage pageAddr = block → chip.pageRd state pageAddr = chip.pageRd state' pageAddr

/-- The log is not kept in a block of map copies. -/
def LogOutside (blockMap : Nat → Ushort) : Prop := (blockMap (LOG_ADDR / BLOCK_SIZE)).toNat ∉ mapBlocks

/-- Erasing a block that holds map copies removes the mark. -/
def Chip.ErasesMarks (chip : Chip δ) : Prop :=
  ∀ nand : Nand δ, ∀ block ∈ mapBlocks, ¬ hasMagic chip (sNandErase chip nand block).2 block

variable {chip}

theorem SameBlock.symm {state state' : δ} {block : Nat} (same : SameBlock chip state state' block) :
    SameBlock chip state' state block := fun pageAddr inside => (same pageAddr inside).symm

theorem SameBlock.trans {state state' state'' : δ} {block : Nat}
    (same : SameBlock chip state state' block) (same' : SameBlock chip state' state'' block) :
    SameBlock chip state state'' block :=
  fun pageAddr inside => (same pageAddr inside).trans (same' pageAddr inside)

theorem inLogBlock_eq (nand : Nand δ) (pageAddr : Nat) :
    inLogBlock nand pageAddr =
      decide ((nand.blockMap (LOG_ADDR / BLOCK_SIZE)).toNat = blockOfPage pageAddr) := by
  unfold inLogBlock blockOfPage
  generalize (nand.blockMap (LOG_ADDR / BLOCK_SIZE)).toNat = block
  apply decide_eq_decide.mpr
  simp only [BLOCK_SIZE]
  omega

theorem blockOfPage_sectorAddr {block offset dataLen i : Nat} (inside : offset + dataLen ≤ BLOCK_SIZE)
    (below : i < numberOfSectors (block * BLOCK_SIZE + offset) dataLen) :
    blockOfPage (sectorAddr (block * BLOCK_SIZE + offset) i) = block := by
  rw [numberOfSectors_eq] at below
  simp only [blockOfPage, sectorAddr, PAGE_SIZE, BLOCK_SIZE] at *
  omega

theorem nandPhyPageRead_congr {nand nand' : Nand δ} {pageAddr : Nat}
    (same : chip.pageRd nand.chip pageAddr = chip.pageRd nand'.chip pageAddr)
    (logs : inLogBlock nand pageAddr = inLogBlock nand' pageAddr) :
    nandPhyPageRead chip nand pageAddr = nandPhyPageRead chip nand' pageAddr := by
  unfold nandPhyPageRead
  rw [same, logs]

theorem writeSector_eq {offset dataLen i start done len : Nat}
    {data : Buffer} {ret : Int} {nand : Nand δ} {written : Int × Nand δ}
    (part : sectorPart offset dataLen i = (start, done, len))
    (write : nandPhyPageWrite chip nand (sectorAddr offset i)
      (memcpy idleBytes start data done len) = written) :
    writeSector chip offset data dataLen (ret, nand) i =
      (if written.1 ≠ NAND_RET_OK then written.1 else ret, written.2) := by
  subst write
  unfold writeSector
  rw [part]

theorem sNandRead_ext {nand nand' : Nand δ} {offset dataLen : Nat}
    (pages : ∀ i < numberOfSectors offset dataLen, nandPhyPageRead chip nand (sectorAddr offset i) =
      nandPhyPageRead chip nand' (sectorAddr offset i)) :
    sNandRead chip nand offset dataLen = sNandRead chip nand' offset dataLen := by
  unfold sNandRead
  refine List.foldl_ext _ _ _ fun state i member => ?_
  rw [readSector, readSector, pages i (List.mem_range.mp member)]

theorem sNandRead_congr {nand nand' : Nand δ} {block offset dataLen : Nat}
    (inside : offset + dataLen ≤ BLOCK_SIZE) (same : SameBlock chip nand.chip nand'.chip block)
    (logs : (nand.blockMap (LOG_ADDR / BLOCK_SIZE)).toNat = block ↔
      (nand'.blockMap (LOG_ADDR / BLOCK_SIZE)).toNat = block) :
    sNandRead chip nand (block * BLOCK_SIZE + offset) dataLen =
      sNandRead chip nand' (block * BLOCK_SIZE + offset) dataLen := by
  refine sNandRead_ext fun i below => ?_
  have here := blockOfPage_sectorAddr inside below
  refine nandPhyPageRead_congr (same _ here) ?_
  rw [inLogBlock_eq, inLogBlock_eq, here]
  exact decide_eq_decide.mpr logs

theorem nandPhyPageWrite_other (framed : chip.Framed) (nand : Nand δ) {pageAddr other : Nat}
    (src : Buffer) (away : other ≠ blockOfPage pageAddr) :
    SameBlock chip (nandPhyPageWrite chip nand pageAddr src).2.chip nand.chip other := by
  intro otherAddr inOther
  unfold nandPhyPageWrite
  split_ifs
  · rfl
  all_goals exact framed.prg _ _ _ _ _ (inOther ▸ away)

theorem sNandWrite_other (framed : chip.Framed) (nand : Nand δ) {block offset dataLen other : Nat}
    (data : Buffer) (inside : offset + dataLen ≤ BLOCK_SIZE) (away : other ≠ block) :
    SameBlock chip (sNandWrite chip nand (block * BLOCK_SIZE + offset) data dataLen).2.chip
      nand.chip other := by
  refine (@sNandWrite_keeps _ _ (fun written => SameBlock chip written.chip nand.chip other)) data
    (fun written src i below same => ?_) fun _ _ => rfl
  refine (nandPhyPageWrite_other framed written src ?_).trans same
  rw [blockOfPage_sectorAddr inside below]
  exact away

theorem sNandErase_other (framed : chip.Framed) (nand : Nand δ) {block other : Nat}
    (away : other ≠ block) :
    SameBlock chip (sNandErase chip nand block).2.chip nand.chip other := by
  intro pageAddr inOther
  unfold sNandErase
  split_ifs
  · rfl
  · rfl
  · exact framed.erase _ _ _ (inOther ▸ away)

theorem sWriteMapBlock_other (framed : chip.Framed) (nand : Nand δ) {block other : Nat}
    (away : other ≠ block) :
    SameBlock chip (sWriteMapBlock chip nand block).2.chip nand.chip other := by
  have written := (@sNandWrite_other _ _ framed nand block 0 RES_BLOCK_SIZE other)
    (mapImage chip nand.blockMap) (by decide) away
  rw [Nat.add_zero] at written
  rw [sWriteMapBlock_snd]
  exact written

/-! ## Map copies -/

/-- The marked blocks and the contents of map copies do not depend on which map
is loaded, as long as the log is elsewhere. -/
theorem hasMagic_congr {nand nand' : Nand δ} {block : Nat}
    (same : SameBlock chip nand.chip nand'.chip block)
    (logs : (nand.blockMap (LOG_ADDR / BLOCK_SIZE)).toNat = block ↔
      (nand'.blockMap (LOG_ADDR / BLOCK_SIZE)).toNat = block) :
    hasMagic chip nand block = hasMagic chip nand' block := by
  unfold hasMagic
  rw [sNandRead_congr (by decide) same logs]

theorem mapCopy_congr {nand nand' : Nand δ} {block : Nat}
    (same : SameBlock chip nand.chip nand'.chip block)
    (logs : (nand.blockMap (LOG_ADDR / BLOCK_SIZE)).toNat = block ↔
      (nand'.blockMap (LOG_ADDR / BLOCK_SIZE)).toNat = block) :
    mapCopy chip nand block = mapCopy chip nand' block := by
  have read := (@sNandRead_congr _ _ _ _ _ 0 RES_BLOCK_SIZE) (by decide) same logs
  rw [Nat.add_zero] at read
  rw [mapCopy, mapCopy, read]

/-- A block holds a map: it is marked, its hash is right, and its table is the
map. -/
structure HoldsMap (chip : Chip δ) (nand : Nand δ) (block : Nat) (blockMap : Nat → Ushort) :
    Prop where
  marked : hasMagic chip nand block
  hashed : mapHashOk chip (mapCopy chip nand block)
  table : ∀ i < MAP_ENTRIES, mapOfImage (mapCopy chip nand block) i = blockMap i

theorem HoldsMap.congr {nand nand' : Nand δ} {block : Nat} {blockMap : Nat → Ushort}
    (holds : HoldsMap chip nand block blockMap)
    (same : SameBlock chip nand.chip nand'.chip block)
    (logs : (nand.blockMap (LOG_ADDR / BLOCK_SIZE)).toNat = block ↔
      (nand'.blockMap (LOG_ADDR / BLOCK_SIZE)).toNat = block) :
    HoldsMap chip nand' block blockMap where
  marked := hasMagic_congr same logs ▸ holds.marked
  hashed := mapCopy_congr same logs ▸ holds.hashed
  table := mapCopy_congr same logs ▸ holds.table

theorem hasMagic_iff (nand : Nand δ) (block : Nat) :
    hasMagic chip nand block ↔ ∀ i < DATA_BLOCK_MAGIC.length,
      mapCopy chip nand block (DATA_MAGIC_OFFSET + i) = magicBytes i := by
  have short : DATA_BLOCK_MAGIC.length = 17 := by decide
  unfold hasMagic
  rw [sameBytes_iff]
  refine forall₂_congr fun i below => ?_
  rw [mapCopy, sNandRead_apply _ _ _ _ _ below, sNandRead_apply, Nat.add_assoc]
  rw [short] at below
  simp only [DATA_MAGIC_OFFSET, RES_BLOCK_SIZE]
  omega

theorem mapImage_table (blockMap : Nat → Ushort) (i : Nat) (below : i < MAP_SIZE) :
    mapImage chip blockMap i = (blockMap (i / 2)).extractLsb' (8 * (i % 2)) 8 := by
  have inTable : i < 3840 := below
  simp only [mapImage, memcpy, MAP_SIZE, MAP_ENTRIES, DATA_MAGIC_OFFSET, RES_BLOCK_SIZE,
    DATA_START_NUM, DATA_BLOCK_NUM, FS_BLOCK_NUM, RESERVE_BLOCK_NUM]
  rw [if_neg (by omega), if_neg (by omega), if_pos (by omega), Nat.zero_add, Nat.sub_zero]

private theorem ushort_bytes (value : Ushort) :
    value.extractLsb' (8 * 1) 8 ++ value.extractLsb' (8 * 0) 8 = value := by
  apply BitVec.eq_of_getLsbD_eq
  intro bit inEntry
  rw [BitVec.getLsbD_append, BitVec.getLsbD_extractLsb', BitVec.getLsbD_extractLsb']
  by_cases low : bit < 8
  · simp [low]
  · have high : bit - 8 < 8 := by omega
    simp [low, high, show 8 + (bit - 8) = bit by omega]

theorem HoldsMap.of_image {nand : Nand δ} {block : Nat} {blockMap : Nat → Ushort}
    (read : ∀ i < RES_BLOCK_SIZE, mapCopy chip nand block i = mapImage chip blockMap i) :
    HoldsMap chip nand block blockMap where
  marked := by
    have short : DATA_BLOCK_MAGIC.length = 17 := by decide
    refine (hasMagic_iff nand block).mpr fun i below => ?_
    rw [short] at below
    rw [read _ (by simp only [DATA_MAGIC_OFFSET, RES_BLOCK_SIZE]; omega)]
    simp only [mapImage, memcpy]
    rw [if_pos (by omega), Nat.add_sub_cancel_left, Nat.zero_add]
  hashed := by
    have hashes : bytesOf (mapCopy chip nand block) MAP_SIZE =
        bytesOf (fun i => (blockMap (i / 2)).extractLsb' (8 * (i % 2)) 8) MAP_SIZE := by
      refine List.map_congr_left fun i member => ?_
      have below : i < 3840 := List.mem_range.mp member
      rw [read i (by simp only [RES_BLOCK_SIZE]; omega), mapImage_table _ _ below]
    unfold mapHashOk
    rw [sameBytes_iff, hashes]
    intro i below
    have place : MAP_SIZE + i < RES_BLOCK_SIZE := by
      simp only [MAP_SIZE, MAP_ENTRIES, RES_BLOCK_SIZE, DATA_START_NUM, DATA_BLOCK_NUM,
        FS_BLOCK_NUM, RESERVE_BLOCK_NUM]
      omega
    rw [read _ place]
    simp only [mapImage, memcpy]
    rw [if_neg, if_pos (by omega), Nat.add_sub_cancel_left, Nat.zero_add]
    simp only [MAP_SIZE, MAP_ENTRIES, DATA_MAGIC_OFFSET, RES_BLOCK_SIZE, DATA_START_NUM,
      DATA_BLOCK_NUM, FS_BLOCK_NUM, RESERVE_BLOCK_NUM]
    omega
  table := by
    intro i below
    have inTable : i < 1920 := below
    have places : 2 * i < MAP_SIZE ∧ 2 * i + 1 < MAP_SIZE := by
      simp only [MAP_SIZE]
      omega
    have inCopy : 2 * i + 1 < RES_BLOCK_SIZE := by
      simp only [RES_BLOCK_SIZE]
      omega
    rw [mapOfImage, read _ inCopy, read _ (by omega), mapImage_table _ _ places.2,
      mapImage_table _ _ places.1, show (2 * i + 1) / 2 = i by omega,
      show (2 * i + 1) % 2 = 1 by omega, show 2 * i / 2 = i by omega,
      show 2 * i % 2 = 0 by omega]
    exact ushort_bytes _

theorem sWriteMapBlock_holds {nand : Nand δ} {block : Nat}
    (ok : (sWriteMapBlock chip nand block).1 = NAND_RET_OK) :
    HoldsMap chip (sWriteMapBlock chip nand block).2 block nand.blockMap := by
  refine .of_image fun i below => ?_
  unfold sWriteMapBlock at ok
  by_cases same : sameBytes (mapImage chip nand.blockMap) (mapCopy chip (sNandWrite chip nand
      (block * BLOCK_SIZE) (mapImage chip nand.blockMap) RES_BLOCK_SIZE).2 block) RES_BLOCK_SIZE
  · rw [sWriteMapBlock_snd]
    exact ((sameBytes_iff _ _ _).mp same i below).symm
  · simp only [if_neg same] at ok
    exact absurd ok (by decide)

/-! ## Searching marked blocks -/

/-- The marked blocks found, from a block down: all there are, or the first two. -/
structure FirstMarked (chip : Chip δ) (nand : Nand δ) (last : Nat) (found : List Nat) : Prop where
  member : ∀ block ∈ found, FS_BLOCK_NUM + DATA_START_NUM ≤ block ∧ block ≤ last ∧
    hasMagic chip nand block
  order : found.Pairwise (· > ·)
  few : found.length ≤ 2
  first : ∀ block, FS_BLOCK_NUM + DATA_START_NUM ≤ block → block ≤ last →
    hasMagic chip nand block → block ∈ found ∨ found.length = 2 ∧ ∀ other ∈ found, block < other

theorem searchMapBlocks_spec (nand : Nand δ) (last : Nat) :
    FirstMarked chip nand last (searchMapBlocks chip nand last) := by
  have order : ((blocksDown last (FS_BLOCK_NUM + DATA_START_NUM)).filter
      (hasMagic chip nand)).Pairwise (· > ·) :=
    (List.pairwise_reverse.mpr List.pairwise_lt_range').filter _
  have all : ∀ block, block ∈ (blocksDown last (FS_BLOCK_NUM + DATA_START_NUM)).filter
      (hasMagic chip nand) ↔ (FS_BLOCK_NUM + DATA_START_NUM ≤ block ∧ block ≤ last) ∧
        hasMagic chip nand block := fun block => by
    rw [List.mem_filter, mem_blocksDown]
  unfold searchMapBlocks
  generalize (blocksDown last (FS_BLOCK_NUM + DATA_START_NUM)).filter (hasMagic chip nand) = marked
    at order all
  refine ⟨fun block member => ?_, order.sublist (List.take_sublist 2 marked),
    (List.length_take_le 2 marked), fun block above below mark => ?_⟩
  · obtain ⟨⟨above, below⟩, mark⟩ := (all block).mp (List.mem_of_mem_take member)
    exact ⟨above, below, mark⟩
  · have member := (all block).mpr ⟨⟨above, below⟩, mark⟩
    match marked, order, member with
    | [only], _, member => exact .inl member
    | blockA :: blockB :: rest, order, member =>
        rw [List.pairwise_cons, List.pairwise_cons] at order
        rcases List.mem_cons.mp member with isA | tail
        · exact .inl (isA ▸ List.mem_cons_self)
        rcases List.mem_cons.mp tail with isB | later
        · exact .inl (isB ▸ List.mem_cons_of_mem _ List.mem_cons_self)
        refine .inr ⟨rfl, fun other found => ?_⟩
        rcases List.mem_cons.mp found with isA | found
        · exact isA ▸ order.1 block tail
        rcases List.mem_cons.mp found with isB | found
        · exact isB ▸ order.2.1 block later
        · simp at found

theorem mapHashOk_congr {pageBuf pageBuf' : Buffer}
    (same : ∀ i < MAP_SIZE + 20, pageBuf i = pageBuf' i) :
    mapHashOk chip pageBuf = mapHashOk chip pageBuf' := by
  have table : bytesOf pageBuf MAP_SIZE = bytesOf pageBuf' MAP_SIZE :=
    List.map_congr_left fun i member => same i (by have := List.mem_range.mp member; omega)
  unfold mapHashOk
  rw [table, Bool.eq_iff_iff, sameBytes_iff, sameBytes_iff]
  refine forall₂_congr fun i below => ?_
  rw [same (MAP_SIZE + i) (by omega)]

theorem selectCopy_first {copies : Nat → Buffer} {blockA : Nat} (rest : List Nat)
    (hashed : mapHashOk chip (copies blockA)) :
    selectCopy chip copies (blockA :: rest) = some blockA := by
  simp only [selectCopy, hashed, if_true, ite_self]

theorem selectCopy_second {copies : Nat → Buffer} {blockA blockB : Nat} (rest : List Nat)
    (wrong : ¬ mapHashOk chip (copies blockA)) (hashed : mapHashOk chip (copies blockB)) :
    selectCopy chip copies (blockA :: blockB :: rest) = some blockB := by
  have differ : ¬ sameBytes (copies blockA) (copies blockB) (MAP_SIZE + 20) := fun same =>
    wrong ((mapHashOk_congr ((sameBytes_iff _ _ _).mp same)).trans hashed)
  rw [selectCopy, if_neg differ, if_neg wrong, if_pos hashed]

theorem selectCopy_mem {copies : Nat → Buffer} {found : List Nat} {block : Nat}
    (selected : selectCopy chip copies found = some block) : block ∈ found := by
  match found with
  | [] => simp [selectCopy] at selected
  | [blockA] =>
      simp only [selectCopy] at selected
      split_ifs at selected
      all_goals simp_all
  | blockA :: blockB :: rest =>
      simp only [selectCopy] at selected
      split_ifs at selected
      all_goals simp_all

/-- A map copy whose hash is right is loaded when at most one marked block lies
above it. -/
theorem selectMapBlock_ne_none {nand : Nand δ} {safe target : Nat}
    (inReserve : FS_BLOCK_NUM + DATA_START_NUM ≤ safe ∧ safe < DATA_START_NUM + DATA_BLOCK_NUM)
    (marked : hasMagic chip nand safe) (hashed : mapHashOk chip (mapCopy chip nand safe))
    (above : ∀ block, safe < block → block < DATA_START_NUM + DATA_BLOCK_NUM →
      hasMagic chip nand block → block = target) : selectMapBlock chip nand ≠ none := by
  have spec := (@searchMapBlocks_spec _ chip) nand (DATA_BLOCK_NUM + DATA_START_NUM - 1)
  unfold selectMapBlock
  generalize searchMapBlocks chip nand (DATA_BLOCK_NUM + DATA_START_NUM - 1) = found at spec ⊢
  have isTarget : ∀ block ∈ found, safe < block → block = target := fun block member higher => by
    obtain ⟨_, below, mark⟩ := spec.member block member
    exact above block higher (by omega) mark
  have order := spec.order
  match found, spec.first safe inReserve.1 (by omega) marked with
  | [], .inl member => simp at member
  | [blockA], .inl member =>
      obtain rfl : safe = blockA := by simpa using member
      simp [selectCopy_first [] hashed]
  | blockA :: blockB :: rest, placed =>
      have second : safe = blockA ∨ safe = blockB := by
        rcases placed with member | ⟨_, higher⟩
        · have none : rest = [] := List.eq_nil_of_length_eq_zero (by simpa using spec.few)
          simpa [none] using member
        · have sameA := isTarget blockA List.mem_cons_self (higher _ List.mem_cons_self)
          have inTail : blockB ∈ blockA :: blockB :: rest :=
            List.mem_cons_of_mem _ List.mem_cons_self
          have sameB := isTarget blockB inTail (higher _ inTail)
          have apart := List.rel_of_pairwise_cons order List.mem_cons_self
          omega
      rcases second with rfl | rfl
      · simp [selectCopy_first (blockB :: rest) hashed]
      · by_cases hashedA : mapHashOk chip (mapCopy chip nand blockA)
        · simp [selectCopy_first (safe :: rest) hashedA]
        · simp [selectCopy_second rest hashedA hashed]

theorem sReMapBlock_one {nand : Nand δ} {blockA : Nat}
    (found : searchMapBlocks chip nand (MAP_BLOCK_MAX - 1) = [blockA]) :
    sReMapBlock chip nand =
      (writeMapAfter chip blockA >>= fun step2 => rewriteMapBlock chip step2 blockA) nand := by
  rw [sReMapBlock, Prog.bind_of_some (Prog.read_run _ nand), found]

theorem sReMapBlock_two {nand : Nand δ} {blockA blockB : Nat}
    (found : searchMapBlocks chip nand (MAP_BLOCK_MAX - 1) = [blockA, blockB]) :
    sReMapBlock chip nand = (writeMapFrom chip blockA >>= fun written => match written with
      | some step2 => rewriteMapBlock chip step2 blockB
      | none => Prog.halt) nand := by
  refine (Prog.bind_of_some (Prog.read_run _ nand)).trans ?_
  exact found ▸ rfl

end PosFirmware.Flash
