import PosFirmware.Flash.EccCorrection
import PosFirmware.Flash.MapCopy
import PosFirmware.Flash.Sha1

/-! # A chip without faults

The flash whose erases clear a block and whose programs clear the bits that are
zero in the data. A page programmed after an erase is read back as it was
written (`faultFree_read_write`), and a map copy written into an erased block is
accepted (`faultFree_writeMapBlock`). The development uses this chip where a
concrete run is needed.
-/

namespace PosFirmware.Flash

open PosFirmware.Foundation

/-- The pages of the flash, by number. -/
abbrev Pages := Nat → Buffer

/-- The number of a page. -/
def pageNo (pageAddr : Nat) : Nat := pageAddr / (2 * PAGE_SIZE)

/-- Erase the pages of a block. -/
def Pages.erase (pages : Pages) (block : Nat) : Pages := fun page =>
  if page / BLOCK_PAGES = block then idleBytes else pages page

/-- Program the first bytes of a page. -/
def Pages.program (pages : Pages) (page : Nat) (src : Buffer) (len : Nat) : Pages :=
  Function.update pages page fun i => if i < len then pages page i &&& src i else pages page i

/-- A chip whose operations work; the table of bad blocks may list some. -/
def faultFree (isBadBlock : Nat → Bool) : Chip Pages where
  blkErase := Pages.erase
  pagePrg pages pageAddr src len := pages.program (pageNo pageAddr) src len
  pageRd pages pageAddr := pages (pageNo pageAddr)
  isHynix := false
  isBadBlock := isBadBlock
  sha1 := sha1
  stackBuf := fun _ => 0

variable {isBadBlock : Nat → Bool}

theorem blockOfPage_eq (pageAddr : Nat) : blockOfPage pageAddr = pageNo pageAddr / BLOCK_PAGES := by
  simp only [blockOfPage, pageNo, BLOCK_PAGES, BLOCK_SIZE, PAGE_SIZE]
  omega

theorem faultFree_framed : (faultFree isBadBlock).Framed where
  erase pages block pageAddr away := by
    rw [blockOfPage_eq] at away
    exact if_neg away
  prg pages pageAddr src len other away := by
    rw [blockOfPage_eq, blockOfPage_eq] at away
    exact Function.update_of_ne (fun same => away (by rw [same])) _ _

theorem nandPhyPageRead_idle {nand : Nand Pages} {pageAddr : Nat}
    (inside : DATA_START_NUM * BLOCK_SIZE ≤ pageAddr / 2)
    (idle : nand.chip (pageNo pageAddr) = idleBytes) :
    nandPhyPageRead (faultFree isBadBlock) nand pageAddr = (NAND_RET_OK, idleBytes) := by
  have read : (faultFree isBadBlock).pageRd nand.chip pageAddr = idleBytes := idle
  unfold nandPhyPageRead
  rw [if_neg (not_lt.mpr inside), read]
  split_ifs with inLog
  · rfl
  · rfl

/-! ## Pages written -/

private theorem word_byte (b0 b1 b2 b3 : Byte) (place : Nat) (below : place < 4) :
    (b3 ++ b2 ++ b1 ++ b0).extractLsb' (8 * place) 8 = [b0, b1, b2, b3].getD place 0 := by
  interval_cases place
  all_goals
    apply BitVec.eq_of_getLsbD_eq
    intro bit inByte
    simp only [BitVec.getLsbD_extractLsb', BitVec.getLsbD_append, inByte]
    interval_cases bit <;> simp

theorem byteAt_wordsOf (bytes : Buffer) (i : Nat) : byteAt (wordsOf bytes) i = bytes i := by
  have below : i % 4 < 4 := Nat.mod_lt _ (by decide)
  have place := Nat.div_add_mod i 4
  rw [byteAt, wordsOf, word_byte _ _ _ _ _ below]
  conv_rhs => rw [← place]
  generalize i % 4 = rest at below
  interval_cases rest <;> rfl

theorem pageImage_apply {δ : Type} (chip : Chip δ) (src : Buffer) (i : Nat) :
    pageImage chip src i =
      if PAGE_SIZE + 32 + HASH_SIZE ≤ i ∧ i < PAGE_SIZE + 32 + HASH_SIZE + HASH_SIZE then
        (chip.sha1 (bytesOf src PAGE_SIZE)).getD (i - (PAGE_SIZE + 32 + HASH_SIZE)) 0
      else if PAGE_SIZE + 32 ≤ i ∧ i < PAGE_SIZE + 32 + HASH_SIZE then
        (chip.sha1 (bytesOf src PAGE_SIZE)).getD (i - (PAGE_SIZE + 32)) 0
      else if PAGE_SIZE ≤ i ∧ i < PAGE_SIZE + 32 then
        byteAt (calEcc (wordsOf src)) (i - PAGE_SIZE)
      else src i := by
  simp only [pageImage, memcpy, Nat.zero_add]

theorem image_data {δ : Type} {chip : Chip δ} {rbuf src : Buffer}
    (image : ∀ i < PAGE_SIZE + 64, rbuf i = pageImage chip src i) (i : Nat) (below : i < PAGE_SIZE) :
    rbuf i = src i := by
  rw [image i (by omega), pageImage_apply, if_neg (by omega), if_neg (by omega), if_neg (by omega)]

theorem hash_getElem? {hash : List Byte} (long : HASH_SIZE ≤ hash.length) {i : Nat}
    (below : i < HASH_SIZE) : hash[i]? = some (hash.getD i 0) := by
  have inHash : i < hash.length := below.trans_le long
  rw [List.getD_eq_getElem?_getD, List.getElem?_eq_getElem inHash, Option.getD_some]

theorem image_hashIntact {δ : Type} {chip : Chip δ}
    (long : ∀ data, HASH_SIZE ≤ (chip.sha1 data).length) {rbuf src : Buffer} {page : Words}
    (bytes : pageBytes page = bytesOf src PAGE_SIZE)
    (image : ∀ i, PAGE_SIZE + 32 ≤ i → i < PAGE_SIZE + 56 → rbuf i = pageImage chip src i) :
    HashIntact chip.sha1 page (wordsOf rbuf) := by
  intro i below
  have short : i < 12 := below
  rw [bytes, hash_getElem? (long _) below, byteAt_wordsOf, byteAt_wordsOf]
  constructor
  · rw [image _ (by omega) (by simp only [PAGE_SIZE]; omega), pageImage_apply,
      if_neg (by simp only [PAGE_SIZE, HASH_SIZE]; omega), if_pos (by omega),
      Nat.add_sub_cancel_left]
  · rw [image _ (by omega) (by simp only [PAGE_SIZE, HASH_SIZE]; omega), pageImage_apply,
      if_pos (by omega), Nat.add_sub_cancel_left]

theorem eccCorrect_imageOf {δ : Type} {chip : Chip δ}
    (long : ∀ data, HASH_SIZE ≤ (chip.sha1 data).length) {rbuf src : Buffer}
    (image : ∀ i < PAGE_SIZE + 64, rbuf i = pageImage chip src i) :
    eccCorrect chip.sha1 (wordsOf rbuf) = (NAND_RET_OK, some (wordsOf rbuf)) := by
  have bytes : pageBytes (wordsOf rbuf) = bytesOf src PAGE_SIZE :=
    List.map_congr_left fun i member => by
      rw [byteAt_wordsOf, image_data image i (List.mem_range.mp member)]
  have intact := image_hashIntact long bytes fun i _ below => image i (by omega)
  rw [eccCorrect]
  simp only [intact.storedHash_eq, beq_self_eq_true, if_true]

theorem eccCorrect_image {δ : Type} {chip : Chip δ} (hashed : chip.sha1 = sha1) {rbuf src : Buffer}
    (image : ∀ i < PAGE_SIZE + 64, rbuf i = pageImage chip src i) :
    eccCorrect chip.sha1 (wordsOf rbuf) = (NAND_RET_OK, some (wordsOf rbuf)) := by
  refine eccCorrect_imageOf (fun data => ?_) image
  rw [hashed, sha1_length]
  decide

theorem nandPhyPageRead_image {nand : Nand Pages} {pageAddr : Nat} {src : Buffer}
    (inside : DATA_START_NUM * BLOCK_SIZE ≤ pageAddr / 2) (notLog : ¬ inLogBlock nand pageAddr)
    (image : ∀ i < PAGE_SIZE + 64,
      nand.chip (pageNo pageAddr) i = pageImage (faultFree isBadBlock) src i) :
    (nandPhyPageRead (faultFree isBadBlock) nand pageAddr).1 = NAND_RET_OK ∧ ∀ i < PAGE_SIZE,
      (nandPhyPageRead (faultFree isBadBlock) nand pageAddr).2 i = src i := by
  have data := image_data image
  have corrected := eccCorrect_image (show (faultFree isBadBlock).sha1 = sha1 from rfl) image
  have read : (faultFree isBadBlock).pageRd nand.chip pageAddr = nand.chip (pageNo pageAddr) := rfl
  generalize nand.chip (pageNo pageAddr) = rbuf at *
  unfold nandPhyPageRead
  rw [if_neg (not_lt.mpr inside), if_neg notLog, read]
  dsimp only
  split_ifs with spare
  · exact ⟨rfl, data⟩
  · rw [corrected]
    exact ⟨rfl, fun i below => (byteAt_wordsOf rbuf i).trans (data i below)⟩

/-! ## Two pages at the start of a block -/

/-- A page of data filled up. -/
def dataPage (data : Buffer) (k : Nat) : Buffer := memcpy idleBytes 0 data (k * PAGE_SIZE) PAGE_SIZE

/-- Program the first two pages of a block. -/
def Pages.writeTwo (pages : Pages) (block : Nat) (data : Buffer) : Pages :=
  (pages.program (BLOCK_PAGES * block) (pageImage (faultFree fun _ => false) (dataPage data 0))
    (PAGE_SIZE + 64)).program (BLOCK_PAGES * block + 1)
      (pageImage (faultFree fun _ => false) (dataPage data 1)) (PAGE_SIZE + 64)

theorem Pages.writeTwo_other (pages : Pages) {block page : Nat} (data : Buffer)
    (away : page / BLOCK_PAGES ≠ block) : pages.writeTwo block data page = pages page := by
  have first : page ≠ BLOCK_PAGES * block := fun same => away (by
    rw [same, Nat.mul_div_cancel_left _ (by decide)])
  have second : page ≠ BLOCK_PAGES * block + 1 := fun same => away (by
    rw [same]
    simp only [BLOCK_PAGES, BLOCK_SIZE, PAGE_SIZE]
    omega)
  rw [writeTwo, program, Function.update_of_ne second, program, Function.update_of_ne first]

theorem Pages.writeTwo_image {pages : Pages} {block : Nat} (data : Buffer)
    (idle : ∀ page, page / BLOCK_PAGES = block → pages page = idleBytes) {k : Nat} (two : k < 2)
    (i : Nat) (below : i < PAGE_SIZE + 64) :
    pages.writeTwo block data (BLOCK_PAGES * block + k) i =
      pageImage (faultFree isBadBlock) (dataPage data k) i := by
  have ones : ∀ byte : Byte, (0xFF : Byte) &&& byte = byte := fun byte => by
    change BitVec.allOnes 8 &&& byte = byte
    exact BitVec.allOnes_and
  have inBlock : ∀ k < 2, pages (BLOCK_PAGES * block + k) = idleBytes := fun k two => idle _ (by
    simp only [BLOCK_PAGES, BLOCK_SIZE, PAGE_SIZE]
    omega)
  have apart : BLOCK_PAGES * block ≠ BLOCK_PAGES * block + 1 := (Nat.lt_succ_self _).ne
  have sameImage : pageImage (faultFree isBadBlock) (dataPage data k) =
      pageImage (faultFree fun _ => false) (dataPage data k) := rfl
  rw [sameImage, writeTwo]
  interval_cases k
  · have first := inBlock 0 two
    simp only [Nat.add_zero] at first ⊢
    rw [program, Function.update_of_ne apart, program, Function.update_self, if_pos below, first]
    exact ones _
  · rw [program, Function.update_self, if_pos below, program, Function.update_of_ne apart.symm,
      inBlock 1 two]
    exact ones _

private theorem twoSectors (block : Nat) : numberOfSectors (block * BLOCK_SIZE) RES_BLOCK_SIZE = 2 ∧
    ∀ k < 2, sectorPart (block * BLOCK_SIZE) RES_BLOCK_SIZE k = (0, k * PAGE_SIZE, PAGE_SIZE) ∧
      pageNo (sectorAddr (block * BLOCK_SIZE) k) = BLOCK_PAGES * block + k := by
  have aligned : block * BLOCK_SIZE % PAGE_SIZE = 0 := by
    simp only [BLOCK_SIZE, PAGE_SIZE]
    omega
  have count : numberOfSectors (block * BLOCK_SIZE) RES_BLOCK_SIZE = 2 := by
    rw [numberOfSectors_eq]
    simp only [BLOCK_SIZE, RES_BLOCK_SIZE]
    omega
  refine ⟨count, fun k two => ⟨?_, ?_⟩⟩
  · unfold sectorPart leaveBytes
    rw [count, aligned]
    interval_cases k <;> rfl
  · simp only [pageNo, sectorAddr, BLOCK_PAGES, BLOCK_SIZE, PAGE_SIZE]
    omega

theorem faultFree_nandPhyPageWrite {nand : Nand Pages} {pageAddr : Nat} (src : Buffer)
    (inside : DATA_START_NUM * BLOCK_SIZE ≤ pageAddr / 2) (notLog : ¬ inLogBlock nand pageAddr) :
    nandPhyPageWrite (faultFree isBadBlock) nand pageAddr src = (NAND_RET_OK, { nand with
      chip := nand.chip.program (pageNo pageAddr) (pageImage (faultFree fun _ => false) src)
        (PAGE_SIZE + 64) }) := by
  rw [nandPhyPageWrite, if_neg (not_lt.mpr inside), if_neg notLog]
  rfl

theorem faultFree_sNandWrite (nand : Nand Pages) {block : Nat} (data : Buffer)
    (inside : DATA_START_NUM ≤ block)
    (notLog : (nand.blockMap (LOG_ADDR / BLOCK_SIZE)).toNat ≠ block) :
    sNandWrite (faultFree isBadBlock) nand (block * BLOCK_SIZE) data RES_BLOCK_SIZE =
      (NAND_RET_OK, { nand with chip := nand.chip.writeTwo block data }) := by
  obtain ⟨count, sectors⟩ := twoSectors block
  have page : ∀ (pages : Pages) (k : Nat), k < 2 →
      writeSector (faultFree isBadBlock) (block * BLOCK_SIZE) data RES_BLOCK_SIZE
        (NAND_RET_OK, ⟨nand.blockMap, pages⟩) k = (NAND_RET_OK, ⟨nand.blockMap,
          pages.program (BLOCK_PAGES * block + k)
            (pageImage (faultFree fun _ => false) (dataPage data k)) (PAGE_SIZE + 64)⟩) := by
    intro pages k two
    obtain ⟨part, number⟩ := sectors k two
    have here : blockOfPage (sectorAddr (block * BLOCK_SIZE) k) = block := by
      have inBlock := (@blockOfPage_sectorAddr block 0 RES_BLOCK_SIZE k) (by decide)
         (by rw [Nat.add_zero, count]; exact two)
      rwa [Nat.add_zero] at inBlock
    have inData : ¬ sectorAddr (block * BLOCK_SIZE) k / 2 < DATA_START_NUM * BLOCK_SIZE := by
      simp only [blockOfPage, BLOCK_SIZE, DATA_START_NUM] at *
      omega
    have ecc : ¬ inLogBlock (⟨nand.blockMap, pages⟩ : Nand Pages)
        (sectorAddr (block * BLOCK_SIZE) k) := by
      rw [inLogBlock_eq, here, decide_eq_true_iff]
      exact notLog
    have written := (@faultFree_nandPhyPageWrite isBadBlock ⟨nand.blockMap, pages⟩) (dataPage data k) (not_lt.mp inData) ecc
    rw [number] at written
    rw [writeSector_eq part written]
    rfl
  unfold sNandWrite Pages.writeTwo
  rw [count, show List.range 2 = [0, 1] from rfl, List.foldl_cons, List.foldl_cons, List.foldl_nil,
    page nand.chip 0 (by decide), page _ 1 (by decide), Nat.add_zero]

/-! ## Blocks that are erased and blocks that hold data -/

/-- No page of the block was written since it was erased. -/
def Pages.Idle (pages : Pages) (block : Nat) : Prop :=
  ∀ page, page / BLOCK_PAGES = block → pages page = idleBytes

/-- The first two pages of the block hold data. -/
def Pages.Holds (pages : Pages) (block : Nat) (data : Buffer) : Prop :=
  ∀ k < 2, ∀ i < PAGE_SIZE + 64, pages (BLOCK_PAGES * block + k) i =
    pageImage (faultFree fun _ => false) (dataPage data k) i

/-- Two states with the same pages in a block. -/
def Pages.SameIn (pages pages' : Pages) (block : Nat) : Prop :=
  ∀ page, page / BLOCK_PAGES = block → pages page = pages' page

theorem Pages.Idle.congr {pages pages' : Pages} {block : Nat} (idle : pages.Idle block)
    (same : pages'.SameIn pages block) : pages'.Idle block :=
  fun page inBlock => (same page inBlock).trans (idle page inBlock)

theorem Pages.Holds.congr {pages pages' : Pages} {block : Nat} {data : Buffer}
    (holds : pages.Holds block data) (same : pages'.SameIn pages block) :
    pages'.Holds block data := fun k two i below => by
  rw [same _ (by simp only [BLOCK_PAGES, BLOCK_SIZE, PAGE_SIZE]; omega)]
  exact holds k two i below

theorem Pages.writeTwo_sameIn (pages : Pages) {block other : Nat} (data : Buffer)
    (away : other ≠ block) : (pages.writeTwo block data).SameIn pages other :=
  fun _ inOther => pages.writeTwo_other data (inOther ▸ away)

theorem Pages.erase_sameIn (pages : Pages) {block other : Nat} (away : other ≠ block) :
    (pages.erase block).SameIn pages other :=
  fun _ inOther => if_neg (inOther ▸ away)

theorem Pages.erase_idle (pages : Pages) (block : Nat) : (pages.erase block).Idle block :=
  fun _ inBlock => if_pos inBlock

theorem Pages.Idle.holds {pages : Pages} {block : Nat} (idle : pages.Idle block) (data : Buffer) :
    (pages.writeTwo block data).Holds block data :=
  fun _ two i below => Pages.writeTwo_image data idle two i below

private theorem startOfBlock {block i : Nat} (below : i < RES_BLOCK_SIZE) :
    pageNo (pageAddrOf (block * BLOCK_SIZE + i)) = BLOCK_PAGES * block + i / PAGE_SIZE ∧
      i / PAGE_SIZE < 2 ∧ (block * BLOCK_SIZE + i) % PAGE_SIZE = i % PAGE_SIZE ∧
      i = i / PAGE_SIZE * PAGE_SIZE + i % PAGE_SIZE := by
  simp only [pageNo, pageAddrOf, BLOCK_PAGES, BLOCK_SIZE, PAGE_SIZE, RES_BLOCK_SIZE] at *
  omega

/-- A page address lies in the part of the flash that is managed when its block
does. -/
private theorem inside_of_block {block offset : Nat} (inside : DATA_START_NUM ≤ block)
    (below : offset < BLOCK_SIZE) :
    DATA_START_NUM * BLOCK_SIZE ≤ pageAddrOf (block * BLOCK_SIZE + offset) / 2 := by
  simp only [pageAddrOf, BLOCK_SIZE, PAGE_SIZE, DATA_START_NUM] at *
  omega

theorem Pages.Holds.mapCopy {nand : Nand Pages} {block : Nat} {data : Buffer}
    (holds : nand.chip.Holds block data) (inside : DATA_START_NUM ≤ block)
    (notLog : (nand.blockMap (LOG_ADDR / BLOCK_SIZE)).toNat ≠ block) (i : Nat)
    (below : i < RES_BLOCK_SIZE) :
    Flash.mapCopy (faultFree isBadBlock) nand block i = data i := by
  obtain ⟨number, two, start, place⟩ := (@startOfBlock block i) below
  have inBlock : i < BLOCK_SIZE := below.trans (by decide)
  have ecc : ¬ inLogBlock nand (pageAddrOf (block * BLOCK_SIZE + i)) := by
    rw [inLogBlock_eq, blockOfPage_pageAddrOf _ _ inBlock, decide_eq_true_iff]
    exact notLog
  have inPage : i % PAGE_SIZE < PAGE_SIZE := Nat.mod_lt _ (by decide)
  rw [Flash.mapCopy, sNandRead_apply _ _ _ _ _ below, start,
    ((@nandPhyPageRead_image isBadBlock _ _ (dataPage data (i / PAGE_SIZE)))
      (inside_of_block inside inBlock) ecc (number ▸ holds _ two)).2 _ inPage, dataPage, memcpy,
    if_pos (by omega), Nat.sub_zero, ← place]

theorem sNandRead_ok {δ : Type} {chip : Chip δ} {nand : Nand δ} {offset dataLen : Nat}
    (pages : ∀ i < numberOfSectors offset dataLen,
      (nandPhyPageRead chip nand (sectorAddr offset i)).1 = NAND_RET_OK) :
    (sNandRead chip nand offset dataLen).1 = NAND_RET_OK := by
  suffices loop : ∀ (sectors : List Nat) (state : Int × Buffer),
      (∀ i ∈ sectors, i < numberOfSectors offset dataLen) → state.1 = NAND_RET_OK →
      (sectors.foldl (readSector chip nand offset dataLen) state).1 = NAND_RET_OK from
    loop _ _ (fun i member => List.mem_range.mp member) rfl
  intro sectors
  induction sectors with
  | nil => exact fun _ _ ok => ok
  | cons i rest ih =>
      intro state below ok
      refine ih _ (fun j member => below j (List.mem_cons_of_mem _ member)) ?_
      have page := pages i (below i List.mem_cons_self)
      rw [readSector]
      generalize nandPhyPageRead chip nand (sectorAddr offset i) = read at page ⊢
      obtain ⟨ret, rbuf⟩ := read
      dsimp only at page ⊢
      rw [page, if_neg (by decide), ok]

theorem Pages.Holds.readOk {nand : Nand Pages} {block : Nat} {data : Buffer}
    (holds : nand.chip.Holds block data) (inside : DATA_START_NUM ≤ block)
    (notLog : (nand.blockMap (LOG_ADDR / BLOCK_SIZE)).toNat ≠ block) :
    (sNandRead (faultFree isBadBlock) nand (block * BLOCK_SIZE) RES_BLOCK_SIZE).1 =
      NAND_RET_OK := by
  obtain ⟨count, sectors⟩ := twoSectors block
  refine sNandRead_ok fun i below => ?_
  rw [count] at below
  obtain ⟨_, number⟩ := sectors i below
  have here : blockOfPage (sectorAddr (block * BLOCK_SIZE) i) = block := by
    have inBlock := (@blockOfPage_sectorAddr block 0 RES_BLOCK_SIZE i) (by decide)
       (by rw [Nat.add_zero, count]; exact below)
    rwa [Nat.add_zero] at inBlock
  refine ((@nandPhyPageRead_image _ _ _ (dataPage data i)) ?_ ?_ (number ▸ holds i below)).1
  · simp only [blockOfPage, BLOCK_SIZE, DATA_START_NUM] at *
    omega
  · rw [inLogBlock_eq, here, decide_eq_true_iff]
    exact notLog

theorem Pages.Idle.read {nand : Nand Pages} {block offset dataLen : Nat}
    (idle : nand.chip.Idle block) (inside : DATA_START_NUM ≤ block)
    (inBlock : offset + dataLen ≤ BLOCK_SIZE) (i : Nat) (below : i < dataLen) :
    (sNandRead (faultFree isBadBlock) nand (block * BLOCK_SIZE + offset) dataLen).2 i = 0xFF := by
  have place : offset + i < BLOCK_SIZE := by omega
  rw [sNandRead_apply _ _ _ _ _ below, Nat.add_assoc,
    nandPhyPageRead_idle (inside_of_block inside place) (idle _ ?_)]
  · rfl
  · rw [← blockOfPage_eq, blockOfPage_pageAddrOf _ _ place]

theorem Pages.Idle.unmarked {nand : Nand Pages} {block : Nat} (idle : nand.chip.Idle block)
    (inside : DATA_START_NUM ≤ block) : ¬ hasMagic (faultFree isBadBlock) nand block := by
  unfold hasMagic
  rw [sameBytes_iff]
  intro same
  have first := same 0 (by decide)
  rw [idle.read inside (by decide) 0 (by decide)] at first
  exact absurd first (by decide)

/-! ## Map copies on a chip without faults -/

theorem Pages.Holds.holdsMap {nand : Nand Pages} {block : Nat} {blockMap : Nat → Ushort}
    (holds : nand.chip.Holds block (mapImage (faultFree isBadBlock) blockMap))
    (inside : DATA_START_NUM ≤ block)
    (notLog : (nand.blockMap (LOG_ADDR / BLOCK_SIZE)).toNat ≠ block) :
    HoldsMap (faultFree isBadBlock) nand block blockMap :=
  .of_image (holds.mapCopy inside notLog)

theorem faultFree_sWriteMapBlock {nand : Nand Pages} {block : Nat} (idle : nand.chip.Idle block)
    (inside : DATA_START_NUM ≤ block)
    (notLog : (nand.blockMap (LOG_ADDR / BLOCK_SIZE)).toNat ≠ block) :
    sWriteMapBlock (faultFree isBadBlock) nand block = (NAND_RET_OK, { nand with
      chip := nand.chip.writeTwo block (mapImage (faultFree isBadBlock) nand.blockMap) }) := by
  have written : (sNandWrite (faultFree isBadBlock) nand (block * BLOCK_SIZE)
      (mapImage (faultFree isBadBlock) nand.blockMap) RES_BLOCK_SIZE).2 = { nand with
        chip := nand.chip.writeTwo block (mapImage (faultFree isBadBlock) nand.blockMap) } := by
    rw [faultFree_sNandWrite nand _ inside notLog]
  rw [sWriteMapBlock, written, if_pos]
  rw [sameBytes_iff]
  intro i below
  exact ((@Pages.Holds.mapCopy _ ⟨nand.blockMap, _⟩) (idle.holds _) inside notLog i below).symm

theorem faultFree_sNandErase (nand : Nand Pages) {block : Nat} (inside : DATA_START_NUM ≤ block)
    (good : isBadBlock block = false) : sNandErase (faultFree isBadBlock) nand block =
      (0, { nand with chip := nand.chip.erase block }) := by
  have listed : (faultFree isBadBlock).isBadBlock block = false := good
  rw [sNandErase, if_neg (not_lt.mpr inside), if_neg (by rw [listed]; simp)]
  rfl

theorem faultFree_eraseAndWriteMap (nand : Nand Pages) {block : Nat}
    (inside : DATA_START_NUM ≤ block) (good : isBadBlock block = false)
    (notLog : (nand.blockMap (LOG_ADDR / BLOCK_SIZE)).toNat ≠ block) :
    eraseAndWriteMap (faultFree isBadBlock) block nand = (some (some ()), { nand with
      chip := (nand.chip.erase block).writeTwo block
        (mapImage (faultFree isBadBlock) nand.blockMap) }) := by
  have erased := faultFree_sNandErase nand inside good
  have written := (@faultFree_sWriteMapBlock isBadBlock ⟨nand.blockMap, nand.chip.erase block⟩) (nand.chip.erase_idle block) inside notLog
  rw [eraseAndWriteMap, show List.range 3 = [0, 1, 2] from rfl]
  refine Prog.firstM_of_some ?_
  rw [Prog.step_bind_run, erased, Prog.step_bind_run, written]
  rfl

theorem faultFree_erasesMarks (good : ∀ block ∈ mapBlocks, isBadBlock block = false) :
    (faultFree isBadBlock).ErasesMarks := by
  intro nand block inMap
  have inside : DATA_START_NUM ≤ block := le_trans (by decide) inMap.1
  rw [faultFree_sNandErase nand inside (good block inMap)]
  exact (@Pages.Idle.unmarked _ ⟨nand.blockMap, _⟩) (nand.chip.erase_idle block) inside

/-! ## A new file system -/

/-- A flash that was erased. -/
def blank : Pages := fun _ => idleBytes

/-- The driver after the table was created on an erased flash. -/
def created (isBadBlock : Nat → Bool) : Nand Pages :=
  let pageBufWr := mapImage (faultFree isBadBlock) freshMap
  ⟨freshMap, (blank.writeTwo 960 pageBufWr).writeTwo 961 pageBufWr⟩

theorem blank_idle (block : Nat) : blank.Idle block := fun _ _ => rfl

theorem sNandErase_blank (blockMap : Nat → Ushort) (block : Nat) :
    (sNandErase (faultFree isBadBlock) ⟨blockMap, blank⟩ block).2 = ⟨blockMap, blank⟩ := by
  have erased : (faultFree isBadBlock).blkErase blank block = blank := by
    funext page
    exact ite_self _
  unfold sNandErase
  split_ifs
  · rfl
  · rfl
  · rw [erased]

theorem faultFree_createMapCopy {nand : Nand Pages} {first : Nat} (inMap : first ∈ mapBlocks)
    (idle : nand.chip.Idle first)
    (notLog : (nand.blockMap (LOG_ADDR / BLOCK_SIZE)).toNat ≠ first) :
    createMapCopy (faultFree isBadBlock) first nand = (some (some first), { nand with
      chip := nand.chip.writeTwo first (mapImage (faultFree isBadBlock) nand.blockMap) }) := by
  obtain ⟨count, more⟩ : ∃ count, MAP_BLOCK_MAX - first = count + 1 :=
    ⟨_, (Nat.sub_add_cancel (Nat.sub_pos_of_lt inMap.2)).symm⟩
  have written := (@faultFree_sWriteMapBlock isBadBlock) idle
    (le_trans (by decide) inMap.1) notLog
  rw [createMapCopy, more, List.range'_succ]
  refine Prog.firstM_of_some ?_
  rw [show List.range 3 = [0, 1, 2] from rfl]
  refine Prog.firstM_of_some ?_
  rw [Prog.step_bind_run, written]
  rfl

theorem sCreateBlockMapTable_blank (blockMap : Nat → Ushort) :
    sCreateBlockMapTable (faultFree isBadBlock) ⟨blockMap, blank⟩ =
      (some (), created isBadBlock) := by
  have erased : (List.range' (FS_BLOCK_NUM + DATA_START_NUM) RESERVE_BLOCK_NUM).foldl
      (fun nand i => (sNandErase (faultFree isBadBlock) nand i).2) ⟨blockMap, blank⟩ =
        ⟨blockMap, blank⟩ :=
    List.foldl_fixed' (sNandErase_blank blockMap) _
  have log : (freshMap (LOG_ADDR / BLOCK_SIZE)).toNat = 66 := rfl
  have first := (@faultFree_createMapCopy isBadBlock ⟨freshMap, blank⟩ (FS_BLOCK_NUM + DATA_START_NUM)) ⟨le_rfl, by decide⟩ (blank_idle _)
    (by rw [log]; decide)
  have second := (@faultFree_createMapCopy isBadBlock ⟨freshMap, blank.writeTwo 960 (mapImage (faultFree isBadBlock) freshMap)⟩ 961) ⟨by decide, by decide⟩
    ((blank_idle 961).congr (blank.writeTwo_sameIn _ (by decide))) (by rw [log]; decide)
  rw [sCreateBlockMapTable, Prog.modify_bind_run, erased]
  refine (Prog.bind_of_some first).trans ?_
  have notLast : ¬ MAP_BLOCK_MAX - 1 ≤ FS_BLOCK_NUM + DATA_START_NUM := by decide
  dsimp only
  rw [if_neg notLast]
  exact Prog.bind_of_some second

/-! ## Saving the map and moving a block -/

/-- Both copies of a map replaced. -/
def Pages.saveMap (pages : Pages) (blockA blockB : Nat) (image : Buffer) : Pages :=
  (((pages.erase blockA).writeTwo blockA image).erase blockB).writeTwo blockB image

theorem faultFree_sReMapBlock {nand : Nand Pages} {blockA blockB : Nat}
    (found : searchMapBlocks (faultFree isBadBlock) nand (MAP_BLOCK_MAX - 1) = [blockA, blockB])
    (good : ∀ block ∈ mapBlocks, isBadBlock block = false) (outside : LogOutside nand.blockMap) :
    sReMapBlock (faultFree isBadBlock) nand = (some NAND_RET_OK, { nand with
      chip := nand.chip.saveMap blockA blockB
        (mapImage (faultFree isBadBlock) nand.blockMap) }) := by
  have spec := (@searchMapBlocks_spec _ (faultFree isBadBlock)) nand (MAP_BLOCK_MAX - 1)
  rw [found] at spec
  have inMap : ∀ block ∈ [blockA, blockB], block ∈ mapBlocks := fun block member => by
    obtain ⟨above, below, _⟩ := spec.member block member
    exact ⟨above, Nat.lt_of_le_pred (by decide) below⟩
  have write : ∀ block ∈ [blockA, blockB], ∀ pages : Pages,
      eraseAndWriteMap (faultFree isBadBlock) block ⟨nand.blockMap, pages⟩ =
        (some (some ()), ⟨nand.blockMap, (pages.erase block).writeTwo block
          (mapImage (faultFree isBadBlock) nand.blockMap)⟩) := fun block member pages =>
    faultFree_eraseAndWriteMap ⟨nand.blockMap, pages⟩
      (le_trans (by decide) (inMap block member).1) (good block (inMap block member))
      fun same => outside (same ▸ inMap block member)
  obtain ⟨count, more⟩ : ∃ count, MAP_BLOCK_MAX - blockA = count + 1 :=
    ⟨_, (Nat.sub_add_cancel (Nat.sub_pos_of_lt (inMap blockA (by simp)).2)).symm⟩
  have first : writeMapFrom (faultFree isBadBlock) blockA nand = (some (some blockA),
      ⟨nand.blockMap, (nand.chip.erase blockA).writeTwo blockA
        (mapImage (faultFree isBadBlock) nand.blockMap)⟩) := by
    rw [writeMapFrom, more, List.range'_succ]
    refine Prog.firstM_of_some ?_
    rw [Prog.bind_of_some (write blockA (by simp) nand.chip)]
    rfl
  rw [sReMapBlock_two found, Prog.bind_of_some first]
  dsimp only
  rw [rewriteMapBlock, Prog.bind_of_some (write blockB (by simp) _)]
  rfl

theorem faultFree_eraseIdle (nand : Nand Pages) {block : Nat} (inside : DATA_START_NUM ≤ block)
    (good : isBadBlock block = false) : eraseIdle (faultFree isBadBlock) block nand =
      (some true, { nand with chip := nand.chip.erase block }) := by
  have idle : sameBytes (sNandRead (faultFree isBadBlock) ⟨nand.blockMap, nand.chip.erase block⟩
      (block * BLOCK_SIZE) BLOCK_SIZE).2 idleBytes BLOCK_SIZE = true := by
    rw [sameBytes_iff]
    intro i below
    have read := (@Pages.Idle.read isBadBlock ⟨nand.blockMap, nand.chip.erase block⟩ _ 0 BLOCK_SIZE)
      (nand.chip.erase_idle block) inside (by rw [Nat.zero_add]) i below
    rwa [Nat.add_zero] at read
  rw [eraseIdle, Prog.step_bind_run, faultFree_sNandErase nand inside good, Prog.read_run, idle]

/-- The copies at the first two map blocks are found while the blocks above them
are erased. -/
theorem faultFree_searchMapBlocks {nand : Nand Pages} {last : Nat} (above : 961 ≤ last)
    (first : hasMagic (faultFree isBadBlock) nand 960)
    (second : hasMagic (faultFree isBadBlock) nand 961)
    (idle : ∀ block, 962 ≤ block → block ≤ last → nand.chip.Idle block) :
    searchMapBlocks (faultFree isBadBlock) nand last = [961, 960] := by
  have blocks : blocksDown last (FS_BLOCK_NUM + DATA_START_NUM) =
      blocksDown last 962 ++ [961, 960] := by
    have parts : List.range' 960 (last + 1 - 960) = [960, 961] ++ List.range' 962 (last + 1 - 962) := by
      have split := List.range'_append_1 (s := 960) (m := 2) (n := last + 1 - 962)
      rw [show 2 + (last + 1 - 962) = last + 1 - 960 by omega] at split
      exact split.symm
    have whole : blocksDown last (FS_BLOCK_NUM + DATA_START_NUM) =
        (List.range' 960 (last + 1 - 960)).reverse := rfl
    rw [whole, parts, List.reverse_append, blocksDown]
    rfl
  have none : (blocksDown last 962).filter (hasMagic (faultFree isBadBlock) nand) = [] := by
    rw [List.filter_eq_nil_iff]
    intro block member
    obtain ⟨from_, below⟩ := mem_blocksDown.mp member
    exact (idle block from_ below).unmarked (le_trans (by decide) from_)
  rw [searchMapBlocks, blocks, List.filter_append, none, List.nil_append,
    List.filter_cons_of_pos second, List.filter_cons_of_pos first]
  rfl

theorem created_holds (isBadBlock : Nat → Bool) :
    (created isBadBlock).chip.Holds 960 (mapImage (faultFree isBadBlock) freshMap) ∧
      (created isBadBlock).chip.Holds 961 (mapImage (faultFree isBadBlock) freshMap) ∧
      ∀ block, block ≠ 960 → block ≠ 961 → (created isBadBlock).chip.Idle block := by
  have first := (blank_idle 960).holds (mapImage (faultFree isBadBlock) freshMap)
  have idle : ∀ block, block ≠ 960 →
      (blank.writeTwo 960 (mapImage (faultFree isBadBlock) freshMap)).Idle block :=
    fun block away => (blank_idle block).congr (blank.writeTwo_sameIn _ away)
  refine ⟨first.congr (Pages.writeTwo_sameIn _ _ (by decide)), (idle 961 (by decide)).holds _,
    fun block away away' => (idle block away).congr (Pages.writeTwo_sameIn _ _ away')⟩

/-- The driver after the erase of a block listed as bad moved it to the last
reserve block. -/
def moved : Nand Pages :=
  let blockMap := Function.update (Function.update (Function.update freshMap 1060 RES_BLOCK_BAD)
    100 1023) 1023 RES_BLOCK_USED
  ⟨blockMap, ((created (· == 100)).chip.erase 1023).saveMap 961 960
    (mapImage (faultFree (· == 100)) blockMap)⟩

theorem nandErase_created : nandErase (faultFree (· == 100)) (100 * BLOCK_SIZE) BLOCK_SIZE
    (created (· == 100)) = (some NAND_RET_OK, moved) := by
  obtain ⟨first, second, others⟩ := created_holds (· == 100)
  let exchanged : Nand Pages := ⟨moved.blockMap, (created (· == 100)).chip.erase 1023⟩
  have untouched : ∀ block, block ≠ 1023 → exchanged.chip.SameIn (created (· == 100)).chip block :=
    fun block away => Pages.erase_sameIn _ away
  have log : (moved.blockMap (LOG_ADDR / BLOCK_SIZE)).toNat = 66 := rfl
  have marked : ∀ block ∈ [960, 961], hasMagic (faultFree (· == 100)) exchanged block := by
    intro block member
    rcases List.mem_pair.mp member with rfl | rfl
    · exact ((@Pages.Holds.holdsMap _ exchanged) (first.congr (untouched 960 (by decide)))
        (by decide) (by rw [log]; decide)).marked
    · exact ((@Pages.Holds.holdsMap _ exchanged) (second.congr (untouched 961 (by decide)))
        (by decide) (by rw [log]; decide)).marked
  have found := (@faultFree_searchMapBlocks _ _ (MAP_BLOCK_MAX - 1)) (by decide)
    (marked 960 (by simp)) (marked 961 (by simp)) fun block above below =>
      have last : MAP_BLOCK_MAX - 1 = 963 := rfl
      (others block (by omega) (by omega)).congr (untouched block (by omega))
  have saved : sReMapBlock (faultFree (· == 100)) exchanged = (some NAND_RET_OK, moved) :=
    faultFree_sReMapBlock found
      (fun block inMap => decide_eq_false fun same => absurd (same ▸ inMap.1) (by decide))
      fun inMap => absurd (log ▸ inMap.1) (by decide)
  have taken : takeBlock 100 1023 1023 (eraseIdle (faultFree (· == 100)) 1023)
      ((created (· == 100)).setMap 1060 RES_BLOCK_BAD) = (some true, exchanged) := by
    have free : ((created (· == 100)).setMap 1060 RES_BLOCK_BAD).blockMap 1023 = RES_BLOCK_FREE := by
      decide
    rw [takeBlock, Prog.read_bind_run, free, if_neg (not_not_intro rfl), Prog.modify_bind_run,
      Prog.bind_of_some (faultFree_eraseIdle _ (by decide) (by decide))]
    rfl
  have searched : searchReserve 100 (eraseIdle (faultFree (· == 100)))
      ((created (· == 100)).setMap 1060 RES_BLOCK_BAD) = (some (some ()), exchanged) := by
    have blocks : blocksDown (DATA_START_NUM + DATA_BLOCK_NUM - 1) (DATA_START_NUM + FS_BLOCK_NUM) =
        1023 :: blocksDown 1022 960 := by decide
    rw [searchReserve, blocks]
    refine (Prog.bind_of_some ((@Prog.firstM_of_some _ _ _ _ _ _ _ _ .replaced) ?_)).trans rfl
    rw [if_neg (by decide), Prog.bind_of_some taken]
    rfl
  have exchange : sNandExchangeBlock (faultFree (· == 100)) 100
      ((created (· == 100)).setMap 1060 RES_BLOCK_BAD) = (some NAND_RET_OK, moved) := by
    rw [sNandExchangeBlock, (@Prog.bind_of_some _ _ _ _ _ _ exchanged ()) ?_, saved]
    rw [Prog.retry, Prog.bind_of_some searched]
    rfl
  have tried : eraseTries (faultFree (· == 100)) 100 (created (· == 100)) =
      (some none, created (· == 100)) := by
    have refused : sNandErase (faultFree (· == 100)) (created (· == 100)) 100 =
        (-1, created (· == 100)) := rfl
    rw [eraseTries, Prog.step_bind_run, refused, Prog.read_bind_run, if_pos (by decide)]
    rfl
  have block : nandEraseBlock (faultFree (· == 100)) 100 (created (· == 100)) =
      (some none, moved) := by
    have own : ((created (· == 100)).blockMap 100).toNat = 100 := by decide
    have place : statusIndex 100 = 1060 := by decide
    rw [nandEraseBlock, Prog.read_bind_run, own, if_neg (by decide), Prog.bind_of_some tried]
    dsimp only
    rw [Prog.modify_bind_run, place, Prog.bind_of_some exchange]
    rfl
  have blocks : blocksOf (100 * BLOCK_SIZE) BLOCK_SIZE = [100] := by decide
  rw [nandErase, if_neg (by decide), blocks, Prog.bind_of_some (Prog.firstM_of_none block)]
  rfl

end PosFirmware.Flash
