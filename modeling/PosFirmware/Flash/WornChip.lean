import PosFirmware.Flash.MonitorPages

/-! # A chip whose blocks wear out

The flash on which a worn block keeps its pages, whatever is erased or programmed. The writer of
the monitor completes every other block (`wornChip_completes`), and passes over a worn block
that is not empty (`wornChip_passes`).
-/

namespace PosFirmware.Flash

/-- The pages of the flash, and the blocks that are worn. -/
structure WornPages where
  pages : Pages
  worn : Nat → Bool

/-- The chip: worn blocks stay as they are. -/
def wornChip : Chip WornPages where
  blkErase state block :=
    if state.worn block then state else { state with pages := state.pages.erase block }
  pagePrg state pageAddr src len :=
    if state.worn (blockOfPage pageAddr) then state
    else { state with pages := state.pages.program (pageNo pageAddr) src len }
  pageRd state pageAddr := state.pages (pageNo pageAddr)
  isHynix := false
  isBadBlock := fun _ => false
  sha1 := sha1
  stackBuf := fun _ => 0

theorem wornChip_pageRd (state : WornPages) (pageAddr : Nat) :
    wornChip.pageRd state pageAddr = state.pages (pageNo pageAddr) := rfl

theorem wornChip_pagePrg {state : WornPages} {pageAddr : Nat}
    (good : state.worn (blockOfPage pageAddr) = false) (src : Buffer) (len : Nat) :
    wornChip.pagePrg state pageAddr src len =
      { state with pages := state.pages.program (pageNo pageAddr) src len } :=
  if_neg (by rw [good]; exact Bool.false_ne_true)

theorem wornChip_blkErase {state : WornPages} {block : Nat} (good : state.worn block = false) :
    wornChip.blkErase state block = { state with pages := state.pages.erase block } :=
  if_neg (by rw [good]; exact Bool.false_ne_true)

theorem wornChip_framed : wornChip.PageFramed where
  erase state block pageAddr away := by
    rw [blockOfPage_eq] at away
    unfold wornChip
    dsimp only
    split_ifs
    · rfl
    · exact if_neg away
  prg state pageAddr src len other away := by
    unfold wornChip
    dsimp only
    split_ifs
    · rfl
    · exact Function.update_of_ne away _ _

/-- An erased page that can be programmed. -/
structure Blank (state : WornPages) (pageAddr : Nat) : Prop where
  inside : ¬ outsideMonitor pageAddr
  good : state.worn (blockOfPage pageAddr) = false
  idle : state.pages (pageNo pageAddr) = idleBytes

theorem wornChip_pageWrite {state : WornPages} {pageAddr : Nat} (blank : Blank state pageAddr)
    (src : Buffer) : (monitorNandPhyPageWrite wornChip state pageAddr src).1 = 0 := by
  obtain ⟨inside, good, idle⟩ := blank
  -- the page holds the image
  have image : ∀ i < PAGE_SIZE + 64,
      wornChip.pageRd (wornChip.pagePrg state pageAddr (pageImage wornChip src) (PAGE_SIZE + 64))
        pageAddr i = pageImage wornChip src i := by
    intro i below
    have ones : ∀ byte : Byte, (0xFF : Byte) &&& byte = byte := fun byte => BitVec.allOnes_and
    rw [wornChip_pagePrg good, wornChip_pageRd, Pages.program]
    dsimp only
    rw [Function.update_self, if_pos below, idle]
    exact ones _
  have data := image_data image
  have corrected := eccCorrect_image (show wornChip.sha1 = sha1 from rfl) image
  unfold monitorNandPhyPageWrite
  rw [if_neg inside]
  generalize wornChip.pagePrg state pageAddr (pageImage wornChip src) (PAGE_SIZE + 64) = written at *
  have read : (monitorNandPhyPageRead wornChip written pageAddr).1 = 0 ∧ ∀ j < PAGE_SIZE,
      (monitorNandPhyPageRead wornChip written pageAddr).2 j = src j := by
    unfold monitorNandPhyPageRead
    rw [if_neg inside]
    dsimp only
    split_ifs
    · exact ⟨rfl, data⟩
    · rw [corrected]
      exact ⟨rfl, fun j below => (byteAt_wordsOf _ j).trans (data j below)⟩
  dsimp only
  rw [if_neg]
  rw [not_or, not_not, not_not]
  exact ⟨read.1, (sameBytes_iff _ _ _).mpr fun j below => (read.2 j below).symm⟩

theorem wornChip_pageWrite_worn (state : WornPages) (pageAddr : Nat) (src : Buffer) :
    (monitorNandPhyPageWrite wornChip state pageAddr src).2.worn = state.worn := by
  have once : (wornChip.pagePrg state pageAddr (pageImage wornChip src) (PAGE_SIZE + 64)).worn =
      state.worn := by
    unfold wornChip
    dsimp only
    split_ifs <;> rfl
  unfold monitorNandPhyPageWrite
  split_ifs
  · rfl
  · dsimp only
    split_ifs <;> exact once

theorem Blank.other {state : WornPages} {pageAddr other : Nat} (blank : Blank state other)
    (src : Buffer) (away : pageNo other ≠ pageNo pageAddr) :
    Blank (monitorNandPhyPageWrite wornChip state pageAddr src).2 other :=
  ⟨blank.inside, by rw [wornChip_pageWrite_worn, blank.good],
    (monitorNandPhyPageWrite_other wornChip_framed state src away).trans blank.idle⟩

theorem wornChip_writeSectors {offset dataLen : Nat} (data : Buffer) (count i : Nat)
    (state : WornPages)
    (blank : ∀ k, i ≤ k → k < i + count → Blank state (sectorAddr offset k)) :
    (monitorWriteSectors wornChip offset data dataLen (List.range' i count) state).1 = 0 ∧
      ∀ other, Blank state other →
        (∀ k, i ≤ k → k < i + count → pageNo other ≠ pageNo (sectorAddr offset k)) →
        Blank (monitorWriteSectors wornChip offset data dataLen (List.range' i count) state).2
          other := by
  induction count generalizing i state with
  | zero => exact ⟨rfl, fun other blank _ => blank⟩
  | succ count past =>
      have here := blank i le_rfl (by omega)
      rw [List.range'_succ]
      unfold monitorWriteSectors
      dsimp only
      rw [if_neg (not_not.mpr (wornChip_pageWrite here _))]
      generalize memcpy idleBytes (sectorPart offset dataLen i).1 data
        (sectorPart offset dataLen i).2.1 (sectorPart offset dataLen i).2.2 = src
      have rest : ∀ k, i + 1 ≤ k → k < i + 1 + count →
          Blank (monitorNandPhyPageWrite wornChip state (sectorAddr offset i) src).2
            (sectorAddr offset k) := fun k later below => by
        refine (blank k (by omega) (by omega)).other src ?_
        rw [pageNo_sectorAddr, pageNo_sectorAddr]
        omega
      obtain ⟨ok, others⟩ := past (i + 1) _ rest
      refine ⟨ok, fun other isBlank away => others other ?_ fun k later below => ?_⟩
      · exact isBlank.other src (away i le_rfl (by omega))
      · exact away k (by omega) (by omega)

theorem wornChip_write {state : WornPages} {offset dataLen : Nat} (data : Buffer)
    (blank : ∀ i < numberOfSectors offset dataLen, Blank state (sectorAddr offset i)) :
    (monitorNandWrite wornChip state offset data dataLen).1 = 0 ∧
      ∀ other, Blank state other →
        (∀ i < numberOfSectors offset dataLen, pageNo other ≠ pageNo (sectorAddr offset i)) →
        Blank (monitorNandWrite wornChip state offset data dataLen).2 other := by
  unfold monitorNandWrite
  rw [List.range_eq_range']
  obtain ⟨ok, others⟩ := @wornChip_writeSectors offset dataLen data
    (numberOfSectors offset dataLen) 0 state fun k _ below => blank k (by omega)
  exact ⟨ok, fun other isBlank away => others other isBlank fun k _ below => away k (by omega)⟩

/-! ## Blocks -/

theorem wornChip_erase {state : WornPages} {block : Nat} (good : state.worn block = false)
    (inside : block < MONITOR_END_ADDR / BLOCK_SIZE) :
    monitorNandErase wornChip state block =
      (0, { state with pages := state.pages.erase block }) := by
  have empty : checkBadBlock wornChip { state with pages := state.pages.erase block } block = 0 := by
    refine if_pos fun i page j _ => ?_
    have here : pageNo ((block * BLOCK_SIZE + i * PAGE_SIZE) * 2) / BLOCK_PAGES = block := by
      simp only [pageNo, BLOCK_PAGES, BLOCK_SIZE, PAGE_SIZE] at *
      omega
    exact congrFun (if_pos here) j
  unfold monitorNandErase monitorEraseTries
  rw [if_neg (not_le.mpr inside), wornChip_blkErase good]
  exact if_pos empty

theorem wornChip_write_worn (state : WornPages) (offset dataLen : Nat) (data : Buffer) :
    (monitorNandWrite wornChip state offset data dataLen).2.worn = state.worn := by
  unfold monitorNandWrite
  generalize List.range (numberOfSectors offset dataLen) = sectors
  induction sectors generalizing state with
  | nil => rfl
  | cons i rest past =>
      unfold monitorWriteSectors
      dsimp only
      split_ifs
      · exact wornChip_pageWrite_worn _ _ _
      · exact (past _).trans (wornChip_pageWrite_worn _ _ _)

theorem blank_of_erased {state : WornPages} {i : Nat} (good : state.worn i = false)
    (first : MONITOR_BASE_ADDR / BLOCK_SIZE ≤ i) (last : i < MONITOR_END_ADDR / BLOCK_SIZE)
    {off dataLen : Nat} (inside : off + dataLen ≤ BLOCK_SIZE) {p : Nat}
    (below : p < numberOfSectors (i * BLOCK_SIZE + off) dataLen) :
    Blank { state with pages := state.pages.erase i } (sectorAddr (i * BLOCK_SIZE + off) p) := by
  have here := blockOfPage_sectorAddr inside below
  refine ⟨?_, by rw [here, good], if_pos (by rw [← blockOfPage_eq, here])⟩
  rw [numberOfSectors_eq] at below
  unfold outsideMonitor
  simp only [sectorAddr, MONITOR_BASE_ADDR, MONITOR_END_ADDR, BLOCK_SIZE, PAGE_SIZE] at *
  omega

/-- **A good block is completed.** -/
theorem wornChip_completes {state : WornPages} {i len2 : Nat} (piece : Buffer)
    (good : state.worn i = false) (first : MONITOR_BASE_ADDR / BLOCK_SIZE ≤ i)
    (last : i < MONITOR_END_ADDR / BLOCK_SIZE) (short : len2 ≤ MON_BLOCK_SIZE) :
    (writeBlock wornChip state i piece len2).1 = true ∧
      (writeBlock wornChip state i piece len2).2.worn = state.worn := by
  have short' : 0 + len2 ≤ BLOCK_SIZE := by
    rw [Nat.zero_add]
    exact short.trans (by decide)
  have flagBlank : ∀ p < numberOfSectors (i * BLOCK_SIZE + MON_BLOCK_SIZE) flagLen, Blank _
      (sectorAddr (i * BLOCK_SIZE + MON_BLOCK_SIZE) p) := fun p below =>
    blank_of_erased good first last flag_fits below
  have dataBlank : ∀ p < numberOfSectors (i * BLOCK_SIZE + 0) len2, Blank _
      (sectorAddr (i * BLOCK_SIZE + 0) p) := fun p below =>
    blank_of_erased good first last short' below
  rw [Nat.add_zero] at dataBlank
  obtain ⟨ok, others⟩ := wornChip_write piece dataBlank
  have worn := wornChip_write_worn { state with pages := state.pages.erase i } (i * BLOCK_SIZE) len2
    piece
  rw [writeBlock, wornChip_erase good last, blockErased_ok]
  generalize monitorNandWrite wornChip { state with pages := state.pages.erase i } (i * BLOCK_SIZE)
    piece len2 = written at *
  -- the page of the mark is none of those of the piece
  have apart : ∀ q < numberOfSectors (i * BLOCK_SIZE + MON_BLOCK_SIZE) flagLen,
      ∀ p < numberOfSectors (i * BLOCK_SIZE) len2,
        pageNo (sectorAddr (i * BLOCK_SIZE + MON_BLOCK_SIZE) q) ≠
          pageNo (sectorAddr (i * BLOCK_SIZE) p) := by
    intro q _ p below
    rw [pageNo_sectorAddr, pageNo_sectorAddr]
    rw [numberOfSectors_eq] at below
    simp only [MON_BLOCK_SIZE, BLOCK_SIZE, PAGE_SIZE] at *
    omega
  have still : ∀ q < numberOfSectors (i * BLOCK_SIZE + MON_BLOCK_SIZE) flagLen, Blank written.2
      (sectorAddr (i * BLOCK_SIZE + MON_BLOCK_SIZE) q) := fun q below =>
    others _ (flagBlank q below) (apart q below)
  have ok' := (wornChip_write flagBuf still).1
  have worn' := wornChip_write_worn written.2 (i * BLOCK_SIZE + MON_BLOCK_SIZE) flagLen flagBuf
  rw [blockWritten_ok ok, blockMarked_fst, blockMarked_snd, ok', worn', worn]
  exact ⟨rfl, rfl⟩

/-- **A worn block is passed over** when it is not empty. -/
theorem wornChip_passes {state : WornPages} {i : Nat} (piece : Buffer) (len2 : Nat)
    (worn : state.worn i = true) (last : i < MONITOR_END_ADDR / BLOCK_SIZE)
    (filled : checkBadBlock wornChip state i ≠ 0) :
    writeBlock wornChip state i piece len2 = (false, state) := by
  have kept : wornChip.blkErase state i = state := if_pos worn
  have erase : monitorNandErase wornChip state i = (-1, state) := by
    unfold monitorNandErase
    rw [if_neg (not_le.mpr last)]
    simp only [monitorEraseTries, kept, if_neg filled]
  unfold writeBlock
  rw [erase]
  exact if_pos (show (-1 : Int) ≠ 0 by decide)

end PosFirmware.Flash
