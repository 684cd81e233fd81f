import PosFirmware.Flash.FaultFree
import PosFirmware.Flash.Monitor

/-! # The pages of the monitor

What `monitor_nand_read` returns where the pages can be read without a correction, and that a
page that was programmed and read back stays so. A block that the writer completed is marked
and holds its piece (`writeBlock_completes`), and the other blocks stay as they are
(`writeBlock_other`).
-/

namespace PosFirmware.Flash

variable {δ : Type} {chip : Chip δ}

/-- A chip on which an erase changes the pages of its own block only, and a program its own
page. -/
structure Chip.PageFramed (chip : Chip δ) : Prop where
  erase : ∀ state block pageAddr, blockOfPage pageAddr ≠ block →
    chip.pageRd (chip.blkErase state block) pageAddr = chip.pageRd state pageAddr
  prg : ∀ state pageAddr src len other, pageNo other ≠ pageNo pageAddr →
    chip.pageRd (chip.pagePrg state pageAddr src len) other = chip.pageRd state other

/-! ## Reading -/

theorem monitorNandPhyPageRead_congr {state state' : δ} {pageAddr : Nat}
    (same : chip.pageRd state pageAddr = chip.pageRd state' pageAddr) :
    monitorNandPhyPageRead chip state pageAddr = monitorNandPhyPageRead chip state' pageAddr := by
  unfold monitorNandPhyPageRead
  rw [same]

theorem monitorNandRead_congr {state state' : δ} {offset dataLen : Nat} (data : Buffer)
    (same : ∀ i < numberOfSectors offset dataLen,
      chip.pageRd state (sectorAddr offset i) = chip.pageRd state' (sectorAddr offset i)) :
    monitorNandRead chip state offset data dataLen =
      monitorNandRead chip state' offset data dataLen := by
  suffices loop : ∀ (sectors : List Nat) (data : Buffer),
      (∀ i ∈ sectors, i < numberOfSectors offset dataLen) →
      monitorReadSectors chip state offset dataLen sectors data =
        monitorReadSectors chip state' offset dataLen sectors data from
    loop _ data fun i member => List.mem_range.mp member
  intro sectors
  induction sectors with
  | nil => exact fun _ _ => rfl
  | cons i rest past =>
      intro data below
      have page := monitorNandPhyPageRead_congr (same i (below i List.mem_cons_self))
      simp only [monitorReadSectors]
      rw [page]
      simp only [past _ fun j member => below j (List.mem_cons_of_mem _ member)]

/-- A range whose pages read without a correction is delivered. -/
theorem monitorNandRead_good {state : δ} {offset dataLen : Nat} (data : Buffer)
    (good : ∀ i < numberOfSectors offset dataLen,
      (monitorNandPhyPageRead chip state (sectorAddr offset i)).1 = 0) :
    (monitorNandRead chip state offset data dataLen).1 = 0 ∧ ∀ j < dataLen,
      (monitorNandRead chip state offset data dataLen).2 j =
        (monitorNandPhyPageRead chip state (pageAddrOf (offset + j))).2
          ((offset + j) % PAGE_SIZE) := by
  suffices loop : ∀ (count i : Nat) (data : Buffer), i + count = numberOfSectors offset dataLen →
      (∀ j < min dataLen (i * 2048 - offset % 2048),
        data j = (monitorNandPhyPageRead chip state (pageAddrOf (offset + j))).2
          ((offset + j) % PAGE_SIZE)) →
      (monitorReadSectors chip state offset dataLen (List.range' i count) data).1 = 0 ∧
        ∀ j < dataLen,
          (monitorReadSectors chip state offset dataLen (List.range' i count) data).2 j =
            (monitorNandPhyPageRead chip state (pageAddrOf (offset + j))).2
              ((offset + j) % PAGE_SIZE) by
    have whole := loop (numberOfSectors offset dataLen) 0 data (Nat.zero_add _)
      fun j none => absurd none (by simp)
    rwa [← List.range_eq_range'] at whole
  have all : dataLen ≤ numberOfSectors offset dataLen * 2048 - offset % 2048 := by
    rw [numberOfSectors_eq]
    omega
  intro count
  induction count with
  | zero =>
      intro i data ends filled
      rw [Nat.add_zero] at ends
      subst ends
      exact ⟨rfl, fun j below => filled j (by omega)⟩
  | succ count past =>
      intro i data ends filled
      have below : i < numberOfSectors offset dataLen := by omega
      obtain ⟨start, stop, place⟩ := sectorPart_spec below
      have zero := good i below
      rcases part : sectorPart offset dataLen i with ⟨first, done, len⟩
      rcases page : monitorNandPhyPageRead chip state (sectorAddr offset i) with ⟨ret, rbuf⟩
      simp only [part] at start stop place
      have delivered : (monitorNandPhyPageRead chip state (sectorAddr offset i)).2 = rbuf :=
        congrArg Prod.snd page
      rw [page] at zero
      dsimp only at zero
      subst zero
      -- the bytes up to the end of this page are there
      have filled' : ∀ j < min dataLen ((i + 1) * 2048 - offset % 2048),
          memcpy data done rbuf first len j =
            (monitorNandPhyPageRead chip state (pageAddrOf (offset + j))).2
              ((offset + j) % PAGE_SIZE) := by
        intro j inside
        rw [memcpy]
        split_ifs with here
        · have addr : pageAddrOf (offset + j) = sectorAddr offset i ∧
              (offset + j) % PAGE_SIZE = first + (j - done) := by
            simp only [pageAddrOf, sectorAddr, PAGE_SIZE]
            omega
          rw [addr.1, addr.2]
          exact congrFun delivered.symm _
        · refine filled j ?_
          rw [← stop] at inside
          rw [← start]
          clear * - here inside
          omega
      rw [List.range'_succ]
      rw [monitorReadSectors]
      simp only [part, page]
      rw [if_neg (lt_irrefl _)]
      split_ifs with last
      · refine ⟨rfl, fun j inside => filled' j ?_⟩
        have : i + 1 = numberOfSectors offset dataLen := by omega
        rw [this]
        omega
      · exact past (i + 1) _ (by omega) filled'

/-! ## Writing -/

theorem pageNo_sectorAddr (offset i : Nat) :
    pageNo (sectorAddr offset i) = offset / PAGE_SIZE + i := by
  simp only [pageNo, sectorAddr, PAGE_SIZE]
  omega

theorem monitorNandPhyPageWrite_other (framed : chip.PageFramed) (state : δ) {pageAddr other : Nat}
    (src : Buffer) (away : pageNo other ≠ pageNo pageAddr) :
    chip.pageRd (monitorNandPhyPageWrite chip state pageAddr src).2 other =
      chip.pageRd state other := by
  unfold monitorNandPhyPageWrite
  split_ifs with outside
  · rfl
  · dsimp only
    split_ifs
    all_goals exact framed.prg _ _ _ _ _ away

theorem monitorNandPhyPageWrite_ok {state : δ} {pageAddr : Nat} {src : Buffer}
    (ok : (monitorNandPhyPageWrite chip state pageAddr src).1 = 0) :
    (monitorNandPhyPageRead chip (monitorNandPhyPageWrite chip state pageAddr src).2
        pageAddr).1 = 0 ∧
      ∀ j < PAGE_SIZE, (monitorNandPhyPageRead chip
        (monitorNandPhyPageWrite chip state pageAddr src).2 pageAddr).2 j = src j := by
  unfold monitorNandPhyPageWrite at ok ⊢
  split_ifs at ok ⊢ with outside
  · cases ok
  · dsimp only at ok ⊢
    split_ifs at ok ⊢ with failed
    · cases ok
    · rw [not_or, not_not, not_not] at failed
      exact ⟨failed.1, fun j below => (((sameBytes_iff _ _ _).mp failed.2) j below).symm⟩

theorem monitorWriteSectors_other (framed : chip.PageFramed) {offset dataLen other : Nat}
    (data : Buffer) {sectors : List Nat}
    (away : ∀ i ∈ sectors, pageNo other ≠ pageNo (sectorAddr offset i)) (state : δ) :
    chip.pageRd (monitorWriteSectors chip offset data dataLen sectors state).2 other =
      chip.pageRd state other := by
  induction sectors generalizing state with
  | nil => rfl
  | cons i rest past =>
      have page := monitorNandPhyPageWrite_other framed state
        (memcpy idleBytes (sectorPart offset dataLen i).1 data (sectorPart offset dataLen i).2.1
          (sectorPart offset dataLen i).2.2) (away i List.mem_cons_self)
      unfold monitorWriteSectors
      dsimp only
      split_ifs
      · exact page
      · exact (past (fun j member => away j (List.mem_cons_of_mem _ member)) _).trans page

theorem monitorNandWrite_other (framed : chip.PageFramed) (state : δ) {offset dataLen other : Nat}
    (data : Buffer)
    (away : ∀ i < numberOfSectors offset dataLen, pageNo other ≠ pageNo (sectorAddr offset i)) :
    chip.pageRd (monitorNandWrite chip state offset data dataLen).2 other =
      chip.pageRd state other :=
  monitorWriteSectors_other framed data (fun i member => away i (List.mem_range.mp member)) state

/-- A range that was programmed without an error reads as it was written. -/
theorem monitorNandWrite_ok (framed : chip.PageFramed) {state : δ} {offset dataLen : Nat}
    {data : Buffer} (ok : (monitorNandWrite chip state offset data dataLen).1 = 0) :
    (∀ i < numberOfSectors offset dataLen, (monitorNandPhyPageRead chip
        (monitorNandWrite chip state offset data dataLen).2 (sectorAddr offset i)).1 = 0) ∧
      ∀ j < dataLen, (monitorNandPhyPageRead chip
        (monitorNandWrite chip state offset data dataLen).2 (pageAddrOf (offset + j))).2
          ((offset + j) % PAGE_SIZE) = data j := by
  suffices loop : ∀ (count i : Nat) (state : δ),
      (monitorWriteSectors chip offset data dataLen (List.range' i count) state).1 = 0 →
      ∀ k, i ≤ k → k < i + count →
        (monitorNandPhyPageRead chip (monitorWriteSectors chip offset data dataLen
          (List.range' i count) state).2 (sectorAddr offset k)).1 = 0 ∧
        ∀ j < PAGE_SIZE, (monitorNandPhyPageRead chip (monitorWriteSectors chip offset data
          dataLen (List.range' i count) state).2 (sectorAddr offset k)).2 j =
            memcpy idleBytes (sectorPart offset dataLen k).1 data (sectorPart offset dataLen k).2.1
              (sectorPart offset dataLen k).2.2 j by
    unfold monitorNandWrite at ok ⊢
    rw [List.range_eq_range'] at ok ⊢
    have pages := loop _ 0 state ok
    rw [Nat.zero_add] at pages
    refine ⟨fun i below => (pages i (Nat.zero_le _) below).1, fun j inside => ?_⟩
    -- the page of a byte, and the place in it
    have below : (offset % 2048 + j) / 2048 < numberOfSectors offset dataLen := by
      rw [numberOfSectors_eq]
      omega
    obtain ⟨start, stop, place⟩ := sectorPart_spec below
    have addr : pageAddrOf (offset + j) = sectorAddr offset ((offset % 2048 + j) / 2048) := by
      simp only [pageAddrOf, sectorAddr, PAGE_SIZE]
      omega
    have inPage : (offset + j) % PAGE_SIZE < PAGE_SIZE := Nat.mod_lt _ (by decide)
    rw [addr, (pages _ (Nat.zero_le _) below).2 _ inPage, memcpy]
    have here : (sectorPart offset dataLen ((offset % 2048 + j) / 2048)).1 ≤
          (offset + j) % PAGE_SIZE ∧
        (offset + j) % PAGE_SIZE < (sectorPart offset dataLen ((offset % 2048 + j) / 2048)).1 +
          (sectorPart offset dataLen ((offset % 2048 + j) / 2048)).2.2 := by
      simp only [PAGE_SIZE]
      omega
    rw [if_pos here]
    congr 1
    simp only [PAGE_SIZE]
    omega
  intro count
  induction count with
  | zero => exact fun i state _ k first last => absurd last (by omega)
  | succ count past =>
      intro i state ok k first last
      rw [List.range'_succ] at ok ⊢
      unfold monitorWriteSectors at ok ⊢
      dsimp only at ok ⊢
      split_ifs at ok ⊢ with failed
      · exact absurd ok failed
      · rw [not_not] at failed
        rcases Nat.eq_or_lt_of_le first with rfl | later
        · -- the page was read back, and the later ones do not touch it
          have kept : ∀ state, monitorNandPhyPageRead chip (monitorWriteSectors chip offset data
              dataLen (List.range' (i + 1) count) state).2 (sectorAddr offset i) =
              monitorNandPhyPageRead chip state (sectorAddr offset i) := fun state =>
            monitorNandPhyPageRead_congr (monitorWriteSectors_other framed data (fun k member => by
              rw [pageNo_sectorAddr, pageNo_sectorAddr]
              have := (List.mem_range'_1.mp member).1
              omega) state)
          rw [kept]
          exact monitorNandPhyPageWrite_ok failed
        · exact past (i + 1) _ ok k later (by omega)

/-! ## Blocks -/

/-- A block holds a piece: every range of it is read. -/
def HoldsPiece (chip : Chip δ) (state : δ) (block : Nat) (piece : Buffer) (len2 : Nat) : Prop :=
  ∀ (off dataLen : Nat) (data : Buffer), off < len2 → off + dataLen ≤ len2 →
    (monitorNandRead chip state (block * BLOCK_SIZE + off) data dataLen).1 = 0 ∧ ∀ j < dataLen,
      (monitorNandRead chip state (block * BLOCK_SIZE + off) data dataLen).2 j = piece (off + j)

theorem monitorNandRead_block {state state' : δ} {block off dataLen : Nat} (data : Buffer)
    (same : SameBlock chip state state' block) (inside : off + dataLen ≤ BLOCK_SIZE) :
    monitorNandRead chip state (block * BLOCK_SIZE + off) data dataLen =
      monitorNandRead chip state' (block * BLOCK_SIZE + off) data dataLen :=
  monitorNandRead_congr data fun _ below => same _ (blockOfPage_sectorAddr inside below)

theorem flag_fits : MON_BLOCK_SIZE + flagLen ≤ BLOCK_SIZE := by
  have len : flagLen = 16 := rfl
  rw [len]
  decide

theorem isMarked_congr {state state' : δ} {block : Nat} (same : SameBlock chip state state' block) :
    isMarked chip state block = isMarked chip state' block :=
  congrArg isFlag (monitorNandRead_block _ same flag_fits)

theorem HoldsPiece.congr {state state' : δ} {block len2 : Nat} {piece : Buffer}
    (holds : HoldsPiece chip state block piece len2) (same : SameBlock chip state state' block)
    (short : len2 ≤ MON_BLOCK_SIZE) : HoldsPiece chip state' block piece len2 := by
  intro off dataLen data begins ends
  have inside : off + dataLen ≤ BLOCK_SIZE := by
    simp only [MON_BLOCK_SIZE, BLOCK_SIZE, PAGE_SIZE] at *
    omega
  rw [← monitorNandRead_block data same inside]
  exact holds off dataLen data begins ends

theorem monitorNandErase_other (framed : chip.PageFramed) (state : δ) {block other : Nat}
    (away : other ≠ block) : SameBlock chip (monitorNandErase chip state block).2 state other := by
  have tries : ∀ (tries : Nat) (state : δ),
      SameBlock chip (monitorEraseTries chip block tries state).2 state other := by
    intro tries
    induction tries with
    | zero => exact fun _ _ _ => rfl
    | succ tries past =>
        intro state
        have once : SameBlock chip (chip.blkErase state block) state other := fun pageAddr inside =>
          framed.erase _ _ _ (inside ▸ away)
        unfold monitorEraseTries
        dsimp only
        split_ifs
        · exact once
        · exact (past _).trans once
  unfold monitorNandErase
  split_ifs
  · exact fun _ _ => rfl
  · exact tries 3 state

theorem monitorNandWrite_otherBlock (framed : chip.PageFramed) (state : δ)
    {block off dataLen other : Nat} (data : Buffer) (inside : off + dataLen ≤ BLOCK_SIZE)
    (away : other ≠ block) :
    SameBlock chip (monitorNandWrite chip state (block * BLOCK_SIZE + off) data dataLen).2
      state other := by
  refine fun pageAddr inOther => monitorNandWrite_other framed state data fun i below same => ?_
  have here := blockOfPage_sectorAddr inside below
  rw [blockOfPage_eq, ← same, ← blockOfPage_eq, inOther] at here
  exact away here

theorem blockErased_ok (i : Nat) (piece : Buffer) (len2 : Nat) (state : δ) :
    blockErased chip i piece len2 (0, state) =
      blockWritten chip i (monitorNandWrite chip state (i * BLOCK_SIZE) piece len2) :=
  if_neg (not_not.mpr rfl)

theorem blockWritten_ok {i : Nat} {written : Int × δ} (ok : written.1 = 0) :
    blockWritten chip i written = blockMarked (monitorNandWrite chip written.2
      (i * BLOCK_SIZE + MON_BLOCK_SIZE) flagBuf flagLen) :=
  if_neg (not_not.mpr ok)

theorem blockMarked_fst (marked : Int × δ) : (blockMarked marked).1 = decide (marked.1 = 0) := rfl

theorem blockMarked_snd (marked : Int × δ) : (blockMarked marked).2 = marked.2 := rfl

theorem blockErased_other (framed : chip.PageFramed) {state : δ} {i len2 other : Nat}
    (piece : Buffer) (short : len2 ≤ MON_BLOCK_SIZE) (away : other ≠ i) (erased : Int × δ)
    (same : SameBlock chip erased.2 state other) :
    SameBlock chip (blockErased chip i piece len2 erased).2 state other := by
  have marked : ∀ marked : Int × δ, SameBlock chip marked.2 state other →
      SameBlock chip (blockMarked marked).2 state other := fun _ same => same
  have written : ∀ written : Int × δ, SameBlock chip written.2 state other →
      SameBlock chip (blockWritten chip i written).2 state other := by
    intro written same
    unfold blockWritten
    split_ifs
    · exact same
    · exact marked _ ((monitorNandWrite_otherBlock framed written.2 flagBuf flag_fits away).trans
        same)
  have short' : 0 + len2 ≤ BLOCK_SIZE := by
    rw [Nat.zero_add]
    exact short.trans (by decide)
  have data := monitorNandWrite_otherBlock framed erased.2 piece short' away
  rw [Nat.add_zero] at data
  unfold blockErased
  split_ifs
  · exact same
  · exact written _ (data.trans same)

theorem writeBlock_other (framed : chip.PageFramed) (state : δ) {i len2 other : Nat}
    (piece : Buffer) (short : len2 ≤ MON_BLOCK_SIZE) (away : other ≠ i) :
    SameBlock chip (writeBlock chip state i piece len2).2 state other :=
  blockErased_other framed piece short away _ (monitorNandErase_other framed state away)

theorem writeBlock_parts {state : δ} {i len2 : Nat} {piece : Buffer}
    (completed : (writeBlock chip state i piece len2).1 = true) :
    ∃ state₁ state₂ state₃, monitorNandWrite chip state₁ (i * BLOCK_SIZE) piece len2 = (0, state₂) ∧
      monitorNandWrite chip state₂ (i * BLOCK_SIZE + MON_BLOCK_SIZE) flagBuf flagLen =
        (0, state₃) ∧
      (writeBlock chip state i piece len2).2 = state₃ := by
  have marked : ∀ marked : Int × δ, (blockMarked marked).1 = true →
      marked = (0, (blockMarked marked).2) := fun marked is =>
    Prod.ext (of_decide_eq_true is) rfl
  have written : ∀ written : Int × δ, (blockWritten chip i written).1 = true →
      written.1 = 0 ∧ monitorNandWrite chip written.2 (i * BLOCK_SIZE + MON_BLOCK_SIZE) flagBuf
        flagLen = (0, (blockWritten chip i written).2) := by
    intro written is
    by_cases failed : written.1 ≠ 0
    · rw [blockWritten, if_pos failed] at is
      cases is
    · have through : blockWritten chip i written = blockMarked (monitorNandWrite chip written.2
          (i * BLOCK_SIZE + MON_BLOCK_SIZE) flagBuf flagLen) := if_neg failed
      rw [through] at is ⊢
      exact ⟨not_not.mp failed, marked _ is⟩
  have erased : ∀ erased : Int × δ, (blockErased chip i piece len2 erased).1 = true →
      (blockWritten chip i (monitorNandWrite chip erased.2 (i * BLOCK_SIZE) piece len2)).1 = true ∧
        (blockErased chip i piece len2 erased).2 =
          (blockWritten chip i (monitorNandWrite chip erased.2 (i * BLOCK_SIZE) piece len2)).2 := by
    intro erased is
    by_cases failed : erased.1 ≠ 0
    · rw [blockErased, if_pos failed] at is
      cases is
    · have through : blockErased chip i piece len2 erased = blockWritten chip i
          (monitorNandWrite chip erased.2 (i * BLOCK_SIZE) piece len2) := if_neg failed
      rw [through] at is ⊢
      exact ⟨is, rfl⟩
  obtain ⟨is, same⟩ := erased _ completed
  obtain ⟨ok, flag⟩ := written _ is
  exact ⟨_, _, _, Prod.ext ok rfl, flag, same⟩

/-- **A completed block.** A block that the writer did not pass over is marked, and holds its
piece. -/
theorem writeBlock_completes (framed : chip.PageFramed) {state : δ} {i len2 : Nat} {piece : Buffer}
    (short : len2 ≤ MON_BLOCK_SIZE) (completed : (writeBlock chip state i piece len2).1 = true) :
    isMarked chip (writeBlock chip state i piece len2).2 i = true ∧
      HoldsPiece chip (writeBlock chip state i piece len2).2 i piece len2 := by
  obtain ⟨state₁, state₂, state₃, write, mark, after⟩ := writeBlock_parts completed
  rw [after]
  have written := monitorNandWrite_ok framed (congrArg Prod.fst write)
  have marked := monitorNandWrite_ok framed (congrArg Prod.fst mark)
  have other : ∀ pageAddr, (∀ q < numberOfSectors (i * BLOCK_SIZE + MON_BLOCK_SIZE) flagLen,
      pageNo pageAddr ≠ pageNo (sectorAddr (i * BLOCK_SIZE + MON_BLOCK_SIZE) q)) → _ :=
    fun pageAddr => monitorNandWrite_other framed state₂ flagBuf
  rw [write] at written
  rw [mark] at marked other
  constructor
  · obtain ⟨ok, bytes⟩ := monitorNandRead_good (fun _ => 0) marked.1
    unfold isMarked isFlag
    rw [ok, (sameBytes_iff _ _ _).mpr fun j below => (bytes j below).trans (marked.2 j below)]
    rfl
  · -- the pages of a range of the piece were read back, and the mark is in another page
    have kept : ∀ p < numberOfSectors (i * BLOCK_SIZE) len2,
        monitorNandPhyPageRead chip state₃ (sectorAddr (i * BLOCK_SIZE) p) =
          monitorNandPhyPageRead chip state₂ (sectorAddr (i * BLOCK_SIZE) p) := by
      intro p below
      refine monitorNandPhyPageRead_congr (other _ fun q _ => ?_)
      rw [pageNo_sectorAddr, pageNo_sectorAddr]
      rw [numberOfSectors_eq] at below
      simp only [MON_BLOCK_SIZE, BLOCK_SIZE, PAGE_SIZE] at *
      omega
    intro off dataLen data begins ends
    have sector : ∀ p < numberOfSectors (i * BLOCK_SIZE + off) dataLen,
        sectorAddr (i * BLOCK_SIZE + off) p = sectorAddr (i * BLOCK_SIZE) (off / PAGE_SIZE + p) ∧
          off / PAGE_SIZE + p < numberOfSectors (i * BLOCK_SIZE) len2 := by
      intro p below
      rw [numberOfSectors_eq] at below ⊢
      simp only [sectorAddr, BLOCK_SIZE, PAGE_SIZE] at *
      omega
    obtain ⟨ok, bytes⟩ := monitorNandRead_good data fun p below => by
      rw [(sector p below).1, kept _ (sector p below).2]
      exact written.1 _ (sector p below).2
    refine ⟨ok, fun j below => ?_⟩
    rw [bytes j below, Nat.add_assoc]
    have place : pageAddrOf (i * BLOCK_SIZE + (off + j)) =
          sectorAddr (i * BLOCK_SIZE) ((off + j) / PAGE_SIZE) ∧
        (off + j) / PAGE_SIZE < numberOfSectors (i * BLOCK_SIZE) len2 := by
      rw [numberOfSectors_eq]
      simp only [pageAddrOf, sectorAddr, BLOCK_SIZE, PAGE_SIZE] at *
      omega
    rw [place.1, kept _ place.2, ← place.1]
    exact written.2 (off + j) (by omega)

end PosFirmware.Flash
