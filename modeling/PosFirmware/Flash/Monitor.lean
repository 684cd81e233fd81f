import PosFirmware.Flash.Nand

/-! # The image of the monitor

`WriteMonitor` and `ReadMonitor` of `filepublic.c`. The image is cut into pieces, one for each
block that can be erased and programmed; the last page of such a block marks it as valid. The
writer passes over the blocks that fail, the reader over those without the mark.
-/

namespace PosFirmware.Flash

/-! ## Layout -/

def MONITOR_BASE_ADDR : Nat := 0x80000
def MONITOR_END_ADDR : Nat := 0x400000
def MON_BLOCK_SIZE : Nat := BLOCK_SIZE - PAGE_SIZE
def FTO_RET_OK : Int := 0
def FTO_RET_WRITE_FILE_ERR : Int := -7
def FTO_RET_PARAM_ERR : Int := -12

/-- `MON_BLOCK_VALID_FLAG`, the text `MON VALID BLOCK!`. -/
def monBlockValidFlag : List Byte :=
  [0x4D, 0x4F, 0x4E, 0x20, 0x56, 0x41, 0x4C, 0x49, 0x44, 0x20, 0x42, 0x4C, 0x4F, 0x43, 0x4B, 0x21]

/-- The flag as a buffer. -/
def flagBuf : Buffer := fun i => monBlockValidFlag.getD i 0

/-- `strlen(MON_BLOCK_VALID_FLAG)`. -/
def flagLen : Nat := monBlockValidFlag.length

/-! ## Pages and blocks -/

variable {δ : Type} (chip : Chip δ)

/-- `check_bad_block`: every byte of the block is erased. -/
def checkBadBlock (state : δ) (blockNum : Nat) : Int :=
  if ∀ i < BLOCK_SIZE / PAGE_SIZE, ∀ j < PAGE_SIZE + 64,
      chip.pageRd state ((blockNum * BLOCK_SIZE + i * PAGE_SIZE) * 2) j = 0xFF then 0
  else -1

/-- The loop of `monitor_nand_erase`. -/
def monitorEraseTries (blockNum : Nat) : (tries : Nat) → δ → Int × δ
  | 0, state => (-1, state)
  | tries + 1, state =>
      let state := chip.blkErase state blockNum
      if checkBadBlock chip state blockNum = 0 then (0, state)
      else monitorEraseTries blockNum tries state

/-- `monitor_nand_erase`. -/
def monitorNandErase (state : δ) (blockNum : Nat) : Int × δ :=
  if MONITOR_END_ADDR / BLOCK_SIZE ≤ blockNum then (-2, state)
  else monitorEraseTries chip blockNum 3 state

/-- The pages that the monitor may use. -/
def outsideMonitor (pageAddr : Nat) : Prop :=
  pageAddr < MONITOR_BASE_ADDR * 2 ∨ MONITOR_END_ADDR * 2 < pageAddr

instance (pageAddr : Nat) : Decidable (outsideMonitor pageAddr) :=
  inferInstanceAs (Decidable (_ ∨ _))

/-- `monitor_nand_phy_page_read`. With a negative result nothing is delivered. -/
def monitorNandPhyPageRead (state : δ) (pageAddr : Nat) : Int × Buffer :=
  if outsideMonitor pageAddr then (-1, fun _ => 0)
  else
    let rbuf := chip.pageRd state pageAddr
    -- an empty block is not corrected
    if ∀ i < 64, rbuf (PAGE_SIZE + i) = 0xFF then (0, rbuf)
    else
      match eccCorrect chip.sha1 (wordsOf rbuf) with
      | (ret, some dataout) => (ret, byteAt dataout)
      | (ret, none) => (ret, fun _ => 0)

/-- `monitor_nand_phy_page_write`: the page is read back. -/
def monitorNandPhyPageWrite (state : δ) (pageAddr : Nat) (src : Buffer) : Int × δ :=
  if outsideMonitor pageAddr then (-2, state)
  else
    let state := chip.pagePrg state pageAddr (pageImage chip src) (PAGE_SIZE + 64)
    let (ret, rbuf) := monitorNandPhyPageRead chip state pageAddr
    if ret ≠ 0 ∨ ¬ sameBytes src rbuf PAGE_SIZE then (-1, state) else (0, state)

/-! ## Byte ranges -/

/-- The loop of `monitor_nand_read`. -/
def monitorReadSectors (state : δ) (offset dataLen : Nat) : List Nat → Buffer → Int × Buffer
  | [], data => (0, data)
  | i :: rest, data =>
      let (start, done, len) := sectorPart offset dataLen i
      let (ret, rbuf) := monitorNandPhyPageRead chip state (sectorAddr offset i)
      if ret < 0 then (ret, data)
      else
        let data := memcpy data done rbuf start len
        if i ≠ 0 ∧ i = numberOfSectors offset dataLen - 1 then (ret, data)
        else monitorReadSectors state offset dataLen rest data

/-- `monitor_nand_read`. -/
def monitorNandRead (state : δ) (offset : Nat) (data : Buffer) (dataLen : Nat) : Int × Buffer :=
  monitorReadSectors chip state offset dataLen (List.range (numberOfSectors offset dataLen)) data

/-- The loop of `monitor_nand_write`. -/
def monitorWriteSectors (offset : Nat) (data : Buffer) (dataLen : Nat) : List Nat → δ → Int × δ
  | [], state => (0, state)
  | i :: rest, state =>
      let (start, done, len) := sectorPart offset dataLen i
      let (ret, state) := monitorNandPhyPageWrite chip state (sectorAddr offset i)
        (memcpy idleBytes start data done len)
      if ret ≠ 0 then (ret, state) else monitorWriteSectors offset data dataLen rest state

/-- `monitor_nand_write`. -/
def monitorNandWrite (state : δ) (offset : Nat) (data : Buffer) (dataLen : Nat) : Int × δ :=
  monitorWriteSectors chip offset data dataLen (List.range (numberOfSectors offset dataLen)) state

/-! ## The writer -/

/-- A block after its mark was written. -/
def blockMarked (marked : Int × δ) : Bool × δ := (marked.1 = 0, marked.2)

/-- A block after its piece was written: it is marked. -/
def blockWritten (i : Nat) (written : Int × δ) : Bool × δ :=
  if written.1 ≠ 0 then (false, written.2)
  else
    blockMarked (monitorNandWrite chip written.2 (i * BLOCK_SIZE + MON_BLOCK_SIZE) flagBuf flagLen)

/-- A block after it was erased: the piece is written. -/
def blockErased (i : Nat) (piece : Buffer) (len2 : Nat) (erased : Int × δ) : Bool × δ :=
  if erased.1 ≠ 0 then (false, erased.2)
  else blockWritten chip i (monitorNandWrite chip erased.2 (i * BLOCK_SIZE) piece len2)

/-- The body of the loop of `WriteMonitor`: one block is erased, filled with a piece and
marked. Where a part fails, the block is passed over. -/
def writeBlock (state : δ) (i : Nat) (piece : Buffer) (len2 : Nat) : Bool × δ :=
  blockErased chip i piece len2 (monitorNandErase chip state i)

/-- The length of the next piece. -/
def pieceLen (len : Nat) : Nat := if len > MON_BLOCK_SIZE then MON_BLOCK_SIZE else len

/-- The loop of `WriteMonitor`, with `left` blocks to go, at byte `pos` of the image. -/
def writeBlocks (image : Buffer) (blockNum : Nat) :
    (left : Nat) → δ → (cnt pos len : Nat) → Int × δ
  | 0, state, cnt, _, _ =>
      if cnt < blockNum then (FTO_RET_WRITE_FILE_ERR, state) else (FTO_RET_OK, state)
  | left + 1, state, cnt, pos, len =>
      if cnt < blockNum then
        let block := writeBlock chip state (MONITOR_END_ADDR / BLOCK_SIZE - (left + 1))
          (fun i => image (pos + i)) (pieceLen len)
        if block.1 then
          writeBlocks image blockNum left block.2 (cnt + 1) (pos + pieceLen len)
            (len - pieceLen len)
        else writeBlocks image blockNum left block.2 cnt pos len
      else (FTO_RET_OK, state)

/-- The blocks that the writer goes over, from `MONITOR_BASE_ADDR` on. -/
def MONITOR_BLOCKS : Nat := MONITOR_END_ADDR / BLOCK_SIZE - MONITOR_BASE_ADDR / BLOCK_SIZE

/-- The number of pieces of an image. -/
def monitorBlocks (len : Nat) : Nat :=
  len / MON_BLOCK_SIZE + if len % MON_BLOCK_SIZE = 0 then 0 else 1

/-- `WriteMonitor`. `securityLevel` is what `GetFileBinInfo` finds in the image. -/
def writeMonitor (bootSecLevel : Nat) (securityLevel : Buffer → Nat → Nat) (state : δ)
    (image : Buffer) (len : Nat) : Int × δ :=
  if bootSecLevel ≠ 0 ∧ securityLevel image len < bootSecLevel then (FTO_RET_PARAM_ERR, state)
  else
    writeBlocks chip image (monitorBlocks len) MONITOR_BLOCKS state 0 0 len

/-! ## The reader -/

/-- The flag was read. -/
def isFlag (buff : Int × Buffer) : Bool := buff.1 = 0 && sameBytes buff.2 flagBuf flagLen

/-- The block is marked, as `ReadMonitor` finds it. -/
def isMarked (state : δ) (block : Nat) : Bool :=
  isFlag (monitorNandRead chip state (block * BLOCK_SIZE + MON_BLOCK_SIZE) (fun _ => 0) flagLen)

/-- The first loop of `ReadMonitor`: the marked block of a number, and the blocks behind it. -/
def findBlock (state : δ) : List Nat → (i : Nat) → Option (Nat × List Nat)
  | [], _ => none
  | block :: rest, i =>
      if isMarked chip state block then
        match i with
        | 0 => some (block, rest)
        | i + 1 => findBlock state rest i
      else findBlock state rest i

/-- The data after a part of them was read to byte `pos`. -/
def withPart (data : Buffer) (pos len : Nat) (part : Int × Buffer) : Int × Buffer :=
  (part.1, memcpy data pos part.2 0 len)

/-- What is read after a part, unless the part failed. -/
def readOn (part : Int × Buffer) (rest : Buffer → Int × Buffer) : Int × Buffer :=
  if part.1 ≠ 0 then part else rest part.2

/-- The second loop of `ReadMonitor`, at byte `pos` of the data. -/
def readBlocks (state : δ) : List Nat → (pos : Nat) → Buffer → (dataLen : Nat) → Int × Buffer
  | [], _, data, _ => (0, data)
  | block :: rest, pos, data, dataLen =>
      if isMarked chip state block then
        if dataLen > MON_BLOCK_SIZE then
          readOn
            (withPart data pos MON_BLOCK_SIZE (monitorNandRead chip state (block * BLOCK_SIZE)
              (fun i => data (pos + i)) MON_BLOCK_SIZE))
            fun data => readBlocks state rest (pos + MON_BLOCK_SIZE) data
              (dataLen - MON_BLOCK_SIZE)
        else
          withPart data pos dataLen (monitorNandRead chip state (block * BLOCK_SIZE)
            (fun i => data (pos + i)) dataLen)
      else readBlocks state rest pos data dataLen

/-- The blocks that `ReadMonitor` goes over. -/
def monitorRange : List Nat :=
  List.range' (MONITOR_BASE_ADDR / BLOCK_SIZE) (DATA_START_NUM - MONITOR_BASE_ADDR / BLOCK_SIZE)

/-- `ReadMonitor` after its first loop. -/
def readFrom (state : δ) (off : Nat) (data : Buffer) (dataLen : Nat) :
    Option (Nat × List Nat) → Int × Buffer
  | none => (-2, data)
  | some (block, rest) =>
      if dataLen + off ≤ MON_BLOCK_SIZE then
        monitorNandRead chip state (block * BLOCK_SIZE + off) data dataLen
      else
        readOn
          (monitorNandRead chip state (block * BLOCK_SIZE + off) data (MON_BLOCK_SIZE - off))
          fun data => readBlocks chip state rest (MON_BLOCK_SIZE - off) data
            (dataLen - (MON_BLOCK_SIZE - off))

/-- `ReadMonitor`, from an address that is not below `MONITOR_BASE_ADDR`. -/
def readMonitor (state : δ) (addr : Nat) (data : Buffer) (dataLen : Nat) : Int × Buffer :=
  readFrom chip state ((addr - MONITOR_BASE_ADDR) % MON_BLOCK_SIZE) data dataLen
    (findBlock chip state monitorRange ((addr - MONITOR_BASE_ADDR) / MON_BLOCK_SIZE))

end PosFirmware.Flash
