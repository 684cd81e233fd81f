import PosFirmware.Flash.Nand

/-! # The block map

The table `block_map` holds the physical block of every logical block below
`DATA_BLOCK_NUM`, the status of every reserve block, and the status of every
data block. Writes and erases that fail move a logical block to another physical
block, and the table is kept in two copies on the flash.
-/

namespace PosFirmware.Flash

open PosFirmware.Foundation

def RES_BLOCK_FREE : Ushort := 0x1F00
def RES_BLOCK_FREE_USED : Ushort := 0x1FA5
def RES_BLOCK_USED : Ushort := 0x20F0
def RES_BLOCK_BAD : Ushort := 0x300F
def RES_BLOCK_MAP : Ushort := 0x45A5

def NAND_WRITE_MAP_ERR : Int := -1001
def NAND_DATA_BLOCK_OVER : Int := -1005

/-- One past the last block a map copy is written to. -/
def MAP_BLOCK_MAX : Nat := FS_BLOCK_NUM + DATA_START_NUM + 4

/-- The number of entries of `block_map`. -/
def MAP_ENTRIES : Nat := DATA_START_NUM + DATA_BLOCK_NUM + FS_BLOCK_NUM

/-- The size of `block_map` in bytes. -/
def MAP_SIZE : Nat := 2 * MAP_ENTRIES

def RES_BLOCK_SIZE : Nat := 0x1000
def DATA_MAGIC_OFFSET : Nat := RES_BLOCK_SIZE - 0x40

/-- The mark of a map copy, with the byte that ends the string. -/
def DATA_BLOCK_MAGIC : List Byte :=
  "DATA_BLOCK_MAGIC".toList.map (fun char => BitVec.ofNat 8 char.toNat) ++ [0]

/-- The bytes of the mark. -/
def magicBytes : Buffer := fun i => DATA_BLOCK_MAGIC.getD i 0

/-- Blocks from one down to another. -/
def blocksDown (last first : Nat) : List Nat := (List.range' first (last + 1 - first)).reverse

theorem mem_blocksDown {last first i : Nat} :
    i ∈ blocksDown last first ↔ first ≤ i ∧ i ≤ last := by
  rw [blocksDown, List.mem_reverse, List.mem_range'_1]
  omega

variable {δ : Type} (chip : Chip δ)

/-! ## Map copies -/

/-- The bytes of a map copy: the table, its hash and the mark. -/
def mapImage (blockMap : Nat → Ushort) : Buffer :=
  let table : Buffer := fun i => (blockMap (i / 2)).extractLsb' (8 * (i % 2)) 8
  let hashBuf : Buffer := fun i => (chip.sha1 (bytesOf table MAP_SIZE)).getD i 0
  let pageBufWr := memcpy (fun _ => 0) 0 table 0 MAP_SIZE
  let pageBufWr := memcpy pageBufWr MAP_SIZE hashBuf 0 32
  memcpy pageBufWr DATA_MAGIC_OFFSET magicBytes 0 DATA_BLOCK_MAGIC.length

/-- The table read from a map copy. -/
def mapOfImage (pageBuf : Buffer) : Nat → Ushort := fun i =>
  pageBuf (2 * i + 1) ++ pageBuf (2 * i)

/-- The bytes read from a block as a map copy. -/
def mapCopy (nand : Nand δ) (block : Nat) : Buffer :=
  (sNandRead chip nand (block * BLOCK_SIZE) RES_BLOCK_SIZE).2

/-- Write the map into a block and read it back. -/
def sWriteMapBlock (nand : Nand δ) (mapBlock : Nat) : Int × Nand δ :=
  let pageBufWr := mapImage chip nand.blockMap
  let written := sNandWrite chip nand (mapBlock * BLOCK_SIZE) pageBufWr RES_BLOCK_SIZE
  let pageBufRd := mapCopy chip written.2 mapBlock
  (if sameBytes pageBufWr pageBufRd RES_BLOCK_SIZE then NAND_RET_OK else NAND_WRITE_MAP_ERR,
    written.2)

/-- Whether a block carries the mark of a map copy. -/
def hasMagic (nand : Nand δ) (block : Nat) : Bool :=
  sameBytes (sNandRead chip nand (block * BLOCK_SIZE + DATA_MAGIC_OFFSET)
    DATA_BLOCK_MAGIC.length).2 magicBytes DATA_BLOCK_MAGIC.length

/-- The first two marked blocks, searched from a block down. -/
def searchMapBlocks (nand : Nand δ) (last : Nat) : List Nat :=
  ((blocksDown last (FS_BLOCK_NUM + DATA_START_NUM)).filter (hasMagic chip nand)).take 2

/-- Whether the hash in a map copy is that of its table. -/
def mapHashOk (pageBuf : Buffer) : Bool :=
  let hashBuf : Buffer := fun i => (chip.sha1 (bytesOf pageBuf MAP_SIZE)).getD i 0
  sameBytes hashBuf (fun i => pageBuf (MAP_SIZE + i)) 20

/-- The block that is loaded of the marked blocks found. -/
def selectCopy (copies : Nat → Buffer) : List Nat → Option Nat
  | [] => none
  | blockA :: blockB =>
      let pageBufA := copies blockA
      -- with one marked block the second buffer is filled with junk
      let pageBufB : Buffer := match blockB with
        | [] => fun _ => 0x12
        | blockB :: _ => copies blockB
      if sameBytes pageBufA pageBufB (MAP_SIZE + 20) then
        if mapHashOk chip pageBufA then some blockA else none
      else if mapHashOk chip pageBufA then some blockA
      else match blockB with
        | [] => none
        | blockB :: _ => if mapHashOk chip pageBufB then some blockB else none

/-- The block whose map copy is loaded, if any is. -/
def selectMapBlock (nand : Nand δ) : Option Nat :=
  selectCopy chip (mapCopy chip nand)
    (searchMapBlocks chip nand (DATA_BLOCK_NUM + DATA_START_NUM - 1))

/-! ## Writing both copies -/

/-- Erase a block and write the map into it, three times at most. -/
def eraseAndWriteMap (block : Nat) : Prog (Nand δ) (Option Unit) :=
  Prog.firstM (fun _ => do
    let _ ← Prog.step fun nand => sNandErase chip nand block
    let ret ← Prog.step fun nand => sWriteMapBlock chip nand block
    pure (if ret = NAND_RET_OK then some () else none)) (List.range 3)

/-- Write the map into the first block from one on that takes it. -/
def writeMapFrom (first : Nat) : Prog (Nand δ) (Option Nat) :=
  Prog.firstM (fun i => do
    match ← eraseAndWriteMap chip i with
    | some _ => pure (some i)
    | none => do
        let _ ← Prog.step fun nand => sNandErase chip nand i
        pure none) (List.range' first (MAP_BLOCK_MAX - first))

/-- Replace the other copy, or write it after the copy just written. -/
def rewriteMapBlock (step2 block : Nat) : Prog (Nand δ) Int := do
  match ← eraseAndWriteMap chip block with
  | some _ => pure NAND_RET_OK
  | none => do
      let _ ← Prog.step fun nand => sNandErase chip nand block
      match ← writeMapFrom chip (step2 + 1) with
      | some _ => pure NAND_RET_OK
      | none => Prog.halt

/-- Write the map into a block after the only marked one. With no block left the
loop is not entered, its counter is not 3, and nothing was written. -/
def writeMapAfter (blockAStep : Nat) : Prog (Nand δ) Nat := do
  match ← writeMapFrom chip (blockAStep + 1) with
  | some i => pure i
  | none => if blockAStep + 1 < MAP_BLOCK_MAX then Prog.halt else pure (blockAStep + 1)

/-- Replace both map copies on the flash. -/
def sReMapBlock : Prog (Nand δ) Int := do
  match ← Prog.read fun nand => searchMapBlocks chip nand (MAP_BLOCK_MAX - 1) with
  | [] => Prog.halt
  | [blockAStep] => do
      let step2 ← writeMapAfter chip blockAStep
      rewriteMapBlock chip step2 blockAStep
  | blockAStep :: blockBStep :: _ => do
      match ← writeMapFrom chip blockAStep with
      | some step2 => rewriteMapBlock chip step2 blockBStep
      | none => Prog.halt

/-! ## The table of a new file system -/

/-- The table of a new file system: every logical block is its own physical
block. -/
def freshMap : Nat → Ushort := fun i =>
  if i < FS_BLOCK_NUM + DATA_START_NUM then BitVec.ofNat 16 i
  else if i < MAP_BLOCK_MAX then RES_BLOCK_MAP
  else if i < DATA_BLOCK_NUM + DATA_START_NUM then RES_BLOCK_FREE
  else RES_BLOCK_USED

/-- Write the first copies of the table: each block is tried three times. -/
def createMapCopy (first : Nat) : Prog (Nand δ) (Option Nat) :=
  Prog.firstM (fun i => Prog.firstM (fun _ => do
    let ret ← Prog.step fun nand => sWriteMapBlock chip nand i
    if ret = NAND_RET_OK then pure (some i)
    else do
      let _ ← Prog.step fun nand => sNandErase chip nand i
      pure none) (List.range 3)) (List.range' first (MAP_BLOCK_MAX - first))

/-- Erase the reserve blocks and start with a new table. -/
def sCreateBlockMapTable : Prog (Nand δ) Unit := do
  Prog.modify fun nand =>
    { (List.range' (FS_BLOCK_NUM + DATA_START_NUM) RESERVE_BLOCK_NUM).foldl
        (fun nand i => (sNandErase chip nand i).2) nand with blockMap := freshMap }
  match ← createMapCopy chip (FS_BLOCK_NUM + DATA_START_NUM) with
  | none => Prog.halt
  | some i =>
      if MAP_BLOCK_MAX - 1 ≤ i then Prog.halt
      else do
        match ← createMapCopy chip (i + 1) with
        | none => Prog.halt
        | some _ => pure ()

/-- Load the table at power on. -/
def sLoadBlockMapTable : Prog (Nand δ) Unit := do
  match ← Prog.read fun nand => selectMapBlock chip nand with
  | none => sCreateBlockMapTable chip
  | some block =>
      Prog.modify fun nand => { nand with blockMap := mapOfImage (mapCopy chip nand block) }

/-! ## Replacing blocks -/

/-- The place of a physical block's status in the table. -/
def statusIndex (phyBlock : Nat) : Nat :=
  if DATA_START_NUM + FS_BLOCK_NUM < phyBlock then phyBlock else DATA_BLOCK_NUM + phyBlock

/-- Set one entry of the table. -/
def Nand.setMap (nand : Nand δ) (i : Nat) (value : Ushort) : Nand δ :=
  { nand with blockMap := Function.update nand.blockMap i value }

/-- Make the blocks given back free again, and count them. -/
@[irreducible] def sRecycleFreeBlock (nand : Nand δ) : Nat × Nand δ :=
  let freed i := decide (DATA_START_NUM + FS_BLOCK_NUM ≤ i ∧ i < MAP_ENTRIES ∧
    nand.blockMap i = RES_BLOCK_FREE_USED)
  ((List.range MAP_ENTRIES).countP freed,
    { nand with blockMap := fun i => if freed i then RES_BLOCK_FREE else nand.blockMap i })

/-- How the search of a reserve block ends. -/
inductive ReserveSearch where
  | replaced
  | again
  deriving DecidableEq

/-- Give a block to a logical block if it is free, and try it; a block that fails
is marked bad. -/
def takeBlock (logicBlock status newBlockNum : Nat) (try_ : Prog (Nand δ) Bool) :
    Prog (Nand δ) Bool := do
  if (← Prog.read fun nand : Nand δ => nand.blockMap status) ≠ RES_BLOCK_FREE then pure false
  else do
    Prog.modify fun nand =>
      (nand.setMap logicBlock (BitVec.ofNat 16 newBlockNum)).setMap status RES_BLOCK_USED
    if ← try_ then pure true
    else do
      Prog.modify fun nand => nand.setMap status RES_BLOCK_BAD
      pure false

/-- Search the reserve blocks from the last one down for one that can be used.
Without a value the search has to be restarted, as blocks were recycled. -/
def searchReserve (logicBlock : Nat) (try_ : Nat → Prog (Nand δ) Bool) :
    Prog (Nand δ) (Option Unit) := do
  let ending ← Prog.firstM (fun i => do
    if i < MAP_BLOCK_MAX then do
      let recycled ← Prog.step sRecycleFreeBlock
      if 0 < recycled then pure (some ReserveSearch.again) else Prog.halt
    else if ← takeBlock logicBlock i i (try_ i) then pure (some .replaced) else pure none)
    (blocksDown (DATA_START_NUM + DATA_BLOCK_NUM - 1) (DATA_START_NUM + FS_BLOCK_NUM))
  pure (if ending = some .again then none else some ())

/-- Erase a block and see whether it reads as erased. -/
def eraseIdle (block : Nat) : Prog (Nand δ) Bool := do
  let _ ← Prog.step fun nand => sNandErase chip nand block
  Prog.read fun nand =>
    sameBytes (sNandRead chip nand (block * BLOCK_SIZE) BLOCK_SIZE).2 idleBytes BLOCK_SIZE

/-- Move a logical block that could not be erased to a reserve block. The search
is restarted once at most. -/
def sNandExchangeBlock (logicBlock : Nat) : Prog (Nand δ) Int := do
  Prog.retry (searchReserve logicBlock (eraseIdle chip)) 2
  sReMapBlock chip

/-- The blocks a range of bytes touches. -/
def blocksOf (offset size : Nat) : List Nat :=
  let last := (offset + size) % 2 ^ 32
  let endBlockNum := last / BLOCK_SIZE + if last % BLOCK_SIZE ≠ 0 then 1 else 0
  List.range' (offset / BLOCK_SIZE) (endBlockNum - offset / BLOCK_SIZE)

/-- Erase a block up to three times; a block listed as bad is not tried again. -/
def eraseTries (block : Nat) : Prog (Nand δ) (Option Unit) := do
  let ret ← Prog.step fun nand => sNandErase chip nand block
  let idle ← Prog.read fun nand =>
    sameBytes (sNandRead chip nand (block * BLOCK_SIZE) BLOCK_SIZE).2 idleBytes BLOCK_SIZE
  if ret ≠ 0 then pure none
  else if idle then pure (some ())
  else Prog.firstM (fun _ => do
    if ← eraseIdle chip block then pure (some ()) else pure none) (List.range 2)

/-- Erase one logical block; the loop of `nand_erase` is left when the erase
succeeds. -/
def nandEraseBlock (i : Nat) : Prog (Nand δ) (Option Unit) := do
  let blockPhyNum ← Prog.read fun nand : Nand δ => (nand.blockMap i).toNat
  if DATA_START_NUM + FS_BLOCK_NUM < blockPhyNum ∧ blockPhyNum < MAP_BLOCK_MAX then Prog.halt
  else do
    match ← eraseTries chip blockPhyNum with
    | some _ => pure (some ())
    | none => do
        Prog.modify fun nand => nand.setMap (statusIndex blockPhyNum) RES_BLOCK_BAD
        let _ ← sNandExchangeBlock chip i
        pure none

/-- Erase the blocks of a range. -/
def nandErase (offset size : Nat) : Prog (Nand δ) Int := do
  if (DATA_START_NUM + FS_BLOCK_NUM) * BLOCK_SIZE < (offset + size) % 2 ^ 32 then Prog.halt
  else do
    let _ ← Prog.firstM (nandEraseBlock chip) (blocksOf offset size)
    pure NAND_RET_OK

/-! ## Writing with replacement -/

/-- The contents a logical block shall have after a write that failed, and the
pages of it that hold data. -/
def blockContents (nand : Nand δ) (phyBlockNum offset : Nat) (data : Buffer) (dataLen : Nat) :
    Buffer × (Nat → Bool) :=
  let inData i := decide (offset ≤ i ∧ i < offset + dataLen)
  let readBack := (sNandRead chip nand (phyBlockNum * BLOCK_SIZE + offset) dataLen).2
  let blockBuff := memcpy (memcpy chip.stackBuf 0 readBack 0 dataLen) offset data 0 dataLen
  let page i := (sNandRead chip nand (phyBlockNum * BLOCK_SIZE + i) PAGE_SIZE).2
  let blockBuff := (List.range BLOCK_PAGES).foldl (fun blockBuff k =>
    if inData (k * PAGE_SIZE) then blockBuff
    else memcpy blockBuff (k * PAGE_SIZE) (page (k * PAGE_SIZE)) 0 PAGE_SIZE) blockBuff
  let spare i := chip.pageRd nand.chip ((phyBlockNum * BLOCK_SIZE + i) * 2)
  (blockBuff, fun k => inData (k * PAGE_SIZE) ||
    !sameBytes (page (k * PAGE_SIZE)) idleBytes PAGE_SIZE ||
    !sameBytes (fun i => spare (k * PAGE_SIZE) (PAGE_SIZE + i)) idleBytes 64)

/-- Write the pages that hold data into a block, three times at most. -/
def copyToBlock (blockBuff : Buffer) (idlePage : Nat → Bool) (newBlockNum : Nat) :
    Prog (Nand δ) Bool := do
  let written ← Prog.firstM (fun _ => do
    let _ ← Prog.step fun nand => sNandErase chip nand newBlockNum
    let differs ← Prog.firstM (fun k =>
      if idlePage k = false then pure none
      else do
        let page : Buffer := fun i => blockBuff (k * PAGE_SIZE + i)
        let _ ← Prog.step fun nand =>
          sNandWrite chip nand (newBlockNum * BLOCK_SIZE + k * PAGE_SIZE) page PAGE_SIZE
        Prog.read fun nand =>
          if sameBytes (sNandRead chip nand (newBlockNum * BLOCK_SIZE + k * PAGE_SIZE)
            PAGE_SIZE).2 page PAGE_SIZE then none else some ()) (List.range BLOCK_PAGES)
    pure (if differs.isNone then some () else none)) (List.range 3)
  pure written.isSome

/-- Move a logical block to a free data block. -/
def sReuseDataBlock (logicBlock : Nat) (data : Buffer) (idlePage : Nat → Bool) :
    Prog (Nand δ) Int := do
  let reused ← Prog.firstM (fun i => do
    if ← takeBlock logicBlock i (i - DATA_BLOCK_NUM)
      (copyToBlock chip data idlePage (i - DATA_BLOCK_NUM)) then pure (some ())
    else pure none)
    (List.range' (DATA_START_NUM + DATA_BLOCK_NUM) FS_BLOCK_NUM)
  pure (if reused.isSome then NAND_RET_OK else NAND_DATA_BLOCK_OVER)

/-- The search of `s_write_read` for another block. Without a value it has to be
restarted, as blocks were recycled. -/
def searchBlock (logicBlock : Nat) (blockBuff : Buffer) (idlePage : Nat → Bool) :
    Prog (Nand δ) (Option Unit) := do
  if (← sReuseDataBlock chip logicBlock blockBuff idlePage) = NAND_RET_OK then pure (some ())
  else searchReserve logicBlock (copyToBlock chip blockBuff idlePage)

/-- Write a part of a logical block, and move the block when the write fails. The
search is restarted once at most. -/
def sWriteRead (logicBlock offset : Nat) (data : Buffer) (dataLen : Nat) :
    Prog (Nand δ) Int := do
  if BLOCK_SIZE < dataLen then Prog.halt
  else do
    let phyBlockNum ← Prog.read fun nand : Nand δ => (nand.blockMap logicBlock).toNat
    let _ ← Prog.step fun nand =>
      sNandWrite chip nand (phyBlockNum * BLOCK_SIZE + offset) data dataLen
    let (ret, readBack) ← Prog.read fun nand =>
      sNandRead chip nand (phyBlockNum * BLOCK_SIZE + offset) dataLen
    if (ret = NAND_RET_OK ∨ ret = 0x11) ∧ sameBytes data readBack dataLen then pure NAND_RET_OK
    else do
      let (blockBuff, idlePage) ← Prog.read fun nand =>
        blockContents chip nand phyBlockNum offset data dataLen
      Prog.retry (searchBlock chip logicBlock blockBuff idlePage) 2
      Prog.modify fun nand => nand.setMap (statusIndex phyBlockNum) RES_BLOCK_FREE_USED
      let _ ← sReMapBlock chip
      pure NAND_RET_OK

/-- The blocks of a write, with what was written and what is left. -/
def nandWriteLoop (startBlockNum blockOffset : Nat) (data : Buffer) :
    List Nat → Nat → Nat → Prog (Nand δ) Int
  | [], _, _ => pure NAND_RET_OK
  | logicBlock :: rest, done, dataLen =>
      let part : Buffer := fun i => data (done + i)
      let first := if logicBlock = startBlockNum then blockOffset else 0
      if (dataLen + first) % 2 ^ 32 ≤ BLOCK_SIZE then
        sWriteRead chip logicBlock first part dataLen
      else do
        let ret ← sWriteRead chip logicBlock first part (BLOCK_SIZE - first)
        if ret ≠ NAND_RET_OK then pure ret
        else
          nandWriteLoop startBlockNum blockOffset data rest (done + (BLOCK_SIZE - first))
            (dataLen - (BLOCK_SIZE - first))

/-- Write a range of bytes. -/
def nandWrite (offset : Nat) (data : Buffer) (dataLen : Nat) : Prog (Nand δ) Int := do
  if (DATA_START_NUM + FS_BLOCK_NUM) * BLOCK_SIZE < (offset + dataLen) % 2 ^ 32 then Prog.halt
  else
    nandWriteLoop chip (offset / BLOCK_SIZE) (offset % BLOCK_SIZE) data
      (blocksOf offset dataLen) 0 dataLen

end PosFirmware.Flash
