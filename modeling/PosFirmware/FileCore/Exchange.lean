import PosFirmware.FileCore.Log

/-! # Pages: allocation and recycling

A page that was given up is marked `USED_BLOCK`. Such pages become free when their sector
is copied into the exchange sector, which is always erased, and takes its place;
`s_RecycleBlocks` does this with the sector that has most of them.
-/

namespace PosFirmware.FileCore

open PosFirmware.Foundation

variable {D : Type}

/-! ## Allocation -/

def Tables.getFreeBlock (tables : Tables) : Tables :=
  { tables with
    kFreePagePtr := tables.kFAT tables.kFreePagePtr
    kFreePageNum := ushort (tables.kFreePageNum - 1) }

def sGetFreeBlock : Prog (Fs D) Nat := do
  let tmpBlock ← Prog.read fun fs => fs.tables.kFreePagePtr
  onTables Tables.getFreeBlock
  pure tmpBlock

/-- A page taken out of the list of free pages, behind another or at its head. -/
def Tables.unlink (tables : Tables) (upPtr page : Nat) : Tables :=
  let counted := { tables with
    kUsedPageNum := ushort (tables.kUsedPageNum + 1)
    kFreePageNum := ushort (tables.kFreePageNum - 1) }
  if page = tables.kFreePagePtr then
    { counted with kFreePagePtr := tables.kFAT page }.setFAT page USED_BLOCK
  else
    (counted.setFAT upPtr (tables.kFAT page)).setFAT page USED_BLOCK

/-- `s_CheckUsedBlock` from a page of the list on: pages that hold data are taken out. -/
def checkUsedFrom (board : Board D) : Nat → Nat → Nat → Prog (Fs D) Unit
  | 0, _, _ => pure ()
  | count + 1, upPtr, tmpPtr =>
      if tmpPtr = NULL_BLOCK then pure ()
      else do
        let page ← sReadFlash board (pageAddr tmpPtr) PAGE_SIZE
        let before ← tables
        if page.any (· ≠ 0xFF) then
          onTables fun tables => tables.unlink upPtr tmpPtr
          let after ← tables
          if tmpPtr = before.kFreePagePtr then
            checkUsedFrom board count upPtr after.kFreePagePtr
          else
            checkUsedFrom board count upPtr (after.kFAT upPtr)
        else
          checkUsedFrom board count tmpPtr (before.kFAT tmpPtr)

def sCheckUsedBlock (board : Board D) (blockNum : Int) : Prog (Fs D) Unit := do
  let start ← Prog.read fun fs => fs.tables.kFreePagePtr
  checkUsedFrom board blockNum.toNat board.strayPage start

/-! ## Exchange of a sector -/

/-- The number of a sector of the data area. -/
def sectorOf (addr : Nat) : Nat := ulong (addr - DATA_ADDR) / DATA_SECTOR_SIZE

/-- Whether a page lies in the sector that starts with another. -/
def inSector (sBlkTop page : Nat) : Bool := sBlkTop ≤ page ∧ page < sBlkTop + BLOCK_PAGES

/-- The slice of `k_FAT` of one sector, copied over that of another. -/
def copySector (fat : Nat → Nat) (dBlkTop sBlkTop : Nat) : Nat → Nat := fun page =>
  if inSector dBlkTop page then fat (sBlkTop + (page - dBlkTop)) else fat page

/-- The entries outside a sector that point into it, moved. -/
def moveLinks (board : Board D) (fat : Nat → Nat) (sSecNo : Nat) (move : Nat → Nat) :
    Nat → Nat := fun page =>
  if page < ALL_PAGES board ∧ page / BLOCK_PAGES ≠ sSecNo ∧
      inSector (sSecNo * BLOCK_PAGES) (fat page) then
    move (fat page)
  else
    fat page

/-- The pointers of files and open handles into a sector, moved. -/
def Tables.moveFiles (tables : Tables) (sBlkTop : Nat) (move : Nat → Nat) : Tables :=
  let moved := fun page => if inSector sBlkTop page then move page else page
  let named := fun fd => fd < MAX_FILES ∧ (tables.kFlist fd).fileName.headD 0 ≠ 0
  { tables with
    kFlist := fun fd =>
      if named fd then
        { tables.kFlist fd with startBlock := moved (tables.kFlist fd).startBlock }
      else
        tables.kFlist fd
    kFstatus := fun fd =>
      if named fd ∧ (tables.kFstatus fd).openFlag ≠ 0 then
        { tables.kFstatus fd with
          upBlockPtr := moved (tables.kFstatus fd).upBlockPtr
          curBlockPtr := moved (tables.kFstatus fd).curBlockPtr }
      else
        tables.kFstatus fd }

/-- A page copied, unless the log is replayed: whether the write failed. -/
def copyPage (board : Board D) (dec src : Nat) : Prog (Fs D) Bool :=
  liveOr false do
    let page ← sReadBlock board src PAGE_SIZE
    sWriteFlash board dec page

/-! ### Hynix chips -/

/-- The pages that a number of links lead through. -/
def linked (fat : Nat → Nat) : Nat → Nat → List Nat
  | _, 0 => []
  | page, count + 1 => page :: linked fat (fat page) count

/-- The tables before the pages are copied. -/
def hynixTables (board : Board D) (tables : Tables) (dBlkTop sSecNo : Nat) : Tables :=
  let sBlkTop := sSecNo * BLOCK_PAGES
  let move := fun page : Nat => ushort (page + (dBlkTop - sBlkTop))
  let fat := moveLinks board (copySector tables.kFAT dBlkTop sBlkTop) sSecNo move
  let moved := { tables with kFAT := fat }.moveFiles sBlkTop move
  { moved with
    kFreePagePtr :=
      if inSector sBlkTop tables.kFreePagePtr then move tables.kFreePagePtr
      else tables.kFreePagePtr }

/-- A given-up page of the new sector becomes the head of the free list. -/
def Tables.release (tables : Tables) (page : Nat) : Tables :=
  { tables.setFAT page tables.kFreePagePtr with
    kUsedPageNum := ushort (tables.kUsedPageNum - 1)
    kFreePageNum := ushort (tables.kFreePageNum + 1)
    kFreePagePtr := page }

/-- One round over the pages of a sector: the given-up ones are released, the others
copied unless they are free. -/
def hynixRound (board : Board D) (sAddr exchangeAddr dBlkTop : Nat) (free : Nat → Bool) :
    Prog (Fs D) (Option Unit) :=
  Prog.firstM (fun i => do
    if (← tables).kFAT (dBlkTop + i) = USED_BLOCK then
      onTables fun tables => tables.release (dBlkTop + i)
      pure none
    else if free i then
      pure none
    else if ← copyPage board (exchangeAddr + i * PAGE_SIZE) (sAddr + i * PAGE_SIZE) then
      pure (some ())
    else
      pure none) (List.range BLOCK_PAGES)

def sExchangePageHynix (board : Board D) (sAddr : Nat) : Prog (Fs D) Unit := do
  let before ← tables
  let sSecNo := sectorOf sAddr
  let sBlkTop := sSecNo * BLOCK_PAGES
  let dBlkTop := sectorOf before.kExchangeAddr * BLOCK_PAGES
  inside (sBlkTop + BLOCK_PAGES) 0x20001
  inside (dBlkTop + BLOCK_PAGES) 0x20001
  let freePages := linked (copySector before.kFAT dBlkTop sBlkTop) before.kFreePagePtr
    before.kFreePageNum
  onTables fun tables => hynixTables board tables dBlkTop sSecNo
  let copied ← Prog.firstM (fun _ => do
      live (sEraseSector board before.kExchangeAddr)
      let failed ← hynixRound board sAddr before.kExchangeAddr dBlkTop
        fun i => freePages.contains (sBlkTop + i)
      pure (if failed.isSome then none else some ())) (List.range 3)
  onlyIf copied.isNone sWriteFlashFailed
  onTables fun tables => { tables with kExchangeAddr := sAddr }
  live (sLogExchangeData board sAddr)

/-! ### Other chips

The data pages move together, behind them the free pages and the released ones.
-/

/-- The first free page of a sector, in the order of the list, and the page before it;
without one, the last page of the list twice. -/
def findFree (fat : Nat → Nat) (sBlkTop : Nat) : Nat → Nat → Nat → Bool × Nat × Nat
  | 0, _, back => (false, back, back)
  | count + 1, freePtr, back =>
      if inSector sBlkTop freePtr then (true, freePtr, back)
      else findFree fat sBlkTop count (fat freePtr) freePtr

/-- The number of given-up pages of a sector. -/
def usedIn (fat : Nat → Nat) (secNo : Nat) : Nat :=
  (List.range BLOCK_PAGES).countP fun k => fat (secNo * BLOCK_PAGES + k) = USED_BLOCK

/-- `reIndex`: how far the data pages of a sector move. -/
def reIndex (fat : Nat → Nat) (dBlkTop sBlkTop blkFreeNum i : Nat) : Int :=
  if i < BLOCK_PAGES - blkFreeNum ∧ fat (sBlkTop + i) ≠ USED_BLOCK then
    (dBlkTop : Int) - sBlkTop +
      ((List.range i).countP fun k => fat (sBlkTop + k) ≠ USED_BLOCK : Nat) - i
  else
    0

/-- One entry of the new sector, moved to the front. -/
def compactStep (dBlkTop sBlkTop blkFreeNum : Nat) (move : Nat → Nat)
    (past : (Nat → Nat) × Nat) (j : Nat) : (Nat → Nat) × Nat :=
  let value := past.1 (dBlkTop + j)
  if sBlkTop ≤ value ∧ value < sBlkTop + BLOCK_PAGES - blkFreeNum then
    (Function.update past.1 (dBlkTop + past.2) (move value), past.2 + 1)
  else if value ≠ USED_BLOCK ∧ j < BLOCK_PAGES - blkFreeNum then
    (Function.update past.1 (dBlkTop + past.2) value, past.2 + 1)
  else
    past

/-- The entries of the new sector, moved to the front. -/
def compact (fat : Nat → Nat) (dBlkTop sBlkTop blkFreeNum : Nat) (move : Nat → Nat) :
    Nat → Nat :=
  ((List.range BLOCK_PAGES).foldl (compactStep dBlkTop sBlkTop blkFreeNum move) (fat, 0)).1

/-- Pages from one on to another linked one behind the other. -/
def chainPages (fat : Nat → Nat) (first last : Nat) : Nat → Nat := fun page =>
  if first ≤ page ∧ page < last then ushort (page + 1) else fat page

/-- What `s_ExchangePage_New` counts before it changes the tables. -/
structure Exchange where
  sSecNo : Nat
  dSecNo : Nat
  blkUseNum : Nat
  found : Bool
  freePtr : Nat
  freePtrBack : Nat
  blkFreeNum : Nat

namespace Exchange

def sBlkTop (exchange : Exchange) : Nat := exchange.sSecNo * BLOCK_PAGES

def dBlkTop (exchange : Exchange) : Nat := exchange.dSecNo * BLOCK_PAGES

/-- The counts, of the table in which the sector is already copied. -/
def count (board : Board D) (tables : Tables) (sSecNo dSecNo : Nat) : Exchange :=
  let free := findFree tables.kFAT (sSecNo * BLOCK_PAGES) tables.kFreePageNum
    tables.kFreePagePtr board.strayPage
  { sSecNo, dSecNo
    blkUseNum := usedIn tables.kFAT sSecNo
    found := free.1
    freePtr := free.2.1
    freePtrBack := free.2.2
    blkFreeNum := if free.1 then BLOCK_PAGES - free.2.1 % BLOCK_PAGES else 0 }

/-- A pointer into the old sector, moved. -/
def move (exchange : Exchange) (fat : Nat → Nat) (page : Nat) : Nat :=
  ushort (page + reIndex fat exchange.dBlkTop exchange.sBlkTop exchange.blkFreeNum
    (page % BLOCK_PAGES))

/-- The first free page of the new sector. -/
def firstFree (exchange : Exchange) : Int :=
  exchange.dBlkTop + BLOCK_PAGES - exchange.blkFreeNum - exchange.blkUseNum

/-- The released pages become part of the free list. -/
def joinFree (exchange : Exchange) (tables : Tables) : Tables :=
  let last := exchange.dBlkTop + BLOCK_PAGES - 1
  if exchange.found then
    if inSector exchange.sBlkTop tables.kFreePagePtr then
      let headed := { tables with kFreePagePtr := ushort exchange.firstFree }
      headed.setFAT last (headed.kFAT (exchange.sBlkTop + BLOCK_PAGES - 1))
    else
      let linked := tables.setFAT exchange.freePtrBack (ushort exchange.firstFree)
      linked.setFAT last (linked.kFAT (exchange.sBlkTop + BLOCK_PAGES - 1))
  else
    (tables.setFAT exchange.freePtr (ushort exchange.firstFree)).setFAT last NULL_BLOCK

/-- The tables before the pages are copied. -/
def exchanged (board : Board D) (exchange : Exchange) (tables : Tables) : Tables :=
  let move := exchange.move tables.kFAT
  let links := moveLinks board tables.kFAT exchange.sSecNo move
  let others := fun page => if page / BLOCK_PAGES = exchange.dSecNo then tables.kFAT page
    else links page
  let fat :=
    if exchange.dSecNo < board.dataSectors ∧ exchange.dSecNo ≠ exchange.sSecNo then
      compact others exchange.dBlkTop exchange.sBlkTop exchange.blkFreeNum move
    else
      others
  let joined := exchange.joinFree { tables with
    kFAT := fat
    kUsedPageNum := ushort (tables.kUsedPageNum - exchange.blkUseNum)
    kFreePageNum := ushort (tables.kFreePageNum + exchange.blkUseNum) }
  { joined with
    kFAT := chainPages joined.kFAT exchange.firstFree.toNat
      (exchange.dBlkTop + BLOCK_PAGES - 1) }.moveFiles exchange.sBlkTop move

end Exchange

/-- The pages of a sector that hold data, copied behind one another: how many. -/
def copyPages (board : Board D) (sAddr exchangeAddr sBlkTop : Nat) :
    List Nat → Nat → Prog (Fs D) Nat
  | [], k => pure k
  | i :: rest, k => do
      if (← tables).kFAT (sBlkTop + i) = USED_BLOCK then
        copyPages board sAddr exchangeAddr sBlkTop rest k
      else if ← copyPage board (exchangeAddr + k * PAGE_SIZE) (sAddr + i * PAGE_SIZE) then
        pure k
      else
        copyPages board sAddr exchangeAddr sBlkTop rest (k + 1)

/-- The test at the end: the free list has as many pages as are counted. -/
def checkFree (tables : Tables) : Bool :=
  match (linked tables.kFAT tables.kFreePagePtr tables.kFreePageNum).findIdx?
      fun page => tables.kFAT page = NULL_BLOCK with
  | some i => i + 1 = tables.kFreePageNum
  | none => false

def sExchangePageNew (board : Board D) (sAddr : Nat) : Prog (Fs D) Unit := do
  let exchangeAddr ← Prog.read fun fs => fs.tables.kExchangeAddr
  let sSecNo := sectorOf sAddr
  let dSecNo := sectorOf exchangeAddr
  inside (sSecNo * BLOCK_PAGES + BLOCK_PAGES) 0x20001
  inside (dSecNo * BLOCK_PAGES + BLOCK_PAGES) 0x20001
  onTables fun tables => { tables with
    kFAT := copySector tables.kFAT (dSecNo * BLOCK_PAGES) (sSecNo * BLOCK_PAGES) }
  let exchange ← Prog.read fun fs => Exchange.count board fs.tables sSecNo dSecNo
  onlyIf (exchange.firstFree < 0) Prog.halt
  onTables (exchange.exchanged board)
  let copied ← Prog.firstM (fun _ => do
      live (sEraseSector board exchangeAddr)
      let k ← copyPages board sAddr exchangeAddr exchange.sBlkTop
        (List.range (BLOCK_PAGES - exchange.blkFreeNum)) 0
      pure (if k + exchange.blkUseNum + exchange.blkFreeNum = BLOCK_PAGES then some ()
        else none)) (List.range 3)
  onlyIf copied.isNone sWriteFlashFailed
  onTables fun tables => { tables with kExchangeAddr := sAddr }
  live (sLogExchangeData board sAddr)
  onlyIf (! checkFree (← tables)) sExchangeFailed

/-! ## Recycling -/

def sExchangePage (board : Board D) (sAddr : Nat) : Prog (Fs D) Unit :=
  if board.hynix then sExchangePageHynix board sAddr else sExchangePageNew board sAddr

/-- The most given-up pages of a sector so far, and its number. -/
def moreUsed (fat : Nat → Nat) (best : Nat × Nat) (secNo : Nat) : Nat × Nat :=
  if best.1 < usedIn fat secNo then (usedIn fat secNo, secNo) else best

/-- The sectors behind the exchange sector, then those before it. -/
def searched (board : Board D) (j : Nat) : List Nat :=
  List.range' (j + 1) (board.dataSectors - (j + 1)) ++ List.range j

def sRecycleBlocks (board : Board D) : Prog (Fs D) Unit := do
  let before ← tables
  let best := (searched board (sectorOf before.kExchangeAddr)).foldl (moreUsed before.kFAT) (0, 0)
  if best.1 = 0 then pure ()
  else sExchangePage board (DATA_ADDR + best.2 * DATA_SECTOR_SIZE)

end PosFirmware.FileCore
