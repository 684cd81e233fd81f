import PosFirmware.FileCore.Operations

/-! # Writing and truncating a file

`s_write` makes room, starts its log entry, and takes one of three ways: it appends behind
the last byte, it overwrites up to the end or beyond, or it overwrites within the file.
While the log is replayed the same code runs without the pages and the entries.
-/

namespace PosFirmware.FileCore

open PosFirmware.Foundation

variable {D : Type} (board : Board D)

/-! ## Room -/

/-- `needBlocks`: the pages that a write may take, and four. -/
def needBlocks (filePtr len : Int) : Int :=
  let tmpLen := filePtr.tmod PAGE_SIZE
  let pages : Int :=
    if tmpLen ≠ 0 then
      let beyond := len - (PAGE_SIZE - tmpLen)
      if beyond ≤ 0 then 1
      else if beyond.tmod PAGE_SIZE ≠ 0 then beyond.tdiv PAGE_SIZE + 2
      else beyond.tdiv PAGE_SIZE + 1
    else if len.tmod PAGE_SIZE ≠ 0 then len.tdiv PAGE_SIZE + 2
    else len.tdiv PAGE_SIZE + 1
  pages + 4

/-- `while(needBlocks > k_FreePageNum) s_RecycleBlocks()`. -/
def recycleUntil (need : Int) : Nat → Prog (Fs D) Unit
  | 0 => Prog.halt
  | fuel + 1 => do
      if ((← tables).kFreePageNum : Int) < need then
        sRecycleBlocks board
        recycleUntil need fuel
      else
        pure ()

/-- Room for a number of pages, unless the chip is full. -/
def makeRoom (need : Int) : Prog (Fs D) Bool := do
  let before ← tables
  if (before.kFreePageNum : Int) < need then
    if ((before.kFreePageNum + before.kUsedPageNum : Nat) : Int) < need then
      setErrno .MEM_OVERFLOW
      pure false
    else
      recycleUntil board need board.fuel
      pure true
  else
    pure true

/-! ## Pages -/

/-- The chain leads to a page where it led to the page of the cursor. -/
def Tables.linkBehind (tables : Tables) (fd upBlockPtr newPtr : Nat) : Tables :=
  if upBlockPtr = NULL_BLOCK then
    tables.setItem fd fun item => { item with startBlock := newPtr }
  else
    tables.setFAT upBlockPtr newPtr

/-- A page with bytes of an old page in front of new ones, written to a new page. -/
def copyAndWrite (curBlockPtr newPtr filePtrOff : Nat) (dat : List Byte) : Prog (Fs D) Unit := do
  let page ← sReadBlock board (pageAddr curBlockPtr) filePtrOff
  sWriteBlock board newPtr 0 (page.take filePtrOff ++ dat)

/-- A page with new bytes over those of an old page, written to a new page whole. -/
def mergeAndWrite (oldPtr newPtr filePtrOff : Nat) (dat : List Byte) : Prog (Fs D) Unit := do
  let page ← sReadBlock board (pageAddr oldPtr) PAGE_SIZE
  sWriteBlock board newPtr 0
    (page.take filePtrOff ++ dat ++ page.drop (filePtrOff + dat.length))

/-- The status of the handle, and a change of it. -/
def statusOf (fd : Nat) : Prog (Fs D) FileStatus := Prog.read fun fs => fs.tables.kFstatus fd

def onStatus (fd : Nat) (change : FileStatus → FileStatus) : Prog (Fs D) Unit :=
  onTables fun tables => tables.setStatus fd change

/-! ## Appending -/

/-- The loop over the pages that are appended. -/
def appendPages (fd : Nat) : Nat → Nat → List Byte → Int → Prog (Fs D) Unit
  | 0, _, _, _ => Prog.halt
  | fuel + 1, upPtr, dat, len => do
      let newPtr ← sGetFreeBlock
      onTables fun tables => tables.setFAT upPtr newPtr
      if len ≤ PAGE_SIZE then
        onTables fun tables => tables.setFAT newPtr NULL_BLOCK
        live (sWriteBlock board newPtr 0 (dat.take len.toNat))
        live (sLogCmdOK board)
        onStatus fd fun status => { status with
          curBlockPtr := newPtr, upBlockPtr := upPtr, filePtrOff := ushort len }
      else
        live (sWriteBlock board newPtr 0 (dat.take PAGE_SIZE))
        appendPages fd fuel newPtr (dat.drop PAGE_SIZE) (len - PAGE_SIZE)

/-- The first page of an empty file. -/
def appendFirst (fd : Nat) : Prog (Fs D) Nat := do
  if ((← tables).kFlist fd).size = 0 then
    let newPtr ← sGetFreeBlock
    onTables fun tables =>
      ((tables.setFAT newPtr NULL_BLOCK).setItem fd fun item =>
        { item with startBlock := newPtr }).setStatus fd fun status => { status with
          filePtrOff := 0, upBlockPtr := NULL_BLOCK, curBlockPtr := newPtr }
    pure newPtr
  else
    pure board.strayPage

/-- A page taken for the last page of the file, which is given up. -/
def appendCopy (fd : Nat) (status : FileStatus) : Prog (Fs D) Nat := do
  let newPtr ← sGetFreeBlock
  onTables fun tables =>
    ((tables.setFAT newPtr (tables.kFAT status.curBlockPtr)).linkBehind fd status.upBlockPtr
      newPtr).giveUp status.curBlockPtr
  pure newPtr

def writeAppend (fd : Nat) (dat : List Byte) (len : Int) : Prog (Fs D) Unit := do
  let first ← appendFirst board fd
  onTables fun tables => (tables.setStatus fd fun status =>
    { status with filePtr := int (status.filePtr + len) }).setItem fd fun item =>
      { item with size := int (item.size + len) }
  let status ← statusOf fd
  let newPtr ← (if status.filePtrOff ≠ 0 then appendCopy fd status else pure first)
  let room : Int := PAGE_SIZE - status.filePtrOff
  let replayed ← Prog.read Fs.kDataRecover
  -- the replay leaves the length of the part in the page as it is
  let tmpLen := if ¬ replayed ∧ len ≤ room then len else room
  live (copyAndWrite board status.curBlockPtr newPtr status.filePtrOff (dat.take tmpLen.toNat))
  onStatus fd fun status => { status with
    curBlockPtr := if status.filePtrOff ≠ 0 then newPtr else status.curBlockPtr
    filePtrOff := ushort (status.filePtrOff + tmpLen) }
  if len - tmpLen ≤ 0 then
    live (sLogCmdOK board)
  else
    let status ← statusOf fd
    appendPages board fd ((len - tmpLen).toNat / PAGE_SIZE + 1) status.curBlockPtr
      (dat.drop tmpLen.toNat) (len - tmpLen)

/-! ## Overwriting up to the end or beyond -/

/-- The loop over the pages behind the first: the last two of them, and what is left. -/
def extendPages : Nat → Nat → List Byte → Int → Prog (Fs D) (Nat × Nat × List Byte × Int)
  | 0, _, _, _ => Prog.halt
  | fuel + 1, upPtr, dat, len => do
      let newPtr ← sGetFreeBlock
      onTables fun tables => tables.setFAT upPtr newPtr
      if len ≤ PAGE_SIZE then
        pure (upPtr, newPtr, dat, len)
      else
        live (sWriteBlock board newPtr 0 (dat.take PAGE_SIZE))
        extendPages fuel newPtr (dat.drop PAGE_SIZE) (len - PAGE_SIZE)

/-- The new bytes end in the page of the cursor, the last one. -/
def extendWithin (fd : Nat) (status : FileStatus) (newPtr : Nat) (dat : List Byte) (len : Int) :
    Prog (Fs D) Unit := do
  onTables fun tables => (tables.giveUp status.curBlockPtr).setFAT newPtr NULL_BLOCK
  live (copyAndWrite board status.curBlockPtr newPtr status.filePtrOff (dat.take len.toNat))
  live (sLogCmdOK board)
  onStatus fd fun status => { status with
    filePtrOff := ushort (status.filePtrOff + len), curBlockPtr := newPtr }

/-- The new bytes fill the page of the cursor and go on. -/
def extendBeyond (fd : Nat) (status : FileStatus) (newPtr : Nat) (dat : List Byte) (len : Int) :
    Prog (Fs D) Unit := do
  let room : Int := PAGE_SIZE - status.filePtrOff
  live (copyAndWrite board status.curBlockPtr newPtr status.filePtrOff (dat.take room.toNat))
  let last ← extendPages board ((len - room).toNat / PAGE_SIZE + 1) newPtr
    (dat.drop room.toNat) (len - room)
  onTables fun tables => tables.setFAT last.2.1 NULL_BLOCK
  onStatus fd fun status => { status with
    upBlockPtr := last.1, filePtrOff := ushort last.2.2.2, curBlockPtr := last.2.1 }
  giveUpChain board.fuel status.curBlockPtr
  live (sWriteBlock board last.2.1 0 (last.2.2.1.take last.2.2.2.toNat))
  live (sLogCmdOK board)

def writeExtend (fd : Nat) (dat : List Byte) (len : Int) : Prog (Fs D) Unit := do
  onTables fun tables => (tables.setItem fd fun item =>
    { item with size := int ((tables.kFstatus fd).filePtr + len) }).setStatus fd fun status =>
      { status with filePtr := int (status.filePtr + len) }
  let status ← statusOf fd
  let newPtr ← sGetFreeBlock
  onTables fun tables => tables.linkBehind fd status.upBlockPtr newPtr
  if len ≤ (PAGE_SIZE : Int) - status.filePtrOff then
    extendWithin board fd status newPtr dat len
  else
    extendBeyond board fd status newPtr dat len

/-! ## Overwriting within the file -/

/-- The loop over the pages that are overwritten whole: the page before, the next old page,
and what is left. -/
def overPages : Nat → Nat → Nat → List Byte → Int →
    Prog (Fs D) (Nat × Nat × List Byte × Int)
  | 0, upPtr, tmpPtr, dat, len => pure (upPtr, tmpPtr, dat, len)
  | fuel + 1, upPtr, tmpPtr, dat, len =>
      if len < PAGE_SIZE then
        pure (upPtr, tmpPtr, dat, len)
      else do
        let newPtr ← sGetFreeBlock
        onTables fun tables => tables.setFAT upPtr newPtr
        live (sWriteBlock board newPtr 0 (dat.take PAGE_SIZE))
        let next ← Prog.read fun fs => fs.tables.kFAT tmpPtr
        onTables fun tables => tables.giveUp tmpPtr
        overPages fuel newPtr next (dat.drop PAGE_SIZE) (len - PAGE_SIZE)

/-- The new bytes end in the page of the cursor. -/
def overWithin (fd : Nat) (status : FileStatus) (newPtr tmpPtr : Nat) (dat : List Byte)
    (len : Int) : Prog (Fs D) Unit := do
  onTables fun tables => tables.setFAT newPtr tmpPtr
  live (mergeAndWrite board status.curBlockPtr newPtr status.filePtrOff (dat.take len.toNat))
  live (sLogCmdOK board)
  -- the replay leaves the offset of the cursor out of its sum
  let replayed ← Prog.read Fs.kDataRecover
  onStatus fd fun status => { status with
    curBlockPtr := newPtr
    filePtrOff := ushort (if replayed then len else len + status.filePtrOff) }

/-- The last page of the new bytes, with the rest of the old one. -/
def overLast (fd upPtr tmpPtr : Nat) (dat : List Byte) (len : Int) : Prog (Fs D) Unit := do
  if len ≠ 0 then
    let newPtr ← sGetFreeBlock
    onTables fun tables => tables.setFAT upPtr newPtr
    live (mergeAndWrite board tmpPtr newPtr 0 (dat.take len.toNat))
    onTables fun tables => (tables.setFAT newPtr (tables.kFAT tmpPtr)).giveUp tmpPtr
    onStatus fd fun status => { status with
      curBlockPtr := newPtr, upBlockPtr := upPtr, filePtrOff := ushort len }
  else
    onTables fun tables => tables.setFAT upPtr tmpPtr
    onStatus fd fun status => { status with
      curBlockPtr := tmpPtr, upBlockPtr := upPtr, filePtrOff := 0 }

def writeOver (fd : Nat) (dat : List Byte) (len : Int) : Prog (Fs D) Unit := do
  onStatus fd fun status => { status with filePtr := int (status.filePtr + len) }
  let status ← statusOf fd
  let newPtr ← sGetFreeBlock
  onTables fun tables => tables.linkBehind fd status.upBlockPtr newPtr
  let tmpPtr ← Prog.read fun fs => fs.tables.kFAT status.curBlockPtr
  onTables fun tables => tables.giveUp status.curBlockPtr
  let room : Int := PAGE_SIZE - status.filePtrOff
  if len ≤ room then
    overWithin board fd status newPtr tmpPtr dat len
  else
    live (copyAndWrite board status.curBlockPtr newPtr status.filePtrOff (dat.take room.toNat))
    let last ← overPages board ((len - room).toNat / PAGE_SIZE) newPtr tmpPtr
      (dat.drop room.toNat) (len - room)
    overLast board fd last.1 last.2.1 last.2.2.1 last.2.2.2
    live (sLogCmdOK board)

/-! ## The operations -/

/-- A cursor behind the last byte of a page goes to the next page. -/
def Tables.nextPage (tables : Tables) (fd : Nat) : Tables :=
  if (tables.kFstatus fd).filePtrOff = PAGE_SIZE then
    tables.setStatus fd fun status => { status with
      upBlockPtr := status.curBlockPtr
      curBlockPtr := tables.kFAT status.curBlockPtr
      filePtrOff := 0 }
  else
    tables

def sWrite (fd : Nat) (dat : List Byte) : Prog (Fs D) Int := do
  inside fd MAX_FILES
  let before ← statusOf fd
  let len := before.len
  if ← makeRoom board (needBlocks before.filePtr len) then
    let status ← statusOf fd
    live (logStart board status.toBytes 9)
    let item := (← tables).kFlist fd
    if status.filePtr = item.size then
      writeAppend board fd dat len
    else
      onTables fun tables => tables.nextPage fd
      if item.size ≤ int (status.filePtr + len) then
        writeExtend board fd dat len
      else
        writeOver board fd dat len
    pure 0
  else
    pure (-1)

def kWrite (fd : Nat) (dat : List Byte) (len : Int) : Prog (Fs D) Int := do
  onStatus fd fun status => { status with len := len }
  let ret ← sWrite board fd dat
  pure (if ret < 0 then ret else len)

def write (fd : Int) (dat : List Byte) (len : Int) : Prog (Fs D) Int := do
  if ← sCheckFid fd then
    if len ≤ 0 then pure 0 else kWrite board fd.toNat dat len
  else
    pure (-1)

/-- The chain cut behind a length: the part that is given up. -/
def cutChain (fd : Nat) (len : Int) : Prog (Fs D) Nat := do
  if len = 0 then
    let headPtr ← Prog.read fun fs => (fs.tables.kFlist fd).startBlock
    onTables fun tables => (tables.setStatus fd fun status => { status with
      filePtrOff := PAGE_SIZE, curBlockPtr := NULL_BLOCK, upBlockPtr := NULL_BLOCK }).setItem fd
        fun item => { item with startBlock := NULL_BLOCK }
    pure headPtr
  else
    sSeek fd len .SEEK_SET
    let status ← statusOf fd
    let headPtr ← Prog.read fun fs => fs.tables.kFAT status.curBlockPtr
    onTables fun tables => tables.setFAT status.curBlockPtr NULL_BLOCK
    pure headPtr

def sTruncate (fd : Nat) (len : Int) : Prog (Fs D) Unit := do
  inside fd MAX_FILES
  live (kLogTruncateFile board fd len)
  let headPtr ← cutChain fd len
  giveUpChain board.fuel headPtr
  onTables fun tables => (tables.setItem fd fun item => { item with size := len }).setStatus fd
    fun status => { status with filePtr := len }
  live (sLogCmdOK board)

def truncate (fd : Int) (len : Int) : Prog (Fs D) Int := do
  if ← sCheckFid fd then
    let size ← Prog.read fun fs => (fs.tables.kFlist fd.toNat).size
    if len < 0 then
      setErrno .TOP_OVERFLOW
      pure (-1)
    else if size < len then
      setErrno .END_OVERFLOW
      pure (-1)
    else if len = size then
      pure 0
    else
      sTruncate board fd.toNat len
      pure 0
  else
    pure (-1)

end PosFirmware.FileCore
