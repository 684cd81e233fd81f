import PosFirmware.FileCore.Write

/-! # The start and the runs of the file system

`InitFileSys` reads the log and the saved tables, repairs the copies, and replays the
entries of the log on the tables. `CreateFileSys` makes an empty file system.
-/

namespace PosFirmware.FileCore

open PosFirmware.Foundation

variable {D : Type} (board : Board D)

/-! ## Saved tables -/

/-- The tables in a buffer; the handles are cleared. -/
def loadTables (buf : Nat → Byte) (tables : Tables) : Tables where
  kExchangeAddr := ulong (longAt buf 8)
  kFreePageNum := wordAt buf 12
  kUsedPageNum := wordAt buf 14
  kFreePagePtr := wordAt buf 16
  kFAT := fun page =>
    if page < ALL_PAGES board then wordAt buf (18 + 2 * page) else tables.kFAT page
  kFlist := fun fd =>
    if fd < MAX_FILES then FileItem.ofBytes buf (18 + 2 * ALL_PAGES board + 24 * fd)
    else tables.kFlist fd
  kFstatus := fun fd => if fd < MAX_FILES then FileStatus.zero else tables.kFstatus fd

def sLoadFAT : Prog (Fs D) Unit := do
  let buf ← sReadFlash board FAT2_ADDR BLOCK_SIZE
  onTables fun tables => loadTables board (memory buf) tables

/-- The tables of an empty file system. -/
def emptyTables (tables : Tables) : Tables where
  kFreePagePtr := BLOCK_PAGES
  kExchangeAddr := DATA_ADDR
  kFreePageNum := ushort ((board.dataSectors - 1) * BLOCK_PAGES)
  kUsedPageNum := 0
  kFAT := fun page =>
    if BLOCK_PAGES ≤ page ∧ page + 1 < ALL_PAGES board then ushort (page + 1)
    else if page = max BLOCK_PAGES (ALL_PAGES board - 1) then NULL_BLOCK
    else tables.kFAT page
  kFlist := fun fd =>
    if fd < MAX_FILES then ⟨List.replicate 16 0, 0xfe, 0, 0, 0⟩ else tables.kFlist fd
  kFstatus := tables.kFstatus

/-- The erase of a number of sectors of the data area. -/
def eraseData : Nat → Prog (Fs D) Unit
  | 0 => pure ()
  | count + 1 => do
      eraseData count
      sEraseSector board (DATA_ADDR + count * DATA_SECTOR_SIZE)

/-- Both copies of the tables, in three tries. -/
def saveCopies (buf : List Byte) : Prog (Fs D) Unit := do
  let saved ← Prog.firstM (fun i => do
      onlyIf (i ≠ 0) do
        sEraseSector board FAT1_ADDR
        sEraseSector board FAT2_ADDR
      if ← sWriteFlash board FAT2_ADDR buf then pure none
      else if ← sWriteFlash board FAT1_ADDR buf then pure none
      else pure (some ())) (List.range 3)
  onlyIf saved.isNone sWriteFlashFailed

def createFileSys : Prog (Fs D) Unit := do
  onFlash board.sCreateBlockMapTable
  Prog.modify fun fs => { fs with errno := none, kDataRecover := false }
  onTables (emptyTables board)
  forceWrite board
  let initLog ← Prog.read fun fs => slice fs.gLogSector (INIT_LOG_ADDR - LOG_ADDR) 8
  onlyIf (initLog = List.replicate 8 0xff) do
    let _ ← sWriteFlash board INIT_LOG_ADDR (text "INITFILE")
  sEraseSector board FAT1_ADDR
  sEraseSector board FAT2_ADDR
  eraseData board board.dataSectors
  let saved ← tables
  saveCopies board (sectorBuf board saved)
  sLogErase board

/-! ## The log -/

/-- The words of the log, taken from its three copies. -/
def restoreLog (log : Nat → Byte) : Nat → Byte := fun k =>
  let word := wordAt log (k / 2 * 2)
  let second := wordAt log (k / 2 * 2 + LOG_SIZE)
  let third := wordAt log (k / 2 * 2 + LOG_SIZE * 2)
  if k < LOG_SIZE then
    if word = second ∨ word = third then log k
    else if second = third then log (k + LOG_SIZE * 2)
    else log k ||| log (k + LOG_SIZE)
  else
    log k

/-- The last address of the log, from one on downwards, that is written; the start of the
log at least. -/
def lastWritten (log : Nat → Byte) : Nat → Nat
  | 0 => LOG_ADDR + 16
  | words + 1 =>
      if logRead log (LOG_ADDR + 16 + 2 * (words + 1)) ≠ 0xffff then
        LOG_ADDR + 16 + 2 * (words + 1)
      else
        lastWritten log words

/-- `tmpPtr` of `InitFileSys`. -/
def logTop (log : Nat → Byte) : Nat := lastWritten log ((LOG_END_ADDR - (LOG_ADDR + 16)) / 2)

/-- `logSize`, in words. -/
def logSize (log : Nat → Byte) : Nat := ushort (((logTop log - (LOG_ADDR + 16)) / 2 : Nat) + 2)

/-- The end of the replay: whether the tables must be saved. -/
def endReplay (saveFAT : Bool) : Prog (Fs D) (Option Bool) := do
  Prog.modify fun fs => { fs with kDataRecover := false }
  pure (some saveFAT)

/-- An entry that was cut short ends the replay. -/
def replayCreate (log : Nat → Byte) (at_ : Nat) : Prog (Fs D) (Option Bool) := do
  if logRead log (at_ + 22) = 0xffff then
    endReplay true
  else
    sCreateFile board (logRead log (at_ + 2)) (slice log (at_ - LOG_ADDR + 6) 16)
      (log (at_ - LOG_ADDR + 4)) (log (at_ - LOG_ADDR + 5))
    advance 12
    pure none

def replayWrite (log : Nat → Byte) (at_ : Nat) : Prog (Fs D) (Option Bool) := do
  let fd := logRead log (at_ + 2)
  inside fd MAX_FILES
  onStatus fd fun status => FileStatus.copy18 log (at_ - LOG_ADDR) status
  advance 9
  if logRead log (at_ + 18) ≠ CMD_OK then
    let result ← endReplay true
    let status ← statusOf fd
    sCheckUsedBlock board (status.len.tdiv PAGE_SIZE + 4)
    pure result
  else
    let _ ← sWrite board fd []
    advance 1
    pure none

def replayRemove (log : Nat → Byte) (at_ : Nat) : Prog (Fs D) (Option Bool) := do
  if logRead log (at_ + 4) = 0xffff then
    endReplay true
  else
    sRemoveId board (logRead log (at_ + 2))
    advance 3
    pure none

def replayTruncate (log : Nat → Byte) (at_ : Nat) : Prog (Fs D) (Option Bool) := do
  if logRead log (at_ + 8) ≠ CMD_OK then
    endReplay true
  else
    sTruncate board (logRead log (at_ + 2))
      (int (logRead log (at_ + 6) * 0x10000 + logRead log (at_ + 4)))
    advance 5
    pure none

def replayExchange (log : Nat → Byte) (at_ : Nat) : Prog (Fs D) (Option Bool) := do
  if logRead log (at_ + 6) = 0xffff then
    endReplay true
  else
    sExchangePage board (logRead log (at_ + 4) * 0x10000 + logRead log (at_ + 2))
    advance 4
    pure none

/-- One round of the loop over the log. -/
def replayEntry : Prog (Fs D) (Option Bool) := do
  let at_ ← Prog.read Fs.kLogPtr
  let log ← Prog.read Fs.gLogSector
  let command := logRead log at_
  if command = CREATE_FILE then replayCreate board log at_
  else if command = WRITE_FILE then replayWrite board log at_
  else if command = REMOVE_FILE then replayRemove board log at_
  else if command = TRUNCATE_FILE then replayTruncate board log at_
  else if command = EXCHANGE_DATA then replayExchange board log at_
  else endReplay (command ≠ 0xffff)

/-- The log replayed on the tables, with `k_DataRecover` set. -/
def replayLog (timedOut : Bool) : Prog (Fs D) Unit := do
  let size ← Prog.read fun fs => logSize fs.gLogSector
  Prog.modify fun fs => { fs with kDataRecover := true }
  let saveFAT ← Prog.retry (replayEntry board) board.fuel
  onlyIf (saveFAT ∨ LOG_SIZE / 10 < size ∨ timedOut) (sSaveFAT board)
  onTables fun tables => { tables with
    kFstatus := fun fd => if fd < MAX_FILES then FileStatus.zero else tables.kFstatus fd }

/-! ## The start -/

/-- Whether the saved tables are gone: the first copy has no version, and the second has
none or is not to be taken. -/
def tablesLost (log : Nat → Byte) : Prog (Fs D) Bool := do
  if (← sReadFlash board FAT1_ADDR 8) = FAT_VERSION_FLAG then
    pure false
  else if (← sReadFlash board FAT2_ADDR 8) = FAT_VERSION_FLAG then
    pure (logRead log FAT1_LOG_ADDR = 0xffff)
  else
    pure true

/-- The second copy of the tables, written again from the first. -/
def repairCopy : Prog (Fs D) Unit := do
  let saved ← Prog.firstM (fun _ => do
      sEraseSector board FAT2_ADDR
      let buf ← sReadFlash board FAT1_ADDR (FAT_SIZE board)
      if ← sWriteFlash board FAT2_ADDR buf then
        pure none
      else
        let _ ← sWriteFlash board FAT2_LOG_ADDR (wordBytes CMD_OK)
        pure (some ())) (List.range 3)
  onlyIf saved.isNone sWriteFlashFailed

/-- `InitFileSys` where the log is that of tables already saved. -/
def initSaved (log : Nat → Byte) : Prog (Fs D) Unit := do
  forceWrite board
  onlyIf (logRead log FAT2_LOG_ADDR ≠ CMD_OK) (repairCopy board)
  sLogErase board
  sLoadFAT board

/-- `InitFileSys`, with whether its timer runs out before the log is replayed. -/
def initFileSys (timedOut : Bool) : Prog (Fs D) Unit := do
  readLogSector board
  Prog.modify fun fs => { fs with gLogSector := restoreLog fs.gLogSector, errno := none }
  onlyIf (← tablesLost board (← Prog.read Fs.gLogSector)) (createFileSys board)
  let initLog ← Prog.read fun fs => slice fs.gLogSector (INIT_LOG_ADDR - LOG_ADDR) 8
  onlyIf (initLog = text "INITFILE") (createFileSys board)
  Prog.modify fun fs => { fs with kDataRecover := false }
  let log ← Prog.read Fs.gLogSector
  if logRead log LOG_ADDR ≠ 0xffff ∨ slice log (LOG_SIZE - 8) 8 ≠ LOG_VERSION_FLAG then
    sLogErase board
    sLoadFAT board
  else if logRead log FAT1_LOG_ADDR = CMD_OK then
    initSaved board log
  else
    sLoadFAT board
    Prog.modify fun fs => { fs with kLogPtr := LOG_ADDR + 16 }
    if logRead log (LOG_ADDR + 16) = 0xffff then pure () else replayLog board timedOut

/-! ## Recycling in advance -/

/-- `while(k_FreePageNum*PAGE_SIZE<NeedSize) s_RecycleBlocks()`. -/
def recycleBytes (needSize : Int) : Nat → Prog (Fs D) Unit
  | 0 => Prog.halt
  | fuel + 1 => do
      if ((← tables).kFreePageNum * PAGE_SIZE : Int) < needSize then
        sRecycleBlocks board
        recycleBytes needSize fuel
      else
        pure ()

def fsRecycle (needSize : Int) : Prog (Fs D) Unit := do
  if needSize < 0 then
    pure ()
  else
    let needSize := min (max needSize (2 * 1024)) (32 * 1024)
    onlyIf (LOG_END_ADDR - 4 * 1024 < (← Prog.read Fs.kLogPtr)) (sSaveFAT board)
    let before ← tables
    if needSize ≤ (before.kFreePageNum * PAGE_SIZE : Int) then
      pure ()
    else if ((before.kFreePageNum + before.kUsedPageNum) * PAGE_SIZE : Int) < needSize then
      onlyIf (before.kUsedPageNum ≠ 0) (sRecycleBlocks board)
    else
      recycleBytes board needSize board.fuel

end PosFirmware.FileCore

/-! ## Runs of the file system

A run is a sequence of sessions. Each starts with `InitFileSys` and goes on with calls,
until the last of them or until a call does not return: the power goes off, a write to the
flash fails three times, or a loop goes on for ever. Memory is lost between sessions.
-/

namespace PosFirmware.FileCore

open PosFirmware.Foundation

/-- The calls of the file system that change its state; `appNum` is the number of the
calling application. -/
inductive Call
  | openFile (appNum : Option Byte) (filename : List Byte) (mode : Nat)
  | exOpen (appNum : Option Byte) (filename : List Byte) (mode : Nat) (attr type : Byte)
  | sOpen (appNum : Option Byte) (filename : List Byte) (mode : Nat) (attr type : Byte)
  | close (fd : Int)
  | closefile (fd : Int)
  | removeFile (appNum : Option Byte) (filename : List Byte) (fattr : Option Byte)
  | sRemove (appNum : Option Byte) (filename : List Byte) (fattr : Option Byte)
  | sRemoveId (fd : Nat)
  | sRenameFile (fd : Nat) (filename : List Byte) (attr type : Byte)
  | seek (fd offset : Int) (origin : Option Origin)
  | read (fd len : Int)
  | write (fd : Int) (dat : List Byte) (len : Int)
  | truncate (fd len : Int)
  | fsRecycle (needSize : Int)
  | createFileSys
  | initFileSys (timedOut : Bool)

section

variable {D : Type} (board : Board D)

def perform : Call → Prog (Fs D) Unit
  | .openFile appNum filename mode => do let _ ← openFile board appNum filename mode
  | .exOpen appNum filename mode attr type => do
      let _ ← exOpen board appNum filename mode attr type
  | .sOpen appNum filename mode attr type => do
      let _ ← sOpen board appNum filename mode attr type
  | .close fd => do let _ ← close fd
  | .closefile fd => do let _ ← closefile fd
  | .removeFile appNum filename fattr => do let _ ← removeFile board appNum filename fattr
  | .sRemove appNum filename fattr => do let _ ← sRemove board appNum filename fattr
  | .sRemoveId fd => sRemoveId board fd
  | .sRenameFile fd filename attr type => sRenameFile board fd filename attr type
  | .seek fd offset origin => do let _ ← seek fd offset origin
  | .read fd len => do let _ ← read board fd len
  | .write fd dat len => do let _ ← write board fd dat len
  | .truncate fd len => do let _ ← truncate board fd len
  | .fsRecycle needSize => fsRecycle board needSize
  | .createFileSys => createFileSys board
  | .initFileSys timedOut => initFileSys board timedOut

def performAll : List Call → Prog (Fs D) Unit
  | [] => pure ()
  | call :: rest => do
      perform board call
      performAll rest

/-- What the program does from one start to the next. -/
structure Session where
  timedOut : Bool
  calls : List Call

def Session.run (session : Session) : Prog (Fs D) Unit := do
  initFileSys board session.timedOut
  performAll board session.calls

/-- The tables as they are when the program starts. -/
def clearedTables : Tables where
  kFreePageNum := 0
  kUsedPageNum := 0
  kFreePagePtr := 0
  kExchangeAddr := 0
  kFAT := fun _ => 0
  kFlist := fun _ => ⟨List.replicate 16 0, 0, 0, 0, 0⟩
  kFstatus := fun _ => FileStatus.zero

/-- The state when the power comes on. -/
def powerOn (flash : D) (logged : List LogWrite) : Fs D where
  tables := clearedTables
  kDataRecover := false
  gLogSector := fun _ => 0
  kLogPtr := 0
  errno := none
  flash := flash
  logged := logged

/-- The sessions one after the other. -/
def sessions : List Session → Fs D → Fs D
  | [], fs => fs
  | session :: rest, fs => sessions rest ((session.run board) (powerOn fs.flash fs.logged)).2

end

end PosFirmware.FileCore
