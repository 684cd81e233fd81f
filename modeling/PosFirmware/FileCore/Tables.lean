import PosFirmware.Foundation.Halting
import PosFirmware.Foundation.Memory

/-! # The file system on the flash chip: tables and flash access

`filecore.c` keeps every page of every file in a chain of the table `k_FAT`, and the
entries of the files and of their handles in `k_Flist` and `k_Fstatus`. Changes are
written to a log; `s_SaveFAT` writes the tables whole and starts the log again.

The C types are numbers here: an `ushort` is below 2^16, an `int` or a `long` is signed
and wraps at 2^32. A flash operation may fail, and the power may go off in it; the
program then stops.
-/

namespace PosFirmware.FileCore

open PosFirmware.Foundation

abbrev Byte := BitVec 8

/-- A value stored in an `ushort`. -/
def ushort (value : Int) : Nat := (value % 0x10000).toNat

/-- A value stored in an `unsigned long`. -/
def ulong (value : Int) : Nat := (value % 0x100000000).toNat

/-- A value stored in an `int` or a `long`. -/
def int (value : Int) : Int := Int.bmod value 0x100000000

/-! ## Layout of the chip -/

def PAGE_SIZE : Nat := 2048
def BLOCK_SIZE : Nat := 0x20000
def BLOCK_PAGES : Nat := BLOCK_SIZE / PAGE_SIZE
def DATA_START_NUM : Nat := 64
def MAX_FILES : Nat := 256

def DATA_SECTOR_SIZE : Nat := BLOCK_SIZE
def LOG_SIZE : Nat := 0x6000
def FAT1_ADDR : Nat := DATA_START_NUM * BLOCK_SIZE
def FAT2_ADDR : Nat := FAT1_ADDR + BLOCK_SIZE
def LOG_ADDR : Nat := FAT2_ADDR + BLOCK_SIZE
def DATA_ADDR : Nat := LOG_ADDR + BLOCK_SIZE
def LOG_END_ADDR : Nat := LOG_ADDR + LOG_SIZE - 0x40
def FAT1_LOG_ADDR : Nat := LOG_ADDR + 2
def FAT2_LOG_ADDR : Nat := LOG_ADDR + 4
def INIT_LOG_ADDR : Nat := LOG_ADDR + 6

/-- The mark of a page that was given up and is not free yet. -/
def USED_BLOCK : Nat := 0xff00

/-- The end of a chain. -/
def NULL_BLOCK : Nat := 0xffff

def CMD_OK : Nat := 0x0000
def CMD_SET : Nat := 0x55AA

def CREATE_FILE : Nat := 0xff11
def WRITE_FILE : Nat := 0xff22
def REMOVE_FILE : Nat := 0xff44
def TRUNCATE_FILE : Nat := 0xff88
def EXCHANGE_DATA : Nat := 0xee11

/-- The characters of a string literal. -/
def text (s : String) : List Byte := s.toList.map fun c => BitVec.ofNat 8 c.toNat

def FAT_VERSION_FLAG : List Byte := text "FFAT_V20"
def LOG_VERSION_FLAG : List Byte := text "FLOG_V20"

/-! ## Tables -/

/-- `FILE_ITEM`; a name has 16 bytes. -/
structure FileItem where
  fileName : List Byte
  attr : Byte
  type : Byte
  startBlock : Nat
  size : Int

/-- `FILE_STATUS`. -/
structure FileStatus where
  openFlag : Nat
  fd : Nat
  filePtr : Int
  len : Int
  upBlockPtr : Nat
  curBlockPtr : Nat
  filePtrOff : Nat
  cmdSet : Nat

/-- The tables in memory, from `k_FreePageNum` to `k_Fstatus`. -/
structure Tables where
  kFreePageNum : Nat
  kUsedPageNum : Nat
  kFreePagePtr : Nat
  kExchangeAddr : Nat
  kFAT : Nat → Nat
  kFlist : Nat → FileItem
  kFstatus : Nat → FileStatus

namespace Tables

def setFAT (tables : Tables) (page value : Nat) : Tables :=
  { tables with kFAT := Function.update tables.kFAT page value }

def setItem (tables : Tables) (fd : Nat) (change : FileItem → FileItem) : Tables :=
  { tables with kFlist := Function.update tables.kFlist fd (change (tables.kFlist fd)) }

def setStatus (tables : Tables) (fd : Nat) (change : FileStatus → FileStatus) : Tables :=
  { tables with kFstatus := Function.update tables.kFstatus fd (change (tables.kFstatus fd)) }

/-- `k_FAT[page] = USED_BLOCK; k_UsedPageNum++`. -/
def giveUp (tables : Tables) (page : Nat) : Tables :=
  { tables.setFAT page USED_BLOCK with kUsedPageNum := ushort (tables.kUsedPageNum + 1) }

end Tables

/-- The values of `errno`. -/
inductive Errno
  | FILE_EXIST
  | FILE_NOEXIST
  | MEM_OVERFLOW
  | TOO_MANY_FILES
  | INVALID_HANDLE
  | INVALID_MODE
  | FILE_NOT_OPENED
  | FILE_OPENED
  | END_OVERFLOW
  | TOP_OVERFLOW
  | NO_PERMISSION
  deriving DecidableEq

/-- A write to the log through `k_LogPtr`, as it is noted: whether it starts an entry or
completes one. -/
structure LogWrite where
  address : Nat
  bytes : List Byte
  starts : Bool
  deriving DecidableEq

/-- The file system: tables, the copy of the log sector, the chip, and every write to the
log so far. -/
structure Fs (D : Type) where
  tables : Tables
  kDataRecover : Bool
  gLogSector : Nat → Byte
  kLogPtr : Nat
  errno : Option Errno
  flash : D
  logged : List LogWrite

/-- The routines of `nand.c` below the file system, and what the program finds in memory
that it did not set. A write tells whether it failed; without a result the power went
off. -/
structure Board (D : Type) where
  hynix : Bool
  nandWrite : Nat → List Byte → D → Option Bool × D
  nandRead : Nat → Nat → D → List Byte × D
  nandErase : Nat → D → Option Unit × D
  otherWriteLog : Nat → List Byte → D → Option Bool × D
  otherReadLog : D → List Byte × D
  otherEraseLog : D → Option Unit × D
  otherForceWrite : D → Option Unit × D
  sCreateBlockMapTable : D → Option Unit × D
  dataSectors : Nat
  stray : Nat → Byte
  strayPage : Nat
  fuel : Nat

/-! ## Programs on the file system -/

section

variable {D : Type}

/-- The tables. -/
def tables : Prog (Fs D) Tables := Prog.read Fs.tables

/-- A change of the tables. -/
def onTables (change : Tables → Tables) : Prog (Fs D) Unit :=
  Prog.modify fun fs => { fs with tables := change fs.tables }

def setErrno (error : Errno) : Prog (Fs D) Unit :=
  Prog.modify fun fs => { fs with errno := some error }

/-- A routine of `nand.c`; the program ends where the power goes off. -/
def onFlash {α : Type} (routine : D → Option α × D) : Prog (Fs D) α := fun fs =>
  ((routine fs.flash).1, { fs with flash := (routine fs.flash).2 })

/-- A part that is left out while the log is replayed: `if(!k_DataRecover)`. -/
def liveOr {α : Type} (value : α) (part : Prog (Fs D) α) : Prog (Fs D) α := do
  if ← Prog.read Fs.kDataRecover then pure value else part

def live (part : Prog (Fs D) Unit) : Prog (Fs D) Unit := liveOr () part

def onlyIf (test : Bool) (part : Prog (Fs D) Unit) : Prog (Fs D) Unit :=
  if test then part else pure ()

/-- An index into an array; behind the array the program is not defined, and stops. -/
def inside (index size : Nat) : Prog (Fs D) Unit :=
  if index < size then pure () else Prog.halt

/-- `s_WriteFlashFailed` and `s_ExchangeFailed`, which never return. -/
def sWriteFlashFailed : Prog (Fs D) Unit := Prog.halt

def sExchangeFailed : Prog (Fs D) Unit := Prog.halt

end

/-! ## Words in memory -/

/-- An `ushort` in memory. -/
def wordBytes (value : Nat) : List Byte :=
  [BitVec.ofNat 8 value, BitVec.ofNat 8 (value / 256)]

/-- A `long` in memory. -/
def longBytes (value : Int) : List Byte :=
  wordBytes (ushort value) ++ wordBytes (ushort (value / 0x10000))

/-- The `ushort` at an offset. -/
def wordAt (bytes : Nat → Byte) (offset : Nat) : Nat :=
  (bytes offset).toNat + 256 * (bytes (offset + 1)).toNat

/-- The `long` at an offset. -/
def longAt (bytes : Nat → Byte) (offset : Nat) : Int :=
  int (wordAt bytes offset + 0x10000 * wordAt bytes (offset + 2))

/-- A list as memory, with zeros behind it. -/
def memory (bytes : List Byte) : Nat → Byte := fun i => bytes.getD i 0

/-- `LOG_READ(addr)`. -/
def logRead (gLogSector : Nat → Byte) (addr : Nat) : Nat :=
  wordAt gLogSector ((addr - LOG_ADDR) / 2 * 2)

def FileItem.toBytes (item : FileItem) : List Byte :=
  item.fileName ++ [item.attr, item.type] ++ wordBytes item.startBlock ++ longBytes item.size

def FileItem.ofBytes (bytes : Nat → Byte) (offset : Nat) : FileItem where
  fileName := slice bytes offset 16
  attr := bytes (offset + 16)
  type := bytes (offset + 17)
  startBlock := wordAt bytes (offset + 18)
  size := longAt bytes (offset + 20)

def FileStatus.toBytes (status : FileStatus) : List Byte :=
  wordBytes status.openFlag ++ wordBytes status.fd ++ longBytes status.filePtr ++
    longBytes status.len ++ wordBytes status.upBlockPtr ++ wordBytes status.curBlockPtr ++
    wordBytes status.filePtrOff ++ wordBytes status.cmdSet

/-- The first 18 bytes of a status, copied over one. -/
def FileStatus.copy18 (bytes : Nat → Byte) (offset : Nat) (status : FileStatus) : FileStatus where
  openFlag := wordAt bytes offset
  fd := wordAt bytes (offset + 2)
  filePtr := longAt bytes (offset + 4)
  len := longAt bytes (offset + 8)
  upBlockPtr := wordAt bytes (offset + 12)
  curBlockPtr := wordAt bytes (offset + 14)
  filePtrOff := wordAt bytes (offset + 16)
  cmdSet := status.cmdSet

/-- A status set to zero. -/
def FileStatus.zero : FileStatus := ⟨0, 0, 0, 0, 0, 0, 0, 0⟩

/-! ## Reading, writing and erasing the flash -/

section

variable {D : Type} (board : Board D)

/-- `s_WriteFlash`: whether it failed. A write to the log goes to its copy too, and to the
chip three times or through `OtherWriteLog`. -/
def sWriteFlash (des : Nat) (src : List Byte) : Prog (Fs D) Bool :=
  if LOG_ADDR ≤ des ∧ des < LOG_ADDR + LOG_SIZE then
    if LOG_ADDR + LOG_SIZE < des + src.length then
      pure true
    else do
      Prog.modify fun fs => { fs with gLogSector := blit fs.gLogSector (des - LOG_ADDR) src }
      if board.hynix then
        let _ ← onFlash (board.nandWrite des src)
        let _ ← onFlash (board.nandWrite (des + LOG_SIZE) src)
        let _ ← onFlash (board.nandWrite (des + LOG_SIZE * 2) src)
        pure false
      else
        onFlash (board.otherWriteLog (des - LOG_ADDR) src)
  else
    onFlash (board.nandWrite des src)

/-- `s_ReadFlash` into a buffer of its own. -/
def sReadFlash (des wlen : Nat) : Prog (Fs D) (List Byte) :=
  onFlash fun flash => ((some (board.nandRead des wlen flash).1), (board.nandRead des wlen flash).2)

/-- `s_ReadFlash(LOG_ADDR, g_LogSector, sizeof(g_LogSector))`: the log into its copy, once
whole or as one log taken three times. -/
def readLogSector : Prog (Fs D) Unit := do
  if board.hynix then
    let bytes ← sReadFlash board LOG_ADDR BLOCK_SIZE
    Prog.modify fun fs => { fs with gLogSector := blit fs.gLogSector 0 bytes }
  else
    let bytes ← onFlash fun flash =>
      (some (board.otherReadLog flash).1, (board.otherReadLog flash).2)
    Prog.modify fun fs =>
      let log := blit fs.gLogSector 0 bytes
      let first := slice log 0 LOG_SIZE
      { fs with gLogSector := blit (blit log LOG_SIZE first) (LOG_SIZE * 2) first }

/-- `s_EraseSector`. -/
def sEraseSector (addr : Nat) : Prog (Fs D) Unit :=
  if LOG_ADDR ≤ addr ∧ addr < LOG_END_ADDR then do
    Prog.modify fun fs =>
      { fs with gLogSector := fun i => if i < BLOCK_SIZE then 0xFF else fs.gLogSector i }
    if board.hynix then
      onFlash (board.nandErase addr)
    else
      onFlash board.otherEraseLog
  else
    onFlash (board.nandErase addr)

/-- `if(NAND_ID_HYNIX != GetNandType()) OtherForceWrite()`. -/
def forceWrite : Prog (Fs D) Unit :=
  if board.hynix then pure () else onFlash board.otherForceWrite

/-- `s_ReadBlock`: a page of zeros with what is read over it. -/
def sReadBlock (addr len : Nat) : Prog (Fs D) (List Byte) :=
  if len = 0 then pure (List.replicate PAGE_SIZE 0)
  else do
    let bytes ← sReadFlash board addr (min len PAGE_SIZE)
    pure ((bytes ++ List.replicate PAGE_SIZE 0).take PAGE_SIZE)

/-- `s_WriteBlock`, which ignores a failure. -/
def sWriteBlock (blockPtr offset : Nat) (dat : List Byte) : Prog (Fs D) Unit := do
  let _ ← sWriteFlash board (DATA_ADDR + blockPtr * PAGE_SIZE + offset) dat

/-- The address of a page. -/
def pageAddr (blockPtr : Nat) : Nat := DATA_ADDR + blockPtr * PAGE_SIZE

/-- `s_WriteFlash(k_LogPtr, …)`, noted. -/
def writeLog (bytes : List Byte) (starts : Bool) : Prog (Fs D) Bool := do
  let kLogPtr ← Prog.read Fs.kLogPtr
  Prog.modify fun fs => { fs with logged := fs.logged ++ [⟨kLogPtr, bytes, starts⟩] }
  sWriteFlash board kLogPtr bytes

/-- `k_LogPtr += words`. -/
def advance (words : Nat) : Prog (Fs D) Unit :=
  Prog.modify fun fs => { fs with kLogPtr := fs.kLogPtr + 2 * words }

end

end PosFirmware.FileCore
