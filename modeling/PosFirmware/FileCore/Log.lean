import PosFirmware.FileCore.Tables

/-! # The operation log

The log starts 16 bytes into its sector. An entry of one step is written whole; an entry
of two steps, for a write or a truncation, is completed by a `CMD_OK` after the change.
Where the log is full, or a write to it fails, the tables are saved and the log starts
again.
-/

namespace PosFirmware.FileCore

open PosFirmware.Foundation

variable {D : Type} (board : Board D)

/-! ## Saving the tables -/

def ALL_PAGES : Nat := board.dataSectors * BLOCK_PAGES

def FAT_SIZE : Nat := MAX_FILES * 24 + ALL_PAGES board * 2 + 32

def sLogErase : Prog (Fs D) Unit := do
  forceWrite board
  let _ ← sWriteFlash board (LOG_ADDR + LOG_SIZE - 8) (List.replicate 8 0)
  let _ ← sWriteFlash board LOG_ADDR (wordBytes CMD_OK)
  sEraseSector board LOG_ADDR
  let _ ← sWriteFlash board (LOG_ADDR + LOG_SIZE - 8) LOG_VERSION_FLAG
  Prog.modify fun fs => { fs with kLogPtr := LOG_ADDR + 16 }

/-- The buffer that is saved: the tables, and what stands behind them in memory. -/
def sectorBuf (tables : Tables) : List Byte :=
  (FAT_VERSION_FLAG ++ longBytes tables.kExchangeAddr ++ wordBytes tables.kFreePageNum ++
    wordBytes tables.kUsedPageNum ++ wordBytes tables.kFreePagePtr ++
    (List.range (ALL_PAGES board)).flatMap (fun page => wordBytes (tables.kFAT page)) ++
    (List.range MAX_FILES).flatMap (fun fd => (tables.kFlist fd).toBytes) ++
    (List.range 14).map board.stray).take (FAT_SIZE board)

/-- One copy of the tables, in three tries. -/
def saveCopy (fatAddr fatLogAddr : Nat) (buf : List Byte) : Prog (Fs D) Unit := do
  let saved ← Prog.firstM (fun _ => do
      sEraseSector board fatAddr
      if ← sWriteFlash board fatAddr buf then
        pure none
      else
        let _ ← sWriteFlash board fatLogAddr (wordBytes CMD_OK)
        pure (some ())) (List.range 3)
  onlyIf saved.isNone sWriteFlashFailed

def sSaveFAT : Prog (Fs D) Unit := do
  forceWrite board
  let _ ← sWriteFlash board FAT1_LOG_ADDR (wordBytes CMD_SET)
  let saved ← tables
  saveCopy board FAT1_ADDR FAT1_LOG_ADDR (sectorBuf board saved)
  saveCopy board FAT2_ADDR FAT2_LOG_ADDR (sectorBuf board saved)
  sLogErase board

/-- `if((uint)k_LogPtr>LOG_END_ADDR) s_SaveFAT()`. -/
def saveWhenFull : Prog (Fs D) Unit := do
  onlyIf (LOG_END_ADDR < (← Prog.read Fs.kLogPtr)) (sSaveFAT board)

/-! ## Writing entries -/

/-- An entry of one step, of a number of words. -/
def logEntry (entry : List Byte) (words : Nat) : Prog (Fs D) Unit := do
  if ← writeLog board entry true then
    sSaveFAT board
  else
    advance words
    saveWhenFull board

/-- An entry written again, in a new log. -/
def logAgain (entry : List Byte) : Prog (Fs D) Unit := do
  sSaveFAT board
  onlyIf (← writeLog board entry true) sWriteFlashFailed

/-- The first step of an entry of two. -/
def logStart (entry : List Byte) (words : Nat) : Prog (Fs D) Unit := do
  onlyIf (← writeLog board entry true) (logAgain board entry)
  advance words

def sLogCmdOK : Prog (Fs D) Unit := do
  if ← writeLog board (wordBytes CMD_OK) false then
    sSaveFAT board
  else
    advance 1
    saveWhenFull board

def kLogTruncateFile (fd : Nat) (len : Int) : Prog (Fs D) Unit :=
  logStart board (wordBytes TRUNCATE_FILE ++ wordBytes fd ++ longBytes len ++ wordBytes CMD_SET) 4

def kLogRemoveFile (fd : Nat) : Prog (Fs D) Unit :=
  logEntry board (wordBytes REMOVE_FILE ++ wordBytes fd ++ wordBytes CMD_OK) 3

def kLogCeateFile (fd : Nat) (attr type : Byte) (filename : List Byte) : Prog (Fs D) Unit :=
  logEntry board (wordBytes CREATE_FILE ++ wordBytes fd ++ [attr, type] ++ filename.take 16 ++
    wordBytes CMD_OK) 12

def sLogExchangeData (sAddr : Nat) : Prog (Fs D) Unit :=
  logEntry board (wordBytes EXCHANGE_DATA ++ wordBytes (ushort sAddr) ++
    wordBytes (ushort (sAddr / 0x10000)) ++ wordBytes CMD_OK) 4

end PosFirmware.FileCore
