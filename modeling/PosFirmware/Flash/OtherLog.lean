import PosFirmware.Flash.FaultFree
import PosFirmware.Foundation.Run

/-! # The log area of other chips

On a chip that is not a Hynix, a write to the log sector is recorded as an item,
one page with four copies of the write. `otherWriteLog` appends an item,
`otherReadLog` applies the items in their order to an erased sector and finds
the index of the next one, and `otherEraseLog` begins anew.
-/

namespace PosFirmware.Flash

/-! ## Layout -/

def BAD_INFO_START : Nat := 48
def BAD_INFO_END : Nat := BAD_INFO_START + 3
def LOG_INFO_START : Nat := BAD_INFO_END + 1
def LOG_INFO_END : Nat := DATA_START_NUM - 1
def LOG_INFO_NUM : Nat := LOG_INFO_END - LOG_INFO_START + 1
def REWRITE_COPIES : Nat := 4
def ITEMS_PER_BLOCK : Nat := BLOCK_SIZE / PAGE_SIZE
def DATA_LOG_SIZE : Nat := PAGE_SIZE / REWRITE_COPIES
def LOG_TAG : BitVec 32 := 0x30474F4C
def RESERVE_LOG_NUM : Nat := 20
def LOG_SIZE : Nat := 0x6000

/-- The variables of the log, and the pages of the flash. -/
structure LogArea where
  logBlock : Nat → Nat
  logBlockNum : Nat
  logIndex : Nat
  otherForceWrite : Bool
  pages : Pages

/-! ## An item -/

/-- A `DATALOG` as it lies in memory: the tag, the offset, the length, the data. -/
def dataLog (des : Nat) (src : Buffer) (len : Nat) : Buffer :=
  let log : Buffer := fun i =>
    if i < 4 then LOG_TAG.extractLsb' (8 * i) 8
    else if i < 6 then (BitVec.ofNat 16 des).extractLsb' (8 * (i - 4)) 8
    else if i < 8 then (BitVec.ofNat 16 len).extractLsb' (8 * (i - 6)) 8
    else 0xFF
  memcpy log 8 src 0 len

def logFlag (log : Buffer) : BitVec 32 := log 3 ++ log 2 ++ log 1 ++ log 0
def logOffset (log : Buffer) : Ushort := log 5 ++ log 4
def logLen (log : Buffer) : Ushort := log 7 ++ log 6

/-- The page of an item: its copies one behind the other. -/
def itemPage (log : Buffer) : Buffer :=
  (List.range REWRITE_COPIES).foldl
    (fun buff i => memcpy buff (i * DATA_LOG_SIZE) log 0 DATA_LOG_SIZE) idleBytes

/-- The copies of a page, put together bit by bit. -/
def orCopies (inbuf : Buffer) : Buffer := fun k =>
  (List.range REWRITE_COPIES).foldl (fun log j => log ||| inbuf (j * DATA_LOG_SIZE + k)) 0

/-- Apply the item of a page; the result says whether a further one may follow. -/
def getPageItems (inbuf : Buffer) (output : Buffer) (logIndex : Nat) : Int × Buffer × Nat :=
  let log := orCopies inbuf
  let output :=
    if logFlag log = LOG_TAG then memcpy output (logOffset log).toNat log 8 (logLen log).toNat
    else output
  if logFlag log = 0xFFFFFFFF then (-1, output, logIndex) else (0, output, logIndex + 1)

/-! ## Operations -/

namespace LogArea

/-- `OtherForceWrite`. -/
def forceWrite (s : LogArea) : LogArea := { s with otherForceWrite := true }

/-- One block looked at by `OtherLogInit`. -/
def initBlock (isBadBlock : Nat → Bool) (state : (Nat → Nat) × Nat) (i : Nat) : (Nat → Nat) × Nat :=
  let logBlock := Function.update state.1 i LOG_INFO_START
  if isBadBlock (LOG_INFO_START + i) then (logBlock, state.2)
  else (Function.update logBlock state.2 (LOG_INFO_START + i), state.2 + 1)

def otherLogInit (isBadBlock : Nat → Bool) (s : LogArea) : LogArea :=
  let (logBlock, logBlockNum) :=
    (List.range LOG_INFO_NUM).foldl (initBlock isBadBlock) (s.logBlock, 0)
  { s with logBlock, logBlockNum, logIndex := 0, otherForceWrite := false }

/-- `maxIndex`, an `uint`. -/
def maxIndex (s : LogArea) : Nat :=
  (ITEMS_PER_BLOCK * s.logBlockNum + 2 ^ 32 - RESERVE_LOG_NUM) % 2 ^ 32

/-- The page of item number `n`. -/
def itemAddr (s : LogArea) (n : Nat) : Nat :=
  (s.logBlock (n / ITEMS_PER_BLOCK) * BLOCK_SIZE + n % ITEMS_PER_BLOCK * PAGE_SIZE) * 2

/-- Append an item; the table of the blocks ends behind `LOG_INFO_NUM` entries. -/
def otherWriteLog (s : LogArea) (des : Nat) (src : Buffer) (len : Nat) : Option (Int × LogArea) :=
  if s.otherForceWrite = false ∧ s.maxIndex < s.logIndex then some (-1, s)
  else if s.logIndex / ITEMS_PER_BLOCK < LOG_INFO_NUM then
    some (0, { s with
      pages := s.pages.program (pageNo (s.itemAddr s.logIndex)) (itemPage (dataLog des src len))
        PAGE_SIZE
      logIndex := s.logIndex + 1 })
  else none

/-- The pages that are read, block by block. -/
def logPages (s : LogArea) : List Nat :=
  (List.range s.logBlockNum).flatMap fun block => (List.range ITEMS_PER_BLOCK).map fun page =>
    pageNo ((s.logBlock block * BLOCK_SIZE + page * PAGE_SIZE) * 2)

/-- The loop of `OtherReadLog`, left at the first page without an item. -/
def readPages (pages : Pages) : List Nat → Buffer → Nat → Buffer × Nat
  | [], output, logIndex => (output, logIndex)
  | page :: rest, output, logIndex =>
      let (ret, output, logIndex) := getPageItems (pages page) output logIndex
      if ret ≠ 0 then (output, logIndex) else readPages pages rest output logIndex

def otherReadLog (s : LogArea) (output : Buffer) (len : Nat) : Buffer × LogArea :=
  let (output, logIndex) :=
    readPages s.pages s.logPages (memcpy output 0 idleBytes 0 len) 0
  (output, { s with logIndex })

def otherEraseLog (s : LogArea) : LogArea :=
  { s with
    logIndex := 0
    otherForceWrite := false
    pages := (List.range s.logBlockNum).foldl (fun pages i =>
      if s.logBlock i < LOG_INFO_START ∨ LOG_INFO_END < s.logBlock i then pages
      else pages.erase (s.logBlock i)) s.pages }

/-- The variables as they are set when the terminal starts. -/
def boot (isBadBlock : Nat → Bool) (pages : Pages) : LogArea :=
  otherLogInit isBadBlock
    { logBlock := fun _ => 0, logBlockNum := 0, logIndex := 0, otherForceWrite := false, pages }

end LogArea

end PosFirmware.Flash
