import PosFirmware.Flash.Ecc
import PosFirmware.Foundation.Halting

/-! # Physical access to the flash

The chip, its pages with their spare area, and the byte ranges read and written
by `s_nand_read`, `s_nand_write` and `s_nand_erase`. What an erase or a program
does to the chip is a parameter, so every pattern of failing blocks is a chip.
-/

namespace PosFirmware.Flash

open PosFirmware.Foundation

/-- A buffer of bytes. -/
abbrev Buffer := Nat → Byte

/-- An `unsigned short`. -/
abbrev Ushort := BitVec 16

/-! ## Layout -/

def BLOCK_SIZE : Nat := 0x20000
def BLOCK_PAGES : Nat := BLOCK_SIZE / PAGE_SIZE
def DATA_START_NUM : Nat := 64
def DATA_BLOCK_NUM : Nat := 960
def RESERVE_BLOCK_NUM : Nat := 64
def FS_BLOCK_NUM : Nat := DATA_BLOCK_NUM - RESERVE_BLOCK_NUM
def FAT1_ADDR : Nat := DATA_START_NUM * BLOCK_SIZE
def FAT2_ADDR : Nat := FAT1_ADDR + BLOCK_SIZE
def LOG_ADDR : Nat := FAT2_ADDR + BLOCK_SIZE
def NAND_PARA_ERROR : Int := -1006

/-- The flash chip and what the firmware knows of it: the effect of erasing a
block and of programming the first bytes of a page, the bytes of a page with its
spare area, the kind of chip, the table of bad blocks, the hash, and what an
uninitialised buffer on the stack holds. -/
structure Chip (δ : Type) where
  blkErase : δ → Nat → δ
  pagePrg : δ → Nat → Buffer → Nat → δ
  pageRd : δ → Nat → Buffer
  isHynix : Bool
  isBadBlock : Nat → Bool
  sha1 : List Byte → List Byte
  stackBuf : Buffer

/-- The state of the driver: the table `block_map` and the chip. -/
structure Nand (δ : Type) where
  blockMap : Nat → Ushort
  chip : δ

/-! ## Buffers -/

/-- `memcpy` of a range of one buffer to a place of another. -/
def memcpy (dst : Buffer) (at_ : Nat) (src : Buffer) (start len : Nat) : Buffer := fun i =>
  if at_ ≤ i ∧ i < at_ + len then src (start + (i - at_)) else dst i

/-- Whether `memcmp` finds no difference. -/
@[irreducible] def sameBytes (first second : Buffer) (len : Nat) : Bool :=
  decide (∀ i < len, first i = second i)

theorem sameBytes_iff (first second : Buffer) (len : Nat) :
    sameBytes first second len ↔ ∀ i < len, first i = second i := by
  unfold sameBytes
  exact decide_eq_true_iff

/-- A buffer of bytes read through a `uint *`. -/
def wordsOf (bytes : Buffer) : Words := fun i =>
  bytes (4 * i + 3) ++ bytes (4 * i + 2) ++ bytes (4 * i + 1) ++ bytes (4 * i)

/-- The bytes of a buffer, as they are hashed. -/
def bytesOf (bytes : Buffer) (len : Nat) : List Byte := (List.range len).map bytes

/-- A buffer of bytes that are all `0xFF`. -/
def idleBytes : Buffer := fun _ => 0xFF

/-! ## Pages -/

variable {δ : Type} (chip : Chip δ)

/-- Whether a page lies in the block that holds the log, whose pages carry no
error correction. -/
def inLogBlock (nand : Nand δ) (pageAddr : Nat) : Bool :=
  let logAddr := (nand.blockMap (LOG_ADDR / BLOCK_SIZE)).toNat * BLOCK_SIZE
  decide (logAddr ≤ pageAddr / 2 ∧ pageAddr / 2 < logAddr + BLOCK_SIZE)

/-- Read and correct one page. -/
def nandPhyPageRead (nand : Nand δ) (pageAddr : Nat) : Int × Buffer :=
  if pageAddr / 2 < DATA_START_NUM * BLOCK_SIZE then (NAND_PARA_ERROR, fun _ => 0)
  else if inLogBlock nand pageAddr then (NAND_RET_OK, chip.pageRd nand.chip pageAddr)
  else
    let rbuf := chip.pageRd nand.chip pageAddr
    -- nothing was written to the page since it was erased
    if ∀ i < 64, rbuf (PAGE_SIZE + i) = 0xFF then (NAND_RET_OK, rbuf)
    else
      match eccCorrect chip.sha1 (wordsOf rbuf) with
      | (ret, some dataout) => (ret, byteAt dataout)
      | (ret, none) => (ret, fun _ => 0)

/-- A page as it is programmed: the data, the parity and two copies of the hash. -/
def pageImage (src : Buffer) : Buffer :=
  let hashBuf : Buffer := fun i => (chip.sha1 (bytesOf src PAGE_SIZE)).getD i 0
  let src := memcpy src PAGE_SIZE (byteAt (calEcc (wordsOf src))) 0 32
  let src := memcpy src (PAGE_SIZE + 32) hashBuf 0 HASH_SIZE
  memcpy src (PAGE_SIZE + 32 + HASH_SIZE) hashBuf 0 HASH_SIZE

/-- Program one page. -/
def nandPhyPageWrite (nand : Nand δ) (pageAddr : Nat) (src : Buffer) : Int × Nand δ :=
  if pageAddr / 2 < DATA_START_NUM * BLOCK_SIZE then (NAND_PARA_ERROR, nand)
  else if inLogBlock nand pageAddr then
    (NAND_RET_OK, { nand with chip := chip.pagePrg nand.chip pageAddr src PAGE_SIZE })
  else
    (NAND_RET_OK,
      { nand with
        chip := chip.pagePrg nand.chip pageAddr (pageImage chip src) (PAGE_SIZE + 64) })

/-! ## Byte ranges -/

/-- The bytes of a range that lie in its first page. -/
def leaveBytes (offset dataLen : Nat) : Nat :=
  if offset % PAGE_SIZE + dataLen ≤ PAGE_SIZE then dataLen else PAGE_SIZE - offset % PAGE_SIZE

/-- The number of pages a range touches. -/
def numberOfSectors (offset dataLen : Nat) : Nat :=
  if (offset + dataLen) % PAGE_SIZE ≠ 0 then
    (offset + dataLen) / PAGE_SIZE - offset / PAGE_SIZE + 1
  else (offset + dataLen) / PAGE_SIZE - offset / PAGE_SIZE

/-- The part of a range in its page number `i`: the place in the page, the place
in the data, and the number of bytes. -/
def sectorPart (offset dataLen i : Nat) : Nat × Nat × Nat :=
  let first := leaveBytes offset dataLen
  if i = 0 then (offset % PAGE_SIZE, 0, first)
  else
    let done := first + (i - 1) * PAGE_SIZE
    if i = numberOfSectors offset dataLen - 1 then (0, done, dataLen - done)
    else (0, done, PAGE_SIZE)

/-- The address of page number `i` of a range. -/
def sectorAddr (offset i : Nat) : Nat := offset / PAGE_SIZE * 2 * PAGE_SIZE + i * (2 * PAGE_SIZE)

/-- Read page number `i` of a range into the data. -/
def readSector (nand : Nand δ) (offset dataLen : Nat) (state : Int × Buffer) (i : Nat) :
    Int × Buffer :=
  let (start, done, len) := sectorPart offset dataLen i
  let (ret, rbuf) := nandPhyPageRead chip nand (sectorAddr offset i)
  (if ret < 0 then ret else state.1, memcpy state.2 done rbuf start len)

/-- Read a range of bytes: the result is the last error of a page, and the data
of a page that could not be corrected are zeros. -/
def sNandRead (nand : Nand δ) (offset dataLen : Nat) : Int × Buffer :=
  (List.range (numberOfSectors offset dataLen)).foldl (readSector chip nand offset dataLen)
    (NAND_RET_OK, fun _ => 0)

/-- Write page number `i` of a range, filled up with `0xFF`. -/
def writeSector (offset : Nat) (data : Buffer) (dataLen : Nat) (state : Int × Nand δ) (i : Nat) :
    Int × Nand δ :=
  let (start, done, len) := sectorPart offset dataLen i
  let (ret, nand) := nandPhyPageWrite chip state.2 (sectorAddr offset i)
    (memcpy idleBytes start data done len)
  (if ret ≠ NAND_RET_OK then ret else state.1, nand)

/-- Write a range of bytes. -/
def sNandWrite (nand : Nand δ) (offset : Nat) (data : Buffer) (dataLen : Nat) : Int × Nand δ :=
  (List.range (numberOfSectors offset dataLen)).foldl (writeSector chip offset data dataLen)
    (NAND_RET_OK, nand)

/-- Erase a block, unless the table of bad blocks lists it. -/
def sNandErase (nand : Nand δ) (blockNum : Nat) : Int × Nand δ :=
  if blockNum < DATA_START_NUM then (0, nand)
  else if !chip.isHynix ∧ chip.isBadBlock blockNum then (-1, nand)
  else (0, { nand with chip := chip.blkErase nand.chip blockNum })

end PosFirmware.Flash
