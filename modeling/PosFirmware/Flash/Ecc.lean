import PosFirmware.Foundation.Parity

/-! # Page error correction

The row and column parity code of a flash page. A page is a matrix of
`MATRIX_NUM` rows of `MATRIX_NUM` bits; `calEcc` stores the parity of every
column and of every row, and `eccCorrect` searches the pages that explain a
mismatch for one with the stored hash.
-/

namespace PosFirmware.Flash

/-- An `unsigned char`. -/
abbrev Byte := BitVec 8

/-- An `unsigned int`. -/
abbrev Word := BitVec 32

/-- A buffer read through a `uint *`. -/
abbrev Words := Nat → Word

def PAGE_SIZE : Nat := 2048
def HASH_SIZE : Nat := 12
def MATRIX_NUM : Nat := 128
def NAND_RET_OK : Int := 0

/-- The byte at an offset of a buffer, read through a `uchar *`. -/
def byteAt (buffer : Words) (offset : Nat) : Byte :=
  (buffer (offset / 4)).extractLsb' (8 * (offset % 4)) 8

/-- The bit at an offset of a buffer. -/
def bitAt (buffer : Words) (offset : Nat) : Bool :=
  (buffer (offset / 32)).getLsbD (offset % 32)

/-- The bytes of a page, as they are hashed. -/
def pageBytes (buffer : Words) : List Byte :=
  (List.range PAGE_SIZE).map (byteAt buffer)

/-- Whether a word has an odd number of raised bits. -/
def isBitodd (dt : Word) : Word :=
  let dt := (dt >>> 16) ^^^ dt
  let dt := (dt >>> 8) ^^^ dt
  let dt := (dt >>> 4) ^^^ dt
  let dt := (dt >>> 2) ^^^ dt
  ((dt >>> 1) ^^^ dt) &&& 1

/-- The loop of `bit1Num`: one bit a turn until the word is zero. -/
def bit1NumLoop : Nat → Word → Nat → Nat
  | 0, _, rsl => rsl
  | fuel + 1, dt, rsl =>
      let rsl := if dt &&& 1 = 0 then rsl else rsl + 1
      let dt := dt >>> 1
      if dt = 0 then rsl else bit1NumLoop fuel dt rsl

/-- The number of raised bits of a word. -/
def bit1Num (dt : Word) : Nat := bit1NumLoop 32 dt 0

/-- One row of the matrix: its words go to the column parities and its parity
to the row parities. -/
def calEccRow (datain : Words) (eccBuf : Words) (row : Nat) : Words :=
  let scanned := (List.range (MATRIX_NUM / 32)).foldl
    (fun (state : Word × Words) col =>
      (state.1 ^^^ datain (MATRIX_NUM / 32 * row + col),
        Function.update state.2 col (state.2 col ^^^ datain (MATRIX_NUM / 32 * row + col))))
    (0, eccBuf)
  Function.update scanned.2 (MATRIX_NUM / 32 + row / 32)
    (scanned.2 (MATRIX_NUM / 32 + row / 32) ||| isBitodd scanned.1 <<< (row % 32))

/-- The eight words of parity of a page: four of columns, then four of rows. -/
def calEcc (datain : Words) : Words :=
  (List.range MATRIX_NUM).foldl (calEccRow datain) (fun _ => 0)

/-- The stored copies of the hash merged into the first one: where a byte
differs, the bits of the first copy that are not above those of the second are
raised. -/
def mergeHashByte (first second : Byte) : Byte :=
  if first = second then first
  else (List.range 8).foldl (fun pt j =>
    let bit := (1 : Byte) <<< j
    if (pt &&& bit) > (second &&& bit) then pt else pt ||| bit) first

/-- The hash kept with a page, merged from its two copies. -/
def storedHash (datain : Words) : List Byte :=
  (List.range HASH_SIZE).map fun i =>
    mergeHashByte (byteAt datain (PAGE_SIZE + 32 + i))
      (byteAt datain (PAGE_SIZE + 32 + HASH_SIZE + i))

/-- One bit looked at by the search for the raised bits of a syndrome. The
search leaves both loops once it has a second position. -/
def bitmapStep (syndrome : Words) (i : Nat) (bitmap : Int × Int) (j : Nat) : Int × Int :=
  if 0 < bitmap.2 then bitmap
  else if (byteAt syndrome i).getLsbD j = false then bitmap
  else if bitmap.1 < 0 then ((i * 8 + j : Nat), bitmap.2)
  else (bitmap.1, (i * 8 + j : Nat))

/-- The positions of the first two raised bits of a syndrome, `-1` where there
is none. -/
def bitmaps (syndrome : Words) : Int × Int :=
  (List.range (MATRIX_NUM / 8)).foldl (fun bitmap i =>
    if 0 < bitmap.2 then bitmap
    else if byteAt syndrome i = 0 then bitmap
    else (List.range 8).foldl (bitmapStep syndrome i) bitmap) (-1, -1)

/-- Flip one bit of the matrix. -/
def flipBit (datain : Words) (row col : Int) : Words :=
  let word := row.toNat * (MATRIX_NUM / 32) + col.toNat / 32
  Function.update datain word (datain word ^^^ (1 : Word) <<< (col.toNat % 32))

/-- The pages tried, in order, for the numbers of raised column and row
parities and their positions, with the result of a match and of the failure. -/
def eccCandidates (datain : Words) (colErrNum rowErrNum : Nat) (col row : Int × Int) :
    List Words × Int × Int :=
  let lines := List.range MATRIX_NUM
  if colErrNum = 0 ∧ rowErrNum = 1 then
    (lines.map fun i : Nat => flipBit datain row.1 i, 0x101, -0x01)
  else if colErrNum = 1 ∧ rowErrNum = 0 then
    (lines.map fun i : Nat => flipBit datain i col.1, 0x110, -0x10)
  else if colErrNum = 1 ∧ rowErrNum = 1 then
    ([flipBit datain row.1 col.1], 0x11, -0x11)
  else if colErrNum = 0 ∧ rowErrNum = 2 then
    (lines.map fun i : Nat => flipBit (flipBit datain row.1 i) row.2 i, 0x102, -0x02)
  else if colErrNum = 1 ∧ rowErrNum = 2 then
    ([flipBit datain row.1 col.1, flipBit datain row.2 col.1] ++
      lines.map (fun i : Nat => flipBit (flipBit datain row.1 i) row.2 i), 0x112, -0x12)
  else if colErrNum = 2 ∧ rowErrNum = 0 then
    (lines.map fun i : Nat => flipBit (flipBit datain i col.1) i col.2, 0x120, -0x20)
  else if colErrNum = 2 ∧ rowErrNum = 1 then
    ([flipBit datain row.1 col.1, flipBit datain row.1 col.2] ++
      lines.map (fun i : Nat => flipBit (flipBit datain i col.1) i col.2), 0x121, -0x21)
  else if colErrNum = 2 ∨ rowErrNum = 2 then
    ([flipBit (flipBit datain row.1 col.1) row.2 col.2,
      flipBit (flipBit datain row.1 col.2) row.2 col.1], 0x122, -0x22)
  else ([], 0, -0x1000)

/-- The column parities that differ from the stored ones. -/
def colEccBuf (datain : Words) : Words := fun i => calEcc datain i ^^^ datain (PAGE_SIZE / 4 + i)

/-- The row parities that differ from the stored ones. -/
def rowEccBuf (datain : Words) : Words := fun i =>
  calEcc datain (MATRIX_NUM / 32 + i) ^^^ datain ((PAGE_SIZE + 16) / 4 + i)

/-- The number of raised bits of a syndrome. -/
def errNum (syndrome : Words) : Nat :=
  (List.range 4).foldl (fun total i => total + bit1Num (syndrome i)) 0

/-- The pages hashed for a page read, in order, with the result of a match and
of the failure. -/
def eccTried (datain : Words) : List Words × Int × Int :=
  let colErrNum := errNum (colEccBuf datain)
  let rowErrNum := errNum (rowEccBuf datain)
  if 2 < colErrNum then ([], 0, -0x30)
  else if 2 < rowErrNum then ([], 0, -0x03)
  else eccCandidates datain colErrNum rowErrNum (bitmaps (colEccBuf datain))
    (bitmaps (rowEccBuf datain))

/-- Correct a page read with its spare area. The result is negative when no page
with the stored hash was found, and then no data is delivered. -/
def eccCorrect (sha1 : List Byte → List Byte) (datain : Words) : Int × Option Words :=
  let hashMatches (page : Words) : Bool :=
    (sha1 (pageBytes page)).take HASH_SIZE == storedHash datain
  if hashMatches datain then (NAND_RET_OK, some datain)
  else
    let tried := eccTried datain
    match tried.1.find? hashMatches with
    | some page => (tried.2.1, some page)
    | none => (tried.2.2, none)

end PosFirmware.Flash
