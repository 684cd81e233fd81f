import PosFirmware.Foundation.Cipher
import PosFirmware.Foundation.Words
import Mathlib.Logic.Function.Basic

/-! # The block cipher of the keypad

`des` as the firmware computes it: a schedule of 32 key words from a key of eight bytes, two
permutations done by exchanges of bits, and sixteen rounds that look eight groups of six bits
up in tables. Decryption runs the same rounds with the schedule backwards.
-/

namespace PosFirmware.Encrypt

open Foundation

abbrev Byte := BitVec 8

abbrev Word := BitVec 32

/-- The mode of a decryption. Every other one encrypts. -/
def DE1 : Int := 0

def EN0 : Int := 1

/-! ## The tables -/

def bytebit (i : Nat) : Byte := 0x80 >>> i

def bigbyte (i : Nat) : Word := 0x800000 >>> i

def pc1 : List Nat := [
  56, 48, 40, 32, 24, 16, 8, 0, 57, 49, 41, 33, 25, 17,
  9, 1, 58, 50, 42, 34, 26, 18, 10, 2, 59, 51, 43, 35,
  62, 54, 46, 38, 30, 22, 14, 6, 61, 53, 45, 37, 29, 21,
  13, 5, 60, 52, 44, 36, 28, 20, 12, 4, 27, 19, 11, 3]

def totrot : List Nat := [1, 2, 4, 6, 8, 10, 12, 14, 15, 17, 19, 21, 23, 25, 27, 28]

def pc2 : List Nat := [
  13, 16, 10, 23, 0, 4, 2, 27, 14, 5, 20, 9,
  22, 18, 11, 3, 25, 7, 15, 6, 26, 19, 12, 1,
  40, 51, 30, 36, 46, 54, 29, 39, 50, 44, 32, 47,
  43, 48, 38, 55, 33, 52, 45, 41, 49, 35, 28, 31]

def sp1 : List Word := [
  0x01010400, 0x00000000, 0x00010000, 0x01010404, 0x01010004, 0x00010404, 0x00000004, 0x00010000,
  0x00000400, 0x01010400, 0x01010404, 0x00000400, 0x01000404, 0x01010004, 0x01000000, 0x00000004,
  0x00000404, 0x01000400, 0x01000400, 0x00010400, 0x00010400, 0x01010000, 0x01010000, 0x01000404,
  0x00010004, 0x01000004, 0x01000004, 0x00010004, 0x00000000, 0x00000404, 0x00010404, 0x01000000,
  0x00010000, 0x01010404, 0x00000004, 0x01010000, 0x01010400, 0x01000000, 0x01000000, 0x00000400,
  0x01010004, 0x00010000, 0x00010400, 0x01000004, 0x00000400, 0x00000004, 0x01000404, 0x00010404,
  0x01010404, 0x00010004, 0x01010000, 0x01000404, 0x01000004, 0x00000404, 0x00010404, 0x01010400,
  0x00000404, 0x01000400, 0x01000400, 0x00000000, 0x00010004, 0x00010400, 0x00000000, 0x01010004]

def sp2 : List Word := [
  0x80108020, 0x80008000, 0x00008000, 0x00108020, 0x00100000, 0x00000020, 0x80100020, 0x80008020,
  0x80000020, 0x80108020, 0x80108000, 0x80000000, 0x80008000, 0x00100000, 0x00000020, 0x80100020,
  0x00108000, 0x00100020, 0x80008020, 0x00000000, 0x80000000, 0x00008000, 0x00108020, 0x80100000,
  0x00100020, 0x80000020, 0x00000000, 0x00108000, 0x00008020, 0x80108000, 0x80100000, 0x00008020,
  0x00000000, 0x00108020, 0x80100020, 0x00100000, 0x80008020, 0x80100000, 0x80108000, 0x00008000,
  0x80100000, 0x80008000, 0x00000020, 0x80108020, 0x00108020, 0x00000020, 0x00008000, 0x80000000,
  0x00008020, 0x80108000, 0x00100000, 0x80000020, 0x00100020, 0x80008020, 0x80000020, 0x00100020,
  0x00108000, 0x00000000, 0x80008000, 0x00008020, 0x80000000, 0x80100020, 0x80108020, 0x00108000]

def sp3 : List Word := [
  0x00000208, 0x08020200, 0x00000000, 0x08020008, 0x08000200, 0x00000000, 0x00020208, 0x08000200,
  0x00020008, 0x08000008, 0x08000008, 0x00020000, 0x08020208, 0x00020008, 0x08020000, 0x00000208,
  0x08000000, 0x00000008, 0x08020200, 0x00000200, 0x00020200, 0x08020000, 0x08020008, 0x00020208,
  0x08000208, 0x00020200, 0x00020000, 0x08000208, 0x00000008, 0x08020208, 0x00000200, 0x08000000,
  0x08020200, 0x08000000, 0x00020008, 0x00000208, 0x00020000, 0x08020200, 0x08000200, 0x00000000,
  0x00000200, 0x00020008, 0x08020208, 0x08000200, 0x08000008, 0x00000200, 0x00000000, 0x08020008,
  0x08000208, 0x00020000, 0x08000000, 0x08020208, 0x00000008, 0x00020208, 0x00020200, 0x08000008,
  0x08020000, 0x08000208, 0x00000208, 0x08020000, 0x00020208, 0x00000008, 0x08020008, 0x00020200]

def sp4 : List Word := [
  0x00802001, 0x00002081, 0x00002081, 0x00000080, 0x00802080, 0x00800081, 0x00800001, 0x00002001,
  0x00000000, 0x00802000, 0x00802000, 0x00802081, 0x00000081, 0x00000000, 0x00800080, 0x00800001,
  0x00000001, 0x00002000, 0x00800000, 0x00802001, 0x00000080, 0x00800000, 0x00002001, 0x00002080,
  0x00800081, 0x00000001, 0x00002080, 0x00800080, 0x00002000, 0x00802080, 0x00802081, 0x00000081,
  0x00800080, 0x00800001, 0x00802000, 0x00802081, 0x00000081, 0x00000000, 0x00000000, 0x00802000,
  0x00002080, 0x00800080, 0x00800081, 0x00000001, 0x00802001, 0x00002081, 0x00002081, 0x00000080,
  0x00802081, 0x00000081, 0x00000001, 0x00002000, 0x00800001, 0x00002001, 0x00802080, 0x00800081,
  0x00002001, 0x00002080, 0x00800000, 0x00802001, 0x00000080, 0x00800000, 0x00002000, 0x00802080]

def sp5 : List Word := [
  0x00000100, 0x02080100, 0x02080000, 0x42000100, 0x00080000, 0x00000100, 0x40000000, 0x02080000,
  0x40080100, 0x00080000, 0x02000100, 0x40080100, 0x42000100, 0x42080000, 0x00080100, 0x40000000,
  0x02000000, 0x40080000, 0x40080000, 0x00000000, 0x40000100, 0x42080100, 0x42080100, 0x02000100,
  0x42080000, 0x40000100, 0x00000000, 0x42000000, 0x02080100, 0x02000000, 0x42000000, 0x00080100,
  0x00080000, 0x42000100, 0x00000100, 0x02000000, 0x40000000, 0x02080000, 0x42000100, 0x40080100,
  0x02000100, 0x40000000, 0x42080000, 0x02080100, 0x40080100, 0x00000100, 0x02000000, 0x42080000,
  0x42080100, 0x00080100, 0x42000000, 0x42080100, 0x02080000, 0x00000000, 0x40080000, 0x42000000,
  0x00080100, 0x02000100, 0x40000100, 0x00080000, 0x00000000, 0x40080000, 0x02080100, 0x40000100]

def sp6 : List Word := [
  0x20000010, 0x20400000, 0x00004000, 0x20404010, 0x20400000, 0x00000010, 0x20404010, 0x00400000,
  0x20004000, 0x00404010, 0x00400000, 0x20000010, 0x00400010, 0x20004000, 0x20000000, 0x00004010,
  0x00000000, 0x00400010, 0x20004010, 0x00004000, 0x00404000, 0x20004010, 0x00000010, 0x20400010,
  0x20400010, 0x00000000, 0x00404010, 0x20404000, 0x00004010, 0x00404000, 0x20404000, 0x20000000,
  0x20004000, 0x00000010, 0x20400010, 0x00404000, 0x20404010, 0x00400000, 0x00004010, 0x20000010,
  0x00400000, 0x20004000, 0x20000000, 0x00004010, 0x20000010, 0x20404010, 0x00404000, 0x20400000,
  0x00404010, 0x20404000, 0x00000000, 0x20400010, 0x00000010, 0x00004000, 0x20400000, 0x00404010,
  0x00004000, 0x00400010, 0x20004010, 0x00000000, 0x20404000, 0x20000000, 0x00400010, 0x20004010]

def sp7 : List Word := [
  0x00200000, 0x04200002, 0x04000802, 0x00000000, 0x00000800, 0x04000802, 0x00200802, 0x04200800,
  0x04200802, 0x00200000, 0x00000000, 0x04000002, 0x00000002, 0x04000000, 0x04200002, 0x00000802,
  0x04000800, 0x00200802, 0x00200002, 0x04000800, 0x04000002, 0x04200000, 0x04200800, 0x00200002,
  0x04200000, 0x00000800, 0x00000802, 0x04200802, 0x00200800, 0x00000002, 0x04000000, 0x00200800,
  0x04000000, 0x00200800, 0x00200000, 0x04000802, 0x04000802, 0x04200002, 0x04200002, 0x00000002,
  0x00200002, 0x04000000, 0x04000800, 0x00200000, 0x04200800, 0x00000802, 0x00200802, 0x04200800,
  0x00000802, 0x04000002, 0x04200802, 0x04200000, 0x00200800, 0x00000000, 0x00000002, 0x04200802,
  0x00000000, 0x00200802, 0x04200000, 0x00000800, 0x04000002, 0x04000800, 0x00000800, 0x00200002]

def sp8 : List Word := [
  0x10001040, 0x00001000, 0x00040000, 0x10041040, 0x10000000, 0x10001040, 0x00000040, 0x10000000,
  0x00040040, 0x10040000, 0x10041040, 0x00041000, 0x10041000, 0x00041040, 0x00001000, 0x00000040,
  0x10040000, 0x10000040, 0x10001000, 0x00001040, 0x00041000, 0x00040040, 0x10040040, 0x10041000,
  0x00001040, 0x00000000, 0x00000000, 0x10040040, 0x10000040, 0x10001000, 0x00041040, 0x00040000,
  0x00041040, 0x00040000, 0x10041000, 0x00001000, 0x00000040, 0x10040040, 0x00001000, 0x00041040,
  0x10001000, 0x00000040, 0x10000040, 0x10040000, 0x10040040, 0x10000000, 0x00040000, 0x10001040,
  0x00000000, 0x10041040, 0x00040040, 0x10000040, 0x10040000, 0x10001000, 0x10001040, 0x00000000,
  0x10041040, 0x00041000, 0x00041000, 0x00001040, 0x00001040, 0x00040040, 0x10000000, 0x10041000]

/-! ## The schedule -/

/-- The bit of the key that the first choice puts at a place. -/
def pc1m (key : List Byte) (j : Nat) : Bool :=
  let l := pc1.getD j 0
  let m := l &&& 7
  decide (key.getD (l >>> 3) 0 &&& bytebit m ≠ 0)

/-- The two halves of the chosen bits, each rotated for a round. -/
def pcr (key : List Byte) (i j : Nat) : Bool :=
  let l := j + totrot.getD i 0
  if j < 28 then
    if l < 28 then pc1m key l else pc1m key (l - 28)
  else
    if l < 56 then pc1m key l else pc1m key (l - 28)

/-- The 24 bits of half a round key, the first on top. -/
def rawKey (key : List Byte) (i skip : Nat) : Word :=
  (List.range 24).foldl (fun kn j =>
    if pcr key i (pc2.getD (j + skip) 0) then kn ||| bigbyte j else kn) 0

/-- The bits of two words, brought where the rounds look them up. -/
def cookey (raw : Nat → Word) : Nat → Word := fun place =>
  let raw0 := raw (place / 2 * 2)
  let raw1 := raw (place / 2 * 2 + 1)
  if place % 2 = 0 then
    (raw0 &&& 0x00fc0000) <<< 6 ||| (raw0 &&& 0x00000fc0) <<< 10 |||
      (raw1 &&& 0x00fc0000) >>> 10 ||| (raw1 &&& 0x00000fc0) >>> 6
  else
    (raw0 &&& 0x0003f000) <<< 12 ||| (raw0 &&& 0x0000003f) <<< 16 |||
      (raw1 &&& 0x0003f000) >>> 4 ||| (raw1 &&& 0x0000003f)

/-- The words of the schedule before they are cooked. -/
def rawSchedule (key : List Byte) (edf : Int) : Nat → Word :=
  (List.range 16).foldl (fun kn i =>
    let m := if edf = DE1 then (15 - i) <<< 1 else i <<< 1
    let n := m + 1
    Function.update (Function.update kn m (rawKey key i 0)) n (rawKey key i 24)) fun _ => 0

def deskey (key : List Byte) (edf : Int) : Nat → Word := cookey (rawSchedule key edf)

/-! ## The rounds -/

/-- The two words of a block, big-endian. -/
def scrunch (outof : List Byte) : Word × Word :=
  (joinOctets (outof.getD 0 0) (outof.getD 1 0) (outof.getD 2 0) (outof.getD 3 0),
    joinOctets (outof.getD 4 0) (outof.getD 5 0) (outof.getD 6 0) (outof.getD 7 0))

def unscrun (outof : Word × Word) : List Byte :=
  [octet outof.1 24, octet outof.1 16, octet outof.1 8, octet outof.1 0,
    octet outof.2 24, octet outof.2 16, octet outof.2 8, octet outof.2 0]

def rotateUp (word : Word) : Word := word <<< 1 ||| (word >>> 31 &&& 1)

def rotateDown (word : Word) : Word := word <<< 31 ||| word >>> 1

/-- The permutation before the rounds. Both halves end up rotated by one bit. -/
def permuteIn (block : Word × Word) : Word × Word :=
  let (leftt, right) := exchange 4 0x0f0f0f0f block
  let (leftt, right) := exchange 16 0x0000ffff (leftt, right)
  let (right, leftt) := exchange 2 0x33333333 (right, leftt)
  let (right, leftt) := exchange 8 0x00ff00ff (right, leftt)
  let right := rotateUp right
  let (leftt, right) := exchange 0 0xaaaaaaaa (leftt, right)
  (rotateUp leftt, right)

/-- The permutation behind the rounds. The halves change places. -/
def permuteOut (halves : Word × Word) : Word × Word :=
  let (leftt, right) := halves
  let right := rotateDown right
  let (leftt, right) := exchange 0 0xaaaaaaaa (leftt, right)
  let leftt := rotateDown leftt
  let (leftt, right) := exchange 8 0x00ff00ff (leftt, right)
  let (leftt, right) := exchange 2 0x33333333 (leftt, right)
  let (right, leftt) := exchange 16 0x0000ffff (right, leftt)
  let (right, leftt) := exchange 4 0x0f0f0f0f (right, leftt)
  (right, leftt)

/-- Six bits of a word looked up in a table. -/
def lookUp (table : List Word) (work : Word) (shift : Nat) : Word :=
  table.getD (work >>> shift &&& 0x3f).toNat 0

/-- The value of a round from a half and two words of the schedule. -/
def fval (keys : Word × Word) (half : Word) : Word :=
  let work := (half <<< 28 ||| half >>> 4) ^^^ keys.1
  let fval := lookUp sp7 work 0 ||| lookUp sp5 work 8 ||| lookUp sp3 work 16 ||| lookUp sp1 work 24
  let work := half ^^^ keys.2
  fval ||| lookUp sp8 work 0 ||| lookUp sp6 work 8 ||| lookUp sp4 work 16 ||| lookUp sp2 work 24

/-- One turn of the loop: two rounds with four words of the schedule. -/
def desTurn (keys : Nat → Word) (halves : Word × Word) (round : Nat) : Word × Word :=
  let leftt := halves.1 ^^^ fval (keys (4 * round), keys (4 * round + 1)) halves.2
  let right := halves.2 ^^^ fval (keys (4 * round + 2), keys (4 * round + 3)) leftt
  (leftt, right)

def desfunc (block : Word × Word) (keys : Nat → Word) : Word × Word :=
  permuteOut ((List.range 8).foldl (desTurn keys) (permuteIn block))

def sDes (inblock : List Byte) (KnL : Nat → Word) : List Byte := unscrun (desfunc (scrunch inblock) KnL)

/-- A block encrypted or decrypted with a key. -/
def des (input key : List Byte) (mode : Int) : List Byte := sDes input (deskey key mode)

end PosFirmware.Encrypt
