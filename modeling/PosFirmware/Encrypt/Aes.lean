import PosFirmware.Foundation.Cipher
import PosFirmware.Foundation.Words
import PosFirmware.Foundation.Loop
import PosFirmware.Encrypt.Des

/-! # The second block cipher

`AES` as the firmware computes it: tables made once from powers and logarithms of a field of 256
elements, a key schedule for encryption, one for decryption in which the keys between are run
through the tables, and rounds that look up one word for each byte of the state.
-/

namespace PosFirmware.Encrypt

open Foundation

/-! ## The tables -/

/-- `XTIME` on an `int`. -/
def XTIME (x : Nat) : Nat := (x <<< 1) ^^^ (if x &&& 0x80 ≠ 0 then 0x1B else 0)

/-- The array `pow` of the table generation. -/
def aesPow : Nat → Nat
  | 0 => 1
  | i + 1 =>
      let x := aesPow i
      (x ^^^ XTIME x) &&& 0xFF

/-- The array `log`. The entry of one is written twice, the entry of zero never. -/
def aesLog : Nat → Nat := fillTable (fun _ => 0) aesPow id 256

def MUL (x y : Nat) : Nat :=
  if x ≠ 0 ∧ y ≠ 0 then aesPow ((aesLog x + aesLog y) % 255) else 0

def RCONvalue : Nat → Nat
  | 0 => 1
  | i + 1 => XTIME (RCONvalue i) &&& 0xFF

def RCON (i : Nat) : Word := BitVec.ofNat 32 (RCONvalue i)

/-- A byte rotated by one bit. -/
def rotateByte (y : Nat) : Nat := (y <<< 1 ||| y >>> 7) &&& 0xFF

/-- An entry of the array `FSb`. -/
def FSbValue (i : Nat) : Nat :=
  if i = 0 then 0x63
  else
    let x := aesPow (255 - aesLog i)
    let y := rotateByte x
    let x := x ^^^ y
    let y := rotateByte y
    let x := x ^^^ y
    let y := rotateByte y
    let x := x ^^^ y
    let y := rotateByte y
    x ^^^ (y ^^^ 0x63)

/-- The array `RSb`: each entry of the other array sends its own back. -/
def RSbValue : Nat → Nat :=
  fillTable (Function.update (fun _ => 0) 0x63 0) (fun i => FSbValue (i + 1)) (· + 1) 255

def FSb (i : Byte) : Byte := BitVec.ofNat 8 (FSbValue i.toNat)

def RSb (i : Byte) : Byte := BitVec.ofNat 8 (RSbValue i.toNat)

def ROTL8 (x : Word) : Word := x <<< 8 ||| x >>> 24

def FT0 (i : Byte) : Word :=
  let x := (FSb i).toNat
  let y := XTIME x &&& 0xFF
  let z := (y ^^^ x) &&& 0xFF
  BitVec.ofNat 32 y ^^^ BitVec.ofNat 32 x <<< 8 ^^^ BitVec.ofNat 32 x <<< 16 ^^^
    BitVec.ofNat 32 z <<< 24

def FT1 (i : Byte) : Word := ROTL8 (FT0 i)

def FT2 (i : Byte) : Word := ROTL8 (FT1 i)

def FT3 (i : Byte) : Word := ROTL8 (FT2 i)

def RT0 (i : Byte) : Word :=
  let x := (RSb i).toNat
  BitVec.ofNat 32 (MUL 0x0E x) ^^^ BitVec.ofNat 32 (MUL 0x09 x) <<< 8 ^^^
    BitVec.ofNat 32 (MUL 0x0D x) <<< 16 ^^^ BitVec.ofNat 32 (MUL 0x0B x) <<< 24

def RT1 (i : Byte) : Word := ROTL8 (RT0 i)

def RT2 (i : Byte) : Word := ROTL8 (RT1 i)

def RT3 (i : Byte) : Word := ROTL8 (RT2 i)

/-! ## The key schedules -/

/-- The number of rounds and the words of the keys. -/
structure AesContext where
  nr : Nat
  rk : List Word

def POLARSSL_ERR_AES_INVALID_KEY_LENGTH : Int := -0x20

/-- `GET_UINT32_LE`. -/
def getUint32Le (b : List Byte) (i : Nat) : Word :=
  joinOctets (b.getD (i + 3) 0) (b.getD (i + 2) 0) (b.getD (i + 1) 0) (b.getD i 0)

/-- `PUT_UINT32_LE`. -/
def putUint32Le (n : Word) : List Byte := [octet n 0, octet n 8, octet n 16, octet n 24]

/-- Four bytes looked up in the forward box, the lowest first. -/
def fourBytes (b0 b1 b2 b3 : Byte) : Word :=
  (FSb b0).setWidth 32 ^^^ (FSb b1).setWidth 32 <<< 8 ^^^ (FSb b2).setWidth 32 <<< 16 ^^^
    (FSb b3).setWidth 32 <<< 24

/-- The same with the backward box. -/
def fourBytesBack (b0 b1 b2 b3 : Byte) : Word :=
  (RSb b0).setWidth 32 ^^^ (RSb b1).setWidth 32 <<< 8 ^^^ (RSb b2).setWidth 32 <<< 16 ^^^
    (RSb b3).setWidth 32 <<< 24

/-- What is combined with word `j` of a group of key words, which starts at `base`, for word `j` of
the next one. The last word of the group goes into the first, and each one into its neighbour;
with groups of eight the fourth goes through the box. -/
def nextWord (nk base i : Nat) (RK : List Word) (j : Nat) : Word :=
  if j = 0 then
    let last := RK.getD (base + nk - 1) 0
    RCON i ^^^ fourBytes (octet last 8) (octet last 16) (octet last 24) (octet last 0)
  else if nk = 8 ∧ j = 4 then
    let fourth := RK.getD (base + nk + 3) 0
    fourBytes (octet fourth 0) (octet fourth 8) (octet fourth 16) (octet fourth 24)
  else RK.getD (base + nk + j - 1) 0

/-- One pass of the schedule: the group of words behind group `i` is written. -/
def expandGroup (nk : Nat) (RK : List Word) (i : Nat) : List Word :=
  (List.range nk).foldl (fun RK j =>
    RK ++ [RK.getD (nk * i + j) 0 ^^^ nextWord nk (nk * i) i RK j]) RK

/-- The number of rounds for a size of the key in bits. -/
def roundsOf (keysize : Nat) : Option Nat :=
  if keysize = 128 then some 10
  else if keysize = 192 then some 12
  else if keysize = 256 then some 14
  else none

/-- The number of passes of the schedule. -/
def passesOf (nr : Nat) : Nat := if nr = 10 then 10 else if nr = 12 then 8 else 7

def aesSetkeyEnc (key : List Byte) (keysize : Nat) : Except Int AesContext :=
  match roundsOf keysize with
  | none => .error POLARSSL_ERR_AES_INVALID_KEY_LENGTH
  | some nr =>
      let nk := keysize >>> 5
      let start := (List.range nk).map fun i => getUint32Le key (i <<< 2)
      .ok ⟨nr, (List.range (passesOf nr)).foldl (expandGroup nk) start⟩

/-- A word of a key between, brought behind the mixing of the columns. -/
def mixedWord (SK : Word) : Word :=
  RT0 (FSb (octet SK 0)) ^^^ RT1 (FSb (octet SK 8)) ^^^ RT2 (FSb (octet SK 16)) ^^^
    RT3 (FSb (octet SK 24))

/-- The groups of four words in the other order, all but the first and the last one mixed. -/
def backwardsWords (cty : AesContext) (nr : Nat) : List Word :=
  (List.range (4 * (nr + 1))).map fun n =>
    let group := n / 4
    let SK := cty.rk.getD ((cty.nr - group) * 4 + n % 4) 0
    if group = 0 ∨ group = nr then SK else mixedWord SK

def aesSetkeyDec (key : List Byte) (keysize : Nat) : Except Int AesContext :=
  match roundsOf keysize, aesSetkeyEnc key keysize with
  | some nr, .ok cty => .ok ⟨nr, backwardsWords cty nr⟩
  | none, _ => .error POLARSSL_ERR_AES_INVALID_KEY_LENGTH
  | _, .error ret => .error ret

/-! ## The rounds -/

/-- Columns and rows are counted modulo four. -/
scoped instance fourRows : NeZero 4 := ⟨by decide⟩

/-- Four words: the columns of the state, or of the key of a round. -/
structure AesState where
  x0 : Word
  x1 : Word
  x2 : Word
  x3 : Word
  deriving DecidableEq

namespace AesState

def get (X : AesState) (j : Fin 4) : Word :=
  match j with
  | 0 => X.x0
  | 1 => X.x1
  | 2 => X.x2
  | 3 => X.x3

def ofFn (word : Fin 4 → Word) : AesState := ⟨word 0, word 1, word 2, word 3⟩

@[simp] theorem get_ofFn (word : Fin 4 → Word) (j : Fin 4) : (ofFn word).get j = word j := by
  match j with
  | 0 | 1 | 2 | 3 => rfl

end AesState

/-- A group of four words of the schedule. -/
def keyGroup (ctx : AesContext) (m : Nat) : AesState := .ofFn fun j => ctx.rk.getD (4 * m + j) 0

/-- `AES_FROUND`. -/
def fround (RK Y : AesState) : AesState := .ofFn fun j =>
  RK.get j ^^^ FT0 (octet (Y.get j) 0) ^^^ FT1 (octet (Y.get (j + 1)) 8) ^^^
    FT2 (octet (Y.get (j + 2)) 16) ^^^ FT3 (octet (Y.get (j + 3)) 24)

/-- `AES_RROUND`. -/
def rround (RK Y : AesState) : AesState := .ofFn fun j =>
  RK.get j ^^^ RT0 (octet (Y.get j) 0) ^^^ RT1 (octet (Y.get (j + 3)) 8) ^^^
    RT2 (octet (Y.get (j + 2)) 16) ^^^ RT3 (octet (Y.get (j + 1)) 24)

/-- The last round of an encryption. -/
def flast (RK Y : AesState) : AesState := .ofFn fun j =>
  RK.get j ^^^ fourBytes (octet (Y.get j) 0) (octet (Y.get (j + 1)) 8)
    (octet (Y.get (j + 2)) 16) (octet (Y.get (j + 3)) 24)

/-- The last round of a decryption. -/
def rlast (RK Y : AesState) : AesState := .ofFn fun j =>
  RK.get j ^^^ fourBytesBack (octet (Y.get j) 0) (octet (Y.get (j + 3)) 8)
    (octet (Y.get (j + 2)) 16) (octet (Y.get (j + 1)) 24)

def AES_MODE_ENCRYPT : Int := 1

def AES_MODE_DECRYPT : Int := 0

/-- All rounds but the last one, two in each turn of the loop. -/
def aesRounds (round : AesState → AesState → AesState) (ctx : AesContext) (X : AesState) : AesState :=
  let X := (List.range ((ctx.nr >>> 1) - 1)).foldl (fun X i =>
    round (keyGroup ctx (2 * i + 2)) (round (keyGroup ctx (2 * i + 1)) X)) X
  round (keyGroup ctx (ctx.nr - 1)) X

/-- The state of a block, combined with a key. -/
def loadState (input : List Byte) (RK : AesState) : AesState :=
  .ofFn fun j => getUint32Le input (4 * j) ^^^ RK.get j

def storeState (X : AesState) : List Byte :=
  putUint32Le X.x0 ++ putUint32Le X.x1 ++ putUint32Le X.x2 ++ putUint32Le X.x3

def aesCryptEcb (ctx : AesContext) (mode : Int) (input : List Byte) : List Byte :=
  let X := loadState input (keyGroup ctx 0)
  storeState (if mode = AES_MODE_DECRYPT then rlast (keyGroup ctx ctx.nr) (aesRounds rround ctx X)
    else flast (keyGroup ctx ctx.nr) (aesRounds fround ctx X))

/-! ## Blocks and data -/

/-- A missing buffer is `none`; of the result only whether it is there is looked at. -/
def sAes (Input : Option (List Byte)) (hasOutput : Bool) (Aeskey : Option (List Byte)) (keyLen : Nat)
    (Mode : Int) : Except Int (List Byte) :=
  match Input, hasOutput, Aeskey with
  | some Input, true, some Aeskey =>
      if keyLen ≠ 16 ∧ keyLen ≠ 24 ∧ keyLen ≠ 32 then .error (-2)
      else
        let ctx :=
          if Mode = AES_MODE_DECRYPT then some (aesSetkeyDec Aeskey (keyLen * 8))
          else if Mode = AES_MODE_ENCRYPT then some (aesSetkeyEnc Aeskey (keyLen * 8))
          else none
        match ctx with
        | some (.ok ctx) => .ok (aesCryptEcb ctx Mode Input)
        | some (.error ret) => .error ret
        | none => .error (-3)
  | _, _, _ => .error (-1)

/-- The block that `s_Aes` writes; where it fails it writes none. -/
def aesBlock (pszKey : List Byte) (ucMode : Int) (block : List Byte) : List Byte :=
  match sAes (some block) true (some pszKey) 16 ucMode with
  | .ok out => out
  | .error _ => []

def AES (pszIn : Option (List Byte)) (hasOut : Bool) (pszKey : Option (List Byte)) (ucMode : Int) :
    Except Int (List Byte) :=
  match pszIn, hasOut, pszKey with
  | some pszIn, true, some pszKey =>
      if ucMode ≠ AES_MODE_DECRYPT ∧ ucMode ≠ AES_MODE_ENCRYPT then .error (-1)
      else .ok (blockwise 16 (aesBlock pszKey ucMode) (· ^^^ 0xff) pszIn)
  | _, _, _ => .error (-1)

end PosFirmware.Encrypt
