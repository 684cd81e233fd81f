import PosFirmware.Flash.Ecc

/-! # The hash of pages and map copies

`sha1` as the firmware computes it. The development takes the hash as a parameter
where only its length matters; this is the function it stands for.
-/

namespace PosFirmware.Flash

/-- The five words of the hash. -/
structure Sha1State where
  a : Word
  b : Word
  c : Word
  d : Word
  e : Word

/-- The state of a hash: the words, the number of bytes so far, and the bytes that
do not fill a block yet. -/
structure Sha1Context where
  state : Sha1State
  total : Nat
  buffer : List Byte

def sha1Starts : Sha1Context :=
  ⟨⟨0x67452301, 0xEFCDAB89, 0x98BADCFE, 0x10325476, 0xC3D2E1F0⟩, 0, []⟩

/-- The big-endian word at a place of a block. -/
def getUint32 (data : List Byte) (i : Nat) : Word :=
  data.getD i 0 ++ data.getD (i + 1) 0 ++ data.getD (i + 2) 0 ++ data.getD (i + 3) 0

/-- The bytes of a word, big-endian. -/
def putUint32 (n : Word) : List Byte :=
  [n.extractLsb' 24 8, n.extractLsb' 16 8, n.extractLsb' 8 8, n.extractLsb' 0 8]

/-- The word of the schedule used in a round, and the schedule after it. -/
def sha1Schedule (w : Nat → Word) (t : Nat) : Word × (Nat → Word) :=
  if t < 16 then (w t, w)
  else
    let temp := w ((t - 3) % 16) ^^^ w ((t - 8) % 16) ^^^ w ((t - 14) % 16) ^^^ w (t % 16)
    let value := temp.rotateLeft 1
    (value, Function.update w (t % 16) value)

/-- The function and the constant of a round. -/
def sha1Mix (t : Nat) (x y z : Word) : Word :=
  if t < 20 then (z ^^^ (x &&& (y ^^^ z))) + 0x5A827999
  else if t < 40 then (x ^^^ y ^^^ z) + 0x6ED9EBA1
  else if t < 60 then ((x &&& y) ||| (z &&& (x ||| y))) + 0x8F1BBCDC
  else (x ^^^ y ^^^ z) + 0xCA62C1D6

/-- One round: the words change their places. -/
def sha1Round (round : Sha1State × (Nat → Word)) (t : Nat) : Sha1State × (Nat → Word) :=
  let ⟨a, b, c, d, e⟩ := round.1
  let (x, w) := sha1Schedule round.2 t
  (⟨e + a.rotateLeft 5 + sha1Mix t b c d + x, a, b.rotateLeft 30, c, d⟩, w)

/-- A block of 64 bytes. -/
def sha1Process (state : Sha1State) (data : List Byte) : Sha1State :=
  let ⟨a, b, c, d, e⟩ :=
    ((List.range 80).foldl sha1Round (state, fun i => getUint32 data (4 * i))).1
  ⟨state.a + a, state.b + b, state.c + c, state.d + d, state.e + e⟩

/-- Take the full blocks off the bytes that wait. -/
def sha1Blocks : Nat → Sha1State → List Byte → Sha1State × List Byte
  | 0, state, pending => (state, pending)
  | count + 1, state, pending =>
      sha1Blocks count (sha1Process state (pending.take 64)) (pending.drop 64)

def sha1Update (ctx : Sha1Context) (input : List Byte) : Sha1Context :=
  let pending := ctx.buffer ++ input
  let (state, buffer) := sha1Blocks (pending.length / 64) ctx.state pending
  ⟨state, (ctx.total + input.length) % 2 ^ 64, buffer⟩

def sha1Finish (ctx : Sha1Context) : List Byte :=
  let high := BitVec.ofNat 32 (ctx.total * 8 / 2 ^ 32)
  let low := BitVec.ofNat 32 (ctx.total * 8)
  let last := ctx.total % 64
  let padn := if last < 56 then 56 - last else 120 - last
  let ctx := sha1Update ctx (0x80 :: List.replicate (padn - 1) 0)
  let ctx := sha1Update ctx (putUint32 high ++ putUint32 low)
  putUint32 ctx.state.a ++ putUint32 ctx.state.b ++ putUint32 ctx.state.c ++
    putUint32 ctx.state.d ++ putUint32 ctx.state.e

/-- The hash of some bytes. -/
def sha1 (src : List Byte) : List Byte := sha1Finish (sha1Update sha1Starts src)

theorem sha1_length (src : List Byte) : (sha1 src).length = 20 := rfl

end PosFirmware.Flash
