import PosFirmware.Decompress.Tables
import PosFirmware.Foundation.Loop

/-! # The decompressor

`Decompress` as a loop over its symbols. Its variables are words of 32 bits, written
here with `wadd`, `wsub` and `wmul`. What it wrote to the destination is a list. A run
that indexes outside a table, divides by zero or never ends a round returns `fault`,
which `Decompress` itself never does.
-/

namespace PosFirmware.Decompress

open PosFirmware.Foundation

/-! ## Words -/

/-- A number as a word. -/
def word (x : Int) : Nat := (x % 2 ^ 32).toNat

def wadd (x y : Nat) : Nat := word (x + y)
def wsub (x y : Nat) : Nat := word (x - y)
def wmul (x y : Nat) : Nat := word (x * y)

theorem wadd_eq {x y : Nat} (small : x + y < 2 ^ 32) : wadd x y = x + y := by
  rw [wadd, word]
  omega

theorem wsub_eq {x y : Nat} (order : y ≤ x) (small : x < 2 ^ 32) : wsub x y = x - y := by
  rw [wsub, word]
  omega

theorem wmul_eq {x y : Nat} (small : x * y < 2 ^ 32) : wmul x y = x * y := by
  rw [wmul, word, ← Int.natCast_mul]
  omega

/-! ## Bits -/

/-- The compressed bytes and their number. The four bytes of the length are read
whatever the number is. -/
structure Source where
  data : Nat → BitVec 8
  srclen : Nat

/-- The variables of the arithmetic code, and of the bits read. -/
structure Coder where
  low : Nat
  high : Nat
  value : Nat
  mask : BitVec 8
  ch : BitVec 8
  sp : Nat

/-- The next byte, when the bits of the last one are used up; behind the last byte it
is zero. -/
def Coder.load (source : Source) (c : Coder) : Coder :=
  if c.mask >>> 1 = 0 then
    if c.sp ≥ source.srclen then { c with ch := 0, mask := 128 }
    else { c with ch := source.data c.sp, sp := c.sp + 1, mask := 128 }
  else { c with mask := c.mask >>> 1 }

/-- One more bit at the end of the value. -/
def Coder.readBit (source : Source) (c : Coder) : Coder :=
  let c := Coder.load source { c with value := wmul c.value 2 }
  { c with value := wadd c.value (if c.ch &&& c.mask ≠ 0 then 1 else 0) }

/-- The bits read before the first symbol. -/
def Coder.fill (source : Source) : Nat → Coder → Coder
  | 0, c => c
  | left + 1, c => fill source left (c.readBit source)

/-! ## The arithmetic code -/

/-- The interval moved down. -/
def Coder.lower (c : Coder) (distance : Nat) : Coder :=
  { c with
    value := wsub c.value distance
    low := wsub c.low distance
    high := wsub c.high distance }

/-- The interval doubled. -/
def Coder.double (source : Source) (c : Coder) : Coder :=
  Coder.readBit source { c with low := wadd c.low c.low, high := wadd c.high c.high }

/-- The inner loop, for at most so many rounds. -/
def Coder.normalise (source : Source) : Nat → Coder → Option Coder
  | 0, _ => none
  | rounds + 1, c =>
      if c.low ≥ 0x10000 then normalise source rounds ((c.lower 0x10000).double source)
      else if c.low ≥ 0x8000 ∧ c.high ≤ 0x18000 then
        normalise source rounds ((c.lower 0x8000).double source)
      else if c.high > 0x10000 then some c
      else normalise source rounds (c.double source)

/-- Rounds enough for every interval (`Coder.Holds.normalise`). -/
def NORMALISE_ROUNDS : Nat := 18

/-- The number that is looked up. -/
def Coder.target (c : Coder) (total : Nat) : Option Nat :=
  let range := wsub c.high c.low
  if range = 0 then none
  else some (wsub (wmul (wadd (wsub c.value c.low) 1) total) 1 / range)

/-- The interval narrowed to the share between two entries. -/
def Coder.narrow (c : Coder) (total upper lower : Nat) : Option Coder :=
  let range := wsub c.high c.low
  if total = 0 then none
  else
    some { c with
      high := wadd c.low (wmul range upper / total)
      low := wadd c.low (wmul range lower / total) }

/-- A place looked up in a table, and the interval narrowed to its share. -/
def decodePlace (source : Source) (size : Nat) (cum : Nat → Nat) (find : Nat → Option Nat)
    (upper lower : Nat → Nat) (c : Coder) : Option (Nat × Coder) := do
  let total ← readAt size cum 0
  let x ← c.target total
  let place ← find x
  let high ← readAt size cum (upper place)
  let low ← readAt size cum (lower place)
  let c ← c.narrow total high low
  let c ← c.normalise source NORMALISE_ROUNDS
  return (place, c)

/-- The next symbol. -/
def decodeSym (source : Source) (t : Tables) (c : Coder) : Option (Nat × Coder) :=
  decodePlace source SYM_SIZE t.symCum (getSym t) (fun sym => wsub sym 1) (fun sym => sym) c

/-- The position that follows a symbol for a repetition. -/
def decodePos (source : Source) (t : Tables) (c : Coder) : Option (Nat × Coder) :=
  decodePlace source POS_SIZE t.posCum (getPos t) (fun i => i) (fun i => i + 1) c

/-! ## The loop over the symbols -/

/-- The entries of the buffer of the last bytes. -/
def DATA_SIZE : Nat := 4200

/-- The variables of `Decompress` at the top of its loop. -/
structure Decoder where
  tables : Tables
  coder : Coder
  dataBuf : Nat → BitVec 8
  r : Nat
  /-- What was written to the destination. -/
  out : List (BitVec 8)
  dstlen : Nat

/-- A byte written to the destination and to the buffer. -/
def Decoder.put (d : Decoder) (c : BitVec 8) : Option (Outcome Decoder) :=
  if d.out.length ≥ d.dstlen then some (.returned (-1) d)
  else do
    let dataBuf ← writeAt DATA_SIZE d.dataBuf d.r c
    return .running { d with
      out := d.out ++ [c]
      dataBuf := dataBuf
      r := (d.r + 1) &&& 4095 }

/-- The loop that repeats bytes of the buffer. -/
def copyLoop (i : Nat) : Nat → Nat → Decoder → Option (Outcome Decoder)
  | 0, _, d => some (.running d)
  | left + 1, k, d => do
      let c ← readAt DATA_SIZE d.dataBuf ((i + k) &&& 4095)
      match ← d.put c with
      | .running d => copyLoop i left (k + 1) d
      | .returned code d => some (.returned code d)

/-- The repetition that a symbol stands for. -/
def repetition (source : Source) (d : Decoder) (c : Nat) : Option (Outcome Decoder) := do
  let found ← decodePos source d.tables d.coder
  copyLoop (wsub (wsub d.r found.1) 1 &&& 4095) (c - 255 + 2) 0 { d with coder := found.2 }

/-- The body of the loop. -/
def decodeRound (source : Source) (d : Decoder) : Option (Outcome Decoder) := do
  let found ← decodeSym source d.tables d.coder
  let c ← readAt SYM_SIZE d.tables.symChar found.1
  let tables ← updateNode d.tables found.1
  let d := { d with tables := tables, coder := found.2 }
  if c < 256 then d.put (BitVec.ofNat 8 c) else repetition source d c

/-- The code of a run that left its tables. -/
def fault : Int := 1

/-- The condition of the loop. -/
def decodeWhile : Outcome Decoder → Outcome Decoder
  | .running d => if d.out.length < d.dstlen then .running d else .returned 0 d
  | .returned code d => .returned code d

/-- One round of the loop. -/
def decodeStep (source : Source) (d : Decoder) : Outcome Decoder :=
  match decodeRound source d with
  | some outcome => decodeWhile outcome
  | none => .returned fault d

/-! ## Before the loop -/

/-- The loop that sets up the tables of the symbols, from the last symbol on. -/
def initSyms : Nat → Tables → Option Tables
  | 0, t => some t
  | j + 1, t => do
      let charSym ← writeAt SYM_SIZE t.charSym j (j + 1)
      let symChar ← writeAt SYM_SIZE t.symChar (j + 1) j
      let symFreq ← writeAt SYM_SIZE t.symFreq (j + 1) 1
      let behind ← readAt SYM_SIZE t.symCum (j + 1)
      let freq ← readAt SYM_SIZE symFreq (j + 1)
      let symCum ← writeAt SYM_SIZE t.symCum j (behind + freq)
      initSyms j { t with
        charSym := charSym
        symChar := symChar
        symFreq := symFreq
        symCum := symCum }

/-- The share of a position. -/
def posFreq (i : Nat) : Nat := 10000 / (i + 200)

/-- The loop that sets up the table of the positions, from the last position on. -/
def initPositions : Nat → (Nat → Nat) → Option (Nat → Nat)
  | 0, posCum => some posCum
  | i + 1, posCum => do
      let behind ← readAt POS_SIZE posCum (i + 1)
      let posCum ← writeAt POS_SIZE posCum i (behind + posFreq (i + 1))
      initPositions i posCum

/-- The tables before the first symbol. -/
def initTables (t : Tables) : Option Tables := do
  let symCum ← writeAt SYM_SIZE t.symCum SYMBOLS 0
  let t ← initSyms SYMBOLS { t with symCum := symCum }
  let symFreq ← writeAt SYM_SIZE t.symFreq 0 0
  let posCum ← writeAt POS_SIZE t.posCum POSITIONS 0
  let posCum ← initPositions POSITIONS posCum
  return { t with symFreq := symFreq, posCum := posCum }

/-- The loop that fills the buffer with blanks. -/
def fillLoop : Nat → Nat → (Nat → BitVec 8) → Option (Nat → BitVec 8)
  | 0, _, dataBuf => some dataBuf
  | left + 1, i, dataBuf => do
      let dataBuf ← writeAt DATA_SIZE dataBuf i 0x20
      fillLoop left (i + 1) dataBuf

/-- The length of the destination, from the first four bytes. -/
def Source.dstlen (source : Source) : Nat :=
  (((source.data 0).toNat * 256 + (source.data 1).toNat) * 256 + (source.data 2).toNat) * 256 +
    (source.data 3).toNat

/-- The interval and the bits before the first symbol. -/
def initCoder (source : Source) : Coder :=
  Coder.fill source (15 + 2) ⟨0, 0x20000, 0, 0, 0, 4⟩

/-- The variables before the loop, from the tables of the last call and what the stack
held. -/
def initDecoder (source : Source) (statics : Tables) (stack : Nat → BitVec 8) : Option Decoder := do
  let tables ← initTables statics
  let dataBuf ← fillLoop (4096 - 60) 0 stack
  return ⟨tables, initCoder source, dataBuf, 4096 - 60, [], source.dstlen⟩

/-- `Decompress` up to its loop. -/
def decompressStart (source : Source) (statics : Tables) (stack : Nat → BitVec 8) :
    Outcome Decoder :=
  match initDecoder source statics stack with
  | some d => decodeWhile (.running d)
  | none => .returned fault ⟨statics, initCoder source, stack, 0, [], source.dstlen⟩

/-- `Decompress` after a number of symbols. -/
def decompress (source : Source) (statics : Tables) (stack : Nat → BitVec 8) (rounds : Nat) :
    Outcome Decoder :=
  Outcome.run (decodeStep source) (decompressStart source statics stack) rounds

end PosFirmware.Decompress
