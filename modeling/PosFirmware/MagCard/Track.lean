import Mathlib.Data.List.Basic

/-! # Magnetic tracks

The decoding of the bits of a track in `magcard.c`, in either direction, and `MagRead`. A track
lies in memory with its neighbours, and a reader notes every position that it reads.
-/

namespace PosFirmware.MagCard

abbrev Byte := BitVec 8

/-- The sizes of `buf` in `MSR_BitInfo` and in `MSR_TrackInfo`. -/
def BIT_BUF : Nat := 750
def TRACK_BUF : Nat := 150

/-- `MSR_BitInfo`: the bits, the bytes of the memory before and behind them, and their count of
ones. -/
structure BitInfo where
  bits : Nat → Bool
  around : Int → Byte
  bitOneNum : Int

/-- `BitBuf->buf[b]`. -/
def BitInfo.buf (bitBuf : BitInfo) (b : Int) : Byte :=
  if 0 ≤ b ∧ b < BIT_BUF then if bitBuf.bits b.toNat then 1 else 0 else bitBuf.around b

/-- `MSR_TrackInfo`. The list has what was stored in `buf`, from its first byte on; the bytes
behind it are zero. -/
structure TrackInfo where
  buf : List Byte
  start : Bool
  stop : Bool
  lrc : Bool
  odd : Bool
  len : Nat
  error : Bool

/-- `TrackData` before anything was decoded. -/
def blankTrack : TrackInfo := ⟨[], false, false, false, true, 0, false⟩

/-- `Mag_Parity`. -/
def magParity (cpd : Byte) : Nat := ((List.range 8).filter fun k => cpd.getLsbD k).length % 2

/-- The width of a track and its start and stop codes, of which the first is an odd number. -/
structure TrackCode where
  codeSize : Nat
  startCode : Byte
  stopCode : Byte
  narrow : 5 ≤ codeSize ∧ codeSize ≤ 8 := by decide
  startOdd : startCode.getLsbD 0 = true := by decide

/-! ## Reading -/

/-- The next position, and the positions read so far. -/
structure Reader where
  b : Int
  reads : List Int

def step (direction : Nat) : Int := if direction = 0 then 1 else -1

def firstReader (direction : Nat) : Reader := ⟨if direction = 0 then 0 else BIT_BUF - 1, []⟩

/-- Behind a number of further bits. -/
def Reader.skip (direction : Nat) : Nat → Reader → Reader
  | 0, r => r
  | n + 1, r => Reader.skip direction n ⟨r.b + step direction, r.b :: r.reads⟩

/-- The next bits, the lowest first. -/
def readChar (bitBuf : BitInfo) (direction codeSize : Nat) (r : Reader) : Byte :=
  (List.range codeSize).foldl
    (fun (data : Byte) (i : Nat) => data ||| bitBuf.buf (r.b + i * step direction) <<< i) 0

/-- An `int` in a comparison with a `uint`. -/
def asUint (b : Int) : Int := b % 4294967296

/-- The search of the start code, within a number of turns: whether it was found. -/
def findStart (code : TrackCode) (bitBuf : BitInfo) (direction : Nat) :
    Nat → Byte → Reader → Option (Bool × Reader)
  | 0, _, _ => none
  | turns + 1, data, r =>
      let data := data >>> 1 ||| bitBuf.buf r.b <<< (code.codeSize - 1)
      let r := r.skip direction 1
      if data = code.startCode then some (true, r)
      else if (direction = 0 ∧ BIT_BUF ≤ asUint r.b) ∨ (direction ≠ 0 ∧ r.b ≤ 0) then
        some (false, r)
      else findStart code bitBuf direction turns data r

/-- The stop code and what follows it: the LRC. -/
def readLrc (badParity : Nat) (code : TrackCode) (templrc calLrc : Byte) (track : TrackInfo) :
    TrackInfo :=
  { track with
    stop := true
    buf := track.buf ++ [templrc]
    odd := track.odd && magParity templrc != badParity
    lrc := (calLrc ^^^ templrc) &&& ~~~((255 : Byte) <<< (code.codeSize - 1)) == 0 }

/-- The loop over the characters, within a number of turns. -/
def decodeChars (badParity : Nat) (code : TrackCode) (bitBuf : BitInfo) (direction : Nat) :
    Nat → TrackInfo → Byte → Reader → Option (TrackInfo × Reader)
  | 0, _, _, _ => none
  | turns + 1, track, calLrc, r =>
      if (direction = 0 ∧ BIT_BUF - code.codeSize < asUint r.b) ∨
          (direction ≠ 0 ∧ asUint r.b < code.codeSize) then some (track, r)
      else
        let data := readChar bitBuf direction code.codeSize r
        let r := r.skip direction code.codeSize
        let track := { track with buf := track.buf ++ [data] }
        if data = 0 then some (track, r)
        else
          let calLrc := calLrc ^^^ data
          let track := { track with odd := track.odd && magParity data != badParity }
          if data = code.stopCode then
            let templrc := readChar bitBuf direction code.codeSize r
            some (readLrc badParity code templrc calLrc track, r.skip direction code.codeSize)
          else
            decodeChars badParity code bitBuf direction turns { track with len := track.len + 1 }
              calLrc r

/-- What `Mag_EncodeTrack` and `Mag_JcbEncodeTrack` have in common, within a number of turns of
each loop: the track and the positions read. -/
def encodeTrack (badParity : Nat) (firstLrc : Byte) (code : TrackCode) (turns direction : Nat)
    (bitBuf : BitInfo) : Option (TrackInfo × List Int) :=
  if bitBuf.bitOneNum ≤ 8 then some (blankTrack, [])
  else
    match findStart code bitBuf direction turns 0 (firstReader direction) with
    | none => none
    | some (false, r) => some ({ blankTrack with error := true }, r.reads)
    | some (true, r) =>
        match decodeChars badParity code bitBuf direction turns
          { blankTrack with start := true, buf := [code.startCode] } firstLrc r with
        | none => none
        | some (track, r) =>
            let zeroflag := readChar bitBuf direction code.codeSize r
            some ({ track with
              error := !(track.odd && track.stop && track.lrc && zeroflag == 0) },
              (r.skip direction code.codeSize).reads)

/-- `Mag_EncodeTrack`. -/
def magEncodeTrack (turns direction : Nat) (code : TrackCode) (bitBuf : BitInfo) :
    Option (TrackInfo × List Int) :=
  encodeTrack 0 code.startCode code turns direction bitBuf

/-- `Mag_JcbEncodeTrack`: the parity is even, and the LRC leaves the start code out. -/
def magJcbEncodeTrack (turns direction : Nat) (code : TrackCode) (bitBuf : BitInfo) :
    Option (TrackInfo × List Int) :=
  encodeTrack 1 0 code turns direction bitBuf

/-! ## Both directions -/

def isoTrack1 : TrackCode := { codeSize := 7, startCode := 0x45, stopCode := 0x1F }
def isoTrack2 : TrackCode := { codeSize := 5, startCode := 0x0B, stopCode := 0x1F }
def ibmTrack1 : TrackCode := { codeSize := 7, startCode := 0x45, stopCode := 0x1C }
def ibmTrack2 : TrackCode := { codeSize := 5, startCode := 0x0B, stopCode := 0x1C }
def jcbTrack : TrackCode := { codeSize := 8, startCode := 0xFF, stopCode := 0xFF }

/-- What a track adds to the mark of its direction in `AnalyseDirection`. -/
def trackMark (track : TrackInfo) : Nat :=
  (if track.start then 10 else 0) + (if track.stop then 10 else 0) +
    (if track.lrc then 10 else 0) + (if track.odd then 10 else 0) +
    if track.error then 0 else 100 * track.len

/-- `k_TrackData`: of each track the forward and the backward reading. -/
structure TrackData where
  track1 : TrackInfo × TrackInfo
  track2 : TrackInfo × TrackInfo
  track3 : TrackInfo × TrackInfo

/-- The reading in a direction. -/
def inDirection (direction : Nat) (both : TrackInfo × TrackInfo) : TrackInfo :=
  if direction = 0 then both.1 else both.2

/-- `AnalyseDirection`. -/
def analyseDirection (data : TrackData) (direction : Nat) : Nat :=
  trackMark (inDirection direction data.track1) + trackMark (inDirection direction data.track2) +
    trackMark (inDirection direction data.track3)

/-- Both readings of a track. -/
def encodeBoth (encode : Nat → Option (TrackInfo × List Int)) : Option (TrackInfo × TrackInfo) :=
  match encode 0, encode 1 with
  | some forward, some backward => some (forward.1, backward.1)
  | _, _ => none

/-- The direction with the higher mark. -/
def chooseDirection (data : TrackData) : Nat :=
  if analyseDirection data 0 ≥ analyseDirection data 1 then 0 else 1

/-- `k_MagBitBuf`. -/
structure MagBitBuf where
  track1 : BitInfo
  track2 : BitInfo
  track3 : BitInfo

/-- `Mag_Encode` and `Mag_ibm_Encode`, with the codes of the first track and of the others. -/
def encodeTracks (turns : Nat) (code1 code2 : TrackCode) (bits : MagBitBuf) :
    Option (TrackData × Nat) :=
  match encodeBoth (magEncodeTrack turns · code1 bits.track1),
    encodeBoth (magEncodeTrack turns · code2 bits.track2),
    encodeBoth (magEncodeTrack turns · code2 bits.track3) with
  | some both1, some both2, some both3 =>
      let data : TrackData := ⟨both1, both2, both3⟩
      some (data, chooseDirection data)
  | _, _, _ => none

def magEncode (turns : Nat) (bits : MagBitBuf) : Option (TrackData × Nat) :=
  encodeTracks turns isoTrack1 isoTrack2 bits

def magIbmEncode (turns : Nat) (bits : MagBitBuf) : Option (TrackData × Nat) :=
  encodeTracks turns ibmTrack1 ibmTrack2 bits

/-- `Mag_Jcb_Encode`, which leaves the other tracks as they are. -/
def magJcbEncode (turns : Nat) (bits : MagBitBuf) (data : TrackData) : Option (TrackData × Nat) :=
  (encodeBoth (magJcbEncodeTrack turns · jcbTrack bits.track1)).map fun both =>
    let data := { data with track1 := both }
    (data, chooseDirection data)

end PosFirmware.MagCard
