import Mathlib.Logic.Function.Basic
import PosFirmware.MagCard.TrackSafety

/-! # Reading a card

`MagRead` decodes the tracks in both directions as ISO tracks, then as IBM tracks and then as a
JCB track, until one of them is right, and copies what it finds into the buffers of its caller.
-/

namespace PosFirmware.MagCard

/-- The return value, `errno`, and what was stored in the caller's buffers, each from its first
byte on. -/
structure MagOutput where
  ret : Byte
  errno : Byte
  tracks : Nat → List Byte

/-- What the loop over the characters of a track copies: up to the first of a wrong parity. -/
def copiedChars (badParity : Nat) (track : TrackInfo) : List Byte :=
  ((List.range track.len).map fun i => track.buf.getD (i + 1) 0).takeWhile
    fun data => magParity data != badParity

/-- One track copied into the caller's buffer, which is not `NULL`. -/
def copyTrack (badParity : Nat) (char : Byte → Byte) (n : Nat) (track : TrackInfo)
    (out : MagOutput) : MagOutput :=
  let right := (1 : Byte) <<< n
  let wrong := (0x10 : Byte) <<< n
  let ret :=
    if track.error then out.ret ||| wrong
    else if track.buf.headD 0 = 0 then out.ret
    else out.ret ||| right
  let errno := if track.error && !track.lrc then out.errno ||| wrong else out.errno
  let chars := copiedChars badParity track
  let errno := if chars.length < track.len then errno ||| right else errno
  let stores := chars.map char ++ [0]
  let stores := if errno &&& (right ||| wrong) ≠ 0 ∨ ret &&& wrong ≠ 0 then 0 :: stores.tail else stores
  ⟨ret, errno, Function.update out.tracks n (stores ++ (out.tracks n).drop stores.length)⟩

/-- The bytes of the characters of the first track, of the others, and of a JCB track. -/
def alphaChar (data : Byte) : Byte := (data &&& 0x3F) + 0x20
def digitChar (data : Byte) : Byte := (data &&& 0x0F) + 0x30
def jcbChar (data : Byte) : Byte := data &&& 0x7F

/-- The copies that `MagRead` and `Mag_ibm_Read` make, of the tracks with a buffer. -/
def copyTracks (wanted : Nat → Bool) (data : TrackData) (direction : Nat) (out : MagOutput) :
    MagOutput :=
  let out := { out with ret := 0, errno := 0 }
  let out := if wanted 0 then copyTrack 0 alphaChar 0 (inDirection direction data.track1) out else out
  let out := if wanted 1 then copyTrack 0 digitChar 1 (inDirection direction data.track2) out else out
  if wanted 2 then copyTrack 0 digitChar 2 (inDirection direction data.track3) out else out

/-- `Mag_ibm_Read`. -/
def magIbmRead (turns : Nat) (wanted : Nat → Bool) (bits : MagBitBuf) (out : MagOutput) :
    Option (MagOutput × TrackData) :=
  (magIbmEncode turns bits).map fun found => (copyTracks wanted found.1 found.2 out, found.1)

/-- `Mag_Jcb_Read`. -/
def magJcbRead (turns : Nat) (wanted : Nat → Bool) (bits : MagBitBuf) (data : TrackData)
    (out : MagOutput) : Option MagOutput :=
  (magJcbEncode turns bits data).map fun found =>
    let out := { out with ret := 0, errno := 0 }
    if wanted 0 then copyTrack 1 jcbChar 0 (inDirection found.2 found.1.track1) out else out

/-- A second reading after a first one, whose results stay where the second finds no track. -/
def orElse (first second : MagOutput) : MagOutput :=
  if second.ret &&& 0x07 ≠ 0 then second else ⟨first.ret, first.errno, second.tracks⟩

/-- `MagRead`, with the type of the reader, `k_MagOpenFlag`, and the bits of a swipe. -/
def magRead (noReader isOpen : Bool) (turns : Nat) (wanted : Nat → Bool) (bits : MagBitBuf)
    (errno : Byte) : Option MagOutput :=
  if noReader || !isOpen then some ⟨0, errno, fun _ => []⟩
  else
    match magEncode turns bits with
    | none => none
    | some (data, direction) =>
        let iso := copyTracks wanted data direction ⟨0, 0, fun _ => []⟩
        if iso.ret &&& 0x07 ≠ 0 then some iso
        else
          match magIbmRead turns wanted bits iso with
          | none => none
          | some (ibm, data) =>
              let out := orElse iso ibm
              if out.ret &&& 0x07 ≠ 0 then some out
              else (magJcbRead turns wanted bits data out).map (orElse out)

/-! ## What is stored -/

/-- Every track in either direction is shorter than its buffer. -/
structure ShortTracks (data : TrackData) : Prop where
  track1 : data.track1.1.len < TRACK_BUF ∧ data.track1.2.len < TRACK_BUF
  track2 : data.track2.1.len < TRACK_BUF ∧ data.track2.2.len < TRACK_BUF
  track3 : data.track3.1.len < TRACK_BUF ∧ data.track3.2.len < TRACK_BUF

/-- Each of the caller's buffers has at most as many bytes as the buffer of a track. -/
def ShortOutput (out : MagOutput) : Prop := ∀ n, (out.tracks n).length ≤ TRACK_BUF

variable {turns n direction badParity : Nat} {data : TrackData} {track : TrackInfo}
  {out first second : MagOutput} {bits : MagBitBuf} {wanted : Nat → Bool}

theorem inDirection_short {both : TrackInfo × TrackInfo}
    (short : both.1.len < TRACK_BUF ∧ both.2.len < TRACK_BUF) :
    (inDirection direction both).len < TRACK_BUF := by
  unfold inDirection
  split
  · exact short.1
  · exact short.2

theorem copiedChars_length (badParity : Nat) (track : TrackInfo) :
    (copiedChars badParity track).length ≤ track.len := by
  refine Nat.le_trans (List.takeWhile_sublist _).length_le ?_
  rw [List.length_map, List.length_range]

theorem copyTrack_short {char : Byte → Byte} (short : track.len < TRACK_BUF)
    (before : ShortOutput out) : ShortOutput (copyTrack badParity char n track out) := by
  have few := copiedChars_length badParity track
  have stores (p : Prop) [Decidable p] : (if p then
      0 :: ((copiedChars badParity track).map char ++ [0]).tail
      else (copiedChars badParity track).map char ++ [0]).length =
        (copiedChars badParity track).length + 1 := by
    split
    · simp only [List.length_cons, List.length_tail, List.length_append, List.length_map,
        List.length_nil, Nat.zero_add, Nat.add_sub_cancel]
    · simp only [List.length_append, List.length_map, List.length_cons, List.length_nil]
  intro other
  rw [copyTrack]
  dsimp only
  by_cases same : other = n
  · subst same
    have old := before other
    rw [Function.update_self, List.length_append, List.length_drop, stores]
    omega
  · rw [Function.update_of_ne same]
    exact before other

theorem copyWanted_short {char : Byte → Byte} {both : TrackInfo × TrackInfo}
    (short : both.1.len < TRACK_BUF ∧ both.2.len < TRACK_BUF) (before : ShortOutput out) :
    ShortOutput (if wanted n then
      copyTrack badParity char n (inDirection direction both) out else out) := by
  split
  · exact copyTrack_short (inDirection_short short) before
  · exact before

theorem copyTracks_short (wanted : Nat → Bool) (direction : Nat) (short : ShortTracks data)
    (before : ShortOutput out) : ShortOutput (copyTracks wanted data direction out) :=
  copyWanted_short short.track3 (copyWanted_short short.track2 (copyWanted_short short.track1 before))

theorem orElse_short (first : MagOutput) (short : ShortOutput second) : ShortOutput (orElse first second) := by
  unfold orElse
  split
  · exact short
  · exact short

/-! ## Whole readings -/

theorem encodeBoth_short {encode : Nat → Option (TrackInfo × List Int)}
    (each : ∀ direction, ∃ track reads, encode direction = some (track, reads) ∧
      track.len < TRACK_BUF) :
    ∃ both, encodeBoth encode = some both ∧ both.1.len < TRACK_BUF ∧ both.2.len < TRACK_BUF := by
  obtain ⟨track, reads, forward, short⟩ := each 0
  obtain ⟨track', reads', backward, short'⟩ := each 1
  refine ⟨(track, track'), ?_, short, short'⟩
  rw [encodeBoth, forward, backward]

theorem encodeTracks_short (code1 code2 : TrackCode) (bits : MagBitBuf) (enough : BIT_BUF < turns) :
    ∃ data direction, encodeTracks turns code1 code2 bits = some (data, direction) ∧
      ShortTracks data := by
  obtain ⟨both1, found1, short1⟩ := encodeBoth_short fun direction =>
    encodeTrack_returns 0 code1.startCode code1 bits.track1 direction enough
  obtain ⟨both2, found2, short2⟩ := encodeBoth_short fun direction =>
    encodeTrack_returns 0 code2.startCode code2 bits.track2 direction enough
  obtain ⟨both3, found3, short3⟩ := encodeBoth_short fun direction =>
    encodeTrack_returns 0 code2.startCode code2 bits.track3 direction enough
  refine ⟨⟨both1, both2, both3⟩, chooseDirection ⟨both1, both2, both3⟩, ?_, short1, short2, short3⟩
  unfold encodeTracks magEncodeTrack
  rw [found1, found2, found3]

theorem magJcbRead_short (wanted : Nat → Bool) (bits : MagBitBuf) (data : TrackData)
    (enough : BIT_BUF < turns) (before : ShortOutput out) :
    ∃ next, magJcbRead turns wanted bits data out = some next ∧ ShortOutput next := by
  obtain ⟨both, found, short⟩ := encodeBoth_short fun direction =>
    encodeTrack_returns 1 0 jcbTrack bits.track1 direction enough
  have returns : magJcbEncode turns bits data =
      some ({ data with track1 := both }, chooseDirection { data with track1 := both }) := by
    unfold magJcbEncode magJcbEncodeTrack
    rw [found]
    rfl
  rw [magJcbRead, returns]
  exact ⟨_, rfl, copyWanted_short short before⟩

/-- `MagRead` returns, whatever the bits, and stores in each buffer no more than the bytes of
the buffer of a track. -/
theorem magRead_short (noReader isOpen : Bool) (wanted : Nat → Bool) (bits : MagBitBuf)
    (errno : Byte) (enough : BIT_BUF < turns) :
    ∃ out, magRead noReader isOpen turns wanted bits errno = some out ∧ ShortOutput out := by
  have nothing : ShortOutput ⟨0, 0, fun _ => []⟩ := fun _ => Nat.zero_le _
  rw [magRead]
  by_cases idle : (noReader || !isOpen) = true
  · rw [if_pos idle]
    exact ⟨_, rfl, nothing⟩
  obtain ⟨data, direction, decoded, short⟩ := encodeTracks_short isoTrack1 isoTrack2 bits enough
  obtain ⟨data', direction', decoded', short'⟩ := encodeTracks_short ibmTrack1 ibmTrack2 bits enough
  have iso := copyTracks_short wanted direction short nothing
  have ibm := copyTracks_short wanted direction' short' iso
  have found : magEncode turns bits = some (data, direction) := decoded
  rw [if_neg idle, found]
  dsimp only
  by_cases isIso : (copyTracks wanted data direction ⟨0, 0, fun _ => []⟩).ret &&& 0x07 ≠ 0
  · rw [if_pos isIso]
    exact ⟨_, rfl, iso⟩
  have found' : magIbmRead turns wanted bits (copyTracks wanted data direction
      ⟨0, 0, fun _ => []⟩) = some (copyTracks wanted data' direction' (copyTracks wanted data
        direction ⟨0, 0, fun _ => []⟩), data') := by
    rw [magIbmRead, show magIbmEncode turns bits = some (data', direction') from decoded']
    rfl
  rw [if_neg isIso, found']
  dsimp only
  split
  · exact ⟨_, rfl, orElse_short _ ibm⟩
  · obtain ⟨next, returns, jcb⟩ := magJcbRead_short wanted bits data' enough
      (orElse_short (copyTracks wanted data direction ⟨0, 0, fun _ => []⟩) ibm)
    rw [returns]
    exact ⟨_, rfl, orElse_short _ jcb⟩

/-- A reading returns, and stores at most as many bytes in each of the caller's buffers as the
buffer of a track has. -/
def ReadsShort (read : Nat → Option MagOutput) : Prop :=
  ∀ turns, BIT_BUF < turns → ∃ out, read turns = some out ∧ ShortOutput out

/-- **The decoding of tracks.** Whatever the bits of the buffer are, and whatever the memory is
around them, a decoding in a direction stays inside its buffers exactly when the bits from the
character on with which its loop ends are all in the buffer: one width of a character behind
the last whole character, two from a zero on, and three from the stop code on. `MagRead` stores
at most 150 bytes in each buffer of its caller. -/
theorem mag_decode_safe (code : TrackCode) (bitBuf : BitInfo) (direction : Nat)
    (noReader isOpen : Bool) (wanted : Nat → Bool) (bits : MagBitBuf) (errno : Byte) :
    (DecodesSafely (magEncodeTrack · direction code bitBuf) ↔ DecodeFits code bitBuf direction) ∧
      (DecodesSafely (magJcbEncodeTrack · direction code bitBuf) ↔
        DecodeFits code bitBuf direction) ∧
      ReadsShort (magRead noReader isOpen · wanted bits errno) :=
  ⟨encodeTrack_safe 0 code.startCode, encodeTrack_safe 1 0,
    fun _ enough => magRead_short noReader isOpen wanted bits errno enough⟩

/-- Nine ones, and a start code at the end of the bits. -/
def lateStart : BitInfo :=
  ⟨fun k => decide (k < 9) || k == 745 || k == 746 || k == 748, fun _ => 0, 12⟩

/-- The bits behind the start code are those behind the buffer. -/
theorem lateStart_reads_beyond : ¬ DecodesSafely (magEncodeTrack · 0 isoTrack2 lateStart) := by
  intro safe
  obtain ⟨track, reads, returns, inside, -⟩ := safe 751 (by decide)
  have returns : magEncodeTrack 751 0 isoTrack2 lateStart = some (track, reads) := returns
  have last : ((magEncodeTrack 751 0 isoTrack2 lateStart).map fun found => found.2.head?) =
      some (some 754) := by
    decide +kernel
  rw [returns] at last
  have read := inside 754 (List.mem_of_mem_head? (Option.some.inj last))
  exact absurd read.2 (by decide)

end PosFirmware.MagCard
