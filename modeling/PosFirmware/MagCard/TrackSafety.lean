import Mathlib.Tactic.Ring
import PosFirmware.Foundation.Bits
import PosFirmware.MagCard.Track

/-! # Where the decoding of a track reads and writes

The bits of a track in the order of a direction: where the start code ends (`StartsAt`), where
the loop over the characters ends (`CharsEnd`), and how many bits are read from there on
(`bitsFrom`). A decoding stays inside its buffers exactly when these bits are there
(`encodeTrack_safe`).
-/

namespace PosFirmware.MagCard

open PosFirmware.Foundation

/-- The position of the k-th bit in a direction. -/
def position (direction k : Nat) : Int := (firstReader direction).b + k * step direction

/-- A reader of the first bits in a direction. -/
def readerAt (direction k : Nat) : Reader :=
  ⟨position direction k, ((List.range k).map (position direction)).reverse⟩

/-- The k-th bit in a direction. -/
def bitAt (bitBuf : BitInfo) (direction k : Nat) : Bool := bitBuf.bits (position direction k).toNat

/-- The character from the k-th bit on. -/
def charAt (code : TrackCode) (bitBuf : BitInfo) (direction k : Nat) : Byte :=
  readChar bitBuf direction code.codeSize (readerAt direction k)

/-- The bits that the search of the start code sees: not the first one of the buffer, backwards. -/
def searched (direction : Nat) : Nat := if direction = 0 then BIT_BUF else BIT_BUF - 1

/-- The last bits before the k-th one are the start code. -/
def IsStart (code : TrackCode) (bitBuf : BitInfo) (direction k : Nat) : Prop :=
  code.codeSize ≤ k ∧ charAt code bitBuf direction (k - code.codeSize) = code.startCode

/-- The first start code ends before the k-th bit. -/
def StartsAt (code : TrackCode) (bitBuf : BitInfo) (direction k : Nat) : Prop :=
  k ≤ searched direction ∧ IsStart code bitBuf direction k ∧
    ∀ j < k, ¬ IsStart code bitBuf direction j

/-- Whether the loop reads a character at the k-th bit: backwards, one bit has to be left. -/
def Room (code : TrackCode) (direction k : Nat) : Prop := k + code.codeSize ≤ searched direction

/-- The loop goes on behind the character at the k-th bit. -/
def Passes (code : TrackCode) (bitBuf : BitInfo) (direction k : Nat) : Prop :=
  Room code direction k ∧ charAt code bitBuf direction k ≠ 0 ∧
    charAt code bitBuf direction k ≠ code.stopCode

/-- The loop over the characters from the k-th bit on ends with the i-th. -/
def CharsEnd (code : TrackCode) (bitBuf : BitInfo) (direction k i : Nat) : Prop :=
  (∀ j < i, Passes code bitBuf direction (k + j * code.codeSize)) ∧
    ¬ Passes code bitBuf direction (k + i * code.codeSize)

instance (code : TrackCode) (direction k : Nat) : Decidable (Room code direction k) :=
  inferInstanceAs (Decidable (_ ≤ _))

/-- The characters that the loop reads where it ends: none where there is no room, a zero, or the
stop code and the LRC. -/
def lastChars (code : TrackCode) (bitBuf : BitInfo) (direction k : Nat) : Nat :=
  if ¬ Room code direction k then 0 else if charAt code bitBuf direction k = 0 then 1 else 2

/-- The bits that are read from where the loop ends, with those that have to be zero. -/
def bitsFrom (code : TrackCode) (bitBuf : BitInfo) (direction k : Nat) : Nat :=
  (lastChars code bitBuf direction k + 1) * code.codeSize

variable {code : TrackCode} {bitBuf : BitInfo} {direction k i turns : Nat}

theorem searched_le (direction : Nat) : searched direction ≤ BIT_BUF := by
  unfold searched
  split <;> omega

/-! ## Readers -/

theorem position_inside : (0 ≤ position direction k ∧ position direction k < BIT_BUF) ↔
    k < BIT_BUF := by
  unfold position firstReader step BIT_BUF
  by_cases forward : direction = 0
  · simp only [if_pos forward]
    omega
  · simp only [if_neg forward]
    omega

theorem position_succ : position direction (k + 1) = position direction k + step direction := by
  unfold position
  push_cast
  ring

theorem skip_at (n : Nat) :
    (readerAt direction k).skip direction n = readerAt direction (k + n) := by
  induction n generalizing k with
  | zero => rfl
  | succ n ih =>
      have next : Reader.mk (position direction k + step direction)
          (position direction k :: (readerAt direction k).reads) = readerAt direction (k + 1) := by
        rw [readerAt, readerAt, position_succ, List.range_succ, List.map_append, List.reverse_append]
        rfl
      have more : k + (n + 1) = k + 1 + n := by omega
      rw [Reader.skip, more, ← ih]
      exact congrArg (Reader.skip direction n) next

theorem reads_inside : (∀ b ∈ (readerAt direction k).reads, 0 ≤ b ∧ b < BIT_BUF) ↔ k ≤ BIT_BUF := by
  rw [readerAt]
  simp only [List.mem_reverse, List.forall_mem_map, List.mem_range, position_inside]
  constructor
  · intro inside
    by_contra beyond
    exact absurd (inside (k - 1) (by omega)) (by omega)
  · intro within j below
    omega

theorem buf_eq (inside : k < BIT_BUF) :
    bitBuf.buf (position direction k) = bitWord 8 (bitAt bitBuf direction k) :=
  if_pos (position_inside.mpr inside)

theorem charAt_eq (inside : k + code.codeSize ≤ BIT_BUF) : charAt code bitBuf direction k =
    pack 8 code.codeSize fun i => bitAt bitBuf direction (k + i) := by
  rw [charAt, readChar, pack]
  refine List.foldl_ext _ _ _ fun data i member => ?_
  have below := List.mem_range.mp member
  have same : (readerAt direction k).b + i * step direction = position direction (k + i) := by
    unfold readerAt position
    push_cast
    ring
  rw [same, buf_eq (by omega)]

/-! ## The start code -/

theorem found_iff {data : Byte} (shifted : Shifted code.codeSize (bitAt bitBuf direction) k data)
    (inside : k ≤ BIT_BUF) : data = code.startCode ↔ IsStart code bitBuf direction k := by
  by_cases enough : code.codeSize ≤ k
  · rw [IsStart, charAt_eq (by omega), ← shifted.eq_pack code.narrow.2 enough]
    exact (and_iff_right enough).symm
  · refine iff_of_false ?_ fun isStart => enough isStart.1
    rintro rfl
    exact absurd code.startOdd (by rw [shifted.lowest (by omega)]; nofun)

theorem position_forward : position 0 k = k := by
  unfold position firstReader step
  simp only [if_true]
  omega

theorem position_backward (backward : direction ≠ 0) : position direction k = 749 - k := by
  unfold position firstReader step BIT_BUF
  simp only [if_neg backward]
  omega

theorem asUint_position (inside : k ≤ BIT_BUF) (forward : direction = 0 ∨ k < BIT_BUF) :
    asUint (position direction k) = position direction k := by
  unfold asUint BIT_BUF at *
  by_cases zero : direction = 0
  · subst zero
    rw [position_forward]
    omega
  · rw [position_backward zero]
    omega

theorem searchEnds_iff (direction : Nat) (inside : k ≤ BIT_BUF) :
    (direction = 0 ∧ BIT_BUF ≤ asUint (position direction k)) ∨
      (direction ≠ 0 ∧ position direction k ≤ 0) ↔ searched direction ≤ k := by
  by_cases forward : direction = 0
  · rw [asUint_position inside (.inl forward), searched, if_pos forward, forward, position_forward]
    omega
  · rw [position_backward forward, searched, if_neg forward]
    unfold BIT_BUF
    omega

theorem findStart_succ {data : Byte} (inside : k < BIT_BUF) :
    findStart code bitBuf direction (turns + 1) data (readerAt direction k) =
      if shiftIn code.codeSize data (bitAt bitBuf direction k) = code.startCode then
        some (true, readerAt direction (k + 1))
      else if searched direction ≤ k + 1 then some (false, readerAt direction (k + 1))
      else findStart code bitBuf direction turns
        (shiftIn code.codeSize data (bitAt bitBuf direction k)) (readerAt direction (k + 1)) := by
  have bit : data >>> 1 ||| bitBuf.buf (readerAt direction k).b <<< (code.codeSize - 1) =
      shiftIn code.codeSize data (bitAt bitBuf direction k) := by
    rw [shiftIn, ← buf_eq inside]
    rfl
  have ends := searchEnds_iff direction (show k + 1 ≤ BIT_BUF from inside)
  rw [findStart, bit, skip_at]
  simp only [← ends]
  rfl

theorem findStart_eq {data : Byte} (shifted : Shifted code.codeSize (bitAt bitBuf direction) k data)
    (none_ : ∀ j ≤ k, ¬ IsStart code bitBuf direction j) (before : k < searched direction)
    (enough : searched direction ≤ k + turns) :
    (∃ k', StartsAt code bitBuf direction k' ∧
        findStart code bitBuf direction turns data (readerAt direction k) =
          some (true, readerAt direction k')) ∨
      (∀ k', ¬ StartsAt code bitBuf direction k') ∧ ∃ k' ≤ BIT_BUF,
        findStart code bitBuf direction turns data (readerAt direction k) =
          some (false, readerAt direction k') := by
  induction turns generalizing k data with
  | zero => omega
  | succ turns ih =>
      have small : searched direction ≤ BIT_BUF := by
        unfold searched
        split <;> omega
      have shifted' := shiftIn_shifted (by have := code.narrow; omega) code.narrow.2 shifted
      have found := found_iff shifted' (show k + 1 ≤ BIT_BUF by omega)
      rw [findStart_succ (by omega)]
      by_cases isStart : IsStart code bitBuf direction (k + 1)
      · refine .inl ⟨k + 1, ⟨before, isStart, fun j below => none_ j (by omega)⟩, ?_⟩
        rw [if_pos (found.mpr isStart)]
      · rw [if_neg (mt found.mp isStart)]
        have none' : ∀ j ≤ k + 1, ¬ IsStart code bitBuf direction j := by
          intro j upTo
          rcases Nat.lt_or_ge j (k + 1) with below | last
          · exact none_ j (by omega)
          · rwa [show j = k + 1 by omega]
        by_cases ends : searched direction ≤ k + 1
        · refine .inr ⟨fun k' starts => none' k' (Nat.le_trans starts.1 ends) starts.2.1, k + 1,
            by omega, ?_⟩
          rw [if_pos ends]
        · rw [if_neg ends]
          exact ih shifted' none' (by omega) (by omega)

theorem no_start_early (few : k < code.codeSize) : ¬ IsStart code bitBuf direction k :=
  fun isStart => absurd isStart.1 (by omega)

theorem search_eq (code : TrackCode) (bitBuf : BitInfo) (direction : Nat)
    (enough : BIT_BUF ≤ turns) : (∃ k, StartsAt code bitBuf direction k ∧
        findStart code bitBuf direction turns 0 (firstReader direction) =
          some (true, readerAt direction k)) ∨
      (∀ k, ¬ StartsAt code bitBuf direction k) ∧ ∃ k ≤ BIT_BUF,
        findStart code bitBuf direction turns 0 (firstReader direction) =
          some (false, readerAt direction k) := by
  have narrow := code.narrow
  have small := searched_le direction
  have first : readerAt direction 0 = firstReader direction := by
    rw [readerAt, position, Int.natCast_zero, Int.zero_mul, Int.add_zero]
    rfl
  have some_ : 0 < searched direction := by
    unfold searched BIT_BUF
    split <;> omega
  rw [← first]
  refine findStart_eq shifted_zero (fun j upTo => no_start_early ?_) some_ (by omega)
  omega

/-! ## The characters -/

theorem charsEnd_iff (code : TrackCode) (inside : k ≤ BIT_BUF) (forward : direction = 0 ∨ k < BIT_BUF) :
    (direction = 0 ∧ BIT_BUF - code.codeSize < asUint (position direction k)) ∨
      (direction ≠ 0 ∧ asUint (position direction k) < code.codeSize) ↔
      ¬ Room code direction k := by
  have narrow := code.narrow
  rw [asUint_position inside forward, Room, searched]
  by_cases zero : direction = 0
  · rw [if_pos zero, zero, position_forward]
    omega
  · rw [if_neg zero, position_backward zero]
    unfold BIT_BUF at *
    omega

/-- A track with one more character. -/
def stored (track : TrackInfo) (data : Byte) : TrackInfo :=
  { track with buf := track.buf ++ [data] }

/-- A track with one more character whose parity was looked at. -/
def checked (badParity : Nat) (track : TrackInfo) (data : Byte) : TrackInfo :=
  { stored track data with odd := track.odd && magParity data != badParity }

theorem decodeChars_succ {badParity : Nat} {track : TrackInfo} {calLrc : Byte}
    (inside : k ≤ searched direction) :
    decodeChars badParity code bitBuf direction (turns + 1) track calLrc (readerAt direction k) =
      if ¬ Room code direction k then some (track, readerAt direction k)
      else if charAt code bitBuf direction k = 0 then
        some (stored track (charAt code bitBuf direction k), readerAt direction (k + code.codeSize))
      else if charAt code bitBuf direction k = code.stopCode then
        some (readLrc badParity code (charAt code bitBuf direction (k + code.codeSize))
          (calLrc ^^^ charAt code bitBuf direction k)
          (checked badParity track (charAt code bitBuf direction k)),
          readerAt direction (k + code.codeSize + code.codeSize))
      else decodeChars badParity code bitBuf direction turns
        { checked badParity track (charAt code bitBuf direction k) with len := track.len + 1 }
        (calLrc ^^^ charAt code bitBuf direction k) (readerAt direction (k + code.codeSize)) := by
  have forward : direction = 0 ∨ k < BIT_BUF := by
    unfold searched BIT_BUF at *
    split at inside <;> omega
  have ends := charsEnd_iff code (Nat.le_trans inside (searched_le direction)) forward
  rw [decodeChars]
  simp only [skip_at, ← ends]
  rfl

/-- The first characters from the k-th bit on. -/
def charsFrom (code : TrackCode) (bitBuf : BitInfo) (direction k i : Nat) : List Byte :=
  (List.range i).map fun j => charAt code bitBuf direction (k + j * code.codeSize)

/-- A track with characters that the loop has passed. -/
def afterChars (badParity : Nat) (track : TrackInfo) (data : List Byte) : TrackInfo :=
  { track with
    buf := track.buf ++ data
    odd := track.odd && data.all fun c => magParity c != badParity
    len := track.len + data.length }

/-- The track where the loop ends at the k-th bit. -/
def endTrack (badParity : Nat) (code : TrackCode) (bitBuf : BitInfo) (direction : Nat)
    (track : TrackInfo) (calLrc : Byte) (k : Nat) : TrackInfo :=
  if ¬ Room code direction k then track
  else if charAt code bitBuf direction k = 0 then stored track (charAt code bitBuf direction k)
  else
    readLrc badParity code (charAt code bitBuf direction (k + code.codeSize))
      (calLrc ^^^ charAt code bitBuf direction k)
      (checked badParity track (charAt code bitBuf direction k))

theorem charsFrom_succ : charsFrom code bitBuf direction k (i + 1) =
    charAt code bitBuf direction k :: charsFrom code bitBuf direction (k + code.codeSize) i := by
  rw [charsFrom, charsFrom, List.range_succ_eq_map, List.map_cons, List.map_map, Nat.zero_mul,
    Nat.add_zero]
  refine congrArg (List.cons _) (List.map_congr_left fun j _ => ?_)
  have same : k + (j + 1) * code.codeSize = k + code.codeSize + j * code.codeSize := by ring
  exact congrArg (charAt code bitBuf direction) same

theorem charsFrom_length : (charsFrom code bitBuf direction k i).length = i := by
  rw [charsFrom, List.length_map, List.length_range]

theorem afterChars_cons {badParity : Nat} {track : TrackInfo} {c : Byte} {data : List Byte} :
    afterChars badParity { checked badParity track c with len := track.len + 1 } data =
      afterChars badParity track (c :: data) := by
  have stores : track.buf ++ [c] ++ data = track.buf ++ c :: data := by simp
  have count : track.len + 1 + data.length = track.len + (data.length + 1) := by omega
  unfold afterChars checked stored
  dsimp only
  rw [stores, count, Bool.and_assoc]
  rfl

theorem decodeChars_eq (badParity : Nat) (track : TrackInfo) (calLrc : Byte)
    (ends : CharsEnd code bitBuf direction k i) (inside : k ≤ searched direction)
    (enough : BIT_BUF < k + turns) :
    decodeChars badParity code bitBuf direction turns track calLrc (readerAt direction k) =
      some (endTrack badParity code bitBuf direction
          (afterChars badParity track (charsFrom code bitBuf direction k i))
          ((charsFrom code bitBuf direction k i).foldl (· ^^^ ·) calLrc) (k + i * code.codeSize),
        readerAt direction (k + i * code.codeSize +
          lastChars code bitBuf direction (k + i * code.codeSize) * code.codeSize)) := by
  have narrow := code.narrow
  have small := searched_le direction
  induction i generalizing k turns track calLrc with
  | zero =>
      have here : k + 0 * code.codeSize = k := by omega
      have same : afterChars badParity track (charsFrom code bitBuf direction k 0) = track := by
        change TrackInfo.mk (track.buf ++ []) _ _ _ (track.odd && true) _ _ = _
        rw [List.append_nil, Bool.and_true]
        rfl
      have notPasses := ends.2
      rw [here] at notPasses ⊢
      rw [same]
      obtain ⟨turns, rfl⟩ : ∃ less, turns = less + 1 := ⟨turns - 1, by omega⟩
      rw [decodeChars_succ inside, endTrack, lastChars]
      by_cases room : Room code direction k
      · rw [if_neg (not_not_intro room), if_neg (not_not_intro room), if_neg (not_not_intro room)]
        by_cases zero : charAt code bitBuf direction k = 0
        · rw [if_pos zero, if_pos zero, if_pos zero, Nat.one_mul]
        · have isStop : charAt code bitBuf direction k = code.stopCode := by
            by_contra notStop
            exact notPasses ⟨room, zero, notStop⟩
          rw [if_neg zero, if_neg zero, if_neg zero, if_pos isStop, Nat.two_mul, Nat.add_assoc]
          rfl
      · rw [if_pos room, if_pos room, if_pos room, Nat.zero_mul]
        rfl
  | succ i ih =>
      have further (j : Nat) : k + (j + 1) * code.codeSize =
          k + code.codeSize + j * code.codeSize := by ring
      have here : Passes code bitBuf direction (k + 0 * code.codeSize) :=
        ends.1 0 (Nat.succ_pos i)
      rw [Nat.zero_mul, Nat.add_zero] at here
      obtain ⟨room, nonzero, notStop⟩ := here
      have later : CharsEnd code bitBuf direction (k + code.codeSize) i :=
        ⟨fun j below => further j ▸ ends.1 (j + 1) (Nat.succ_lt_succ below), further i ▸ ends.2⟩
      obtain ⟨turns, rfl⟩ : ∃ less, turns = less + 1 := by
        refine ⟨turns - 1, ?_⟩
        unfold Room at room
        omega
      rw [decodeChars_succ inside, if_neg (not_not_intro room), if_neg nonzero, if_neg notStop,
        ih _ _ later room (by omega), further, charsFrom_succ, afterChars_cons]
      rfl

theorem exists_charsEnd (code : TrackCode) (bitBuf : BitInfo) (direction k : Nat) :
    ∃ i, CharsEnd code bitBuf direction k i := by
  classical
  have narrow := code.narrow
  have stops : ∃ i, ¬ Passes code bitBuf direction (k + i * code.codeSize) := by
    refine ⟨BIT_BUF, fun passes => ?_⟩
    have room : k + BIT_BUF * code.codeSize + code.codeSize ≤ searched direction := passes.1
    have small := searched_le direction
    have wide := Nat.le_mul_of_pos_right BIT_BUF (show 0 < code.codeSize by omega)
    omega
  exact ⟨Nat.find stops, fun j below => not_not.mp (Nat.find_min stops below), Nat.find_spec stops⟩

/-! ## A whole track -/

theorem StartsAt.unique {k' : Nat} (starts : StartsAt code bitBuf direction k)
    (starts' : StartsAt code bitBuf direction k') : k = k' := by
  rcases Nat.lt_trichotomy k k' with before | same | behind
  · exact absurd starts.2.1 (starts'.2.2 k before)
  · exact same
  · exact absurd starts'.2.1 (starts.2.2 k' behind)

theorem CharsEnd.inside (ends : CharsEnd code bitBuf direction k i)
    (inside : k ≤ searched direction) : k + i * code.codeSize ≤ searched direction := by
  cases i with
  | zero => simpa using inside
  | succ i =>
      have room : k + i * code.codeSize + code.codeSize ≤ searched direction :=
        (ends.1 i (Nat.lt_succ_self i)).1
      rwa [Nat.succ_mul, ← Nat.add_assoc]

theorem encodeTrack_eq (badParity : Nat) (firstLrc : Byte) (many : 8 < bitBuf.bitOneNum)
    (starts : StartsAt code bitBuf direction k) (ends : CharsEnd code bitBuf direction k i)
    (enough : BIT_BUF < turns) :
    encodeTrack badParity firstLrc code turns direction bitBuf =
      let data := charsFrom code bitBuf direction k i
      let last := k + i * code.codeSize
      let track := endTrack badParity code bitBuf direction (afterChars badParity
        { blankTrack with start := true, buf := [code.startCode] } data)
        (data.foldl (· ^^^ ·) firstLrc) last
      some ({ track with error := !(track.odd && track.stop && track.lrc &&
          charAt code bitBuf direction (last + lastChars code bitBuf direction last *
            code.codeSize) == 0) },
        (readerAt direction (last + bitsFrom code bitBuf direction last)).reads) := by
  have further : k + i * code.codeSize + lastChars code bitBuf direction
      (k + i * code.codeSize) * code.codeSize + code.codeSize = k + i * code.codeSize +
        bitsFrom code bitBuf direction (k + i * code.codeSize) := by
    unfold bitsFrom
    ring
  obtain ⟨k', starts', found⟩ | ⟨none_, -⟩ :=
    search_eq code bitBuf direction (Nat.le_of_lt enough)
  · obtain rfl := starts.unique starts'
    rw [encodeTrack, if_neg (by omega), found]
    dsimp only
    rw [decodeChars_eq badParity _ _ ends starts.1 (by omega)]
    dsimp only
    rw [skip_at, further]
    rfl
  · exact absurd starts (none_ k)

theorem encodeTrack_cases (code : TrackCode) (bitBuf : BitInfo) (direction badParity : Nat)
    (firstLrc : Byte) (enough : BIT_BUF < turns) :
    (bitBuf.bitOneNum ≤ 8 ∧
      encodeTrack badParity firstLrc code turns direction bitBuf = some (blankTrack, [])) ∨
    (8 < bitBuf.bitOneNum ∧ (∀ k, ¬ StartsAt code bitBuf direction k) ∧ ∃ k ≤ BIT_BUF,
      encodeTrack badParity firstLrc code turns direction bitBuf =
        some ({ blankTrack with error := true }, (readerAt direction k).reads)) ∨
    8 < bitBuf.bitOneNum ∧ ∃ k i, StartsAt code bitBuf direction k ∧
      CharsEnd code bitBuf direction k i := by
  by_cases few : bitBuf.bitOneNum ≤ 8
  · exact .inl ⟨few, if_pos few⟩
  obtain ⟨k, starts, -⟩ | ⟨none_, k, inside, notFound⟩ :=
    search_eq code bitBuf direction (Nat.le_of_lt enough)
  · obtain ⟨i, ends⟩ := exists_charsEnd code bitBuf direction k
    exact .inr (.inr ⟨by omega, k, i, starts, ends⟩)
  · refine .inr (.inl ⟨by omega, none_, k, inside, ?_⟩)
    rw [encodeTrack, if_neg few, notFound]

theorem endTrack_len {badParity : Nat} {track : TrackInfo} {calLrc : Byte} :
    (endTrack badParity code bitBuf direction track calLrc k).len = track.len := by
  unfold endTrack
  split_ifs <;> rfl

theorem endTrack_buf {badParity : Nat} {track : TrackInfo} {calLrc : Byte} :
    (endTrack badParity code bitBuf direction track calLrc k).buf.length =
      track.buf.length + lastChars code bitBuf direction k := by
  unfold endTrack lastChars
  split_ifs
  · exact List.length_append
  · change (track.buf ++ [_] ++ [_]).length = _
    rw [List.append_assoc, List.length_append]
    rfl
  · rfl

/-- A decoding returns, reads nothing but the bits of its buffer, and stores nothing behind the
buffer of the track. -/
def DecodesSafely (encode : Nat → Option (TrackInfo × List Int)) : Prop :=
  ∀ turns, BIT_BUF < turns → ∃ track reads, encode turns = some (track, reads) ∧
    (∀ b ∈ reads, 0 ≤ b ∧ b < BIT_BUF) ∧ track.buf.length ≤ TRACK_BUF

/-- The buffer has the bits that are read from where the characters end. -/
def DecodeFits (code : TrackCode) (bitBuf : BitInfo) (direction : Nat) : Prop :=
  8 < bitBuf.bitOneNum → ∀ k i, StartsAt code bitBuf direction k →
    CharsEnd code bitBuf direction k i →
    k + i * code.codeSize + bitsFrom code bitBuf direction (k + i * code.codeSize) ≤ BIT_BUF

theorem encodeTrack_safe (badParity : Nat) (firstLrc : Byte) :
    DecodesSafely (encodeTrack badParity firstLrc code · direction bitBuf) ↔
      DecodeFits code bitBuf direction := by
  have narrow := code.narrow
  constructor
  · intro safe many k i starts ends
    obtain ⟨track, reads, returns, inside, -⟩ := safe _ (Nat.lt_succ_self BIT_BUF)
    have returns' := encodeTrack_eq badParity firstLrc many starts ends (Nat.lt_succ_self BIT_BUF)
    obtain ⟨-, rfl⟩ := Prod.mk.inj (Option.some.inj (returns.symm.trans returns'))
    exact reads_inside.mp inside
  · intro fits turns enough
    rcases encodeTrack_cases code bitBuf direction badParity firstLrc enough with
      ⟨-, returns⟩ | ⟨-, -, k, inside, returns⟩ | ⟨many, k, i, starts, ends⟩
    · exact ⟨_, _, returns, nofun, Nat.zero_le _⟩
    · exact ⟨_, _, returns, reads_inside.mpr inside, Nat.zero_le _⟩
    · have within := fits many k i starts ends
      refine ⟨_, _, encodeTrack_eq badParity firstLrc many starts ends enough,
        reads_inside.mpr within, ?_⟩
      dsimp only
      rw [endTrack_buf]
      change ([code.startCode] ++ charsFrom code bitBuf direction k i).length + _ ≤ _
      rw [List.length_append, charsFrom_length, List.length_singleton]
      have wide := Nat.mul_le_mul_left
        (2 + i + lastChars code bitBuf direction (k + i * code.codeSize)) narrow.1
      have behind : (2 + i + lastChars code bitBuf direction (k + i * code.codeSize)) *
          code.codeSize ≤ BIT_BUF := by
        refine Nat.le_trans (Nat.le_of_eq ?_)
          (Nat.le_trans (Nat.add_le_add_right (Nat.add_le_add_right starts.2.1.1 _) _) within)
        unfold bitsFrom
        ring
      unfold BIT_BUF at behind
      unfold TRACK_BUF
      omega

/-- However the bits are, a decoding returns a track of fewer characters than the bytes of its
buffer. -/
theorem encodeTrack_returns (badParity : Nat) (firstLrc : Byte) (code : TrackCode)
    (bitBuf : BitInfo) (direction : Nat) (enough : BIT_BUF < turns) : ∃ track reads,
    encodeTrack badParity firstLrc code turns direction bitBuf = some (track, reads) ∧
      track.len < TRACK_BUF := by
  have narrow := code.narrow
  rcases encodeTrack_cases code bitBuf direction badParity firstLrc enough with
    ⟨-, returns⟩ | ⟨-, -, k, -, returns⟩ | ⟨many, k, i, starts, ends⟩
  · exact ⟨_, _, returns, Nat.succ_pos _⟩
  · exact ⟨_, _, returns, Nat.succ_pos _⟩
  · refine ⟨_, _, encodeTrack_eq badParity firstLrc many starts ends enough, ?_⟩
    dsimp only
    rw [endTrack_len]
    change 0 + (charsFrom code bitBuf direction k i).length < _
    have inside := Nat.le_trans (ends.inside starts.1) (searched_le direction)
    have wide := Nat.mul_le_mul_left i narrow.1
    have first := starts.2.1.1
    rw [charsFrom_length, Nat.zero_add]
    unfold BIT_BUF at inside
    unfold TRACK_BUF
    omega

end PosFirmware.MagCard
