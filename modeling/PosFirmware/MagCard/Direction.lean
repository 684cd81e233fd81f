import PosFirmware.MagCard.Recording

/-! # The direction of a swipe

Read in the other direction, a recorded track has a stop code only behind fewer characters, or
as many on a first track (`Recorded.reverse_short`). So `Mag_Encode` finds the direction of a
card but for a first track alone that was recorded backwards (`mag_tracks_decoded`).
-/

namespace PosFirmware.MagCard

open PosFirmware.Foundation

variable {code : TrackCode} {bitBuf : BitInfo} {direction other pre k i turns : Nat}
  {data : List Byte} {around : Int → Byte}

theorem charAt_bit (bitBuf : BitInfo) (direction : Nat) (inside : k + code.codeSize ≤ BIT_BUF) (within : i < code.codeSize) :
    (charAt code bitBuf direction k).getLsbD i = bitAt bitBuf direction (k + i) := by
  rw [charAt_eq inside, getLsbD_pack code.narrow.2, decide_eq_true within, Bool.true_and]

/-- The zeros before the characters of a track, in the other direction. -/
def zerosBefore (code : TrackCode) (pre : Nat) (data : List Byte) : Nat :=
  BIT_BUF - pre - (data.length + 3) * code.codeSize

namespace Recorded

variable (recorded : Recorded code pre data)
include recorded

theorem reverse_bit (reverse : other = 0 ↔ direction ≠ 0) (around : Int → Byte) {a r : Nat}
    (within : r < code.codeSize) (few : a < data.length + 3) :
    bitAt (recording code direction pre (trackChars code data) around) other
      (zerosBefore code pre data + a * code.codeSize + r) =
      ((trackChars code data).getD (data.length + 2 - a) 0).getLsbD (code.codeSize - 1 - r) := by
  have fits := recorded.fits
  obtain ⟨later, total⟩ : ∃ later, data.length + 2 = a + later := ⟨data.length + 2 - a, by omega⟩
  have width : (data.length + 3) * code.codeSize =
      a * code.codeSize + later * code.codeSize + code.codeSize := by
    rw [show data.length + 3 = a + later + 1 by omega]
    ring
  unfold zerosBefore
  rw [bitAt_reverse reverse (by omega), show data.length + 2 - a = later by omega,
    ← recordBit_char (show 0 < code.codeSize by omega)
      (show code.codeSize - 1 - r < code.codeSize by omega)]
  refine congrArg (recordBit code.codeSize pre (trackChars code data)) ?_
  omega

theorem reverse_zero (reverse : other = 0 ↔ direction ≠ 0) (around : Int → Byte) {p : Nat}
    (inside : p < BIT_BUF) (outside : p < zerosBefore code pre data ∨
      zerosBefore code pre data + (data.length + 3) * code.codeSize ≤ p) :
    bitAt (recording code direction pre (trackChars code data) around) other p = false := by
  have fits := recorded.fits
  have size := code.narrow
  unfold zerosBefore at outside
  rw [bitAt_reverse reverse inside, recordBit]
  rcases outside with early | late
  · have listed : (trackChars code data).length = data.length + 3 := by
      rw [trackChars, List.length_cons, List.length_append]
      rfl
    have beyond : (trackChars code data).length ≤ (BIT_BUF - 1 - p - pre) / code.codeSize := by
      rw [listed, Nat.le_div_iff_mul_le (by omega)]
      omega
    rw [List.getD_eq_default _ _ beyond]
    exact (congrArg _ BitVec.getLsbD_zero).trans (Bool.and_false _)
  · rw [decide_eq_false (by omega), Bool.false_and]

theorem reverse_start (reverse : other = 0 ↔ direction ≠ 0) (around : Int → Byte)
    (starts : StartsAt code (recording code direction pre (trackChars code data) around) other k) :
    zerosBefore code pre data ≤ k - code.codeSize := by
  have size := code.narrow
  have within := Nat.le_trans starts.1 (searched_le other)
  obtain ⟨enough, isStart⟩ := starts.2.1
  by_contra early
  have inBuf : k - code.codeSize + code.codeSize ≤ BIT_BUF := by omega
  have lowest := charAt_bit (recording code direction pre (trackChars code data) around) other
    inBuf (show 0 < code.codeSize by omega)
  rw [isStart, code.startOdd, recorded.reverse_zero reverse around (by omega) (.inl (by omega))] at lowest
  cases lowest

/-- The five ones of a stop code in the other direction end before the start code of the
track, or with its first bit. -/
theorem reverse_stop (reverse : other = 0 ↔ direction ≠ 0) (around : Int → Byte) {u : Nat}
    (inside : u + code.codeSize ≤ BIT_BUF)
    (isStop : charAt code (recording code direction pre (trackChars code data) around) other u =
      code.stopCode) :
    u + 4 < zerosBefore code pre data + (data.length + 2) * code.codeSize +
      (code.codeSize - 5) / 2 := by
  have size := code.narrow
  have fits := recorded.fits
  have stopBits : ∀ r < 5, code.stopCode.getLsbD r = true := by
    cases recorded.iso <;> decide
  have ones {p : Nat} (from_ : u ≤ p) (upTo : p ≤ u + 4) :
      bitAt (recording code direction pre (trackChars code data) around) other p = true := by
    have bit := charAt_bit (recording code direction pre (trackChars code data) around) other
      inside (show p - u < code.codeSize by omega)
    rw [isStop, stopBits _ (by omega), show u + (p - u) = p by omega] at bit
    exact bit.symm
  -- the zeros of the start code, from its last bit on
  have zero {r : Nat} (within : r < code.codeSize)
      (unset : code.startCode.getLsbD (code.codeSize - 1 - r) = false) :
      ¬ (u ≤ zerosBefore code pre data + (data.length + 2) * code.codeSize + r ∧
        zerosBefore code pre data + (data.length + 2) * code.codeSize + r ≤ u + 4) := by
    rintro ⟨from_, upTo⟩
    have set := ones from_ upTo
    rw [recorded.reverse_bit reverse around within (by omega), Nat.sub_self] at set
    exact absurd (unset.symm.trans set) nofun
  have behind : ¬ zerosBefore code pre data + (data.length + 3) * code.codeSize ≤ u + 4 := by
    intro late
    have set := ones (Nat.le_add_right u 4) (Nat.le_refl _)
    rw [recorded.reverse_zero reverse around (by omega) (.inr late)] at set
    cases set
  rw [show data.length + 3 = data.length + 2 + 1 from rfl, Nat.succ_mul, ← Nat.add_assoc] at behind
  generalize zerosBefore code pre data + (data.length + 2) * code.codeSize = q at *
  cases recorded.iso with
  | track1 =>
      have seven : isoTrack1.codeSize = 7 := rfl
      have one := zero (r := 1) (by decide) (by decide)
      have five := zero (r := 5) (by decide) (by decide)
      omega
  | track2 =>
      have wide : isoTrack2.codeSize = 5 := rfl
      have first := zero (r := 0) (by decide) (by decide)
      omega

/-- Read in the other direction, a track has no more data characters, and fewer if it is a second
or a third track. -/
theorem reverse_short (reverse : other = 0 ↔ direction ≠ 0) (around : Int → Byte)
    (starts : StartsAt code (recording code direction pre (trackChars code data) around) other k)
    (ends : CharsEnd code (recording code direction pre (trackChars code data) around) other k i)
    (room : Room code other (k + i * code.codeSize))
    (isStop : charAt code (recording code direction pre (trackChars code data) around) other
      (k + i * code.codeSize) = code.stopCode) :
    i ≤ data.length ∧ (code = isoTrack2 → i < data.length) := by
  have early := recorded.reverse_start reverse around starts
  have small := searched_le other
  have upTo := recorded.reverse_stop reverse around (Nat.le_trans room small) isStop
  have enough := starts.2.1.1
  have atMost : i ≤ data.length := by
    by_contra more
    have further := Nat.mul_le_mul_right code.codeSize (Nat.lt_of_not_le more)
    rw [Nat.succ_mul] at further
    rw [show data.length + 2 = data.length + 1 + 1 from rfl, Nat.succ_mul, Nat.succ_mul] at upTo
    have size := code.narrow
    omega
  refine ⟨atMost, fun second => Nat.lt_of_le_of_ne atMost fun all => ?_⟩
  subst second
  subst all
  have wide : isoTrack2.codeSize = 5 := rfl
  -- the reading starts with the LRC, and goes on with the stop code
  have atLrc : k = zerosBefore isoTrack2 pre data + isoTrack2.codeSize := by
    rw [show data.length + 2 = data.length + 1 + 1 from rfl, Nat.succ_mul, Nat.succ_mul] at upTo
    omega
  have inBuf : k + isoTrack2.codeSize ≤ BIT_BUF := by
    have room' : k + data.length * isoTrack2.codeSize + isoTrack2.codeSize ≤ searched other := room
    omega
  cases data with
  | nil =>
      have lowest := charAt_bit (recording isoTrack2 direction pre (trackChars isoTrack2 []) around)
        other (show k - isoTrack2.codeSize + isoTrack2.codeSize ≤ BIT_BUF by omega)
        (show 0 < isoTrack2.codeSize by decide)
      have bit := recorded.reverse_bit reverse around (a := 0) (show 0 < isoTrack2.codeSize by decide)
        (Nat.succ_pos _)
      rw [Nat.zero_mul] at bit
      rw [starts.2.1.2, atLrc, Nat.add_sub_cancel, bit] at lowest
      exact absurd lowest (by decide)
  | cons c data =>
      have passes := (ends.1 0 (Nat.succ_pos _)).2.2
      rw [Nat.zero_mul, Nat.add_zero, charAt_eq inBuf] at passes
      refine passes ((pack_congr fun r within => ?_).trans
        (show pack 8 isoTrack2.codeSize (fun _ => true) = isoTrack2.stopCode by decide))
      have bit := recorded.reverse_bit reverse around (a := 1) within (by omega)
      rw [Nat.one_mul, show (c :: data).length + 2 - 1 = (c :: data).length + 1 from rfl,
        trackChars_stop, ← atLrc] at bit
      rw [bit]
      clear bit
      revert r
      decide

/-- Read in the other direction, a track gets no higher mark, and a lower one if it is a second
or a third track. -/
theorem reverse_mark (reverse : other = 0 ↔ direction ≠ 0) (around : Int → Byte)
    (enough : BIT_BUF < turns) {track : TrackInfo} {reads : List Int}
    (returns : magEncodeTrack turns other code
      (recording code direction pre (trackChars code data) around) = some (track, reads)) :
    trackMark track ≤ 40 + 100 * data.length ∧
      (code = isoTrack2 → trackMark track < 40 + 100 * data.length) := by
  have each (found : Bool) : (if found then 10 else 0) ≤ 10 := by cases found <;> decide
  have started := each track.start
  have odds := each track.odd
  have stops := each track.stop
  have lrcs := each track.lrc
  unfold trackMark
  by_cases right : track.odd = true ∧ track.stop = true
  · obtain ⟨k, i, starts, ends, isLen, room, isStop, -⟩ :=
      encodeTrack_right enough returns right.1 right.2
    obtain ⟨atMost, less⟩ := recorded.reverse_short reverse around starts ends room isStop
    have chars : (if track.error = true then 0 else 100 * track.len) ≤ 100 * i := by
      rw [isLen]
      split <;> omega
    refine ⟨by omega, fun second => ?_⟩
    have := less second
    omega
  · have wrong : track.error = true := by
      by_contra noError
      exact right (encodeTrack_noError enough (recorded.many direction around) returns
        (Bool.eq_false_of_not_eq_true noError))
    rw [if_pos wrong]
    have lost : (if track.stop = true then 10 else 0) + (if track.odd = true then 10 else 0) ≤ 10 := by
      by_cases isStop : track.stop = true
      · rw [if_neg fun isOdd => right ⟨isOdd, isStop⟩]
        omega
      · rw [if_neg isStop]
        omega
    exact ⟨by omega, fun _ => by omega⟩

end Recorded

/-! ## Cards -/

/-- A track that was recorded in a direction, with zeros behind it. -/
def RecordedIn (code : TrackCode) (direction : Nat) (bitBuf : BitInfo) : Prop :=
  ∃ pre data around, Recorded code pre data ∧ pre + (data.length + 4) * code.codeSize ≤ BIT_BUF ∧
    bitBuf = recording code direction pre (trackChars code data) around

/-- A track with too few ones to be read. -/
def BitInfo.Blank (bitBuf : BitInfo) : Prop := bitBuf.bitOneNum ≤ 8

/-- A card whose tracks, if they are not blank, were recorded in one direction. -/
structure CardIn (direction : Nat) (bits : MagBitBuf) : Prop where
  one : direction ≤ 1
  track1 : bits.track1.Blank ∨ RecordedIn isoTrack1 direction bits.track1
  track2 : bits.track2.Blank ∨ RecordedIn isoTrack2 direction bits.track2
  track3 : bits.track3.Blank ∨ RecordedIn isoTrack2 direction bits.track3
  written : ¬ (bits.track1.Blank ∧ bits.track2.Blank ∧ bits.track3.Blank)

/-- What the two readings of a track have to do with the direction of the card. -/
structure Marked (code : TrackCode) (direction : Nat) (bitBuf : BitInfo)
    (both : TrackInfo × TrackInfo) : Prop where
  atMost : trackMark (inDirection (1 - direction) both) ≤ trackMark (inDirection direction both)
  blank : bitBuf.Blank →
    trackMark (inDirection (1 - direction) both) = trackMark (inDirection direction both)
  less : ¬ bitBuf.Blank → code = isoTrack2 →
    trackMark (inDirection (1 - direction) both) < trackMark (inDirection direction both)

theorem marked {bitBuf : BitInfo} (enough : BIT_BUF < turns) (one : direction ≤ 1)
    (written : bitBuf.Blank ∨ RecordedIn code direction bitBuf) : ∃ both,
    encodeBoth (magEncodeTrack turns · code bitBuf) = some both ∧
      Marked code direction bitBuf both := by
  rcases written with blank | ⟨pre, data, around, recorded, zeros, rfl⟩
  · have empty (d : Nat) : magEncodeTrack turns d code bitBuf = some (blankTrack, []) := if_pos blank
    refine ⟨(blankTrack, blankTrack), ?_, ?_⟩
    · rw [encodeBoth, empty, empty]
    · have same (d : Nat) : inDirection d (blankTrack, blankTrack) = blankTrack := ite_self _
      refine ⟨?_, fun _ => ?_, fun written => absurd blank written⟩
      · rw [same, same]
      · rw [same, same]
  · have many := recorded.many direction around
    have reverse : 1 - direction = 0 ↔ direction ≠ 0 := by omega
    obtain ⟨reads, right⟩ := recorded.decodes direction around zeros many enough
    obtain ⟨track, reads', wrong, -⟩ := encodeTrack_returns 0 code.startCode code
      (recording code direction pre (trackChars code data) around) (1 - direction) enough
    obtain ⟨atMost, less⟩ := recorded.reverse_mark reverse around enough wrong
    have full : trackMark ⟨trackChars code data, true, true, true, true, data.length, false⟩ =
        40 + 100 * data.length := rfl
    have marks (both : TrackInfo × TrackInfo) (here : inDirection direction both =
        ⟨trackChars code data, true, true, true, true, data.length, false⟩)
        (there : inDirection (1 - direction) both = track) : Marked code direction
          (recording code direction pre (trackChars code data) around) both := by
      refine ⟨?_, fun blank => absurd many (Int.not_lt.mpr blank), fun _ second => ?_⟩
      · rwa [here, there, full]
      · rw [here, there, full]
        exact less second
    obtain rfl | rfl : direction = 0 ∨ direction = 1 := by omega
    · refine ⟨(_, track), ?_, marks (_, track) rfl rfl⟩
      rw [encodeBoth, right, show magEncodeTrack turns 1 code _ = _ from wrong]
    · refine ⟨(track, _), ?_, marks (track, _) rfl rfl⟩
      rw [encodeBoth, right, show magEncodeTrack turns 0 code _ = _ from wrong]

/-- `Mag_Encode` finds the direction of a card, but for one that was recorded backwards on its
first track alone, if that track gets the same mark forwards. -/
theorem magEncode_direction {bits : MagBitBuf} (card : CardIn direction bits)
    (enough : BIT_BUF < turns) : ∃ data chosen, magEncode turns bits = some (data, chosen) ∧
      (chosen = direction ↔ ¬ (direction = 1 ∧ bits.track2.Blank ∧ bits.track3.Blank ∧
        trackMark data.track1.1 = trackMark data.track1.2)) := by
  obtain ⟨both1, encodes1, marked1⟩ := marked enough card.one card.track1
  obtain ⟨both2, encodes2, marked2⟩ := marked enough card.one card.track2
  obtain ⟨both3, encodes3, marked3⟩ := marked enough card.one card.track3
  refine ⟨⟨both1, both2, both3⟩, chooseDirection ⟨both1, both2, both3⟩, ?_, ?_⟩
  · unfold magEncode encodeTracks
    rw [encodes1, encodes2, encodes3]
  · obtain rfl | rfl : direction = 0 ∨ direction = 1 := by
      have := card.one
      omega
    · refine iff_of_true (if_pos ?_) fun tie => absurd tie.1 nofun
      exact Nat.add_le_add (Nat.add_le_add marked1.atMost marked2.atMost) marked3.atMost
    · have sums (d : Nat) : analyseDirection ⟨both1, both2, both3⟩ d =
          trackMark (inDirection d both1) + trackMark (inDirection d both2) +
            trackMark (inDirection d both3) := rfl
      have most1 : trackMark both1.1 ≤ trackMark both1.2 := marked1.atMost
      have most2 : trackMark both2.1 ≤ trackMark both2.2 := marked2.atMost
      have most3 : trackMark both3.1 ≤ trackMark both3.2 := marked3.atMost
      have less2 (written : ¬ bits.track2.Blank) : trackMark both2.1 < trackMark both2.2 :=
        marked2.less written rfl
      have less3 (written : ¬ bits.track3.Blank) : trackMark both3.1 < trackMark both3.2 :=
        marked3.less written rfl
      have same2 (blank : bits.track2.Blank) : trackMark both2.1 = trackMark both2.2 :=
        marked2.blank blank
      have same3 (blank : bits.track3.Blank) : trackMark both3.1 = trackMark both3.2 :=
        marked3.blank blank
      have chosen : chooseDirection ⟨both1, both2, both3⟩ = 1 ↔
          trackMark both1.1 + trackMark both2.1 + trackMark both3.1 <
            trackMark both1.2 + trackMark both2.2 + trackMark both3.2 := by
        unfold chooseDirection
        rw [sums, sums, ← Nat.not_le]
        by_cases forward : trackMark both1.2 + trackMark both2.2 + trackMark both3.2 ≤
            trackMark both1.1 + trackMark both2.1 + trackMark both3.1
        · exact iff_of_false (fun isOne => absurd ((if_pos forward).symm.trans isOne) nofun)
            (not_not_intro forward)
        · exact iff_of_true (if_neg forward) forward
      rw [chosen]
      constructor
      · rintro higher ⟨-, blank2, blank3, tie⟩
        have same1 : trackMark both1.1 = trackMark both1.2 := tie
        have := same2 blank2
        have := same3 blank3
        omega
      · intro noTie
        by_cases blank2 : bits.track2.Blank
        · by_cases blank3 : bits.track3.Blank
          · have := same2 blank2
            have := same3 blank3
            have less1 : trackMark both1.1 < trackMark both1.2 :=
              Nat.lt_of_le_of_ne most1 fun tie => noTie ⟨rfl, blank2, blank3, tie⟩
            have least2 := Nat.le_of_eq (same2 blank2)
            have least3 := Nat.le_of_eq (same3 blank3)
            exact Nat.add_lt_add_of_lt_of_le (Nat.add_lt_add_of_lt_of_le less1 least2) least3
          · have := less3 blank3
            omega
        · have := less2 blank2
          omega

/-- **Recorded tracks are decoded.** In the direction of its recording a track with zeros behind it
is decoded to its characters, and with one bit flipped to an error, unless it is a second or third
track without data that lost a one. The direction of a card is found, unless it was recorded
backwards with a first track alone that has the same mark forwards. -/
theorem mag_tracks_decoded (enough : BIT_BUF < turns) :
    (∀ code direction pre data around, Recorded code pre data →
      pre + (data.length + 4) * code.codeSize ≤ BIT_BUF →
      ∃ reads, magEncodeTrack turns direction code
        (recording code direction pre (trackChars code data) around) =
          some (⟨trackChars code data, true, true, true, true, data.length, false⟩, reads)) ∧
    (∀ code direction pre data around f b, Recorded code pre data →
      1 ≤ f → f < data.length + 3 → b < code.codeSize →
      data ≠ [] ∨ code = isoTrack1 ∨ ((trackChars code data).getD f 0).getLsbD b = false →
      ∃ track reads, magEncodeTrack turns direction code
        (recording code direction pre (flipBit (trackChars code data) f b) around) =
          some (track, reads) ∧ track.error = true) ∧
    ∀ direction bits, CardIn direction bits →
      ∃ data chosen, magEncode turns bits = some (data, chosen) ∧
        (chosen = direction ↔ ¬ (direction = 1 ∧ bits.track2.Blank ∧ bits.track3.Blank ∧
          trackMark data.track1.1 = trackMark data.track1.2)) := by
  refine ⟨?_, ?_, fun direction bits card => magEncode_direction card enough⟩
  · intro code direction pre data around recorded zeros
    exact recorded.decodes direction around zeros (recorded.many direction around) enough
  · intro code direction pre data around f b recorded behind inside within some_
    exact recorded.flipped_fails direction around behind inside within
      (recorded.many_flipped direction around inside within some_) enough

theorem recorded_one : Recorded isoTrack2 100 [0x01] := by
  refine ⟨.track2, fun c member => ?_, by decide⟩
  rw [List.mem_singleton.mp member]
  exact ⟨by decide, by decide, by decide, by decide⟩

/-- A second track with the digit 1, in either direction, with a bit of the digit flipped, and on
a card that was swiped backwards. -/
theorem one_digit_decoded :
    (∃ reads, magEncodeTrack 751 1 isoTrack2
      (recording isoTrack2 1 100 (trackChars isoTrack2 [0x01]) fun _ => 0) =
        some (⟨trackChars isoTrack2 [0x01], true, true, true, true, 1, false⟩, reads)) ∧
    (∃ track reads, magEncodeTrack 751 1 isoTrack2
      (recording isoTrack2 1 100 (flipBit (trackChars isoTrack2 [0x01]) 1 3) fun _ => 0) =
        some (track, reads) ∧ track.error = true) ∧
    ∃ data, magEncode 751 ⟨⟨fun _ => false, fun _ => 0, 0⟩,
      recording isoTrack2 1 100 (trackChars isoTrack2 [0x01]) fun _ => 0,
      ⟨fun _ => false, fun _ => 0, 0⟩⟩ = some (data, 1) := by
  have enough : BIT_BUF < 751 := by decide
  have blank : BitInfo.Blank ⟨fun _ => false, fun _ => 0, 0⟩ := Int.zero_le_ofNat 8
  have written : ¬ (recording isoTrack2 1 100 (trackChars isoTrack2 [0x01]) fun _ => 0).Blank :=
    Int.not_le.mpr (recorded_one.many 1 _)
  obtain ⟨decodes, fails, chooses⟩ := mag_tracks_decoded enough
  obtain ⟨data, chosen, returns, right⟩ := chooses 1
    ⟨⟨fun _ => false, fun _ => 0, 0⟩, recording isoTrack2 1 100 (trackChars isoTrack2 [0x01])
      fun _ => 0, ⟨fun _ => false, fun _ => 0, 0⟩⟩ ⟨Nat.le_refl 1, .inl blank, .inr ⟨100, [0x01], fun _ => 0, recorded_one, by decide, rfl⟩,
      .inl blank, fun allBlank => written allBlank.2.1⟩
  refine ⟨decodes isoTrack2 1 100 [0x01] (fun _ => 0) recorded_one (by decide),
    fails isoTrack2 1 100 [0x01] (fun _ => 0) 1 3 recorded_one (by decide) (by decide) (by decide)
      (.inl (by decide)), data, ?_⟩
  rw [returns, right.mpr fun tie => written tie.2.1]

/-- A second track without data that lost the one of its LRC is taken for an empty one, a track
with fewer zeros behind it depends on the memory behind its buffer, and there is a first track
that was recorded backwards and is taken for one recorded forwards. -/
theorem tracks_misread :
    (Recorded isoTrack2 100 [] ∧ (magEncodeTrack 751 0 isoTrack2
      (recording isoTrack2 0 100 (flipBit (trackChars isoTrack2 []) 2 2) fun _ => 0)).map
        (·.1.error) = some false) ∧
    (Recorded isoTrack2 735 [] ∧ (magEncodeTrack 751 0 isoTrack2
      (recording isoTrack2 0 735 (trackChars isoTrack2 []) fun _ => 1)).map (·.1.error) =
        some true) ∧
    CardIn 1 ⟨recording isoTrack1 1 100 (trackChars isoTrack1 [0x7C, 0x01, 0x76]) fun _ => 0,
      ⟨fun _ => false, fun _ => 0, 0⟩, ⟨fun _ => false, fun _ => 0, 0⟩⟩ ∧
    (magEncode 751 ⟨recording isoTrack1 1 100 (trackChars isoTrack1 [0x7C, 0x01, 0x76]) fun _ => 0,
      ⟨fun _ => false, fun _ => 0, 0⟩, ⟨fun _ => false, fun _ => 0, 0⟩⟩).map (·.2) = some 0 := by
  have three : Recorded isoTrack1 100 [0x7C, 0x01, 0x76] := by
    refine ⟨.track1, fun c member => ?_, by decide⟩
    rcases List.mem_cons.mp member with rfl | member
    · exact ⟨by decide, by decide, by decide, by decide⟩
    rcases List.mem_cons.mp member with rfl | member
    · exact ⟨by decide, by decide, by decide, by decide⟩
    rw [List.mem_singleton.mp member]
    exact ⟨by decide, by decide, by decide, by decide⟩
  have blank : BitInfo.Blank ⟨fun _ => false, fun _ => 0, 0⟩ := Int.zero_le_ofNat 8
  have written : ¬ (recording isoTrack1 1 100 (trackChars isoTrack1 [0x7C, 0x01, 0x76])
      fun _ => 0).Blank := Int.not_le.mpr (three.many 1 _)
  refine ⟨⟨⟨.track2, by simp, by decide⟩, ?_⟩, ⟨⟨.track2, by simp, by decide⟩, ?_⟩,
    ⟨Nat.le_refl 1, .inr ⟨100, _, _, three, by decide, rfl⟩, .inl blank, .inl blank,
      fun allBlank => written allBlank.1⟩, ?_⟩
  · decide +kernel
  · decide +kernel
  · decide +kernel

end PosFirmware.MagCard
