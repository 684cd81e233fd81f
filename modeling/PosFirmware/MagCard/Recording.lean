import Mathlib.Algebra.Order.BigOperators.Group.List
import Mathlib.Data.List.GetD
import Mathlib.Data.List.Nodup
import Mathlib.Data.List.Perm.Subperm
import Mathlib.Data.Prod.Basic
import PosFirmware.MagCard.TrackSafety

/-! # Recorded tracks

A track as it is recorded: a start code, characters of odd parity, a stop code and an LRC,
between zero clock bits, in either direction. Read in its direction it is decoded to its
characters (`recorded_decodes`), and with one bit flipped to an error (`flipped_fails`).
-/

namespace PosFirmware.MagCard

open PosFirmware.Foundation

/-- The bits of characters behind a number of zeros, and zeros behind them. -/
def recordBit (size pre : Nat) (chars : List Byte) (k : Nat) : Bool :=
  decide (pre ≤ k) && (chars.getD ((k - pre) / size) 0).getLsbD ((k - pre) % size)

/-- A buffer with characters that were recorded in a direction. -/
def recording (code : TrackCode) (direction pre : Nat) (chars : List Byte) (around : Int → Byte) :
    BitInfo :=
  let bits p := recordBit code.codeSize pre chars (if direction = 0 then p else BIT_BUF - 1 - p)
  ⟨bits, around, ((List.range BIT_BUF).filter bits).length⟩

/-- A character of the width of a track. -/
def NarrowChar (code : TrackCode) (c : Byte) : Prop :=
  ∀ i < 8, code.codeSize ≤ i → c.getLsbD i = false

instance (code : TrackCode) (c : Byte) : Decidable (NarrowChar code c) :=
  inferInstanceAs (Decidable (∀ i < 8, _))

def Narrow (code : TrackCode) (chars : List Byte) : Prop := ∀ c ∈ chars, NarrowChar code c

variable {code : TrackCode} {direction other pre k j turns : Nat} {chars : List Byte}
  {around : Int → Byte}

/-! ## The bits of a recording -/

theorem bitAt_recording (inside : k < BIT_BUF) :
    bitAt (recording code direction pre chars around) direction k =
      recordBit code.codeSize pre chars k := by
  change recordBit code.codeSize pre chars (if direction = 0 then (position direction k).toNat
    else BIT_BUF - 1 - (position direction k).toNat) = _
  congr 1
  by_cases forward : direction = 0
  · rw [if_pos forward, forward, position_forward]
    rfl
  · rw [if_neg forward, position_backward forward]
    unfold BIT_BUF at *
    omega

theorem bitAt_reverse (reverse : other = 0 ↔ direction ≠ 0) (inside : k < BIT_BUF) :
    bitAt (recording code direction pre chars around) other k =
      recordBit code.codeSize pre chars (BIT_BUF - 1 - k) := by
  change recordBit code.codeSize pre chars (if direction = 0 then (position other k).toNat
    else BIT_BUF - 1 - (position other k).toNat) = _
  congr 1
  by_cases forward : direction = 0
  · rw [if_pos forward, position_backward (fun zero => reverse.mp zero forward)]
    unfold BIT_BUF at *
    omega
  · rw [if_neg forward, reverse.mpr forward, position_forward]
    rfl

theorem recordBit_char (some_ : 0 < code.codeSize) {i : Nat} (within : i < code.codeSize) :
    recordBit code.codeSize pre chars (pre + j * code.codeSize + i) = (chars.getD j 0).getLsbD i := by
  have behind : pre + j * code.codeSize + i - pre = i + code.codeSize * j := by
    rw [Nat.mul_comm]
    omega
  have after : pre ≤ pre + j * code.codeSize + i := by omega
  rw [recordBit, behind, Nat.add_mul_div_left _ _ some_, Nat.add_mul_mod_self_left,
    Nat.div_eq_of_lt within, Nat.mod_eq_of_lt within, Nat.zero_add, decide_eq_true after,
    Bool.true_and]

theorem Narrow.getD (narrow : Narrow code chars) (j : Nat) :
    ∀ i, code.codeSize ≤ i → (chars.getD j 0).getLsbD i = false := by
  intro i above
  by_cases inside : j < chars.length
  · rw [List.getD_eq_getElem _ _ inside]
    by_cases beyond : 8 ≤ i
    · exact BitVec.getLsbD_of_ge _ _ beyond
    · exact narrow _ (List.getElem_mem inside) i (Nat.lt_of_not_le beyond) above
  · rw [List.getD_eq_default _ _ (Nat.le_of_not_lt inside)]
    exact BitVec.getLsbD_zero

theorem charAt_recording (narrow : Narrow code chars)
    (inside : pre + (j + 1) * code.codeSize ≤ BIT_BUF) :
    charAt code (recording code direction pre chars around) direction (pre + j * code.codeSize) =
      chars.getD j 0 := by
  have size := code.narrow
  have ends : pre + j * code.codeSize + code.codeSize ≤ BIT_BUF := by
    rwa [Nat.succ_mul, ← Nat.add_assoc] at inside
  rw [charAt_eq ends, ← pack_getLsbD (chars.getD j 0) size.2 (narrow.getD j)]
  refine pack_congr fun i within => ?_
  rw [bitAt_recording (by omega), recordBit_char (by omega) within]

theorem startsAt_recording (narrow : Narrow code (code.startCode :: chars))
    (inside : pre + code.codeSize ≤ searched direction) :
    StartsAt code (recording code direction pre (code.startCode :: chars) around) direction
      (pre + code.codeSize) := by
  have size := code.narrow
  have small := searched_le direction
  refine ⟨inside, ⟨by omega, ?_⟩, fun k before isStart => ?_⟩
  · have first : charAt code (recording code direction pre (code.startCode :: chars) around)
        direction (pre + 0 * code.codeSize) = code.startCode :=
      charAt_recording narrow (by omega)
    rw [Nat.add_sub_cancel]
    rwa [Nat.zero_mul, Nat.add_zero] at first
  · have lowest := congrArg (fun data : Byte => data.getLsbD 0) isStart.2
    have early : k - code.codeSize < pre := by have := isStart.1; omega
    rw [charAt_eq (by omega), getLsbD_pack size.2, bitAt_recording (by omega), recordBit,
      decide_eq_false (by omega : ¬ pre ≤ k - code.codeSize + 0), code.startOdd] at lowest
    simp at lowest

theorem charAt_behind {rest : List Byte} (narrow : Narrow code (code.startCode :: rest))
    (inside : pre + (j + 2) * code.codeSize ≤ BIT_BUF) :
    charAt code (recording code direction pre (code.startCode :: rest) around) direction
      (pre + code.codeSize + j * code.codeSize) = rest.getD j 0 := by
  have same : pre + code.codeSize + j * code.codeSize = pre + (j + 1) * code.codeSize := by ring
  rw [same, charAt_recording narrow inside, List.getD_cons_succ]

theorem room_recording {count : Nat} (fits : pre + count * code.codeSize ≤ BIT_BUF)
    (before : j + 2 < count) :
    Room code direction (pre + code.codeSize + j * code.codeSize) := by
  have size := code.narrow
  have further := Nat.mul_le_mul_right code.codeSize before
  have same : (j + 2).succ * code.codeSize = code.codeSize + j * code.codeSize + code.codeSize +
      code.codeSize := by
    rw [Nat.succ_eq_add_one]
    ring
  have short : BIT_BUF ≤ searched direction + 1 := by
    unfold searched BIT_BUF
    split <;> omega
  unfold Room
  omega

/-! ## The count of ones -/

/-- The set bits of a character. -/
def setBits (c : Byte) : List Nat := (List.range 8).filter c.getLsbD

/-- The set bits of some characters of a list. -/
def charMarks (chars : List Byte) (js : List Nat) : List (Nat × Nat) :=
  js.flatMap fun j => (setBits (chars.getD j 0)).map (Prod.mk j)

theorem charMarks_nodup {js : List Nat} (once : js.Nodup) : (charMarks chars js).Nodup := by
  refine List.nodup_flatMap.mpr ⟨fun j _ => ?_, once.imp fun {j j'} different => ?_⟩
  · exact (List.nodup_range.filter _).map (Prod.mk_right_injective j)
  · intro mark here there
    obtain ⟨_, -, rfl⟩ := List.mem_map.mp here
    obtain ⟨_, -, same⟩ := List.mem_map.mp there
    exact different (Prod.mk.inj same).1.symm

/-- The set bits of the characters of a recording are among its ones. -/
theorem ones_ge (direction pre : Nat) (around : Int → Byte) {js : List Nat} (narrow : Narrow code chars) (once : js.Nodup)
    (inside : ∀ j ∈ js, pre + (j + 1) * code.codeSize ≤ BIT_BUF) :
    ((js.map fun j => (setBits (chars.getD j 0)).length).sum : Nat) ≤
      (recording code direction pre chars around).bitOneNum := by
  have size := code.narrow
  have total : (charMarks chars js).length =
      (js.map fun j => (setBits (chars.getD j 0)).length).sum := by
    rw [charMarks, List.length_flatMap]
    simp only [List.length_map]
  let at_ (mark : Nat × Nat) : Nat := pre + mark.1 * code.codeSize + mark.2
  have each (mark : Nat × Nat) (member : mark ∈ charMarks chars js) :
      mark.2 < code.codeSize ∧ at_ mark < BIT_BUF ∧ recordBit code.codeSize pre chars (at_ mark) := by
    obtain ⟨j, isIn, marked⟩ := List.mem_flatMap.mp member
    obtain ⟨i, isSet, rfl⟩ := List.mem_map.mp marked
    have set := (List.mem_filter.mp isSet).2
    have within : i < code.codeSize := by
      by_contra beyond
      rw [narrow.getD j i (Nat.le_of_not_lt beyond)] at set
      exact absurd set nofun
    have ends := inside j isIn
    rw [Nat.succ_mul] at ends
    refine ⟨within, ?_, ?_⟩
    · change pre + j * code.codeSize + i < BIT_BUF
      omega
    · rwa [show at_ (j, i) = pre + j * code.codeSize + i from rfl,
        recordBit_char (by omega) within]
  -- the positions of the marks in the buffer
  let place (mark : Nat × Nat) : Nat := if direction = 0 then at_ mark else BIT_BUF - 1 - at_ mark
  have apart : ((charMarks chars js).map place).Nodup := by
    refine List.Nodup.map_on (fun one oneIn other otherIn same => ?_) (charMarks_nodup once)
    obtain ⟨within, inBuf, -⟩ := each one oneIn
    obtain ⟨within', inBuf', -⟩ := each other otherIn
    have equal : at_ one = at_ other := by
      by_cases forward : direction = 0
      · simpa only [place, if_pos forward] using same
      · simp only [place, if_neg forward] at same
        omega
    simp only [at_] at equal
    have first : one.1 = other.1 := by
      rcases Nat.lt_trichotomy one.1 other.1 with below | isSame | above
      · have := Nat.mul_le_mul_right code.codeSize below
        rw [Nat.succ_mul] at this
        omega
      · exact isSame
      · have := Nat.mul_le_mul_right code.codeSize above
        rw [Nat.succ_mul] at this
        omega
    rw [first] at equal
    exact Prod.ext first (by omega)
  have among : (charMarks chars js).map place ⊆ (List.range BIT_BUF).filter
      (recording code direction pre chars around).bits := by
    intro p member
    obtain ⟨mark, isIn, rfl⟩ := List.mem_map.mp member
    obtain ⟨-, inBuf, set⟩ := each mark isIn
    refine List.mem_filter.mpr ⟨List.mem_range.mpr ?_, ?_⟩
    · simp only [place]
      split <;> omega
    · by_cases forward : direction = 0
      · simpa only [recording, place, if_pos forward] using set
      · have back : BIT_BUF - 1 - (BIT_BUF - 1 - at_ mark) = at_ mark := by omega
        simpa only [recording, place, if_neg forward, back] using set
  have count := (List.subperm_of_subset apart among).length_le
  rw [List.length_map, total] at count
  exact Int.ofNat_le.mpr count

/-! ## Characters and the LRC -/

/-- The codes of the tracks that `Mag_Encode` decodes. -/
inductive IsoCode : TrackCode → Prop
  | track1 : IsoCode isoTrack1
  | track2 : IsoCode isoTrack2

/-- A data character of a track: of its width, of odd parity, and no start or stop code. -/
structure DataChar (code : TrackCode) (c : Byte) : Prop where
  narrow : NarrowChar code c
  parity : magParity c = 1
  notStart : c ≠ code.startCode
  notStop : c ≠ code.stopCode

/-- The bits of a character below its parity bit. -/
def lowMask (code : TrackCode) : Byte := ~~~((255 : Byte) <<< (code.codeSize - 1))

/-- A character with a parity bit that makes its parity odd. -/
def withParity (code : TrackCode) (x : Byte) : Byte :=
  let low := x &&& lowMask code
  if magParity low = 1 then low else low ||| (1 : Byte) <<< (code.codeSize - 1)

/-- The LRC of the characters before it. -/
def lrcOf (code : TrackCode) (chars : List Byte) : Byte :=
  withParity code (chars.foldl (· ^^^ ·) 0)

/-- The characters of a recorded track. -/
def trackChars (code : TrackCode) (data : List Byte) : List Byte :=
  code.startCode :: (data ++ [code.stopCode, lrcOf code (code.startCode :: data ++ [code.stopCode])])

namespace IsoCode

variable (iso : IsoCode code)
include iso

theorem start_facts : NarrowChar code code.startCode ∧ magParity code.startCode = 1 := by
  cases iso <;> decide

theorem stop_facts : NarrowChar code code.stopCode ∧ magParity code.stopCode = 1 ∧
    code.stopCode ≠ 0 := by
  cases iso <;> decide

theorem withParity_narrow (x : Byte) : NarrowChar code (withParity code x) := by
  cases iso
  · revert x
    decide +kernel
  · revert x
    decide +kernel

theorem withParity_parity (x : Byte) : magParity (withParity code x) = 1 := by
  cases iso
  · revert x
    decide +kernel
  · revert x
    decide +kernel

theorem withParity_low (x : Byte) : (x ^^^ withParity code x) &&& lowMask code = 0 := by
  cases iso
  · revert x
    decide +kernel
  · revert x
    decide +kernel

end IsoCode

theorem trackChars_stop (code : TrackCode) (data : List Byte) : (trackChars code data).getD (data.length + 1) 0 = code.stopCode := by
  rw [trackChars, List.getD_cons_succ, List.getD_append_right _ _ _ _ (Nat.le_refl _), Nat.sub_self]
  rfl

theorem trackChars_lrc (code : TrackCode) (data : List Byte) : (trackChars code data).getD (data.length + 2) 0 =
    lrcOf code (code.startCode :: data ++ [code.stopCode]) := by
  have one : data.length + 1 - data.length = 1 := by omega
  rw [trackChars, List.getD_cons_succ, List.getD_append_right _ _ _ _ (Nat.le_succ _), one]
  rfl

theorem DataChar.nonzero {c : Byte} (isData : DataChar code c) : c ≠ 0 := by
  rintro rfl
  exact absurd isData.parity (by decide)

/-- Characters of a track that fit its buffer. -/
structure Recorded (code : TrackCode) (pre : Nat) (data : List Byte) : Prop where
  iso : IsoCode code
  chars : ∀ c ∈ data, DataChar code c
  fits : pre + (data.length + 3) * code.codeSize ≤ BIT_BUF

namespace Recorded

variable {data : List Byte} (recorded : Recorded code pre data)
include recorded

theorem narrow : Narrow code (trackChars code data) := by
  intro c member
  rw [trackChars, List.mem_cons, List.mem_append, List.mem_cons, List.mem_singleton] at member
  rcases member with rfl | isData | rfl | rfl
  · exact recorded.iso.start_facts.1
  · exact (recorded.chars c isData).narrow
  · exact recorded.iso.stop_facts.1
  · exact recorded.iso.withParity_narrow _

theorem odd : ∀ c ∈ trackChars code data, magParity c = 1 := by
  intro c member
  rw [trackChars, List.mem_cons, List.mem_append, List.mem_cons, List.mem_singleton] at member
  rcases member with rfl | isData | rfl | rfl
  · exact recorded.iso.start_facts.2
  · exact (recorded.chars c isData).parity
  · exact recorded.iso.stop_facts.2.1
  · exact recorded.iso.withParity_parity _

theorem inside {count : Nat} (few : count ≤ data.length + 3) :
    pre + count * code.codeSize ≤ BIT_BUF :=
  Nat.le_trans (Nat.add_le_add_left (Nat.mul_le_mul_right _ few) _) recorded.fits

theorem charAt_data (direction : Nat) (around : Int → Byte) (below : j < data.length) :
    charAt code (recording code direction pre (trackChars code data) around) direction
      (pre + code.codeSize + j * code.codeSize) = data[j] := by
  rw [trackChars, charAt_behind recorded.narrow (recorded.inside (by omega)),
    List.getD_append _ _ _ _ below, List.getD_eq_getElem _ _ below]

theorem charAt_stop (direction : Nat) (around : Int → Byte) :
    charAt code (recording code direction pre (trackChars code data) around) direction
      (pre + code.codeSize + data.length * code.codeSize) = code.stopCode := by
  rw [trackChars, charAt_behind recorded.narrow (recorded.inside (by omega)),
    List.getD_append_right _ _ _ _ (Nat.le_refl _), Nat.sub_self]
  rfl

theorem charAt_lrc (direction : Nat) (around : Int → Byte) :
    charAt code (recording code direction pre (trackChars code data) around) direction
      (pre + code.codeSize + data.length * code.codeSize + code.codeSize) =
        lrcOf code (code.startCode :: data ++ [code.stopCode]) := by
  have same : pre + code.codeSize + data.length * code.codeSize + code.codeSize =
      pre + code.codeSize + (data.length + 1) * code.codeSize := by ring
  have one : data.length + 1 - data.length = 1 := by omega
  rw [same, trackChars, charAt_behind recorded.narrow (recorded.inside (by omega)),
    List.getD_append_right _ _ _ _ (by omega), one]
  rfl

theorem charAt_after (direction : Nat) (around : Int → Byte)
    (zeros : pre + (data.length + 4) * code.codeSize ≤ BIT_BUF) :
    charAt code (recording code direction pre (trackChars code data) around) direction
      (pre + code.codeSize + data.length * code.codeSize + 2 * code.codeSize) = 0 := by
  have same : pre + code.codeSize + data.length * code.codeSize + 2 * code.codeSize =
      pre + code.codeSize + (data.length + 2) * code.codeSize := by ring
  rw [same, trackChars, charAt_behind recorded.narrow zeros, List.getD_eq_default]
  rw [List.length_append]
  exact Nat.le_refl _

theorem room (direction : Nat) (upTo : j ≤ data.length) :
    Room code direction (pre + code.codeSize + j * code.codeSize) :=
  room_recording recorded.fits (by omega)

theorem starts (direction : Nat) (around : Int → Byte) :
    StartsAt code (recording code direction pre (trackChars code data) around) direction
      (pre + code.codeSize) := by
  have room : pre + code.codeSize + 0 * code.codeSize + code.codeSize ≤ searched direction :=
    recorded.room direction (Nat.zero_le _)
  exact startsAt_recording recorded.narrow (by omega)

theorem ends (direction : Nat) (around : Int → Byte) :
    CharsEnd code (recording code direction pre (trackChars code data) around) direction
      (pre + code.codeSize) data.length := by
  refine ⟨fun j below => ⟨recorded.room direction (Nat.le_of_lt below), ?_, ?_⟩, ?_⟩
  · rw [recorded.charAt_data direction around below]
    exact (recorded.chars _ (List.getElem_mem below)).nonzero
  · rw [recorded.charAt_data direction around below]
    exact (recorded.chars _ (List.getElem_mem below)).notStop
  · rintro ⟨-, -, notStop⟩
    exact notStop (recorded.charAt_stop direction around)

theorem charsFrom_eq (direction : Nat) (around : Int → Byte) :
    charsFrom code (recording code direction pre (trackChars code data) around) direction
      (pre + code.codeSize) data.length = data := by
  refine List.ext_getElem charsFrom_length fun j within below => ?_
  rw [← recorded.charAt_data direction around below]
  simp only [charsFrom, List.getElem_map, List.getElem_range]

theorem endTrack_eq (direction : Nat) (around : Int → Byte) :
    endTrack 0 code (recording code direction pre (trackChars code data) around) direction
      (afterChars 0 { blankTrack with start := true, buf := [code.startCode] } data)
      (data.foldl (· ^^^ ·) code.startCode)
      (pre + code.codeSize + data.length * code.codeSize) =
        ⟨trackChars code data, true, true, true, true, data.length, false⟩ := by
  obtain ⟨-, stopOdd, nonzero⟩ := recorded.iso.stop_facts
  have dataOdd : (data.all fun c => magParity c != 0) = true := by
    refine List.all_eq_true.mpr fun c member => ?_
    rw [(recorded.chars c member).parity]
    rfl
  have cal : data.foldl (· ^^^ ·) code.startCode ^^^ code.stopCode =
      (code.startCode :: data ++ [code.stopCode]).foldl (· ^^^ ·) 0 := by
    have first : (0 : Byte) ^^^ code.startCode = code.startCode := BitVec.zero_xor
    rw [List.cons_append, List.foldl_cons, List.foldl_append, first]
    rfl
  have room := recorded.room direction (Nat.le_refl _)
  rw [endTrack, if_neg (not_not_intro room), recorded.charAt_stop, if_neg nonzero,
    recorded.charAt_lrc, cal]
  have low := recorded.iso.withParity_low
    ((code.startCode :: data ++ [code.stopCode]).foldl (· ^^^ ·) 0)
  have lrcOdd := recorded.iso.withParity_parity
    ((code.startCode :: data ++ [code.stopCode]).foldl (· ^^^ ·) 0)
  refine TrackInfo.mk.injEq .. |>.mpr ⟨?_, rfl, rfl, ?_, ?_, ?_, rfl⟩
  · simp [checked, stored, afterChars, trackChars]
  · exact beq_iff_eq.mpr low
  · simp only [checked, stored, afterChars, blankTrack, dataOdd, stopOdd, lrcOf, lrcOdd]
    rfl
  · exact Nat.zero_add _

theorem decodes (direction : Nat) (around : Int → Byte)
    (zeros : pre + (data.length + 4) * code.codeSize ≤ BIT_BUF)
    (many : 8 < (recording code direction pre (trackChars code data) around).bitOneNum)
    (enough : BIT_BUF < turns) : ∃ reads, magEncodeTrack turns direction code
      (recording code direction pre (trackChars code data) around) =
        some (⟨trackChars code data, true, true, true, true, data.length, false⟩, reads) := by
  have room := recorded.room direction (Nat.le_refl _)
  have last : lastChars code (recording code direction pre (trackChars code data) around) direction
      (pre + code.codeSize + data.length * code.codeSize) = 2 := by
    rw [lastChars, if_neg (not_not_intro room), recorded.charAt_stop,
      if_neg recorded.iso.stop_facts.2.2]
  rw [magEncodeTrack, encodeTrack_eq 0 code.startCode many (recorded.starts direction around)
    (recorded.ends direction around) enough]
  dsimp only
  rw [last, recorded.charAt_after direction around zeros, recorded.charsFrom_eq,
    recorded.endTrack_eq]
  exact ⟨_, rfl⟩

end Recorded

/-! ## Tracks that are found right -/

theorem endTrack_right {bitBuf : BitInfo} {track : TrackInfo} {badParity : Nat} {calLrc : Byte}
    (notYet : track.stop = false)
    (isStop : (endTrack badParity code bitBuf direction track calLrc k).stop = true)
    (isOdd : (endTrack badParity code bitBuf direction track calLrc k).odd = true) :
    Room code direction k ∧ charAt code bitBuf direction k ≠ 0 ∧ track.odd = true ∧
      magParity (charAt code bitBuf direction k) ≠ badParity ∧
      magParity (charAt code bitBuf direction (k + code.codeSize)) ≠ badParity := by
  rw [endTrack] at isStop isOdd
  by_cases room : Room code direction k
  · rw [if_neg (not_not_intro room)] at isStop isOdd
    by_cases zero : charAt code bitBuf direction k = 0
    · rw [if_pos zero] at isStop
      exact absurd (notYet.symm.trans isStop) Bool.false_ne_true
    · rw [if_neg zero] at isOdd
      simp only [readLrc, checked, Bool.and_eq_true, bne_iff_ne] at isOdd
      exact ⟨room, zero, isOdd.1.1, isOdd.1.2, isOdd.2⟩
  · rw [if_pos room] at isStop
    exact absurd (notYet.symm.trans isStop) Bool.false_ne_true

theorem encodeTrack_right {bitBuf : BitInfo} {track : TrackInfo} {reads : List Int}
    {badParity : Nat} {firstLrc : Byte} (enough : BIT_BUF < turns)
    (returns : encodeTrack badParity firstLrc code turns direction bitBuf = some (track, reads))
    (isOdd : track.odd = true) (isStop : track.stop = true) : ∃ k i,
      StartsAt code bitBuf direction k ∧ CharsEnd code bitBuf direction k i ∧ track.len = i ∧
      Room code direction (k + i * code.codeSize) ∧
      charAt code bitBuf direction (k + i * code.codeSize) = code.stopCode ∧
      ∀ j ≤ i + 1, magParity (charAt code bitBuf direction (k + j * code.codeSize)) ≠ badParity := by
  rcases encodeTrack_cases code bitBuf direction badParity firstLrc enough with
    ⟨-, returns'⟩ | ⟨-, -, k, -, returns'⟩ | ⟨many, k, i, starts, ends⟩
  · obtain ⟨rfl, -⟩ := Prod.mk.inj (Option.some.inj (returns.symm.trans returns'))
    cases isStop
  · obtain ⟨rfl, -⟩ := Prod.mk.inj (Option.some.inj (returns.symm.trans returns'))
    cases isStop
  · rw [encodeTrack_eq badParity firstLrc many starts ends enough] at returns
    obtain ⟨rfl, -⟩ := Prod.mk.inj (Option.some.inj returns)
    dsimp only at isOdd isStop ⊢
    have notYet : (afterChars badParity { blankTrack with start := true, buf := [code.startCode] }
        (charsFrom code bitBuf direction k i)).stop = false := rfl
    obtain ⟨room, nonzero, before, here, lrc⟩ := endTrack_right notYet isStop isOdd
    refine ⟨k, i, starts, ends, ?_, room, ?_, fun j upTo => ?_⟩
    · rw [endTrack_len]
      exact (Nat.zero_add _).trans charsFrom_length
    · by_contra notStop
      exact ends.2 ⟨room, nonzero, notStop⟩
    · rcases Nat.lt_trichotomy j i with below | rfl | above
      · have each := List.all_eq_true.mp (show ((charsFrom code bitBuf direction k i).all
          fun c => magParity c != badParity) = true from before)
        have isIn : charAt code bitBuf direction (k + j * code.codeSize) ∈
            charsFrom code bitBuf direction k i :=
          List.mem_map.mpr ⟨j, List.mem_range.mpr below, rfl⟩
        exact bne_iff_ne.mp (each _ isIn)
      · exact here
      · obtain rfl : j = i + 1 := by omega
        rwa [Nat.succ_mul, ← Nat.add_assoc]

theorem encodeTrack_noError {bitBuf : BitInfo} {track : TrackInfo} {reads : List Int}
    {badParity : Nat} {firstLrc : Byte} (enough : BIT_BUF < turns) (many : 8 < bitBuf.bitOneNum)
    (returns : encodeTrack badParity firstLrc code turns direction bitBuf = some (track, reads))
    (noError : track.error = false) : track.odd = true ∧ track.stop = true := by
  rcases encodeTrack_cases code bitBuf direction badParity firstLrc enough with
    ⟨few, -⟩ | ⟨-, -, k, -, returns'⟩ | ⟨-, k, i, starts, ends⟩
  · omega
  · obtain ⟨rfl, -⟩ := Prod.mk.inj (Option.some.inj (returns.symm.trans returns'))
    cases noError
  · rw [encodeTrack_eq badParity firstLrc many starts ends enough] at returns
    obtain ⟨rfl, -⟩ := Prod.mk.inj (Option.some.inj returns)
    dsimp only at noError ⊢
    rw [Bool.not_eq_false', Bool.and_eq_true, Bool.and_eq_true, Bool.and_eq_true] at noError
    exact noError.1.1

/-! ## Flipped bits -/

/-- One bit of one character of a list flipped. -/
def flipBit (chars : List Byte) (f b : Nat) : List Byte :=
  chars.set f (chars.getD f 0 ^^^ (1 : Byte) <<< b)

theorem filter_flip {js : List Nat} (p : Nat → Bool) (b : Nat) (once : js.Nodup) :
    (b ∉ js → (js.filter fun i => p i ^^ decide (i = b)).length = (js.filter p).length) ∧
      (b ∈ js → if p b then
          (js.filter p).length = (js.filter fun i => p i ^^ decide (i = b)).length + 1
        else (js.filter fun i => p i ^^ decide (i = b)).length = (js.filter p).length + 1) := by
  induction js with
  | nil => exact ⟨fun _ => rfl, nofun⟩
  | cons j js ih =>
      obtain ⟨new, once⟩ := List.nodup_cons.mp once
      obtain ⟨absent, present⟩ := ih once
      by_cases here : j = b
      · subst here
        refine ⟨fun notIn => absurd List.mem_cons_self notIn, fun _ => ?_⟩
        cases set : p j <;> simp [set, absent new]
      · have same : (p j ^^ decide (j = b)) = p j := by simp [here]
        refine ⟨fun notIn => ?_, fun isIn => ?_⟩
        · rw [List.filter_cons, List.filter_cons, same]
          have rest := absent fun member => notIn (List.mem_cons_of_mem _ member)
          split
          · rw [List.length_cons, List.length_cons, rest]
          · exact rest
        · have rest := present ((List.mem_cons.mp isIn).resolve_left (Ne.symm here))
          rw [List.filter_cons, List.filter_cons, same]
          by_cases set : p j
          · rw [if_pos set, if_pos set, List.length_cons, List.length_cons]
            by_cases setB : p b
            · rw [if_pos setB] at rest ⊢
              rw [rest]
            · rw [if_neg setB] at rest ⊢
              rw [rest]
          · rw [if_neg set, if_neg set]
            exact rest

theorem getLsbD_one_shift {b i : Nat} (within : i < 8) :
    ((1 : Byte) <<< b).getLsbD i = decide (i = b) := by
  rw [BitVec.getLsbD_shiftLeft, show (1 : Byte) = 1#8 from rfl, BitVec.getLsbD_one]
  by_cases same : i = b
  · simp [same, same ▸ within]
  · by_cases below : i < b
    · simp [same, below]
    · have apart : ¬ i - b = 0 := by omega
      simp [same, apart]

theorem setBits_flip (c : Byte) {b : Nat} (within : b < 8) : if c.getLsbD b then
      (setBits c).length = (setBits (c ^^^ (1 : Byte) <<< b)).length + 1
    else (setBits (c ^^^ (1 : Byte) <<< b)).length = (setBits c).length + 1 := by
  have same : setBits (c ^^^ (1 : Byte) <<< b) =
      (List.range 8).filter fun i => c.getLsbD i ^^ decide (i = b) := by
    refine List.filter_congr fun i member => ?_
    rw [BitVec.getLsbD_xor, getLsbD_one_shift (List.mem_range.mp member)]
  rw [same]
  exact (filter_flip c.getLsbD b List.nodup_range).2 (List.mem_range.mpr within)

theorem magParity_flip (c : Byte) {b : Nat} (within : b < 8) :
    magParity (c ^^^ (1 : Byte) <<< b) = 1 - magParity c := by
  have count := setBits_flip c within
  change (setBits (c ^^^ (1 : Byte) <<< b)).length % 2 = 1 - (setBits c).length % 2
  split at count <;> omega

theorem setBits_odd {c : Byte} (odd : magParity c = 1) : 1 ≤ (setBits c).length := by
  have count : (setBits c).length % 2 = 1 := odd
  omega

theorem sum_le_succ {g g' : Nat → Nat} (f : Nat) (one : g f ≤ g' f + 1)
    (others : ∀ j ≠ f, g j ≤ g' j) {js : List Nat} (once : js.Nodup) :
    (js.map g).sum ≤ (js.map g').sum + 1 := by
  induction js with
  | nil => exact Nat.zero_le _
  | cons j js ih =>
      obtain ⟨new, once⟩ := List.nodup_cons.mp once
      simp only [List.map_cons, List.sum_cons]
      by_cases here : j = f
      · have rest : (js.map g).sum ≤ (js.map g').sum :=
          List.sum_le_sum fun j' member => others j' fun same => new (here ▸ same ▸ member)
        rw [here]
        omega
      · have := others j here
        have := ih once
        omega

theorem narrow_flip {f b : Nat} (narrow : Narrow code chars) (within : b < code.codeSize) :
    Narrow code (flipBit chars f b) := by
  intro c member
  rcases List.mem_or_eq_of_mem_set member with isIn | rfl
  · exact narrow c isIn
  · intro i below above
    have other : ¬ i = b := by omega
    rw [BitVec.getLsbD_xor, narrow.getD f i above, getLsbD_one_shift below, decide_eq_false other]
    rfl

theorem getD_flip {f b : Nat} (inside : f < chars.length) :
    (flipBit chars f b).getD f 0 = chars.getD f 0 ^^^ (1 : Byte) <<< b := by
  rw [flipBit, List.getD_eq_getElem _ _ (by rwa [List.length_set]), List.getElem_set_self]

theorem getD_flip_of_ne {f b : Nat} (different : j ≠ f) :
    (flipBit chars f b).getD j 0 = chars.getD j 0 := by
  simp only [flipBit, List.getD_eq_getElem?_getD, List.getElem?_set_ne (Ne.symm different)]

namespace Recorded

variable {data : List Byte} {f b : Nat} (recorded : Recorded code pre data)
include recorded

/-- A recorded track with one bit flipped behind its start code is read to an error, unless it
has too few ones to be read at all. -/
theorem flipped_fails (direction : Nat) (around : Int → Byte) (behind : 1 ≤ f)
    (inside : f < data.length + 3) (within : b < code.codeSize)
    (many : 8 < (recording code direction pre (flipBit (trackChars code data) f b) around).bitOneNum)
    (enough : BIT_BUF < turns) : ∃ track reads, magEncodeTrack turns direction code
      (recording code direction pre (flipBit (trackChars code data) f b) around) =
        some (track, reads) ∧ track.error = true := by
  have size := code.narrow
  obtain ⟨g, rfl⟩ : ∃ g, f = g + 1 := ⟨f - 1, by omega⟩
  have narrow := narrow_flip (f := g + 1) recorded.narrow within
  have listed : flipBit (trackChars code data) (g + 1) b = code.startCode :: flipBit (data ++
      [code.stopCode, lrcOf code (code.startCode :: data ++ [code.stopCode])]) g b := rfl
  rw [listed] at narrow many ⊢
  have room : pre + code.codeSize + 0 * code.codeSize + code.codeSize ≤ searched direction :=
    recorded.room direction (Nat.zero_le _)
  have starts : StartsAt code (recording code direction pre (code.startCode :: flipBit (data ++
      [code.stopCode, lrcOf code (code.startCode :: data ++ [code.stopCode])]) g b) around)
      direction (pre + code.codeSize) := startsAt_recording narrow (by omega)
  obtain ⟨track, reads, returns, -⟩ := encodeTrack_returns 0 code.startCode code
    (recording code direction pre (code.startCode :: flipBit (data ++ [code.stopCode,
      lrcOf code (code.startCode :: data ++ [code.stopCode])]) g b) around) direction enough
  refine ⟨track, reads, returns, ?_⟩
  by_contra noError
  obtain ⟨isOdd, isStop⟩ := encodeTrack_noError enough many returns (Bool.eq_false_of_not_eq_true noError)
  obtain ⟨k, i, starts', ends, -, -, stops, parity⟩ := encodeTrack_right enough returns isOdd isStop
  obtain rfl := starts.unique starts'
  have shorter : (data ++ [code.stopCode, lrcOf code (code.startCode :: data ++
      [code.stopCode])]).length = data.length + 2 := by
    rw [List.length_append]
    rfl
  by_cases early : g ≤ i + 1
  · -- the character with the flipped bit is one of those whose parity was looked at
    have wrong := parity g early
    rw [charAt_behind narrow (recorded.inside (by omega)), getD_flip (by omega),
      magParity_flip _ (by omega)] at wrong
    have right : magParity ((data ++ [code.stopCode, lrcOf code (code.startCode :: data ++
        [code.stopCode])]).getD g 0) = 1 := by
      rw [List.getD_eq_getElem _ _ (by omega)]
      exact recorded.odd _ (List.mem_cons_of_mem _ (List.getElem_mem _))
    rw [right] at wrong
    exact wrong rfl
  · -- the stop code is a data character
    rw [charAt_behind narrow (recorded.inside (by omega)), getD_flip_of_ne (by omega),
      List.getD_append _ _ _ _ (by omega), List.getD_eq_getElem _ _ (by omega)] at stops
    exact (recorded.chars _ (List.getElem_mem _)).notStop stops

/-- A recorded track has at least nine ones, and one that has data characters, or is a first
track, one more. -/
theorem marks : ∃ js : List Nat, js.Nodup ∧ (∀ j ∈ js, j < data.length + 3) ∧
    9 ≤ (js.map fun j => (setBits ((trackChars code data).getD j 0)).length).sum ∧
    (data ≠ [] ∨ code = isoTrack1 →
      10 ≤ (js.map fun j => (setBits ((trackChars code data).getD j 0)).length).sum) := by
  have startBits : (setBits ((trackChars code data).getD 0 0)).length = 3 := by
    rw [show (trackChars code data).getD 0 0 = code.startCode from rfl]
    cases recorded.iso <;> rfl
  have stopBits : (setBits ((trackChars code data).getD (data.length + 1) 0)).length = 5 := by
    rw [trackChars_stop]
    cases recorded.iso <;> rfl
  have lrcBits : 1 ≤ (setBits ((trackChars code data).getD (data.length + 2) 0)).length := by
    rw [trackChars_lrc]
    exact setBits_odd (recorded.iso.withParity_parity _)
  cases data with
  | nil =>
      refine ⟨[0, 1, 2], by decide, by simp, ?_, ?_⟩
      · simp only [List.map_cons, List.map_nil, List.sum_cons, List.sum_nil]
        simp only [List.length_nil, Nat.zero_add] at stopBits lrcBits
        omega
      · rintro (some_ | rfl)
        · exact absurd rfl some_
        · decide +kernel
  | cons c data =>
      have dataBits := setBits_odd (recorded.chars c List.mem_cons_self).parity
      have first : (trackChars code (c :: data)).getD 1 0 = c := rfl
      have ten : 10 ≤ ([0, 1, data.length + 2, data.length + 3].map fun j =>
          (setBits ((trackChars code (c :: data)).getD j 0)).length).sum := by
        simp only [List.map_cons, List.map_nil, List.sum_cons, List.sum_nil, first]
        simp only [List.length_cons, Nat.add_assoc, Nat.reduceAdd] at stopBits lrcBits
        omega
      exact ⟨[0, 1, data.length + 2, data.length + 3], by simp, by simp, by omega, fun _ => ten⟩

theorem many (direction : Nat) (around : Int → Byte) :
    8 < (recording code direction pre (trackChars code data) around).bitOneNum := by
  obtain ⟨js, once, few, nine, -⟩ := recorded.marks
  have count := ones_ge direction pre around recorded.narrow once
    fun j member => recorded.inside (few j member)
  omega

/-- A recorded track with a flipped bit is not taken for an empty one, if it has data
characters, or is a first track, or the bit was not set. -/
theorem many_flipped (direction : Nat) (around : Int → Byte) (inside : f < data.length + 3)
    (within : b < code.codeSize) (enough : data ≠ [] ∨ code = isoTrack1 ∨
      ((trackChars code data).getD f 0).getLsbD b = false) :
    8 < (recording code direction pre (flipBit (trackChars code data) f b) around).bitOneNum := by
  obtain ⟨js, once, few, nine, ten⟩ := recorded.marks
  have count := ones_ge direction pre around (narrow_flip (f := f) recorded.narrow within) once
    fun j member => recorded.inside (few j member)
  have size := code.narrow
  have listed : f < (trackChars code data).length := by
    rw [trackChars, List.length_cons, List.length_append]
    exact inside
  have flip := setBits_flip ((trackChars code data).getD f 0) (show b < 8 by omega)
  have others (j : Nat) (different : j ≠ f) :
      (setBits ((trackChars code data).getD j 0)).length ≤
        (setBits ((flipBit (trackChars code data) f b).getD j 0)).length := by
    rw [getD_flip_of_ne different]
  rw [← getD_flip listed] at flip
  by_cases unset : ((trackChars code data).getD f 0).getLsbD b = false
  · have kept : (js.map fun j => (setBits ((trackChars code data).getD j 0)).length).sum ≤
        (js.map fun j => (setBits ((flipBit (trackChars code data) f b).getD j 0)).length).sum := by
      refine List.sum_le_sum fun j _ => ?_
      by_cases here : j = f
      · rw [unset, if_neg nofun] at flip
        rw [here, flip]
        exact Nat.le_succ _
      · exact others j here
    omega
  · have some_ : data ≠ [] ∨ code = isoTrack1 := by
      rcases enough with some_ | first | isUnset
      · exact .inl some_
      · exact .inr first
      · exact absurd isUnset unset
    rw [if_pos (Bool.eq_true_of_not_eq_false unset)] at flip
    have kept := sum_le_succ f (Nat.le_of_eq flip) others once
    have tenOnes := ten some_
    omega

end Recorded

end PosFirmware.MagCard
