import PosFirmware.Ppp.Send

/-!
# PPP frames on the line

The bytes of a frame are sent with the check sequence behind the payload, each as itself or
behind an escape, between flags. `accepted` is what the stack makes of the buffer the other side
fills: `accepted_sendFrame` says that it takes the frame of a payload, and
`accepted_damaged` that it refuses one in which a single byte is different.
-/

namespace PosFirmware.Ppp

/-- Characters that stand for the bytes of a frame, each plain or behind an escape. -/
inductive Escaped : List Byte → List Byte → Prop
  | nil : Escaped [] []
  | plain {c : Byte} {chars bytes : List Byte} (noFlag : c ≠ FLAG) (noEscape : c ≠ CTL_ESC)
      (rest : Escaped chars bytes) : Escaped (c :: chars) (c :: bytes)
  | escape (c : Byte) {chars bytes : List Byte} (rest : Escaped chars bytes) :
      Escaped (CTL_ESC :: c :: chars) ((c ^^^ 0x20) :: bytes)

theorem Escaped.append {chars bytes chars' bytes' : List Byte} (first : Escaped chars bytes)
    (second : Escaped chars' bytes') : Escaped (chars ++ chars') (bytes ++ bytes') := by
  induction first with
  | nil => exact second
  | plain noFlag noEscape _ past => exact .plain noFlag noEscape past
  | escape c _ past => exact .escape c past

/-- The bytes of a send buffer in the order in which they are sent. -/
def lineOrder (frame : List Byte) : List Byte := frame.drop 2 ++ frame.take 2

/-- A frame with its flags, as it lies in a receive buffer. -/
def flagged (bytes : List Byte) : List Byte := FLAG :: bytes ++ [FLAG]

/-- Frames on the line, each with a flag of its own before it or not. -/
def lineOf : List (Bool × List Byte) → List Byte
  | [] => []
  | (own, chars) :: rest => (if own then [FLAG] else []) ++ chars ++ FLAG :: lineOf rest

/-- `ppp_get_rcv`: the packet it copies from a buffer, and `skb->len`. -/
def pppGetRcv (frame : List Byte) : List Byte × Nat :=
  ((frame.drop 1).take (frame.length - 2), frame.length - 4)

/-- `ppp_inet_poll` hands on a packet with a right check sequence. -/
def accepted (frame : List Byte) : Option (List Byte) :=
  if pppChecksum (pppGetRcv frame).2 (pppGetRcv frame).1 then
    some ((pppGetRcv frame).1.take (pppGetRcv frame).2)
  else none

@[simp] theorem lineOf_append (frames rest : List (Bool × List Byte)) :
    lineOf (frames ++ rest) = lineOf frames ++ lineOf rest := by
  induction frames with
  | nil => rfl
  | cons frame frames past => simp [lineOf, past]

@[simp] theorem pppGetRcv_flagged (bytes : List Byte) :
    pppGetRcv (flagged bytes) = (bytes, bytes.length - 2) := by
  simp [pppGetRcv, flagged]

theorem lowByte_join (high low : Byte) :
    lowByte (high.zeroExtend 16 <<< 8 ||| low.zeroExtend 16) = low := by
  unfold lowByte
  ext i below
  simp

theorem highByte_join (high low : Byte) :
    highByte (high.zeroExtend 16 <<< 8 ||| low.zeroExtend 16) = high := by
  unfold highByte
  ext i below
  have inside : 8 + i < 16 := by omega
  simp [inside, BitVec.getLsbD_eq_getElem below]

theorem join_bytes (us : BitVec 16) :
    (highByte us).zeroExtend 16 <<< 8 ||| (lowByte us).zeroExtend 16 = us := by
  unfold highByte lowByte
  ext i below
  by_cases low : i < 8
  · simp [low, BitVec.getLsbD_eq_getElem below]
  · have high : i - 8 < 8 := by omega
    have back : 8 + (i - 8) = i := by omega
    simp [low, high, back, BitVec.getLsbD_eq_getElem below]

/-- No number of a list comes twice or is among those whose bits are set. -/
def allNew : List Nat → Nat → Bool
  | [], _ => true
  | n :: rest, seen => !seen.testBit n && allNew rest (seen ||| 2 ^ n)

theorem nodup_of_allNew {numbers : List Nat} {seen : Nat} (new : allNew numbers seen = true) :
    numbers.Nodup ∧ ∀ n ∈ numbers, seen.testBit n = false := by
  induction numbers generalizing seen with
  | nil => simp
  | cons n rest past =>
    simp only [allNew, Bool.and_eq_true, Bool.not_eq_true'] at new
    obtain ⟨nodup, unseen⟩ := past new.2
    have later (m : Nat) (member : m ∈ rest) : seen.testBit m = false ∧ n ≠ m := by
      simpa [Nat.testBit_two_pow] using unseen m member
    refine ⟨List.nodup_cons.mpr ⟨fun member => (later n member).2 rfl, nodup⟩, ?_⟩
    intro m member
    rcases List.mem_cons.mp member with rfl | member
    · exact new.1
    · exact (later m member).1

theorem fcstab_nodup : (fcstab.map highByte).Nodup := by
  have new : allNew ((fcstab.map highByte).map BitVec.toNat) 0 = true := by decide +kernel
  exact List.Nodup.of_map _ (nodup_of_allNew new).1

theorem length_fcstab : fcstab.length = 256 := by decide +kernel

theorem fcsByte_eq (us : BitVec 16) (c : Byte) :
    fcsByte us c = (us >>> 8) ^^^ fcstab.getD (lowByte us ^^^ c).toNat 0 := by
  have low : lowByte us ^^^ c = lowByte (us ^^^ c.zeroExtend 16) := by simp [lowByte]
  have place : ((us ^^^ c.zeroExtend 16) &&& 0xFF).toNat = (lowByte us ^^^ c).toNat := by
    rw [low, BitVec.toNat_and, lowByte, BitVec.toNat_setWidth]
    exact Nat.and_two_pow_sub_one_eq_mod _ 8
  rw [fcsByte, place]

theorem fcsByte_injective {us us' : BitVec 16} {c c' : Byte}
    (same : fcsByte us c = fcsByte us' c') :
    us >>> 8 = us' >>> 8 ∧ lowByte us ^^^ c = lowByte us' ^^^ c' := by
  rw [fcsByte_eq, fcsByte_eq] at same
  have inside (x : Byte) : x.toNat < (fcstab.map highByte).length := by
    simpa [length_fcstab] using x.isLt
  have entry (us : BitVec 16) (x : Byte) :
      highByte ((us >>> 8) ^^^ fcstab.getD x.toNat 0) =
        (fcstab.map highByte).get ⟨x.toNat, inside x⟩ := by
    have small : x.toNat < fcstab.length := by simpa using inside x
    have shifted : highByte (us >>> 8) = 0 := by
      unfold highByte
      ext i below
      simp
    have split (a b : BitVec 16) : highByte (a ^^^ b) = highByte a ^^^ highByte b := by
      unfold highByte
      ext i below
      simp
    rw [split, shifted, List.get_eq_getElem, List.getElem_map, List.getD_eq_getElem?_getD,
      List.getElem?_eq_getElem small]
    simp
  have high := congrArg highByte same
  rw [entry, entry, List.get_eq_getElem, List.get_eq_getElem] at high
  have place := (fcstab_nodup.getElem_inj_iff).mp high
  have places : lowByte us ^^^ c = lowByte us' ^^^ c' := BitVec.eq_of_toNat_eq place
  rw [places] at same
  exact ⟨(BitVec.xor_left_inj _).mp same, places⟩

theorem fcs_injective {us us' : BitVec 16} (bytes : List Byte)
    (same : fcs us bytes = fcs us' bytes) : us = us' := by
  induction bytes generalizing us us' with
  | nil => exact same
  | cons c rest past =>
    obtain ⟨high, low⟩ := fcsByte_injective (past same)
    have low := (BitVec.xor_left_inj _).mp low
    rw [← join_bytes us, ← join_bytes us']
    simp only [highByte, high, low]

theorem fcs_damaged (us : BitVec 16) (front : List Byte) {c c' : Byte} (differs : c ≠ c')
    (back : List Byte) : fcs us (front ++ c :: back) ≠ fcs us (front ++ c' :: back) := by
  intro same
  simp only [fcs, List.foldl_append, List.foldl_cons] at same
  have round := fcs_injective back same
  exact differs ((BitVec.xor_right_inj _).mp (fcsByte_injective round).2)

theorem pppChecksum_append (body : List Byte) (low high : Byte) :
    pppChecksum body.length (body ++ [low, high]) = true ↔
      low = lowByte (fcs 0xFFFF body ^^^ 0xFFFF) ∧
        high = highByte (fcs 0xFFFF body ^^^ 0xFFFF) := by
  have first : (body ++ [low, high]).getD body.length 0 = low := by simp
  have second : (body ++ [low, high]).getD (body.length + 1) 0 = high := by simp
  simp only [pppChecksum, first, second, List.take_left', decide_eq_true_eq]
  constructor
  · intro same
    rw [same, lowByte_join, highByte_join]
    exact ⟨rfl, rfl⟩
  · rintro ⟨rfl, rfl⟩
    exact (join_bytes _).symm

theorem lineOrder_sendFrame (data : List Byte) (proto : BitVec 16) :
    lineOrder (sendFrame data proto) = (frameHead proto ++ data) ++
      [lowByte (fcs 0xFFFF (frameHead proto ++ data) ^^^ 0xFFFF),
        highByte (fcs 0xFFFF (frameHead proto ++ data) ^^^ 0xFFFF)] := by
  simp [lineOrder, sendFrame, pppBuildHeader, fcs]

theorem length_sendFrame (data : List Byte) (proto : BitVec 16) :
    (sendFrame data proto).length = PPP_HEADER_SPACE + data.length := by
  simp [sendFrame]

theorem length_lineOrder (frame : List Byte) : (lineOrder frame).length = frame.length := by
  simp only [lineOrder, List.length_append, List.length_drop, List.length_take]
  omega

theorem accepted_append (body : List Byte) (low high : Byte) :
    accepted (flagged (body ++ [low, high])) =
      if low = lowByte (fcs 0xFFFF body ^^^ 0xFFFF) ∧ high = highByte (fcs 0xFFFF body ^^^ 0xFFFF)
      then some body else none := by
  have length : (body ++ [low, high]).length - 2 = body.length := by simp
  simp only [accepted, pppGetRcv_flagged, length, pppChecksum_append, List.take_left']

/-- **The stack takes the frame of a payload** with its head. -/
theorem accepted_sendFrame (data : List Byte) (proto : BitVec 16) :
    accepted (flagged (lineOrder (sendFrame data proto))) = some (frameHead proto ++ data) := by
  rw [lineOrder_sendFrame, accepted_append, if_pos ⟨rfl, rfl⟩]

/-- **The stack refuses a frame with one byte damaged.** -/
theorem accepted_damaged {front back : List Byte} {c c' : Byte} (differs : c ≠ c')
    (long : 2 ≤ (front ++ c :: back).length)
    (right : accepted (flagged (front ++ c :: back)) ≠ none) :
    accepted (flagged (front ++ c' :: back)) = none := by
  rcases List.eq_nil_or_concat back with rfl | ⟨rest, high, rfl⟩
  · -- the last byte
    obtain ⟨body, low, rfl⟩ := (List.eq_nil_or_concat front).resolve_left (by
      rintro rfl
      simp at long)
    have shape (c : Byte) : body.concat low ++ [c] = body ++ [low, c] := by simp
    rw [shape, accepted_append] at right ⊢
    have fits := (ite_ne_right_iff.mp right).1
    exact if_neg fun fits' => differs (fits.2.trans fits'.2.symm)
  · rcases List.eq_nil_or_concat rest with rfl | ⟨rest, low, rfl⟩
    · -- the last but one
      have shape (c : Byte) : front ++ c :: List.concat [] high = front ++ [c, high] := rfl
      rw [shape, accepted_append] at right ⊢
      have fits := (ite_ne_right_iff.mp right).1
      exact if_neg fun fits' => differs (fits.1.trans fits'.1.symm)
    · have shape (c : Byte) : front ++ c :: (rest.concat low).concat high =
          (front ++ c :: rest) ++ [low, high] := by simp
      rw [shape, accepted_append] at right ⊢
      have fits := (ite_ne_right_iff.mp right).1
      refine if_neg fun fits' => fcs_damaged 0xFFFF front differs rest ?_
      have same : fcs 0xFFFF (front ++ c :: rest) ^^^ 0xFFFF =
          fcs 0xFFFF (front ++ c' :: rest) ^^^ 0xFFFF := by
        rw [← join_bytes (fcs 0xFFFF (front ++ c :: rest) ^^^ 0xFFFF), ← fits.1, ← fits.2,
          fits'.1, fits'.2, join_bytes]
      exact (BitVec.xor_left_inj _).mp same

end PosFirmware.Ppp
