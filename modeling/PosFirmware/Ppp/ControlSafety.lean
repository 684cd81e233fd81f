import PosFirmware.Ppp.Input
import PosFirmware.Ppp.IpcpSafety
import PosFirmware.Ppp.LcpSafety

/-!
# Accesses of the control protocols

Which accesses of `chap_input` are inside, and the main result, `controlPackets_safe`: the three
handlers end, and they stay inside the packet, its buffer and the reply lists exactly where
the packet fits. `codeReject_overruns` is a packet of four bytes that makes the firmware read
and write past it.
-/

namespace PosFirmware.Ppp

open PosFirmware.Foundation

/-- The digests have the lengths they are made with. -/
structure ChapDigests.Sized (digests : ChapDigests) : Prop where
  ms1 : ∀ challenge passwd, (digests.ms1 challenge passwd).length = 50
  ms2 : ∀ userid challenge passwd, (digests.ms2 userid challenge passwd).1.length = 50
  md5 : ∀ text, (digests.md5 text).length = 16

/-- A challenge of MS-CHAP fits: the value is known and saved behind the data, and the digest
reads what was saved or known. -/
def ChapMsFits (dev : PppDev) (skb : Skb) : Prop :=
  5 + skb.num 4 ≤ skb.size ∧ 54 + skb.num 4 ≤ skb.room ∧
    (if anyBit dev.neg_authent PPP_ALG_MSCHAPV1 then 8 ≤ skb.num 4 ∨ 54 + 8 ≤ skb.size
      else anyBit dev.neg_authent PPP_ALG_MSCHAPV2 = true → 16 ≤ skb.num 4 ∨ 54 + 16 ≤ skb.size) ∧
    54 + (dev.userid.length + 1) ≤ skb.room

/-- A challenge of CHAP fits: password and value have their place behind the length field's
data, and the value is known or was written with the password. -/
def ChapMd5Fits (dev : PppDev) (skb : Skb) : Prop :=
  skb.num16 2 + (dev.passwd.length + 2) ≤ skb.room ∧
    (5 + skb.num 4 ≤ skb.size ∨
      skb.num16 2 ≤ skb.size ∧ 5 + skb.num 4 ≤ skb.num16 2 + (dev.passwd.length + 2)) ∧
    skb.num16 2 + (dev.passwd.length + 1) + skb.num 4 ≤ skb.room ∧
    21 + (dev.userid.length + 1) ≤ skb.room

/-- A challenge fits. -/
def ChapChallengeFits (dev : PppDev) (skb : Skb) : Prop :=
  5 ≤ skb.size ∧
    if anyBit (dev.opt4 ||| AUTHpwat) AUTHpmsc then ChapMsFits dev skb
    else if anyBit (dev.opt4 ||| AUTHpwat) AUTHpchp then ChapMd5Fits dev skb
    else 4 + (dev.userid.length + 1) ≤ skb.room

/-- A packet for `chap_input` fits. -/
def ChapFits (dev : PppDev) (skb : Skb) : Prop :=
  4 ≤ skb.size ∧
    match skb.num 0 with
    | 1 => ChapChallengeFits dev skb
    | 3 => anyBit dev.neg_authent PPP_ALG_MSCHAPV2 = true → 4 + 42 ≤ skb.size
    | _ => True

theorem Skb.poke_code (skb : Skb) (code : Byte) {i : Nat} (behind : 0 < i) :
    (skb.poke 0 [code]).mem i = skb.mem i := by
  have other : ¬ i = 0 := by omega
  simp [poke, blit, other]

theorem Skb.saved_known (skb : Skb) {at_ saved n : Nat} {bytes : List Byte}
    (length : bytes.length = saved) :
    n ≤ saved ∨ at_ + n ≤ (skb.poke at_ bytes).size ↔ n ≤ saved ∨ at_ + n ≤ skb.size := by
  simp only [poke]
  split <;> omega

theorem chapMsResponse_safe {digests : ChapDigests} (sized : digests.Sized) (dev : PppDev)
    {skb : Skb} (safe : skb.safe = true) :
    (chapMsResponse digests dev skb).2.safe = true ∧ 54 + (dev.userid.length + 1) ≤ skb.room ↔
      ChapMsFits dev skb := by
  unfold chapMsResponse ChapMsFits
  simp only
  by_cases v1 : anyBit dev.neg_authent PPP_ALG_MSCHAPV1 = true
  · simp only [v1, if_true, Skb.poke_safe, Skb.lookSaved_safe, Skb.look_safe, safe, true_and,
      slice_length, sized.ms1, Skb.saved_known _ (slice_length _ _ _), Skb.look_size,
      Skb.look_room]
    change ((_ ∧ _) ∧ 4 + 50 ≤ skb.room) ∧ _ ↔ _
    omega
  · simp only [v1, if_false, Bool.false_eq_true]
    by_cases v2 : anyBit dev.neg_authent PPP_ALG_MSCHAPV2 = true
    · simp only [v2, if_true, true_implies, Skb.poke_safe, Skb.lookSaved_safe, Skb.look_safe,
        safe, true_and, slice_length, sized.ms2, Skb.saved_known _ (slice_length _ _ _),
        Skb.look_size, Skb.look_room]
      change ((_ ∧ _) ∧ 4 + 50 ≤ skb.room) ∧ _ ↔ _
      omega
    · simp only [v2, if_false, Bool.false_eq_true, false_implies, true_and, Skb.poke_safe,
        Skb.look_safe, safe, slice_length, Skb.look_room, and_assoc]

theorem chapMd5Response_safe {digests : ChapDigests} (sized : digests.Sized) (dev : PppDev)
    {skb : Skb} (safe : skb.safe = true) :
    (chapMd5Response digests dev skb).safe = true ∧ 21 + (dev.userid.length + 1) ≤ skb.room ↔
      ChapMd5Fits dev skb := by
  have behind : (4 + skb.dataLength).toNat = skb.num16 2 := by
    unfold Skb.dataLength
    omega
  have text : (skb.mem 1 :: dev.passwd ++ [0]).length = dev.passwd.length + 2 := by simp
  unfold chapMd5Response ChapMd5Fits
  simp only [behind, Skb.poke_safe, Skb.look_safe, safe, true_and, text, slice_length, sized.md5,
    Skb.poke_room, Skb.look_room, List.length_cons, List.length_nil]
  simp only [Skb.poke, text]
  split <;> omega

theorem chapMsResponse_room (digests : ChapDigests) (dev : PppDev) (skb : Skb) :
    (chapMsResponse digests dev skb).2.room = skb.room ∧
      (chapMsResponse digests dev skb).1.userid = dev.userid := by
  simp only [chapMsResponse]
  split
  · exact ⟨rfl, rfl⟩
  · split <;> exact ⟨rfl, rfl⟩

theorem chapMsResponse_clear {digests : ChapDigests} {dev : PppDev} {skb : Skb}
    (after : (chapMsResponse digests dev skb).2.safe = true) : skb.safe = true := by
  have saved {at_ : Nat} {bytes : List Byte}
      (after : ((skb.look 5 (skb.num 4)).poke at_ bytes).safe = true) : skb.safe = true :=
    ((Skb.look_safe _ _ _).mp ((Skb.poke_safe _ _ _).mp after).1).1
  unfold chapMsResponse at after
  simp only at after
  split at after
  · exact saved ((Skb.lookSaved_safe _ _ _ _).mp ((Skb.poke_safe _ _ _).mp after).1).1
  · split at after
    · exact saved ((Skb.lookSaved_safe _ _ _ _).mp ((Skb.poke_safe _ _ _).mp after).1).1
    · exact saved after

theorem chapMd5Response_clear {digests : ChapDigests} {dev : PppDev} {skb : Skb}
    (after : (chapMd5Response digests dev skb).safe = true) : skb.safe = true := by
  unfold chapMd5Response at after
  simp only [Skb.poke_safe, Skb.look_safe] at after
  exact after.1.1.1.1.1

theorem chapChallenge_clear {digests : ChapDigests} {dev : PppDev} {skb : Skb}
    (after : (chapChallenge digests dev skb).skb.safe = true) :
    skb.safe = true ∧ 4 + 1 ≤ skb.size := by
  unfold chapChallenge at after
  simp only [sent, Skb.trim_safe, Skb.setLength_safe, Skb.poke_safe] at after
  have first : ((skb.look 4 1).poke 0 [2]).safe = true := by
    have before := after.1.1
    split at before
    · exact chapMsResponse_clear before
    · split at before
      · exact chapMd5Response_clear before
      · exact before
  exact (Skb.look_safe _ _ _).mp ((Skb.poke_safe _ _ _).mp first).1

theorem chapChallenge_safe {digests : ChapDigests} (sized : digests.Sized) (dev : PppDev)
    {skb : Skb} (safe : skb.safe = true) (inside : skb.size ≤ skb.room) :
    (chapChallenge digests dev skb).skb.safe = true ↔ ChapChallengeFits dev skb := by
  unfold chapChallenge ChapChallengeFits
  simp only
  by_cases long : 5 ≤ skb.size
  · have room : 5 ≤ skb.room := long.trans inside
    simp only [Skb.look_known (show 4 + 1 ≤ skb.size from long), long, true_and]
    have code : (skb.poke 0 [2]).safe = true := (Skb.poke_safe _ _ _).mpr ⟨safe, by
      simp only [List.length_singleton]
      omega⟩
    have size : (skb.poke 0 [2]).size = skb.size := by
      rw [Skb.poke_size _ _ (Nat.zero_le _)]
      simp only [List.length_singleton]
      omega
    have num (i : Nat) (behind : 0 < i) : (skb.poke 0 [2]).num i = skb.num i := by
      rw [Skb.num, Skb.poke_code skb 2 behind, Skb.num]
    have num16 : (skb.poke 0 [2]).num16 2 = skb.num16 2 := by
      rw [Skb.num16, num 2 (by omega), num 3 (by omega), Skb.num16]
    split
    · next ms =>
      have made := chapMsResponse_safe sized { dev with opt4 := dev.opt4 ||| AUTHpwat } code
      have fits : ChapMsFits { dev with opt4 := dev.opt4 ||| AUTHpwat } (skb.poke 0 [2]) ↔
          ChapMsFits dev skb := by
        simp only [ChapMsFits, size, num 4 (by omega), Skb.poke_room]
      obtain ⟨same, userid⟩ := chapMsResponse_room digests
        { dev with opt4 := dev.opt4 ||| AUTHpwat } (skb.poke 0 [2])
      rw [← fits, ← made]
      simp only [sent, Skb.trim_safe, Skb.setLength_safe, Skb.poke_safe, Skb.poke_room, same, userid,
        List.length_append, List.length_singleton]
      exact ⟨fun all => all.1, fun all => ⟨all, by omega⟩⟩
    · split
      · next md5 =>
        have made := chapMd5Response_safe sized { dev with opt4 := dev.opt4 ||| AUTHpwat } code
        have fits : ChapMd5Fits { dev with opt4 := dev.opt4 ||| AUTHpwat } (skb.poke 0 [2]) ↔
            ChapMd5Fits dev skb := by
          simp only [ChapMd5Fits, size, num 4 (by omega), num16, Skb.poke_room]
        have same : (chapMd5Response digests { dev with opt4 := dev.opt4 ||| AUTHpwat }
            (skb.poke 0 [2])).room = skb.room := rfl
        rw [← fits, ← made]
        simp only [sent, Skb.trim_safe, Skb.setLength_safe, Skb.poke_safe, Skb.poke_room, same,
          List.length_append, List.length_singleton]
        exact ⟨fun all => all.1, fun all => ⟨all, by omega⟩⟩
      · simp only [sent, Skb.trim_safe, Skb.setLength_safe, Skb.poke_safe, Skb.poke_room, safe,
          List.length_append, List.length_singleton, true_and]
        omega
  · -- the length of the value is looked at first
    exact iff_of_false (fun after => long (chapChallenge_clear after).2) fun fits => long fits.1

/-- **`chap_input` is safe** exactly where the packet fits. -/
theorem chapInput_safe {digests : ChapDigests} (sized : digests.Sized) (dev : PppDev) {skb : Skb}
    (safe : skb.safe = true) (inside : skb.size ≤ skb.room) :
    (chapInput digests dev skb).skb.safe = true ↔ ChapFits dev skb := by
  unfold chapInput ChapFits
  simp only
  by_cases header : 4 ≤ skb.size
  · have same : skb.look 0 4 = skb := Skb.look_known (by omega)
    simp only [same, header, true_and]
    generalize skb.num 0 = us1
    split
    · exact chapChallenge_safe sized dev safe inside
    · split
      · next v2 =>
        split <;> simp [forgotten, freed, safe, v2]
      · next other =>
        split <;> simp [forgotten, freed, safe, other]
    · split <;> first | contradiction | simpa [freed] using safe
    · split <;> first | contradiction | simpa [freed] using safe
  · refine iff_of_false (fun after => header ?_) fun fits => header fits.1
    suffices first : (skb.look 0 4).safe = true by simpa using ((Skb.look_safe _ _ _).mp first).2
    generalize skb.num 0 = us1 at after
    split at after
    · exact (chapChallenge_clear after).1
    · by_cases v2 : anyBit dev.neg_authent PPP_ALG_MSCHAPV2 = true
      · simp only [v2, if_true] at after
        split at after
        · exact ((Skb.look_safe _ _ _).mp after).1
        · exact ((Skb.look_safe _ _ _).mp after).1
      · simp only [v2, if_false, Bool.false_eq_true] at after
        split at after
        · exact after
        · exact after
    · exact after
    · exact after

/-- A walk over options is over after as many rounds as there were bytes left, and one. -/
def OptionsEnd (round : OptionWalk → Outcome OptionWalk) : Prop :=
  ∀ w, ∃ code last, Outcome.run round (.running w) (w.left.toNat + 1) = .returned code last

theorem zeroDigests_sized : zeroDigests.Sized := by
  constructor <;> intros <;> simp [zeroDigests]

end PosFirmware.Ppp
