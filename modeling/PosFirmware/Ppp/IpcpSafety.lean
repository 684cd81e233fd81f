import PosFirmware.Ppp.Ipcp
import PosFirmware.Ppp.Packet

/-!
# Accesses of IPCP

Which accesses of `ipcp_input` are inside the packet, its buffer and the reply lists:
`ipcpInput_safe`, by the options the loops come to.
-/

namespace PosFirmware.Ppp

open PosFirmware.Foundation

/-- An option of a request fits: an address is known where it is read, and what is refused fits
into its list. -/
def IpcpOptionFits (us1 us2 : Nat) (w : OptionWalk) : Prop :=
  if us1 = 3 then
    w.pos + 6 ≤ w.skb.size ∧ (orBytes w.skb (w.pos + 2) = 0 →
      if w.dev.remote_addr ≠ 0 then RefusedFits w w.naklen us2 else RefusedFits w w.rejlen us2)
  else RefusedFits w w.rejlen us2

/-- The next option of a request, if there is one, fits. -/
def IpcpReqFits (w : OptionWalk) : Prop :=
  w.left ≤ 0 ∨ (w.pos + 2 ≤ w.skb.size ∧
    (w.skb.num (w.pos + 1) < 2 ∨ IpcpOptionFits (w.skb.num w.pos) (w.skb.num (w.pos + 1)) w))

/-- The option of a round over the options of a request. -/
def ipcpOption (us1 us2 : Nat) (w : OptionWalk) : OptionWalk :=
  if us1 = 3 then ipcpAddress us2 w else w.rej us2

theorem ipcpAddress_safe {w : OptionWalk} (inside : w.skb.size ≤ w.skb.room) (us2 : Nat) :
    StepSafe w (ipcpAddress us2 w, us2) (w.pos + 6 ≤ w.skb.size ∧
      (orBytes w.skb (w.pos + 2) = 0 →
        if w.dev.remote_addr ≠ 0 then RefusedFits w w.naklen us2
        else RefusedFits w w.rejlen us2)) := by
  unfold ipcpAddress
  simp only
  split
  · next zero =>
    simp only [zero, true_implies]
    split
    · by_cases read : w.pos + 6 ≤ w.skb.size
      · -- the four bytes that were read are written, so no more are known than before
        have length : (wordBytes w.dev.remote_addr).length = 4 := rfl
        have size : ((w.skb.look (w.pos + 2) 4).poke (w.pos + 2)
            (wordBytes w.dev.remote_addr)).size = w.skb.size := by
          rw [Skb.poke_size _ _ (by simp only [Skb.look_size]; omega)]
          simp only [Skb.look_size, length]
          omega
        constructor
        · simp only [nak_safe, RefusedFits, size, Skb.poke_safe, Skb.look_safe, Skb.look_room,
            length]
          constructor
          · rintro ⟨⟨⟨safe, -⟩, -⟩, refused⟩
            exact ⟨safe, read, refused⟩
          · rintro ⟨safe, -, refused⟩
            exact ⟨⟨⟨safe, by omega⟩, by omega⟩, refused⟩
        · rintro ⟨-, refused⟩
          exact ⟨rfl, rfl, size.ge, size.le.trans inside, .inr ⟨rfl, refused.1.trans size.ge⟩,
            .inl rfl⟩
      · refine ⟨iff_of_false ?_ fun both => read both.2.1, fun fits => absurd fits.1 read⟩
        simp only [nak_safe, Skb.poke_safe, Skb.look_safe]
        omega
    · constructor
      · simp only [rej_safe, RefusedFits, Skb.look_safe, Skb.look_size, and_assoc]
      · rintro ⟨-, refused⟩
        exact ⟨rfl, rfl, le_rfl, inside, .inl rfl, .inr ⟨rfl, refused.1⟩⟩
  · next set =>
    simp only [set, false_implies, and_true]
    split
    · exact ⟨by simp, fun _ => .looked us2 inside rfl rfl rfl rfl rfl⟩
    · exact ⟨by simp, fun _ => .looked us2 inside rfl rfl rfl rfl rfl⟩

theorem ipcpOption_safe {w : OptionWalk} (inside : w.skb.size ≤ w.skb.room) (us1 us2 : Nat) :
    StepSafe w (ipcpOption us1 us2 w, us2) (IpcpOptionFits us1 us2 w) := by
  unfold ipcpOption IpcpOptionFits
  by_cases address : us1 = 3
  · simp only [address, if_true]
    exact ipcpAddress_safe inside us2
  · simp only [address, if_false]
    exact .rej inside us2

theorem ipcpReqRound_eq (w : OptionWalk) : ipcpReqRound w =
    if w.left ≤ 0 then .returned PPP_OK w
    else
      let looked := { w with skb := w.skb.look w.pos 2 }
      if w.skb.num (w.pos + 1) < 2 then .returned PPP_OK looked
      else
        let after := ipcpOption (w.skb.num w.pos) (w.skb.num (w.pos + 1))
          { looked with left := w.left - w.skb.num (w.pos + 1) }
        .running { after with pos := after.pos + w.skb.num (w.pos + 1) } := rfl

theorem ipcpOption_clear {us1 us2 : Nat} {w : OptionWalk}
    (after : (ipcpOption us1 us2 w).skb.safe = true) : w.skb.safe = true := by
  unfold ipcpOption at after
  split at after
  · simp only [ipcpAddress] at after
    split at after
    · split at after
      · exact ((Skb.look_safe _ _ _).mp
          ((Skb.poke_safe _ _ _).mp ((nak_safe _ _).mp after).1).1).1
      · exact ((Skb.look_safe _ _ _).mp ((rej_safe _ _).mp after).1).1
    · split at after <;> exact ((Skb.look_safe _ _ _).mp after).1
  · exact ((rej_safe _ _).mp after).1

theorem ipcpOption_left (us1 us2 : Nat) (w : OptionWalk) : (ipcpOption us1 us2 w).left = w.left := by
  unfold ipcpOption
  split
  · simp only [ipcpAddress]
    split
    · split <;> rfl
    · split <;> rfl
  · rfl

theorem ipcpReqRound_clear (w : OptionWalk) (unsafe_ : ¬ w.skb.safe = true) :
    ¬ (ipcpReqRound w).state.skb.safe = true := by
  intro after
  refine unsafe_ ?_
  rw [ipcpReqRound_eq] at after
  split at after
  · exact after
  · simp only at after
    split at after
    · exact ((Skb.look_safe _ _ _).mp after).1
    · exact ((Skb.look_safe _ _ _).mp (ipcpOption_clear after)).1

theorem ipcpReqRound_safe (w : OptionWalk) (fits : WalkFits w) (safe : w.skb.safe = true) :
    ((ipcpReqRound w).state.skb.safe = true ↔ IpcpReqFits w) ∧
      (IpcpReqFits w → WalkFits (ipcpReqRound w).state) := by
  rw [ipcpReqRound_eq]
  unfold IpcpReqFits
  split
  · next ends => exact ⟨by simp [safe, ends], fun _ => fits⟩
  · next more =>
    simp only [more, false_or]
    split
    · next short =>
      exact ⟨by simp [safe, short],
        fun _ => ⟨fits.header, fits.inside, fits.naklen, fits.rejlen, fits.nakked, fits.rejected⟩⟩
    · next long =>
      simp only [long, false_or, Outcome.state_running]
      obtain ⟨accesses, steps⟩ := @ipcpOption_safe
        { w with skb := w.skb.look w.pos 2, left := w.left - w.skb.num (w.pos + 1) } fits.inside
        (w.skb.num w.pos) (w.skb.num (w.pos + 1))
      constructor
      · rw [accesses, Skb.look_safe]
        exact ⟨fun both => ⟨both.1.2, both.2⟩, fun both => ⟨⟨safe, both.1⟩, both.2⟩⟩
      · rintro ⟨-, option⟩
        exact WalkFits.over (w := { w with
          skb := w.skb.look w.pos 2, left := w.left - w.skb.num (w.pos + 1) })
          ⟨fits.header, fits.inside, fits.naklen, fits.rejlen, fits.nakked, fits.rejected⟩
          (steps option)

theorem ipcpReqRound_ends (w : OptionWalk) :
    ∃ code last, Outcome.run ipcpReqRound (.running w) (w.left.toNat + 1) = .returned code last := by
  refine Outcome.returned_of_measure (fun w => w.left.toNat) (fun v after next => ?_) w
  rw [ipcpReqRound_eq] at next
  split at next
  · simp at next
  · simp only at next
    split at next
    · simp at next
    · obtain rfl := Outcome.running.inj next
      simp only [ipcpOption_left]
      omega

/-- The walk over the options of a request as it starts. -/
def ipcpReqWalk (dev : PppDev) (skb : Skb) : OptionWalk :=
  .start (if dev.auth_state = 0 then { dev with auth_state := 1 } else dev) skb

theorem ipcpReqReply_clear {w : OptionWalk} (after : (ipcpReqReply w).skb.safe = true) :
    w.skb.safe = true := by
  unfold ipcpReqReply at after
  simp only at after
  split at after
  · split at after
    all_goals
      simp only [sent, Skb.setLength_safe, Skb.trim_safe, Skb.reply_safe, Skb.poke_safe] at after
      exact after.1.1.1
  · exact ((Skb.poke_safe _ _ _).mp after).1

theorem ipcpReqReply_safe {w : OptionWalk} (fits : w.skb.safe = true → WalkFits w) :
    (ipcpReqReply w).skb.safe = true ↔ w.skb.safe = true := by
  refine ⟨ipcpReqReply_clear, fun safe => ?_⟩
  have header := (fits safe).header
  have code : 0 + 1 ≤ w.skb.room := by omega
  unfold ipcpReqReply
  simp only
  split
  · split
    · simp only [sent, Skb.setLength_safe, Skb.trim_safe, Skb.reply_safe, Skb.poke_safe,
        Skb.trim_room, Skb.reply_room, Skb.poke_room, List.length_singleton]
      exact ⟨⟨⟨safe, code⟩, (fits safe).replies.2⟩, header⟩
    · simp only [sent, Skb.setLength_safe, Skb.trim_safe, Skb.reply_safe, Skb.poke_safe,
        Skb.trim_room, Skb.reply_room, Skb.poke_room, List.length_singleton]
      exact ⟨⟨⟨safe, code⟩, (fits safe).replies.1⟩, header⟩
  · exact (Skb.poke_safe _ _ _).mpr ⟨safe, code⟩

theorem ipcpConfReq_safe (dev : PppDev) {skb : Skb} (safe : skb.safe = true)
    (header : 4 ≤ skb.size) (inside : skb.size ≤ skb.room) :
    (ipcpConfReq dev skb).skb.safe = true ↔
      Outcome.Always ipcpReqRound (ipcpReqWalk dev skb) IpcpReqFits := by
  have walk := optionLoop_safe ipcpReqRound_clear ipcpReqRound_safe
    (ipcpReqRound_ends (ipcpReqWalk dev skb)) (.start _ inside (header.trans inside)) safe
  exact (ipcpReqReply_safe walk.2).trans walk.1

/-- The next option of a refusal, if there is one, fits. -/
def IpcpNakFits (w : OptionWalk) : Prop :=
  w.left ≤ 0 ∨ (w.pos + 2 ≤ w.skb.size ∧
    (2 ≤ w.skb.num (w.pos + 1) →
      w.skb.num w.pos = 3 ∨ w.skb.num w.pos = 129 ∨ w.skb.num w.pos = 131 →
      w.pos + 6 ≤ w.skb.size))

theorem ipcpNakRound_clear (code : Byte) (w : OptionWalk) (unsafe_ : ¬ w.skb.safe = true) :
    ¬ (ipcpNakRound code w).state.skb.safe = true := by
  unfold ipcpNakRound
  simp only
  split
  · exact unsafe_
  · split
    · simp [unsafe_]
    · split
      · split <;> simp [unsafe_]
      · split
        · simp [unsafe_]
        · split <;> simp [unsafe_]

theorem ipcpNakRound_safe (code : Byte) (w : OptionWalk) (safe : w.skb.safe = true) :
    (ipcpNakRound code w).state.skb.safe = true ↔ IpcpNakFits w := by
  unfold ipcpNakRound IpcpNakFits
  simp only
  split
  · next ends => simp [safe, ends]
  · next more =>
    split
    · next short => simp [safe, more, show ¬ 2 ≤ w.skb.num (w.pos + 1) by omega]
    · next long =>
      have long : 2 ≤ w.skb.num (w.pos + 1) := by omega
      split
      · next address => split <;> simp [safe, more, long, address]
      · split
        · next primary => simp [safe, more, long, primary]
        · split
          · next second => simp [safe, more, long, second]
          · next address primary second => simp [safe, more, address, primary, second]

theorem ipcpNakRound_ends (code : Byte) (w : OptionWalk) :
    ∃ err last,
      Outcome.run (ipcpNakRound code) (.running w) (w.left.toNat + 1) = .returned err last := by
  refine Outcome.returned_of_measure (fun w => w.left.toNat) (fun v after next => ?_) w
  have lowers {after' : OptionWalk} (goes : Outcome.running after' = .running after)
      (left : after'.left = v.left - v.skb.num (v.pos + 1)) (more : ¬ v.left ≤ 0)
      (long : ¬ v.skb.num (v.pos + 1) < 2) : after.left.toNat < v.left.toNat := by
    obtain rfl := Outcome.running.inj goes
    omega
  unfold ipcpNakRound at next
  simp only at next
  split at next
  · simp at next
  · next more =>
    split at next
    · simp at next
    · next long =>
      split at next
      · split at next
        · simp at next
        · exact lowers next rfl more long
      · split at next
        · exact lowers next rfl more long
        · split at next <;> exact lowers next rfl more long

/-- The walk over the options of a refusal as it starts. -/
def ipcpNakWalk (dev : PppDev) (skb : Skb) : OptionWalk := .start { dev with id := dev.id + 1 } skb

theorem ipcpConfNak_skb (code : Byte) (dev : PppDev) (skb : Skb) :
    (ipcpConfNak code dev skb).skb = if skb.mem 1 = dev.id then
      (Outcome.run (ipcpNakRound code) (.running (ipcpNakWalk dev skb))
        ((ipcpNakWalk dev skb).left.toNat + 1)).state.skb else skb := by
  unfold ipcpConfNak
  split
  · rfl
  · next same =>
    rw [if_pos (not_not.mp same)]
    simp only [ipcpNakWalk]
    split
    · next err w reached =>
      rw [reached]
      split <;> rfl
    · next w reached =>
      rw [reached]
      rfl

theorem ipcpConfNak_safe (code : Byte) (dev : PppDev) {skb : Skb} (safe : skb.safe = true) :
    (ipcpConfNak code dev skb).skb.safe = true ↔ (skb.mem 1 = dev.id →
      Outcome.Always (ipcpNakRound code) (ipcpNakWalk dev skb) IpcpNakFits) := by
  have walk := (@optionLoop_safe _ IpcpNakFits (fun _ => True) (ipcpNakRound_clear code)
    (fun w _ safe => ⟨ipcpNakRound_safe code w safe, fun _ => trivial⟩) _
    (ipcpNakRound_ends code (ipcpNakWalk dev skb)) trivial safe).1
  rw [ipcpConfNak_skb]
  split
  · next same => simpa only [same, true_implies] using walk
  · next other => simp [other, safe]

/-- The code of a packet fits: the options of a request and of a refusal of one do. -/
def IpcpCodeFits (us1 : Nat) (dev : PppDev) (skb : Skb) : Prop :=
  match us1 with
  | 1 => Outcome.Always ipcpReqRound (ipcpReqWalk dev skb) IpcpReqFits
  | 3 => skb.mem 1 = dev.id → Outcome.Always (ipcpNakRound 3) (ipcpNakWalk dev skb) IpcpNakFits
  | 4 => skb.mem 1 = dev.id → Outcome.Always (ipcpNakRound 4) (ipcpNakWalk dev skb) IpcpNakFits
  | _ => True

/-- A packet for `ipcp_input` fits. -/
def IpcpFits (dev : PppDev) (skb : Skb) : Prop :=
  4 ≤ skb.size ∧ IpcpCodeFits (skb.num 0) dev skb

theorem ipcpConfAck_skb (dev : PppDev) (skb : Skb) : (ipcpConfAck dev skb).skb = skb := by
  simp only [ipcpConfAck]
  split <;> rfl

theorem ipcpTermAck_skb (dev : PppDev) (skb : Skb) : (ipcpTermAck dev skb).skb = skb := by
  unfold ipcpTermAck
  split
  · rfl
  · split <;> rfl

theorem ipcpInput_clear {dev : PppDev} {skb : Skb} (after : (ipcpInput dev skb).skb.safe = true) :
    (skb.look 0 4).safe = true := by
  by_contra unsafe_
  refine absurd after ?_
  have nak (code : Byte) : ¬ (ipcpConfNak code dev (skb.look 0 4)).skb.safe = true := by
    rw [ipcpConfNak_skb]
    split
    · exact optionLoop_clear (ipcpNakRound_clear code) unsafe_ _
    · exact unsafe_
  unfold ipcpInput
  simp only
  split
  · exact fun after => @optionLoop_clear _ ipcpReqRound_clear (ipcpReqWalk dev (skb.look 0 4))
      unsafe_ _ (ipcpReqReply_clear after)
  · rwa [ipcpConfAck_skb]
  · exact nak 3
  · exact nak 4
  · exact fun after => unsafe_ ((Skb.poke_safe _ _ _).mp after).1
  · rwa [ipcpTermAck_skb]
  · exact unsafe_

/-- **`ipcp_input` is safe** exactly where the packet fits. -/
theorem ipcpInput_safe (dev : PppDev) {skb : Skb} (safe : skb.safe = true)
    (inside : skb.size ≤ skb.room) :
    (ipcpInput dev skb).skb.safe = true ↔ IpcpFits dev skb := by
  by_cases header : 4 ≤ skb.size
  · have same : skb.look 0 4 = skb := Skb.look_known (by omega)
    unfold ipcpInput IpcpFits IpcpCodeFits
    simp only [same, header, true_and]
    generalize skb.num 0 = us1
    split
    · exact ipcpConfReq_safe dev safe header inside
    · simpa [ipcpConfAck_skb] using safe
    · exact ipcpConfNak_safe 3 dev safe
    · exact ipcpConfNak_safe 4 dev safe
    · simp [ipcpTermReq, sent, safe]
      omega
    · simpa [ipcpTermAck_skb] using safe
    · split <;> first | contradiction | simpa [freed] using safe
  · refine iff_of_false (fun after => header ?_) fun fits => header fits.1
    simpa using ((Skb.look_safe _ _ _).mp (ipcpInput_clear after)).2

end PosFirmware.Ppp
