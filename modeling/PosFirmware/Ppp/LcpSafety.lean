import PosFirmware.Ppp.Lcp
import PosFirmware.Ppp.Packet

/-!
# Accesses of LCP

Which accesses of `lcp_input` are inside the packet, its buffer and the reply lists:
`lcpInput_safe`. The loops check no length but that of an option against two, so the
condition on a request is one on each option the loop comes to, `LcpReqFits`.
-/

namespace PosFirmware.Ppp

open PosFirmware.Foundation

/-- An authentication option fits: what is looked at is known, and the suggestion or the refusal
has its place. -/
def LcpAuthFits (us2 : Nat) (w : OptionWalk) : Prop :=
  let c2 := w.skb.mem (w.pos + 2)
  let c3 := w.skb.mem (w.pos + 3)
  let dev := authAccept w.dev c2 c3 (w.skb.mem (w.pos + 4))
  w.pos + authLook w.dev.neg_authent c2 c3 ≤ w.skb.size ∧
    (anyBit dev.opt4 7 = true ∨
      match authSuggestion dev with
      | some bytes =>
        w.pos + 1 + bytes.length ≤ w.skb.room ∧ w.naklen + (bytes.length + 1) ≤ naklimit
      | none => RefusedFits w w.rejlen us2)

/-- An option of a request fits: its value is known where it is read, and it fits into the
list where it is refused. -/
def LcpOptionFits (us1 us2 : Nat) (w : OptionWalk) : Prop :=
  match us1 with
  | 1 => w.pos + 4 ≤ w.skb.size ∧
      ((w.skb.num16 (w.pos + 2) : Int) ≤ w.dev.mss ∨ RefusedFits w w.naklen us2)
  | 2 => w.pos + 6 ≤ w.skb.size
  | 3 => LcpAuthFits us2 w
  | 5 | 7 | 8 => True
  | _ => RefusedFits w w.rejlen us2

/-- The next option of a request, if there is one, fits. -/
def LcpReqFits (w : OptionWalk) : Prop :=
  w.left ≤ 0 ∨ (w.pos + 2 ≤ w.skb.size ∧
    (w.skb.num (w.pos + 1) < 2 ∨ LcpOptionFits (w.skb.num w.pos) (w.skb.num (w.pos + 1)) w))

theorem lcpMru_safe {w : OptionWalk} (inside : w.skb.size ≤ w.skb.room) (us2 : Nat) :
    StepSafe w (lcpMru us2 w, us2) (w.pos + 4 ≤ w.skb.size ∧
      ((w.skb.num16 (w.pos + 2) : Int) ≤ w.dev.mss ∨ RefusedFits w w.naklen us2)) := by
  unfold lcpMru
  simp only
  split
  · next small =>
    exact ⟨by simp [small], fun _ => .looked us2 inside rfl rfl rfl rfl rfl⟩
  · next large =>
    by_cases read : w.pos + 4 ≤ w.skb.size
    · -- the two bytes that were read are written, so no more are known than before
      have size : ((w.skb.look (w.pos + 2) 2).poke (w.pos + 2) [BitVec.ofNat 8
          (w.dev.mss.toNat / 256), BitVec.ofNat 8 w.dev.mss.toNat]).size = w.skb.size := by
        rw [Skb.poke_size _ _ (by simp only [Skb.look_size]; omega)]
        simp only [Skb.look_size, List.length_cons, List.length_nil]
        omega
      constructor
      · simp only [nak_safe, RefusedFits, size, Skb.poke_safe, Skb.look_safe, Skb.look_room,
          List.length_cons, List.length_nil, large, false_or]
        constructor
        · rintro ⟨⟨⟨safe, -⟩, -⟩, refused⟩
          exact ⟨safe, read, refused⟩
        · rintro ⟨safe, -, refused⟩
          exact ⟨⟨⟨safe, by omega⟩, by omega⟩, refused⟩
      · rintro ⟨-, small | refused⟩
        · exact absurd small large
        · exact ⟨rfl, rfl, size.ge, size.le.trans inside, .inr ⟨rfl, refused.1.trans size.ge⟩,
            .inl rfl⟩
    · refine ⟨iff_of_false ?_ fun both => read both.2.1, fun fits => absurd fits.1 read⟩
      simp only [nak_safe, Skb.poke_safe, Skb.look_safe]
      omega

theorem lcpAuth_safe {w : OptionWalk} (inside : w.skb.size ≤ w.skb.room)
    (known : w.pos + 2 ≤ w.skb.size) (us2 : Nat) :
    StepSafe w (lcpAuth us2 w) (LcpAuthFits us2 w) := by
  unfold lcpAuth LcpAuthFits
  simp only
  generalize authAccept w.dev (w.skb.mem (w.pos + 2)) (w.skb.mem (w.pos + 3))
    (w.skb.mem (w.pos + 4)) = dev
  generalize authLook w.dev.neg_authent (w.skb.mem (w.pos + 2)) (w.skb.mem (w.pos + 3)) = n
  by_cases agreed : anyBit dev.opt4 7 = true
  · simp only [agreed, if_true, true_or, and_true]
    exact ⟨by simp, fun _ => .looked us2 inside rfl rfl rfl rfl rfl⟩
  · simp only [agreed, if_false, false_or, Bool.false_eq_true]
    cases suggested : authSuggestion dev with
    | some bytes =>
      have size := @Skb.poke_size (w.skb.look w.pos n) (w.pos + 1) bytes (by
        simp only [Skb.look_size]
        omega)
      simp only
      constructor
      · simp only [nak_safe, RefusedFits, size, Skb.poke_safe, Skb.look_safe, Skb.look_room,
          Skb.look_size]
        constructor
        · rintro ⟨⟨⟨safe, looked⟩, written⟩, -, listed⟩
          exact ⟨safe, looked, written, listed⟩
        · rintro ⟨safe, looked, written, listed⟩
          exact ⟨⟨⟨safe, looked⟩, written⟩, by omega, listed⟩
      · rintro ⟨looked, written, listed⟩
        obtain ⟨more, still⟩ := @Skb.poke_inside (w.skb.look w.pos n) _ _ inside written
        refine ⟨rfl, rfl, more, still, .inr ⟨rfl, ?_⟩, .inl rfl⟩
        simp only [OptionWalk.nak, Skb.refuse_size, size]
        omega
    | none =>
      simp only
      constructor
      · simp only [rej_safe, RefusedFits, Skb.look_safe, Skb.look_size, and_assoc]
      · rintro ⟨-, refused⟩
        exact ⟨rfl, rfl, le_rfl, inside, .inl rfl, .inr ⟨rfl, refused.1⟩⟩

theorem lcpOption_safe {w : OptionWalk} (inside : w.skb.size ≤ w.skb.room)
    (known : w.pos + 2 ≤ w.skb.size) (us1 us2 : Nat) :
    StepSafe w (lcpOption us1 us2 w) (LcpOptionFits us1 us2 w) := by
  unfold lcpOption LcpOptionFits
  split
  · exact lcpMru_safe inside us2
  · exact ⟨by simp, fun _ => .looked us2 inside rfl rfl rfl rfl rfl⟩
  · exact lcpAuth_safe inside known us2
  · exact ⟨by simp, fun _ => .looked us2 inside rfl rfl rfl rfl rfl⟩
  · exact ⟨by simp, fun _ => .looked us2 inside rfl rfl rfl rfl rfl⟩
  · exact ⟨by simp, fun _ => .looked us2 inside rfl rfl rfl rfl rfl⟩
  · first
    | exact .rej inside us2
    | split <;> first | exact .rej inside us2 | contradiction

theorem lcpOption_clear (us1 us2 : Nat) (w : OptionWalk)
    (after : (lcpOption us1 us2 w).1.skb.safe = true) : w.skb.safe = true := by
  unfold lcpOption at after
  split at after
  · simp only [lcpMru] at after
    split at after
    · exact ((Skb.look_safe _ _ _).mp after).1
    · exact ((Skb.look_safe _ _ _).mp ((Skb.poke_safe _ _ _).mp ((nak_safe _ _).mp after).1).1).1
  · exact ((Skb.look_safe _ _ _).mp after).1
  · simp only [lcpAuth] at after
    split at after
    · exact ((Skb.look_safe _ _ _).mp after).1
    · split at after
      · exact ((Skb.look_safe _ _ _).mp
          ((Skb.poke_safe _ _ _).mp ((nak_safe _ _).mp after).1).1).1
      · exact ((Skb.look_safe _ _ _).mp ((rej_safe _ _).mp after).1).1
  · exact after
  · exact after
  · exact after
  · exact ((rej_safe _ _).mp after).1

theorem lcpReqRound_clear (w : OptionWalk) (unsafe_ : ¬ w.skb.safe = true) :
    ¬ (lcpReqRound w).state.skb.safe = true := by
  intro after
  refine unsafe_ ?_
  unfold lcpReqRound at after
  split at after
  · exact after
  · simp only at after
    split at after
    · exact ((Skb.look_safe _ _ _).mp after).1
    · exact ((Skb.look_safe _ _ _).mp (lcpOption_clear _ _ _ after)).1

theorem lcpReqRound_safe (w : OptionWalk) (fits : WalkFits w) (safe : w.skb.safe = true) :
    ((lcpReqRound w).state.skb.safe = true ↔ LcpReqFits w) ∧
      (LcpReqFits w → WalkFits (lcpReqRound w).state) := by
  unfold lcpReqRound LcpReqFits
  split
  · next ends => exact ⟨by simp [safe, ends], fun _ => fits⟩
  · next more =>
    simp only [more, false_or]
    split
    · next short =>
      exact ⟨by simp [safe, short],
        fun _ => ⟨fits.header, fits.inside, fits.naklen, fits.rejlen, fits.nakked, fits.rejected⟩⟩
    · next long =>
      simp only [long, false_or, Outcome.state_running]
      by_cases known : w.pos + 2 ≤ w.skb.size
      · obtain ⟨accesses, steps⟩ := @lcpOption_safe
          { w with skb := w.skb.look w.pos 2, left := w.left - w.skb.num (w.pos + 1) } fits.inside
          known (w.skb.num w.pos) (w.skb.num (w.pos + 1))
        constructor
        · rw [accesses, Skb.look_safe]
          exact ⟨fun both => ⟨known, both.2⟩, fun both => ⟨⟨safe, known⟩, both.2⟩⟩
        · rintro ⟨-, option⟩
          exact WalkFits.over (w := { w with
            skb := w.skb.look w.pos 2, left := w.left - w.skb.num (w.pos + 1) })
            ⟨fits.header, fits.inside, fits.naklen, fits.rejlen, fits.nakked, fits.rejected⟩
            (steps option)
      · refine ⟨iff_of_false (fun after => known ?_) fun both => known both.1,
          fun both => absurd both.1 known⟩
        exact ((Skb.look_safe _ _ _).mp (lcpOption_clear _ _ _ after)).2

theorem lcpOption_left (us1 us2 : Nat) (w : OptionWalk) : (lcpOption us1 us2 w).1.left = w.left := by
  unfold lcpOption
  split
  · simp only [lcpMru]
    split <;> rfl
  · rfl
  · simp only [lcpAuth]
    split
    · rfl
    · split <;> rfl
  all_goals rfl

theorem lcpReqRound_ends (w : OptionWalk) :
    ∃ code last, Outcome.run lcpReqRound (.running w) (w.left.toNat + 1) = .returned code last := by
  refine Outcome.returned_of_measure (fun w => w.left.toNat) (fun v after next => ?_) w
  unfold lcpReqRound at next
  split at next
  · simp at next
  · simp only at next
    split at next
    · simp at next
    · obtain rfl := Outcome.running.inj next
      simp only [lcpOption_left]
      omega

/-- The walk over the options of a request as it starts. -/
def lcpReqWalk (dev : PppDev) (skb : Skb) : OptionWalk :=
  let prevstate := dev.prevstate
  let dev := if has prevstate LCPopen ∨ prevstate = PPPclsd then pppStart (pppInetDown dev) else dev
  .start { dev with recv_id := skb.num 1, recv_prot := PROTlcp.toNat } (skb.poke 0 [2])

theorem lcpReqReply_clear {w : OptionWalk} (after : (lcpReqReply w).skb.safe = true) :
    w.skb.safe = true := by
  unfold lcpReqReply at after
  split at after
  · split at after
    · simp only [sent, Skb.setLength_safe, Skb.trim_safe, Skb.reply_safe, Skb.poke_safe] at after
      exact after.1.1.1
    · simp only [sent, Skb.setLength_safe, Skb.trim_safe, Skb.reply_safe, Skb.poke_safe] at after
      exact after.1.1.1
  · exact after

theorem lcpReqReply_safe {w : OptionWalk} (fits : w.skb.safe = true → WalkFits w) :
    (lcpReqReply w).skb.safe = true ↔ w.skb.safe = true := by
  refine ⟨lcpReqReply_clear, fun safe => ?_⟩
  have header := (fits safe).header
  have code : 0 + 1 ≤ w.skb.room := by omega
  unfold lcpReqReply
  split
  · split
    · simp only [sent, Skb.setLength_safe, Skb.trim_safe, Skb.reply_safe, Skb.poke_safe,
        Skb.trim_room, Skb.reply_room, Skb.poke_room, List.length_singleton]
      exact ⟨⟨⟨safe, code⟩, (fits safe).replies.1⟩, header⟩
    · simp only [sent, Skb.setLength_safe, Skb.trim_safe, Skb.reply_safe, Skb.poke_safe,
        Skb.trim_room, Skb.reply_room, Skb.poke_room, List.length_singleton]
      exact ⟨⟨⟨safe, code⟩, (fits safe).replies.2⟩, header⟩
  · exact safe

theorem lcpConfReq_safe (dev : PppDev) {skb : Skb} (safe : skb.safe = true)
    (header : 4 ≤ skb.size) (inside : skb.size ≤ skb.room) :
    (lcpConfReq dev skb).skb.safe = true ↔
      Outcome.Always lcpReqRound (lcpReqWalk dev skb) LcpReqFits := by
  have poked : (skb.poke 0 [2]).safe = true := (Skb.poke_safe _ _ _).mpr ⟨safe, by
    simp only [List.length_singleton]
    omega⟩
  have still : (skb.poke 0 [2]).size ≤ skb.room := (Skb.poke_inside inside (by
    simp only [List.length_singleton]
    omega)).2
  have walk := optionLoop_safe lcpReqRound_clear lcpReqRound_safe
    (lcpReqRound_ends (lcpReqWalk dev skb)) (.start _ still (header.trans inside)) poked
  exact (lcpReqReply_safe walk.2).trans walk.1

/-- The next option of a refusal, if there is one, fits. -/
def LcpNakFits (code : Byte) (w : OptionWalk) : Prop :=
  w.left ≤ 0 ∨ (w.pos + 2 ≤ w.skb.size ∧
    (code = 3 ∧ w.skb.num w.pos = 2 ∧ 2 ≤ w.skb.num (w.pos + 1) → w.pos + 6 ≤ w.skb.size))

theorem lcpNakRound_clear (code : Byte) (w : OptionWalk) (unsafe_ : ¬ w.skb.safe = true) :
    ¬ (lcpNakRound code w).state.skb.safe = true := by
  unfold lcpNakRound
  simp only
  split
  · exact unsafe_
  · split
    · simp [unsafe_]
    · split
      · simp [unsafe_]
      · split <;> simp [unsafe_]

theorem lcpNakRound_safe (code : Byte) (w : OptionWalk) (safe : w.skb.safe = true) :
    (lcpNakRound code w).state.skb.safe = true ↔ LcpNakFits code w := by
  unfold lcpNakRound LcpNakFits
  simp only
  split
  · next ends => simp [safe, ends]
  · next more =>
    split
    · next stops =>
      simp [safe, more]
      intro _ _ async long
      omega
    · next goes =>
      have long : 2 ≤ w.skb.num (w.pos + 1) := by omega
      split
      · next term =>
        simp [safe, more]
        intro _ _ async _
        omega
      · split
        · next async => simp [safe, more, async.1, async.2, long]
        · next other =>
          simp [safe, more]
          exact fun _ nak async _ => absurd ⟨nak, async⟩ other

theorem lcpNakRound_ends (code : Byte) (w : OptionWalk) :
    ∃ err last,
      Outcome.run (lcpNakRound code) (.running w) (w.left.toNat + 1) = .returned err last := by
  refine Outcome.returned_of_measure (fun w => w.left.toNat) (fun v after next => ?_) w
  unfold lcpNakRound at next
  simp only at next
  split at next
  · simp at next
  · split at next
    · simp at next
    · split at next
      · simp at next
      · split at next
        all_goals
          obtain rfl := Outcome.running.inj next
          simp only
          omega

/-- The walk over the options of a refusal as it starts. -/
def lcpNakWalk (dev : PppDev) (skb : Skb) : OptionWalk := .start { dev with id := dev.id + 1 } skb

theorem lcpConfNak_skb (code : Byte) (dev : PppDev) (skb : Skb) :
    (lcpConfNak code dev skb).skb = if skb.mem 1 = dev.id then
      (Outcome.run (lcpNakRound code) (.running (lcpNakWalk dev skb))
        ((lcpNakWalk dev skb).left.toNat + 1)).state.skb else skb := by
  unfold lcpConfNak
  split
  · rfl
  · next same =>
    rw [if_pos (not_not.mp same)]
    simp only [lcpNakWalk]
    split
    · next err w reached =>
      rw [reached]
      split <;> rfl
    · next w reached =>
      rw [reached]
      rfl

theorem lcpConfNak_safe (code : Byte) (dev : PppDev) {skb : Skb} (safe : skb.safe = true) :
    (lcpConfNak code dev skb).skb.safe = true ↔ (skb.mem 1 = dev.id →
      Outcome.Always (lcpNakRound code) (lcpNakWalk dev skb) (LcpNakFits code)) := by
  have walk := (@optionLoop_safe _ (LcpNakFits code) (fun _ => True) (lcpNakRound_clear code)
    (fun w _ safe => ⟨lcpNakRound_safe code w safe, fun _ => trivial⟩) _
    (lcpNakRound_ends code (lcpNakWalk dev skb)) trivial safe).1
  rw [lcpConfNak_skb]
  split
  · next same => simpa only [same, true_implies] using walk
  · next other => simp [other, safe]

/-- The code of a packet fits: what its handler reads is known, and its reply has its place. -/
def LcpCodeFits (dev : PppDev) (skb : Skb) : Prop :=
  match skb.num 0 with
  | 1 => Outcome.Always lcpReqRound (lcpReqWalk dev skb) LcpReqFits
  | 3 => skb.mem 1 = dev.id → Outcome.Always (lcpNakRound 3) (lcpNakWalk dev skb) (LcpNakFits 3)
  | 4 => skb.mem 1 = dev.id → Outcome.Always (lcpNakRound 4) (lcpNakWalk dev skb) (LcpNakFits 4)
  | 8 => 6 ≤ skb.size
  | 9 => has dev.prevstate LCPopen = true → 8 ≤ skb.room
  | 2 | 5 | 6 | 7 | 10 | 11 => True
  | _ => skb.num16 2 + 1 ≤ skb.size ∧ skb.num16 2 + 5 ≤ skb.room

/-- A packet for `lcp_input` fits. -/
def LcpFits (dev : PppDev) (skb : Skb) : Prop :=
  4 ≤ skb.size ∧ (dev.prevstate = PPPclsng ∧ skb.num 0 ≠ 5 ∧ skb.num 0 ≠ 6 ∨ LcpCodeFits dev skb)

theorem lcpInput_clear {dev : PppDev} {skb : Skb} (after : (lcpInput dev skb).skb.safe = true) :
    (skb.look 0 4).safe = true := by
  by_contra unsafe_
  refine absurd after ?_
  have nak (code : Byte) : ¬ (lcpConfNak code dev (skb.look 0 4)).skb.safe = true := by
    rw [lcpConfNak_skb]
    split
    · exact optionLoop_clear (lcpNakRound_clear code) unsafe_ _
    · exact unsafe_
  unfold lcpInput
  simp only
  split
  · exact unsafe_
  · split
    · intro after
      have poked : ¬ ((skb.look 0 4).poke 0 [2]).safe = true :=
        fun safe => unsafe_ ((Skb.poke_safe _ _ _).mp safe).1
      exact @optionLoop_clear _ lcpReqRound_clear (lcpReqWalk dev (skb.look 0 4)) poked _
        (lcpReqReply_clear after)
    · simp only [lcpConfAck]
      split
      · exact unsafe_
      · split <;> exact unsafe_
    · exact nak 3
    · exact nak 4
    · exact fun after => unsafe_ ((Skb.poke_safe _ _ _).mp after).1
    · simp only [lcpTermAck]
      split
      · exact unsafe_
      · split
        · split <;> exact unsafe_
        · exact unsafe_
    · exact unsafe_
    · simp only [lcpProtRej]
      have looked : ¬ ((skb.look 0 4).look 4 2).safe = true :=
        fun safe => unsafe_ ((Skb.look_safe _ _ _).mp safe).1
      split
      · exact looked
      · split <;> exact looked
    · simp only [lcpEchoReq]
      split
      · exact fun after => unsafe_ ((Skb.poke_safe _ _ _).mp
          ((Skb.poke_safe _ _ _).mp after).1).1
      · exact unsafe_
    · exact unsafe_
    · exact unsafe_
    · simp only [lcpUnknown, sent, Skb.trim_safe, Skb.setLength_safe, Skb.poke_safe]
      exact fun after => unsafe_ ((Skb.look_safe _ _ _).mp after.1.1.1).1

/-- **`lcp_input` is safe** exactly where the packet fits. -/
theorem lcpInput_safe (dev : PppDev) {skb : Skb} (safe : skb.safe = true)
    (inside : skb.size ≤ skb.room) :
    (lcpInput dev skb).skb.safe = true ↔ LcpFits dev skb := by
  by_cases header : 4 ≤ skb.size
  · have same : skb.look 0 4 = skb := Skb.look_known (by omega)
    have room : 4 ≤ skb.room := header.trans inside
    unfold lcpInput LcpFits
    simp only [same, header, true_and]
    split
    · next closing => exact iff_of_true safe (.inl closing)
    · next open_ =>
      simp only [open_, false_or, LcpCodeFits]
      clear open_
      generalize skb.num 0 = us1
      split
      · exact lcpConfReq_safe dev safe header inside
      · simp only [lcpConfAck]
        split
        · simpa [freed] using safe
        · split <;> simpa [freed] using safe
      · exact lcpConfNak_safe 3 dev safe
      · exact lcpConfNak_safe 4 dev safe
      · simp [lcpTermReq, sent, safe]
        omega
      · simp only [lcpTermAck]
        split
        · simpa [forgotten] using safe
        · split
          · split <;> simpa [freed] using safe
          · simpa [freed] using safe
      · simpa [freed] using safe
      · simp only [lcpProtRej]
        split
        · simp [freed, safe]
        · split <;> simp [freed, forgotten, safe]
      · simp only [lcpEchoReq]
        split
        · next opened =>
          simp [sent, safe, opened]
          omega
        · next closed => simp [freed, safe, closed]
      · simpa [freed] using safe
      · simpa [freed] using safe
      · split <;> first | contradiction | skip
        simp only [lcpUnknown, sent, Skb.trim_safe, Skb.setLength_safe, Skb.poke_safe,
          Skb.look_safe, slice_length, Skb.poke_room, Skb.look_room, List.length_singleton, safe,
          true_and, Nat.zero_add]
        omega
  · refine iff_of_false (fun after => header ?_) fun fits => header fits.1
    simpa using ((Skb.look_safe _ _ _).mp (lcpInput_clear after)).2

end PosFirmware.Ppp
