import PosFirmware.Foundation.Loop
import PosFirmware.Ppp.Packet

/-!
# LCP

`lcp_input`: the options of a request are taken, changed or refused one after the other, and the
reply is composed in the packet that was received; the other codes change the state of the
link. `lcpInput_fates` says which packets are neither freed nor sent back.
-/

namespace PosFirmware.Ppp

open PosFirmware.Foundation

/-- How much of an authentication option is looked at, the header included. -/
def authLook (neg : Word) (c2 c3 : Byte) : Nat :=
  if c2 = 0xC2 ∧ c3 = 0x23 ∧ anyBit neg (PPP_ALG_CHAP ||| PPP_ALG_MSCHAPV1 ||| PPP_ALG_MSCHAPV2) then 5
  else if c2 = 0xC2 ∨ (anyBit neg PPP_ALG_PAP ∧ c2 = 0xC0) then 4
  else 3

/-- The authentication is agreed on if the link uses it. -/
def authAccept (dev : PppDev) (c2 c3 c4 : Byte) : PppDev :=
  let dev := if anyBit dev.neg_authent PPP_ALG_PAP ∧ c2 = 0xC0 ∧ c3 = 0x23 then
    { dev with opt4 := dev.opt4 ||| AUTHppap, neg_authent := PPP_ALG_PAP } else dev
  if c2 = 0xC2 ∧ c3 = 0x23 then
    let dev := if anyBit dev.neg_authent PPP_ALG_MSCHAPV2 ∧ c4 = 0x81 then
      { dev with opt4 := dev.opt4 ||| AUTHpmsc, neg_authent := PPP_ALG_MSCHAPV2 } else dev
    let dev := if anyBit dev.neg_authent PPP_ALG_MSCHAPV1 ∧ c4 = 0x80 then
      { dev with opt4 := dev.opt4 ||| AUTHpmsc, neg_authent := PPP_ALG_MSCHAPV1 } else dev
    if anyBit dev.neg_authent PPP_ALG_CHAP ∧ c4 = 0x05 then
      { dev with opt4 := dev.opt4 ||| AUTHpchp, neg_authent := PPP_ALG_CHAP } else dev
  else dev

/-- The authentication the link suggests instead, from the length of the option on. -/
def authSuggestion (dev : PppDev) : Option (List Byte) :=
  if anyBit dev.neg_authent PPP_ALG_MSCHAPV2 then some [5, 0xC2, 0x23, 0x81]
  else if anyBit dev.neg_authent PPP_ALG_MSCHAPV1 then some [5, 0xC2, 0x23, 0x80]
  else if anyBit dev.neg_authent PPP_ALG_CHAP then some [5, 0xC2, 0x23, 0x05]
  else if anyBit dev.neg_authent PPP_ALG_PAP then some [4, 0xC0, 0x23]
  else none

/-- `LCPopt_MRU` of a request. -/
def lcpMru (us2 : Nat) (w : OptionWalk) : OptionWalk :=
  let mru := w.skb.num16 (w.pos + 2)
  let w := { w with skb := w.skb.look (w.pos + 2) 2 }
  if (mru : Int) ≤ w.dev.mss then { w with dev := { w.dev with mss := mru } }
  else
    let mss := w.dev.mss.toNat
    { w with skb := w.skb.poke (w.pos + 2) [BitVec.ofNat 8 (mss / 256), BitVec.ofNat 8 mss] }.nak us2

/-- `LCPopt_AUTH` of a request: the option after it, and `us2`, which a suggestion changes. -/
def lcpAuth (us2 : Nat) (w : OptionWalk) : OptionWalk × Nat :=
  let c2 := w.skb.mem (w.pos + 2)
  let c3 := w.skb.mem (w.pos + 3)
  let w := { w with
    skb := w.skb.look w.pos (authLook w.dev.neg_authent c2 c3)
    dev := authAccept w.dev c2 c3 (w.skb.mem (w.pos + 4)) }
  if anyBit w.dev.opt4 7 then (w, us2)
  else
    match authSuggestion w.dev with
    | some bytes =>
      ({ w with skb := w.skb.poke (w.pos + 1) bytes }.nak (bytes.length + 1), bytes.length + 1)
    | none => (w.rej us2, us2)

/-- One option of a request: what is collected, and `us2`. -/
def lcpOption (us1 us2 : Nat) (w : OptionWalk) : OptionWalk × Nat :=
  match us1 with
  | 1 => (lcpMru us2 w, us2)
  | 2 =>
    ({ w with
      skb := w.skb.look (w.pos + 2) 4
      dev := { w.dev with ACCM := w.skb.word (w.pos + 2) } }, us2)
  | 3 => lcpAuth us2 w
  | 5 | 7 | 8 => (w, us2)
  | _ => (w.rej us2, us2)

/-- A round of the loop over the options of a request. -/
def lcpReqRound (w : OptionWalk) : Outcome OptionWalk :=
  if w.left ≤ 0 then .returned PPP_OK w
  else
    let us1 := w.skb.num w.pos
    let us2 := w.skb.num (w.pos + 1)
    let w := { w with skb := w.skb.look w.pos 2 }
    if us2 < 2 then .returned PPP_OK w
    else
      let (w, advance) := lcpOption us1 us2 { w with left := w.left - us2 }
      .running { w with pos := w.pos + advance }

/-- The loop over the options of a request. -/
def lcpReqOptions (dev : PppDev) (skb : Skb) : OptionWalk :=
  let start := OptionWalk.start dev skb
  (Outcome.run lcpReqRound (.running start) (start.left.toNat + 1)).state

/-- The reply to a request: the options to be changed, else those to be left out, else all. -/
def lcpReqReply (w : OptionWalk) : Handled :=
  if w.naklen ≠ 0 ∨ w.rejlen ≠ 0 then
    let dev := { w.dev with remopts := 0, state := w.dev.state &&& ~~~(LCPrxREQ ||| LCPtxACK) }
    if w.naklen ≠ 0 then
      sent PPP_OK PROTlcp dev ((((w.skb.poke 0 [3]).reply 0 w.naklen).trim
        (w.naklen + 4)).setLength (w.naklen + 4))
    else
      sent PPP_OK PROTlcp dev ((((w.skb.poke 0 [4]).reply naklimit w.rejlen).trim
        (w.rejlen + 4)).setLength (w.rejlen + 4))
  else
    let dev := { w.dev with
      state := w.dev.state ||| LCPrxREQ ||| LCPtxACK, opt4 := w.dev.opt4 &&& ~~~AUTHpwat }
    let dev := if dev.wireless then
      { dev with lcp_ack_pkt := w.skb.bytes, lcp_ack_retry := dev.lcp_ack_retry_max } else dev
    sent PPP_OK PROTlcp dev w.skb

/-- `LCPconf_req`. -/
def lcpConfReq (dev : PppDev) (skb : Skb) : Handled :=
  let prevstate := dev.prevstate
  let dev := if has prevstate LCPopen ∨ prevstate = PPPclsd then pppStart (pppInetDown dev) else dev
  let dev := { dev with recv_id := skb.num 1, recv_prot := PROTlcp.toNat }
  lcpReqReply (lcpReqOptions dev (skb.poke 0 [2]))

/-- `LCPconf_ack`. -/
def lcpConfAck (dev : PppDev) (skb : Skb) : Handled :=
  let prevstate := dev.prevstate
  if skb.mem 1 ≠ dev.id ∨ ¬ anyBit prevstate LCPtxREQ then freed PPP_REJ dev skb
  else if anyBit prevstate LCPrxACK then freed PPP_OK dev skb
  else freed PPP_OK { dev with state := dev.state ||| LCPrxACK, counter := MAXCONF } skb

/-- A round of the loop over the options the peer did not take. -/
def lcpNakRound (code : Byte) (w : OptionWalk) : Outcome OptionWalk :=
  if w.left ≤ 0 then .returned PPP_OK w
  else
    let us1 := w.skb.num w.pos
    let us2 := w.skb.num (w.pos + 1)
    let w := { w with skb := w.skb.look w.pos 2, left := w.left - us2 }
    if 19 < us1 ∨ us2 < 2 then .returned PPP_OK w
    else if us1 = 3 ∨ us1 = 5 then .returned PPP_TERM w
    else if code = 3 ∧ us1 = 2 then
      .running { w with
        skb := w.skb.look (w.pos + 2) 4
        dev := { w.dev with raccm := w.dev.raccm ||| w.skb.word (w.pos + 2) }
        pos := w.pos + us2 }
    else
      .running { w with
        dev := { w.dev with
          locopts := w.dev.locopts &&& ~~~(1 <<< us1 : Word)
          raccm := if us1 = 2 then 0xFFFFFFFF else w.dev.raccm }
        pos := w.pos + us2 }

/-- `LCPconf_nak` and `LCPconf_rej`. -/
def lcpConfNak (code : Byte) (dev : PppDev) (skb : Skb) : Handled :=
  if skb.mem 1 ≠ dev.id then freed PPP_REJ dev skb
  else
    let prevstate := dev.prevstate
    let start := OptionWalk.start { dev with id := dev.id + 1 } skb
    match Outcome.run (lcpNakRound code) (.running start) (start.left.toNat + 1) with
    | .returned err w =>
      if err = PPP_TERM then forgotten PPP_TERM w.dev w.skb
      else
        let dev := if has prevstate LCPopen then pppStart w.dev
          else if anyBit prevstate LCPrxACK then { w.dev with state := 0 }
          else { w.dev with
            counter := MAXCONF, state := w.dev.state &&& ~~~(LCPtxREQ ||| LCPrxACK) }
        freed PPP_OK dev w.skb
    | .running w => freed PPP_OK w.dev w.skb

/-- `LCPterm_req`. -/
def lcpTermReq (dev : PppDev) (skb : Skb) : Handled :=
  let prevstate := dev.prevstate
  let dev := if has prevstate LCPopen then pppDown dev
    else if prevstate ≠ PPPclsd ∧ prevstate ≠ PPPclsng then pppStart dev else dev
  sent (-100) PROTlcp dev (skb.poke 0 [6])

/-- `LCPterm_ack`. -/
def lcpTermAck (dev : PppDev) (skb : Skb) : Handled :=
  let prevstate := dev.prevstate
  if skb.mem 1 ≠ dev.id then forgotten PPP_REJ dev skb
  else if prevstate ≠ PPPclsng then
    if has prevstate LCPopen then freed PPP_OK { dev with state := 0 } skb
    else freed PPP_OK { dev with state := dev.state &&& ~~~LCPrxACK } skb
  else freed PPP_OK { pppClosed dev with counter := 0 } skb

/-- `LCPprot_rej`. -/
def lcpProtRej (dev : PppDev) (skb : Skb) : Handled :=
  let us1 := skb.num16 4
  let skb := skb.look 4 2
  if us1 = PROTlqp.toNat then
    freed PPP_OK { dev with locopts := dev.locopts &&& ~~~(1 <<< 4 : Word) } skb
  else if us1 = PROTipcp.toNat then forgotten PPP_TERM dev skb
  else freed PPP_OK dev skb

/-- `LCPecho_req`. -/
def lcpEchoReq (dev : PppDev) (skb : Skb) : Handled :=
  if has dev.prevstate LCPopen then
    sent PPP_OK PROTlcp dev ((skb.poke 0 [10]).poke 4 [0, 0, 0, 0])
  else freed PPP_OK dev skb

/-- A code that is not known: the packet goes back behind a new header. -/
def lcpUnknown (dev : PppDev) (skb : Skb) : Handled :=
  let length := skb.num16 2
  let us1 := (length + 4) % 65536
  let moved := (skb.look 0 (length + 1)).poke 4 (slice skb.mem 0 (length + 1))
  sent PPP_REJ PROTlcp dev (((moved.poke 0 [7]).setLength us1).trim us1)

/-- `lcp_input`. -/
def lcpInput (dev : PppDev) (skb : Skb) : Handled :=
  let us1 := skb.num 0
  let skb := skb.look 0 4
  if dev.prevstate = PPPclsng ∧ us1 ≠ 5 ∧ us1 ≠ 6 then freed PPP_REJ dev skb
  else
    match us1 with
    | 1 => lcpConfReq dev skb
    | 2 => lcpConfAck dev skb
    | 3 => lcpConfNak 3 dev skb
    | 4 => lcpConfNak 4 dev skb
    | 5 => lcpTermReq dev skb
    | 6 => lcpTermAck dev skb
    | 7 => freed PPP_OK dev skb
    | 8 => lcpProtRej dev skb
    | 9 => lcpEchoReq dev skb
    | 10 =>
      freed PPP_OK (if dev.echo_state = .detect then { dev with echo_state := .enable } else dev) skb
    | 11 => freed PPP_OK dev skb
    | _ => lcpUnknown dev skb

/-- An option a refusal is not read past: an unknown one, or one without a length. -/
def lcpNakStops (us1 us2 : Nat) : Bool := 19 < us1 || us2 < 2

/-- An authentication or a magic number. -/
def lcpNakTerm (_pos us1 : Nat) : Bool := us1 = 3 || us1 = 5

/-- The options of a refusal hold an authentication or a magic number. -/
def lcpNakEnds (skb : Skb) : Bool :=
  walkMeets lcpNakStops lcpNakTerm skb.mem (skb.dataLength.toNat + 1) 4 skb.dataLength

/-- The packets `lcp_input` forgets: a refusal of an authentication or of a magic number, the
answer to another request to terminate, and the refusal of IPCP. -/
def LcpForgets (dev : PppDev) (skb : Skb) : Prop :=
  (skb.num 0 = 6 ∧ skb.mem 1 ≠ dev.id) ∨
    (dev.prevstate ≠ PPPclsng ∧
      (((skb.num 0 = 3 ∨ skb.num 0 = 4) ∧ skb.mem 1 = dev.id ∧ lcpNakEnds skb = true) ∨
        (skb.num 0 = 8 ∧ skb.num16 4 = PROTipcp.toNat)))

instance (dev : PppDev) (skb : Skb) : Decidable (LcpForgets dev skb) :=
  inferInstanceAs (Decidable (_ ∨ _))

/-- The loop over the options the peer did not take leaves the function where the bytes say
so. -/
theorem lcpNak_ends (code : Byte) (rounds : Nat) (w : OptionWalk) :
    endsWithTerm (Outcome.run (lcpNakRound code) (.running w) rounds) =
      walkMeets lcpNakStops lcpNakTerm w.skb.mem rounds w.pos w.left := by
  refine endsWithTerm_run ?_ ?_ ?_ rounds w rfl
  · intro v same ends
    unfold lcpNakRound
    split
    · exact ⟨_, rfl⟩
    · next more =>
      have stops : 19 < v.skb.num v.pos ∨ v.skb.num (v.pos + 1) < 2 := by
        simpa [more, lcpNakStops, Skb.num, same] using ends
      simp only [stops, if_true]
      exact ⟨_, rfl⟩
  · intro v same goes found
    have more : ¬ v.left ≤ 0 := fun ends => goes (.inl ends)
    have steps : ¬ (19 < v.skb.num v.pos ∨ v.skb.num (v.pos + 1) < 2) := by
      simpa [more, lcpNakStops, Skb.num, same] using goes
    have term : v.skb.num v.pos = 3 ∨ v.skb.num v.pos = 5 := by
      simpa [lcpNakTerm, Skb.num, same] using found
    unfold lcpNakRound
    simp only [more, steps, term, if_true, if_false]
    exact ⟨_, rfl⟩
  · intro v same goes found
    have more : ¬ v.left ≤ 0 := fun ends => goes (.inl ends)
    have steps : ¬ (19 < v.skb.num v.pos ∨ v.skb.num (v.pos + 1) < 2) := by
      simpa [more, lcpNakStops, Skb.num, same] using goes
    have other : ¬ (v.skb.num v.pos = 3 ∨ v.skb.num v.pos = 5) := by
      simpa [lcpNakTerm, Skb.num, same] using found
    unfold lcpNakRound
    simp only [more, steps, other, if_false]
    split
    · exact ⟨_, rfl, same, by simp [Skb.num, same], by simp [Skb.num, same]⟩
    · exact ⟨_, rfl, same, by simp [Skb.num, same], by simp [Skb.num, same]⟩

theorem lcpConfNak_fates (code : Byte) (dev : PppDev) (skb : Skb) :
    (lcpConfNak code dev skb).fates =
      if skb.mem 1 = dev.id ∧ lcpNakEnds skb = true then [] else [.freed] := by
  unfold lcpConfNak
  split
  · next other => simp [other, freed]
  · next same =>
    have same : skb.mem 1 = dev.id := not_not.mp same
    have ends : endsWithTerm (Outcome.run (lcpNakRound code)
        (.running (OptionWalk.start { dev with id := dev.id + 1 } skb))
        (skb.dataLength.toNat + 1)) = lcpNakEnds skb :=
      lcpNak_ends code _ _
    have left : (OptionWalk.start { dev with id := dev.id + 1 } skb).left = skb.dataLength := rfl
    simp only [same, true_and, left, ← ends]
    cases Outcome.run (lcpNakRound code)
        (.running (OptionWalk.start { dev with id := dev.id + 1 } skb))
        (skb.dataLength.toNat + 1) with
    | running w => simp [endsWithTerm, freed]
    | returned err w => by_cases term : err = PPP_TERM <;> simp [endsWithTerm, term, forgotten, freed]

theorem lcpReqReply_fates (w : OptionWalk) : (lcpReqReply w).fates.length = 1 := by
  unfold lcpReqReply
  split
  · split <;> rfl
  · rfl

theorem lcpConfAck_fates (dev : PppDev) (skb : Skb) : (lcpConfAck dev skb).fates.length = 1 := by
  simp only [lcpConfAck]
  split
  · rfl
  · split <;> rfl

theorem lcpEchoReq_fates (dev : PppDev) (skb : Skb) : (lcpEchoReq dev skb).fates.length = 1 := by
  unfold lcpEchoReq
  split <;> rfl

theorem lcpTermAck_fates (dev : PppDev) (skb : Skb) :
    (lcpTermAck dev skb).fates = if skb.mem 1 ≠ dev.id then [] else [.freed] := by
  simp only [lcpTermAck]
  split
  · rfl
  · split
    · split <;> rfl
    · rfl

theorem lcpProtRej_fates (dev : PppDev) (skb : Skb) :
    (lcpProtRej dev skb).fates = if skb.num16 4 = PROTipcp.toNat then [] else [.freed] := by
  simp only [lcpProtRej]
  split
  · next quality =>
    have other : ¬ PROTlqp.toNat = PROTipcp.toNat := by decide
    simp [quality, other, freed]
  · split <;> rfl

/-- **`lcp_input` frees a packet or sends it back, once**, but for those it forgets. -/
theorem lcpInput_fates (dev : PppDev) (skb : Skb) :
    (lcpInput dev skb).fates.length = 1 ↔ ¬ LcpForgets dev skb := by
  simp only [lcpInput]
  by_cases closing : dev.prevstate = PPPclsng ∧ skb.num 0 ≠ 5 ∧ skb.num 0 ≠ 6
  · have kept : ¬ LcpForgets dev skb := by
      rintro (⟨ack, -⟩ | ⟨opened, -⟩)
      · exact closing.2.2 ack
      · exact opened closing.1
    simp [closing, kept, freed]
  · have opened (codes : skb.num 0 ≠ 5 ∧ skb.num 0 ≠ 6) : dev.prevstate ≠ PPPclsng :=
      fun same => closing ⟨same, codes⟩
    have mem : (skb.look 0 4).mem = skb.mem := rfl
    have num16 : (skb.look 0 4).num16 4 = skb.num16 4 := rfl
    have ends : lcpNakEnds (skb.look 0 4) = lcpNakEnds skb := rfl
    simp only [closing, if_false, LcpForgets]
    split
    all_goals rename_i code
    · simp [code, lcpConfReq, lcpReqReply_fates]
    · simp [code, lcpConfAck_fates]
    · rw [lcpConfNak_fates, mem, ends]
      by_cases forgets : skb.mem 1 = dev.id ∧ lcpNakEnds skb = true <;>
        simp [code, opened (by simp [code]), forgets]
    · rw [lcpConfNak_fates, mem, ends]
      by_cases forgets : skb.mem 1 = dev.id ∧ lcpNakEnds skb = true <;>
        simp [code, opened (by simp [code]), forgets]
    · simp [code, lcpTermReq, sent]
    · rw [lcpTermAck_fates, mem]
      by_cases other : skb.mem 1 = dev.id <;> simp [code, other]
    · simp [code, freed]
    · rw [lcpProtRej_fates, num16]
      by_cases ipcp : skb.num16 4 = PROTipcp.toNat <;> simp [code, opened (by simp [code]), ipcp]
    · simp [code, lcpEchoReq_fates]
    · simp [code, freed]
    · simp [code, freed]
    · -- none of the codes that are forgotten
      refine iff_of_true rfl ?_
      rintro (⟨code, -⟩ | ⟨-, ⟨code | code, -⟩ | ⟨code, -⟩⟩) <;> contradiction

end PosFirmware.Ppp
