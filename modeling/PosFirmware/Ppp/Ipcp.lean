import PosFirmware.Ppp.Packet

/-!
# IPCP

`ipcp_input`: the addresses of both ends and of the name servers. `ipcpInput_fates` says which
packets are neither freed nor sent back.
-/

namespace PosFirmware.Ppp

open PosFirmware.Foundation

/-- The four bytes of an address, one over the other. -/
def orBytes (skb : Skb) (i : Nat) : Byte :=
  skb.mem i ||| skb.mem (i + 1) ||| skb.mem (i + 2) ||| skb.mem (i + 3)

/-- `IPCPopt_IPAD` of a request. -/
def ipcpAddress (us2 : Nat) (w : OptionWalk) : OptionWalk :=
  let asked := w.skb.word (w.pos + 2)
  let zero := orBytes w.skb (w.pos + 2) = 0
  let w := { w with skb := w.skb.look (w.pos + 2) 4 }
  if zero then
    if w.dev.remote_addr ≠ 0 then
      { w with skb := w.skb.poke (w.pos + 2) (wordBytes w.dev.remote_addr) }.nak us2
    else w.rej us2
  else if asked ≠ w.dev.remote_addr then { w with dev := { w.dev with remote_addr := asked } }
  else w

/-- A round of the loop over the options of a request. -/
def ipcpReqRound (w : OptionWalk) : Outcome OptionWalk :=
  if w.left ≤ 0 then .returned PPP_OK w
  else
    let us1 := w.skb.num w.pos
    let us2 := w.skb.num (w.pos + 1)
    let w := { w with skb := w.skb.look w.pos 2 }
    if us2 < 2 then .returned PPP_OK w
    else
      let w := { w with left := w.left - us2 }
      let w := if us1 = 3 then ipcpAddress us2 w else w.rej us2
      .running { w with pos := w.pos + us2 }

/-- The loop over the options of a request. -/
def ipcpReqOptions (dev : PppDev) (skb : Skb) : OptionWalk :=
  let start := OptionWalk.start dev skb
  (Outcome.run ipcpReqRound (.running start) (start.left.toNat + 1)).state

/-- The state after a reply, but for a link that is closing. -/
def ipcpReplyState (dev : PppDev) (state : Word) : PppDev :=
  if dev.state ≠ PPPclsng then { dev with state } else dev

/-- The reply to a request: the options to be left out, else those to be changed, else all. -/
def ipcpReqReply (w : OptionWalk) : Handled :=
  if 0 < w.rejlen ∨ 0 < w.naklen then
    let dev := ipcpReplyState w.dev (w.dev.state &&& ~~~(IPCPrxREQ ||| IPCPtxACK))
    if 0 < w.rejlen then
      sent PPP_OK PROTipcp dev ((((w.skb.poke 0 [4]).reply naklimit w.rejlen).trim
        (w.rejlen + 4)).setLength (w.rejlen + 4))
    else
      sent PPP_OK PROTipcp dev ((((w.skb.poke 0 [3]).reply 0 w.naklen).trim
        (w.naklen + 4)).setLength (w.naklen + 4))
  else
    let dev := ipcpReplyState w.dev (w.dev.state ||| IPCPrxREQ ||| IPCPtxACK)
    let dev := if dev.state = PPPopen then pppInetUp dev else dev
    sent PPP_OK PROTipcp dev (w.skb.poke 0 [2])

/-- `IPCPconf_req`; authentication is no longer waited for. -/
def ipcpConfReq (dev : PppDev) (skb : Skb) : Handled :=
  let dev := if dev.auth_state = 0 then { dev with auth_state := 1 } else dev
  ipcpReqReply (ipcpReqOptions dev skb)

/-- `IPCPconf_ack`. -/
def ipcpConfAck (dev : PppDev) (skb : Skb) : Handled :=
  let prevstate := dev.prevstate
  if skb.mem 1 ≠ dev.id ∨ ¬ anyBit prevstate IPCPtxREQ then forgotten PPP_REJ dev skb
  else
    let dev := if anyBit prevstate IPCPrxACK then { dev with state := LCPopen }
      else { dev with state := dev.state ||| IPCPrxACK, counter := MAXCONF + 1 }
    freed PPP_OK (if dev.state = PPPopen then pppInetUp dev else dev) skb

/-- A name server of a refusal: the address suggested, or none any more. -/
def suggested (code : Byte) (skb : Skb) (pos : Nat) : Option Word :=
  if orBytes skb (pos + 2) = 0 ∨ orBytes skb (pos + 2) = 1 ∨ code = 4 then none
  else some (skb.word (pos + 2))

/-- `IPCPopt_DNSP` of a refusal. -/
def ipcpPrimary (code : Byte) (w : OptionWalk) : PppDev :=
  match suggested code w.skb w.pos with
  | none => { w.dev with ipopts := w.dev.ipopts &&& ~~~IPCP_DNSP }
  | some address => { w.dev with primary_dns := address }

/-- `IPCPopt_DNSS` of a refusal. -/
def ipcpSecond (code : Byte) (w : OptionWalk) : PppDev :=
  match suggested code w.skb w.pos with
  | none => { w.dev with ipopts := w.dev.ipopts &&& ~~~IPCP_DNSS }
  | some address => { w.dev with second_dns := address }

/-- A round of the loop over the options the peer did not take. -/
def ipcpNakRound (code : Byte) (w : OptionWalk) : Outcome OptionWalk :=
  if w.left ≤ 0 then .returned PPP_OK w
  else
    let us1 := w.skb.num w.pos
    let us2 := w.skb.num (w.pos + 1)
    let w := { w with skb := w.skb.look w.pos 2 }
    if us2 < 2 then .returned PPP_OK w
    else
      let w := { w with left := w.left - us2 }
      let next := w.pos + us2
      if us1 = 3 then
        let zero := orBytes w.skb (w.pos + 2) = 0
        let address := w.skb.word (w.pos + 2)
        let w := { w with skb := w.skb.look (w.pos + 2) 4 }
        if zero then .returned PPP_TERM w
        else .running { w with dev := { w.dev with local_addr := address }, pos := next }
      else if us1 = 129 then
        .running { w with skb := w.skb.look (w.pos + 2) 4, dev := ipcpPrimary code w, pos := next }
      else if us1 = 131 then
        .running { w with skb := w.skb.look (w.pos + 2) 4, dev := ipcpSecond code w, pos := next }
      else .running { w with pos := next }

/-- `IPCPconf_nak` and `IPCPconf_rej`. -/
def ipcpConfNak (code : Byte) (dev : PppDev) (skb : Skb) : Handled :=
  if skb.mem 1 ≠ dev.id then freed PPP_REJ dev skb
  else
    let prevstate := dev.prevstate
    let start := OptionWalk.start { dev with id := dev.id + 1 } skb
    match Outcome.run (ipcpNakRound code) (.running start) (start.left.toNat + 1) with
    | .returned err w =>
      if err = PPP_TERM then forgotten PPP_TERM w.dev w.skb
      else
        let dev := if anyBit prevstate IPCPrxACK then { w.dev with state := LCPopen }
          else { w.dev with
            counter := MAXCONF, state := w.dev.state &&& ~~~(IPCPtxREQ ||| IPCPrxACK) }
        freed PPP_OK dev w.skb
    | .running w => freed PPP_OK w.dev w.skb

/-- `IPCPterm_req`. -/
def ipcpTermReq (dev : PppDev) (skb : Skb) : Handled :=
  let dev := if has dev.prevstate IPCPopen then { dev with counter := 0, state := LCPopen }
    else { dev with state := LCPopen ||| IPCPtxREQ }
  sent PPP_OK PROTipcp dev (skb.poke 0 [6])

/-- `IPCPterm_ack`. -/
def ipcpTermAck (dev : PppDev) (skb : Skb) : Handled :=
  if skb.mem 1 ≠ dev.id then freed PPP_REJ dev skb
  else if has dev.prevstate IPCPopen then freed PPP_REJ { dev with state := LCPopen } skb
  else freed PPP_REJ { dev with state := dev.state &&& ~~~IPCPrxACK } skb

/-- `ipcp_input`. -/
def ipcpInput (dev : PppDev) (skb : Skb) : Handled :=
  let us1 := skb.num 0
  let skb := skb.look 0 4
  match us1 with
  | 1 => ipcpConfReq dev skb
  | 2 => ipcpConfAck dev skb
  | 3 => ipcpConfNak 3 dev skb
  | 4 => ipcpConfNak 4 dev skb
  | 5 => ipcpTermReq dev skb
  | 6 => ipcpTermAck dev skb
  | _ => freed PPP_REJ dev skb

/-- An option a refusal is not read past. -/
def ipcpNakStops (_us1 us2 : Nat) : Bool := us2 < 2

/-- An address of zero. -/
def ipcpNakTerm (skb : Skb) (pos us1 : Nat) : Bool := us1 = 3 && orBytes skb (pos + 2) = 0

/-- The options of a refusal hold an address of zero. -/
def ipcpNakEnds (skb : Skb) : Bool :=
  walkMeets ipcpNakStops (ipcpNakTerm skb) skb.mem (skb.dataLength.toNat + 1) 4 skb.dataLength

/-- The packets `ipcp_input` forgets: a refusal with an address of zero, and an acknowledgement
of another request or of none. -/
def IpcpForgets (dev : PppDev) (skb : Skb) : Prop :=
  (skb.num 0 = 2 ∧ (skb.mem 1 ≠ dev.id ∨ ¬ anyBit dev.prevstate IPCPtxREQ)) ∨
    ((skb.num 0 = 3 ∨ skb.num 0 = 4) ∧ skb.mem 1 = dev.id ∧ ipcpNakEnds skb = true)

instance (dev : PppDev) (skb : Skb) : Decidable (IpcpForgets dev skb) :=
  inferInstanceAs (Decidable (_ ∨ _))

/-- The loop over the options the peer did not take leaves the function where the bytes say
so. -/
theorem ipcpNak_ends (code : Byte) (rounds : Nat) (w : OptionWalk) :
    endsWithTerm (Outcome.run (ipcpNakRound code) (.running w) rounds) =
      walkMeets ipcpNakStops (ipcpNakTerm w.skb) w.skb.mem rounds w.pos w.left := by
  have bytes {v : OptionWalk} (same : v.skb.mem = w.skb.mem) (i : Nat) :
      orBytes v.skb i = orBytes w.skb i := by simp only [orBytes, same]
  refine endsWithTerm_run ?_ ?_ ?_ rounds w rfl
  · intro v same ends
    unfold ipcpNakRound
    split
    · exact ⟨_, rfl⟩
    · next more =>
      have stops : v.skb.num (v.pos + 1) < 2 := by
        simpa [more, ipcpNakStops, Skb.num, same] using ends
      simp only [stops, if_true]
      exact ⟨_, rfl⟩
  · intro v same goes found
    have more : ¬ v.left ≤ 0 := fun ends => goes (.inl ends)
    have steps : ¬ v.skb.num (v.pos + 1) < 2 := by
      simpa [more, ipcpNakStops, Skb.num, same] using goes
    have term : v.skb.num v.pos = 3 ∧ orBytes (v.skb.look v.pos 2) (v.pos + 2) = 0 := by
      have found : (w.skb.mem v.pos).toNat = 3 ∧ orBytes w.skb (v.pos + 2) = 0 := by
        simpa [ipcpNakTerm] using found
      have looked : orBytes (v.skb.look v.pos 2) (v.pos + 2) = orBytes v.skb (v.pos + 2) := rfl
      rw [looked, bytes same]
      simpa [Skb.num, same] using found
    unfold ipcpNakRound
    simp only [more, steps, term.1, term.2, if_true, if_false]
    exact ⟨_, rfl⟩
  · intro v same goes found
    have more : ¬ v.left ≤ 0 := fun ends => goes (.inl ends)
    have steps : ¬ v.skb.num (v.pos + 1) < 2 := by
      simpa [more, ipcpNakStops, Skb.num, same] using goes
    have others : v.skb.num v.pos = 3 → orBytes (v.skb.look v.pos 2) (v.pos + 2) ≠ 0 := by
      have looked : orBytes (v.skb.look v.pos 2) (v.pos + 2) = orBytes v.skb (v.pos + 2) := rfl
      rw [looked, bytes same]
      simpa [ipcpNakTerm, Skb.num, same] using found
    have here : v.skb.num (v.pos + 1) = (w.skb.mem (v.pos + 1)).toNat := by rw [Skb.num, same]
    unfold ipcpNakRound
    simp only [more, steps, if_false]
    split
    · next address =>
      simp only [others address, if_false]
      exact ⟨_, rfl, same, by simp [here], by simp [here]⟩
    · split
      · exact ⟨_, rfl, same, by simp [here], by simp [here]⟩
      · split <;> exact ⟨_, rfl, same, by simp [here], by simp [here]⟩

theorem ipcpConfNak_fates (code : Byte) (dev : PppDev) (skb : Skb) :
    (ipcpConfNak code dev skb).fates =
      if skb.mem 1 = dev.id ∧ ipcpNakEnds skb = true then [] else [.freed] := by
  unfold ipcpConfNak
  split
  · next other => simp [other, freed]
  · next same =>
    have same : skb.mem 1 = dev.id := not_not.mp same
    have ends : endsWithTerm (Outcome.run (ipcpNakRound code)
        (.running (OptionWalk.start { dev with id := dev.id + 1 } skb))
        (skb.dataLength.toNat + 1)) = ipcpNakEnds skb :=
      ipcpNak_ends code _ _
    have left : (OptionWalk.start { dev with id := dev.id + 1 } skb).left = skb.dataLength := rfl
    simp only [same, true_and, left, ← ends]
    cases Outcome.run (ipcpNakRound code)
        (.running (OptionWalk.start { dev with id := dev.id + 1 } skb))
        (skb.dataLength.toNat + 1) with
    | running w => simp [endsWithTerm, freed]
    | returned err w => by_cases term : err = PPP_TERM <;> simp [endsWithTerm, term, forgotten, freed]

theorem ipcpReqReply_fates (w : OptionWalk) : (ipcpReqReply w).fates.length = 1 := by
  simp only [ipcpReqReply]
  split
  · split <;> rfl
  · rfl

theorem ipcpConfAck_fates (dev : PppDev) (skb : Skb) :
    (ipcpConfAck dev skb).fates =
      if skb.mem 1 ≠ dev.id ∨ ¬ anyBit dev.prevstate IPCPtxREQ then [] else [.freed] := by
  simp only [ipcpConfAck]
  split <;> rfl

theorem ipcpTermAck_fates (dev : PppDev) (skb : Skb) : (ipcpTermAck dev skb).fates.length = 1 := by
  unfold ipcpTermAck
  split
  · rfl
  · split <;> rfl

/-- **`ipcp_input` frees a packet or sends it back, once**, but for those it forgets. -/
theorem ipcpInput_fates (dev : PppDev) (skb : Skb) :
    (ipcpInput dev skb).fates.length = 1 ↔ ¬ IpcpForgets dev skb := by
  have mem : (skb.look 0 4).mem = skb.mem := rfl
  have ends : ipcpNakEnds (skb.look 0 4) = ipcpNakEnds skb := rfl
  simp only [ipcpInput, IpcpForgets]
  split
  all_goals rename_i code
  · simp [code, ipcpConfReq, ipcpReqReply_fates]
  · rw [ipcpConfAck_fates, mem]
    by_cases other : skb.mem 1 ≠ dev.id ∨ ¬ anyBit dev.prevstate IPCPtxREQ
    · simp only [other, if_true, code, true_and, true_or, not_true, iff_false]
      simp
    · simp only [other, if_false, code, true_and, false_or]
      simp
  · rw [ipcpConfNak_fates, mem, ends]
    by_cases forgets : skb.mem 1 = dev.id ∧ ipcpNakEnds skb = true <;> simp [code, forgets]
  · rw [ipcpConfNak_fates, mem, ends]
    by_cases forgets : skb.mem 1 = dev.id ∧ ipcpNakEnds skb = true <;> simp [code, forgets]
  · simp [code, ipcpTermReq, sent]
  · simp [code, ipcpTermAck_fates]
  · -- none of the codes that are forgotten
    refine iff_of_true rfl ?_
    rintro (⟨code, -⟩ | ⟨code | code, -⟩) <;> contradiction

end PosFirmware.Ppp
