import PosFirmware.IpStack.TcpConnection

/-! # Congestion control

`mss` and `cwnd` stay at least one in every run in which no connection request and no
answer to one carries an MSS option of zero, and in which no new data is acknowledged
in fast recovery while `ssthresh` is zero (`congestion_positive`). Both make one of
them zero: the first at once, the second because a fast retransmission with a closed
window halves it to `ssthresh = 0` (`cwnd_zero`).
-/

namespace PosFirmware.IpStack

open PosFirmware.Foundation

/-! ## The bounds -/

/-- The congestion window and the segment size are positive, and no window exceeds 16
bits. -/
structure CongestionKept (pcb : TcpPcb) : Prop where
  mss_pos : 1 ≤ pcb.mss.toNat
  mss_le : pcb.mss.toNat ≤ 1400
  cwnd_pos : 1 ≤ pcb.cwnd.toNat
  cwnd_le : pcb.cwnd.toNat < 2 ^ 16
  ssthresh_le : pcb.ssthresh.toNat < 2 ^ 16
  sndWnd_le : pcb.sndWnd.toNat < 2 ^ 16

namespace CongestionKept

theorem of_eq {before after : TcpPcb} (kept : CongestionKept before)
    (mss : after.mss = before.mss) (cwnd : after.cwnd = before.cwnd)
    (ssthresh : after.ssthresh = before.ssthresh) (sndWnd : after.sndWnd = before.sndWnd) :
    CongestionKept after where
  mss_pos := mss ▸ kept.mss_pos
  mss_le := mss ▸ kept.mss_le
  cwnd_pos := cwnd ▸ kept.cwnd_pos
  cwnd_le := cwnd ▸ kept.cwnd_le
  ssthresh_le := ssthresh ▸ kept.ssthresh_le
  sndWnd_le := sndWnd ▸ kept.sndWnd_le

theorem of_sendsOnly {before after : TcpPcb} (kept : CongestionKept before)
    (sends : SendsOnly before after) : CongestionKept after :=
  kept.of_eq sends.mss sends.cwnd sends.ssthresh sends.sndWnd

theorem of_receivesOnly {before after : TcpPcb} (kept : CongestionKept before)
    (receives : ReceivesOnly before after) : CongestionKept after :=
  kept.of_eq receives.mss receives.cwnd receives.ssthresh receives.sndWnd

private theorem toNat_mss (pcb : TcpPcb) : (pcb.mss.setWidth 32).toNat = pcb.mss.toNat := by
  have := pcb.mss.isLt
  rw [BitVec.toNat_setWidth, Nat.mod_eq_of_lt (by omega)]

theorem cwnd_mss {pcb : TcpPcb} (kept : CongestionKept pcb) :
    CongestionKept { pcb with cwnd := pcb.mss.setWidth 32 } where
  mss_pos := kept.mss_pos
  mss_le := kept.mss_le
  cwnd_pos := (toNat_mss pcb).symm ▸ kept.mss_pos
  cwnd_le := (toNat_mss pcb).symm ▸ by have := kept.mss_le; omega
  ssthresh_le := kept.ssthresh_le
  sndWnd_le := kept.sndWnd_le

theorem peerWindow_lt (window : BitVec 16) : (peerWindow window).toNat < 2 ^ 16 := by
  unfold peerWindow
  split <;>
  · rw [BitVec.toNat_setWidth]
    exact (Nat.mod_le _ _).trans_lt (BitVec.isLt _)

theorem updateWindow {pcb : TcpPcb} (kept : CongestionKept pcb) (seg : TcpSegment) :
    CongestionKept (updateWindow pcb seg) := by
  unfold IpStack.updateWindow
  split
  · exact { kept with sndWnd_le := peerWindow_lt _ }
  · exact kept

theorem growCwnd {pcb : TcpPcb} (kept : CongestionKept pcb) : CongestionKept (growCwnd pcb) := by
  unfold IpStack.growCwnd
  dsimp only
  have small := kept.cwnd_le
  have size := kept.mss_le
  have sum : (pcb.cwnd + pcb.mss.setWidth 32).toNat = pcb.cwnd.toNat + pcb.mss.toNat := by
    rw [BitVec.toNat_add, toNat_mss, Nat.mod_eq_of_lt (by omega)]
  split
  next fits =>
    rw [BitVec.lt_def, BitVec.toNat_setWidth, BitVec.toNat_setWidth, sum] at fits
    have positive := kept.cwnd_pos
    exact { kept with
      cwnd_pos := by rw [sum]; omega
      cwnd_le := by rw [sum]; omega }
  next => exact kept

theorem enterRecovery {pcb : TcpPcb} (kept : CongestionKept pcb) :
    CongestionKept (enterRecovery pcb) := by
  have positive := kept.mss_pos
  have size := kept.mss_le
  have cwnd := kept.cwnd_le
  have sndWnd := kept.sndWnd_le
  obtain ⟨half, threshold⟩ : ∃ half : Nat, half < 2 ^ 15 ∧
      (IpStack.enterRecovery pcb).ssthresh.toNat = half := by
    refine ⟨_, ?_, rfl⟩
    unfold IpStack.enterRecovery
    dsimp only
    split <;>
    · rw [BitVec.toNat_udiv, show (2 : BitVec 32).toNat = 2 from rfl]
      omega
  have window : (IpStack.enterRecovery pcb).cwnd.toNat = half + 3 * pcb.mss.toNat := by
    change ((IpStack.enterRecovery pcb).ssthresh + 3 * pcb.mss.setWidth 32).toNat = _
    rw [BitVec.toNat_add, BitVec.toNat_mul, toNat_mss, threshold.2,
      show (3 : BitVec 32).toNat = 3 from rfl]
    omega
  exact {
    mss_pos := positive
    mss_le := size
    cwnd_pos := by rw [window]; omega
    cwnd_le := by rw [window]; omega
    ssthresh_le := by rw [threshold.2]; omega
    sndWnd_le := sndWnd }

theorem duplicateAck {pcb : TcpPcb} (kept : CongestionKept pcb) (edge : Seq) :
    CongestionKept (duplicateAck pcb edge) := by
  have counted : CongestionKept { pcb with acked := 0, dupacks := pcb.dupacks + 1 } :=
    kept.of_eq rfl rfl rfl rfl
  unfold IpStack.duplicateAck
  dsimp only
  split
  · split
    · split
      · exact growCwnd counted
      · exact enterRecovery (counted.of_sendsOnly (tcpRexmit_sendsOnly _))
    · exact counted
  · exact kept.of_eq rfl rfl rfl rfl

theorem advanceAck {pcb : TcpPcb} (kept : CongestionKept pcb)
    (threshold : pcb.infr = true → pcb.ssthresh ≠ 0) (ack : Seq) :
    CongestionKept (advanceAck pcb ack) := by
  unfold IpStack.advanceAck
  cases inFast : pcb.infr with
  | false => exact kept.of_eq rfl rfl rfl rfl
  | true =>
      have nonzero : pcb.ssthresh.toNat ≠ 0 := fun zero =>
        threshold inFast (BitVec.eq_of_toNat_eq zero)
      exact {
        mss_pos := kept.mss_pos
        mss_le := kept.mss_le
        cwnd_pos := Nat.one_le_iff_ne_zero.mpr nonzero
        cwnd_le := kept.ssthresh_le
        ssthresh_le := kept.ssthresh_le
        sndWnd_le := kept.sndWnd_le }

theorem congestionUpdate {pcb : TcpPcb} (kept : CongestionKept pcb) :
    CongestionKept (congestionUpdate pcb) := by
  unfold IpStack.congestionUpdate
  split
  · split
    · exact growCwnd kept
    · dsimp only
      split
      next larger =>
        have positive := kept.cwnd_pos
        exact { kept with
          cwnd_pos := positive.trans (BitVec.le_of_lt larger)
          cwnd_le := by
            rw [BitVec.toNat_setWidth]
            exact (Nat.mod_le _ _).trans_lt (BitVec.isLt _) }
      next => exact kept
  · exact kept

theorem newAck {pcb : TcpPcb} (kept : CongestionKept pcb)
    (threshold : pcb.infr = true → pcb.ssthresh ≠ 0) (ack : Seq) :
    CongestionKept (newAck pcb ack) :=
  (congestionUpdate (advanceAck kept threshold ack)).of_eq rfl rfl rfl rfl

theorem rttSample {pcb : TcpPcb} (kept : CongestionKept pcb) (ticks : BitVec 32) (ack : Seq) :
    CongestionKept (rttSample ticks pcb ack) := by
  unfold IpStack.rttSample
  dsimp only
  split
  · exact kept.of_eq rfl rfl rfl rfl
  · exact kept

theorem backOff {pcb : TcpPcb} (kept : CongestionKept pcb) : CongestionKept (backOff pcb) := by
  have size := kept.mss_le
  have window : (pcb.wnd >>> 1).toNat < 2 ^ 16 := by
    rw [BitVec.toNat_ushiftRight, Nat.shiftRight_eq_div_pow]
    refine (Nat.div_le_self _ _).trans_lt ?_
    unfold TcpPcb.wnd
    split
    · exact kept.sndWnd_le
    · exact kept.cwnd_le
  refine { kept.cwnd_mss with ssthresh_le := ?_ }
  change (if pcb.wnd >>> 1 < pcb.mss.setWidth 32 then pcb.mss.setWidth 32 * 2
    else pcb.wnd >>> 1).toNat < 2 ^ 16
  split
  · rw [BitVec.toNat_mul, toNat_mss, show (2 : BitVec 32).toNat = 2 from rfl]
    omega
  · exact window

end CongestionKept

/-! ## The events that break them -/

/-- The segment's acknowledgement is taken in. -/
def TcpPcb.takesAck (pcb : TcpPcb) (seg : TcpSegment) : Prop :=
  seg.rst = false ∧ seg.hasAck = true ∧ pcb.state ≠ .closed ∧ pcb.state ≠ .listen ∧
    pcb.state ≠ .synSent ∧ pcb.state ≠ .timeWait

instance (pcb : TcpPcb) (seg : TcpSegment) : Decidable (pcb.takesAck seg) :=
  inferInstanceAs (Decidable (_ ∧ _ ∧ _ ∧ _ ∧ _ ∧ _))

/-- New data is acknowledged in fast recovery while `ssthresh` is zero. -/
def RecoversToZero (pcb : TcpPcb) (seg : TcpSegment) : Prop :=
  pcb.takesAck seg ∧ pcb.isNewAck seg.ack ∧ pcb.infr = true ∧ pcb.ssthresh = 0

instance (pcb : TcpPcb) (seg : TcpSegment) : Decidable (RecoversToZero pcb seg) :=
  inferInstanceAs (Decidable (_ ∧ _ ∧ _ ∧ _))

/-- The options carry an MSS option of zero, where the walk over them ends. -/
def CarriesMssZero (seg : TcpSegment) : Prop :=
  ∃ n c, place seg.opts (optionsLen seg.doff) n = some c ∧ (c.toNat : Int) < optionsLen seg.doff ∧
    IsMssOption seg.opts c.toNat ∧ mssValue seg.opts c.toNat = 0

/-- The answer to the connection request. -/
def TcpPcb.isSynAck (pcb : TcpPcb) (seg : TcpSegment) : Prop :=
  pcb.state = .synSent ∧ seg.rst = false ∧ seg.hasAck = true ∧ seg.syn = true ∧
    seg.ack = pcb.sndNxt

/-- The condition on the events of a run. -/
def CongestionCondition (pcb : TcpPcb) : TcpEvent → Prop
  | .input _ seg => ¬ RecoversToZero pcb seg ∧ ¬ (pcb.isSynAck seg ∧ CarriesMssZero seg)
  | _ => True

/-- The condition on the start of a connection. -/
def CongestionStart : TcpStart → Prop
  | .created .. => True
  | .listened _ seg => ¬ CarriesMssZero seg

/-! ## Events keep the bounds -/

section Events

variable {pcb : TcpPcb}

theorem parseMss_bounds {seg : TcpSegment} {mss parsed : BitVec 16} (positive : 1 ≤ mss.toNat)
    (small : mss.toNat ≤ 1400) (nonzero : ¬ CarriesMssZero seg)
    (returned : parseMss seg mss = some parsed) : 1 ≤ parsed.toNat ∧ parsed.toNat ≤ 1400 := by
  unfold parseMss at returned
  split at returned
  · cases returned
  next code s ended =>
    obtain rfl := Option.some.inj returned
    rcases tcpParseopt_mss ended with same | ⟨n, c, met, inside, option, value⟩
    · rw [same]
      exact ⟨positive, small⟩
    · rw [value]
      refine ⟨Nat.one_le_iff_ne_zero.mpr fun zero => ?_, mssValue_le _ _⟩
      exact nonzero ⟨n, c, met, inside, option, BitVec.eq_of_toNat_eq zero⟩

theorem updateWindow_isNewAck (pcb : TcpPcb) (seg : TcpSegment) (ack : Seq) :
    (updateWindow pcb seg).isNewAck ack ↔ pcb.isNewAck ack := by
  unfold updateWindow
  split <;> exact Iff.rfl

private theorem updateWindow_recovery (pcb : TcpPcb) (seg : TcpSegment) :
    (updateWindow pcb seg).infr = pcb.infr ∧ (updateWindow pcb seg).ssthresh = pcb.ssthresh := by
  unfold updateWindow
  split <;> exact ⟨rfl, rfl⟩

/-- `tcp_receive` keeps the bounds, unless new data is acknowledged in fast recovery with
`ssthresh` zero. -/
private theorem tcpReceive_congestion (kept : CongestionKept pcb) (ticks : BitVec 32)
    {seg : TcpSegment} (threshold : seg.hasAck = true → pcb.isNewAck seg.ack → pcb.infr = true →
      pcb.ssthresh ≠ 0) : CongestionKept (tcpReceive ticks pcb seg).2 := by
  unfold tcpReceive
  split
  · exact kept
  next acks =>
    refine CongestionKept.of_receivesOnly ?_ (receiveData_receivesOnly _ _)
    unfold receiveAck
    refine CongestionKept.rttSample ?_ _ _
    have window := kept.updateWindow seg
    have recovery := updateWindow_recovery pcb seg
    split
    · exact window.duplicateAck _
    · split
      next isNew =>
        refine window.newAck ?_ _
        rw [recovery.1, recovery.2]
        exact threshold (by simpa using acks) ((updateWindow_isNewAck _ _ _).mp isNew)
      next => exact window

private theorem congestion_state (kept : CongestionKept pcb) (state : TcpState) :
    CongestionKept { pcb with state := state } := kept.of_eq rfl rfl rfl rfl

private theorem enterTimeWait_congestion (kept : CongestionKept pcb) :
    CongestionKept pcb.enterTimeWait := kept.of_eq rfl rfl rfl rfl

private theorem processSynSent_congestion (kept : CongestionKept pcb) {seg : TcpSegment}
    (nonzero : seg.hasAck = true → seg.syn = true → seg.ack = pcb.sndNxt → ¬ CarriesMssZero seg)
    {flags : RecvFlags} {after : TcpPcb} (processed : processSynSent pcb seg = .ok flags after) :
    CongestionKept after := by
  unfold processSynSent at processed
  split at processed
  next accepted =>
    obtain ⟨acks, syn, expected⟩ := accepted
    dsimp only at processed
    split at processed
    · cases processed
    next mss parsed =>
      obtain ⟨-, rfl⟩ := Processed.ok.inj processed
      have established : CongestionKept (synSentEstablish pcb seg) :=
        { kept.cwnd_mss with sndWnd_le := CongestionKept.peerWindow_lt _ }
      have bounds := parseMss_bounds established.mss_pos established.mss_le
        (nonzero acks syn expected) parsed
      exact { established with mss_pos := bounds.1, mss_le := bounds.2 }
  next =>
    obtain ⟨-, rfl⟩ := Processed.ok.inj processed
    exact kept

private theorem processEstablished_congestion {ticks : BitVec 32} {seg : TcpSegment}
    (received : CongestionKept (tcpReceive ticks pcb seg).2) :
    CongestionKept (processEstablished ticks pcb seg) := by
  unfold processEstablished
  dsimp only
  split
  · exact received.of_eq rfl rfl rfl rfl
  · exact received

private theorem processFinWait1_congestion {ticks : BitVec 32} {seg : TcpSegment}
    (received : CongestionKept (tcpReceive ticks pcb seg).2) :
    CongestionKept (processFinWait1 ticks pcb seg) := by
  unfold processFinWait1
  dsimp only
  split
  · split
    · exact enterTimeWait_congestion received
    · exact received.of_eq rfl rfl rfl rfl
  · split
    · exact congestion_state received _
    · exact received

private theorem processFinWait2_congestion {ticks : BitVec 32} {seg : TcpSegment}
    (received : CongestionKept (tcpReceive ticks pcb seg).2) :
    CongestionKept (processFinWait2 ticks pcb seg) := by
  unfold processFinWait2
  dsimp only
  split
  · exact enterTimeWait_congestion received
  · exact received

private theorem processClosing_congestion {ticks : BitVec 32} {seg : TcpSegment}
    (received : CongestionKept (tcpReceive ticks pcb seg).2) :
    CongestionKept (processClosing ticks pcb seg) := by
  unfold processClosing
  dsimp only
  split
  · exact enterTimeWait_congestion received
  · exact received

private theorem processLastAck_congestion {ticks : BitVec 32} {seg : TcpSegment}
    (received : CongestionKept (tcpReceive ticks pcb seg).2) {flags : RecvFlags} {after : TcpPcb}
    (processed : processLastAck ticks pcb seg = .ok flags after) : CongestionKept after := by
  unfold processLastAck at processed
  dsimp only at processed
  split at processed <;> obtain ⟨-, rfl⟩ := Processed.ok.inj processed
  · exact congestion_state received _
  · exact received

private theorem tcpTimewaitInput_congestion (kept : CongestionKept pcb) (answers : OutputAnswers)
    (seg : TcpSegment) : CongestionKept (tcpTimewaitInput answers pcb seg) := by
  have moved : CongestionKept (if tcpSeqGt (seg.seq + BitVec.ofNat 32 seg.tcpLen) pcb.rcvNxt
      then { pcb with rcvNxt := seg.seq + BitVec.ofNat 32 seg.tcpLen } else pcb) := by
    split
    · exact kept.of_eq rfl rfl rfl rfl
    · exact kept
  unfold tcpTimewaitInput
  refine CongestionKept.of_sendsOnly ?_ (tcpOutput_sendsOnly _ _)
  split
  · exact moved.of_sendsOnly (tcpAckNow_sendsOnly _ _)
  · exact moved

private theorem inputReset_congestion (kept : CongestionKept pcb) (orphan : Bool) :
    (inputReset orphan pcb).All CongestionKept := by
  unfold inputReset
  dsimp only
  split
  · exact kept.of_eq rfl rfl rfl rfl
  · exact kept.of_eq rfl rfl rfl rfl
  · exact kept.of_eq rfl rfl rfl rfl
  · trivial

private theorem inputDone_congestion (kept : CongestionKept pcb) (answers : OutputAnswers) :
    CongestionKept (inputDone answers pcb) := by
  have told : CongestionKept { pcb with sendDataOk := pcb.sendDataOk || 0 < pcb.acked } :=
    kept.of_eq rfl rfl rfl rfl
  exact told.of_sendsOnly (tcpOutput_sendsOnly _ _)

private theorem tcpProcess_congestion (kept : CongestionKept pcb) (ticks : BitVec 32)
    (acceptErr : Int) {seg : TcpSegment} (recovers : ¬ RecoversToZero pcb seg)
    (nonzero : ¬ (pcb.isSynAck seg ∧ CarriesMssZero seg))
    {flags : RecvFlags} {after : TcpPcb}
    (processed : tcpProcess ticks acceptErr pcb seg = .ok flags after) : CongestionKept after := by
  unfold tcpProcess at processed
  split at processed
  · split at processed <;>
    · obtain ⟨-, rfl⟩ := Processed.ok.inj processed
      exact kept.of_eq rfl rfl rfl rfl
  next noReset =>
    have touched : CongestionKept (pcb.touch ticks) := kept.of_eq rfl rfl rfl rfl
    have plain : seg.rst = false := by simpa using noReset
    -- the fields that the condition reads are those of the pcb before it was touched
    have receives (state : TcpState) (active : pcb.state ≠ .closed ∧ pcb.state ≠ .listen ∧
        pcb.state ≠ .synSent ∧ pcb.state ≠ .timeWait) :
        CongestionKept (tcpReceive ticks { pcb.touch ticks with state := state } seg).2 := by
      refine tcpReceive_congestion (congestion_state touched state) ticks ?_
      intro acks isNew inFast zero
      exact recovers ⟨⟨plain, acks, active⟩, isNew, inFast, zero⟩
    have same : ({ pcb.touch ticks with state := pcb.state } : TcpPcb) = pcb.touch ticks := rfl
    dsimp only at processed
    split at processed
    next state =>
      refine processSynSent_congestion touched ?_ processed
      exact fun acks syn expected zero => nonzero ⟨⟨state, plain, acks, syn, expected⟩, zero⟩
    next state =>
      have state : pcb.state = .synRcvd := state
      unfold processSynRcvd at processed
      split at processed
      · split at processed
        · cases processed
        · obtain ⟨-, rfl⟩ := Processed.ok.inj processed
          exact (receives .established (by simp [state])).cwnd_mss
      · obtain ⟨-, rfl⟩ := Processed.ok.inj processed
        exact touched
    all_goals
      try
        obtain ⟨-, rfl⟩ := Processed.ok.inj processed
    next state =>
      have state : pcb.state = .closeWait := state
      exact processEstablished_congestion (receives pcb.state (by simp [state]))
    next state =>
      have state : pcb.state = .established := state
      exact processEstablished_congestion (receives pcb.state (by simp [state]))
    next state =>
      have state : pcb.state = .finWait1 := state
      exact processFinWait1_congestion (receives pcb.state (by simp [state]))
    next state =>
      have state : pcb.state = .finWait2 := state
      exact processFinWait2_congestion (receives pcb.state (by simp [state]))
    next state =>
      have state : pcb.state = .closing := state
      exact processClosing_congestion (receives pcb.state (by simp [state]))
    next state =>
      have state : pcb.state = .lastAck := state
      exact processLastAck_congestion (receives pcb.state (by simp [state])) processed
    all_goals exact touched

private theorem tcpInput_congestion (kept : CongestionKept pcb) (answers : InputAnswers)
    {seg : TcpSegment} (recovers : ¬ RecoversToZero pcb seg)
    (nonzero : ¬ (pcb.isSynAck seg ∧ CarriesMssZero seg)) :
    (tcpInput answers pcb seg).All CongestionKept := by
  unfold tcpInput
  split
  · exact kept
  · split
    · exact kept
    · exact kept
    · exact tcpTimewaitInput_congestion kept _ _
    · split
      · trivial
      · trivial
      next flags after processed =>
        exact inputReset_congestion (tcpProcess_congestion kept _ _ recovers nonzero processed) _
      · trivial
      next flags after processed =>
        exact inputDone_congestion (tcpProcess_congestion kept _ _ recovers nonzero processed) _

theorem tcpEnqueue_congestion (kept : CongestionKept pcb) (answers : EnqueueAnswers)
    (arg : List Byte) (syn fin : Bool) : CongestionKept (tcpEnqueue answers pcb arg syn fin).2 := by
  unfold tcpEnqueue
  dsimp only
  split
  · exact kept
  · split
    · exact kept
    · split
      · exact kept
      · exact kept.of_eq rfl rfl rfl rfl

private theorem connectPcb_congestion (pcb : TcpPcb) (iss : Seq) :
    CongestionKept (connectPcb pcb iss) where
  mss_pos := by change 1 ≤ (1400 : BitVec 16).toNat; decide
  mss_le := by change (1400 : BitVec 16).toNat ≤ 1400; decide
  cwnd_pos := by change 1 ≤ (1 : BitVec 32).toNat; decide
  cwnd_le := by change (1 : BitVec 32).toNat < 2 ^ 16; decide
  ssthresh_le := by change (14000 : BitVec 32).toNat < 2 ^ 16; decide
  sndWnd_le := by change (14000 : BitVec 32).toNat < 2 ^ 16; decide

private theorem tcpConnect_congestion (kept : CongestionKept pcb) (answers : ConnectAnswers) :
    CongestionKept (tcpConnect answers pcb).2 := by
  have queued := tcpEnqueue_congestion (connectPcb_congestion pcb answers.iss) answers.enqueue []
    true false
  unfold tcpConnect
  dsimp only
  split
  · exact kept
  · split
    · exact kept
    · split
      · exact queued.of_sendsOnly (tcpOutput_sendsOnly _ _)
      · exact congestion_state queued _

private theorem tcpWrite_congestion (kept : CongestionKept pcb) (answers : WriteAnswers)
    (arg : List Byte) : CongestionKept (tcpWrite answers pcb arg).2 := by
  have queued := tcpEnqueue_congestion (kept.of_sendsOnly (rexmitAckFirst_sendsOnly answers.ack pcb))
    answers.enqueue arg false false
  unfold tcpWrite
  dsimp only
  split
  · split
    · exact kept
    · split
      · exact kept
      · split
        · exact queued.of_sendsOnly (tcpOutput_sendsOnly _ _)
        · exact queued
  · split <;> exact kept

private theorem closeWith_congestion (kept : CongestionKept pcb) (answers : CloseAnswers)
    (next : TcpState) : CongestionKept (closeWith answers pcb next).2 := by
  have queued := congestion_state (tcpEnqueue_congestion kept answers.enqueue [] false true) next
  unfold closeWith
  dsimp only
  split
  · exact queued.of_sendsOnly (tcpOutput_sendsOnly _ _)
  · exact queued

private theorem tcpClose_congestion (kept : CongestionKept pcb) (answers : CloseAnswers) :
    (tcpClose answers pcb).2.All CongestionKept := by
  unfold tcpClose
  split
  · trivial
  · trivial
  · trivial
  · trivial
  · exact closeWith_congestion kept _ _
  · split
    · trivial
    · exact closeWith_congestion kept _ _
  · exact kept

private theorem tcpRecvData_congestion (kept : CongestionKept pcb) (answers : OutputAnswers)
    (size : Nat) : CongestionKept (tcpRecvData answers pcb size) := by
  have taken : CongestionKept (readIncoming pcb size) := kept.of_eq rfl rfl rfl rfl
  have opened (len : Nat) : CongestionKept (openWindow (readIncoming pcb size) len) :=
    taken.of_eq rfl rfl rfl rfl
  unfold tcpRecvData
  dsimp only
  split
  · exact taken
  · exact (opened _).of_sendsOnly (tcpRecved_sendsOnly _ _ _)

private theorem rexmitTimer_congestion (kept : CongestionKept pcb) (answers : TimerAnswers) :
    CongestionKept (rexmitTimer answers pcb) := by
  have counted : CongestionKept { pcb with rtime := pcb.rtime + 1 } := kept.of_eq rfl rfl rfl rfl
  unfold rexmitTimer
  split
  · exact counted.backOff.of_sendsOnly (tcpRexmitRto_sendsOnly _ _ _)
  · exact counted

private theorem keepaliveTimer_congestion (kept : CongestionKept pcb) (ticks : BitVec 32) :
    CongestionKept (keepaliveTimer ticks pcb) := by
  unfold keepaliveTimer
  split
  · exact kept.of_eq rfl rfl rfl rfl
  · exact kept

private theorem tcpSlowtmrActive_congestion (kept : CongestionKept pcb) (answers : TimerAnswers) :
    (tcpSlowtmrActive answers pcb).All CongestionKept := by
  have timed : CongestionKept (if rexmitGivenUp pcb = none then rexmitTimer answers pcb else pcb) := by
    split
    · exact rexmitTimer_congestion kept answers
    · exact kept
  unfold tcpSlowtmrActive
  dsimp only
  revert timed
  generalize (if rexmitGivenUp pcb = none then rexmitTimer answers pcb else pcb) = after
  intro timed
  split
  · trivial
  · split
    · exact timed.of_eq rfl rfl rfl rfl
    · split
      · exact timed.of_eq rfl rfl rfl rfl
      · exact (keepaliveTimer_congestion timed _).of_sendsOnly (tcpOutput_sendsOnly _ _)

private theorem tcpSlowtmr_congestion (kept : CongestionKept pcb) (answers : TimerAnswers) :
    (tcpSlowtmr answers pcb).All CongestionKept := by
  unfold tcpSlowtmr
  split
  · exact kept
  · exact kept
  · split
    · trivial
    · exact kept
  · exact tcpSlowtmrActive_congestion kept answers

private theorem tcpFasttmr_congestion (kept : CongestionKept pcb) (answers : OutputAnswers) :
    CongestionKept (tcpFasttmr answers pcb) := by
  unfold tcpFasttmr
  split
  · exact kept
  · exact kept
  · exact kept
  · split
    · exact (kept.of_sendsOnly (tcpAckNow_sendsOnly answers pcb)).of_eq rfl rfl rfl rfl
    · exact kept

private theorem pcbStep_congestion (pcb : TcpPcb) (event : TcpEvent) (kept : CongestionKept pcb)
    (within : CongestionCondition pcb event) : (pcbStep pcb event).All CongestionKept := by
  cases event with
  | connect answers => exact tcpConnect_congestion kept answers
  | write answers data => exact tcpWrite_congestion kept answers data.val
  | close answers => exact tcpClose_congestion kept answers
  | recvData answers size => exact tcpRecvData_congestion kept answers size
  | input answers seg => exact tcpInput_congestion kept answers within.1 within.2
  | slowtmr answers => exact tcpSlowtmr_congestion kept answers
  | fasttmr answers => exact tcpFasttmr_congestion kept answers
  | linkChange err =>
      simp only [pcbStep, tcpLinkChangeNotify, TcpConn.All]
      split
      · exact kept.of_eq rfl rfl rfl rfl
      · exact kept
  | setKeepalive on keepalive => exact kept.of_eq rfl rfl rfl rfl

private theorem tcpAlloc_congestion (iss : Seq) (ticks : BitVec 32) :
    CongestionKept (tcpAlloc iss ticks) where
  mss_pos := by change 1 ≤ (1400 : BitVec 16).toNat; decide
  mss_le := by change (1400 : BitVec 16).toNat ≤ 1400; decide
  cwnd_pos := by change 1 ≤ (1 : BitVec 32).toNat; decide
  cwnd_le := by change (1 : BitVec 32).toNat < 2 ^ 16; decide
  ssthresh_le := by change (0 : BitVec 32).toNat < 2 ^ 16; decide
  sndWnd_le := by change (0 : BitVec 32).toNat < 2 ^ 16; decide

private theorem start_congestion {start : TcpStart} (within : CongestionStart start) :
    start.conn.All CongestionKept := by
  cases start with
  | created iss ticks => exact tcpAlloc_congestion iss ticks
  | listened answers seg =>
      simp only [TcpStart.conn, tcpListenInput]
      split
      · trivial
      · have alloc := tcpAlloc_congestion answers.iss answers.ticks
        have window : (seg.window.setWidth 32).toNat < 2 ^ 16 := by
          rw [BitVec.toNat_setWidth]
          exact (Nat.mod_le _ _).trans_lt seg.window.isLt
        have created : CongestionKept (synRcvdPcb answers seg) :=
          { alloc with ssthresh_le := window, sndWnd_le := window }
        split
        · trivial
        next mss parsed =>
          have bounds := parseMss_bounds created.mss_pos created.mss_le within parsed
          have sized : CongestionKept { synRcvdPcb answers seg with mss := mss } :=
            { created with mss_pos := bounds.1, mss_le := bounds.2 }
          split
          · exact (tcpEnqueue_congestion sized _ _ _ _).of_sendsOnly (tcpOutput_sendsOnly _ _)
          · trivial

end Events

/-! ## The arithmetic that rests on them -/

theorem enqueueLoop_data {alloc : Nat → Bool} {mss : BitVec 16} (positive : 1 ≤ mss.toNat)
    (room round : Nat) (left : List Byte) (seqno : Seq) :
    ∀ seg ∈ (enqueueLoop alloc mss room round left false false seqno).1, seg.data ≠ [] := by
  induction room generalizing round left seqno with
  | zero => simp [enqueueLoop]
  | succ room past =>
      rw [enqueueLoop]
      split
      · simp
      next more =>
        have nonempty : left ≠ [] := fun empty => more ⟨empty, rfl, rfl⟩
        split
        · rintro seg member
          rcases List.mem_cons.mp member with rfl | later
          · have long := List.length_pos_iff.mpr nonempty
            rw [Ne, ← List.length_eq_zero_iff, List.length_take]
            omega
          · exact past _ _ _ seg later
        · simp

/-- What the bounds are for: both are at least one, the window that `tcp_receive` divides
by is not zero, and no pass of `tcp_enqueue` appends an empty segment. -/
structure ArithmeticDefined (pcb : TcpPcb) : Prop where
  mss : 1 ≤ pcb.mss.toNat
  cwnd : 1 ≤ pcb.cwnd.toNat
  divides : ∀ seg, pcb.takesAck seg → pcb.isNewAck seg.ack → ¬ RecoversToZero pcb seg →
    (advanceAck (updateWindow pcb seg) seg.ack).cwnd ≠ 0
  appends : ∀ alloc room round left seqno,
    ∀ seg ∈ (enqueueLoop alloc pcb.mss room round left false false seqno).1, seg.data ≠ []

/-- **The arithmetic of a connection in runs that meet the condition.** The segment size
and the congestion window are positive in every state. -/
theorem congestion_positive {start : TcpStart} {events : List TcpEvent}
    (first : CongestionStart start)
    (meets : Meets tcpStep (onPcb CongestionCondition) start.conn events) :
    (tcpRun start events).All ArithmeticDefined := by
  have kept := tcpRun_keeps pcbStep_congestion (start_congestion first) meets
  cases ended : tcpRun start events with
  | live pcb =>
      rw [ended] at kept
      refine ⟨kept.mss_pos, kept.cwnd_pos, fun seg takes isNew fine zero => ?_, ?_⟩
      · have recovery := updateWindow_recovery pcb seg
        have threshold : (updateWindow pcb seg).infr = true → (updateWindow pcb seg).ssthresh ≠ 0 := by
          rw [recovery.1, recovery.2]
          exact fun inFast empty => fine ⟨takes, isNew, inFast, empty⟩
        have positive := (CongestionKept.advanceAck (CongestionKept.updateWindow kept seg)
          threshold seg.ack).cwnd_pos
        rw [zero] at positive
        exact absurd positive (by decide)
      · exact fun _ => enqueueLoop_data kept.mss_pos
  | freed => trivial
  | hung => trivial

/-! ## A window that closes -/

/-- A connection is established, and one byte is sent. -/
def oneByteSent : List TcpEvent :=
  [.connect ⟨true, 1000, readyEnqueue, readyOutput⟩,
    .input readyInput (plainSegment 5000 1000 true 8000),
    .write ⟨readyOutput, readyEnqueue, readyOutput⟩ ⟨[7], by decide⟩]

/-- Then the peer closes its window, and acknowledges nothing three times more. -/
def windowClosed : List TcpEvent :=
  oneByteSent ++ List.replicate 4 (.input readyInput (plainSegment 5001 1000 false 0))

/-- The condition on runs whose segments have no options. -/
private def PlainCondition (pcb : TcpPcb) : TcpEvent → Prop
  | .input _ seg => ¬ RecoversToZero pcb seg ∧ seg.doff = 5
  | _ => True

private instance (conn : TcpConn) : (event : TcpEvent) → Decidable (onPcb PlainCondition conn event)
  | .input .. =>
      inferInstanceAs (Decidable (conn.All fun pcb => ¬ RecoversToZero pcb _ ∧ _))
  | .connect _ | .write .. | .close _ | .recvData .. | .slowtmr _ | .fasttmr _ | .linkChange _
  | .setKeepalive .. => inferInstanceAs (Decidable (conn.All fun _ => True))

private theorem congestion_of_plain (conn : TcpConn) (event : TcpEvent)
    (plain : onPcb PlainCondition conn event) : onPcb CongestionCondition conn event := by
  cases conn with
  | live pcb =>
      cases event with
      | input answers seg =>
          refine ⟨plain.1, fun ⟨_, n, c, _, inside, _⟩ => ?_⟩
          rw [optionsLen, plain.2] at inside
          simp [TCP_HLEN] at inside
          omega
      | _ => trivial
  | freed => trivial
  | hung => trivial

/-- The arithmetic is defined while the window closes. -/
theorem congestion_positive_windowClosed :
    (tcpRun (.created 100 0) windowClosed).All ArithmeticDefined :=
  congestion_positive trivial (Meets.mono congestion_of_plain (by decide +kernel))

/-- **A congestion window of zero.** The byte is acknowledged in fast recovery, where
`ssthresh` is half of the closed window. -/
theorem cwnd_zero :
    ¬ ∀ (start : TcpStart) (events : List TcpEvent),
      (tcpRun start events).All fun pcb => 1 ≤ pcb.mss.toNat ∧ 1 ≤ pcb.cwnd.toNat := by
  intro always
  exact absurd (always (.created 100 0)
    (windowClosed ++ [.input readyInput (plainSegment 5001 1001 false 0)])) (by decide +kernel)

end PosFirmware.IpStack
