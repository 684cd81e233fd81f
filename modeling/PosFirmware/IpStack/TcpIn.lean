import PosFirmware.IpStack.TcpOut

/-! # TCP input

The functions of `tcp_in.c` for one connection: `tcpReceive` takes in an acknowledgement
and the data of a segment, `tcpProcess` is the state machine around it, and `tcpInput`
and `tcpListenInput` are what a segment does to a connection and to a listener. While
the input of a pcb is processed `tcp_output` returns at once, so that acknowledgements
are only asked for there.
-/

namespace PosFirmware.IpStack

/-- A segment as it was received. `opts` is the memory after its fixed header. -/
structure TcpSegment where
  seq : Seq
  ack : Seq
  hasAck : Bool
  syn : Bool
  fin : Bool
  rst : Bool
  window : BitVec 16
  doff : BitVec 4
  opts : Nat → Byte
  data : List Byte
  /-- A packet fits a buffer. -/
  fits : data.length ≤ 1518

/-- `tcplen`. -/
def TcpSegment.tcpLen (seg : TcpSegment) : Nat := seg.data.length + seg.fin.toNat + seg.syn.toNat

/-- The number of the state is at least that of `ESTABLISHED`. -/
def TcpPcb.isOpen (pcb : TcpPcb) : Prop := TcpState.established.number ≤ pcb.state.number

instance (pcb : TcpPcb) : Decidable pcb.isOpen := inferInstanceAs (Decidable (_ ≤ _))

/-! ## Acknowledgements -/

/-- A window smaller than `TCP_MSS`, but not zero, counts as `TCP_MSS`. -/
def peerWindow (window : BitVec 16) : BitVec 32 :=
  if window < TCP_MSS ∧ 0 < window then TCP_MSS.setWidth 32 else window.setWidth 32

/-- The window update of `tcp_receive`. -/
def updateWindow (pcb : TcpPcb) (seg : TcpSegment) : TcpPcb :=
  if tcpSeqLt pcb.sndWl1 seg.seq ∨ pcb.sndWl1 = seg.seq ∧ tcpSeqLt pcb.sndWl2 seg.ack ∨
      pcb.sndWl2 = seg.ack ∧ pcb.sndWnd < seg.window.setWidth 32 then
    { pcb with sndWnd := peerWindow seg.window, sndWl1 := seg.seq, sndWl2 := seg.ack }
  else pcb

/-- The congestion window grows by a segment, if that does not overflow 16 bits. -/
def growCwnd (pcb : TcpPcb) : TcpPcb :=
  let grown := pcb.cwnd + pcb.mss.setWidth 32
  if pcb.cwnd < (grown.setWidth 16).setWidth 32 then { pcb with cwnd := grown } else pcb

/-- The windows after a fast retransmission. -/
def enterRecovery (pcb : TcpPcb) : TcpPcb :=
  let ssthresh := if pcb.sndWnd < pcb.cwnd then pcb.sndWnd / 2 else pcb.cwnd / 2
  { pcb with ssthresh := ssthresh, cwnd := ssthresh + 3 * pcb.mss.setWidth 32, infr := true }

/-- An acknowledgement of nothing new. `edge` is the right edge of the window before the
window update. -/
def duplicateAck (pcb : TcpPcb) (edge : Seq) : TcpPcb :=
  let pcb := { pcb with acked := 0 }
  if pcb.sndWl1 + pcb.sndWnd = edge then
    let pcb := { pcb with dupacks := pcb.dupacks + 1 }
    if 3 ≤ pcb.dupacks ∧ pcb.unacked ≠ [] then
      if pcb.infr then growCwnd pcb else enterRecovery (tcpRexmit pcb)
    else pcb
  else pcb

/-- New data is acknowledged: `TF_INFR` is left, and the send variables move on. -/
def advanceAck (pcb : TcpPcb) (ack : Seq) : TcpPcb :=
  { pcb with
    infr := false
    cwnd := if pcb.infr then pcb.ssthresh else pcb.cwnd
    nrtx := 0
    rto := pcb.sa.sshiftRight 3 + pcb.sv
    acked := ack - pcb.lastack
    sndBuf := pcb.sndBuf + (ack - pcb.lastack)
    dupacks := 0
    lastack := ack
    sndNxt := ack }

/-- Slow start and congestion avoidance. -/
def congestionUpdate (pcb : TcpPcb) : TcpPcb :=
  if pcb.isOpen then
    if pcb.cwnd < pcb.ssthresh then growCwnd pcb
    else
      let mss := pcb.mss.setWidth 32
      let newCwnd := ((pcb.cwnd + mss * mss / pcb.cwnd).setWidth 16).setWidth 32
      if pcb.cwnd < newCwnd then { pcb with cwnd := newCwnd } else pcb
  else pcb

/-- The segments of a queue without the acknowledged ones at its head. -/
def dropAcked (queue : List Segment) (ack : Seq) : List Segment :=
  queue.dropWhile fun seg => ¬ tcpSeqGt seg.next ack

/-- An acknowledgement of new data. -/
def newAck (pcb : TcpPcb) (ack : Seq) : TcpPcb :=
  let pcb := congestionUpdate (advanceAck pcb ack)
  { pcb with unacked := dropAcked pcb.unacked ack, unsent := dropAcked pcb.unsent ack }

/-- The estimate of the round trip time. -/
def rttSample (ticks : BitVec 32) (pcb : TcpPcb) (ack : Seq) : TcpPcb :=
  if pcb.rttest ≠ 0 ∧ tcpSeqLt pcb.rtseq ack then
    let m := (ticks - pcb.rttest).setWidth 16 - pcb.sa.sshiftRight 3
    let sa := pcb.sa + m
    let m := (if m.toInt < 0 then -m else m) - pcb.sv.sshiftRight 2
    let sv := pcb.sv + m
    { pcb with sa := sa, sv := sv, rto := sa.sshiftRight 3 + sv, rttest := 0 }
  else pcb

/-- The acknowledgement acknowledges new data. -/
def TcpPcb.isNewAck (pcb : TcpPcb) (ack : Seq) : Prop :=
  pcb.lastack ≠ ack ∧ tcpSeqBetween ack (pcb.lastack + 1) pcb.sndMax

instance (pcb : TcpPcb) (ack : Seq) : Decidable (pcb.isNewAck ack) :=
  inferInstanceAs (Decidable (_ ∧ _))

/-- `tcp_receive`, up to the data of the segment. -/
def receiveAck (ticks : BitVec 32) (pcb : TcpPcb) (seg : TcpSegment) : TcpPcb :=
  let edge := pcb.sndWnd + pcb.sndWl1
  let pcb := updateWindow pcb seg
  let pcb :=
    if pcb.lastack = seg.ack then duplicateAck pcb edge
    else if pcb.isNewAck seg.ack then newAck pcb seg.ack
    else pcb
  rttSample ticks pcb seg.ack

/-! ## Data -/

/-- `__skb_pull`, which does nothing when there are fewer bytes. A negative count would
move before the buffer; no byte is dropped for it here. -/
def skbPull (data : List Byte) (len : Int) : List Byte :=
  if (data.length : Int) < len then data else data.drop len.toNat

/-- The sequence number and the data of a segment without what was received before. -/
def trimFront (pcb : TcpPcb) (seg : TcpSegment) : Seq × List Byte :=
  if tcpSeqBetween pcb.rcvNxt (seg.seq + 1) (seg.seq + BitVec.ofNat 32 seg.tcpLen - 1) then
    (pcb.rcvNxt, skbPull seg.data (pcb.rcvNxt - seg.seq).toInt)
  else (seg.seq, seg.data)

/-- The receive window shrinks by what was received. -/
def shrinkWindow (rcvWnd : BitVec 16) (tcpLen : Nat) : BitVec 16 :=
  if rcvWnd.toNat < tcpLen then 0 else rcvWnd - BitVec.ofNat 16 tcpLen

/-- A segment that is next in sequence is taken. -/
def acceptData (pcb : TcpPcb) (seg : TcpSegment) (data : List Byte) : TcpPcb :=
  let tcpLen := data.length + seg.fin.toNat + seg.syn.toNat
  { pcb with
    rcvNxt := if pcb.state = .closeWait then pcb.rcvNxt else pcb.rcvNxt + BitVec.ofNat 32 tcpLen
    rcvWnd := shrinkWindow pcb.rcvWnd tcpLen
    incoming := if data = [] then pcb.incoming else pcb.incoming ++ [data] }

/-- The sequence number lies in the receive window. -/
def TcpPcb.inWindow (pcb : TcpPcb) (seq : Seq) : Prop :=
  tcpSeqBetween seq pcb.rcvNxt (pcb.rcvNxt + pcb.rcvWnd.setWidth 32 - 1)

instance (pcb : TcpPcb) (seq : Seq) : Decidable (pcb.inWindow seq) :=
  inferInstanceAs (Decidable (_ ∧ _))

/-- `tcp_receive`, of the data of a segment: whether it was next in sequence. -/
def receiveData (pcb : TcpPcb) (seg : TcpSegment) : Bool × TcpPcb :=
  if seg.tcpLen = 0 then
    if 2 < pcb.rcvWnd ∧ ¬ pcb.inWindow seg.seq then (false, pcb.wantAckNow) else (false, pcb)
  else if pcb.rcvWnd = 0 then (false, pcb.wantAckNow)
  else
    let trimmed := trimFront pcb seg
    let pcb := if tcpSeqLt trimmed.1 pcb.rcvNxt then pcb.wantAckNow else pcb
    if ¬ pcb.inWindow trimmed.1 then (false, pcb)
    else if pcb.rcvNxt = trimmed.1 then
      if trimmed.2.length + seg.fin.toNat + seg.syn.toNat = 0 then
        (false, acceptData pcb seg trimmed.2)
      else (true, (acceptData pcb seg trimmed.2).wantAck)
    else (false, pcb.wantAckNow)

/-- `tcp_receive`. -/
def tcpReceive (ticks : BitVec 32) (pcb : TcpPcb) (seg : TcpSegment) : Bool × TcpPcb :=
  if seg.hasAck = false then (false, pcb) else receiveData (receiveAck ticks pcb seg) seg

/-! ## The state machine -/

/-- `recv_flags`, as far as `tcp_input` distinguishes them. -/
inductive RecvFlags where
  | other
  | reset
  | closed
  deriving DecidableEq

/-- `tcp_pcb_purge`, of a pcb that is neither closed nor waiting. -/
def TcpPcb.purge (pcb : TcpPcb) : TcpPcb := { pcb with unsent := [], unacked := [], incoming := [] }

/-- The connection enters `TIME_WAIT`. -/
def TcpPcb.enterTimeWait (pcb : TcpPcb) : TcpPcb :=
  { pcb.wantAckNow.purge with state := .timeWait }

/-- The field `mss` after `tcp_parseopt`; `none` when it never returns. -/
def parseMss (seg : TcpSegment) (mss : BitVec 16) : Option (BitVec 16) :=
  match tcpParseopt seg.opts seg.doff mss 257 with
  | .running _ => none
  | .returned _ s => some s.mss

/-- An acceptable reset. -/
def TcpPcb.acceptsReset (pcb : TcpPcb) (seg : TcpSegment) : Prop :=
  if pcb.state = .synSent then seg.ack = pcb.sndNxt
  else tcpSeqBetween seg.seq pcb.rcvNxt (pcb.rcvNxt + pcb.rcvWnd.setWidth 32)

instance (pcb : TcpPcb) (seg : TcpSegment) : Decidable (pcb.acceptsReset seg) := by
  unfold TcpPcb.acceptsReset
  infer_instance

/-- The state `SYN_SENT` on the expected segment, up to its options. -/
def synSentEstablish (pcb : TcpPcb) (seg : TcpSegment) : TcpPcb :=
  { pcb with
    sndBuf := pcb.sndBuf + 1
    rcvNxt := seg.seq + 1
    lastack := seg.ack
    sndWnd := peerWindow seg.window
    sndWl1 := seg.seq - 1
    state := .established
    cwnd := pcb.mss.setWidth 32
    unacked := pcb.unacked.tail }

/-- A segment with an acknowledgement of the number after everything that was sent. -/
def TcpPcb.ackedAll (pcb : TcpPcb) (seg : TcpSegment) : Prop :=
  seg.hasAck = true ∧ seg.ack = pcb.sndNxt

instance (pcb : TcpPcb) (seg : TcpSegment) : Decidable (pcb.ackedAll seg) :=
  inferInstanceAs (Decidable (_ ∧ _))

/-- What `tcp_process` ends in: the flags and the pcb, an aborted connection, or a loop
that never ends. -/
inductive Processed where
  | ok (flags : RecvFlags) (pcb : TcpPcb)
  | aborted
  | hung

/-- The state `SYN_SENT`. -/
def processSynSent (pcb : TcpPcb) (seg : TcpSegment) : Processed :=
  if seg.hasAck = true ∧ seg.syn = true ∧ seg.ack = pcb.sndNxt then
    let pcb := synSentEstablish pcb seg
    match parseMss seg pcb.mss with
    | none => .hung
    | some mss => .ok .other ({ pcb with mss := mss }).wantAck
  else .ok .other pcb

/-- The state `SYN_RCVD`; `acceptErr` is what the accept function returns. -/
def processSynRcvd (ticks : BitVec 32) (acceptErr : Int) (pcb : TcpPcb) (seg : TcpSegment) :
    Processed :=
  if seg.hasAck = true ∧ tcpSeqBetween seg.ack (pcb.lastack + 1) pcb.sndNxt then
    if acceptErr ≠ NET_OK then .aborted
    else
      let pcb := (tcpReceive ticks { pcb with state := .established } seg).2
      .ok .other { pcb with cwnd := pcb.mss.setWidth 32 }
  else .ok .other pcb

/-- The states `ESTABLISHED` and `CLOSE_WAIT`. -/
def processEstablished (ticks : BitVec 32) (pcb : TcpPcb) (seg : TcpSegment) : TcpPcb :=
  let received := tcpReceive ticks pcb seg
  if seg.fin = true ∧ received.1 = true then
    { received.2.wantAckNow with state := .closeWait, err := NET_ERR_CLSD }
  else received.2

/-- The state `FIN_WAIT_1`. -/
def processFinWait1 (ticks : BitVec 32) (pcb : TcpPcb) (seg : TcpSegment) : TcpPcb :=
  let pcb := (tcpReceive ticks pcb seg).2
  if seg.fin then
    if pcb.ackedAll seg then pcb.enterTimeWait else { pcb.wantAckNow with state := .closing }
  else if pcb.ackedAll seg then { pcb with state := .finWait2 }
  else pcb

/-- The state `FIN_WAIT_2`. -/
def processFinWait2 (ticks : BitVec 32) (pcb : TcpPcb) (seg : TcpSegment) : TcpPcb :=
  let pcb := (tcpReceive ticks pcb seg).2
  if seg.fin then pcb.enterTimeWait else pcb

/-- The state `CLOSING`. -/
def processClosing (ticks : BitVec 32) (pcb : TcpPcb) (seg : TcpSegment) : TcpPcb :=
  let pcb := (tcpReceive ticks pcb seg).2
  if pcb.ackedAll seg then pcb.enterTimeWait else pcb

/-- The state `LAST_ACK`. -/
def processLastAck (ticks : BitVec 32) (pcb : TcpPcb) (seg : TcpSegment) : Processed :=
  let pcb := (tcpReceive ticks pcb seg).2
  if pcb.ackedAll seg then .ok .closed { pcb with state := .closed } else .ok .other pcb

/-- The activity timer of a pcb starts again. -/
def TcpPcb.touch (pcb : TcpPcb) (ticks : BitVec 32) : TcpPcb :=
  { pcb with tmr := ticks, keepCnt := 0 }

/-- `tcp_process`. -/
def tcpProcess (ticks : BitVec 32) (acceptErr : Int) (pcb : TcpPcb) (seg : TcpSegment) :
    Processed :=
  if seg.rst then
    if pcb.acceptsReset seg then .ok .reset { pcb with ackDelay := false } else .ok .other pcb
  else
    let pcb := pcb.touch ticks
    match pcb.state with
    | .synSent => processSynSent pcb seg
    | .synRcvd => processSynRcvd ticks acceptErr pcb seg
    | .closeWait | .established => .ok .other (processEstablished ticks pcb seg)
    | .finWait1 => .ok .other (processFinWait1 ticks pcb seg)
    | .finWait2 => .ok .other (processFinWait2 ticks pcb seg)
    | .closing => .ok .other (processClosing ticks pcb seg)
    | .lastAck => processLastAck ticks pcb seg
    | .closed | .listen | .timeWait => .ok .other pcb

/-! ## Input -/

/-- A suspicious segment, which is dropped. -/
def TcpSegment.suspicious (seg : TcpSegment) : Prop :=
  seg.syn = true ∧ seg.fin = true ∨ seg.fin = true ∧ seg.hasAck = false

instance (seg : TcpSegment) : Decidable seg.suspicious := inferInstanceAs (Decidable (_ ∨ _))

/-- The connection was reset. `orphan` says that the error function found a child that
nobody accepted, and closed it. -/
def inputReset (orphan : Bool) (pcb : TcpPcb) : TcpConn :=
  let pcb := { pcb with err := NET_ERR_RST, state := if orphan then .closed else pcb.state }
  match pcb.state with
  | .established | .synSent | .closeWait => .live { pcb with state := .closed }
  | _ => .freed

/-- `tcp_input` after `tcp_process`: the application is told, and what is queued is sent. -/
def inputDone (answers : OutputAnswers) (pcb : TcpPcb) : TcpPcb :=
  (tcpOutput answers { pcb with sendDataOk := pcb.sendDataOk || 0 < pcb.acked }).2

/-- `tcp_timewait_input`. -/
def tcpTimewaitInput (answers : OutputAnswers) (pcb : TcpPcb) (seg : TcpSegment) : TcpPcb :=
  let stop := seg.seq + BitVec.ofNat 32 seg.tcpLen
  let pcb := if tcpSeqGt stop pcb.rcvNxt then { pcb with rcvNxt := stop } else pcb
  let pcb := if seg.tcpLen > 0 then tcpAckNow answers pcb else pcb
  (tcpOutput answers pcb).2

/-- The answers a segment gets: those of `tcp_output`, what the accept function returns,
and whether the error function gives the pcb up. -/
structure InputAnswers where
  output : OutputAnswers
  acceptErr : Int
  orphan : Bool

/-- `tcp_input`, of a segment for this connection. -/
def tcpInput (answers : InputAnswers) (pcb : TcpPcb) (seg : TcpSegment) : TcpConn :=
  if seg.suspicious then .live pcb
  else
    match pcb.state with
    | .closed | .listen => .live pcb
    | .timeWait => .live (tcpTimewaitInput answers.output pcb seg)
    | _ =>
        match tcpProcess answers.output.ticks answers.acceptErr pcb seg with
        | .aborted => .freed
        | .hung => .hung
        | .ok .reset pcb => inputReset answers.orphan pcb
        | .ok .closed _ => .freed
        | .ok .other pcb => .live (inputDone answers.output pcb)

/-- The answers a segment for a listener gets. -/
structure ListenAnswers where
  iss : Seq
  ticks : BitVec 32
  enqueue : EnqueueAnswers
  output : OutputAnswers

/-- A new pcb for a connection request, up to the options of the segment. -/
def synRcvdPcb (answers : ListenAnswers) (seg : TcpSegment) : TcpPcb :=
  { tcpAlloc answers.iss answers.ticks with
    state := .synRcvd
    rcvNxt := seg.seq + 1
    sndWnd := seg.window.setWidth 32
    ssthresh := seg.window.setWidth 32
    sndWl1 := seg.seq - 1 }

/-- `tcp_listen_input`, of a connection request. -/
def tcpListenInput (answers : ListenAnswers) (seg : TcpSegment) : TcpConn :=
  if seg.hasAck = true ∨ seg.fin = true ∨ seg.syn = false then .freed
  else
    let pcb := synRcvdPcb answers seg
    match parseMss seg pcb.mss with
    | none => .hung
    | some mss =>
        let queued := tcpEnqueue answers.enqueue { pcb with mss := mss } [] true false
        if queued.1 = NET_OK then .live (tcpOutput answers.output queued.2).2 else .freed

/-! ## What input changes -/

/-- Taking in data leaves these fields alone: it changes the acknowledgement flags and the
receive variables. -/
structure ReceivesOnly (before after : TcpPcb) : Prop where
  state : after.state = before.state
  err : after.err = before.err
  infr : after.infr = before.infr
  mss : after.mss = before.mss
  lastack : after.lastack = before.lastack
  cwnd : after.cwnd = before.cwnd
  ssthresh : after.ssthresh = before.ssthresh
  sndNxt : after.sndNxt = before.sndNxt
  sndMax : after.sndMax = before.sndMax
  sndWnd : after.sndWnd = before.sndWnd
  sndLbb : after.sndLbb = before.sndLbb
  sndBuf : after.sndBuf = before.sndBuf
  unsent : after.unsent = before.unsent
  unacked : after.unacked = before.unacked
  wire : after.wire = before.wire
  delivered : after.delivered = before.delivered

namespace ReceivesOnly

theorem refl (pcb : TcpPcb) : ReceivesOnly pcb pcb := by constructor <;> rfl

theorem trans {first second third : TcpPcb} (one : ReceivesOnly first second)
    (two : ReceivesOnly second third) : ReceivesOnly first third where
  state := two.state.trans one.state
  err := two.err.trans one.err
  infr := two.infr.trans one.infr
  mss := two.mss.trans one.mss
  lastack := two.lastack.trans one.lastack
  cwnd := two.cwnd.trans one.cwnd
  ssthresh := two.ssthresh.trans one.ssthresh
  sndNxt := two.sndNxt.trans one.sndNxt
  sndMax := two.sndMax.trans one.sndMax
  sndWnd := two.sndWnd.trans one.sndWnd
  sndLbb := two.sndLbb.trans one.sndLbb
  sndBuf := two.sndBuf.trans one.sndBuf
  unsent := two.unsent.trans one.unsent
  unacked := two.unacked.trans one.unacked
  wire := two.wire.trans one.wire
  delivered := two.delivered.trans one.delivered

end ReceivesOnly

theorem acceptData_receivesOnly (pcb : TcpPcb) (seg : TcpSegment) (data : List Byte) :
    ReceivesOnly pcb (acceptData pcb seg data) := by constructor <;> rfl

theorem wantAck_receivesOnly (pcb : TcpPcb) : ReceivesOnly pcb pcb.wantAck := by constructor <;> rfl

theorem wantAckNow_receivesOnly (pcb : TcpPcb) : ReceivesOnly pcb pcb.wantAckNow := by
  constructor <;> rfl

theorem receiveData_receivesOnly (pcb : TcpPcb) (seg : TcpSegment) :
    ReceivesOnly pcb (receiveData pcb seg).2 := by
  unfold receiveData
  have asked : ReceivesOnly pcb
      (if tcpSeqLt (trimFront pcb seg).1 pcb.rcvNxt then pcb.wantAckNow else pcb) := by
    split
    · exact wantAckNow_receivesOnly pcb
    · exact .refl pcb
  split
  · split
    · exact wantAckNow_receivesOnly pcb
    · exact .refl pcb
  · split
    · exact wantAckNow_receivesOnly pcb
    · dsimp only
      revert asked
      generalize (if tcpSeqLt (trimFront pcb seg).1 pcb.rcvNxt then pcb.wantAckNow else pcb) = asking
      intro asked
      split
      · exact asked
      · split
        · split
          · exact asked.trans (acceptData_receivesOnly _ _ _)
          · exact (asked.trans (acceptData_receivesOnly _ _ _)).trans (wantAck_receivesOnly _)
        · exact asked.trans (wantAckNow_receivesOnly _)

end PosFirmware.IpStack
