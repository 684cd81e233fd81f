import PosFirmware.IpStack.TcpPcb

/-! # TCP output

The functions of `tcp_out.c`: data and control flags are cut into segments and queued
(`tcpEnqueue`), queued segments are sent as far as the windows and the device allow
(`tcpOutput`), and unacknowledged ones are queued again (`tcpRexmit`, `tcpRexmitRto`).
Routes, buffers and the state of the device are answers that a call gets.
-/

namespace PosFirmware.IpStack

/-! ## Queueing -/

/-- The answers a call of `tcp_enqueue` gets: whether there is a route, and whether
`skb_new` succeeds in each round of its loop. -/
structure EnqueueAnswers where
  route : Bool
  alloc : Nat → Bool

/-- The loop of `tcp_enqueue`. `room` counts how often `queuelen` may still grow; the
segments, what is left, and the sequence number after them. -/
def enqueueLoop (alloc : Nat → Bool) (mss : BitVec 16) :
    (room round : Nat) → (left : List Byte) → (syn fin : Bool) → (seqno : Seq) →
      List Segment × List Byte × Seq
  | 0, _, left, _, _, seqno => ([], left, seqno)
  | room + 1, round, left, syn, fin, seqno =>
      if left = [] ∧ syn = false ∧ fin = false then ([], left, seqno)
      else if alloc round then
        let seglen := min left.length mss.toNat
        let seg : Segment := ⟨seqno, syn, fin, left.take seglen⟩
        let rest := enqueueLoop alloc mss room (round + 1) (left.drop seglen) false false seg.next
        (seg :: rest.1, rest.2)
      else ([], left, seqno)

/-- `queuelen`, an `u8`. -/
def TcpPcb.queuelen (pcb : TcpPcb) : Nat :=
  (BitVec.ofNat 8 (pcb.unacked.length + pcb.unsent.length)).toNat

/-- `tcp_enqueue`, of data or of control flags. -/
def tcpEnqueue (answers : EnqueueAnswers) (pcb : TcpPcb) (arg : List Byte) (syn fin : Bool) :
    Int × TcpPcb :=
  if answers.route = false then (NET_ERR_RTE, pcb)
  else if arg ≠ [] ∧ TCP_SND_QUEUELEN ≤ pcb.queuelen then (NET_ERR_MEM, pcb)
  else
    let arg := arg.take pcb.sndBuf.toNat
    let queued := enqueueLoop answers.alloc pcb.mss (TCP_SND_QUEUELEN - pcb.queuelen) 0 arg syn fin
      pcb.sndLbb
    if queued.1 = [] then (NET_ERR_MEM, pcb)
    else
      ((arg.length : Int) - queued.2.1.length,
        { pcb with
          sndBuf := pcb.sndBuf - (queued.2.2 - pcb.sndLbb)
          sndLbb := queued.2.2
          unsent := pcb.unsent ++ queued.1 })

/-- `tcp_send_ctrl` with `TCP_FIN`. -/
def tcpSendFin (answers : EnqueueAnswers) (pcb : TcpPcb) : Int × TcpPcb :=
  tcpEnqueue answers pcb [] false true

/-! ## Sending -/

/-- The answers a call of `tcp_output` gets: whether there is a route, whether the device
transmits at each look at it, whether there is a buffer for an empty acknowledgement,
and the time. -/
structure OutputAnswers where
  route : Bool
  tx : Nat → Bool
  buf : Bool
  ticks : BitVec 32

/-- `tcp_output_segment`. -/
def tcpOutputSegment (pcb : TcpPcb) (seg : Segment) (ticks : BitVec 32) : TcpPcb :=
  { pcb with
    rtime := 0
    rttest := if pcb.rttest = 0 then ticks else pcb.rttest
    rtseq := if pcb.rttest = 0 then seg.seq else pcb.rtseq
    wire := seg :: pcb.wire }

/-- Where a segment that was sent goes in `unacked`: to the tail, or to the head when it
comes before it. -/
def putUnacked (unacked : List Segment) (seg : Segment) : List Segment :=
  match unacked with
  | [] => [seg]
  | first :: rest =>
      if tcpSeqLt seg.seq first.seq then seg :: first :: rest else first :: rest ++ [seg]

/-- A sent segment piggybacks the acknowledgement, except in `SYN_SENT`. -/
def TcpPcb.piggyback (pcb : TcpPcb) : TcpPcb :=
  if pcb.state = .synSent then pcb else { pcb with ackDelay := false, ackNow := false }

/-- One segment is sent. -/
def sendSegment (ticks : BitVec 32) (pcb : TcpPcb) (seg : Segment) : TcpPcb :=
  let pcb := tcpOutputSegment pcb.piggyback seg ticks
  { pcb with
    sndNxt := seg.next
    sndMax := if tcpSeqLt pcb.sndMax seg.next then seg.next else pcb.sndMax
    unacked := if seg.tcpLen = 0 then pcb.unacked else putUnacked pcb.unacked seg }

/-- What a segment needs of the window. -/
def TcpPcb.effWnd (pcb : TcpPcb) (seg : Segment) : BitVec 32 :=
  seg.seq - pcb.lastack + BitVec.ofNat 32 seg.tcpLen

/-- The loop of `tcp_output` over `unsent`; `look` counts the looks at the device. -/
def outputLoop (answers : OutputAnswers) (wnd : BitVec 32) :
    (look : Nat) → List Segment → TcpPcb → TcpPcb
  | _, [], pcb => { pcb with unsent := [] }
  | look, seg :: rest, pcb =>
      if answers.tx look = false ∨ wnd < pcb.effWnd seg then { pcb with unsent := seg :: rest }
      else outputLoop answers wnd (look + 1) rest (sendSegment answers.ticks pcb seg)

/-- The window that `tcp_output` keeps to. -/
def TcpPcb.wnd (pcb : TcpPcb) : BitVec 32 :=
  if pcb.sndWnd < pcb.cwnd then pcb.sndWnd else pcb.cwnd

/-- No segment can be sent now. -/
def TcpPcb.blocked (pcb : TcpPcb) : Prop :=
  match pcb.unsent with
  | [] => True
  | seg :: _ => pcb.wnd < pcb.effWnd seg

instance (pcb : TcpPcb) : Decidable pcb.blocked := by
  unfold TcpPcb.blocked
  cases pcb.unsent
  · exact inferInstanceAs (Decidable True)
  · exact inferInstanceAs (Decidable (_ < _))

/-- `tcp_output`. -/
def tcpOutput (answers : OutputAnswers) (pcb : TcpPcb) : Int × TcpPcb :=
  if answers.route = false then (NET_ERR_RTE, pcb)
  else if answers.tx 0 = false then (NET_OK, pcb)
  else if pcb.ackNow = true ∧ pcb.blocked then
    if answers.buf then (NET_OK, { pcb with ackDelay := false, ackNow := false })
    else (NET_ERR_BUF, pcb)
  else (NET_OK, outputLoop answers pcb.wnd 1 pcb.unsent pcb)

/-- The flags that `tcp_ack` sets. -/
def TcpPcb.wantAck (pcb : TcpPcb) : TcpPcb := { pcb with ackDelay := false, ackNow := true }

/-- The flag that `tcp_ack_now` sets. -/
def TcpPcb.wantAckNow (pcb : TcpPcb) : TcpPcb := { pcb with ackNow := true }

/-- `tcp_ack`. -/
def tcpAck (answers : OutputAnswers) (pcb : TcpPcb) : TcpPcb := (tcpOutput answers pcb.wantAck).2

/-- `tcp_ack_now`. -/
def tcpAckNow (answers : OutputAnswers) (pcb : TcpPcb) : TcpPcb :=
  (tcpOutput answers pcb.wantAckNow).2

/-- The answers a call of `tcp_write` gets. -/
structure WriteAnswers where
  ack : OutputAnswers
  enqueue : EnqueueAnswers
  output : OutputAnswers

/-- Until data was acknowledged, data goes after the third segment of the handshake. -/
def TcpPcb.sendAckFirst (pcb : TcpPcb) : Prop := pcb.state = .established ∧ pcb.sendDataOk = false

instance (pcb : TcpPcb) : Decidable pcb.sendAckFirst := inferInstanceAs (Decidable (_ ∧ _))

/-- `tcp_rexmit_ack`, when it is called for. -/
def rexmitAckFirst (answers : OutputAnswers) (pcb : TcpPcb) : TcpPcb :=
  if pcb.sendAckFirst then tcpAck answers pcb else pcb

/-- `tcp_write`. -/
def tcpWrite (answers : WriteAnswers) (pcb : TcpPcb) (arg : List Byte) : Int × TcpPcb :=
  if pcb.state = .established ∨ pcb.state = .closeWait then
    if pcb.state = .closeWait ∧ pcb.err < 0 then (pcb.err, pcb)
    else if arg = [] then (0, pcb)
    else
      let queued := tcpEnqueue answers.enqueue (rexmitAckFirst answers.ack pcb) arg false false
      if 0 ≤ queued.1 then (queued.1, (tcpOutput answers.output queued.2).2) else queued
  else if pcb.err ≠ 0 then (pcb.err, pcb)
  else (NET_ERR_CONN, pcb)

/-! ## Sending again -/

/-- All unacknowledged segments before the unsent ones. -/
def requeueUnacked (pcb : TcpPcb) : TcpPcb :=
  { pcb with unsent := pcb.unacked ++ pcb.unsent, unacked := [] }

/-- The next segment to send is the first unsent one, and its retransmission counts. -/
def rexmitFirst (pcb : TcpPcb) : TcpPcb :=
  match pcb.unsent with
  | [] => pcb
  | seg :: _ => { pcb with sndNxt := seg.seq, nrtx := pcb.nrtx + 1, rttest := 0 }

/-- `tcp_rexmit_rto`, up to its call of `tcp_output`. -/
def rexmitRtoQueued (ack : OutputAnswers) (pcb : TcpPcb) : TcpPcb :=
  rexmitFirst (requeueUnacked (rexmitAckFirst ack pcb))

/-- `tcp_rexmit_rto`. -/
def tcpRexmitRto (ack output : OutputAnswers) (pcb : TcpPcb) : TcpPcb :=
  if pcb.unacked = [] then pcb else (tcpOutput output (rexmitRtoQueued ack pcb)).2

/-- `tcp_rexmit`. It is called while the input of the pcb is processed, where
`tcp_output` returns at once. -/
def tcpRexmit (pcb : TcpPcb) : TcpPcb :=
  match pcb.unacked with
  | [] => pcb
  | seg :: rest => rexmitFirst { pcb with unsent := seg :: pcb.unsent, unacked := rest }

/-! ## Queueing a flag -/

/-- A flag can be queued: there is a route, a free place, and a buffer. -/
structure CanQueueFlag (answers : EnqueueAnswers) (pcb : TcpPcb) : Prop where
  route : answers.route = true
  room : pcb.queuelen < TCP_SND_QUEUELEN
  alloc : answers.alloc 0 = true

theorem enqueueLoop_nil (alloc : Nat → Bool) (mss : BitVec 16) (room round : Nat) (seqno : Seq) :
    enqueueLoop alloc mss room round [] false false seqno = ([], [], seqno) := by
  cases room with
  | zero => rfl
  | succ room => rw [enqueueLoop, if_pos ⟨rfl, rfl, rfl⟩]

private theorem enqueueLoop_flag {alloc : Nat → Bool} {round : Nat} {syn fin : Bool}
    (flag : syn = true ∨ fin = true) (buffer : alloc round = true) (mss : BitVec 16) (room : Nat)
    (seqno : Seq) :
    enqueueLoop alloc mss (room + 1) round [] syn fin seqno =
      ([⟨seqno, syn, fin, []⟩], [], Segment.next ⟨seqno, syn, fin, []⟩) := by
  rw [enqueueLoop, if_neg (by rcases flag with rfl | rfl <;> simp), if_pos buffer]
  simp only [List.drop_nil, List.take_nil, enqueueLoop_nil]

private theorem enqueueLoop_noBuffer {alloc : Nat → Bool} {round : Nat} {syn fin : Bool}
    (noBuffer : ¬ alloc round = true) (mss : BitVec 16) (room : Nat) (seqno : Seq) :
    enqueueLoop alloc mss (room + 1) round [] syn fin seqno = ([], [], seqno) := by
  rw [enqueueLoop, if_neg noBuffer, ite_self]

theorem tcpEnqueue_flag {answers : EnqueueAnswers} {pcb : TcpPcb} {syn fin : Bool}
    (flag : syn = true ∧ fin = false ∨ syn = false ∧ fin = true) (can : CanQueueFlag answers pcb) :
    tcpEnqueue answers pcb [] syn fin = (0, { pcb with
      sndBuf := pcb.sndBuf - 1
      sndLbb := pcb.sndLbb + 1
      unsent := pcb.unsent ++ [⟨pcb.sndLbb, syn, fin, []⟩] }) := by
  obtain ⟨room, roomy⟩ : ∃ room, TCP_SND_QUEUELEN - pcb.queuelen = room + 1 :=
    ⟨TCP_SND_QUEUELEN - pcb.queuelen - 1, by have := can.room; omega⟩
  have queued := @enqueueLoop_flag answers.alloc 0 syn fin (by tauto) can.alloc pcb.mss room
    pcb.sndLbb
  have next : Segment.next ⟨pcb.sndLbb, syn, fin, []⟩ = pcb.sndLbb + 1 := by
    rcases flag with ⟨rfl, rfl⟩ | ⟨rfl, rfl⟩ <;> rfl
  have one : pcb.sndLbb + 1 - pcb.sndLbb = 1 := by
    rw [BitVec.add_comm, BitVec.add_sub_cancel]
  unfold tcpEnqueue
  rw [if_neg (by simp [can.route]), if_neg (by simp), roomy, List.take_nil]
  simp only [queued, next, one, if_neg (List.cons_ne_nil _ _)]
  rfl

theorem tcpEnqueue_flag_fails {answers : EnqueueAnswers} {pcb : TcpPcb} (syn fin : Bool)
    (cannot : ¬ CanQueueFlag answers pcb) :
    (tcpEnqueue answers pcb [] syn fin).1 < 0 ∧ (tcpEnqueue answers pcb [] syn fin).2 = pcb := by
  unfold tcpEnqueue
  split
  · exact ⟨show NET_ERR_RTE < 0 by decide, rfl⟩
  next route =>
    rw [if_neg (by simp), List.take_nil]
    have empty : (enqueueLoop answers.alloc pcb.mss (TCP_SND_QUEUELEN - pcb.queuelen) 0 [] syn
        fin pcb.sndLbb).1 = [] := by
      cases roomy : TCP_SND_QUEUELEN - pcb.queuelen with
      | zero => rfl
      | succ room =>
          rw [enqueueLoop_noBuffer]
          intro alloc
          exact cannot ⟨by simpa using route, by omega, alloc⟩
    simp only [empty, if_true]
    exact ⟨show NET_ERR_MEM < 0 by decide, trivial⟩

/-! ## What sending changes -/

/-- Sending leaves these fields alone: it changes the acknowledgement flags, the timing,
the queues, and the numbers sent. -/
structure SendsOnly (before after : TcpPcb) : Prop where
  state : after.state = before.state
  err : after.err = before.err
  infr : after.infr = before.infr
  mss : after.mss = before.mss
  cwnd : after.cwnd = before.cwnd
  ssthresh : after.ssthresh = before.ssthresh
  lastack : after.lastack = before.lastack
  sndWnd : after.sndWnd = before.sndWnd
  sndLbb : after.sndLbb = before.sndLbb
  sndBuf : after.sndBuf = before.sndBuf
  rcvNxt : after.rcvNxt = before.rcvNxt
  rcvWnd : after.rcvWnd = before.rcvWnd
  incoming : after.incoming = before.incoming
  delivered : after.delivered = before.delivered

namespace SendsOnly

theorem refl (pcb : TcpPcb) : SendsOnly pcb pcb := by constructor <;> rfl

theorem trans {first second third : TcpPcb} (one : SendsOnly first second)
    (two : SendsOnly second third) : SendsOnly first third where
  state := two.state.trans one.state
  err := two.err.trans one.err
  infr := two.infr.trans one.infr
  mss := two.mss.trans one.mss
  cwnd := two.cwnd.trans one.cwnd
  ssthresh := two.ssthresh.trans one.ssthresh
  lastack := two.lastack.trans one.lastack
  sndWnd := two.sndWnd.trans one.sndWnd
  sndLbb := two.sndLbb.trans one.sndLbb
  sndBuf := two.sndBuf.trans one.sndBuf
  rcvNxt := two.rcvNxt.trans one.rcvNxt
  rcvWnd := two.rcvWnd.trans one.rcvWnd
  incoming := two.incoming.trans one.incoming
  delivered := two.delivered.trans one.delivered

end SendsOnly

theorem sendSegment_sendsOnly (ticks : BitVec 32) (pcb : TcpPcb) (seg : Segment) :
    SendsOnly pcb (sendSegment ticks pcb seg) := by
  unfold sendSegment TcpPcb.piggyback tcpOutputSegment
  split <;> constructor <;> rfl

theorem outputLoop_sendsOnly (answers : OutputAnswers) (wnd : BitVec 32) (look : Nat)
    (queue : List Segment) (pcb : TcpPcb) :
    SendsOnly pcb (outputLoop answers wnd look queue pcb) := by
  induction queue generalizing look pcb with
  | nil => constructor <;> rfl
  | cons seg rest past =>
      rw [outputLoop]
      split
      · constructor <;> rfl
      · exact (sendSegment_sendsOnly _ pcb seg).trans (past _ _)

theorem tcpOutput_sendsOnly (answers : OutputAnswers) (pcb : TcpPcb) :
    SendsOnly pcb (tcpOutput answers pcb).2 := by
  unfold tcpOutput
  split
  · exact .refl pcb
  · split
    · exact .refl pcb
    · split
      · split
        · constructor <;> rfl
        · exact .refl pcb
      · exact outputLoop_sendsOnly _ _ _ _ _

theorem tcpAck_sendsOnly (answers : OutputAnswers) (pcb : TcpPcb) :
    SendsOnly pcb (tcpAck answers pcb) :=
  (show SendsOnly pcb pcb.wantAck by constructor <;> rfl).trans (tcpOutput_sendsOnly answers _)

theorem tcpAckNow_sendsOnly (answers : OutputAnswers) (pcb : TcpPcb) :
    SendsOnly pcb (tcpAckNow answers pcb) :=
  (show SendsOnly pcb pcb.wantAckNow by constructor <;> rfl).trans (tcpOutput_sendsOnly answers _)

theorem rexmitAckFirst_sendsOnly (answers : OutputAnswers) (pcb : TcpPcb) :
    SendsOnly pcb (rexmitAckFirst answers pcb) := by
  unfold rexmitAckFirst
  split
  · exact tcpAck_sendsOnly answers pcb
  · exact .refl pcb

theorem rexmitFirst_sendsOnly (pcb : TcpPcb) : SendsOnly pcb (rexmitFirst pcb) := by
  unfold rexmitFirst
  split <;> constructor <;> rfl

theorem tcpRexmitRto_sendsOnly (ack output : OutputAnswers) (pcb : TcpPcb) :
    SendsOnly pcb (tcpRexmitRto ack output pcb) := by
  unfold tcpRexmitRto rexmitRtoQueued
  split
  · exact .refl pcb
  · refine .trans ?_ (tcpOutput_sendsOnly output _)
    refine .trans ?_ (rexmitFirst_sendsOnly _)
    refine (rexmitAckFirst_sendsOnly ack pcb).trans ?_
    constructor <;> rfl

theorem tcpRexmit_sendsOnly (pcb : TcpPcb) : SendsOnly pcb (tcpRexmit pcb) := by
  unfold tcpRexmit
  split
  · exact .refl pcb
  · refine .trans ?_ (rexmitFirst_sendsOnly _)
    constructor <;> rfl

/-! ## Segments are not lost -/

theorem mem_putUnacked {unacked : List Segment} {seg other : Segment} :
    other ∈ putUnacked unacked seg ↔ other = seg ∨ other ∈ unacked := by
  unfold putUnacked
  split
  · simp
  · split
    · simp
    · simp
      tauto

private theorem mem_outputLoop {answers : OutputAnswers} {wnd : BitVec 32} {seg : Segment}
    (long : seg.tcpLen ≠ 0) (queue : List Segment) (look : Nat) (pcb : TcpPcb)
    (queued : seg ∈ pcb.unacked ∨ seg ∈ queue) :
    seg ∈ (outputLoop answers wnd look queue pcb).unacked ∨
      seg ∈ (outputLoop answers wnd look queue pcb).unsent := by
  induction queue generalizing look pcb with
  | nil => exact .inl (queued.resolve_right List.not_mem_nil)
  | cons first rest past =>
      rw [outputLoop]
      split
      · exact queued
      · apply past
        have same : (sendSegment answers.ticks pcb first).unacked =
            if first.tcpLen = 0 then pcb.unacked else putUnacked pcb.unacked first := by
          unfold sendSegment tcpOutputSegment TcpPcb.piggyback
          split <;> rfl
        rw [same]
        rcases queued with sent | waiting
        · left
          split
          · exact sent
          · exact mem_putUnacked.mpr (.inr sent)
        · rcases List.mem_cons.mp waiting with rfl | later
          · left
            rw [if_neg long]
            exact mem_putUnacked.mpr (.inl rfl)
          · exact .inr later

theorem mem_tcpOutput {answers : OutputAnswers} {pcb : TcpPcb} {seg : Segment}
    (long : seg.tcpLen ≠ 0) (queued : seg ∈ pcb.unacked ∨ seg ∈ pcb.unsent) :
    seg ∈ (tcpOutput answers pcb).2.unacked ∨ seg ∈ (tcpOutput answers pcb).2.unsent := by
  unfold tcpOutput
  split
  · exact queued
  · split
    · exact queued
    · split
      · split <;> exact queued
      · exact mem_outputLoop long _ _ _ queued

end PosFirmware.IpStack
