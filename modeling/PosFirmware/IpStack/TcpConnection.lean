import PosFirmware.Foundation.Run
import PosFirmware.IpStack.TcpIn

/-! # One TCP connection

The functions of `tcp.c` for one pcb, and the runs of a connection: calls of the
application, segments, timers and changes of the link, in any order and with any
answers of routes, buffers and the device.
-/

namespace PosFirmware.IpStack

open PosFirmware.Foundation

/-! ## Connecting and closing -/

/-- The answers a call of `tcp_connect` gets. -/
structure ConnectAnswers where
  route : Bool
  iss : Seq
  enqueue : EnqueueAnswers
  output : OutputAnswers

/-- The pcb that `tcp_connect` starts with, for an initial sequence number. -/
def connectPcb (pcb : TcpPcb) (iss : Seq) : TcpPcb :=
  { pcb with
    sendDataOk := false
    rcvNxt := 0
    sndNxt := iss
    lastack := iss - 1
    sndLbb := iss - 1
    rcvWnd := TCP_WND
    sndWnd := TCP_WND.setWidth 32
    mss := TCP_MSS
    cwnd := 1
    ssthresh := TCP_MSS.setWidth 32 * 10
    state := .synSent }

/-- `tcp_connect`, on a closed pcb. -/
def tcpConnect (answers : ConnectAnswers) (pcb : TcpPcb) : Int × TcpPcb :=
  if pcb.state ≠ .closed then (NET_ERR_EXIST, pcb)
  else if answers.route = false then (NET_ERR_RTE, pcb)
  else
    let queued := tcpEnqueue answers.enqueue (connectPcb pcb answers.iss) [] true false
    if queued.1 = NET_OK then (NET_OK, (tcpOutput answers.output queued.2).2)
    else (queued.1, { queued.2 with state := .closed })

/-- The answers a call of `tcp_close` gets. -/
structure CloseAnswers where
  enqueue : EnqueueAnswers
  output : OutputAnswers

/-- A FIN is queued, and the pcb goes to the next state whatever came of that. -/
def closeWith (answers : CloseAnswers) (pcb : TcpPcb) (next : TcpState) : Int × TcpPcb :=
  let queued := tcpSendFin answers.enqueue pcb
  let pcb := { queued.2 with state := next }
  if queued.1 = NET_OK then tcpOutput answers.output pcb else (queued.1, pcb)

/-- `tcp_close`, of a pcb that does not listen; the pcb is gone when it was freed. -/
def tcpClose (answers : CloseAnswers) (pcb : TcpPcb) : Int × TcpConn :=
  match pcb.state with
  | .closed | .listen | .synSent | .synRcvd => (NET_OK, .freed)
  | .established =>
      let closed := closeWith answers pcb .finWait1
      (closed.1, .live closed.2)
  | .closeWait =>
      if pcb.err ≠ NET_ERR_CLSD then (NET_OK, .freed)
      else
        let closed := closeWith answers pcb .lastAck
        (closed.1, .live closed.2)
  | _ => (NET_OK, .live pcb)

/-! ## Reading -/

/-- The bytes that `tcp_recv_data` takes from `incoming`, and what stays there. -/
def takeIncoming : List (List Byte) → Nat → List Byte × List (List Byte)
  | [], _ => ([], [])
  | data :: rest, size =>
      if data.length ≤ size then
        if size - data.length = 0 then (data, rest)
        else
          let more := takeIncoming rest (size - data.length)
          (data ++ more.1, more.2)
      else (data.take size, data.drop size :: rest)

/-- The receive window opens by what was read. -/
def openWindow (pcb : TcpPcb) (len : Nat) : TcpPcb :=
  { pcb with
    rcvWnd := if TCP_WND.toNat < pcb.rcvWnd.toNat + len then TCP_WND
      else pcb.rcvWnd + BitVec.ofNat 16 len }

/-- `tcp_recved`. -/
def tcpRecved (answers : OutputAnswers) (pcb : TcpPcb) (len : Nat) : TcpPcb :=
  let pcb := openWindow pcb len
  if pcb.ackDelay = false ∧ pcb.ackNow = false then tcpAck answers pcb
  else if pcb.ackDelay = true ∧ TCP_WND / 2 ≤ pcb.rcvWnd then tcpAckNow answers pcb
  else pcb

/-- The application reads a number of bytes. -/
def readIncoming (pcb : TcpPcb) (size : Nat) : TcpPcb :=
  { pcb with
    incoming := (takeIncoming pcb.incoming size).2
    delivered := pcb.delivered ++ (takeIncoming pcb.incoming size).1 }

/-- `tcp_recv_data`. -/
def tcpRecvData (answers : OutputAnswers) (pcb : TcpPcb) (size : Nat) : TcpPcb :=
  let len := (takeIncoming pcb.incoming size).1.length
  if len = 0 then readIncoming pcb size
  else tcpRecved answers (readIncoming pcb size) (len % 2 ^ 16)

theorem tcpRecved_sendsOnly (answers : OutputAnswers) (pcb : TcpPcb) (len : Nat) :
    SendsOnly (openWindow pcb len) (tcpRecved answers pcb len) := by
  unfold tcpRecved
  dsimp only
  split
  · exact tcpAck_sendsOnly _ _
  · split
    · exact tcpAckNow_sendsOnly _ _
    · exact .refl _

/-! ## Timers -/

/-- The answers the timers get. -/
structure TimerAnswers where
  ticks : BitVec 32
  ack : OutputAnswers
  rexmit : OutputAnswers
  poll : OutputAnswers

/-- The congestion window after a retransmission timeout. -/
def backOff (pcb : TcpPcb) : TcpPcb :=
  let ssthresh := pcb.wnd >>> 1
  { pcb with
    rto := if pcb.state = .synSent then pcb.rto else 2
    ssthresh := if ssthresh < pcb.mss.setWidth 32 then pcb.mss.setWidth 32 * 2 else ssthresh
    cwnd := pcb.mss.setWidth 32 }

/-- The retransmission timer has run out. -/
def TcpPcb.rexmitDue (pcb : TcpPcb) : Prop := pcb.unacked ≠ [] ∧ pcb.rto ≤ pcb.rtime + 1

instance (pcb : TcpPcb) : Decidable pcb.rexmitDue := inferInstanceAs (Decidable (_ ∧ _))

/-- The retransmission timer of `tcp_slowtmr`. -/
def rexmitTimer (answers : TimerAnswers) (pcb : TcpPcb) : TcpPcb :=
  if pcb.rexmitDue then
    tcpRexmitRto answers.ack answers.rexmit (backOff { pcb with rtime := pcb.rtime + 1 })
  else { pcb with rtime := pcb.rtime + 1 }

/-- The retransmissions are used up; the error that the application gets. -/
def rexmitGivenUp (pcb : TcpPcb) : Option Int :=
  if pcb.state = .synSent ∧ pcb.nrtx = TCP_SYNMAXRTX then some NET_ERR_TIMEOUT
  else if pcb.nrtx = TCP_MAXRTX then some NET_ERR_ABRT
  else none

/-- A pcb has stayed too long in one of the states after its FIN, or in `SYN_RCVD`. -/
def TcpPcb.stuck (pcb : TcpPcb) (ticks : BitVec 32) : Prop :=
  (pcb.state = .finWait1 ∨ pcb.state = .finWait2 ∨ pcb.state = .closing) ∧
      TCP_FIN_WAIT_TIMEOUT / TCP_SLOW_INTERVAL < (ticks - pcb.tmr).toNat ∨
    pcb.state = .synRcvd ∧ TCP_SYN_RCVD_TIMEOUT / TCP_SLOW_INTERVAL < (ticks - pcb.tmr).toNat ∨
    pcb.state = .lastAck ∧ 2 * TCP_MSL / TCP_SLOW_INTERVAL < (ticks - pcb.tmr).toNat

instance (pcb : TcpPcb) (ticks : BitVec 32) : Decidable (pcb.stuck ticks) :=
  inferInstanceAs (Decidable (_ ∨ _ ∨ _))

/-- The probes of an idle connection are used up. -/
def TcpPcb.keepaliveGivenUp (pcb : TcpPcb) : Prop :=
  pcb.soKeepalive = true ∧ pcb.state = .established ∧ TCP_KEEPCNT < pcb.keepCnt

instance (pcb : TcpPcb) : Decidable pcb.keepaliveGivenUp :=
  inferInstanceAs (Decidable (_ ∧ _ ∧ _))

/-- The probes of an idle connection. -/
def keepaliveTimer (ticks : BitVec 32) (pcb : TcpPcb) : TcpPcb :=
  if pcb.soKeepalive = true ∧ pcb.state = .established ∧ pcb.keepCnt ≤ TCP_KEEPCNT ∧
      (pcb.keepalive.toNat + pcb.keepCnt.toNat * TCP_KEEPINTVL) / TCP_SLOW_INTERVAL <
        (ticks - pcb.tmr).toNat then
    { pcb with keepCnt := pcb.keepCnt + 1 }
  else pcb

/-- The pcb leaves the active list, closed and with an error. -/
def removePcb (pcb : TcpPcb) (err : Int) : TcpPcb := { pcb.purge with state := .closed, err := err }

/-- What `tcp_slowtmr` does to an active pcb. -/
def tcpSlowtmrActive (answers : TimerAnswers) (pcb : TcpPcb) : TcpConn :=
  let givenUp := rexmitGivenUp pcb
  let pcb := if givenUp = none then rexmitTimer answers pcb else pcb
  if pcb.stuck answers.ticks then .freed
  else if pcb.keepaliveGivenUp then .live (removePcb pcb (givenUp.getD NET_ERR_TIMEOUT))
  else
    match givenUp with
    | some err => .live (removePcb pcb err)
    | none => .live (tcpOutput answers.poll (keepaliveTimer answers.ticks pcb)).2

/-- `tcp_slowtmr`. -/
def tcpSlowtmr (answers : TimerAnswers) (pcb : TcpPcb) : TcpConn :=
  match pcb.state with
  | .closed | .listen => .live pcb
  | .timeWait =>
      if 2 * TCP_MSL / TCP_SLOW_INTERVAL < (answers.ticks - pcb.tmr).toNat then .freed
      else .live pcb
  | _ => tcpSlowtmrActive answers pcb

/-- `tcp_fasttmr`. -/
def tcpFasttmr (answers : OutputAnswers) (pcb : TcpPcb) : TcpPcb :=
  match pcb.state with
  | .closed | .listen | .timeWait => pcb
  | _ =>
      if pcb.ackDelay then { tcpAckNow answers pcb with ackDelay := false, ackNow := false }
      else pcb

/-- `tcp_link_change_notify`, on the device of the pcb. -/
def tcpLinkChangeNotify (pcb : TcpPcb) (err : Int) : TcpPcb :=
  if pcb.state = .established ∨ pcb.state = .synSent then
    { pcb with state := .closeWait, err := err }
  else pcb

/-! ## Runs -/

/-- Data of a call, its length in 16 bits. -/
abbrev WriteData := { data : List Byte // data.length < 2 ^ 16 }

/-- What happens to a connection. -/
inductive TcpEvent where
  | connect (answers : ConnectAnswers)
  | write (answers : WriteAnswers) (data : WriteData)
  | close (answers : CloseAnswers)
  | recvData (answers : OutputAnswers) (size : Nat)
  | input (answers : InputAnswers) (seg : TcpSegment)
  | slowtmr (answers : TimerAnswers)
  | fasttmr (answers : OutputAnswers)
  | linkChange (err : Int)
  | setKeepalive (on : Bool) (keepalive : BitVec 32)

/-- One event on a pcb. -/
def pcbStep (pcb : TcpPcb) : TcpEvent → TcpConn
  | .connect answers => .live (tcpConnect answers pcb).2
  | .write answers data => .live (tcpWrite answers pcb data.val).2
  | .close answers => (tcpClose answers pcb).2
  | .recvData answers size => .live (tcpRecvData answers pcb size)
  | .input answers seg => tcpInput answers pcb seg
  | .slowtmr answers => tcpSlowtmr answers pcb
  | .fasttmr answers => .live (tcpFasttmr answers pcb)
  | .linkChange err => .live (tcpLinkChangeNotify pcb err)
  | .setKeepalive on keepalive => .live { pcb with soKeepalive := on, keepalive := keepalive }

/-- One event on a connection; a pcb that is gone stays gone. -/
def tcpStep : TcpConn → TcpEvent → TcpConn
  | .live pcb, event => pcbStep pcb event
  | conn, _ => conn

/-- Where a connection starts: with a pcb the application allocates, or with a segment
for a listener. -/
inductive TcpStart where
  | created (iss : Seq) (ticks : BitVec 32)
  | listened (answers : ListenAnswers) (seg : TcpSegment)

/-- The connection at its start. -/
def TcpStart.conn : TcpStart → TcpConn
  | .created iss ticks => .live (tcpAlloc iss ticks)
  | .listened answers seg => tcpListenInput answers seg

/-- The connection after a run. -/
def tcpRun (start : TcpStart) (events : List TcpEvent) : TcpConn :=
  runEvents tcpStep start.conn events

/-- A condition on the pcb, while there is one. -/
def TcpConn.All (conn : TcpConn) (holds : TcpPcb → Prop) : Prop :=
  match conn with
  | .live pcb => holds pcb
  | _ => True

instance (conn : TcpConn) (holds : TcpPcb → Prop) [DecidablePred holds] :
    Decidable (conn.All holds) :=
  match conn with
  | .live pcb => inferInstanceAs (Decidable (holds pcb))
  | .freed => inferInstanceAs (Decidable True)
  | .hung => inferInstanceAs (Decidable True)

/-- A condition on the events of a run, in the states of the pcb in which they happen. -/
def onPcb (condition : TcpPcb → TcpEvent → Prop) (conn : TcpConn) (event : TcpEvent) : Prop :=
  conn.All fun pcb => condition pcb event

/-- What a pcb has at its start, and keeps in every event that meets a condition, it has
after every run whose events meet it. -/
theorem tcpRun_keeps {kept : TcpPcb → Prop} {condition : TcpPcb → TcpEvent → Prop}
    (each : ∀ pcb event, kept pcb → condition pcb event → (pcbStep pcb event).All kept)
    {start : TcpStart} (first : start.conn.All kept) {events : List TcpEvent}
    (meets : Meets tcpStep (onPcb condition) start.conn events) :
    (tcpRun start events).All kept := by
  refine (@runEvents_keeps _ _ tcpStep (onPcb condition) fun conn => conn.All kept) ?_ first meets
  intro conn event keeps within
  cases conn with
  | live pcb => exact each pcb event keeps within
  | freed => trivial
  | hung => trivial

/-! ## When everything is ready -/

/-- A route, and buffers. -/
def readyEnqueue : EnqueueAnswers := ⟨true, fun _ => true⟩

/-- A route, buffers, and a device that transmits. -/
def readyOutput : OutputAnswers := ⟨true, fun _ => true, true, 1⟩

def readyInput : InputAnswers := ⟨readyOutput, NET_OK, false⟩

/-- A segment without options. -/
def plainSegment (seq ack : Seq) (syn : Bool) (window : BitVec 16) : TcpSegment :=
  ⟨seq, ack, true, syn, false, false, window, 5, fun _ => 0, [], Nat.zero_le _⟩

/-! ## Closing a connection

`tcp_close` goes to `FIN_WAIT_1` or `LAST_ACK` whatever `tcp_send_ctrl` returned. The
close is atomic with the queueing of the FIN exactly when there is a route, a free
place in the send queues and a buffer (`tcpClose_atomic_iff`); otherwise the state has
changed, but no FIN will ever be sent (`tcpClose_without_fin`).
-/

/-- The application can close the pcb with a FIN. -/
def TcpPcb.ClosesWithFin (pcb : TcpPcb) : Prop :=
  pcb.state = .established ∨ pcb.state = .closeWait ∧ pcb.err = NET_ERR_CLSD

/-- The segment that `tcp_send_ctrl` queues for a FIN. -/
def TcpPcb.finSegment (pcb : TcpPcb) : Segment := ⟨pcb.sndLbb, false, true, []⟩

/-- A FIN is among the queued segments that was not there before. -/
structure FinQueued (before after : TcpPcb) : Prop where
  queued : before.finSegment ∈ after.unacked ∨ before.finSegment ∈ after.unsent
  next : after.sndLbb = before.sndLbb + 1

/-- The close is atomic with queueing the FIN: the pcb goes to `FIN_WAIT_1` or `LAST_ACK`
only with a FIN queued, and stays in its state when `tcp_send_ctrl` fails. -/
structure CloseAtomic (answers : CloseAnswers) (pcb after : TcpPcb) : Prop where
  queued : after.state = .finWait1 ∨ after.state = .lastAck → FinQueued pcb after
  unchanged : (tcpSendFin answers.enqueue pcb).1 < 0 → after.state = pcb.state

/-- The states that `tcp_close` goes to. -/
def TcpPcb.closedState (pcb : TcpPcb) : TcpState :=
  if pcb.state = .established then .finWait1 else .lastAck

private theorem tcpClose_eq {answers : CloseAnswers} {pcb : TcpPcb} (closes : pcb.ClosesWithFin) :
    (tcpClose answers pcb).2 = .live (closeWith answers pcb pcb.closedState).2 := by
  unfold tcpClose TcpPcb.closedState
  rcases closes with established | ⟨closeWait, closed⟩
  · rw [established]
    rfl
  · rw [closeWait]
    simp [closed]

private theorem closeWith_state (answers : CloseAnswers) (pcb : TcpPcb) (next : TcpState) :
    (closeWith answers pcb next).2.state = next := by
  unfold closeWith
  dsimp only
  split
  · exact (tcpOutput_sendsOnly _ _).state
  · rfl

private theorem closeWith_finQueued {answers : CloseAnswers} {pcb : TcpPcb}
    (can : CanQueueFlag answers.enqueue pcb) (next : TcpState) :
    FinQueued pcb (closeWith answers pcb next).2 := by
  unfold closeWith tcpSendFin
  rw [tcpEnqueue_flag (.inr ⟨rfl, rfl⟩) can, if_pos (show (0 : Int) = NET_OK from rfl)]
  refine ⟨mem_tcpOutput (Nat.succ_ne_zero _) (.inr ?_), (tcpOutput_sendsOnly _ _).sndLbb⟩
  exact List.mem_append_right _ List.mem_cons_self

/-- **When closing is atomic.** Exactly when the FIN can be queued. -/
theorem tcpClose_atomic_iff {answers : CloseAnswers} {pcb after : TcpPcb}
    (closes : pcb.ClosesWithFin) (closed : (tcpClose answers pcb).2 = .live after) :
    CloseAtomic answers pcb after ↔ CanQueueFlag answers.enqueue pcb := by
  rw [tcpClose_eq closes] at closed
  obtain rfl := TcpConn.live.inj closed
  constructor
  · intro atomic
    by_contra cannot
    have failed := @tcpEnqueue_flag_fails _ _ false true cannot
    have same := atomic.unchanged failed.1
    rw [closeWith_state] at same
    unfold TcpPcb.closedState at same
    rcases closes with established | ⟨closeWait, -⟩
    · simp [established] at same
    · simp [closeWait] at same
  · intro can
    refine ⟨fun _ => closeWith_finQueued can _, fun failed => ?_⟩
    rw [tcpSendFin, tcpEnqueue_flag (.inr ⟨rfl, rfl⟩) can] at failed
    exact absurd failed (lt_irrefl 0)

/-- A connection that has just been established, with an empty send queue. -/
def idlePcb : TcpPcb :=
  { tcpAlloc 100 0 with state := .established, sndWnd := 5000, cwnd := 1400 }

/-- An idle connection is closed atomically. -/
theorem tcpClose_atomic_iff_idle :
    CloseAtomic ⟨readyEnqueue, readyOutput⟩ idlePcb
        (closeWith ⟨readyEnqueue, readyOutput⟩ idlePcb .finWait1).2 ↔
      CanQueueFlag readyEnqueue idlePcb :=
  tcpClose_atomic_iff (.inl rfl) rfl

/-- No buffer is free. -/
def noBuffer : EnqueueAnswers := ⟨true, fun _ => false⟩

/-- **A close without a FIN.** Without a buffer the pcb goes to `FIN_WAIT_1`, although no
FIN was queued. -/
theorem tcpClose_without_fin :
    ¬ ∀ (answers : CloseAnswers) (pcb after : TcpPcb), pcb.ClosesWithFin →
      (tcpClose answers pcb).2 = .live after → CloseAtomic answers pcb after := by
  intro always
  have atomic := always ⟨noBuffer, readyOutput⟩ idlePcb _ (.inl rfl) (tcpClose_eq (.inl rfl))
  exact absurd (atomic.unchanged (by decide)) (by decide)

end PosFirmware.IpStack
