import PosFirmware.IpStack.TcpOptions

/-! # The control block of a TCP connection

Sequence numbers, the states of `tcp.h`, the segments of the send queues, and
`struct tcp_pcb` as `tcp_alloc` leaves it.
-/

namespace PosFirmware.IpStack

/-! ## Sequence numbers -/

abbrev Seq := BitVec 32

/-- `TCP_SEQ_LT`. -/
def tcpSeqLt (a b : Seq) : Prop := (a - b).toInt < 0

/-- `TCP_SEQ_LEQ`. -/
def tcpSeqLeq (a b : Seq) : Prop := (a - b).toInt ≤ 0

/-- `TCP_SEQ_GT`. -/
def tcpSeqGt (a b : Seq) : Prop := 0 < (a - b).toInt

/-- `TCP_SEQ_GEQ`. -/
def tcpSeqGeq (a b : Seq) : Prop := 0 ≤ (a - b).toInt

/-- `TCP_SEQ_BETWEEN`. -/
def tcpSeqBetween (a b c : Seq) : Prop := tcpSeqGeq a b ∧ tcpSeqLeq a c

instance (a b : Seq) : Decidable (tcpSeqLt a b) := inferInstanceAs (Decidable (_ < _))
instance (a b : Seq) : Decidable (tcpSeqLeq a b) := inferInstanceAs (Decidable (_ ≤ _))
instance (a b : Seq) : Decidable (tcpSeqGt a b) := inferInstanceAs (Decidable (_ < _))
instance (a b : Seq) : Decidable (tcpSeqGeq a b) := inferInstanceAs (Decidable (_ ≤ _))
instance (a b c : Seq) : Decidable (tcpSeqBetween a b c) := inferInstanceAs (Decidable (_ ∧ _))

/-! ## Configuration -/

def TCP_RCV_QUEUELEN : Nat := 10
def TCP_SND_QUEUELEN : Nat := 10

/-- `TCP_WND`. -/
def TCP_WND : BitVec 16 := 14000

/-- `TCP_SND_BUF`. -/
def TCP_SND_BUF : BitVec 32 := 14000

def TCP_SLOW_INTERVAL : Nat := 500
def TCP_MAXRTX : BitVec 8 := 120
def TCP_SYNMAXRTX : BitVec 8 := 100
def TCP_FIN_WAIT_TIMEOUT : Nat := 10000
def TCP_SYN_RCVD_TIMEOUT : Nat := 10000
def TCP_MSL : Nat := 1000
def TCP_KEEPDEFAULT : BitVec 32 := 50000
def TCP_KEEPINTVL : Nat := TCP_SLOW_INTERVAL * 2
def TCP_KEEPCNT : BitVec 8 := 10

/-! ## Segments and states -/

/-- A segment of the send queues: the fields of its header that are read again, and its
data. -/
structure Segment where
  seq : Seq
  syn : Bool
  fin : Bool
  data : List Byte
  deriving DecidableEq

/-- `TCP_TCPLEN`, of a segment as `tcp_enqueue` builds it. -/
def Segment.tcpLen (seg : Segment) : Nat := seg.data.length + seg.fin.toNat + seg.syn.toNat

/-- The sequence number after a segment. -/
def Segment.next (seg : Segment) : Seq := seg.seq + BitVec.ofNat 32 seg.tcpLen

/-- `enum tcp_state`. -/
inductive TcpState where
  | closed
  | listen
  | synSent
  | synRcvd
  | established
  | finWait1
  | finWait2
  | closeWait
  | closing
  | lastAck
  | timeWait
  deriving DecidableEq

/-- The value of a state. -/
def TcpState.number : TcpState → Nat
  | .closed => 0
  | .listen => 1
  | .synSent => 2
  | .synRcvd => 3
  | .established => 4
  | .finWait1 => 5
  | .finWait2 => 6
  | .closeWait => 7
  | .closing => 8
  | .lastAck => 9
  | .timeWait => 10

/-- `struct tcp_pcb`. The bits `TF_ACK_DELAY`, `TF_ACK_NOW` and `TF_INFR` of `flags` are
fields of their own. `wire` and `delivered` are no fields of the source: they keep the
segments given to `ip_output` and the bytes given to the application. -/
structure TcpPcb where
  soKeepalive : Bool
  state : TcpState
  ackDelay : Bool
  ackNow : Bool
  infr : Bool
  err : Int
  rcvNxt : Seq
  rcvWnd : BitVec 16
  tmr : BitVec 32
  rtime : BitVec 16
  mss : BitVec 16
  rttest : BitVec 32
  rtseq : Seq
  sa : BitVec 16
  sv : BitVec 16
  rto : BitVec 16
  nrtx : BitVec 8
  lastack : Seq
  dupacks : BitVec 8
  cwnd : BitVec 32
  ssthresh : BitVec 32
  sndNxt : Seq
  sndMax : Seq
  sndWnd : BitVec 32
  sndWl1 : Seq
  sndWl2 : Seq
  sndLbb : Seq
  acked : BitVec 32
  sndBuf : BitVec 32
  incoming : List (List Byte)
  unsent : List Segment
  unacked : List Segment
  keepalive : BitVec 32
  keepCnt : BitVec 8
  sendDataOk : Bool
  wire : List Segment
  delivered : List Byte

/-- `tcp_alloc`, with the initial sequence number and the time. -/
def tcpAlloc (iss : Seq) (ticks : BitVec 32) : TcpPcb where
  soKeepalive := true
  state := .closed
  ackDelay := false
  ackNow := false
  infr := false
  err := NET_OK
  rcvNxt := 0
  rcvWnd := TCP_WND
  tmr := ticks
  rtime := 0
  mss := TCP_MSS
  rttest := 0
  rtseq := 0
  sa := 0
  sv := 6
  rto := 6
  nrtx := 0
  lastack := iss
  dupacks := 0
  cwnd := 1
  ssthresh := 0
  sndNxt := iss
  sndMax := iss
  sndWnd := 0
  sndWl1 := 0
  sndWl2 := iss
  sndLbb := iss
  acked := 0
  sndBuf := TCP_SND_BUF
  incoming := []
  unsent := []
  unacked := []
  keepalive := TCP_KEEPDEFAULT
  keepCnt := 0
  sendDataOk := true
  wire := []
  delivered := []

/-- What becomes of a connection: it goes on with its pcb, the pcb was freed, or a
function never returned. -/
inductive TcpConn where
  | live (pcb : TcpPcb)
  | freed
  | hung

end PosFirmware.IpStack
