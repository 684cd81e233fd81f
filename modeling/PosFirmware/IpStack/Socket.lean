import Mathlib.Data.Fintype.Card
import Mathlib.Logic.Function.Basic
import PosFirmware.IpStack.TcpPcb

/-! # Sockets

The array of sockets of `socket.c`, with the callbacks that the input path and the timers of
TCP run on it, and the calls of the application. The calls are atomic where the softirq is
off; `NetSocket` finds its slot, and sets its id, while it is on, so the input path can run
between its parts.
-/

namespace PosFirmware.IpStack

/-! ## Sockets and control blocks -/

instance : NeZero MAX_SOCK_COUNT := ⟨by decide⟩

abbrev SockIndex := Fin MAX_SOCK_COUNT

instance : NeZero (MAX_TCP_PCB_COUNT + MAX_TCP_LISTEN_PCB_COUNT) := ⟨by decide⟩

/-- A place in one of the pools of control blocks. -/
abbrev PcbIndex := Fin (MAX_TCP_PCB_COUNT + MAX_TCP_LISTEN_PCB_COUNT)

def SOCK_LISTEN : BitVec 32 := 0x10
def SOCK_ACCEPT : BitVec 32 := 0x20
def SOCK_EVENT_CONN : BitVec 32 := 0x04
def SOCK_EVENT_ACCEPT : BitVec 32 := 0x08
def SOCK_EVENT_ERROR : BitVec 32 := 0x10

/-- `struct inet_ops *`. -/
inductive SockOps where
  | null
  | tcp
  | udp
  deriving DecidableEq

/-- `struct sock`, without the fields of the blocking calls. `data` is the place of a
`tcp_pcb`. -/
structure Sock where
  id : BitVec 32
  waitAccept : Bool
  backlog : Int
  event : BitVec 32
  childNum : Int
  flag : BitVec 32
  ops : SockOps
  data : Option PcbIndex
  deriving DecidableEq

/-- A slot after `memset`. -/
def Sock.zero : Sock := ⟨0, false, 0, 0, 0, 0, .null, none⟩

/-- The fields of a `tcp_pcb` that its owner sees. `accept` and `errf` say whether
`inet_tcp_accept_cb` and `inet_tcp_err_cb` are set. -/
structure SockPcb where
  state : TcpState
  callbackArg : Option SockIndex
  localPort : BitVec 16
  err : Int
  accept : Bool
  errf : Bool
  deriving DecidableEq

/-- Where the application is in a call of `NetSocket`: it has found a slot, or has created
the control block of the slot. -/
inductive SocketCall where
  | idle
  | found (k : SockIndex) (ops : SockOps)
  | created (k : SockIndex)
  deriving DecidableEq

/-- The sockets, the last id, the control blocks in the pools, and the call that the
application is in. -/
structure SockState where
  sockArr : SockIndex → Sock
  sockId : BitVec 32
  pcbs : PcbIndex → Option SockPcb
  call : SocketCall

namespace SockState

/-- A socket was written. -/
def setSock (s : SockState) (i : SockIndex) (sk : Sock) : SockState :=
  { s with sockArr := Function.update s.sockArr i sk }

/-- A control block was written, allocated or freed. -/
def setPcb (s : SockState) (p : PcbIndex) (pcb : Option SockPcb) : SockState :=
  { s with pcbs := Function.update s.pcbs p pcb }

/-- `sock_get`. -/
def sockGet (s : SockState) (id : BitVec 32) : Option SockIndex :=
  (List.finRange MAX_SOCK_COUNT).find? fun i => (s.sockArr i).id = id

/-- `sock_find_accept`. -/
def sockFindAccept (s : SockState) (id : BitVec 32) : Option SockIndex :=
  (List.finRange MAX_SOCK_COUNT).find? fun i => (s.sockArr i).id = id ∧ (s.sockArr i).waitAccept

/-- The loop of `sock_set_id`. Of more ids than there are slots one is free. -/
def freeId (s : SockState) : (fuel : Nat) → BitVec 32 → BitVec 32
  | 0, id => id
  | fuel + 1, id => if id = 0 ∨ (s.sockGet id).isSome then freeId s fuel (id + 1) else id

/-- `sock_set_id`. -/
def sockSetId (s : SockState) (i : SockIndex) : SockState :=
  let id := s.freeId (MAX_SOCK_COUNT + 2) s.sockId
  { s.setSock i { s.sockArr i with id := id } with sockId := id }

/-! ## Callbacks -/

/-- `inet_tcp_connected_cb`. -/
def inetTcpConnectedCb (s : SockState) (i : SockIndex) : SockState :=
  s.setSock i { s.sockArr i with event := (s.sockArr i).event ||| SOCK_EVENT_CONN }

/-- The socket that `inet_tcp_err_cb` takes for the listener. -/
def errListener (s : SockState) (i : SockIndex) : Option SockIndex :=
  (List.finRange MAX_SOCK_COUNT).find? fun k =>
    i ≠ k ∧ (s.sockArr i).id = (s.sockArr k).id ∧ (s.sockArr k).childNum > 0

/-- `inet_tcp_err_cb`. Without a listener it counts down a word behind the array. -/
def inetTcpErrCb (s : SockState) (i : SockIndex) (err : Int) : SockState :=
  let s := s.setSock i { s.sockArr i with event := (s.sockArr i).event ||| SOCK_EVENT_ERROR }
  if err ≠ NET_ERR_RST then s
  else if (s.sockArr i).flag &&& SOCK_ACCEPT = 0 then s
  else
    let listener := s.errListener i
    let s := match (s.sockArr i).data with
      | some p => s.setPcb p ((s.pcbs p).map fun (pcb : SockPcb) => { pcb with state := .closed })
      | none => s
    let s := match listener with
      | some k => s.setSock k { s.sockArr k with childNum := (s.sockArr k).childNum - 1 }
      | none => s
    s.setSock i { s.sockArr i with id := 0 }

/-- The slot that `inet_tcp_accept_cb` takes for a new connection. -/
def acceptSlot (s : SockState) (i : SockIndex) : Option SockIndex :=
  if (s.sockArr i).childNum ≥ (s.sockArr i).backlog then none else s.sockGet 0

/-- `inet_tcp_accept_cb`. -/
def inetTcpAcceptCb (s : SockState) (i : SockIndex) (newpcb : PcbIndex) : Int × SockState :=
  match s.acceptSlot i with
  | none => (NET_ERR_MEM, s)
  | some child =>
      let s := s.setSock child .zero
      let s := s.setSock child { s.sockArr child with
        id := (s.sockArr i).id, ops := (s.sockArr i).ops, data := some newpcb,
        flag := (s.sockArr i).flag ||| SOCK_ACCEPT }
      let s := s.setPcb newpcb ((s.pcbs newpcb).map fun (pcb : SockPcb) =>
        { pcb with callbackArg := some child, errf := true })
      let s := s.setSock i { s.sockArr i with
        childNum := (s.sockArr i).childNum + 1,
        event := (s.sockArr i).event ||| SOCK_EVENT_ACCEPT }
      (NET_OK, s.setSock child { s.sockArr child with waitAccept := true })

/-- `TCP_EVENT_ERR`. -/
def tcpEventErr (s : SockState) (pcb : SockPcb) (err : Int) : SockState :=
  match pcb.errf, pcb.callbackArg with
  | true, some i => s.inetTcpErrCb i err
  | _, _ => s

/-! ## What TCP does with a control block -/

/-- `tcp_abort`. -/
def tcpAbort (s : SockState) (p : PcbIndex) : SockState :=
  match s.pcbs p with
  | none => s
  | some pcb =>
      if pcb.state = .timeWait then s.setPcb p none
      else (s.setPcb p none).tcpEventErr pcb NET_ERR_ABRT

/-- `tcp_close`. -/
def tcpClose (s : SockState) (p : PcbIndex) : SockState :=
  match s.pcbs p with
  | none => s
  | some pcb =>
      match pcb.state with
      | .closed | .listen | .synSent | .synRcvd => s.setPcb p none
      | .established =>
          s.setPcb p (some { pcb with state := .finWait1, callbackArg := none, errf := false })
      | .closeWait =>
          if pcb.err ≠ NET_ERR_CLSD then s.setPcb p none
          else s.setPcb p (some { pcb with state := .lastAck, callbackArg := none, errf := false })
      | _ => s

/-- A SYN for a listening socket: `tcp_listen_input`, with the control block that
`tcp_alloc` found. -/
def tcpListenInput (s : SockState) (p npcb : PcbIndex) : SockState :=
  match s.pcbs p, s.pcbs npcb with
  | some pcb, none =>
      if pcb.state = .listen then
        s.setPcb npcb (some ⟨.synRcvd, pcb.callbackArg, pcb.localPort, NET_OK, pcb.accept, false⟩)
      else s
  | _, _ => s

/-- The expected ACK in `SYN_RCVD`. -/
def tcpProcessAck (s : SockState) (p : PcbIndex) : SockState :=
  match s.pcbs p with
  | none => s
  | some pcb =>
      if pcb.state = .synRcvd then
        let s := s.setPcb p (some { pcb with state := .established })
        match pcb.accept, pcb.callbackArg with
        | true, some i =>
            let answer := s.inetTcpAcceptCb i p
            if answer.1 ≠ NET_OK then answer.2.tcpAbort p else answer.2
        | _, _ => s
      else s

/-- The states between which the other segments move a connection. -/
def tcpMoves : TcpState → TcpState → Bool
  | .synSent, .established | .established, .closeWait | .closeWait, .closeWait => true
  | .finWait1, .timeWait | .finWait1, .closing | .finWait1, .finWait2 => true
  | .finWait2, .timeWait | .closing, .timeWait | .lastAck, .closed => true
  | _, _ => false

/-- A segment that moves a connection: `tcp_process`, and `tcp_input` after it. -/
def tcpProcess (s : SockState) (p : PcbIndex) (next : TcpState) : SockState :=
  match s.pcbs p with
  | none => s
  | some pcb =>
      if tcpMoves pcb.state next then
        match next, pcb.callbackArg with
        | .closed, _ => s.setPcb p none
        | .closeWait, _ => s.setPcb p (some { pcb with state := .closeWait, err := NET_ERR_CLSD })
        | .established, some i =>
            (s.setPcb p (some { pcb with state := .established })).inetTcpConnectedCb i
        | _, _ => s.setPcb p (some { pcb with state := next })
      else s

/-- An acceptable RST: `tcp_input` after `TF_RESET`. -/
def tcpInputReset (s : SockState) (p : PcbIndex) : SockState :=
  match s.pcbs p with
  | none => s
  | some pcb =>
      if pcb.state = .closed ∨ pcb.state = .listen ∨ pcb.state = .timeWait then s
      else
        let s := s.tcpEventErr pcb NET_ERR_RST
        match s.pcbs p with
        | none => s
        | some pcb =>
            if pcb.state = .established ∨ pcb.state = .synSent ∨ pcb.state = .closeWait then
              s.setPcb p (some { pcb with err := NET_ERR_RST, state := .closed })
            else s.setPcb p none

/-- `tcp_slowtmr` removes a connection: after too many SYNs, after too many segments, after
too many keepalive probes, or when it was too long in its state. -/
inductive TcpExpiry where
  | syn
  | data (tooLong : Bool)
  | keepalive
  | stuck
  deriving DecidableEq

/-- The error that the owner gets. -/
def TcpExpiry.err : TcpExpiry → Int
  | .syn | .keepalive => NET_ERR_TIMEOUT
  | .data _ => NET_ERR_ABRT
  | .stuck => NET_OK

/-- The control block is freed here, and not by the application. -/
def TcpExpiry.frees : TcpExpiry → Bool
  | .data tooLong => tooLong
  | .stuck => true
  | _ => false

/-- The states in which it can happen. -/
def TcpExpiry.allows (expiry : TcpExpiry) (state : TcpState) : Bool :=
  let canStick := state = .synRcvd ∨ state = .finWait1 ∨ state = .finWait2 ∨ state = .closing ∨
    state = .lastAck
  match expiry with
  | .syn => state = .synSent
  | .data tooLong =>
      state ≠ .closed ∧ state ≠ .listen ∧ state ≠ .timeWait ∧ (tooLong → canStick)
  | .keepalive => state = .established
  | .stuck => canStick

/-- The removal in `tcp_slowtmr`. -/
def tcpExpire (s : SockState) (p : PcbIndex) (expiry : TcpExpiry) : SockState :=
  match s.pcbs p with
  | none => s
  | some pcb =>
      if expiry.allows pcb.state then
        let err := if expiry.err = NET_OK then pcb.err else expiry.err
        let s := s.setPcb p (some { pcb with state := .closed, err := err })
        let s := if expiry.err = NET_OK then s else s.tcpEventErr pcb expiry.err
        if expiry.frees then s.setPcb p none else s
      else s

/-- The end of `TIME_WAIT`. -/
def tcpTimeWaitOver (s : SockState) (p : PcbIndex) : SockState :=
  match s.pcbs p with
  | some pcb => if pcb.state = .timeWait then s.setPcb p none else s
  | none => s

/-- `tcp_kill_timewait`, when `tcp_alloc` finds no free control block. -/
def tcpKillTimewait (s : SockState) (p : PcbIndex) : SockState :=
  match s.pcbs p with
  | some pcb =>
      if pcb.state = .timeWait ∨ pcb.state = .finWait1 ∨ pcb.state = .finWait2 ∨
          pcb.state = .closing ∨ pcb.state = .lastAck then
        s.tcpAbort p
      else s
  | none => s

/-- `tcp_link_change_notify`, of one connection. -/
def tcpLinkChange (s : SockState) (p : PcbIndex) (errCode : Int) : SockState :=
  match s.pcbs p with
  | some pcb =>
      if pcb.state = .established ∨ pcb.state = .synSent then
        s.setPcb p (some { pcb with state := .closeWait, err := errCode })
      else s
  | none => s

/-! ## Calls -/

/-- `NetSocket`: the free slot. -/
def netSocketFind (s : SockState) (ops : SockOps) : SockState :=
  match s.sockGet 0 with
  | some k => { s with call := .found k ops }
  | none => s

/-- `NetSocket`: the slot is cleared, and gets its control block, if there is one. -/
def netSocketCreate (s : SockState) (k : SockIndex) (ops : SockOps) (pcb : Option PcbIndex) :
    SockState :=
  let cleared := s.setSock k { Sock.zero with ops := ops }
  match ops, pcb with
  | .tcp, some p =>
      if s.pcbs p = none then
        { (cleared.setSock k { Sock.zero with ops := ops, data := some p }).setPcb p
            (some ⟨.closed, some k, 0, NET_OK, false, true⟩) with call := .created k }
      else { cleared with call := .idle }
  | .udp, some _ => { cleared with call := .created k }
  | _, _ => { cleared with call := .idle }

/-- `NetSocket`: the id. -/
def netSocketSetId (s : SockState) (k : SockIndex) : SockState :=
  { s.sockSetId k with call := .idle }

/-- The control block of a TCP socket: `index_to_sk`, `ops` and `data`. -/
def tcpData (s : SockState) (i : SockIndex) : Option (PcbIndex × SockPcb) :=
  if (s.sockArr i).id = 0 ∨ (s.sockArr i).ops ≠ .tcp then none
  else (s.sockArr i).data.bind fun p => (s.pcbs p).map fun pcb => (p, pcb)

/-- `NetBind`, where it succeeds. -/
def inetTcpBind (s : SockState) (i : SockIndex) (port : BitVec 16) : SockState :=
  match s.tcpData i with
  | some (p, pcb) =>
      if pcb.state = .closed ∧ pcb.localPort = 0 then
        s.setPcb p (some { pcb with localPort := port })
      else s
  | none => s

/-- `NetConnect`, up to `SYN_SENT`. -/
def inetTcpConnect (s : SockState) (i : SockIndex) (newPort : BitVec 16) : SockState :=
  match s.tcpData i with
  | some (p, pcb) =>
      if pcb.state = .closed then
        let port := if pcb.localPort = 0 then newPort else pcb.localPort
        s.setPcb p (some { pcb with state := .synSent, localPort := port })
      else s
  | none => s

/-- `NetListen`, with the control block that `tcp_listen` found. -/
def inetTcpListen (s : SockState) (i : SockIndex) (backlog : Int) (lpcb : PcbIndex) : SockState :=
  match s.tcpData i with
  | none => s
  | some (p, pcb) =>
      if backlog ≤ 0 ∨ backlog > 5 then s
      else if pcb.state = .listen then
        (s.setPcb p (some { pcb with accept := true })).setSock i
          { s.sockArr i with backlog := backlog, flag := (s.sockArr i).flag ||| SOCK_LISTEN }
      else if pcb.localPort = 0 ∨ (s.pcbs lpcb).isSome then s
      else
        let listener : SockPcb := ⟨.listen, pcb.callbackArg, pcb.localPort, NET_OK, true, false⟩
        ((s.setPcb lpcb (some listener)).setPcb p none).setSock i { s.sockArr i with
          backlog := backlog, data := some lpcb, flag := (s.sockArr i).flag ||| SOCK_LISTEN }

/-- The part of `NetAccept` where the softirq is off. -/
def inetTcpAccept (s : SockState) (i : SockIndex) : SockState :=
  match s.tcpData i with
  | none => s
  | some (_, pcb) =>
      if pcb.state = .listen ∧ (s.sockArr i).childNum > 0 then
        match s.sockFindAccept (s.sockArr i).id with
        | none => s
        | some child =>
            let s := s.setSock child { s.sockArr child with
              flag := (s.sockArr child).flag &&& ~~~SOCK_ACCEPT }
            let s := s.setSock i { s.sockArr i with childNum := (s.sockArr i).childNum - 1 }
            let s := s.setSock child { s.sockArr child with waitAccept := false }
            let s := s.sockSetId child
            match (s.sockArr child).data with
            | some p =>
                if (s.pcbs p).any fun pcb => pcb.state = .established then s
                else
                  let s := s.tcpClose p
                  s.setSock child { s.sockArr child with id := 0 }
            | none => s
      else s

/-- One round of the loop over the connections of a listener in `inet_tcp_close`. -/
def closeChild (i : SockIndex) (s : SockState) (k : SockIndex) : SockState :=
  if k ≠ i ∧ (s.sockArr k).id = (s.sockArr i).id then
    let s := match (s.sockArr k).data with
      | some p => s.tcpClose p
      | none => s
    let s := s.setSock k { s.sockArr k with id := 0, waitAccept := false }
    s.setSock i { s.sockArr i with childNum := (s.sockArr i).childNum - 1 }
  else s

/-- `NetCloseSocket`. -/
def netCloseSocket (s : SockState) (i : SockIndex) : SockState :=
  if (s.sockArr i).id = 0 ∨ (s.sockArr i).waitAccept then s
  else
    let s := match s.tcpData i with
      | some (p, pcb) =>
          let s := if pcb.state = TcpState.listen ∧ (s.sockArr i).childNum > 0 then
              (List.finRange MAX_SOCK_COUNT).foldl (closeChild i) s
            else s
          s.tcpClose p
      | none => s
    s.setSock i { s.sockArr i with id := 0 }

end SockState

/-! ## Events -/

/-- What happens to the sockets: the parts of `NetSocket`, the other calls, segments for a
control block, and what the timers and a change of the link do. -/
inductive SockEvent where
  | socketFind (ops : SockOps)
  | socketCreate (pcb : Option PcbIndex)
  | socketSetId
  | bind (i : SockIndex) (port : BitVec 16)
  | connect (i : SockIndex) (newPort : BitVec 16)
  | listen (i : SockIndex) (backlog : Int) (lpcb : PcbIndex)
  | accept (i : SockIndex)
  | close (i : SockIndex)
  | syn (p npcb : PcbIndex)
  | ack (p : PcbIndex)
  | segment (p : PcbIndex) (next : TcpState)
  | reset (p : PcbIndex)
  | expire (p : PcbIndex) (expiry : SockState.TcpExpiry)
  | timeWaitOver (p : PcbIndex)
  | kill (p : PcbIndex)
  | linkChange (p : PcbIndex) (errCode : Int)

/-- A call of the application, which makes one at a time. -/
def SockState.called (s : SockState) (after : SockState) : SockState :=
  if s.call = .idle then after else s

/-- The step of an event. An event that cannot happen changes nothing. -/
def sockStep (s : SockState) : SockEvent → SockState
  | .socketFind ops => s.called (s.netSocketFind ops)
  | .socketCreate pcb =>
      match s.call with
      | .found k ops => s.netSocketCreate k ops pcb
      | _ => s
  | .socketSetId =>
      match s.call with
      | .created k => s.netSocketSetId k
      | _ => s
  | .bind i port => s.called (s.inetTcpBind i port)
  | .connect i newPort => s.called (s.inetTcpConnect i newPort)
  | .listen i backlog lpcb => s.called (s.inetTcpListen i backlog lpcb)
  | .accept i => s.called (s.inetTcpAccept i)
  | .close i => s.called (s.netCloseSocket i)
  | .syn p npcb => s.tcpListenInput p npcb
  | .ack p => s.tcpProcessAck p
  | .segment p next => s.tcpProcess p next
  | .reset p => s.tcpInputReset p
  | .expire p expiry => s.tcpExpire p expiry
  | .timeWaitOver p => s.tcpTimeWaitOver p
  | .kill p => s.tcpKillTimewait p
  | .linkChange p errCode => s.tcpLinkChange p errCode

/-- The sockets before the first call. -/
def SockState.boot : SockState := ⟨fun _ => .zero, 1, fun _ => none, .idle⟩

end PosFirmware.IpStack
