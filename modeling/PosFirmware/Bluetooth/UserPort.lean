import PosFirmware.Bluetooth.Queue
import PosFirmware.Foundation.Run

/-!
# The Bluetooth port

The calls `BtUserPort…` of an application, the connection flag, the handler of HCI events and
`bt_run_loop_send_data`, as far as they use the queues. The application makes one call after
the other; the Bluetooth stack and the task that sends come between the steps of a call that
waits. An operation on a queue is a step, and so is `rfcomm_send`.
-/

namespace PosFirmware.Bluetooth

open PosFirmware.Foundation

/-- The size of `send_data`. -/
def SEND_DATA_SIZE : Nat := 350

/-- The event `packet_handler` takes for the end of a transmission. -/
def COMPLETED_PACKETS : Nat := 19

/-- `BT_STATE_MACHINE_SEND_DATA_STEP_T`. -/
inductive SendStep where
  | sendData
  | readResp
  deriving DecidableEq

/-- Where `bt_run_loop_send_data` stands. -/
inductive SendTask where
  /-- At the first turn of the loop over the steps. -/
  | first
  /-- At the second turn. -/
  | second
  /-- Before `rfcomm_send`, with the bytes and the number of the first of them. -/
  | handing (start : Nat) (bytes : List Byte)
  deriving DecidableEq

/-- What the application is in. -/
inductive AppCall where
  | idle
  /-- `BtUserPortSends` at its loop, with the bytes. -/
  | sendsFull (szData : List Byte)
  /-- `BtUserPortSends` at `QueCheckCapability`. -/
  | sendsCheck (szData : List Byte)
  /-- `BtUserPortSends` at `QuePuts`. -/
  | sendsPut (szData : List Byte)
  /-- `BtUserPortRecvs` at its loop, with the bytes it has. -/
  | recvs (usLen ms : Nat) (got : List Byte)
  deriving DecidableEq

/-- What a call returned, and the bytes it gave. -/
structure Answer where
  code : Int
  got : List Byte

/-- The variables of the port. -/
structure BtPort where
  giBtDevInited : Bool
  giBtPortInited : Bool
  /-- `Connected`. -/
  connected : Bool
  /-- `tMasterRecvQue`. -/
  recvQue : Queue
  /-- `tMasterSendQue`. -/
  sendQue : Queue
  /-- `sending_data_flag` is 1. -/
  sendingDataFlag : Bool
  /-- `sending_len`. -/
  sendingLen : Nat
  /-- `send_data_state_machine_step`. -/
  step : SendStep
  task : SendTask
  call : AppCall
  /-- A call used a queue that was `NULL`; nothing is known after that. -/
  null : Bool
  /-- The answer of the last call. -/
  answer : Option Answer
  /-- The bytes that came into the receive queue. -/
  received : List Byte
  /-- How many of them were there when the port was opened. -/
  openedAt : Nat
  /-- The bytes `BtUserPortSends` put into the send queue. -/
  accepted : List Byte
  /-- How many of them have left it. -/
  gone : Nat
  /-- The send queue was reset after the last `QueGetsWithoutDelete`. -/
  overtaken : Bool
  /-- What was given to `rfcomm_send` with success: the number of the first byte, and the bytes. -/
  handed : List (Nat × List Byte)
  /-- The bytes that resets removed: the number of the first, and how many. -/
  wiped : List (Nat × Nat)
  /-- The bytes `QueGets` removed after the queue was reset behind `QueGetsWithoutDelete`. -/
  astray : List (Nat × Nat)

/-- After `s_RTKBtInit`. -/
def btStart (recvFifo sendFifo : Nat → Byte) : BtPort where
  giBtDevInited := false
  giBtPortInited := false
  connected := false
  recvQue := RingBuffer.empty BT_FIFO_SIZE BT_FIFO_SIZE_pos recvFifo
  sendQue := RingBuffer.empty BT_FIFO_SIZE BT_FIFO_SIZE_pos sendFifo
  sendingDataFlag := false
  sendingLen := 0
  step := .sendData
  task := .first
  call := .idle
  null := false
  answer := none
  received := []
  openedAt := 0
  accepted := []
  gone := 0
  overtaken := false
  handed := []
  wiped := []
  astray := []

/-! ## The queues -/

/-- `QueReset` of the send queue. -/
def BtPort.resetSend (s : BtPort) : BtPort :=
  { s with
    sendQue := queReset s.sendQue
    wiped := s.wiped ++ [(s.gone, s.sendQue.count)]
    gone := s.gone + s.sendQue.count
    overtaken := true }

/-- `QueReset` of the receive queue. -/
def BtPort.resetRecv (s : BtPort) : BtPort := { s with recvQue := queReset s.recvQue }

/-- `QueGets` of the send queue. -/
def BtPort.deleteSend (s : BtPort) (size : Nat) : BtPort :=
  let (bytes, sendQue) := queGets size s.sendQue
  { s with
    sendQue := sendQue
    gone := s.gone + bytes.length
    astray := if s.overtaken then s.astray ++ [(s.gone, bytes.length)] else s.astray }

/-! ## The calls -/

/-- A call ends. -/
def BtPort.returns (s : BtPort) (code : Int) (got : List Byte) : BtPort :=
  { s with call := .idle, answer := some ⟨code, got⟩ }

/-- A call uses a queue it did not choose. -/
def BtPort.usesNull (s : BtPort) : BtPort := { s with null := true }

/-- `BtUserPortOpen`. -/
def btUserPortOpen (s : BtPort) : BtPort :=
  if s.giBtDevInited = false then s.returns 3 []
  else
    let s := s.resetRecv.resetSend
    { s with giBtPortInited := true, openedAt := s.received.length }.returns 0 []

/-- `BtUserPortClose`. -/
def btUserPortClose (s : BtPort) : BtPort :=
  if s.giBtDevInited = false then s.returns 3 []
  else { s.resetRecv.resetSend with giBtPortInited := false }.returns 0 []

/-- `BtUserPortSends` up to its loop. -/
def btUserPortSends (szData : List Byte) (s : BtPort) : BtPort :=
  if s.giBtDevInited = false ∨ s.giBtPortInited = false then s.returns 3 []
  else if s.connected then { s with call := .sendsFull szData, answer := none }
  else s.usesNull

/-- `BtUserPortRecvs` up to its loop. -/
def btUserPortRecvs (usLen ms : Nat) (s : BtPort) : BtPort :=
  if s.giBtDevInited = false ∨ s.giBtPortInited = false then s.returns (-3) []
  else if usLen = 0 then s.returns 0 []
  else if s.connected then { s with call := .recvs usLen ms [], answer := none }
  else s.usesNull

/-- `BtUserPortReset`. -/
def btUserPortReset (s : BtPort) : BtPort :=
  if s.giBtDevInited = false ∨ s.giBtPortInited = false then s.returns 3 []
  else if s.connected then s.resetRecv.returns 0 []
  else s.usesNull

/-- `BtUserPortTxPoolCheck`. -/
def btUserPortTxPoolCheck (s : BtPort) : BtPort :=
  if s.giBtDevInited = false ∨ s.giBtPortInited = false then s.returns 3 []
  else if s.connected then s.returns (if queIsEmpty s.sendQue then 0 else 1) []
  else s.usesNull

/-- `BtUserPortPeep`; `szData` may be `NULL`. -/
def btUserPortPeep (szDataNull : Bool) (iLen : Nat) (s : BtPort) : BtPort :=
  if s.giBtDevInited = false ∨ s.giBtPortInited = false then s.returns (-3) []
  else if szDataNull then s.returns (-1) []
  else if s.connected then
    let got := queGetsWithoutDelete iLen s.recvQue
    s.returns got.length got
  else s.usesNull

/-- `bt_open`. -/
def btOpen (s : BtPort) : BtPort :=
  if s.giBtDevInited then s.returns 0 []
  else
    { s.resetRecv.resetSend with
      connected := false, giBtDevInited := true, giBtPortInited := true,
      openedAt := s.received.length }.returns 0 []

/-- A call. -/
inductive UserCall where
  | openDevice
  | open
  | close
  | sends (szData : List Byte)
  | recvs (usLen ms : Nat)
  | reset
  | txPoolCheck
  | peep (szDataNull : Bool) (iLen : Nat)

/-- A call begins. -/
def UserCall.begin (s : BtPort) : UserCall → BtPort
  | .openDevice => btOpen s
  | .open => btUserPortOpen s
  | .close => btUserPortClose s
  | .sends szData => btUserPortSends szData s
  | .recvs usLen ms => btUserPortRecvs usLen ms s
  | .reset => btUserPortReset s
  | .txPoolCheck => btUserPortTxPoolCheck s
  | .peep szDataNull iLen => btUserPortPeep szDataNull iLen s

/-- A call that waits goes on; `timeUp` is whether its time has passed. -/
def BtPort.continue (s : BtPort) (timeUp : Bool) : BtPort :=
  match s.call with
  | .idle => s
  | .sendsFull szData =>
    if queIsFull s.sendQue then
      if timeUp then s.returns 4 [] else s
    else { s with call := .sendsCheck szData }
  | .sendsCheck szData =>
    if queCheckCapability s.sendQue < szData.length then s.returns 4 []
    else { s with call := .sendsPut szData }
  | .sendsPut szData =>
    { s with
      sendQue := quePuts s.sendQue szData
      accepted := s.accepted ++ szData.take s.sendQue.room }.returns 0 []
  | .recvs usLen ms got =>
    let (bytes, recvQue) := queGets (usLen - got.length) s.recvQue
    let got := got ++ bytes
    let s := { s with recvQue := recvQue }
    if ms = 0 then s.returns got.length got
    else if timeUp = false then
      if got.length < usLen then { s with call := .recvs usLen ms got }
      else s.returns got.length got
    else if got.length ≠ 0 then s.returns got.length got
    else s.returns (-255) []

/-! ## The task that sends -/

/-- `hci_cmd_send_data_send_step` up to `rfcomm_send`. -/
def hciCmdSendDataSendStep (s : BtPort) : BtPort :=
  if s.connected = false then
    { s.resetSend with step := .sendData, task := .first }
  else if s.step ≠ .sendData then { s with task := .first }
  else if queIsEmpty s.sendQue then { s with task := .first }
  else
    { s with
      task := .handing s.gone (queGetsWithoutDelete SEND_DATA_SIZE s.sendQue)
      overtaken := false
      sendingDataFlag := true }

/-- `hci_cmd_send_data_send_step` from `rfcomm_send` on. -/
def hciCmdSendDataSent (s : BtPort) (start : Nat) (bytes : List Byte) (success : Bool) : BtPort :=
  if success then
    { s with
      handed := s.handed ++ [(start, bytes)]
      step := .readResp
      sendingLen := bytes.length
      task := .second }
  else { s with sendingDataFlag := false, task := .first }

/-- `hci_cmd_send_data_read_resp_step`. -/
def hciCmdSendDataReadRespStep (s : BtPort) : BtPort :=
  if s.step ≠ .readResp then { s with task := .first }
  else if s.sendingDataFlag then { s with task := .first }
  else { s with step := .sendData, task := .first }.deleteSend s.sendingLen

/-- The next step of `bt_run_loop_send_data`, with the result of `rfcomm_send`. -/
def btRunLoopSendData (s : BtPort) (success : Bool) : BtPort :=
  match s.task with
  | .first =>
    if s.step = .sendData then hciCmdSendDataSendStep s else { s with task := .second }
  | .second =>
    if s.step = .readResp then hciCmdSendDataReadRespStep s else { s with task := .first }
  | .handing start bytes => hciCmdSendDataSent s start bytes success

/-! ## The system -/

/-- What happens. -/
inductive BtEvent where
  /-- `bt_connect` comes to its end. -/
  | connect
  /-- A channel is closed, or a connection is gone. -/
  | disconnect
  /-- `RFCOMM_DATA_PACKET`. -/
  | data (packet : List Byte)
  /-- An HCI event comes to the `packet_handler` of `bt_main.c`. -/
  | hci (eventType : Nat)
  /-- The application calls. -/
  | call (call : UserCall)
  /-- The call that waits goes on. -/
  | continue (timeUp : Bool)
  /-- The task that sends goes on. -/
  | task (success : Bool)

/-- `packet_handler` for data. -/
def btDataPacket (packet : List Byte) (s : BtPort) : BtPort :=
  { s with
    recvQue := quePuts s.recvQue packet
    received := s.received ++ packet.take s.recvQue.room }

/-- `packet_handler` of `bt_main.c`. -/
def btHciEvent (eventType : Nat) (s : BtPort) : BtPort :=
  if s.sendingDataFlag ∧ eventType = COMPLETED_PACKETS then { s with sendingDataFlag := false }
  else s

/-- One event. -/
def btStep (s : BtPort) (event : BtEvent) : BtPort :=
  if s.null then s
  else
    match event with
    | .connect => { s with connected := true }
    | .disconnect => { s with connected := false }
    | .data packet => btDataPacket packet s
    | .hci eventType => btHciEvent eventType s
    | .call call => if s.call = .idle then call.begin s else s
    | .continue timeUp => s.continue timeUp
    | .task success => btRunLoopSendData s success

end PosFirmware.Bluetooth
