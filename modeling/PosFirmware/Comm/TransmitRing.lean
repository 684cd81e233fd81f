import Mathlib.Logic.Function.Basic
import PosFirmware.Comm.Ports
import PosFirmware.Foundation.RingBuffer

/-!
# The transmit buffers of the UARTs

`PortSends_std`, `PortSend_std`, `PortTxs` and `PortTx` up to `uart_phy_sends`, with the
transmit part of `interrupt_uart`. A call takes one step after another, and other calls and
interrupts come between its steps. The ports stay open and keep their UARTs.
-/

namespace PosFirmware.Comm

open PosFirmware.Foundation

/-- `SIO_SIZE`. -/
def SIO_SIZE : Nat := 8193

/-- The turns of a loop that fills the transmit FIFO. -/
def FIFO_TURNS : Nat := 32

/-- Where a call stands, with its local variables. -/
inductive Phase where
  /-- Not called yet. -/
  | unborn
  /-- About to read `so_write` into `o_write`. -/
  | looks
  /-- About to read `so_read` into `o_read`, and to check the length. -/
  | looked (oWrite : Nat)
  /-- Copying the string, with the number of bytes copied. -/
  | copies (oWrite copied : Nat)
  /-- In the loop of `PortSend_std` that waits for room. -/
  | waits (ch : Byte)
  /-- `PortSend_std` behind the loop, about to store the byte. -/
  | stores (ch : Byte)
  /-- `PortTx`, about to store the byte. -/
  | tx (ch : Byte)
  /-- About to read `so_write` for its update. -/
  | updates
  /-- About to write `so_write`. -/
  | publishes (soWrite : Nat)
  /-- About to call `uart_phy_sends`. -/
  | sends
  /-- Returned from a port on a UART. -/
  | returned (code : Nat)
  /-- Returned from the driver of a USB port. -/
  | handed (code : Nat)
  deriving DecidableEq

/-- A call of one of the four functions. -/
structure Writer where
  phase : Phase
  /-- `cur_port`. -/
  port : Nat
  /-- The bytes to send. -/
  str : List Byte
  /-- When the call began. -/
  calledAt : Nat
  /-- When it returned. -/
  returnedAt : Nat

/-- The transmit buffers and the calls. -/
structure TxState where
  /-- `so_pool`, `so_write` and `so_read` of each UART. -/
  rings : Nat → RingBuffer Byte
  /-- What was written to `UART_DR` of each UART. -/
  line : Nat → List Byte
  /-- The calls that moved `so_write` of each UART. -/
  order : Nat → List Nat
  writers : Nat → Writer
  /-- The number of events so far. -/
  now : Nat

/-- After `s_CommInit`, with what is in the pools at first. -/
def txStart (soPool : Nat → Byte) : TxState where
  rings := fun _ => RingBuffer.empty SIO_SIZE (by decide) soPool
  line := fun _ => []
  order := fun _ => []
  writers := fun _ => ⟨.unborn, 0, [], 0, 0⟩
  now := 0

/-! ## The entries of the calls -/

/-- What the checks at the start of `PortSends_std` and `PortSend_std` find. -/
inductive Admission where
  /-- A driver took the call. -/
  | handed (code : Nat)
  /-- The call is refused. -/
  | refused (code : Nat)
  /-- The UART of the channel. -/
  | admitted (curPort : Nat)

/-- The checks of the channel at the start of `PortSends_std` and `PortSend_std`. -/
def checkChannel (m : Machine) (ports : CommState) (sit : Situation) : PortNo → Admission
  | .driver => .handed sit.driverResult
  | .invalid => .refused 2
  | .uart channel =>
    let curPort := ports.xtab channel
    if PHY_UART ≤ curPort ∨ ¬ ports.used curPort then .refused 3
    else if channel = .modem ∧ sit.modemOccupied then .refused 0xf0
    else if channel = .wnet ∧ sit.wnetPppUsed then .refused 0xf0
    else if channel = .wifi ∧ ¬ m.wifiModule then .refused 0xf0
    else .admitted curPort

/-- A call that was refused or handed on ends at once. -/
def Admission.enter (now : Nat) (str : List Byte) (first : Phase) : Admission → Writer
  | .handed code => ⟨.handed code, 0, str, now, now⟩
  | .refused code => ⟨.returned code, 0, str, now, now⟩
  | .admitted curPort => ⟨first, curPort, str, now, now⟩

/-- `PortSends_std` up to the first look at the buffer. -/
def portSendsStd (m : Machine) (ports : CommState) (now : Nat) (sit : Situation) (port : PortNo)
    (str : List Byte) : Writer :=
  (checkChannel m ports sit port).enter now str
    (if SIO_SIZE ≤ str.length then .returned 4 else .looks)

/-- `PortSend_std` up to the loop. -/
def portSendStd (m : Machine) (ports : CommState) (now : Nat) (sit : Situation) (port : PortNo)
    (ch : Byte) : Writer :=
  (checkChannel m ports sit port).enter now [ch] (.waits ch)

/-- `PortTxs` up to the first look at the buffer. -/
def portTxs (ports : CommState) (now : Nat) (channel : Channel) (str : List Byte) : Writer :=
  let curPort := ports.xtab channel
  if PHY_UART ≤ curPort then ⟨.returned 2, 0, str, now, now⟩
  else ⟨.looks, curPort, str, now, now⟩

/-- `PortTx` up to the store. -/
def portTx (ports : CommState) (now : Nat) (channel : Channel) (ch : Byte) : Writer :=
  let curPort := ports.xtab channel
  if PHY_UART ≤ curPort then ⟨.returned 2, 0, [ch], now, now⟩
  else ⟨.tx ch, curPort, [ch], now, now⟩

/-- A call of one of the four functions. -/
inductive TxCall where
  | sendsStd (sit : Situation) (port : PortNo) (str : List Byte)
  | sendStd (sit : Situation) (port : PortNo) (ch : Byte)
  | txs (channel : Channel) (str : List Byte)
  | tx (channel : Channel) (ch : Byte)

/-- The call as it begins. -/
def TxCall.begin (m : Machine) (ports : CommState) (now : Nat) : TxCall → Writer
  | .sendsStd sit port str => portSendsStd m ports now sit port str
  | .sendStd sit port ch => portSendStd m ports now sit port ch
  | .txs channel str => portTxs ports now channel str
  | .tx channel ch => portTx ports now channel ch

/-! ## The steps of a call -/

/-- The loop of `uart_phy_sends` and of `interrupt_uart`, which ends when the FIFO takes no
more or the buffer is empty. -/
def fillFifo (port : Nat) : Nat → TxState → TxState
  | 0, s => s
  | n + 1, s =>
    let ring := s.rings port
    if ring.tail = ring.head then s
    else
      fillFifo port n { s with
        rings := Function.update s.rings port ring.drop
        line := Function.update s.line port (s.line port ++ [ring.buf ring.tail]) }

/-- `uart_phy_sends`, with the number of bytes the FIFO takes. -/
def uartPhySends (port room : Nat) (s : TxState) : TxState := fillFifo port (min FIFO_TURNS room) s

/-- A call changes. -/
def TxState.setWriter (s : TxState) (w : Nat) (writer : Writer) : TxState :=
  { s with writers := Function.update s.writers w writer }

/-- A buffer changes. -/
def TxState.setRing (s : TxState) (port : Nat) (ring : RingBuffer Byte) : TxState :=
  { s with rings := Function.update s.rings port ring }

/-- The length of what is in the buffer, of the values read. -/
def xlen (oWrite oRead : Nat) : Nat :=
  if oRead ≤ oWrite then oWrite - oRead else SIO_SIZE - oRead + oWrite

/-- Where a byte of the string is copied to: in one piece, or in two. -/
def copyPlace (oWrite strLen i : Nat) : Nat :=
  if strLen + oWrite < SIO_SIZE then oWrite + i
  else
    let xlen := SIO_SIZE - oWrite
    if i < xlen then oWrite + i else i - xlen

/-- A call goes on, without anything else. -/
def TxState.go (s : TxState) (w : Nat) (phase : Phase) : TxState :=
  s.setWriter w { s.writers w with phase := phase }

/-- A call returns. -/
def TxState.leave (s : TxState) (w code : Nat) : TxState :=
  s.setWriter w { s.writers w with phase := .returned code, returnedAt := s.now }

/-- The next step of a call. `expired` is whether the timer of `PortSend_std` ran out, `room`
the number of bytes the FIFO takes. -/
def writerStep (s : TxState) (w : Nat) (expired : Bool) (room : Nat) : TxState :=
  let writer := s.writers w
  let ring := s.rings writer.port
  match writer.phase with
  | .unborn | .returned _ | .handed _ => s
  | .looks => s.go w (.looked ring.head)
  | .looked oWrite =>
    if SIO_SIZE ≤ writer.str.length + xlen oWrite ring.tail then s.leave w 4
    else s.go w (.copies oWrite 0)
  | .copies oWrite copied =>
    match writer.str[copied]? with
    | some ch =>
      (s.setRing writer.port (ring.store (copyPlace oWrite writer.str.length copied) ch)).go w
        (.copies oWrite (copied + 1))
    | none => s.go w .updates
  | .waits ch =>
    if ring.tail = (ring.head + 1) % SIO_SIZE then
      if expired then s.leave w 4 else s
    else s.go w (.stores ch)
  | .stores ch | .tx ch => (s.setRing writer.port (ring.store ring.head ch)).go w .updates
  | .updates => s.go w (.publishes ring.head)
  | .publishes soWrite =>
    { (s.setRing writer.port (ring.publish soWrite writer.str.length)).go w .sends with
      order := Function.update s.order writer.port (s.order writer.port ++ [w]) }
  | .sends => (uartPhySends writer.port room s).leave w 0

/-- What happens. -/
inductive TxEvent where
  /-- A call begins. -/
  | call (w : Nat) (call : TxCall)
  /-- A call takes its next step. -/
  | run (w : Nat) (expired : Bool) (room : Nat)
  /-- The transmit interrupt of a UART, with the bytes the FIFO takes before it is full or CTS
  is off. -/
  | interrupt (port room : Nat)

/-- One event; the number of a call is used once. -/
def txStep (m : Machine) (ports : CommState) (s : TxState) (event : TxEvent) : TxState :=
  let s := { s with now := s.now + 1 }
  match event with
  | .call w call =>
    if (s.writers w).phase = .unborn then s.setWriter w (call.begin m ports s.now) else s
  | .run w expired room => writerStep s w expired room
  | .interrupt port room => uartPhySends port room s

/-- `PortTx`, called and run to its end, with the bytes the FIFO takes. -/
def portTxEvents (w : Nat) (channel : Channel) (ch : Byte) (room : Nat) : List TxEvent :=
  [.call w (.tx channel ch), .run w false 0, .run w false 0, .run w false 0, .run w false room]

/-- The loop of `ppp_com_irq_tx` over the characters of `ppp_xmit_char`, each with the bytes the
FIFO takes behind it; `w` numbers the calls. -/
def pppComIrqTx (ports : CommState) (comm : Nat) : Nat → List (Byte × Nat) → List TxEvent
  | _, [] => []
  | w, (c, room) :: rest =>
    (if comm = ports.xtab .wnet then portTxEvents w .wnet c room else []) ++
      (if comm = ports.xtab .modem then portTxEvents (w + 1) .modem c room else []) ++
      pppComIrqTx ports comm (w + 2) rest

end PosFirmware.Comm
