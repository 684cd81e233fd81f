import PosFirmware.Foundation.RingBuffer
import PosFirmware.Foundation.Run

/-!
# Bytes from the Bluetooth UART to the H5 decoder

While there is no connection, `hci_transport_h5_block_received` feeds the decoder one
byte at a time: the byte `hal_uart_dma_receive_block` left in
`hci_transport_link_read_byte` before it reported the block as received. The report comes
also when `PortRecvs` gave up. `decoder_fed_iff` says when the decoder sees exactly the
bytes that arrived: no wait for a byte ends with the timer, and the pool of the port never
runs over.
-/

namespace PosFirmware.Bluetooth

open PosFirmware.Foundation

/-- A byte on the line. -/
abbrev Byte := BitVec 8

/-- `SIO_SIZE`, the length of the pool of a port. -/
def SIO_SIZE : Nat := 8193

/-- The error code of `PortRecvs` when the timer ran out. -/
def RECVS_TIMEOUT : Int := -0xFF

/-- The receive side of the port and of the transport. -/
structure UartState where
  /-- `si_pool` of the port with `si_write` and `si_read`. -/
  pool : RingBuffer Byte
  /-- `hci_transport_link_read_byte`, the one-byte block that is received into. -/
  readByte : Byte
  /-- `receive_complete`; while it is clear, `PortRecvs` waits for a byte. -/
  receiveComplete : Bool
  /-- The bytes `btstack_slip_decoder_process` was called with. -/
  fed : List Byte
  /-- The bytes that arrived. -/
  received : List Byte

/-- What happens to the port. -/
inductive UartEvent where
  /-- The interrupt takes a byte from the line. -/
  | arrive (c : Byte)
  /-- `PortRecvs` looks at the pool, with the timer run out or not. -/
  | poll (expired : Bool)
  /-- The run loop polls the data source. -/
  | process

/-- The receive part of `interrupt_uart`: there is no look at the room left. -/
def interruptUart (c : Byte) (s : UartState) : UartState :=
  { s with pool := s.pool.push c, received := s.received ++ [c] }

/-- One round of the loop of `PortRecvs_std` for one byte: its return value, if it returns. -/
def portRecvsRound (expired : Bool) (s : UartState) : Option Int × UartState :=
  if s.pool.count = 0 then (if expired then some RECVS_TIMEOUT else none, s)
  else (some 1, { s with readByte := s.pool.buf s.pool.tail, pool := s.pool.drop })

/-- The number `received` after `ret` was returned, where the loop of
`hal_uart_dma_receive_block` goes on: the error code is read as a 16-bit count. -/
def receiveLoop (len received : Nat) (ret : Int) : Option Nat :=
  let count := (ret % 65536).toNat
  if 0 < count then
    let received := (received + count) % 65536
    if received < len then some received else none
  else none

/-- `hal_uart_dma_receive_block` of one byte while it waits in `PortRecvs`. -/
def receiveBlockRound (expired : Bool) (s : UartState) : UartState :=
  match portRecvsRound expired s with
  | (none, s) => s
  | (some ret, s) =>
    match receiveLoop 1 0 ret with
    | some _ => s
    | none => { s with receiveComplete := true }

/-- `hci_transport_h5_block_received` without a connection: the byte goes to the decoder
and the next block is started, which clears it. -/
def blockReceived (s : UartState) : UartState :=
  { s with fed := s.fed ++ [s.readByte], readByte := 0 }

/-- `btstack_uart_embedded_process`. -/
def uartProcess (s : UartState) : UartState :=
  if s.receiveComplete then blockReceived { s with receiveComplete := false } else s

/-- One event. -/
def uartStep (s : UartState) : UartEvent → UartState
  | .arrive c => interruptUart c s
  | .poll expired => if s.receiveComplete then s else receiveBlockRound expired s
  | .process => uartProcess s

/-- The port opened and the first block started. -/
def startUart (pool : Nat → Byte) : UartState where
  pool := RingBuffer.empty SIO_SIZE (by decide) pool
  readByte := 0
  receiveComplete := false
  fed := []
  received := []

/-- The byte that waits for the run loop. -/
def pendingByte (s : UartState) : List Byte := if s.receiveComplete then [s.readByte] else []

/-- The decoder saw exactly the bytes received, but for those still on their way. -/
def Delivered (s : UartState) : Prop := s.fed ++ pendingByte s ++ s.pool.contents = s.received

/-- An event in time: no byte arrives at a full pool, and no wait for a byte ends with the
timer. -/
def InTime (s : UartState) : UartEvent → Prop
  | .arrive _ => ¬ s.pool.Full
  | .poll expired => ¬ (s.receiveComplete = false ∧ s.pool.count = 0 ∧ expired = true)
  | .process => True

theorem arrive_delivered {s : UartState} (delivered : Delivered s) (c : Byte) :
    Delivered (interruptUart c s) ↔ ¬ s.pool.Full := by
  constructor
  · intro after full
    have before := congrArg List.length delivered
    have after := congrArg List.length after
    have empty := RingBuffer.count_push_full full c
    have pending : pendingByte (interruptUart c s) = pendingByte s := rfl
    have pool : (interruptUart c s).pool = s.pool.push c := rfl
    have fed : (interruptUart c s).fed = s.fed := rfl
    have received : (interruptUart c s).received = s.received ++ [c] := rfl
    rw [pending, pool, fed, received] at after
    simp only [List.length_append, RingBuffer.length_contents, List.length_singleton, empty]
      at before after
    omega
  · intro room
    have pool : (interruptUart c s).pool.contents = s.pool.contents ++ [c] :=
      RingBuffer.contents_push room c
    unfold Delivered
    rw [pool, ← List.append_assoc]
    exact congrArg (· ++ [c]) delivered

theorem poll_delivered {s : UartState} (delivered : Delivered s) (expired : Bool) :
    Delivered (uartStep s (.poll expired)) ↔ InTime s (.poll expired) := by
  simp only [uartStep, InTime]
  cases complete : s.receiveComplete with
  | true => simp [delivered]
  | false =>
    have idle : pendingByte s = [] := by simp [pendingByte, complete]
    unfold Delivered at delivered
    rw [idle, List.append_nil] at delivered
    by_cases empty : s.pool.count = 0
    · cases expired with
      | false =>
        have same : receiveBlockRound false s = s := by
          simp [receiveBlockRound, portRecvsRound, empty]
        simp [same, Delivered, idle, delivered]
      | true =>
        -- the error code counts as a byte
        have invented : receiveBlockRound true s = { s with receiveComplete := true } := by
          simp [receiveBlockRound, portRecvsRound, empty, receiveLoop, RECVS_TIMEOUT]
        have longer : ¬ Delivered { s with receiveComplete := true } := by
          intro after
          have before := congrArg List.length delivered
          have after := congrArg List.length after
          simp only [pendingByte, if_true, List.length_append, List.length_singleton] at before after
          omega
        simp [invented, longer, empty]
    · have taken : receiveBlockRound expired s = { s with
          readByte := s.pool.buf s.pool.tail, pool := s.pool.drop, receiveComplete := true } := by
        simp [receiveBlockRound, portRecvsRound, empty, receiveLoop]
      have kept : Delivered (receiveBlockRound expired s) := by
        rw [taken, Delivered]
        simp only [pendingByte, if_true]
        rw [List.append_assoc, List.singleton_append, ← RingBuffer.contents_drop empty, delivered]
      simp [kept, empty]

theorem process_delivered {s : UartState} (delivered : Delivered s) :
    Delivered (uartProcess s) := by
  unfold uartProcess
  split
  · next complete =>
    unfold Delivered at delivered ⊢
    simp only [pendingByte, complete, if_true] at delivered
    simp only [blockReceived, pendingByte, Bool.false_eq_true, if_false, List.append_nil]
    exact delivered
  · exact delivered

/-- **The decoder is fed exactly the bytes received**, all along a run, exactly when every
event of the run is in time. -/
theorem decoder_fed_iff (pool : Nat → Byte) (events : List UartEvent) :
    (∀ n, Delivered (runEvents uartStep (startUart pool) (events.take n))) ↔
      Meets uartStep InTime (startUart pool) events := by
  refine keeps_iff_meets ?_ ?_ events
  · intro s event delivered
    cases event with
    | arrive c => exact arrive_delivered delivered c
    | poll expired => exact poll_delivered delivered expired
    | process => exact iff_of_true (process_delivered delivered) trivial
  · simp [Delivered, startUart, pendingByte, RingBuffer.contents, RingBuffer.count_eq,
      RingBuffer.empty]

/-- **A wait that ends with the timer invents a byte**: nothing arrived, and the decoder is
fed a zero. -/
theorem decoder_fed_invented :
    ¬ Delivered (runEvents uartStep (startUart fun _ => 0) [.poll true, .process]) ∧
    (runEvents uartStep (startUart fun _ => 0) [.poll true, .process]).fed = [0] := by
  constructor
  · intro delivered
    exact absurd (congrArg List.length delivered) (by decide +kernel)
  · decide +kernel

end PosFirmware.Bluetooth
