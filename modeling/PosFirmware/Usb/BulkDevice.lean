import PosFirmware.Foundation.Memory
import PosFirmware.Foundation.RingBuffer

/-!
# The bulk receiver of the USB device

`dev_bulk_io`, `dev_bulk_io_h`, `step_tx_ep1` and the endpoint-1 part of `interrupt_usbdev` of
`usbdev.c`, with `UsbDevSends` and `UsbDevRecvs`. A request comes in packets that are put
together in `tmps`. `none` stands for a write outside of an array.

The two receivers have one shape. `fast` tells `dev_bulk_io_h` from `dev_bulk_io`; the static
variables are those of the receiver that runs.
-/

namespace PosFirmware.Usb

open PosFirmware.Foundation

abbrev Byte := BitVec 8

def EP1_BUF_SIZE : Nat := 64
def RX_POOL_SIZE : Nat := 65537
def TX_POOL_SIZE : Nat := 10241
def MAXDATA : Nat := 32763

/-- The length of `tmps`. -/
def TMPS_SIZE : Nat := MAXDATA + 10

/-- `ST_BULK_IO`. -/
structure BulkIo where
  id : Byte
  reqType : Byte
  len : Nat
  data : Nat → Byte

/-- A byte of the packed record. -/
def BulkIo.byte (bulk : BulkIo) : Nat → Byte
  | 0 => bulk.id
  | 1 => bulk.reqType
  | 2 => BitVec.ofNat 8 bulk.len
  | 3 => BitVec.ofNat 8 (bulk.len / 256)
  | i + 4 => bulk.data i

/-- Bytes seen as a record. -/
def BulkIo.of (tmps : Nat → Byte) : BulkIo where
  id := tmps 0
  reqType := tmps 1
  len := (tmps 2).toNat + 256 * (tmps 3).toNat
  data i := tmps (i + 4)

/-- Bytes copied to the start of `data`. -/
def BulkIo.fill (bulk : BulkIo) (bytes : List Byte) : Option BulkIo :=
  if bytes.length ≤ MAXDATA then some { bulk with data := blit bulk.data 0 bytes } else none

/-- The exclusive-or of some bytes. -/
def xorAll (bytes : List Byte) : Byte := bytes.foldl (· ^^^ ·) 0

/-- The checksum that both functions below compute. -/
def checksum (bulk : BulkIo) : Byte :=
  xorAll (slice bulk.byte 2 (bulk.len + 2)) ^^^ (bulk.id &&& 0x0f) ^^^ (bulk.reqType &&& 0x0f)

/-- `verify_checksum`, and the record without the checksum. -/
def verifyChecksum (bulk : BulkIo) : Option BulkIo :=
  if checksum bulk = (bulk.id &&& (0xf0 : Byte)) + (bulk.reqType >>> 4) then
    some { bulk with id := bulk.id &&& 0x0f, reqType := bulk.reqType &&& 0x0f }
  else none

/-- `set_checksum`. -/
def setChecksum (bulk : BulkIo) : BulkIo :=
  { bulk with
    id := (bulk.id &&& 0x0f) ||| (checksum bulk &&& 0xf0)
    reqType := bulk.reqType ||| (checksum bulk <<< 4) }

/-! ## What requests act on -/

/-- `last_bio`, all of it `-1` at first. A BULK IN sets `data_len`. -/
structure LastBio where
  seqNo : Int
  reqType : Int
  dataLen : Nat

/-- The pools, `last_bio`, `maxdata` and `f_bulkio_reattach`. -/
structure Pools where
  rx : RingBuffer Byte
  tx : RingBuffer Byte
  lastBio : LastBio
  maxdata : Nat
  reattach : Nat
  rx_size : rx.size = RX_POOL_SIZE
  tx_size : tx.size = TX_POOL_SIZE

/-- `bio_state.rx_left`. -/
def Pools.rxLeft (pools : Pools) : Nat := RX_POOL_SIZE - 1 - pools.rx.count

/-- The four numbers of `bio_state`. -/
def Pools.bioState (pools : Pools) : List Byte :=
  [TX_POOL_SIZE - 1, RX_POOL_SIZE - 1, pools.tx.count, pools.rxLeft].flatMap fun number =>
    [BitVec.ofNat 8 number, BitVec.ofNat 8 (number / 2 ^ 8), BitVec.ofNat 8 (number / 2 ^ 16),
      BitVec.ofNat 8 (number / 2 ^ 24)]

/-- A byte of a request put into the pool in front of `rx_write`. -/
def Pools.stage (pools : Pools) (i : Nat) (byte : Byte) : Pools :=
  { pools with rx := pools.rx.store ((pools.rx.head + i) % RX_POOL_SIZE) byte
               rx_size := pools.rx_size }

/-- Bytes copied to a place of the receive pool. -/
def Pools.copy (pools : Pools) (start : Nat) (bytes : List Byte) : Option Pools :=
  if start + bytes.length ≤ RX_POOL_SIZE then
    some { pools with rx := { pools.rx with buf := blit pools.rx.buf start bytes }
                      rx_size := pools.rx_size }
  else none

/-- Bytes copied to `rx_write`, in two parts behind the end of the pool. -/
def Pools.copyIn (pools : Pools) (bytes : List Byte) : Option Pools :=
  if pools.rx.head + bytes.length ≤ RX_POOL_SIZE then pools.copy pools.rx.head bytes
  else (pools.copy pools.rx.head (bytes.take (RX_POOL_SIZE - pools.rx.head))).bind fun next =>
    next.copy 0 (bytes.drop (RX_POOL_SIZE - pools.rx.head))

/-- `rx_write` moved behind some bytes. -/
def Pools.publish (pools : Pools) (n : Nat) : Pools :=
  { pools with rx := pools.rx.publish pools.rx.head n, rx_size := pools.rx_size }

/-- `tx_read` moved behind the bytes of the last BULK IN, when another request shows that they
arrived. -/
def Pools.finishLast (pools : Pools) (bulk : BulkIo) : Pools :=
  if pools.lastBio.reqType = 1 ∧
      ((bulk.id.toNat : Int) ≠ pools.lastBio.seqNo ∨ bulk.reqType ≠ 1) then
    { pools with tx := pools.tx.skip pools.lastBio.dataLen, tx_size := pools.tx_size }
  else pools

/-- `last_bio` after a request. -/
def Pools.backup (pools : Pools) (bulk : BulkIo) : Pools :=
  { pools with lastBio := { pools.lastBio with seqNo := bulk.id.toNat
                                               reqType := bulk.reqType.toNat } }

/-! ## Requests -/

/-- What the `switch` does with a request. -/
inductive Outcome where
  | reject
  | reset
  | answer (bulkOut : BulkIo)

variable (fast : Bool)

/-- `ANSWER_STATUS`. -/
def answerStatus (pools : Pools) (bulk bulkOut : BulkIo) (reqType : Byte) :
    Option (Pools × Outcome) :=
  ({ bulkOut with id := bulk.id, reqType := reqType, len := 16 }.fill pools.bioState).map
    fun bulkOut => ({ pools with reattach := 1 }, .answer bulkOut)

/-- `case 4`. -/
def getInfo (pools : Pools) (bulk bulkOut : BulkIo) : Option (Pools × Outcome) :=
  let maxdata := if fast then MAXDATA else 508
  ({ bulkOut with id := bulk.id, reqType := 4, len := 2 }.fill
      [BitVec.ofNat 8 maxdata, BitVec.ofNat 8 (maxdata / 256)]).map
    fun bulkOut => ({ pools with maxdata := maxdata }, .answer bulkOut)

/-- Whether a BULK OUT repeats the last one. -/
def Pools.repeated (pools : Pools) (bulk : BulkIo) : Prop :=
  pools.lastBio.reqType = 0 ∧ (bulk.id.toNat : Int) = pools.lastBio.seqNo

instance (pools : Pools) (bulk : BulkIo) : Decidable (pools.repeated bulk) :=
  inferInstanceAs (Decidable (_ ∧ _))

/-- `case 0`. The fast receiver has stored the bytes already. -/
def bulkOut (pools : Pools) (bulk out : BulkIo) : Option (Pools × Outcome) :=
  if pools.repeated bulk then answerStatus pools bulk out 2
  else if pools.rxLeft < bulk.len then answerStatus pools bulk out 0
  else (if fast then some pools else pools.copyIn (slice bulk.data 0 bulk.len)).bind
    fun pools => answerStatus (pools.publish bulk.len) bulk out 2

/-- The number of bytes that answer a BULK IN. -/
def Pools.inLen (pools : Pools) (bulk : BulkIo) : Nat :=
  min (min pools.tx.count ((bulk.data 0).toNat + 256 * (bulk.data 1).toNat))
    (if fast then pools.maxdata - 1 else pools.maxdata)

/-- `case 1`. The fast receiver fills in the bytes while it sends them. -/
def bulkIn (pools : Pools) (bulk out : BulkIo) : Option (Pools × Outcome) :=
  if bulk.len < 2 then some (pools, .reject)
  else if pools.inLen fast bulk = 0 then
    answerStatus { pools with lastBio := { pools.lastBio with dataLen := 0 } } bulk out 2
  else
    (if fast then some out
      else out.fill ((List.range (pools.inLen fast bulk)).map fun i =>
        pools.tx.buf (pools.tx.place i))).map
      fun out =>
        ({ pools with lastBio := { pools.lastBio with dataLen := pools.inLen fast bulk } },
          .answer { out with id := bulk.id, reqType := 1, len := pools.inLen fast bulk })

/-- The `switch` on the type of a request. -/
def onRequest (pools : Pools) (bulk out : BulkIo) : Option (Pools × Outcome) :=
  match bulk.reqType.toNat with
  | 0 => bulkOut fast pools bulk out
  | 1 => bulkIn fast pools bulk out
  | 2 => answerStatus pools bulk out 2
  | 3 => some (pools, .reset)
  | 4 => getInfo fast pools bulk out
  | _ => some (pools, .reject)

/-! ## Packets -/

/-- `task_p1[1]`: at `STEP0`, `STEP1` or `STEP2`. -/
inductive Task where
  | start
  | receive
  | send
  deriving DecidableEq

/-- The endpoint and what it works on. -/
structure Device where
  pools : Pools
  taskP1 : Task
  /-- `task_p2[1]`: whether a packet waits to be fetched by the host. -/
  taskP2 : Bool
  tmps : Nat → Byte
  rn : Nat
  checkSum : Byte
  checkI : Nat
  bulkOut : BulkIo
  tn : Nat
  /-- `tn`, `i` and `cn` of `step_tx_ep1`. -/
  txLeft : Nat
  txAt : Nat
  txLen : Nat
  txDataNo : Bool
  /-- The packets given to the endpoint, the last one last. -/
  sent : List (List Byte)

/-- `cur_txn`: the kinds of interrupts, the received packet and the data toggle of the endpoint. -/
structure Txn where
  pidOut : Bool
  pidIn : Bool
  packet : List Byte
  toggle : Bool
  packet_length : packet.length ≤ EP1_BUF_SIZE

/-- `STEP1` of `step_tx_ep1`. -/
def Device.fillEp1 (s : Device) : Device :=
  { s with
    txLen := min s.txLeft EP1_BUF_SIZE
    taskP2 := true
    sent := s.sent ++ [slice s.bulkOut.byte s.txAt (min s.txLeft EP1_BUF_SIZE)] }

/-- The rest of a packet that the host has fetched. -/
def Device.fetched (s : Device) : Device :=
  { s with txDataNo := !s.txDataNo, txLeft := s.txLeft - s.txLen, txAt := s.txAt + s.txLen }

/-- `step_tx_ep1` for `dn` bytes of `bulk_out`. -/
def stepTxEp1 (dn : Nat) (txn : Txn) (s : Device) : Device × Nat :=
  if s.taskP2 = false then ({ s with txLeft := dn, txAt := 0 }.fillEp1, 0)
  else if txn.pidIn = false then (s, 1)
  else if txn.toggle ≠ s.txDataNo then (s, 2)
  else if dn % 512 ≠ 0 ∧ s.txLen = EP1_BUF_SIZE ∨ dn % 512 = 0 ∧ s.txLeft - s.txLen ≠ 0 then
    (s.fetched.fillEp1, 0)
  else ({ s.fetched with taskP2 := false }, 0)

/-- One byte of an answer that the fast receiver prepares. -/
def Device.prepare (s : Device) : Option Device :=
  if s.bulkOut.reqType = 1 ∧ 4 ≤ s.checkI ∧ s.checkI ≠ s.bulkOut.len + 3 then
    if s.checkI - 4 < MAXDATA then
      let out := { s.bulkOut with
        data := Function.update s.bulkOut.data (s.checkI - 4)
          (s.pools.tx.buf ((s.pools.tx.tail + (s.checkI - 4)) % TX_POOL_SIZE)) }
      some { s with bulkOut := out, checkSum := s.checkSum ^^^ out.byte s.checkI,
                    checkI := s.checkI + 1 }
    else none
  else some { s with checkSum := s.checkSum ^^^ s.bulkOut.byte s.checkI, checkI := s.checkI + 1 }

/-- A number of bytes of an answer. -/
def Device.prepareAll (s : Device) : Nat → Option Device
  | 0 => some s
  | n + 1 => s.prepare.bind fun s => s.prepareAll n

/-- `bulk_out.data[bulk_out.len-1]=check_sum`. -/
def Device.closeAnswer (s : Device) : Option Device :=
  if s.bulkOut.len - 1 < MAXDATA then
    some { s with bulkOut := { s.bulkOut with
      data := Function.update s.bulkOut.data (s.bulkOut.len - 1) s.checkSum } }
  else none

/-- The part of an answer that the fast receiver prepares before it sends a packet. The
comparison is one of unsigned numbers. -/
def Device.prepareNext (s : Device) : Option Device :=
  if EP1_BUF_SIZE < (s.tn + 2 ^ 32 - 1 - s.checkI) % 2 ^ 32 then s.prepareAll EP1_BUF_SIZE
  else if (s.tn + 2 ^ 32 - 1 - s.checkI) % 2 ^ 32 ≠ 0 then
    (s.prepareAll (s.tn - 1 - s.checkI)).bind Device.closeAnswer
  else some s

/-- What follows `step_tx_ep1`. -/
def afterStep (s : Device) (ret : Nat) : Device × Nat :=
  if ret ≠ 0 then (s, 6)
  else if s.taskP2 then (s, 0)
  else if fast then ({ s with checkSum := 0, checkI := 0, taskP1 := .receive }, 0)
  else ({ s with taskP1 := .receive }, 0)

/-- `STEP2`. -/
def sendAnswer (txn : Txn) (s : Device) : Option (Device × Nat) :=
  (if fast then s.prepareNext else some s).map fun s =>
    afterStep fast (stepTxEp1 s.tn txn s).1 (stepTxEp1 s.tn txn s).2

/-- The packet behind the bytes of the request that came before. -/
def Device.fetch (s : Device) (packet : List Byte) : Option Device :=
  if s.rn + packet.length ≤ TMPS_SIZE then
    some { s with tmps := blit s.tmps s.rn packet, rn := s.rn + packet.length }
  else none

/-- Whether the fast receiver stores a byte of `tmps`. -/
def Device.Stores (s : Device) (i : Nat) : Prop :=
  s.tmps 1 = 0 ∧ 4 ≤ i ∧ i ≠ (BulkIo.of s.tmps).len + 3

instance (s : Device) (i : Nat) : Decidable (s.Stores i) := inferInstanceAs (Decidable (_ ∧ _ ∧ _))

/-- A byte in the loop of the fast receiver. -/
def Device.check (s : Device) (i : Nat) : Device :=
  { s with
    checkSum := s.checkSum ^^^ s.tmps i
    checkI := i + 1
    pools := if s.Stores i then s.pools.stage (i - 4) (s.tmps i) else s.pools }

/-- The bytes up to `rn`. -/
def Device.checkAll (s : Device) : Device :=
  (List.range' s.checkI (s.rn - s.checkI)).foldl Device.check s

/-- The request in `tmps` without its checksum, if that is right. -/
def Device.accept (s : Device) : Option BulkIo :=
  if fast then
    if s.checkSum ≠ 0 ∨ (BulkIo.of s.tmps).len = 0 then none
    else some { BulkIo.of s.tmps with len := (BulkIo.of s.tmps).len - 1 }
  else verifyChecksum (BulkIo.of s.tmps)

/-- The checksum of an answer, and its first packet. -/
def Device.answer (s : Device) (txn : Txn) (out : BulkIo) : Option (Device × Nat) :=
  if fast then
    sendAnswer fast txn { s with
      rn := 0, checkSum := 0, checkI := 0, taskP1 := .send
      bulkOut := { out with len := out.len + 1 }, tn := out.len + 1 + 4 }
  else
    sendAnswer fast txn { s with
      rn := 0, taskP1 := .send, bulkOut := setChecksum out, tn := out.len + 4 }

/-- The `switch` on a request and what follows it. -/
def Device.process (s : Device) (txn : Txn) (bulk : BulkIo) : Option (Device × Nat) :=
  (onRequest fast (s.pools.finishLast bulk) bulk s.bulkOut).bind fun (pools, outcome) =>
    match outcome with
    | .reject => some ({ s with pools := pools, taskP1 := .start }, 0)
    | .reset =>
        some ({ s with pools := pools, rn := 0, taskP1 := if fast then .start else .receive }, 0)
    | .answer out => { s with pools := pools.backup bulk }.answer fast txn out

/-- `STEP1` behind the `memcpy`. -/
def Device.assemble (s : Device) (txn : Txn) : Option (Device × Nat) :=
  if s.rn < 4 then some ({ s with taskP1 := .receive }, 0)
  else
    let s := if fast then s.checkAll else s
    if s.rn < (BulkIo.of s.tmps).len + 4 then some ({ s with taskP1 := .receive }, 0)
    else
      match s.accept fast with
      | none => some ({ s with taskP1 := .start }, 0)
      | some bulk => s.process fast txn bulk

/-- `STEP1`. -/
def Device.step1 (s : Device) (txn : Txn) : Option (Device × Nat) :=
  if txn.pidOut = false then some (s, 1)
  else (s.fetch txn.packet).bind fun s => s.assemble fast txn

/-- `STEP0`. -/
def Device.step0 (s : Device) : Device :=
  { s with taskP1 := .receive, taskP2 := false, rn := 0, checkSum := 0, checkI := 0 }

/-- Both receivers. -/
def bulkIo (txn : Txn) (s : Device) : Option (Device × Nat) :=
  match s.taskP1 with
  | .start => s.step0.step1 fast txn
  | .receive => s.step1 fast txn
  | .send => sendAnswer fast txn s

/-- `dev_bulk_io`. -/
def devBulkIo : Txn → Device → Option (Device × Nat) := bulkIo false

/-- `dev_bulk_io_h`. -/
def devBulkIoH : Txn → Device → Option (Device × Nat) := bulkIo true

/-- The endpoint-1 part of `interrupt_usbdev`. -/
def interruptUsbdev (txn : Txn) (s : Device) : Option Device :=
  (if fast then devBulkIoH txn s else devBulkIo txn s).map fun (s, ret) =>
    if ret ≠ 0 then { s with taskP1 := .start, txDataNo := false } else s

/-! ## Calls -/

/-- `UsbDevSends` of an open device. A call for which there is no room changes nothing. -/
def usbDevSends (buf : List Byte) (s : Device) : Device :=
  if TX_POOL_SIZE ≤ buf.length + s.pools.tx.count then s
  else { s with pools := { s.pools with
    tx := s.pools.tx.pushAll buf
    tx_size := (s.pools.tx.pushAll_size buf).trans s.pools.tx_size } }

/-- The bytes that `UsbDevRecvs` returns, and the device behind them. -/
def usbDevRecvs (wantLen : Nat) (s : Device) : List Byte × Device :=
  (s.pools.rx.contents.take wantLen,
    { s with pools := { s.pools with
      rx := s.pools.rx.skip (min wantLen s.pools.rx.count), rx_size := s.pools.rx_size } })

/-- `UsbDevReset`. -/
def usbDevReset (s : Device) : Device :=
  { s with pools := { s.pools with
    rx := s.pools.rx.skip s.pools.rx.count, rx_size := s.pools.rx_size } }

/-- `CLEAR_FEATURE` for one of the two endpoints. -/
def clearFeature (inEndpoint : Bool) (s : Device) : Device :=
  { s with taskP1 := .start, txDataNo := if inEndpoint then false else s.txDataNo }

/-- What happens to the device. -/
inductive Event where
  | interrupt (txn : Txn)
  | usbDevSends (buf : List Byte)
  | usbDevRecvs (wantLen : Nat)
  | usbDevReset
  | clearFeature (inEndpoint : Bool)

/-- The device after an event. -/
def Device.step (s : Device) : Event → Option Device
  | .interrupt txn => interruptUsbdev fast txn s
  | .usbDevSends buf => some (Usb.usbDevSends buf s)
  | .usbDevRecvs wantLen => some (Usb.usbDevRecvs wantLen s).2
  | .usbDevReset => some (Usb.usbDevReset s)
  | .clearFeature inEndpoint => some (Usb.clearFeature inEndpoint s)

/-- The pools after `UsbDevOpen`, whatever their bytes are. -/
def Pools.opened (rx tx : Nat → Byte) : Pools where
  rx := .empty RX_POOL_SIZE (by decide) rx
  tx := .empty TX_POOL_SIZE (by decide) tx
  lastBio := { seqNo := -1, reqType := -1, dataLen := 0 }
  maxdata := 508
  reattach := 0
  rx_size := rfl
  tx_size := rfl

/-- A device that was opened. -/
structure Device.Opened (s : Device) : Prop where
  pools : ∃ rx tx, s.pools = .opened rx tx
  taskP1 : s.taskP1 = .start

end PosFirmware.Usb
