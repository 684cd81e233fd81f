import PosFirmware.Usb.BulkSafety

/-!
# A host of the bulk protocol

A host asks for one thing after the other. It repeats a request until it has the answer, and
packets of both directions may be lost or damaged on the way. `Link` keeps beside the device
what went in and out of it at both ends, and `Link.Exact` says that every byte came through once
and in order.
-/

namespace PosFirmware.Usb

open PosFirmware.Foundation

deriving instance DecidableEq for Request

/-- A device, its host and its applications. -/
structure Link where
  device : Device
  /-- What the host asks for, and whether it has the answer. -/
  asked : Option Request
  answered : Bool
  /-- The packets of the device that the host does not wait for. -/
  mark : Nat
  /-- Whether the device has refused the BULK OUT that the host asks for. -/
  refused : Bool
  /-- The data of the BULK OUTs that were answered with success. -/
  outs : List Byte
  /-- The data of the answers of BULK INs that the host has taken. -/
  ins : List Byte
  /-- What `UsbDevSends` has accepted, and what `UsbDevRecvs` has returned. -/
  accepted : List Byte
  returned : List Byte

/-- What happens to the device and its host. -/
inductive Move where
  | packet (txn : Txn)
  | usbDevSends (buf : List Byte)
  | usbDevRecvs (wantLen : Nat)
  | ask (request : Request)
  | accept (reqType : Byte) (data : List Byte)

variable (fast : Bool)

instance (s : Device) (txn : Txn) : Decidable (s.Arrives txn) :=
  inferInstanceAs (Decidable (_ ∧ _))

instance (f : Device) : Decidable f.Complete := inferInstanceAs (Decidable (_ ∧ _))

instance (pools : Pools) (bulk : BulkIo) : Decidable (pools.Full bulk) :=
  inferInstanceAs (Decidable (_ ∧ _ ∧ _))

instance (bulk : BulkIo) : Decidable bulk.Invalid := inferInstanceAs (Decidable (_ ∨ _))

/-- The request that a packet completes, if its checksum is right. -/
def Device.completes (s : Device) (txn : Txn) : Option BulkIo :=
  if s.Arrives txn ∧ (s.begin.put txn.packet).Complete then
    (s.begin.put txn.packet).request fast
  else none

/-- Whether a packet completes a request that is refused for want of room. -/
def Device.refuses (s : Device) (txn : Txn) : Bool :=
  (s.completes fast txn).any fun bulk => decide (s.pools.Full bulk)

/-- The bytes of the device since the host sent something. -/
def Link.heard (l : Link) : List Byte := (l.device.sent.drop l.mark).flatten

/-- A packet between the host and the device. -/
def Link.packet (l : Link) (txn : Txn) : Option Link :=
  (l.device.step fast (.interrupt txn)).map fun device =>
    { l with
      device := device
      mark := if l.device.taskP1 = .send then l.mark else l.device.sent.length
      refused := l.refused || l.device.refuses fast txn }

/-- `UsbDevSends`. -/
def Link.usbDevSends (l : Link) (buf : List Byte) : Link :=
  { l with
    device := Usb.usbDevSends buf l.device
    accepted := if TX_POOL_SIZE ≤ buf.length + l.device.pools.tx.count then l.accepted
      else l.accepted ++ buf }

/-- `UsbDevRecvs`. -/
def Link.usbDevRecvs (l : Link) (wantLen : Nat) : Link :=
  { l with
    device := (Usb.usbDevRecvs wantLen l.device).2
    returned := l.returned ++ (Usb.usbDevRecvs wantLen l.device).1 }

/-- The host asks for something else. -/
def Link.ask (l : Link) (request : Request) : Link :=
  { l with asked := some request, answered := false, refused := false }

/-- The host takes an answer. -/
def Link.accept (l : Link) (reqType : Byte) (data : List Byte) : Link :=
  match l.asked with
  | none => l
  | some request =>
    { l with
      answered := true
      outs := if request.reqType = 0 ∧ reqType = 2 then l.outs ++ request.payload else l.outs
      ins := if request.reqType = 1 ∧ reqType = 1 then l.ins ++ data else l.ins }

/-- What a move does. -/
def Link.step (l : Link) : Move → Option Link
  | .packet txn => l.packet fast txn
  | .usbDevSends buf => some (l.usbDevSends buf)
  | .usbDevRecvs wantLen => some (l.usbDevRecvs wantLen)
  | .ask request => some (l.ask request)
  | .accept reqType data => some (l.accept reqType data)

/-! ## The host -/

/-- A request that is not answered: a RESET, one of an unknown type and a BULK IN without a
length. -/
def Request.Silent (request : Request) : Prop :=
  request.reqType = 3 ∨ 4 < request.reqType.toNat ∨
    request.reqType = 1 ∧ request.payload.length < 2

instance (request : Request) : Decidable request.Silent := inferInstanceAs (Decidable (_ ∨ _ ∨ _))

instance (request : Request) : Decidable (request.Valid fast) :=
  decidable_of_iff (request.payload.length + sumLen fast + 4 ≤ TMPS_SIZE ∧
      (fast = false → request.id &&& 0x0f = request.id) ∧
        (fast = false → request.reqType &&& 0x0f = request.reqType))
    ⟨fun ⟨fits, id, reqType⟩ => ⟨fits, id, reqType⟩, fun ⟨fits, id, reqType⟩ => ⟨fits, id, reqType⟩⟩

/-- Whether the host may ask for something else. -/
def Link.Free (l : Link) : Prop := l.answered = true ∨ ∀ request ∈ l.asked, request.Silent

instance (l : Link) : Decidable l.Free := inferInstanceAs (Decidable (_ ∨ _))

/-- What a host does: it asks for something else when it has the answer of the last request, under
an id that is not the one of the last request that was answered; what the device takes for a
request is the one that it asks for and has no answer of; and what it takes for an answer is one
to its request. -/
def Link.Proper (l : Link) : Move → Prop
  | .packet txn => ∀ bulk ∈ l.device.completes fast txn,
      l.asked = some bulk.request ∧ l.answered = false
  | .ask request => l.Free ∧ request.Valid fast ∧
      (request.id.toNat : Int) ≠ l.device.pools.lastBio.seqNo
  | .accept reqType data => l.answered = false ∧ ∃ request ∈ l.asked,
      ({ id := request.id, reqType := reqType, payload := data } : Request).Valid fast ∧
        l.heard = frame fast request.id reqType data
  | _ => True

instance : (l : Link) → (move : Move) → Decidable (l.Proper fast move)
  | _, .packet _ => inferInstanceAs (Decidable (∀ bulk ∈ _, _ ∧ _))
  | _, .ask _ => inferInstanceAs (Decidable (_ ∧ _ ∧ _))
  | _, .accept _ _ => inferInstanceAs (Decidable (_ ∧ ∃ request ∈ _, _ ∧ _))
  | _, .usbDevSends _ => inferInstanceAs (Decidable True)
  | _, .usbDevRecvs _ => inferInstanceAs (Decidable True)

/-! ## Exactly once -/

/-- The host waits for the answer of the last request that was answered. -/
def Link.Waits (l : Link) : Prop :=
  l.answered = false ∧ ∃ request ∈ l.asked,
    (request.id.toNat : Int) = l.device.pools.lastBio.seqNo

instance (l : Link) : Decidable l.Waits := inferInstanceAs (Decidable (_ ∧ ∃ request ∈ _, _))

/-- The bytes at the front of the pool that the host has taken. -/
def Link.taken (l : Link) : Nat :=
  if l.device.pools.lastBio.reqType = 1 ∧ ¬ l.Waits then l.device.pools.lastBio.dataLen else 0

/-- The data of a BULK OUT whose answer the host waits for. -/
def Link.pending (l : Link) : List Byte :=
  if l.Waits ∧ l.device.pools.lastBio.reqType = 0 ∧ l.refused = false then
    l.asked.elim [] Request.payload
  else []

/-- Every byte comes through once and in order. -/
structure Link.Exact (l : Link) : Prop where
  received : l.returned ++ l.device.pools.rx.contents = l.outs ++ l.pending
  sent : l.accepted = l.ins ++ l.device.pools.tx.contents.drop l.taken

/-- A host, and a device that was opened. -/
structure Link.Opened (l : Link) : Prop where
  device : l.device.Opened
  asked : l.asked = none
  mark : l.mark = l.device.sent.length
  logs : l.outs = [] ∧ l.ins = [] ∧ l.accepted = [] ∧ l.returned = []

/-! ## The condition -/

/-- A request of an unknown type, a BULK IN without a length and a RESET follow no BULK IN that
carried data. -/
def Pools.Leaves (pools : Pools) (bulk : BulkIo) : Prop :=
  bulk.request.Silent → pools.ends.Ended bulk.request → pools.lastBio.dataLen = 0

/-- The packets for which every byte comes through once: they stay inside the arrays, a request
that is not answered follows no BULK IN that carried data, and a BULK OUT that was refused is not
repeated. -/
def Link.Admits (l : Link) : Move → Prop
  | .packet txn => l.device.Arrives txn →
      l.device.begin.rn + txn.packet.length ≤ TMPS_SIZE ∧
        (fast = true → (l.device.begin.put txn.packet).Room) ∧
        ∀ bulk ∈ l.device.completes fast txn,
          l.device.pools.Leaves bulk ∧ l.refused = false
  | _ => True

end PosFirmware.Usb
