import PosFirmware.IpStack.DhcpOptions

/-!
# The life of the DHCP client

The senders of `dhcpc.c`, `dhcp_input` with the device that an ACK binds, `dhcp_timer` and the
start of the client. Of a sender only the allocation of its buffer can fail: what `xmit` returns
is not looked at.
-/

namespace PosFirmware.IpStack

open PosFirmware.Foundation

def INET_TIMER_SCALE : BitVec 32 := 10

/-- The fields of `INET_DEV_T` that the client uses. -/
structure DhcpDevice where
  addr : BitVec 32
  mask : BitVec 32
  nextHop : BitVec 32
  dns : BitVec 32
  mac : List Byte
  dhcpSetDnsEnable : Byte
  dhcpSetDnsValue : BitVec 32

/-- The client, its device and `xid`. -/
structure DhcpState where
  client : DhcpClient
  dev : DhcpDevice
  xid : BitVec 32

/-! ## The senders -/

/-- `dhcp_discover`, when `skb_new` has memory or not. -/
def dhcpDiscover (memory : Bool) (s : DhcpState) : DhcpState :=
  if memory then
    { s with
      xid := s.xid + 1
      client := { s.client with id := s.xid + 1, state := DHCP_DISCOVER, timeOut := 5000 } }
  else s

/-- `dhcp_request`. -/
def dhcpRequest (memory : Bool) (s : DhcpState) : DhcpState :=
  if memory then
    { s with client := { s.client with id := s.xid, state := DHCP_REQUEST, timeOut := 5000 } }
  else s

/-- `dhcp_renew`. -/
def dhcpRenew (memory : Bool) (curStep : Nat) (s : DhcpState) : DhcpState :=
  if memory = false ∨ 3 ≤ curStep then s
  else
    { s with
      client := { s.client with
        id := s.xid
        state := DHCP_ACK
        timeOut := s.client.leaseTimeSwitch.getD curStep 0 } }

/-! ## Packets -/

/-- What an ACK binds of the device. -/
def DhcpDevice.bind (client : DhcpClient) (dev : DhcpDevice) : DhcpDevice :=
  { dev with
    addr := client.offerIp
    mask := client.offerMask
    nextHop := client.offerRouter
    dns := if dev.dhcpSetDnsEnable = 1 then dev.dhcpSetDnsValue else client.dnsIp }

/-- What the loop of `dhcp_ack_process` found, when the packet is ok. -/
def ackTaken (mem : Nat → Byte) (len : Nat) : Option AckFound :=
  match dhcpScan ackRule mem len ackStart (len + 1) with
  | .returned 0 scan =>
      if scan.found.back = false ∨ scan.found.mask = 0 ∨ scan.found.leaseTime = 0 then none
      else some scan.found
  | _ => none

/-- The client and the device bound. -/
def DhcpState.bound (mem : Nat → Byte) (found : AckFound) (s : DhcpState) : DhcpState :=
  { s with
    client := s.client.acked mem found
    dev := s.dev.bind (s.client.acked mem found) }

/-- `dhcp_ack_process`, with the device. -/
def DhcpState.ack (mem : Nat → Byte) (len : Nat) (s : DhcpState) : DhcpState :=
  match ackTaken mem len with
  | none => s
  | some found => s.bound mem found

/-- `dhcp_request` as `dhcp_offer_process` calls it. -/
def DhcpState.requested (memory : Bool) (s : DhcpState) (client : DhcpClient) : DhcpClient :=
  (dhcpRequest memory { s with client := client }).client

/-- The packet is a reply to the transaction of the client. -/
def DhcpState.Addressed (mem : Nat → Byte) (s : DhcpState) : Prop :=
  ntohlAt mem 4 = s.client.id ∧ mem 0 = 2 ∧ slice mem 28 6 = s.dev.mac

instance (mem : Nat → Byte) (s : DhcpState) : Decidable (s.Addressed mem) :=
  inferInstanceAs (Decidable (_ ∧ _ ∧ _))

/-- `dhcp_input`, with the device. -/
def DhcpState.input (memory : Bool) (mem : Nat → Byte) (len : Nat) (s : DhcpState) : DhcpState :=
  if ¬ s.Addressed mem then s
  else if s.client.state = DHCP_DISCOVER then
    { s with client := dhcpOfferProcess s.client (s.requested memory) mem len }
  else if s.client.state = DHCP_REQUEST ∨ s.client.state = DHCP_ACK then s.ack mem len
  else s

/-! ## The timer -/

/-- The sender that a tick calls. -/
inductive DhcpSend where
  | discover
  | request
  | renew
  deriving DecidableEq

/-- `dhcp_timer`, with the sender that it called. -/
def dhcpTimer (memory : Bool) (s : DhcpState) : Option DhcpSend × DhcpState :=
  if s.client.timeOut.toInt < 0 then (none, s)
  else
    let s := { s with
      client := { s.client with timeOut := s.client.timeOut - INET_TIMER_SCALE } }
    if 0 < s.client.timeOut.toInt then (none, s)
    else if s.client.state = DHCP_DISCOVER then
      if 0 < s.client.retry then (some .discover, dhcpDiscover memory s) else (none, s)
    else if s.client.state = DHCP_REQUEST then
      if 0 < s.client.retry then
        (some .request,
          dhcpRequest memory { s with client := { s.client with retry := s.client.retry - 1 } })
      else (some .discover, dhcpDiscover memory { s with client := { s.client with retry := 10 } })
    else if s.client.state = DHCP_ACK then
      let s := dhcpRenew memory s.client.retry s
      (some .renew,
        if s.client.retry < 2 then
          { s with client := { s.client with retry := s.client.retry + 1 } }
        else s)
    else (none, s)

/-- `dhcpc_start` on a device whose client is not running. -/
def DhcpState.start (memory : Bool) (s : DhcpState) : DhcpState :=
  let s := dhcpDiscover memory { s with
    client := { s.client with offerIp := s.dev.addr, serverIp := 0, state := 0 }
    dev := { s.dev with addr := 0, mask := 0, nextHop := 0, dns := 0 } }
  { s with client := { s.client with retry := 10 } }

/-- What happens to a running client. -/
inductive DhcpEvent where
  | tick (memory : Bool)
  | packet (memory : Bool) (mem : Nat → Byte) (len : Nat)

/-- A step of the client. -/
def DhcpState.step (s : DhcpState) : DhcpEvent → DhcpState
  | .tick memory => (dhcpTimer memory s).2
  | .packet memory mem len => s.input memory mem len

/-- A run of the client. -/
def DhcpState.run (s : DhcpState) (events : List DhcpEvent) : DhcpState := events.foldl .step s

end PosFirmware.IpStack
