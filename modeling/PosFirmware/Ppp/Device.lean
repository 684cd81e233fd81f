import PosFirmware.Foundation.Memory
import PosFirmware.Ppp.Buffers

/-!
# State of a PPP link

The part of `PPP_DEV_T` that the control protocols read and write, and the functions that start,
close and negotiate a link. `ppp_negotiate` composes the packet that is due in the state it
finds.
-/

namespace PosFirmware.Ppp

open PosFirmware.Foundation

/-- A word of the device. -/
abbrev Word := BitVec 32

def PROTip : BitVec 16 := 0x0021
def PROTipcp : BitVec 16 := 0x8021
def PROTlcp : BitVec 16 := 0xC021
def PROTpap : BitVec 16 := 0xC023
def PROTlqp : BitVec 16 := 0xC025
def PROTchap : BitVec 16 := 0xC223

def LCPtxREQ : Word := 0x01
def LCPrxACK : Word := 0x02
def LCPrxREQ : Word := 0x04
def LCPtxACK : Word := 0x08
def LCPopen : Word := 0x0F
def IPCPtxREQ : Word := 0x10
def IPCPrxACK : Word := 0x20
def IPCPrxREQ : Word := 0x40
def IPCPtxACK : Word := 0x80
def IPCPopen : Word := 0xF0
def PPPclsng : Word := 0xCC
def PPPclsd : Word := 0xEE
def PPPopen : Word := 0xFF

def AUTHppap : Word := 0x01
def AUTHpchp : Word := 0x02
def AUTHpmsc : Word := 0x04
def AUTHpwat : Word := 0x08

def PPP_ALG_PAP : Word := 0x1
def PPP_ALG_CHAP : Word := 0x2
def PPP_ALG_MSCHAPV1 : Word := 0x4
def PPP_ALG_MSCHAPV2 : Word := 0x8

def IPCP_DNSP : Word := 0x10
def IPCP_DNSS : Word := 0x20

/-- Options `ppp_start` requests: `ASYNC` alone. -/
def startOptions : Word := 0x04

/-- `RACCM`. -/
def RACCM : Word := 0x000A0000

def MAXCONF : Int := 40

/-- `echo_state`. -/
inductive EchoState where
  | detect
  | disable
  | enable
  deriving DecidableEq

/-- What the control protocols use of `PPP_DEV_T`. -/
structure PppDev where
  state : Word
  auth_state : Int
  mss : Int
  counter : Int
  error_code : Int
  local_addr : Word
  remote_addr : Word
  primary_dns : Word
  second_dns : Word
  id : Byte
  recv_id : Int
  recv_prot : Int
  ipopts : Word
  /-- Authentication state. -/
  opt4 : Word
  locopts : Word
  remopts : Word
  raccm : Word
  /-- Control characters the peer wants escaped. -/
  ACCM : Word
  userid : List Byte
  passwd : List Byte
  mschapv2_cache : List Byte
  init_authent : Word
  neg_authent : Word
  lcp_ack_pkt : List Byte
  lcp_ack_retry : Int
  lcp_ack_retry_max : Int
  echo_state : EchoState
  /-- `link_type == PPP_LINK_ETH`. -/
  ethernet : Bool
  /-- `inet_dev->ifIndex == WNET_IFINDEX`. -/
  wireless : Bool
  /-- The device is up in the IP layer, `FLAGS_UP`. -/
  up : Bool

/-- All bits of a mask are set. -/
def has (value mask : Word) : Bool := value &&& mask = mask

/-- A bit of a mask is set. -/
def anyBit (value mask : Word) : Bool := value &&& mask ≠ 0

/-- `prevstate`, an `unsigned char`. -/
def PppDev.prevstate (dev : PppDev) : Word := (dev.state.setWidth 8).setWidth 32

/-- `ppp_start`; nobody is logging in meanwhile, so `id` stays. -/
def pppStart (dev : PppDev) : PppDev :=
  { dev with
    state := 0
    auth_state := 0
    recv_id := -1
    recv_prot := -1
    neg_authent := dev.init_authent
    locopts := startOptions
    remopts := 0
    ipopts := dev.ipopts ||| IPCP_DNSP ||| IPCP_DNSS
    opt4 := 0
    raccm := RACCM
    ACCM := 0xFFFFFFFF
    mss := PPP_MSS
    counter := MAXCONF }

/-- `ppp_inet_up`. -/
def pppInetUp (dev : PppDev) : PppDev := { dev with up := true, echo_state := .detect }

/-- `ppp_inet_down`. -/
def pppInetDown (dev : PppDev) : PppDev :=
  { dev with up := false, local_addr := 0, remote_addr := 0, primary_dns := 0, second_dns := 0 }

/-- `ppp_closed`. -/
def pppClosed (dev : PppDev) : PppDev := { pppInetDown dev with state := PPPclsd }

/-- The four bytes of an address, the high one first. -/
def wordBytes (w : Word) : List Byte :=
  [(w >>> 24).setWidth 8, (w >>> 16).setWidth 8, (w >>> 8).setWidth 8, w.setWidth 8]

/-- A control packet: code, identifier, length and data. -/
def controlPacket (code id : Byte) (data : List Byte) : List Byte :=
  let length : BitVec 16 := BitVec.ofNat 16 (data.length + 4)
  [code, id, highByte length, lowByte length] ++ data

/-- A string with its length before it. -/
def countedString (text : List Byte) : List Byte := BitVec.ofNat 8 text.length :: text

/-- The label `write` of `ppp_negotiate`. -/
def negotiateWrite (dev : PppDev) (proto : BitVec 16) (code : Byte) (data : List Byte) :
    Option (BitVec 16 × List Byte) × PppDev :=
  (some (proto, controlPacket code dev.id data), { dev with counter := dev.counter - 1 })

/-- `ppp_negotiate`: the packet it writes, if any, and the link after it. -/
def pppNegotiate (dev : PppDev) : Option (BitVec 16 × List Byte) × PppDev :=
  if dev.state = PPPclsd ∨ dev.state = PPPopen then (none, dev)
  else if dev.state = PPPclsng then negotiateWrite dev PROTlcp 5 (List.replicate 6 0)
  else if has dev.state LCPopen then
    if anyBit dev.neg_authent PPP_ALG_PAP ∧ anyBit dev.opt4 AUTHppap then
      if 0 < dev.lcp_ack_retry ∨ anyBit dev.opt4 AUTHpwat then (none, dev)
      else
        negotiateWrite { dev with opt4 := dev.opt4 ||| AUTHpwat } PROTpap 1
          (countedString dev.userid ++ countedString dev.passwd)
    else if dev.auth_state = 1 ∧ ¬ anyBit dev.state IPCPtxREQ then
      let address := [3, 6] ++ wordBytes dev.local_addr
      let primary := if anyBit dev.ipopts IPCP_DNSP then [129, 6] ++ wordBytes dev.primary_dns else []
      let second := if anyBit dev.ipopts IPCP_DNSS then [131, 6] ++ wordBytes dev.second_dns else []
      negotiateWrite { dev with state := (dev.state ||| IPCPtxREQ) &&& ~~~IPCPrxACK } PROTipcp 1
        (address ++ primary ++ second)
    else (none, dev)
  else if ¬ anyBit dev.state LCPtxREQ then
    -- of the options only the character map is composed
    let async := if dev.locopts.getLsbD 2 then [2, 6] ++ wordBytes dev.raccm else []
    negotiateWrite { dev with state := (dev.state ||| LCPtxREQ) &&& ~~~LCPrxACK } PROTlcp 1 async
  else (none, dev)

/-- `ppp_down`. -/
def pppDown (dev : PppDev) : PppDev :=
  let dev := pppInetDown dev
  if dev.state = PPPclsng ∨ dev.state = PPPclsd then dev
  else (pppNegotiate { dev with state := PPPclsng, counter := 10 }).2

end PosFirmware.Ppp
