import PosFirmware.Ppp.Buffers

/-!
# PPPoE discovery

`pppoe_offer_input` and `pppoe_ses_input`, with their walk over the tags of a PADO or PADS
packet, and the buffer of the PADR packet that answers an offer. Offsets count from
`skb->nh.raw`; behind the packet the walk reads what follows it in memory.
-/

namespace PosFirmware.Ppp

/-- `PTT_SRV_NAME`. -/
def PTT_SRV_NAME : Nat := 0x0101

/-- `PTT_AC_NAME`. -/
def PTT_AC_NAME : Nat := 0x0102

/-- `PTT_HOST_UNIQ`. -/
def PTT_HOST_UNIQ : Nat := 0x0103

/-- `PTT_AC_COOKIE`. -/
def PTT_AC_COOKIE : Nat := 0x0104

/-- `PTT_SRV_ERR`. -/
def PTT_SRV_ERR : Nat := 0x0201

/-- `PTT_SYS_ERR`. -/
def PTT_SYS_ERR : Nat := 0x0202

/-- `PTT_GEN_ERR`. -/
def PTT_GEN_ERR : Nat := 0x0203

/-- The sizes of `ServiceName` and `ACName`. -/
def NAME_SIZE : Nat := 100

/-- The size of `ACCookie`. -/
def COOKIE_SIZE : Nat := 1024

/-- The size of `HostUniq`. -/
def HOST_UNIQ_SIZE : Nat := 8

/-- `sizeof(struct ethhdr)`. -/
def ETH_HDR : Nat := 14

/-- `sizeof(struct pppoe_hdr)`. -/
def PPPOE_HDR : Nat := 6

/-- `sizeof(struct pppoe_taghdr)`. -/
def TAG_HDR : Nat := 4

/-- The largest buffer of `skb_new`. -/
def SKB_LARGEST : Nat := 1518

/-- A PADO or PADS packet in memory. -/
structure DiscoveryPacket where
  /-- What is in memory from `skb->nh.raw` on. -/
  mem : Nat → Byte
  /-- The bytes of the packet from there on. -/
  size : Nat
  /-- `eth->h_source`. -/
  hSource : List Byte

/-- The session data of `PPPOE_DEV`. -/
structure PppoeDev where
  /-- `HostUniq`. -/
  hostUniq : List Byte
  serviceName : List Byte
  serviceNameLen : Nat
  acName : List Byte
  acNameLen : Nat
  acCookie : List Byte
  acCookieLen : Nat
  servMac : List Byte
  sessionId : Nat

/-- What an input function returns and leaves. -/
structure DiscoveryResult where
  ret : Int
  dev : PppoeDev
  /-- The bytes it read end here. -/
  read : Nat
  /-- It stored more than a field holds. -/
  overflow : Bool

/-! ## Tags -/

/-- A field of two bytes behind `ntohs`. -/
def DiscoveryPacket.ntohs (p : DiscoveryPacket) (i : Nat) : Nat :=
  (p.mem i).toNat * 256 + (p.mem (i + 1)).toNat

/-- `ntohs` of a number that was converted before. -/
def swap16 (x : Nat) : Nat := x % 256 * 256 + x / 256

/-- `a -= b` of a `u16`. -/
def subU16 (a b : Nat) : Nat := (((a : Int) - b) % 65536).toNat

/-- A tag: where its header is, its type and its data. -/
structure PppoeTag where
  start : Nat
  type : Nat
  data : List Byte

/-- Where the data of a tag ends. -/
def PppoeTag.stop (tag : PppoeTag) : Nat := tag.start + TAG_HDR + tag.data.length

/-- The tag with its header at an offset. -/
def DiscoveryPacket.tagAt (p : DiscoveryPacket) (start : Nat) : PppoeTag where
  start := start
  type := p.ntohs start
  data := (List.range (p.ntohs (start + 2))).map fun i => p.mem (start + TAG_HDR + i)

/-- `getNextTag`. `pdr->length` is converted by `getFirstTag`, and here once more. -/
def getNextTag (p : DiscoveryPacket) (length : Nat) (tag : PppoeTag) (len : Nat) : Option Nat :=
  let next := tag.stop
  if len ≤ p.ntohs (next + 2) then none
  else if next + PPPOE_HDR ≤ swap16 length then some next
  else none

theorem getNextTag_some {p : DiscoveryPacket} {length len next : Nat} {tag : PppoeTag}
    (found : getNextTag p length tag len = some next) :
    next = tag.stop ∧ next + PPPOE_HDR ≤ swap16 length := by
  unfold getNextTag at found
  dsimp only at found
  split at found
  · cases found
  · split at found
    · cases found
      exact ⟨rfl, ‹_›⟩
    · cases found

theorem tagAt_lt_stop (p : DiscoveryPacket) (start : Nat) : start < (p.tagAt start).stop := by
  simp only [PppoeTag.stop, DiscoveryPacket.tagAt, TAG_HDR]
  omega

/-- What the body of a loop over the tags does with one of them. -/
structure TagVisit (σ : Type) where
  state : σ
  /-- The function returns from inside the loop. -/
  returns : Bool
  /-- The data it reads ends here. -/
  read : Nat

/-- The loop over the tags. `getNextTag` reads the next header whether there is one or not. -/
def tagLoop {σ : Type} (p : DiscoveryPacket) (length : Nat) (visit : PppoeTag → σ → TagVisit σ)
    (start len : Nat) (s : σ) (read : Nat) : σ × Bool × Nat :=
  let tag := p.tagAt start
  let body := visit tag s
  let read := max read body.read
  if body.returns then (body.state, true, read)
  else
    let read := max read (tag.stop + TAG_HDR)
    match _found : getNextTag p length tag len with
    | none => (body.state, false, read)
    | some next =>
      tagLoop p length visit next (subU16 len (p.ntohs (next + 2) + TAG_HDR)) body.state read
termination_by swap16 length - start
decreasing_by
  obtain ⟨rfl, inside⟩ := getNextTag_some _found
  have later : start < tag.stop := tagAt_lt_stop p start
  omega

/-! ## PADO -/

/-- The variables of the loop of `pppoe_offer_input`. -/
structure OfferState where
  dev : PppoeDev
  serviceOk : Bool
  /-- The tag `acStr` points into. -/
  acStr : Option PppoeTag
  /-- The tag `cookieStr` points into. -/
  cookieStr : Option PppoeTag
  haveHostUniq : Bool
  /-- `errType` is set. -/
  error : Bool
  overflow : Bool

/-- `INET_MEMCPY` to the front of a field. -/
def memcpyTo (field data : List Byte) : List Byte := data ++ field.drop data.length

/-- The `switch` of `pppoe_offer_input`. -/
def offerTag (tag : PppoeTag) (s : OfferState) : TagVisit OfferState :=
  if tag.type = PTT_SRV_NAME then
    if s.serviceOk = false then
      ⟨{ s with
        dev := { s.dev with
          serviceName := memcpyTo s.dev.serviceName tag.data
          serviceNameLen := tag.data.length }
        serviceOk := true
        overflow := s.overflow || decide (NAME_SIZE < tag.data.length) }, false, tag.stop⟩
    else ⟨s, false, 0⟩
  else if tag.type = PTT_AC_NAME then ⟨{ s with acStr := some tag }, false, 0⟩
  else if tag.type = PTT_HOST_UNIQ then
    if tag.data.length ≠ HOST_UNIQ_SIZE then ⟨s, true, 0⟩
    else if s.dev.hostUniq ≠ tag.data then ⟨s, true, tag.stop⟩
    else ⟨{ s with haveHostUniq := true }, false, tag.stop⟩
  else if tag.type = PTT_AC_COOKIE then ⟨{ s with cookieStr := some tag }, false, 0⟩
  else if tag.type = PTT_SRV_ERR ∨ tag.type = PTT_SYS_ERR ∨ tag.type = PTT_GEN_ERR then
    ⟨{ s with error := true }, false, 0⟩
  else ⟨s, false, 0⟩

/-- `pppoe_offer_input` behind the loop. -/
def offerEnd (p : DiscoveryPacket) (s : OfferState) (read : Nat) : DiscoveryResult :=
  if s.serviceOk = false then ⟨-1, s.dev, read, s.overflow⟩
  else if s.haveHostUniq = false then ⟨-1, s.dev, read, s.overflow⟩
  else
    let (s, read) :=
      match s.acStr with
      | some tag =>
        if 0 < tag.data.length then
          ({ s with
            dev := { s.dev with
              acName := memcpyTo s.dev.acName tag.data, acNameLen := tag.data.length }
            overflow := s.overflow || decide (NAME_SIZE < tag.data.length) }, max read tag.stop)
        else (s, read)
      | none => (s, read)
    if s.error then ⟨-1, s.dev, read, s.overflow⟩
    else
      let (s, read) :=
        match s.cookieStr with
        | some tag =>
          ({ s with
            dev := { s.dev with
              acCookie := memcpyTo s.dev.acCookie tag.data, acCookieLen := tag.data.length }
            overflow := s.overflow || decide (COOKIE_SIZE < tag.data.length) }, max read tag.stop)
        | none => (s, read)
      ⟨0, { s.dev with servMac := p.hSource }, read, s.overflow⟩

/-- `pppoe_offer_input`. -/
def pppoeOfferInput (dev : PppoeDev) (p : DiscoveryPacket) : DiscoveryResult :=
  let length := p.ntohs 4
  if length = 0 then ⟨-1, dev, PPPOE_HDR, false⟩
  else
    let len := subU16 length (p.ntohs (PPPOE_HDR + 2) + TAG_HDR)
    let (s, returned, read) := tagLoop p length offerTag PPPOE_HDR len
      ⟨dev, false, none, none, false, false, false⟩ (PPPOE_HDR + TAG_HDR)
    if returned then ⟨-1, s.dev, read, s.overflow⟩ else offerEnd p s read

/-! ## PADS -/

/-- The `switch` of `pppoe_ses_input`, which sets `errType`. -/
def sesTag (tag : PppoeTag) (error : Bool) : TagVisit Bool :=
  if tag.type = PTT_SRV_ERR ∨ tag.type = PTT_SYS_ERR ∨ tag.type = PTT_GEN_ERR then ⟨true, false, 0⟩
  else ⟨error, false, 0⟩

/-- `pppoe_ses_input`. -/
def pppoeSesInput (dev : PppoeDev) (p : DiscoveryPacket) : DiscoveryResult :=
  let length := p.ntohs 4
  let (error, read) :=
    if length = 0 then (false, PPPOE_HDR)
    else
      let len := subU16 length (p.ntohs (PPPOE_HDR + 2) + TAG_HDR)
      let (error, _, read) := tagLoop p length sesTag PPPOE_HDR len false (PPPOE_HDR + TAG_HDR)
      (error, read)
  if error then ⟨-1, dev, read, false⟩
  else if p.ntohs 2 = 0 then ⟨-1, dev, read, false⟩
  else ⟨0, { dev with sessionId := p.ntohs 2 }, read, false⟩

/-! ## PADR -/

/-- The buffer of `pppoe_req_send`: its size, which is all in front of the data after
`skb_reserve`. -/
def padrSize (dev : PppoeDev) : Nat :=
  let pdrlen := HOST_UNIQ_SIZE + 2 * TAG_HDR + dev.serviceNameLen + dev.acCookieLen
  ETH_HDR + PPPOE_HDR + pdrlen

/-- What `pppoe_req_send` pushes: the tags and the headers. -/
def padrPushes (dev : PppoeDev) : List Nat :=
  (if 0 < dev.acCookieLen then [TAG_HDR + dev.acCookieLen] else []) ++
    [TAG_HDR + HOST_UNIQ_SIZE, TAG_HDR + dev.serviceNameLen, PPPOE_HDR, ETH_HDR]

/-- `__skb_push`, which needs room in front of the data. -/
def skbPush (room : Option Nat) (len : Nat) : Option Nat :=
  match room with
  | some room => if room < len then none else some (room - len)
  | none => none

/-- `pppoe_req_send`: the room that is left in the buffer, if there is a buffer. -/
def pppoeReqSend (dev : PppoeDev) : Option (Option Nat) :=
  if SKB_LARGEST < padrSize dev then none
  else some ((padrPushes dev).foldl skbPush (some (padrSize dev)))

end PosFirmware.Ppp
