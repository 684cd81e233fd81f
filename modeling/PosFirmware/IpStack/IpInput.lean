import PosFirmware.Foundation.Memory
import PosFirmware.IpStack.Checksum
import PosFirmware.IpStack.MemPool

/-! # IP input

`ip_input` of `ip.c` on a received buffer: the checks of the header, the pull of the header and
the trim of the buffer, and where the packet goes. `ip_input_passes` says when the packets that
go on are well formed: the header may be too short, or longer than the total length.
-/

namespace PosFirmware.IpStack

open PosFirmware.Foundation

/-- The fields of a `struct sk_buff` that `ip_input` uses: `h` and `nh`, and the part of the
buffer that the packet fills. -/
structure IpSkb where
  mem : Memory
  h : Nat
  nh : Nat
  len : Int
  data : Nat
  tail : Int

/-- `__skb_pull`. -/
def ipPull (skb : IpSkb) (len : Nat) : Option IpSkb :=
  if skb.len < len then none
  else some { skb with len := skb.len - len, data := skb.data + len }

/-- `__skb_trim`. A negative length is an `unsigned int` that moves the tail back. -/
def ipTrim (skb : IpSkb) (len : Int) : IpSkb := { skb with len := len, tail := skb.data + len }

/-- `ntohs` of two bytes. -/
def netHalf (mem : Memory) (a : Nat) : Nat := 256 * (mem a).toNat + (mem (a + 1)).toNat

/-- `ntohl` of four bytes. -/
def netWord (mem : Memory) (a : Nat) : Nat := 65536 * netHalf mem a + netHalf mem (a + 2)

/-! The fields of a `struct iphdr`. -/

def iphIhl (mem : Memory) (iph : Nat) : Nat := (mem iph).toNat % 16
def iphVersion (mem : Memory) (iph : Nat) : Nat := (mem iph).toNat / 16
def iphTotLen (mem : Memory) (iph : Nat) : Nat := netHalf mem (iph + 2)
def iphFragOff (mem : Memory) (iph : Nat) : Nat := netHalf mem (iph + 6)
def iphProtocol (mem : Memory) (iph : Nat) : Nat := (mem (iph + 9)).toNat

def IP_OFFMASK : Nat := 0x1fff
def IP_MF : Nat := 0x2000
def IP_PROTO_ICMP : Nat := 1
def IP_PROTO_TCP : Nat := 6
def IP_PROTO_UDP : Nat := 17

/-- The layer above that a packet goes to. -/
inductive IpUpper where
  | tcp
  | icmp
  | udp
  deriving DecidableEq

/-- The addresses of the devices, and of the one that the packet came in on. -/
structure IpDevices where
  local_ : List Nat
  addr : Nat

/-- `ip_local`. -/
def ipLocal (devices : IpDevices) (dest : Nat) : Bool :=
  dest = 0xffffffff || dest = 0 || devices.local_.any (dest = ·)

/-- What a call of `ip_input` does: the packets it frees and those it hands on, with the counts
of `g_ip_stats` and the echoes of the device. -/
structure IpDone where
  ret : Int
  frees : Nat
  handed : List (IpUpper × IpSkb)
  recvErrPkt : Nat
  recvErrCheck : Nat
  drop : Nat
  echo : Nat

/-- `skb_free(skb)`, an error counted as that of a bad packet. -/
def ipBad : IpDone := ⟨NET_ERR_BUF, 1, [], 1, 0, 0, 0⟩

/-- `skb_free(skb)`, a packet dropped. -/
def ipDropped (echo : Nat) : IpDone := ⟨NET_OK, 1, [], 0, 0, 1, echo⟩

/-- The packet in the order of the host: `tot_len`, `saddr` and `daddr`. -/
def ipHostOrder (mem : Memory) (iph : Nat) : Memory :=
  let mem' := blit mem (iph + 2) [mem (iph + 3), mem (iph + 2)]
  putWord (putWord mem' (iph + 12) (netWord mem (iph + 12))) (iph + 16) (netWord mem (iph + 16))

/-- `switch(iph->protocol)`. -/
def ipDispatch (skb : IpSkb) (echo : Nat) : IpDone :=
  let protocol := iphProtocol skb.mem skb.nh
  if protocol = IP_PROTO_TCP then ⟨NET_OK, 0, [(.tcp, skb)], 0, 0, 0, echo⟩
  else if protocol = IP_PROTO_ICMP then ⟨NET_OK, 0, [(.icmp, skb)], 0, 0, 0, echo⟩
  else if protocol = IP_PROTO_UDP then ⟨NET_OK, 0, [(.udp, skb)], 0, 0, 0, echo⟩
  else ipDropped echo

/-- `ip_input` behind the check of the checksum. `ip_policy` passes every packet. -/
def ipDeliver (devices : IpDevices) (skb : IpSkb) : IpDone :=
  let iph := skb.nh
  let skb := { skb with mem := ipHostOrder skb.mem iph }
  let echo := if loadWord skb.mem (iph + 12) = devices.addr then 1 else 0
  if iphProtocol skb.mem iph ≠ IP_PROTO_UDP ∧
      ipLocal devices (loadWord skb.mem (iph + 16)) = false then ipDropped echo
  else if iphFragOff skb.mem iph &&& (IP_OFFMASK ||| IP_MF) ≠ 0 then ipDropped echo
  else ipDispatch skb echo

/-- `ip_input`. -/
def ipInput (devices : IpDevices) (skb : IpSkb) : IpDone :=
  let iph := skb.nh
  if skb.len < 20 then ipBad
  else
    match ipPull skb (iphIhl skb.mem iph * 4) with
    | none => ipBad
    | some skb =>
        let skb := { skb with h := skb.data }
        if iphVersion skb.mem iph ≠ 4 then ipBad
        else
          let iphdrlen := iphIhl skb.mem iph * 4
          let totLen := iphTotLen skb.mem iph
          if skb.len < (totLen : Int) - iphdrlen then ipBad
          else
            let skb := ipTrim skb ((totLen : Int) - iphdrlen)
            if inetChksum (slice skb.mem iph iphdrlen) ≠ 0 then
              ⟨NET_ERR_BUF, 1, [], 0, 1, 0, 0⟩
            else ipDeliver devices skb

/-- A received payload: its bytes fill a part of a buffer in memory. -/
structure Received where
  mem : Memory
  start : Nat
  length : Nat
  stop : Nat
  fits : start + length ≤ stop

/-- The buffer as `eth_input` and `ppp_input` hand it over. -/
def Received.skb (r : Received) : IpSkb :=
  ⟨r.mem, 0, r.start, r.length, r.start, r.start + r.length⟩

namespace Received

def ihl (r : Received) : Nat := iphIhl r.mem r.start
def totLen (r : Received) : Nat := iphTotLen r.mem r.start

/-- The checks that `ip_input` makes before a packet goes on. -/
structure Taken (devices : IpDevices) (r : Received) : Prop where
  long : 20 ≤ r.length
  header : r.ihl * 4 ≤ r.length
  version : iphVersion r.mem r.start = 4
  total : r.totLen ≤ r.length
  checksum : inetChksum (slice r.mem r.start (r.ihl * 4)) = 0
  destination : iphProtocol r.mem r.start = IP_PROTO_UDP ∨
    ipLocal devices (netWord r.mem (r.start + 16))
  whole : iphFragOff r.mem r.start &&& (IP_OFFMASK ||| IP_MF) = 0
  protocol : iphProtocol r.mem r.start = IP_PROTO_TCP ∨
    iphProtocol r.mem r.start = IP_PROTO_ICMP ∨ iphProtocol r.mem r.start = IP_PROTO_UDP

/-- The header holds its fixed part, and lies within the total length. -/
def HeaderFits (r : Received) : Prop := 20 ≤ r.ihl * 4 ∧ r.ihl * 4 ≤ r.totLen

/-- A packet that goes on: its header is that of a well formed packet, and the buffer holds the
payload and nothing else. -/
structure GoesOn (r : Received) (skb : IpSkb) : Prop where
  version : iphVersion r.mem r.start = 4
  header : r.HeaderFits
  total : r.totLen ≤ r.length
  data : skb.data = r.start + r.ihl * 4
  len : skb.len = ((r.totLen - r.ihl * 4 : Nat) : Int)
  tail : skb.tail = r.start + r.totLen
  inside : skb.tail ≤ r.stop
  payload : slice skb.mem skb.data (r.totLen - r.ihl * 4) =
    slice r.mem (r.start + r.ihl * 4) (r.totLen - r.ihl * 4)

/-- What is promised of a call: one well formed packet goes on, or the packet is freed once. -/
def Kept (r : Received) (done : IpDone) : Prop :=
  (done.handed = [] ∧ done.frees = 1) ∨
    ∃ upper skb, done.handed = [(upper, skb)] ∧ done.frees = 0 ∧ r.GoesOn skb

end Received

/-! ## The order of the host -/

variable {mem : Memory} {iph a : Nat} {devices : IpDevices} {skb : IpSkb} {r : Received}

theorem netWord_lt (mem : Memory) (a : Nat) : netWord mem a < 4294967296 := by
  unfold netWord netHalf
  omega

theorem ipHostOrder_outside
    (outside : a < iph + 2 ∨ (iph + 4 ≤ a ∧ a < iph + 12) ∨ iph + 20 ≤ a) :
    ipHostOrder mem iph a = mem a := by
  have blitted : blit mem (iph + 2) [mem (iph + 3), mem (iph + 2)] a = mem a :=
    blit_outside (by change a < iph + 2 ∨ iph + 2 + 2 ≤ a; omega)
  rw [ipHostOrder, putWord_outside (by omega), putWord_outside (by omega), blitted]

theorem ipHostOrder_daddr : loadWord (ipHostOrder mem iph) (iph + 16) = netWord mem (iph + 16) :=
  loadWord_putWord (netWord_lt ..)

theorem ipHostOrder_protocol : iphProtocol (ipHostOrder mem iph) iph = iphProtocol mem iph := by
  rw [iphProtocol, ipHostOrder_outside (by omega), iphProtocol]

theorem ipHostOrder_fragOff : iphFragOff (ipHostOrder mem iph) iph = iphFragOff mem iph := by
  rw [iphFragOff, netHalf, ipHostOrder_outside (by omega), ipHostOrder_outside (by omega),
    iphFragOff, netHalf]

/-! ## What a call does -/

/-- The packet is freed, once, and goes nowhere. -/
def Freed (done : IpDone) : Prop := done.handed = [] ∧ done.frees = 1

/-- The buffer goes on, and is not freed. -/
def HandedOn (skb : IpSkb) (done : IpDone) : Prop :=
  ∃ upper, done.handed = [(upper, skb)] ∧ done.frees = 0

theorem ipDispatch_known {echo : Nat} (known : iphProtocol skb.mem skb.nh = IP_PROTO_TCP ∨
    iphProtocol skb.mem skb.nh = IP_PROTO_ICMP ∨ iphProtocol skb.mem skb.nh = IP_PROTO_UDP) :
    HandedOn skb (ipDispatch skb echo) := by
  unfold ipDispatch
  rcases known with tcp | icmp | udp
  · rw [if_pos tcp]
    exact ⟨.tcp, rfl, rfl⟩
  · rw [if_neg (by rw [icmp]; decide), if_pos icmp]
    exact ⟨.icmp, rfl, rfl⟩
  · rw [if_neg (by rw [udp]; decide), if_neg (by rw [udp]; decide), if_pos udp]
    exact ⟨.udp, rfl, rfl⟩

theorem ipDispatch_unknown {echo : Nat} (unknown : ¬ (iphProtocol skb.mem skb.nh = IP_PROTO_TCP ∨
    iphProtocol skb.mem skb.nh = IP_PROTO_ICMP ∨ iphProtocol skb.mem skb.nh = IP_PROTO_UDP)) :
    Freed (ipDispatch skb echo) := by
  simp only [not_or] at unknown
  unfold ipDispatch
  rw [if_neg unknown.1, if_neg unknown.2.1, if_neg unknown.2.2]
  exact ⟨rfl, rfl⟩

/-- The packet is for this device, not a fragment, and of a known protocol. -/
def ForUpper (devices : IpDevices) (mem : Memory) (iph : Nat) : Prop :=
  (iphProtocol mem iph = IP_PROTO_UDP ∨ ipLocal devices (netWord mem (iph + 16))) ∧
    iphFragOff mem iph &&& (IP_OFFMASK ||| IP_MF) = 0 ∧
    (iphProtocol mem iph = IP_PROTO_TCP ∨ iphProtocol mem iph = IP_PROTO_ICMP ∨
      iphProtocol mem iph = IP_PROTO_UDP)

theorem ipDeliver_cases (devices : IpDevices) (skb : IpSkb) :
    (ForUpper devices skb.mem skb.nh →
      HandedOn { skb with mem := ipHostOrder skb.mem skb.nh } (ipDeliver devices skb)) ∧
    (¬ ForUpper devices skb.mem skb.nh → Freed (ipDeliver devices skb)) := by
  unfold ipDeliver ForUpper
  simp only [ipHostOrder_daddr, ipHostOrder_protocol, ipHostOrder_fragOff]
  by_cases here : iphProtocol skb.mem skb.nh = IP_PROTO_UDP ∨
      ipLocal devices (netWord skb.mem (skb.nh + 16))
  · have kept : ¬ (iphProtocol skb.mem skb.nh ≠ IP_PROTO_UDP ∧
        ipLocal devices (netWord skb.mem (skb.nh + 16)) = false) := by
      rintro ⟨notUdp, notLocal⟩
      rcases here with udp | local_
      · exact notUdp udp
      · rw [notLocal] at local_
        cases local_
    rw [if_neg kept]
    by_cases whole : iphFragOff skb.mem skb.nh &&& (IP_OFFMASK ||| IP_MF) = 0
    · rw [if_neg (not_not.mpr whole)]
      refine ⟨fun all => ipDispatch_known ?_, fun some_ => ipDispatch_unknown ?_⟩
      · simpa only [ipHostOrder_protocol] using all.2.2
      · simp only [ipHostOrder_protocol]
        exact fun known => some_ ⟨here, whole, known⟩
    · rw [if_pos whole]
      exact ⟨fun all => absurd all.2.1 whole, fun _ => ⟨rfl, rfl⟩⟩
  · have dropped : iphProtocol skb.mem skb.nh ≠ IP_PROTO_UDP ∧
        ipLocal devices (netWord skb.mem (skb.nh + 16)) = false :=
      ⟨fun udp => here (.inl udp), Bool.eq_false_iff.mpr fun local_ => here (.inr local_)⟩
    rw [if_pos dropped]
    exact ⟨fun all => absurd all.1 here, fun _ => ⟨rfl, rfl⟩⟩

/-- The buffer of a packet that goes on. -/
def Received.passed (r : Received) : IpSkb :=
  ⟨ipHostOrder r.mem r.start, r.start + r.ihl * 4, r.start, (r.totLen : Int) - (r.ihl * 4 : Nat),
    r.start + r.ihl * 4, (r.start + r.ihl * 4 : Nat) + ((r.totLen : Int) - (r.ihl * 4 : Nat))⟩

/-- The buffer behind the checks of the header. -/
def Received.trimmed (r : Received) : IpSkb := { r.passed with mem := r.mem }

theorem ipInput_eq (devices : IpDevices) (r : Received) : ipInput devices r.skb =
    if r.length < 20 ∨ r.length < r.ihl * 4 ∨ iphVersion r.mem r.start ≠ 4 ∨
        r.length < r.totLen then ipBad
    else if inetChksum (slice r.mem r.start (r.ihl * 4)) ≠ 0 then ⟨NET_ERR_BUF, 1, [], 0, 1, 0, 0⟩
    else ipDeliver devices r.trimmed := by
  have len : r.skb.len = (r.length : Int) := rfl
  have ihl : iphIhl r.skb.mem r.skb.nh = r.ihl := rfl
  rw [ipInput, ihl, ipPull, len]
  by_cases short : r.length < 20
  · rw [if_pos (by omega), if_pos (.inl short)]
  · rw [if_neg (by omega)]
    by_cases header : r.length < r.ihl * 4
    · rw [if_pos (by omega), if_pos (.inr (.inl header))]
    · rw [if_neg (by omega)]
      change (if iphVersion r.mem r.start ≠ 4 then _ else
        if (r.length : Int) - (r.ihl * 4 : Nat) < (r.totLen : Int) - (r.ihl * 4 : Nat) then _ else
        _) = _
      by_cases version : iphVersion r.mem r.start ≠ 4
      · rw [if_pos version, if_pos (.inr (.inr (.inl version)))]
      · rw [if_neg version]
        by_cases total : r.length < r.totLen
        · rw [if_pos (by omega), if_pos (.inr (.inr (.inr total)))]
        · have within : ¬ (r.length : Int) - (r.ihl * 4 : Nat) <
              (r.totLen : Int) - (r.ihl * 4 : Nat) := by omega
          have good : ¬ (r.length < 20 ∨ r.length < r.ihl * 4 ∨
              iphVersion r.mem r.start ≠ 4 ∨ r.length < r.totLen) := by
            simp only [short, header, version, total, or_self, not_false_eq_true]
          rw [if_neg within, if_neg good]
          rfl

theorem ipInput_taken (taken : r.Taken devices) : HandedOn r.passed (ipInput devices r.skb) := by
  obtain ⟨long, header, version, total, checksum, here, whole, known⟩ := taken
  rw [ipInput_eq, if_neg (by omega), if_neg (not_not.mpr checksum)]
  exact (ipDeliver_cases devices r.trimmed).1 ⟨here, whole, known⟩

theorem ipInput_not_taken (fails : ¬ r.Taken devices) : Freed (ipInput devices r.skb) := by
  rw [ipInput_eq]
  split_ifs with bad checksum
  · exact ⟨rfl, rfl⟩
  · exact ⟨rfl, rfl⟩
  · apply (ipDeliver_cases devices r.trimmed).2
    rintro ⟨here, whole, known⟩
    exact fails ⟨by omega, by omega, by omega, by omega, not_not.mp checksum, here, whole, known⟩

theorem passed_goesOn (taken : r.Taken devices) (header : r.HeaderFits) : r.GoesOn r.passed := by
  obtain ⟨fixed, within⟩ := header
  have total := taken.total
  have fits := r.fits
  have tail : r.passed.tail = r.start + r.totLen := by
    change ((r.start + r.ihl * 4 : Nat) : Int) + _ = _
    omega
  refine ⟨taken.version, ⟨fixed, within⟩, total, rfl, ?_, tail, by omega, ?_⟩
  · change (r.totLen : Int) - (r.ihl * 4 : Nat) = _
    omega
  · refine slice_congr fun i inside => ipHostOrder_outside (.inr (.inr ?_))
    change r.start + 20 ≤ r.start + r.ihl * 4 + i
    omega

/-- **What goes on from IP.** Every packet that `ip_input` receives is freed once, or it goes on
with a good header and exactly its payload, if and only if a packet that passes the checks of
`ip_input` has a header of 20 bytes at least that lies within the total length. -/
theorem ip_input_passes (devices : IpDevices) (r : Received) :
    r.Kept (ipInput devices r.skb) ↔ (r.Taken devices → r.HeaderFits) := by
  constructor
  · rintro (⟨none_, -⟩ | ⟨upper, skb, -, -, goesOn⟩) taken
    · obtain ⟨upper, handed, -⟩ := ipInput_taken taken
      rw [none_] at handed
      cases handed
    · exact goesOn.header
  · intro fits
    by_cases taken : r.Taken devices
    · obtain ⟨upper, handed, frees⟩ := ipInput_taken taken
      exact .inr ⟨upper, r.passed, handed, frees, passed_goesOn taken (fits taken)⟩
    · exact .inl (ipInput_not_taken taken)

/-- A UDP packet with a total length of zero and a good checksum. -/
def emptyPacket : Received where
  mem i := ([0x45, 0, 0, 0, 0, 0, 0, 0, 0, 17, 0xba, 0xee] : List Byte).getD i 0
  start := 0
  length := 20
  stop := 1518
  fits := by decide

/-- It goes on to UDP with a length of minus 20. -/
theorem emptyPacket_goes_on :
    ¬ emptyPacket.Kept (ipInput ⟨[], 0⟩ emptyPacket.skb) := by
  have taken : emptyPacket.Taken ⟨[], 0⟩ := by
    refine ⟨by decide, by decide, by decide, by decide, ?_, .inl (by decide), by decide,
      by decide⟩
    have carries : foldCarries 0xffff = 0xffff := by
      rw [foldCarries]
      rfl
    have sum : ipStandardChksum (slice emptyPacket.mem emptyPacket.start (emptyPacket.ihl * 4)) =
        0xffff := by
      decide
    rw [inetChksum, sum, carries]
    rfl
  obtain ⟨upper, handed, -⟩ := ipInput_taken taken
  rintro (⟨none_, -⟩ | ⟨-, skb, -, -, goesOn⟩)
  · rw [none_] at handed
    cases handed
  · exact absurd goesOn.header.2 (by decide)

end PosFirmware.IpStack
