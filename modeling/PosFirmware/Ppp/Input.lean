import PosFirmware.Ppp.Packet
import PosFirmware.Ppp.Ipcp
import PosFirmware.Ppp.Lcp

/-! # The input of a PPP device

`pap_input` and `chap_input`. The digests of CHAP and MS-CHAP are parameters: what they compute
from the challenge and the password is copied into the reply.
-/

namespace PosFirmware.Ppp

open PosFirmware.Foundation

/-- `PPP_PASSWD`. -/
def PPP_PASSWD : Int := -17

/-- The digests, and how many bytes of the challenge they read. -/
structure ChapDigests where
  /-- `chapms_make_response`: 50 bytes from the challenge and the password. -/
  ms1 : (challenge : List Byte) → (passwd : List Byte) → List Byte
  /-- `chapms2_make_response`: 50 bytes, and the answer expected later. -/
  ms2 : (userid challenge passwd : List Byte) → List Byte × List Byte
  /-- `ppp_md5_digest`: 16 bytes. -/
  md5 : List Byte → List Byte

/-- `pap_input`. -/
def papInput (dev : PppDev) (skb : Skb) : Handled :=
  let us1 := skb.num 0
  let skb := skb.look 0 4
  match us1 with
  | 1 => freed PPP_TERM dev skb
  | 2 =>
    freed PPP_OK { dev with
      opt4 := dev.opt4 &&& ~~~(AUTHppap ||| AUTHpwat), auth_state := 1, counter := MAXCONF } skb
  | 3 =>
    if anyBit dev.opt4 AUTHpwat then
      freed PPP_TERM { dev with id := dev.id + 1, error_code := PPP_PASSWD } skb
    else freed PPP_OK dev skb
  | _ => freed PPP_OK dev skb

/-- The response of MS-CHAP: the challenge is saved behind the data, and the response takes its
place. -/
def chapMsResponse (digests : ChapDigests) (dev : PppDev) (skb : Skb) : PppDev × Skb :=
  let size := skb.num 4
  let skb := (skb.look 5 size).poke 54 (slice skb.mem 5 size)
  if anyBit dev.neg_authent PPP_ALG_MSCHAPV1 then
    (dev, (skb.lookSaved 54 size 8).poke 4 (digests.ms1 (slice skb.mem 54 8) dev.passwd))
  else if anyBit dev.neg_authent PPP_ALG_MSCHAPV2 then
    let (response, cache) := digests.ms2 dev.userid (slice skb.mem 54 16) dev.passwd
    ({ dev with mschapv2_cache := cache }, (skb.lookSaved 54 size 16).poke 4 response)
  else (dev, skb)

/-- The response of CHAP: identifier, password and challenge are put behind the data and their
digest before. -/
def chapMd5Response (digests : ChapDigests) (dev : PppDev) (skb : Skb) : Skb :=
  let size := skb.num 4
  let behind := (4 + skb.dataLength).toNat
  let text := skb.mem 1 :: dev.passwd
  let skb := skb.poke behind (text ++ [0])
  let skb := (skb.look 5 size).poke (behind + text.length) (slice skb.mem 5 size)
  let skb := skb.poke 4 [16]
  skb.poke 5 (digests.md5 (slice skb.mem behind (text.length + size)))

/-- `CHAPchallenge`. -/
def chapChallenge (digests : ChapDigests) (dev : PppDev) (skb : Skb) : Handled :=
  let dev := { dev with opt4 := dev.opt4 ||| AUTHpwat }
  let skb := (skb.look 4 1).poke 0 [2]
  let ((dev, skb), i2, rejlen) :=
    if anyBit dev.opt4 AUTHpmsc then (chapMsResponse digests dev skb, 50, 54)
    else if anyBit dev.opt4 AUTHpchp then ((dev, chapMd5Response digests dev skb), 17, 21)
    else ((dev, skb), 0, 0)
  let length := rejlen + dev.userid.length
  sent PPP_OK PROTchap dev (((skb.poke (4 + i2) (dev.userid ++ [0])).setLength length).trim length)

/-- `CHAPsuccess` with the answer that MS-CHAPv2 does not expect. -/
def chapWrongAnswer (dev : PppDev) (skb : Skb) : Bool :=
  anyBit dev.neg_authent PPP_ALG_MSCHAPV2 && decide (slice skb.mem 4 42 ≠ dev.mschapv2_cache)

/-- `chap_input`. -/
def chapInput (digests : ChapDigests) (dev : PppDev) (skb : Skb) : Handled :=
  let us1 := skb.num 0
  let skb := skb.look 0 4
  match us1 with
  | 1 => chapChallenge digests dev skb
  | 3 =>
    let skb := if anyBit dev.neg_authent PPP_ALG_MSCHAPV2 then skb.look 4 42 else skb
    if chapWrongAnswer dev skb then forgotten PPP_TERM dev skb
    else
      freed PPP_OK { dev with
        opt4 := dev.opt4 &&& ~~~(AUTHpchp ||| AUTHpmsc ||| AUTHpwat), auth_state := 1 } skb
  | 4 => freed PPP_OK { dev with id := dev.id + 1, error_code := PPP_PASSWD } skb
  | _ => freed PPP_OK dev skb

/-- The packets `chap_input` forgets: a success that MS-CHAPv2 does not expect. -/
def ChapForgets (dev : PppDev) (skb : Skb) : Prop := skb.num 0 = 3 ∧ chapWrongAnswer dev skb = true

instance (dev : PppDev) (skb : Skb) : Decidable (ChapForgets dev skb) :=
  inferInstanceAs (Decidable (_ ∧ _))

theorem papInput_fates (dev : PppDev) (skb : Skb) : (papInput dev skb).fates.length = 1 := by
  simp only [papInput]
  split
  · rfl
  · rfl
  · split <;> rfl
  · rfl

/-- **`chap_input` frees a packet or sends it back, once**, but for those it forgets. -/
theorem chapInput_fates (digests : ChapDigests) (dev : PppDev) (skb : Skb) :
    (chapInput digests dev skb).fates.length = 1 ↔ ¬ ChapForgets dev skb := by
  simp only [chapInput, ChapForgets]
  split
  all_goals rename_i code
  · simp [code, chapChallenge, sent]
  · have same : chapWrongAnswer dev (if anyBit dev.neg_authent PPP_ALG_MSCHAPV2 then
        (skb.look 0 4).look 4 42 else skb.look 0 4) = chapWrongAnswer dev skb := by
      split <;> rfl
    rw [same]
    by_cases wrong : chapWrongAnswer dev skb = true <;> simp [code, wrong, forgotten, freed]
  · simp [code, freed]
  · refine iff_of_true rfl ?_
    rintro ⟨code, -⟩
    contradiction

/-! ## Packets from the PPP line

`ppp_input` takes the framing off and hands the packet to the IP layer or to the handler of its
protocol. `pppInput_consumes` says that each packet is consumed exactly once, but for those
its handler forgets.
-/

/-- Two bytes of a packet as a protocol number. -/
def protocolAt (skb : Skb) (i : Nat) : BitVec 16 := BitVec.ofNat 16 (skb.num16 i)

/-- The head of `ppp_input`: the protocol, and the packet behind it. -/
def unframe (dev : PppDev) (skb : Skb) : BitVec 16 × Skb :=
  if dev.ethernet then (protocolAt skb 0, (skb.look 0 2).pull 2)
  else if skb.mem 0 ≠ 0xFF ∧ skb.mem 1 ≠ 0x03 then
    if skb.mem 0 = 0x21 then (PROTip, (skb.look 0 2).pull 1)
    else (protocolAt skb 0, (skb.look 0 2).pull 2)
  else (protocolAt skb 2, (skb.look 0 4).pull 4)

/-- The handler of the protocol; a packet that is not expected is dropped. -/
def handle (digests : ChapDigests) (proto : BitVec 16) (dev : PppDev) (skb : Skb) : Option Handled :=
  if proto = PROTlcp then some (lcpInput dev skb)
  else if ¬ has dev.prevstate LCPopen then none
  else if proto = PROTpap then some (papInput dev skb)
  else if proto = PROTchap then some (chapInput digests dev skb)
  else if dev.opt4 ≠ 0 then none
  else if proto = PROTipcp then some (ipcpInput dev skb)
  else none

/-- The end of `ppp_input`: the link goes down or goes on negotiating. -/
def afterHandler (done : Handled) : Handled :=
  if done.err = PPP_REJ then { done with err := -1 }
  else if done.err = PPP_TERM then { done with err := -1, dev := pppDown done.dev }
  else if done.err = PPP_OK then
    if done.dev.state ≠ PPPopen ∧ done.dev.counter ≠ 0 then
      { done with err := -2, dev := (pppNegotiate done.dev).2 }
    else { done with err := -2 }
  else done

/-- `ppp_input` behind the framing. -/
def pppPacket (digests : ChapDigests) (proto : BitVec 16) (dev : PppDev) (skb : Skb) : Handled :=
  if dev.prevstate = PPPopen ∧ proto = PROTip then ⟨0, dev, skb, [.toIp]⟩
  else
    match handle digests proto dev skb with
    | none => freed (-1) dev skb
    | some done => afterHandler done

/-- `ppp_input`. -/
def pppInput (digests : ChapDigests) (dev : PppDev) (skb : Skb) : Handled :=
  pppPacket digests (unframe dev skb).1 dev (unframe dev skb).2

/-- The packets the handler of their protocol forgets. -/
def ForgetsPacket (proto : BitVec 16) (dev : PppDev) (skb : Skb) : Prop :=
  (proto = PROTlcp ∧ LcpForgets dev skb) ∨
    (has dev.prevstate LCPopen = true ∧
      ((proto = PROTchap ∧ ChapForgets dev skb) ∨
        (proto = PROTipcp ∧ dev.opt4 = 0 ∧ IpcpForgets dev skb)))

instance (proto : BitVec 16) (dev : PppDev) (skb : Skb) : Decidable (ForgetsPacket proto dev skb) :=
  inferInstanceAs (Decidable (_ ∨ _))

/-- The packets `ppp_input` forgets: those that the handler of their protocol forgets. -/
def Forgets (dev : PppDev) (skb : Skb) : Prop :=
  ForgetsPacket (unframe dev skb).1 dev (unframe dev skb).2

instance (dev : PppDev) (skb : Skb) : Decidable (Forgets dev skb) :=
  inferInstanceAs (Decidable (ForgetsPacket _ _ _))

theorem afterHandler_fates (done : Handled) : (afterHandler done).fates = done.fates := by
  unfold afterHandler
  split
  · rfl
  · split
    · rfl
    · split
      · split <;> rfl
      · rfl

/-- **Each packet is consumed exactly once**: it is freed, sent back or passed to the IP layer,
whatever the state of the link, exactly when its handler does not forget it. -/
theorem pppInput_consumes (digests : ChapDigests) (dev : PppDev) (skb : Skb) :
    (pppInput digests dev skb).fates.length = 1 ↔ ¬ Forgets dev skb := by
  simp only [pppInput, Forgets]
  generalize (unframe dev skb).1 = proto
  generalize (unframe dev skb).2 = skb
  simp only [pppPacket, ForgetsPacket]
  split
  · next ip =>
    refine iff_of_true rfl ?_
    rintro (⟨lcp, -⟩ | ⟨-, ⟨chap, -⟩ | ⟨ipcp, -⟩⟩)
    · exact absurd (ip.2.symm.trans lcp) (by decide)
    · exact absurd (ip.2.symm.trans chap) (by decide)
    · exact absurd (ip.2.symm.trans ipcp) (by decide)
  · unfold handle
    have chapLcp : ¬ PROTchap = PROTlcp := by decide
    have ipcpLcp : ¬ PROTipcp = PROTlcp := by decide
    have papChap : ¬ PROTpap = PROTchap := by decide
    have papIpcp : ¬ PROTpap = PROTipcp := by decide
    have chapIpcp : ¬ PROTchap = PROTipcp := by decide
    by_cases lcp : proto = PROTlcp
    · subst lcp
      simp [Ne.symm chapLcp, Ne.symm ipcpLcp, afterHandler_fates, lcpInput_fates]
    · by_cases opened : has dev.prevstate LCPopen = true
      · by_cases pap : proto = PROTpap
        · subst pap
          simp [lcp, opened, papChap, papIpcp, afterHandler_fates, papInput_fates]
        · by_cases chap : proto = PROTchap
          · subst chap
            simp [lcp, opened, pap, chapIpcp, afterHandler_fates, chapInput_fates]
          · by_cases waits : dev.opt4 = 0#32
            · by_cases ipcp : proto = PROTipcp
              · subst ipcp
                simp [lcp, opened, pap, chap, waits, afterHandler_fates, ipcpInput_fates]
              · simp [lcp, opened, pap, chap, waits, ipcp, freed]
            · simp [lcp, opened, pap, chap, waits, freed]
      · simp [lcp, opened, freed]

/-- A link that just started, with identifier 1 and its first request sent. -/
def startedLink : PppDev :=
  (pppNegotiate (pppStart {
    state := 0, auth_state := 0, mss := 0, counter := 0, error_code := 0, local_addr := 0,
    remote_addr := 0, primary_dns := 0, second_dns := 0, id := 1, recv_id := 0, recv_prot := 0,
    ipopts := 0, opt4 := 0, locopts := 0, remopts := 0, raccm := 0, ACCM := 0, userid := [],
    passwd := [], mschapv2_cache := [], init_authent := PPP_ALG_PAP, neg_authent := 0,
    lcp_ack_pkt := [], lcp_ack_retry := 0, lcp_ack_retry_max := 0, echo_state := .disable,
    ethernet := false, wireless := false, up := false })).2

/-- A packet as it is received, in a buffer of 512 bytes. -/
def received (bytes : List Byte) : Skb :=
  ⟨fun i => bytes.getD i 0, bytes.length, bytes.length, 508, fun _ => 0, true⟩

/-- Digests of zeros, with the lengths they have. -/
def zeroDigests : ChapDigests where
  ms1 := fun _ _ => List.replicate 50 0
  ms2 := fun _ _ _ => (List.replicate 50 0, List.replicate 42 0)
  md5 := fun _ => List.replicate 16 0

/-- **A packet is forgotten**: the answer to a request to terminate that was not made is neither
freed nor sent back nor passed on. -/
theorem terminateAck_forgotten :
    (pppInput zeroDigests startedLink
      (received [0xFF, 0x03, 0xC0, 0x21, 0x06, 0x02, 0x00, 0x04])).fates.length ≠ 1 := by
  decide +kernel

end PosFirmware.Ppp
