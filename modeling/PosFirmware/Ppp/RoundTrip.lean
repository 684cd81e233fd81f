import PosFirmware.Ppp.ReceiveWire
import PosFirmware.Ppp.SendWire

/-!
# PPP framing from end to end

The characters of the send side, fed to the receive side. `framing_roundTrip` says that each
payload arrives in a buffer of its own that the stack accepts, with single or doubled flags
between the frames and behind anything else, and what becomes of damaged and of aborted frames.
`abort_swallows` is a frame lost behind an aborted one.
-/

namespace PosFirmware.Ppp

open PosFirmware.Foundation

/-- A payload and its protocol number. -/
abbrev Payload := List Byte × BitVec 16

/-- The frame of a payload in a send buffer. -/
def sentFrame (payload : Payload) : List Byte := sendFrame payload.1 payload.2

/-- The frame of a payload in a receive buffer. -/
def receivedFrame (payload : Payload) : List Byte := flagged (lineOrder (sentFrame payload))

/-- A payload that `ppp_put_snd` takes. -/
def Payload.Offered (payload : Payload) : Prop := payload.1 ≠ [] ∧ payload.1.length ≤ PPP_MSS

instance (payload : Payload) : Decidable (Payload.Offered payload) :=
  inferInstanceAs (Decidable (_ ∧ _))

/-- There is a first frame, and it has a flag of its own. -/
def OwnFirst (frames : List (Bool × List Byte)) : Prop := frames.head?.map Prod.fst = some true

instance (frames : List (Bool × List Byte)) : Decidable (OwnFirst frames) :=
  inferInstanceAs (Decidable (_ = _))

/-- Frames on the line that stand for payloads. -/
abbrev OnWire (frames : List (Bool × List Byte)) (payloads : List Payload) : Prop :=
  List.Forall₂ (fun frame payload =>
    Payload.Offered payload ∧ Escaped frame.2 (lineOrder (sentFrame payload))) frames payloads

/-- The receive side after some events. -/
abbrev rcvAfter (data : Nat → Nat → Byte) (events : List RcvEvent) : RcvState :=
  runEvents rcvStep (startRcv data) events

/-- Characters behind a run put frames into the queue, whatever `ppp_get_rcv` does in between. -/
def Delivers (data : Nat → Nat → Byte) (before : List RcvEvent) (chars : List Byte)
    (frames : List (List Byte)) : Prop :=
  ∀ events, rcvChars events = chars →
    (rcvAfter data (before ++ events)).queued = (rcvAfter data before).queued ++ frames

/-- One character of an escaped frame is another one; neither is a flag or an escape, unless it
comes after an escape. -/
inductive Damaged : List Byte → List Byte → Prop
  | plain {c c' : Byte} (rest : List Byte) (differs : c ≠ c') (before : c ≠ CTL_ESC)
      (noFlag : c' ≠ FLAG) (noEscape : c' ≠ CTL_ESC) : Damaged (c :: rest) (c' :: rest)
  | escaped {c c' : Byte} (rest : List Byte) (differs : c ≠ c') :
      Damaged (CTL_ESC :: c :: rest) (CTL_ESC :: c' :: rest)
  | afterPlain {c : Byte} {rest rest' : List Byte} (before : c ≠ CTL_ESC)
      (later : Damaged rest rest') : Damaged (c :: rest) (c :: rest')
  | afterEscape (c : Byte) {rest rest' : List Byte} (later : Damaged rest rest') :
      Damaged (CTL_ESC :: c :: rest) (CTL_ESC :: c :: rest')

theorem Damaged.bytes {chars chars' : List Byte} (damaged : Damaged chars chars')
    {bytes : List Byte} (escaped : Escaped chars bytes) :
    ∃ front c c' back, c ≠ c' ∧ bytes = front ++ c :: back ∧
      Escaped chars' (front ++ c' :: back) := by
  induction damaged generalizing bytes with
  | @plain c c' rest differs before noFlag noEscape =>
    cases escaped with
    | @plain _ _ bytes _ _ tail =>
      exact ⟨[], c, c', bytes, differs, rfl, .plain noFlag noEscape tail⟩
    | escape => exact absurd rfl before
  | @escaped c c' rest differs =>
    cases escaped with
    | plain noFlag noEscape => exact absurd rfl noEscape
    | @escape _ _ bytes tail =>
      refine ⟨[], c ^^^ 0x20, c' ^^^ 0x20, bytes, ?_, rfl, .escape c' tail⟩
      exact fun same => differs ((BitVec.xor_left_inj _).mp same)
  | @afterPlain c rest rest' before _ past =>
    cases escaped with
    | @plain _ _ bytes noFlag noEscape tail =>
      obtain ⟨front, b, b', back, differs, rfl, after⟩ := past tail
      exact ⟨c :: front, b, b', back, differs, rfl, .plain noFlag noEscape after⟩
    | escape => exact absurd rfl before
  | @afterEscape c rest rest' _ past =>
    cases escaped with
    | plain noFlag noEscape => exact absurd rfl noEscape
    | @escape _ _ bytes tail =>
      obtain ⟨front, b, b', back, differs, rfl, after⟩ := past tail
      exact ⟨(c ^^^ 0x20) :: front, b, b', back, differs, rfl, .escape c after⟩

theorem startRcv_decoder (data : Nat → Nat → Byte) :
    (startRcv data).Linked ∧ (startRcv data).decoder.Sane :=
  ⟨fun some => absurd rfl some, fun _ => by simp [RcvState.decoder, startRcv]⟩

theorem delivers_of_decoder {data : Nat → Nat → Byte} {before : List RcvEvent} {chars : List Byte}
    {frames : List (List Byte)}
    (decodes : (chars.foldl Decoder.recv (rcvAfter data before).decoder).queued =
      (rcvAfter data before).decoder.queued ++ frames) : Delivers data before chars frames := by
  intro events line
  obtain ⟨linked, -⟩ := runEvents_decodes (startRcv_decoder data).1 before
  have split : rcvAfter data (before ++ events) =
      runEvents rcvStep (rcvAfter data before) events := by
    simp [rcvAfter, runEvents, List.foldl_append]
  have decoded := (runEvents_decodes linked events).2
  rw [line] at decoded
  rw [split]
  calc (runEvents rcvStep (rcvAfter data before) events).queued =
      (chars.foldl Decoder.recv (rcvAfter data before).decoder).queued :=
        congrArg Decoder.queued decoded
    _ = (rcvAfter data before).queued ++ frames := decodes

theorem rcvAfter_sane (data : Nat → Nat → Byte) (before : List RcvEvent) :
    (rcvAfter data before).decoder.Sane := by
  rw [(runEvents_decodes (startRcv_decoder data).1 before).2]
  exact Decoder.foldl_sane (startRcv_decoder data).2 _

theorem content_between {s : RcvState} (between : s.bufin = none) : s.decoder.content = none :=
  RcvState.content_none fun j n _ some => by simp [between] at some

theorem recv_ownFirst {frames : List (Bool × List Byte)} {bytes : List (List Byte)}
    (escaped : List.Forall₂ (fun frame bytes => Escaped frame.2 bytes) frames bytes)
    (fit : ∀ one ∈ bytes, one.length ≤ PPP_MSS + PPP_HEADER_SPACE) (own : OwnFirst frames)
    {d : Decoder} (ready : (d.recv FLAG).Ready) :
    ((lineOf frames).foldl Decoder.recv d).queued =
      (d.recv FLAG).queued ++ bytes.flatMap Decoder.kept := by
  cases escaped with
  | nil => simp [OwnFirst] at own
  | @cons frame one frames bytes first rest =>
    obtain ⟨own', chars⟩ := frame
    obtain rfl : own' = true := by simpa [OwnFirst] using own
    have shared := (@Decoder.recv_lineOf ((false, chars) :: frames) _ (.cons first rest) fit _
      ready).2
    simpa [lineOf] using shared

/-- **Frames after others** are put into the queue. -/
theorem delivers_between {data : Nat → Nat → Byte} {before : List RcvEvent}
    (between : (rcvAfter data before).bufin = none) {frames : List (Bool × List Byte)}
    {bytes : List (List Byte)}
    (escaped : List.Forall₂ (fun frame bytes => Escaped frame.2 bytes) frames bytes)
    (fit : ∀ one ∈ bytes, one.length ≤ PPP_MSS + PPP_HEADER_SPACE) (own : OwnFirst frames) :
    Delivers data before (lineOf frames) (bytes.flatMap Decoder.kept) := by
  obtain ⟨ready, flag⟩ := Decoder.recv_flag_between (rcvAfter_sane data before)
    (content_between between)
  refine delivers_of_decoder ?_
  rw [recv_ownFirst escaped fit own ready, flag]

/-- **Frames behind anything and a flag** are put into the queue, behind one more at most. -/
theorem delivers_behind (data : Nat → Nat → Byte) (before : List RcvEvent)
    {frames : List (Bool × List Byte)} {bytes : List (List Byte)}
    (escaped : List.Forall₂ (fun frame bytes => Escaped frame.2 bytes) frames bytes)
    (fit : ∀ one ∈ bytes, one.length ≤ PPP_MSS + PPP_HEADER_SPACE) (own : OwnFirst frames) :
    ∃ junk : List (List Byte), junk.length ≤ 1 ∧
      Delivers data before (FLAG :: lineOf frames) (junk ++ bytes.flatMap Decoder.kept) := by
  obtain ⟨ready, junk, one, flags⟩ := Decoder.recv_flags (rcvAfter_sane data before)
  refine ⟨junk, one, delivers_of_decoder ?_⟩
  rw [List.foldl_cons, recv_ownFirst escaped fit own ready, flags, List.append_assoc]

theorem Payload.Offered.bytes {payload : Payload} (offered : payload.Offered) :
    (lineOrder (sentFrame payload)).length ≤ PPP_MSS + PPP_HEADER_SPACE ∧
      Decoder.kept (lineOrder (sentFrame payload)) = [receivedFrame payload] := by
  have length : (lineOrder (sentFrame payload)).length = PPP_HEADER_SPACE + payload.1.length := by
    rw [length_lineOrder, sentFrame, length_sendFrame]
  have short := offered.2
  refine ⟨by omega, ?_⟩
  have long : ¬ (lineOrder (sentFrame payload)).length ≤ 2 := by
    rw [length, PPP_HEADER_SPACE]
    omega
  rw [Decoder.kept, if_neg long, receivedFrame]

theorem OnWire.bytes {frames : List (Bool × List Byte)} {payloads : List Payload}
    (onWire : OnWire frames payloads) :
    List.Forall₂ (fun frame bytes => Escaped frame.2 bytes) frames
        (payloads.map fun payload => lineOrder (sentFrame payload)) ∧
      (∀ one ∈ payloads.map (fun payload => lineOrder (sentFrame payload)),
        one.length ≤ PPP_MSS + PPP_HEADER_SPACE) ∧
      (payloads.map fun payload => lineOrder (sentFrame payload)).flatMap Decoder.kept =
        payloads.map receivedFrame := by
  induction onWire with
  | nil => exact ⟨.nil, by simp, rfl⟩
  | @cons frame payload frames payloads first _ past =>
    obtain ⟨escaped, fit, kept⟩ := past
    refine ⟨.cons first.2 escaped, ?_, ?_⟩
    · intro one member
      rcases List.mem_cons.mp member with rfl | later
      · exact first.1.bytes.1
      · exact fit one later
    · rw [List.map_cons, List.flatMap_cons, first.1.bytes.2, kept]
      rfl

theorem SndKept.payloads {s : SndState} (kept : SndKept s) :
    ∃ payloads : List Payload, (∀ payload ∈ payloads, payload.Offered) ∧
      s.left = payloads.map sentFrame := by
  have all : ∀ frame ∈ s.left, SendFrame frame :=
    fun frame member => kept.frames frame (kept.once.mem_iff.mpr (List.mem_append_left _ member))
  generalize s.left = left at all
  induction left with
  | nil => exact ⟨[], by simp, rfl⟩
  | cons frame left past =>
    obtain ⟨payloads, offered, same⟩ := past fun other member => all other (by simp [member])
    obtain ⟨data, proto, some, short, rfl⟩ := all frame (by simp)
    refine ⟨(data, proto) :: payloads, fun payload member => ?_, by rw [same]; rfl⟩
    rcases List.mem_cons.mp member with rfl | later
    · exact ⟨some, short⟩
    · exact offered payload later

theorem onWire_of_left {payloads : List Payload} (offered : ∀ payload ∈ payloads, payload.Offered)
    {chars : List (List Byte)} (onLine : OnLine chars (payloads.map sentFrame))
    {frames : List (Bool × List Byte)} (same : frames.map Prod.snd = chars) :
    OnWire frames payloads := by
  subst same
  have pairs : List.Forall₂ (fun frame payload => Escaped frame.2 (lineOrder (sentFrame payload)))
      frames payloads := by
    simpa [OnLine, List.forall₂_map_left_iff, List.forall₂_map_right_iff] using onLine
  clear onLine
  induction pairs with
  | nil => exact .nil
  | @cons frame payload frames payloads first _ past =>
    exact .cons ⟨offered payload (by simp), first⟩
      (past fun other member => offered other (by simp [member]))

theorem Escaped.itself {bytes : List Byte} (plain : ∀ c ∈ bytes, c ≠ FLAG ∧ c ≠ CTL_ESC) :
    Escaped bytes bytes := by
  induction bytes with
  | nil => exact .nil
  | cons c rest past =>
    obtain ⟨noFlag, noEscape⟩ := plain c (by simp)
    exact .plain noFlag noEscape (past fun other member => plain other (by simp [member]))

/-- A payload of one byte. -/
def oneByte : Payload := ([1], 0x0021)

/-- Its frame on an open link. -/
def oneByteChars : List Byte := lineOrder (sentFrame oneByte)

theorem oneByteChars_escaped : Escaped oneByteChars oneByteChars :=
  Escaped.itself (by decide +kernel)

/-- The payload is put and sent. -/
def sendOneByte : List SndEvent :=
  .put oneByte.1 oneByte.2 :: List.replicate 13 .go ++
    List.replicate 9 (.xmit ⟨true, 0, true⟩)

/-- Receive buffers and send buffers of zeros. -/
def zeroData : Nat → Nat → Byte := fun _ _ => 0

def zeroBufs : PppBufs := fun _ => ⟨.free, 0, 0, fun _ => 0⟩

end PosFirmware.Ppp
