import PosFirmware.Bluetooth.H5Link
import PosFirmware.Foundation.Line

/-!
# The H5 link and its peer

The link and a peer that follows the protocol, with a line in each direction that loses,
damages and repeats frames. The peer numbers its reliable packets modulo 8, sends those of
its window as often as it likes, takes the packets of the link that are in sequence and
acknowledges them. `ExactlyOnce` is what the link promises in every state.
-/

namespace PosFirmware.Bluetooth

open PosFirmware.Foundation

/-- The number of a packet. -/
def numberOf (i : Nat) : Fin 8 := Fin.ofNat 8 i

/-- The peer. -/
structure H5Peer where
  /-- How many of its reliable packets the link acknowledged. -/
  confirmed : Nat
  /-- The packets of the link it took, in order. -/
  received : List H5Packet
  /-- How many of them it acknowledged. -/
  acknowledged : Nat

/-- The link, the peer and the line to the link; the line to the peer is the link's. -/
structure H5System where
  link : H5Link
  peer : H5Peer
  toLink : List (List Byte)

/-- What happens. -/
inductive H5Event where
  /-- The upper layer sends a packet. -/
  | sendPacket (packet : H5Packet)
  /-- The UART sent a block. -/
  | blockSent (hasData : Bool) (upper : Upper)
  /-- `link_timer` expires. -/
  | linkTimeout
  /-- `inactivity_timer` expires. -/
  | inactivityTimeout
  /-- The decoder hands a frame to `hci_transport_h5_process_frame`. -/
  | processFrame (behind : List Byte) (upper : Upper)
  /-- The run loop calls `hci_transport_h5_process_frame_ext`. -/
  | processFrameExt (frameSize : Nat) (behind : List Byte) (upper : Upper)
  /-- The peer sends the packet that many places ahead of the first one not acknowledged. -/
  | peerSends (ahead : Nat) (dic : Bool)
  /-- The peer sends an acknowledgement. -/
  | peerAcks (dic : Bool)
  /-- The peer sends an unreliable frame, such as a link control message. -/
  | peerOther (f : H5Frame)
  /-- The peer takes a frame; it may leave the acknowledgement in it alone. -/
  | peerReceives (heeds : Bool)
  /-- The line to the link has a fault. -/
  | faultToLink (fault : LineFault (List Byte))
  /-- The line to the peer has a fault. -/
  | faultToPeer (fault : LineFault (List Byte))

namespace H5Peer

/-- The frame with one of the peer's packets. -/
def dataFrame (packets : Nat → H5Packet) (ahead : Nat) (dic : Bool) (p : H5Peer) : H5Frame :=
  ⟨numberOf (p.confirmed + ahead), numberOf p.received.length, dic, true,
    packets (p.confirmed + ahead)⟩

/-- The frame with an acknowledgement only. -/
def ackFrame (dic : Bool) (p : H5Peer) : H5Frame :=
  ⟨0, numberOf p.received.length, dic, false, ⟨LINK_ACKNOWLEDGEMENT_TYPE, [], nil_fits⟩⟩

/-- What was received is acknowledged. -/
def acknowledge (p : H5Peer) : H5Peer := { p with acknowledged := p.received.length }

/-- The acknowledgement in a frame is processed. -/
def heed (f : H5Frame) (p : H5Peer) : H5Peer :=
  if f.reliable ∨ f.packet.type = LINK_ACKNOWLEDGEMENT_TYPE then
    { p with confirmed := p.confirmed + (f.ackNr - numberOf p.confirmed).val }
  else p

/-- A reliable packet is taken if it is in sequence. -/
def take (f : H5Frame) (p : H5Peer) : H5Peer :=
  if f.reliable ∧ f.seqNr = numberOf p.received.length then
    { p with received := p.received ++ [f.packet] }
  else p

/-- A frame that is read. -/
def receive (heeds : Bool) (f : H5Frame) (p : H5Peer) : H5Peer :=
  (if heeds then p.heed f else p).take f

end H5Peer

/-- One event, for a peer with these reliable packets and a window of this size. -/
def h5Step (packets : Nat → H5Packet) (window : Nat) (s : H5System) : H5Event → H5System
  | .sendPacket packet => { s with link := (s.link.sendPacket packet).2 }
  | .blockSent hasData upper =>
    if s.link.slipWriteActive then { s with link := s.link.blockSent hasData upper } else s
  | .linkTimeout =>
    if s.link.linkTimer then
      { s with link := H5Link.linkTimeoutHandler { s.link with linkTimer := false } }
    else s
  | .inactivityTimeout =>
    if s.link.inactivityTimer then
      { s with link := H5Link.inactivityTimeoutHandler { s.link with inactivityTimer := false } }
    else s
  | .processFrame behind upper =>
    match s.toLink with
    | [] => s
    | bytes :: rest => { s with link := s.link.processFrame bytes behind upper, toLink := rest }
  | .processFrameExt frameSize behind upper =>
    { s with
      link := s.link.processFrameExt frameSize s.toLink.head? behind upper
      toLink := if frameSize < 4 then s.toLink else s.toLink.tail }
  | .peerSends ahead dic =>
    if ahead < window then
      { s with
        toLink := s.toLink ++ [(s.peer.dataFrame packets ahead dic).encode]
        peer := s.peer.acknowledge }
    else s
  | .peerAcks dic =>
    { s with toLink := s.toLink ++ [(s.peer.ackFrame dic).encode], peer := s.peer.acknowledge }
  | .peerOther f =>
    if f.reliable = false ∧ f.packet.type ≠ LINK_ACKNOWLEDGEMENT_TYPE then
      { s with toLink := s.toLink ++ [f.encode] }
    else s
  | .peerReceives heeds =>
    match s.link.line with
    | [] => s
    | bytes :: rest =>
      { s with
        link.line := rest
        peer := match readFrame bytes with
          | none => s.peer
          | some f => s.peer.receive heeds f }
  | .faultToLink fault => { s with toLink := fault.apply readFrame s.toLink }
  | .faultToPeer fault => { s with link.line := fault.apply readFrame s.link.line }

/-- The transport was opened and the peer has not started. -/
def h5Opened (uartSleepMode : Bool) (linkInactivityTimeoutMs : Nat) (atNull : Nat → Byte) :
    H5System where
  link := (H5Link.booted uartSleepMode linkInactivityTimeoutMs atNull).linkInit
  peer := ⟨0, [], 0⟩
  toLink := []

/-- The packet that was sent is the oldest one not released, under its own number. -/
def Transmission.InHand (queued : List H5Packet) (t : Transmission) : Prop :=
  ∃ packet, t.packet = some packet ∧ queued[t.released]? = some packet ∧
    t.seqNr = numberOf t.released

/-- The link delivers exactly once: it hands over the first reliable packets of the peer, each
once and in order; the peer takes the packets that were queued, each once and in order; a packet
is released only when the peer took and acknowledged it; and what is transmitted is a packet,
the oldest that was not released. -/
structure ExactlyOnce (packets : Nat → H5Packet) (s : H5System) : Prop where
  handed : ∃ n, (s.link.handed.filter (·.1)).map (·.2) =
    ((List.range n).map packets).filter fun packet => decide (H5Link.IsData packet)
  received : s.peer.received <+: s.link.queued
  released : s.link.released ≤ s.peer.acknowledged
  acknowledged : s.peer.acknowledged ≤ s.peer.received.length
  transmitted : ∀ t ∈ s.link.transmitted, t.InHand s.link.queued

/-- The step does not leave a transmission pending without a packet: if a frame acknowledges the
outgoing packet while its transmission is still pending, the upper layer sends the next packet
at once. -/
def StaysInHand (s : H5System) (upper : Upper) : Prop :=
  ∀ f ∈ s.toLink.head?.bind readFrame, s.link.linkState = .active →
    ¬ (f.reliable = true ∧ f.seqNr ≠ s.link.linkAckNr) → s.link.AcksOutgoing f →
      s.link.actions.sendQueuedPacket = true → upper.onSent ≠ []

instance (s : H5System) (upper : Upper) : Decidable (StaysInHand s upper) :=
  inferInstanceAs (Decidable (∀ f ∈ s.toLink.head?.bind readFrame, _))

/-- The events that do not leave a transmission pending without a packet. -/
def KeepsInHand (s : H5System) : H5Event → Prop
  | .processFrame _ upper => StaysInHand s upper
  | .processFrameExt _ _ upper => StaysInHand s upper
  | _ => True

instance (s : H5System) : (event : H5Event) → Decidable (KeepsInHand s event)
  | .processFrame _ upper => inferInstanceAs (Decidable (StaysInHand s upper))
  | .processFrameExt _ _ upper => inferInstanceAs (Decidable (StaysInHand s upper))
  | .sendPacket _ | .blockSent _ _ | .linkTimeout | .inactivityTimeout | .peerSends _ _
  | .peerAcks _ | .peerOther _ | .peerReceives _ | .faultToLink _ | .faultToPeer _ =>
      inferInstanceAs (Decidable True)

/-! ## Numbered frames on a line

What is on a line of the H5 link between a sender and a receiver: frames sent one after the
other, of which some are lost or come again. `Flow` bounds the packets in them by what the
receiver took; as a window is smaller than 8, a number tells the packet.
-/

/-! ## Numbers -/

theorem numberOf_inj {i j : Nat} (same : numberOf i = numberOf j) (below : i < j + 8)
    (above : j < i + 8) : i = j := by
  have values := congrArg Fin.val same
  simp only [numberOf, Fin.ofNat] at values
  omega

theorem numberOf_succ (i : Nat) : H5Link.linkIncSeqNr (numberOf i) = numberOf (i + 1) := by
  apply Fin.ext
  simp only [numberOf, H5Link.linkIncSeqNr, Fin.ofNat, Fin.val_add, Fin.isValue]
  omega

theorem numberOf_sub {i j : Nat} (from_ : i ≤ j) (near : j < i + 8) :
    i + (numberOf j - numberOf i).val = j := by
  simp only [numberOf, Fin.ofNat, Fin.sub_def]
  omega

/-! ## Frames in their order -/

theorem getElem?_of_prefix {queued longer : List H5Packet} (grows : queued <+: longer) {i : Nat}
    {packet : H5Packet} (item : queued[i]? = some packet) : longer[i]? = some packet := by
  obtain ⟨tail, rfl⟩ := grows
  rw [List.getElem?_append_left (List.getElem?_eq_some_iff.mp item).1]
  exact item

/-- A frame that was sent when the first of these counts of packets were confirmed to the sender
and the second one of the packets of the receiver had been taken. -/
def Carries (item : Nat → Option H5Packet) (window : Nat) (t : Nat × Nat) (f : H5Frame) : Prop :=
  (f.reliable = true →
    ∃ i, t.1 ≤ i ∧ i < t.1 + window ∧ f.seqNr = numberOf i ∧ item i = some f.packet) ∧
  (f.reliable = true ∨ f.packet.type = LINK_ACKNOWLEDGEMENT_TYPE → f.ackNr = numberOf t.2)

theorem Carries.plain {item : Nat → Option H5Packet} {window : Nat} {t : Nat × Nat} {f : H5Frame}
    (unreliable : f.reliable = false) (other : f.packet.type ≠ LINK_ACKNOWLEDGEMENT_TYPE) :
    Carries item window t f :=
  ⟨fun reliable => absurd (unreliable.symm.trans reliable) (by decide),
    fun acks => (acks.elim (fun reliable => absurd (unreliable.symm.trans reliable) (by decide))
      fun same => absurd same other)⟩

theorem Carries.grow {queued longer : List H5Packet} (grows : queued <+: longer) {window : Nat}
    {t : Nat × Nat} {f : H5Frame} (carries : Carries (fun i => queued[i]?) window t f) :
    Carries (fun i => longer[i]?) window t f := by
  refine ⟨fun reliable => ?_, carries.2⟩
  obtain ⟨i, from_, inside, number, item⟩ := carries.1 reliable
  exact ⟨i, from_, inside, number, getElem?_of_prefix grows item⟩

/-- What is on a line: the receiver took all but the packets of the last window, and processed
no later acknowledgement. -/
def Flow (item : Nat → Option H5Packet) (window : Nat) (line : List (List Byte))
    (sender : Nat × Nat) (got heeded : Nat) : Prop :=
  ∃ low, Ascending (Carries item window) low sender (line.filterMap readFrame) ∧
    got ≤ low.1 + window ∧ heeded ≤ low.2

namespace Flow

variable {item : Nat → Option H5Packet} {window got heeded : Nat} {line : List (List Byte)}
  {sender : Nat × Nat}

theorem bounds (flow : Flow item window line sender got heeded) :
    got ≤ sender.1 + window ∧ heeded ≤ sender.2 := by
  obtain ⟨low, ascending, taken, processed⟩ := flow
  obtain ⟨first, second⟩ := Prod.mk_le_mk.mp ascending.le
  omega

theorem fault (flow : Flow item window line sender got heeded) (fault : LineFault (List Byte)) :
    Flow item window (fault.apply readFrame line) sender got heeded := by
  obtain ⟨low, ascending, bounds⟩ := flow
  exact ⟨low, ascending.fault fault, bounds⟩

theorem advance {later : Nat × Nat} (above : sender ≤ later)
    (flow : Flow item window line sender got heeded) :
    Flow item window line later got heeded := by
  obtain ⟨low, ascending, bounds⟩ := flow
  exact ⟨low, ascending.to_higher above, bounds⟩

theorem imp {wider : Nat → Option H5Packet}
    (weakens : ∀ t f, Carries item window t f → Carries wider window t f)
    (flow : Flow item window line sender got heeded) :
    Flow wider window line sender got heeded := by
  obtain ⟨low, ascending, bounds⟩ := flow
  exact ⟨low, ascending.imp weakens, bounds⟩

theorem send {frames : List H5Frame} (carried : ∀ f ∈ frames, Carries item window sender f)
    (flow : Flow item window line sender got heeded) :
    Flow item window (line ++ frames.map H5Frame.encode) sender got heeded := by
  induction frames generalizing line with
  | nil => simpa using flow
  | cons f rest past =>
    obtain ⟨low, ascending, bounds⟩ := flow
    have sent : Flow item window (line ++ [f.encode]) sender got heeded := by
      refine ⟨low, ?_, bounds⟩
      rw [List.filterMap_append, List.filterMap_cons_some (readFrame_encode f)]
      exact ascending.send (carried f (List.mem_cons_self ..))
    have rest' := past (fun f member => carried f (List.mem_cons_of_mem _ member)) sent
    rwa [List.append_assoc, List.singleton_append] at rest'

theorem take {bytes : List Byte} {rest : List (List Byte)} {f : H5Frame}
    (read : readFrame bytes = some f)
    (flow : Flow item window (bytes :: rest) sender got heeded) :
    ∃ t : Nat × Nat, Carries item window t f ∧ got ≤ t.1 + window ∧ heeded ≤ t.2 ∧
      t.1 ≤ sender.1 ∧ t.2 ≤ sender.2 ∧
      ∀ got' heeded', got' ≤ t.1 + window → heeded' ≤ t.2 →
        Flow item window rest sender got' heeded' := by
  obtain ⟨low, ascending, taken, processed⟩ := flow
  rw [List.filterMap_cons_some read] at ascending
  cases ascending with
  | @cons _ t _ _ _ below carried past =>
    obtain ⟨first, second⟩ := Prod.mk_le_mk.mp below
    obtain ⟨first', second'⟩ := Prod.mk_le_mk.mp past.le
    exact ⟨t, carried, by omega, by omega, first', second',
      fun got' heeded' taken' processed' => ⟨t, past, taken', processed'⟩⟩

theorem skip {bytes : List Byte} {rest : List (List Byte)} (read : readFrame bytes = none)
    (flow : Flow item window (bytes :: rest) sender got heeded) :
    Flow item window rest sender got heeded := by
  obtain ⟨low, ascending, bounds⟩ := flow
  rw [List.filterMap_cons_none read] at ascending
  exact ⟨low, ascending, bounds⟩

end Flow

end PosFirmware.Bluetooth
