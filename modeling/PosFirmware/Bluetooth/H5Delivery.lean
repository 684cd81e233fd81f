import PosFirmware.Bluetooth.H5Operations

/-!
# Delivery over the H5 link

The link and its peer keep `Inv` over every event that leaves no transmission pending without
a packet. The main result is `h5_exactlyOnce`: in a run of such events the link and the peer
deliver exactly once. `nullPacket_transmitted` is a run in which an acknowledgement finds a
transmission pending, and what is at address zero is sent as the next packet.
-/

namespace PosFirmware.Bluetooth

open PosFirmware.Foundation

/-- What holds of the link, its peer and both lines. -/
structure Inv (packets : Nat → H5Packet) (window : Nat) (s : H5System) : Prop where
  sound : Sound s.link
  inHand : InHand s.link
  handed : (s.link.handed.filter (·.1)).map (·.2) =
    ((List.range s.link.accepted).map packets).filter fun packet => decide (H5Link.IsData packet)
  toLink : Flow (fun i => some (packets i)) window s.toLink
    (s.peer.confirmed, s.peer.acknowledged) s.link.accepted s.link.released
  toPeer : Flow (fun i => s.link.queued[i]?) 1 s.link.line (s.link.released, s.link.accepted)
    s.peer.received.length s.peer.confirmed
  received : s.peer.received <+: s.link.queued
  acknowledged : s.peer.acknowledged ≤ s.peer.received.length

namespace Inv

variable {packets : Nat → H5Packet} {window : Nat} {s : H5System}

theorem near (inv : Inv packets window s) :
    s.peer.confirmed ≤ s.link.accepted ∧ s.link.accepted ≤ s.peer.confirmed + window ∧
      s.link.released ≤ s.peer.acknowledged ∧ s.peer.received.length ≤ s.link.released + 1 :=
  ⟨inv.toPeer.bounds.2, inv.toLink.bounds.1, inv.toLink.bounds.2, inv.toPeer.bounds.1⟩

theorem exactlyOnce (inv : Inv packets window s) : ExactlyOnce packets s :=
  ⟨⟨s.link.accepted, inv.handed⟩, inv.received, inv.near.2.2.1, inv.acknowledged,
    inv.sound.transmitted⟩

theorem brings (inv : Inv packets window s) {after : H5Link}
    (kept : Sound after ∧ InHand after ∧ Brings [] s.link after) :
    Inv packets window { s with link := after } := by
  obtain ⟨sound, inHand, brings⟩ := kept
  obtain ⟨frames, line, carried⟩ := brings.line
  refine ⟨sound, inHand, ?_, ?_, ?_, inv.received.trans brings.queued, inv.acknowledged⟩
  · simp only [brings.handed, brings.accepted, List.append_nil]
    exact inv.handed
  · simp only [brings.accepted, brings.released]
    exact inv.toLink
  · simp only [brings.accepted, brings.released, line]
    exact (inv.toPeer.imp fun _ _ carries => carries.grow brings.queued).send carried

theorem quiet (inv : Inv packets window s) {after : H5Link} (quiet : Quiet s.link after) :
    Inv packets window { s with link := after } := inv.brings (quiet inv.sound inv.inHand)

theorem sends (inv : Inv packets window s) {f : H5Frame} {acknowledged : Nat}
    (forward : s.peer.acknowledged ≤ acknowledged) (taken : acknowledged ≤ s.peer.received.length)
    (carries : Carries (fun i => some (packets i)) window (s.peer.confirmed, acknowledged) f) :
    Inv packets window { s with
      toLink := s.toLink ++ [f.encode]
      peer := { s.peer with acknowledged := acknowledged } } := by
  refine { inv with toLink := ?_, acknowledged := taken }
  have later := inv.toLink.advance (Prod.mk_le_mk.mpr ⟨le_rfl, forward⟩)
  have one : ∀ f' ∈ [f], Carries (fun i => some (packets i)) window
      (s.peer.confirmed, acknowledged) f' := by simpa using carries
  exact later.send one

theorem skip (inv : Inv packets window s) {bytes : List Byte} {rest : List (List Byte)}
    (line : s.toLink = bytes :: rest) : Inv packets window { s with toLink := rest } := by
  refine { inv with toLink := ?_ }
  have flow := inv.toLink
  rw [line] at flow
  cases read : readFrame bytes with
  | none => exact flow.skip read
  | some f =>
    obtain ⟨t, -, taken, processed, -, -, past⟩ := flow.take read
    exact past _ _ taken processed

theorem handed_next (inv : Inv packets window s) {f : H5Frame}
    (next : f.reliable = true → f.packet = packets s.link.accepted) :
    ((s.link.handed ++ if H5Link.IsData f.packet then [(f.reliable, f.packet)] else []).filter
        (·.1)).map (·.2) =
      ((List.range (s.link.accepted + if f.reliable then 1 else 0)).map packets).filter
        fun packet => decide (H5Link.IsData packet) := by
  rw [List.filter_append, List.map_append, inv.handed]
  by_cases reliable : f.reliable = true
  · rw [if_pos reliable, List.range_succ, List.map_append, List.filter_append, List.map_singleton,
      ← next reliable]
    by_cases data : H5Link.IsData f.packet
    · simp [data, reliable]
    · simp [data]
  · rw [if_neg reliable]
    by_cases data : H5Link.IsData f.packet
    · simp [data, reliable]
    · simp [data]

/-- A frame in sequence is the next packet of the peer, and one that acknowledges the outgoing
packet was sent after the peer took it. -/
theorem takes (inv : Inv packets window s) (small : window < 8) {bytes : List Byte}
    {rest : List (List Byte)} {f : H5Frame} (line : s.toLink = bytes :: rest)
    (read : readFrame bytes = some f) (inside : ¬ (f.reliable = true ∧ f.seqNr ≠ s.link.linkAckNr))
    {after : H5Link} (sound : Sound after) (inHand : InHand after)
    (takes : H5Link.Takes f s.link after) :
    Inv packets window { s with link := after, toLink := rest } := by
  have flow := inv.toLink
  rw [line] at flow
  obtain ⟨t, carries, taken, processed, confirmed, acknowledged, past⟩ := flow.take read
  obtain ⟨before, near, -, last⟩ := inv.near
  have sequence : f.reliable = true →
      f.packet = packets s.link.accepted ∧ s.link.accepted < t.1 + window := by
    intro reliable
    obtain ⟨i, from_, below, number, item⟩ := carries.1 reliable
    have same : f.seqNr = s.link.linkAckNr := by
      by_contra other
      exact inside ⟨reliable, other⟩
    rw [number, inv.sound.ackNr] at same
    have place : i = s.link.accepted := numberOf_inj same (by simp only at confirmed; omega) (by omega)
    rw [← place]
    exact ⟨(Option.some.inj item).symm, below⟩
  have acks : s.link.AcksOutgoing f → s.link.released + 1 ≤ t.2 := by
    rintro ⟨kind, -, number⟩
    rw [carries.2 kind, inv.sound.seqNr, numberOf_succ] at number
    have taken' := inv.acknowledged
    simp only at acknowledged
    have place := numberOf_inj number (by omega) (by omega)
    omega
  obtain ⟨frames, written, carried⟩ := takes.line
  have above : (s.link.released, s.link.accepted) ≤ (after.released, after.accepted) := by
    rw [Prod.mk_le_mk, takes.released, takes.accepted]
    exact ⟨Nat.le_add_right _ _, Nat.le_add_right _ _⟩
  refine ⟨sound, inHand, ?_, past _ _ ?_ ?_, ?_, inv.received.trans takes.queued, inv.acknowledged⟩
  · simp only [takes.handed, takes.accepted]
    exact inv.handed_next fun reliable => (sequence reliable).1
  · rw [takes.accepted]
    split
    · next reliable =>
      have := (sequence reliable).2
      omega
    · omega
  · rw [takes.released]
    split
    · next here => exact acks here
    · omega
  · simp only [written]
    exact ((inv.toPeer.advance above).imp fun _ _ carries => carries.grow takes.queued).send carried

theorem handleFrame (inv : Inv packets window s) (small : window < 8) {bytes : List Byte}
    {rest : List (List Byte)} (line : s.toLink = bytes :: rest) (behind : List Byte)
    {upper : Upper} (keeps : StaysInHand s upper) :
    Inv packets window { s with
      link := s.link.handleFrame bytes behind upper, toLink := rest } := by
  have skipped := inv.skip line
  unfold H5Link.handleFrame
  cases read : readFrame bytes with
  | none => exact skipped
  | some f =>
    simp only
    cases state : s.link.linkState with
    | uninitialized =>
      exact skipped.quiet ((H5Link.uninitializedFrame_quiet f _ (by simp [state])).trans
        (H5Link.linkRun_quiet _))
    | initialized =>
      exact skipped.quiet ((H5Link.initializedFrame_quiet f _ upper (by simp [state])).trans
        (H5Link.linkRun_quiet _))
    | active =>
      have head : s.toLink.head?.bind readFrame = some f := by rw [line]; exact read
      obtain ⟨sound, inHand, brought⟩ := H5Link.activeFrame_takes (bytes.drop 4 ++ behind) state
        inv.sound inv.inHand (keeps f head state)
      split at brought
      · exact skipped.brings ⟨sound, inHand, brought⟩
      · next inside => exact inv.takes small line read inside sound inHand brought

theorem heed_confirmed {p : H5Peer} {f : H5Frame} {item : Nat → Option H5Packet} {t : Nat × Nat}
    (carries : Carries item 1 t f) (processed : p.confirmed ≤ t.2) (near : t.2 < p.confirmed + 8)
    (heeds : Bool) :
    p.confirmed ≤ (if heeds then p.heed f else p).confirmed ∧
      (if heeds then p.heed f else p).confirmed ≤ t.2 ∧
      (if heeds then p.heed f else p).received = p.received ∧
      (if heeds then p.heed f else p).acknowledged = p.acknowledged := by
  split
  · unfold H5Peer.heed
    split
    · next kind =>
      have moved : p.confirmed + (f.ackNr - numberOf p.confirmed).val = t.2 := by
        rw [carries.2 kind, numberOf_sub processed near]
      exact ⟨processed.trans moved.ge, moved.le, rfl, rfl⟩
    · exact ⟨le_rfl, processed, rfl, rfl⟩
  · exact ⟨le_rfl, processed, rfl, rfl⟩

theorem peerReceives (inv : Inv packets window s) (small : window < 8) (heeds : Bool)
    {bytes : List Byte} {rest : List (List Byte)} (line : s.link.line = bytes :: rest) :
    Inv packets window { s with
      link := { s.link with line := rest }
      peer := match readFrame bytes with
        | none => s.peer
        | some f => s.peer.receive heeds f } := by
  have flow := inv.toPeer
  rw [line] at flow
  cases read : readFrame bytes with
  | none => exact { inv with toPeer := flow.skip read }
  | some f =>
    obtain ⟨t, carries, taken, processed, released, accepted, past⟩ := flow.take read
    obtain ⟨before, near, acked, last⟩ := inv.near
    have took := inv.acknowledged
    simp only at released accepted
    obtain ⟨forward, low, received, acknowledged⟩ :=
      heed_confirmed carries processed (by omega) heeds
    simp only [H5Peer.receive]
    generalize (if heeds = true then s.peer.heed f else s.peer) = p at *
    have above : (s.peer.confirmed, s.peer.acknowledged) ≤ (p.confirmed, p.acknowledged) :=
      Prod.mk_le_mk.mpr ⟨forward, acknowledged.ge⟩
    unfold H5Peer.take
    split
    · next sequence =>
      obtain ⟨i, from_, below, number, item⟩ := carries.1 sequence.1
      have place : i = s.peer.received.length := by
        rw [number, received] at sequence
        exact numberOf_inj sequence.2 (by omega) (by omega)
      obtain ⟨tail, grows⟩ := inv.received
      have next : s.peer.received ++ [f.packet] <+: s.link.queued := by
        have item : s.link.queued[i]? = some f.packet := item
        rw [← grows, place, List.getElem?_append_right le_rfl, Nat.sub_self] at item
        obtain ⟨rest', rfl⟩ := List.head?_eq_some_iff.mp (by rwa [List.head?_eq_getElem?])
        exact ⟨rest', by rw [List.append_assoc]; exact grows⟩
      refine ⟨inv.sound, inv.inHand, inv.handed, inv.toLink.advance above, past _ _ ?_ low, ?_, ?_⟩
      · simp only [received, List.length_append, List.length_singleton]
        omega
      · simpa only [received] using next
      · simp only [received, acknowledged, List.length_append]
        omega
    · refine ⟨inv.sound, inv.inHand, inv.handed, inv.toLink.advance above, past _ _ ?_ low, ?_, ?_⟩
      · rwa [received]
      · rw [received]
        exact inv.received
      · rwa [received, acknowledged]

end Inv

/-- **One event keeps the invariant** where it leaves no transmission pending without a packet. -/
theorem h5Step_keeps (packets : Nat → H5Packet) {window : Nat} (small : window < 8)
    (s : H5System) (event : H5Event) (inv : Inv packets window s) (keeps : KeepsInHand s event) :
    Inv packets window (h5Step packets window s event) := by
  have timer (link inactivity : Bool) : Quiet s.link { s.link with
      linkTimer := link, inactivityTimer := inactivity } :=
    .of_same id .inl rfl rfl rfl rfl rfl rfl
  cases event with
  | sendPacket packet => exact inv.quiet (H5Link.sendPacket_quiet packet s.link)
  | blockSent hasData upper =>
    simp only [h5Step]
    split
    · exact inv.quiet (H5Link.blockSent_quiet hasData upper s.link)
    · exact inv
  | linkTimeout =>
    simp only [h5Step]
    split
    · exact inv.quiet ((timer false _).trans (H5Link.linkTimeoutHandler_quiet _))
    · exact inv
  | inactivityTimeout =>
    simp only [h5Step]
    split
    · exact inv.quiet ((timer _ false).trans (H5Link.inactivityTimeoutHandler_quiet _))
    · exact inv
  | processFrame behind upper =>
    simp only [h5Step]
    split
    · exact inv
    · next bytes rest line =>
      unfold H5Link.processFrame
      split
      · exact inv.skip line
      · exact inv.handleFrame small line behind keeps
  | processFrameExt frameSize behind upper =>
    simp only [h5Step, H5Link.processFrameExt]
    split
    · exact inv
    · cases line : s.toLink with
      | nil =>
        simp only [List.head?_nil, List.tail_nil]
        rw [← line]
        exact inv
      | cons bytes rest => exact inv.handleFrame small line behind keeps
  | peerSends ahead dic =>
    simp only [h5Step]
    split
    · next inside =>
      refine inv.sends inv.acknowledged le_rfl ⟨fun _ => ?_, fun _ => rfl⟩
      exact ⟨s.peer.confirmed + ahead, Nat.le_add_right _ _, Nat.add_lt_add_left inside _, rfl, rfl⟩
    · exact inv
  | peerAcks dic =>
    refine inv.sends inv.acknowledged le_rfl ⟨fun reliable => ?_, fun _ => rfl⟩
    exact absurd reliable Bool.false_ne_true
  | peerOther f =>
    simp only [h5Step]
    split
    · next other => exact inv.sends le_rfl inv.acknowledged (.plain other.1 other.2)
    · exact inv
  | peerReceives heeds =>
    simp only [h5Step]
    split
    · exact inv
    · next bytes rest line => exact inv.peerReceives small heeds line
  | faultToLink fault => exact { inv with toLink := inv.toLink.fault fault }
  | faultToPeer fault => exact { inv with toPeer := inv.toPeer.fault fault }

theorem h5Opened_inv (packets : Nat → H5Packet) (window : Nat) (uartSleepMode : Bool)
    (linkInactivityTimeoutMs : Nat) (atNull : Nat → Byte) :
    Inv packets window (h5Opened uartSleepMode linkInactivityTimeoutMs atNull) := by
  have booted : Inv packets window ⟨H5Link.booted uartSleepMode linkInactivityTimeoutMs atNull,
      ⟨0, [], 0⟩, []⟩ := {
    sound := {
      idle := fun _ => ⟨rfl, rfl⟩
      seqNr := rfl
      ackNr := rfl
      packet := rfl
      inside := le_rfl
      one := Nat.zero_le _
      type := fun packet none => nomatch none
      transmitted := fun t member => absurd member List.not_mem_nil }
    inHand := fun bit => absurd bit Bool.false_ne_true
    handed := rfl
    toLink := ⟨(0, 0), .nil le_rfl, Nat.zero_le _, le_rfl⟩
    toPeer := ⟨(0, 0), .nil le_rfl, Nat.zero_le _, le_rfl⟩
    received := List.prefix_rfl
    acknowledged := le_rfl }
  have link : Quiet (H5Link.booted uartSleepMode linkInactivityTimeoutMs atNull)
      (H5Link.booted uartSleepMode linkInactivityTimeoutMs atNull).linkInit :=
    H5Link.actions_quiet ((H5Link.linkSetTimer_quiet _).trans (H5Link.linkRun_quiet _)) id
  exact booted.quiet link

/-- **The H5 link delivers exactly once** in both directions: from `hci_transport_h5_open` on, for
every peer that follows the protocol with a window below 8, every fault of the lines and every
order of frames, timers, blocks that were sent and packets of the upper layer, in every state of
a run in which no acknowledgement leaves a transmission pending without a packet. -/
theorem h5_exactlyOnce (packets : Nat → H5Packet) {window : Nat} (small : window < 8)
    (uartSleepMode : Bool) (linkInactivityTimeoutMs : Nat) (atNull : Nat → Byte)
    {events : List H5Event}
    (meets : Meets (h5Step packets window) KeepsInHand
      (h5Opened uartSleepMode linkInactivityTimeoutMs atNull) events) :
    ExactlyOnce packets (runEvents (h5Step packets window)
      (h5Opened uartSleepMode linkInactivityTimeoutMs atNull) events) :=
  (runEvents_keeps (h5Step_keeps packets small)
    (h5Opened_inv packets window uartSleepMode linkInactivityTimeoutMs atNull) meets).exactlyOnce

/-- An event without parameters, for both directions. -/
def emptyEvent : H5Packet := ⟨HCI_EVENT_PACKET, [0, 0], by decide⟩

/-- A link control message of the peer, taken by the link. -/
def peerControl (message : List Byte) (fits : message.length < 4096) : List H5Event :=
  [.peerOther ⟨0, 0, false, false, ⟨LINK_CONTROL_PACKET_TYPE, message, fits⟩⟩, .processFrame [] {}]

/-- The link is activated, and the first packet is sent and taken by the peer. -/
def sentRun : List H5Event :=
  peerControl linkControlSyncResponse linkControlSyncResponse_fits ++
    peerControl linkControlConfigResponse linkControlConfigResponse_fits ++
    [.sendPacket emptyEvent, .blockSent false {}, .blockSent false {}, .peerReceives true,
      .peerReceives true, .peerReceives true]

/-- The peer answers with a packet of its own, which acknowledges the first one. -/
theorem h5_exactlyOnce_answered :
    ExactlyOnce (fun _ => emptyEvent) (runEvents (h5Step (fun _ => emptyEvent) 1)
      (h5Opened false 0 fun _ => 0) (sentRun ++ [.peerSends 0 true, .processFrameExt 8 [] {}])) ∧
    (runEvents (h5Step (fun _ => emptyEvent) 1) (h5Opened false 0 fun _ => 0)
      (sentRun ++ [.peerSends 0 true, .processFrameExt 8 [] {}])).link.released = 1 :=
  ⟨h5_exactlyOnce _ (by decide) false 0 _ (by decide +kernel), by decide +kernel⟩

/-- **A packet at address zero is transmitted**: while the packet is on its way for the first time
the timer sets its bit again; the acknowledgement clears the packet, and then the block is
reported as sent. -/
theorem nullPacket_transmitted :
    ¬ ExactlyOnce (fun _ => emptyEvent) (runEvents (h5Step (fun _ => emptyEvent) 1)
      (h5Opened false 0 fun _ => 0)
      (sentRun ++ [.linkTimeout, .peerAcks false, .processFrame [] {}, .blockSent false {}])) := by
  intro once
  have null : (runEvents (h5Step (fun _ => emptyEvent) 1) (h5Opened false 0 fun _ => 0)
      (sentRun ++ [.linkTimeout, .peerAcks false, .processFrame [] {},
        .blockSent false {}])).link.transmitted =
      [⟨some emptyEvent, 0, 0⟩, ⟨none, 1, 1⟩] := by
    decide +kernel
  have member : (⟨none, 1, 1⟩ : Transmission) ∈ [⟨some emptyEvent, 0, 0⟩, ⟨none, 1, 1⟩] := by decide
  obtain ⟨packet, held, -⟩ := once.transmitted _ (null ▸ member)
  cases held

end PosFirmware.Bluetooth
