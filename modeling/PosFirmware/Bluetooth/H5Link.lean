import PosFirmware.Bluetooth.H5Frame

/-!
# The H5 link

The state of `hci_transport_h5.c` and what is done with a frame, a timer, a block that was
sent and a packet of the upper layer. Frames are written into `line`; what happened to the
packets is kept beside the state. The upper layer may send packets in its packet handler.
-/

namespace PosFirmware.Bluetooth

/-- `hci_transport_link_state_t`. -/
inductive LinkState where
  | uninitialized
  | initialized
  | active
  deriving DecidableEq

/-- `hci_transport_link_actions`: one field for each bit. -/
structure LinkActions where
  sendSync : Bool := false
  sendSyncResponse : Bool := false
  sendConfig : Bool := false
  sendConfigResponseEmpty : Bool := false
  sendConfigResponse : Bool := false
  sendSleep : Bool := false
  sendWoken : Bool := false
  sendWakeup : Bool := false
  sendQueuedPacket : Bool := false
  sendAckPacket : Bool := false
  enterSleep : Bool := false
  deriving DecidableEq

/-- `LINK_CONFIG_FIELD`: a sliding window of 1, no flow control, data integrity check. -/
def LINK_CONFIG_FIELD : Byte := 0x11

/-- `link_control_sync`. -/
def linkControlSync : List Byte := [0x01, 0x7e]

/-- `link_control_sync_response`. -/
def linkControlSyncResponse : List Byte := [0x02, 0x7d]

theorem linkControlSyncResponse_fits : linkControlSyncResponse.length < 4096 := by decide

/-- `link_control_config`. -/
def linkControlConfig : List Byte := [0x03, 0xfc, LINK_CONFIG_FIELD]

/-- `link_control_config_prefix_len`. -/
def linkControlConfigPrefixLen : Nat := 2

/-- `link_control_config_response_empty`. -/
def linkControlConfigResponseEmpty : List Byte := [0x04, 0x7b]

/-- `link_control_config_response`. -/
def linkControlConfigResponse : List Byte := [0x04, 0x7b, LINK_CONFIG_FIELD]

theorem linkControlConfigResponse_fits : linkControlConfigResponse.length < 4096 := by decide

/-- `link_control_config_response_prefix_len`. -/
def linkControlConfigResponsePrefixLen : Nat := 2

/-- `link_control_wakeup`. -/
def linkControlWakeup : List Byte := [0x05, 0xfa]

/-- `link_control_woken`. -/
def linkControlWoken : List Byte := [0x06, 0xf9]

/-- `link_control_sleep`. -/
def linkControlSleep : List Byte := [0x07, 0x78]

/-- A transmission of the queued packet: what `hci_packet` pointed to, the number it was sent
under, and how many packets had been released before. -/
structure Transmission where
  packet : Option H5Packet
  seqNr : Fin 8
  released : Nat
  deriving DecidableEq

/-- The link. -/
structure H5Link where
  /-- `link_state`. -/
  linkState : LinkState
  /-- `slip_write_active`. -/
  slipWriteActive : Bool
  /-- `link_seq_nr`. -/
  linkSeqNr : Fin 8
  /-- `link_ack_nr`. -/
  linkAckNr : Fin 8
  /-- `link_timer` is in the run loop. -/
  linkTimer : Bool
  /-- `link_peer_asleep`. -/
  linkPeerAsleep : Bool
  /-- `link_peer_supports_data_integrity_check`. -/
  linkPeerSupportsDic : Bool
  /-- `inactivity_timer` is in the run loop. -/
  inactivityTimer : Bool
  /-- `link_inactivity_timeout_ms`. -/
  linkInactivityTimeoutMs : Nat
  /-- `hci_packet_type`. -/
  hciPacketType : Fin 16
  /-- `hci_packet_size`. -/
  hciPacketSize : Fin 4096
  /-- `hci_packet`, with what it points to. -/
  hciPacket : Option H5Packet
  /-- What is read where `hci_packet` is `NULL`. -/
  atNull : Nat → Byte
  /-- `hci_transport_link_actions`. -/
  actions : LinkActions
  /-- `btstack_uart_sleep_mode` is not `BTSTACK_UART_SLEEP_OFF`. -/
  uartSleepMode : Bool
  /-- `last_state` of `hci_transport_h5_emit_sleep_state`. -/
  lastState : Bool
  /-- The frames written that did not reach the peer yet. -/
  line : List (List Byte)
  /-- The packets the upper layer queued. -/
  queued : List H5Packet
  /-- How many of them were released. -/
  released : Nat
  /-- How many reliable packets of the peer were in sequence. -/
  accepted : Nat
  /-- The packets handed to the upper layer, reliable or not. -/
  handed : List (Bool × H5Packet)
  /-- The transmissions of the queued packet. -/
  transmitted : List Transmission

/-- The packets the upper layer sends when it is told that a packet was sent, that the link
sleeps or woke up, and of a packet that came in. -/
structure Upper where
  onSent : List H5Packet := []
  onSleep : List H5Packet := []
  onData : List H5Packet := []

namespace H5Link

/-- `hci_transport_slip_send_frame`. -/
def slipSendFrame (f : H5Frame) (d : H5Link) : H5Link :=
  { d with slipWriteActive := true, line := d.line ++ [f.encode] }

/-- `hci_transport_link_send_control`. -/
def sendControl (message : List Byte) (fits : message.length < 4096) (d : H5Link) : H5Link :=
  d.slipSendFrame ⟨0, 0, d.linkPeerSupportsDic, false, ⟨LINK_CONTROL_PACKET_TYPE, message, fits⟩⟩

/-- `hci_transport_inactivity_timer_set`. -/
def inactivityTimerSet (d : H5Link) : H5Link :=
  if d.linkInactivityTimeoutMs = 0 then d else { d with inactivityTimer := true }

/-- `hci_packet_size` bytes at `hci_packet`. -/
def outgoingPacket (d : H5Link) : H5Packet :=
  match d.hciPacket with
  | some packet => ⟨d.hciPacketType, packet.payload, packet.fits⟩
  | none => ⟨d.hciPacketType, (List.range d.hciPacketSize).map d.atNull, by simp⟩

/-- `hci_transport_link_send_queued_packet`. -/
def sendQueuedPacket (d : H5Link) : H5Link :=
  inactivityTimerSet (slipSendFrame
    ⟨d.linkSeqNr, d.linkAckNr, d.linkPeerSupportsDic, true, d.outgoingPacket⟩
    { d with transmitted := d.transmitted ++ [⟨d.hciPacket, d.linkSeqNr, d.released⟩] })

/-- `hci_transport_link_send_ack_packet`. -/
def sendAckPacket (d : H5Link) : H5Link :=
  d.slipSendFrame ⟨0, d.linkAckNr, false, false, ⟨LINK_ACKNOWLEDGEMENT_TYPE, [], nil_fits⟩⟩

/-- `hci_transport_link_run`. -/
def linkRun (d : H5Link) : H5Link :=
  if d.slipWriteActive then d
  else if d.actions.sendSync then
    sendControl linkControlSync (by decide) { d with actions.sendSync := false }
  else if d.actions.sendSyncResponse then
    sendControl linkControlSyncResponse linkControlSyncResponse_fits
      { d with actions.sendSyncResponse := false }
  else if d.actions.sendConfig then
    sendControl linkControlConfig (by decide) { d with actions.sendConfig := false }
  else if d.actions.sendConfigResponse then
    sendControl linkControlConfigResponse linkControlConfigResponse_fits
      { d with actions.sendConfigResponse := false }
  else if d.actions.sendConfigResponseEmpty then
    sendControl linkControlConfigResponseEmpty (by decide)
      { d with actions.sendConfigResponseEmpty := false }
  else if d.actions.sendWoken then
    sendControl linkControlWoken (by decide) { d with actions.sendWoken := false }
  else if d.actions.sendWakeup then
    sendControl linkControlWakeup (by decide) { d with actions.sendWakeup := false }
  else if d.actions.sendQueuedPacket then
    -- the packet carries the acknowledgement; whether there is a packet is not asked
    sendQueuedPacket
      { d with actions.sendQueuedPacket := false, actions.sendAckPacket := false }
  else if d.actions.sendAckPacket then
    sendAckPacket { d with actions.sendAckPacket := false }
  else if d.actions.sendSleep then
    sendControl linkControlSleep (by decide)
      { d with actions.sendSleep := false, actions.enterSleep := true, linkPeerAsleep := true }
  else d

/-- `hci_transport_link_set_timer`. -/
def linkSetTimer (d : H5Link) : H5Link := { d with linkTimer := true }

/-- `hci_transport_link_have_outgoing_packet`. -/
def haveOutgoingPacket (d : H5Link) : Bool := d.hciPacket.isSome

/-- `hci_transport_link_timeout_handler`, on a timer that was taken out of the run loop. -/
def linkTimeoutHandler (d : H5Link) : H5Link :=
  match d.linkState with
  | .uninitialized => linkRun (linkSetTimer { d with actions.sendSync := true })
  | .initialized => linkRun (linkSetTimer { d with actions.sendConfig := true })
  | .active =>
    if ¬ d.haveOutgoingPacket then d
    -- here the handler returns before the wakeup is sent
    else if d.linkPeerAsleep then linkSetTimer { d with actions.sendWakeup := true }
    else linkRun (linkSetTimer { d with actions.sendQueuedPacket := true })

/-- `hci_transport_inactivity_timeout_handler`. -/
def inactivityTimeoutHandler (d : H5Link) : H5Link :=
  if d.haveOutgoingPacket then d
  else if d.linkState ≠ .active then d
  else if d.actions ≠ {} then d
  else if d.linkPeerAsleep then d
  else linkRun { d with actions.sendSleep := true }

/-- `hci_transport_link_init`. -/
def linkInit (d : H5Link) : H5Link :=
  linkRun (linkSetTimer { d with
    linkState := .uninitialized
    linkPeerAsleep := false
    linkPeerSupportsDic := false
    actions.sendSync := true })

/-- `hci_transport_link_inc_seq_nr`. -/
def linkIncSeqNr (seqNr : Fin 8) : Fin 8 := seqNr + 1

/-- `hci_transport_link_clear_queue`, after an acknowledgement. -/
def linkClearQueue (d : H5Link) : H5Link :=
  { d with linkTimer := false, hciPacket := none, released := d.released + 1 }

/-- `hci_transport_h5_queue_packet`. -/
def queuePacket (packet : H5Packet) (d : H5Link) : H5Link :=
  { d with
    hciPacket := some packet
    hciPacketType := packet.type
    hciPacketSize := ⟨packet.payload.length, packet.fits⟩
    queued := d.queued ++ [packet] }

/-- `hci_transport_h5_can_send_packet_now`. -/
def canSendPacketNow (d : H5Link) : Bool := !d.haveOutgoingPacket && d.linkState = .active

/-- `hci_transport_h5_send_packet`: the return value, and the link after the call. -/
def sendPacket (packet : H5Packet) (d : H5Link) : Int × H5Link :=
  if ¬ d.canSendPacketNow then (-1, d)
  else
    let d := d.queuePacket packet
    if d.linkPeerAsleep then
      -- the upper layer is told that the link wakes up; what it sends then is refused
      (0, linkRun (linkSetTimer { d with lastState := false, actions.sendWakeup := true }))
    else (0, linkRun (linkSetTimer { d with actions.sendQueuedPacket := true }))

/-- The upper layer sends packets, one after the other. -/
def sendPackets (packets : List H5Packet) (d : H5Link) : H5Link :=
  packets.foldl (fun d packet => (d.sendPacket packet).2) d

/-- `hci_transport_h5_emit_sleep_state`. -/
def emitSleepState (sleepActive : Bool) (upper : Upper) (d : H5Link) : H5Link :=
  if sleepActive = d.lastState then d
  else sendPackets upper.onSleep { d with lastState := sleepActive }

/-- `hci_transport_h5_block_sent`; `hasData` is what `btstack_slip_encoder_has_data` returns. -/
def blockSent (hasData : Bool) (upper : Upper) (d : H5Link) : H5Link :=
  if hasData then { d with slipWriteActive := true }
  else
    let d := { d with slipWriteActive := false }
    if d.actions.enterSleep then
      linkRun (emitSleepState true upper { d with actions.enterSleep := false })
    else linkRun d

/-- A frame while the link is not initialized. -/
def uninitializedFrame (f : H5Frame) (slipPayload : List Byte) (d : H5Link) : H5Link :=
  if f.packet.type ≠ LINK_CONTROL_PACKET_TYPE then d
  else if slipPayload.take linkControlSync.length = linkControlSync then
    { d with actions.sendSyncResponse := true }
  else if slipPayload.take linkControlSyncResponse.length = linkControlSyncResponse then
    linkSetTimer { d with linkState := .initialized, actions.sendConfig := true }
  else d

/-- The answer to a configuration message. -/
def configResponse (f : H5Frame) (d : H5Link) : H5Link :=
  if f.packet.payload.length = linkControlConfigPrefixLen then
    { d with actions.sendConfigResponseEmpty := true }
  else { d with actions.sendConfigResponse := true }

/-- A frame while the link is initialized. -/
def initializedFrame (f : H5Frame) (slipPayload : List Byte) (upper : Upper) (d : H5Link) : H5Link :=
  if f.packet.type ≠ LINK_CONTROL_PACKET_TYPE then d
  else if slipPayload.take linkControlSync.length = linkControlSync then
    { d with actions.sendSyncResponse := true }
  else if slipPayload.take linkControlConfigPrefixLen =
      linkControlConfig.take linkControlConfigPrefixLen then
    configResponse f d
  else if slipPayload.take linkControlConfigResponsePrefixLen =
      linkControlConfigResponse.take linkControlConfigResponsePrefixLen then
    sendPackets upper.onSent { d with
      linkPeerSupportsDic := (slipPayload.getD 2 0).getLsbD 4
      linkState := .active
      linkTimer := false
      linkSeqNr := 0
      linkAckNr := 0 }
  else d

/-- A reliable packet in sequence is acknowledged right away. -/
def ackFrame (f : H5Frame) (d : H5Link) : H5Link :=
  if f.reliable then
    { d with
      linkAckNr := linkIncSeqNr d.linkAckNr
      actions.sendAckPacket := true
      accepted := d.accepted + 1 }
  else d

/-- A frame acknowledges the outgoing packet. -/
def AcksOutgoing (d : H5Link) (f : H5Frame) : Prop :=
  (f.reliable = true ∨ f.packet.type = LINK_ACKNOWLEDGEMENT_TYPE) ∧
    d.haveOutgoingPacket = true ∧ linkIncSeqNr d.linkSeqNr = f.ackNr

instance (d : H5Link) (f : H5Frame) : Decidable (d.AcksOutgoing f) :=
  inferInstanceAs (Decidable (_ ∧ _))

/-- The acknowledgement in a frame is processed. -/
def processAck (f : H5Frame) (upper : Upper) (d : H5Link) : H5Link :=
  if d.AcksOutgoing f then
    sendPackets upper.onSent (linkClearQueue { d with linkSeqNr := linkIncSeqNr d.linkSeqNr })
  else d

/-- A link control message while the link is active. -/
def controlMessage (f : H5Frame) (slipPayload : List Byte) (upper : Upper) (d : H5Link) : H5Link :=
  if slipPayload.take linkControlConfig.length = linkControlConfig then configResponse f d
  else if slipPayload.take linkControlSync.length = linkControlSync then d
  else if slipPayload.take linkControlSleep.length = linkControlSleep then
    let d := if d.uartSleepMode then emitSleepState true upper d else d
    { d with linkPeerAsleep := true }
  else if slipPayload.take linkControlWakeup.length = linkControlWakeup then
    { d with linkPeerAsleep := false, actions.sendWoken := true }
  else if slipPayload.take linkControlWoken.length = linkControlWoken then
    { d with linkPeerAsleep := false }
  else d

/-- The types of packets that are handed to the upper layer. -/
def IsData (packet : H5Packet) : Prop :=
  packet.type = HCI_EVENT_PACKET ∨ packet.type = HCI_ACL_DATA_PACKET ∨
    packet.type = HCI_SCO_DATA_PACKET

instance (packet : H5Packet) : Decidable (IsData packet) := inferInstanceAs (Decidable (_ ∨ _))

/-- What a frame brings is processed by its type. -/
def dispatch (f : H5Frame) (slipPayload : List Byte) (upper : Upper) (d : H5Link) : H5Link :=
  if f.packet.type = LINK_CONTROL_PACKET_TYPE then controlMessage f slipPayload upper d
  else if IsData f.packet then
    inactivityTimerSet (sendPackets upper.onData { d with
      linkPeerAsleep := false
      handed := d.handed ++ [(f.reliable, f.packet)] })
  else d

/-- A frame while the link is active. -/
def activeFrame (f : H5Frame) (slipPayload : List Byte) (upper : Upper) (d : H5Link) : H5Link :=
  if f.reliable ∧ f.seqNr ≠ d.linkAckNr then { d with actions.sendAckPacket := true }
  else dispatch f slipPayload upper (processAck f upper (ackFrame f d))

/-- The two frame handlers from the checks on: `behind` is what the buffer holds behind the
frame, which the comparisons with a message may read. -/
def handleFrame (bytes behind : List Byte) (upper : Upper) (d : H5Link) : H5Link :=
  match readFrame bytes with
  | none => d
  | some f =>
    let slipPayload := bytes.drop 4 ++ behind
    match d.linkState with
    | .uninitialized => linkRun (uninitializedFrame f slipPayload d)
    | .initialized => linkRun (initializedFrame f slipPayload upper d)
    | .active => linkRun (activeFrame f slipPayload upper d)

/-- `hci_transport_h5_process_frame`. -/
def processFrame (bytes behind : List Byte) (upper : Upper) (d : H5Link) : H5Link :=
  if bytes.length < 4 then d else handleFrame bytes behind upper d

/-- `hci_transport_h5_process_frame_ext`, with the oldest frame of the ring, if there is one; the
length that is looked at first is that of the latest frame. -/
def processFrameExt (frameSize : Nat) (oldest : Option (List Byte)) (behind : List Byte)
    (upper : Upper) (d : H5Link) : H5Link :=
  if frameSize < 4 then d
  else
    match oldest with
    | none => d
    | some bytes => handleFrame bytes behind upper d

end H5Link

/-- The transport before `hci_transport_h5_open`. -/
def H5Link.booted (uartSleepMode : Bool) (linkInactivityTimeoutMs : Nat) (atNull : Nat → Byte) :
    H5Link where
  linkState := .uninitialized
  slipWriteActive := false
  linkSeqNr := 0
  linkAckNr := 0
  linkTimer := false
  linkPeerAsleep := false
  linkPeerSupportsDic := false
  inactivityTimer := false
  linkInactivityTimeoutMs := linkInactivityTimeoutMs
  hciPacketType := 0
  hciPacketSize := 0
  hciPacket := none
  atNull := atNull
  actions := {}
  uartSleepMode := uartSleepMode
  lastState := false
  line := []
  queued := []
  released := 0
  accepted := 0
  handed := []
  transmitted := []

end PosFirmware.Bluetooth
