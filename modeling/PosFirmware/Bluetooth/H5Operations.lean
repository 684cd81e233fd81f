import PosFirmware.Bluetooth.H5System

/-!
# Operations of the H5 link

What every operation of the link keeps (`Sound`, `InHand`) and what it adds to the line and
to the packets handed over (`Brings`). `activeFrame_takes` says what a frame does that the
active link takes.
-/

namespace PosFirmware.Bluetooth

open PosFirmware.Foundation

/-- The fields of a link fit to each other. -/
structure SoundOf (linkState : LinkState) (linkSeqNr linkAckNr : Fin 8) (released accepted : Nat)
    (queued : List H5Packet) (hciPacket : Option H5Packet) (hciPacketType : Fin 16)
    (transmitted : List Transmission) : Prop where
  idle : linkState ≠ .active → queued = [] ∧ accepted = 0
  seqNr : linkSeqNr = numberOf released
  ackNr : linkAckNr = numberOf accepted
  packet : hciPacket = queued[released]?
  inside : released ≤ queued.length
  one : queued.length ≤ released + 1
  type : ∀ packet, hciPacket = some packet → hciPacketType = packet.type
  transmitted : ∀ t ∈ transmitted, t.InHand queued

/-- The link fits. -/
def Sound (d : H5Link) : Prop :=
  SoundOf d.linkState d.linkSeqNr d.linkAckNr d.released d.accepted d.queued d.hciPacket
    d.hciPacketType d.transmitted

/-- A pending transmission has its packet. -/
def InHand (d : H5Link) : Prop := d.actions.sendQueuedPacket = true → d.hciPacket.isSome

/-- Between two states, these packets were handed over, frames of the link's counts were written
and packets were queued. -/
structure Brings (items : List (Bool × H5Packet)) (d after : H5Link) : Prop where
  released : after.released = d.released
  accepted : after.accepted = d.accepted
  handed : after.handed = d.handed ++ items
  queued : d.queued <+: after.queued
  line : ∃ frames : List H5Frame, after.line = d.line ++ frames.map H5Frame.encode ∧
    ∀ f ∈ frames, Carries (fun i => after.queued[i]?) 1 (d.released, d.accepted) f

theorem Brings.trans {items items' : List (Bool × H5Packet)} {d after final : H5Link}
    (first : Brings items d after) (second : Brings items' after final) :
    Brings (items ++ items') d final := by
  obtain ⟨frames, line, carried⟩ := first.line
  obtain ⟨frames', line', carried'⟩ := second.line
  refine ⟨second.released.trans first.released, second.accepted.trans first.accepted, ?_,
    first.queued.trans second.queued, frames ++ frames', ?_, fun f member => ?_⟩
  · rw [second.handed, first.handed, List.append_assoc]
  · rw [line', line, List.map_append, List.append_assoc]
  · obtain here | later := List.mem_append.mp member
    · exact (carried f here).grow second.queued
    · rw [← first.released, ← first.accepted]
      exact carried' f later

/-- The operation keeps the link and brings nothing. -/
def Quiet (d after : H5Link) : Prop :=
  Sound d → InHand d → Sound after ∧ InHand after ∧ Brings [] d after

namespace Quiet

theorem refl (d : H5Link) : Quiet d d := fun sound inHand =>
  ⟨sound, inHand, rfl, rfl, (List.append_nil _).symm, List.prefix_rfl, [],
    (List.append_nil _).symm, by simp⟩

theorem trans {d after final : H5Link} (first : Quiet d after) (second : Quiet after final) :
    Quiet d final := by
  intro sound inHand
  obtain ⟨sound', inHand', brings⟩ := first sound inHand
  obtain ⟨sound'', inHand'', brings'⟩ := second sound' inHand'
  exact ⟨sound'', inHand'', brings.trans brings'⟩

theorem of_same {d after : H5Link} (sound : Sound d → Sound after)
    (pending : after.actions.sendQueuedPacket = true →
      d.actions.sendQueuedPacket = true ∨ d.hciPacket.isSome)
    (packet : after.hciPacket = d.hciPacket) (released : after.released = d.released)
    (accepted : after.accepted = d.accepted) (handed : after.handed = d.handed)
    (queued : after.queued = d.queued) (line : after.line = d.line) : Quiet d after := by
  intro sound' inHand
  refine ⟨sound sound', fun bit => ?_, released, accepted, by simpa using handed, by rw [queued], [],
    by simpa using line, by simp⟩
  rw [packet]
  exact (pending bit).elim inHand id

theorem ite {condition : Prop} [Decidable condition] {d after other : H5Link}
    (holds : condition → Quiet d after) (fails : ¬ condition → Quiet d other) :
    Quiet d (if condition then after else other) := by
  split
  · next here => exact holds here
  · next here => exact fails here

end Quiet

namespace H5Link

theorem slipSendFrame_quiet (d : H5Link) {f : H5Frame}
    (carries : Sound d → Carries (fun i => d.queued[i]?) 1 (d.released, d.accepted) f) :
    Quiet d (d.slipSendFrame f) := fun sound inHand =>
  ⟨sound, inHand, rfl, rfl, (List.append_nil _).symm, List.prefix_rfl, [f], rfl,
    fun _ member => (List.mem_singleton.mp member) ▸ carries sound⟩

theorem sendControl_quiet (d : H5Link) (message : List Byte) (fits : message.length < 4096) :
    Quiet d (d.sendControl message fits) :=
  d.slipSendFrame_quiet fun _ =>
    .plain rfl (show LINK_CONTROL_PACKET_TYPE ≠ LINK_ACKNOWLEDGEMENT_TYPE by decide)

theorem inactivityTimerSet_quiet (d : H5Link) : Quiet d d.inactivityTimerSet := by
  unfold inactivityTimerSet
  split
  · exact .refl d
  · exact .of_same id .inl rfl rfl rfl rfl rfl rfl

theorem sendAckPacket_quiet (d : H5Link) : Quiet d d.sendAckPacket :=
  d.slipSendFrame_quiet fun sound =>
    ⟨fun reliable => absurd reliable Bool.false_ne_true, fun _ => sound.ackNr⟩

theorem outgoingPacket_eq {d : H5Link} (sound : Sound d) {packet : H5Packet}
    (held : d.hciPacket = some packet) : d.outgoingPacket = packet := by
  simp only [outgoingPacket, held, sound.type packet held]

theorem sendQueuedPacket_quiet (d : H5Link) (held : Sound d → d.hciPacket.isSome) :
    Quiet d d.sendQueuedPacket := by
  intro sound inHand
  obtain ⟨packet, here⟩ := Option.isSome_iff_exists.mp (held sound)
  have oldest : d.queued[d.released]? = some packet := sound.packet.symm.trans here
  have noted : Quiet d { d with
      transmitted := d.transmitted ++ [⟨d.hciPacket, d.linkSeqNr, d.released⟩] } := by
    refine .of_same (fun _ => { sound with transmitted := fun t member => ?_ }) .inl rfl rfl rfl rfl
      rfl rfl
    obtain before | new := List.mem_append.mp member
    · exact sound.transmitted t before
    · rw [List.mem_singleton.mp new]
      exact ⟨packet, here, oldest, sound.seqNr⟩
  refine (noted.trans ((slipSendFrame_quiet _ fun _ => ⟨fun _ => ?_, fun _ => sound.ackNr⟩).trans
    (inactivityTimerSet_quiet _))) sound inHand
  refine ⟨d.released, le_rfl, Nat.lt_succ_self _, sound.seqNr, oldest.trans ?_⟩
  exact congrArg some (outgoingPacket_eq sound here).symm

theorem actions_quiet {d after : H5Link} {actions : LinkActions}
    (next : Quiet { d with actions := actions } after)
    (pending : actions.sendQueuedPacket = true → d.actions.sendQueuedPacket = true) :
    Quiet d after :=
  have set : Quiet d { d with actions := actions } :=
    .of_same id (fun bit => .inl (pending bit)) rfl rfl rfl rfl rfl rfl
  set.trans next

/-- **`hci_transport_link_run`** writes one frame at most, of the state it finds. -/
theorem linkRun_quiet (d : H5Link) : Quiet d d.linkRun := by
  have control (actions : LinkActions) (message : List Byte) (fits : message.length < 4096)
      (pending : actions.sendQueuedPacket = true → d.actions.sendQueuedPacket = true) :
      Quiet d (sendControl message fits { d with actions := actions }) :=
    actions_quiet (sendControl_quiet _ _ _) pending
  unfold linkRun
  refine .ite (fun _ => .refl d) fun _ => ?_
  refine .ite (fun _ => control _ _ _ id) fun _ => ?_
  refine .ite (fun _ => control _ _ _ id) fun _ => ?_
  refine .ite (fun _ => control _ _ _ id) fun _ => ?_
  refine .ite (fun _ => control _ _ _ id) fun _ => ?_
  refine .ite (fun _ => control _ _ _ id) fun _ => ?_
  refine .ite (fun _ => control _ _ _ id) fun _ => ?_
  refine .ite (fun _ => control _ _ _ id) fun _ => ?_
  refine .ite (fun pending => ?_) fun _ => ?_
  · intro sound inHand
    exact actions_quiet (sendQueuedPacket_quiet _ fun _ => inHand pending)
      (fun bit => absurd bit Bool.false_ne_true) sound inHand
  refine .ite (fun _ => actions_quiet (sendAckPacket_quiet _) id) fun _ => ?_
  refine .ite (fun _ => ?_) fun _ => .refl d
  have asleep : Quiet d { d with
      actions := { d.actions with sendSleep := false, enterSleep := true }
      linkPeerAsleep := true } := .of_same id .inl rfl rfl rfl rfl rfl rfl
  exact asleep.trans (sendControl_quiet _ _ _)

theorem linkSetTimer_quiet (d : H5Link) : Quiet d d.linkSetTimer :=
  .of_same id .inl rfl rfl rfl rfl rfl rfl

theorem linkTimeoutHandler_quiet (d : H5Link) : Quiet d d.linkTimeoutHandler := by
  unfold linkTimeoutHandler
  split
  · exact actions_quiet ((linkSetTimer_quiet _).trans (linkRun_quiet _)) id
  · exact actions_quiet ((linkSetTimer_quiet _).trans (linkRun_quiet _)) id
  · split
    · exact .refl d
    · next outgoing =>
      have held : d.hciPacket.isSome := not_not.mp outgoing
      split
      · exact actions_quiet (linkSetTimer_quiet _) id
      · have resend : Quiet d { d with actions.sendQueuedPacket := true } :=
          .of_same id (fun _ => .inr held) rfl rfl rfl rfl rfl rfl
        exact resend.trans ((linkSetTimer_quiet _).trans (linkRun_quiet _))

theorem inactivityTimeoutHandler_quiet (d : H5Link) : Quiet d d.inactivityTimeoutHandler := by
  unfold inactivityTimeoutHandler
  refine .ite (fun _ => .refl d) fun _ => .ite (fun _ => .refl d) fun _ => ?_
  refine .ite (fun _ => .refl d) fun _ => .ite (fun _ => .refl d) fun _ => ?_
  exact actions_quiet (linkRun_quiet _) id

/-- A packet that can be sent is queued, with its transmission or a wakeup pending; this holds
also where a transmission was left pending. -/
theorem sendPacket_settles {d : H5Link} (can : d.canSendPacketNow = true) (packet : H5Packet)
    (sound : Sound d) :
    Sound (d.sendPacket packet).2 ∧ InHand (d.sendPacket packet).2 ∧
      Brings [] d (d.sendPacket packet).2 := by
  have free : d.hciPacket = none ∧ d.linkState = .active := by
    simpa [canSendPacketNow, haveOutgoingPacket] using can
  have all : d.queued.length ≤ d.released :=
    List.getElem?_eq_none_iff.mp (sound.packet.symm.trans free.1)
  have place : d.released = d.queued.length := le_antisymm sound.inside all
  have queued : Sound (d.queuePacket packet) := {
    idle := fun idle => absurd free.2 idle
    seqNr := sound.seqNr
    ackNr := sound.ackNr
    packet := by simp [queuePacket, place]
    inside := by simp [queuePacket, place]
    one := by simp [queuePacket, place]
    type := fun packet' same => congrArg H5Packet.type (Option.some.inj same)
    transmitted := fun t member => by
      obtain ⟨packet', some', here, number⟩ := sound.transmitted t member
      exact ⟨packet', some', getElem?_of_prefix (List.prefix_append _ _) here, number⟩ }
  have brings : Brings [] d (d.queuePacket packet) :=
    ⟨rfl, rfl, (List.append_nil _).symm, List.prefix_append _ _, [], (List.append_nil _).symm,
      by simp⟩
  have goes {after : H5Link} (quiet : Quiet (d.queuePacket packet) after) :
      Sound after ∧ InHand after ∧ Brings [] d after := by
    obtain ⟨sound', inHand', brings'⟩ := quiet queued fun _ => rfl
    exact ⟨sound', inHand', brings.trans brings'⟩
  unfold sendPacket
  rw [if_neg (not_not_intro can)]
  simp only
  split
  · have wakes : Quiet (d.queuePacket packet) { d.queuePacket packet with
        lastState := false
        actions := { (d.queuePacket packet).actions with sendWakeup := true } } :=
      .of_same id .inl rfl rfl rfl rfl rfl rfl
    exact goes (wakes.trans ((linkSetTimer_quiet _).trans (linkRun_quiet _)))
  · have pending : Quiet (d.queuePacket packet) { d.queuePacket packet with
        actions := { (d.queuePacket packet).actions with sendQueuedPacket := true } } :=
      .of_same id (fun _ => .inr rfl) rfl rfl rfl rfl rfl rfl
    exact goes (pending.trans ((linkSetTimer_quiet _).trans (linkRun_quiet _)))

theorem sendPacket_quiet (packet : H5Packet) (d : H5Link) : Quiet d (d.sendPacket packet).2 := by
  by_cases can : d.canSendPacketNow = true
  · exact fun sound _ => sendPacket_settles can packet sound
  · rw [sendPacket, if_pos can]
    exact .refl d

theorem sendPackets_quiet (packets : List H5Packet) (d : H5Link) :
    Quiet d (d.sendPackets packets) := by
  induction packets generalizing d with
  | nil => exact .refl d
  | cons packet rest past => exact (sendPacket_quiet packet d).trans (past _)

theorem emitSleepState_quiet (sleepActive : Bool) (upper : Upper) (d : H5Link) :
    Quiet d (d.emitSleepState sleepActive upper) := by
  unfold emitSleepState
  split
  · exact .refl d
  · have noted : Quiet d { d with lastState := sleepActive } :=
      .of_same id .inl rfl rfl rfl rfl rfl rfl
    exact noted.trans (sendPackets_quiet _ _)

theorem blockSent_quiet (hasData : Bool) (upper : Upper) (d : H5Link) :
    Quiet d (d.blockSent hasData upper) := by
  have noted (active : Bool) : Quiet d { d with slipWriteActive := active } :=
    .of_same id .inl rfl rfl rfl rfl rfl rfl
  unfold blockSent
  split
  · exact noted true
  · refine (noted false).trans ?_
    simp only
    split
    · exact actions_quiet ((emitSleepState_quiet _ _ _).trans (linkRun_quiet _)) id
    · exact linkRun_quiet _

theorem uninitializedFrame_quiet (f : H5Frame) (slipPayload : List Byte) {d : H5Link}
    (idle : d.linkState ≠ .active) : Quiet d (uninitializedFrame f slipPayload d) := by
  unfold uninitializedFrame
  refine .ite (fun _ => .refl d) fun _ => .ite (fun _ => actions_quiet (.refl _) id) fun _ => ?_
  refine .ite (fun _ => ?_) fun _ => .refl d
  have initialized : Quiet d { d with
      linkState := .initialized
      actions := { d.actions with sendConfig := true } } :=
    .of_same (fun sound => { sound with idle := fun _ => sound.idle idle }) .inl rfl rfl rfl rfl
      rfl rfl
  exact initialized.trans (linkSetTimer_quiet _)

theorem configResponse_quiet (f : H5Frame) (d : H5Link) : Quiet d (configResponse f d) :=
  .ite (fun _ => actions_quiet (.refl _) id) fun _ => actions_quiet (.refl _) id

/-- A frame before the link is active: both numbers start with 0, as nothing was queued or
accepted before. -/
theorem initializedFrame_quiet (f : H5Frame) (slipPayload : List Byte) (upper : Upper)
    {d : H5Link} (idle : d.linkState ≠ .active) :
    Quiet d (initializedFrame f slipPayload upper d) := by
  unfold initializedFrame
  refine .ite (fun _ => .refl d) fun _ => .ite (fun _ => actions_quiet (.refl _) id) fun _ => ?_
  refine .ite (fun _ => configResponse_quiet f d) fun _ => .ite (fun _ => ?_) fun _ => .refl d
  have activated : Quiet d { d with
      linkPeerSupportsDic := (slipPayload.getD 2 0).getLsbD 4
      linkState := .active
      linkTimer := false
      linkSeqNr := 0
      linkAckNr := 0 } := by
    refine .of_same (fun sound => ?_) .inl rfl rfl rfl rfl rfl rfl
    obtain ⟨queued, accepted⟩ := sound.idle idle
    have released : d.released = 0 := by
      have inside := sound.inside
      rw [queued] at inside
      exact Nat.le_zero.mp inside
    refine { sound with idle := fun other => absurd rfl other, seqNr := ?_, ackNr := ?_ }
    · simp only [released]
      rfl
    · simp only [accepted]
      rfl
  exact activated.trans (sendPackets_quiet _ _)

theorem controlMessage_quiet (f : H5Frame) (slipPayload : List Byte) (upper : Upper)
    (d : H5Link) : Quiet d (controlMessage f slipPayload upper d) := by
  have asleep (d : H5Link) (asleep : Bool) : Quiet d { d with linkPeerAsleep := asleep } :=
    .of_same id .inl rfl rfl rfl rfl rfl rfl
  unfold controlMessage
  refine .ite (fun _ => configResponse_quiet f d) fun _ => .ite (fun _ => .refl d) fun _ => ?_
  refine .ite (fun _ => ?_) fun _ => .ite (fun _ => ?_) fun _ => .ite (fun _ => asleep d false)
    fun _ => .refl d
  · exact Quiet.trans (.ite (fun _ => emitSleepState_quiet _ _ _) fun _ => .refl d)
      (asleep _ true)
  · exact (asleep d false).trans (actions_quiet (.refl _) id)

theorem ackFrame_acksOutgoing (f : H5Frame) (d : H5Link) :
    (ackFrame f d).AcksOutgoing f ↔ d.AcksOutgoing f := by
  unfold ackFrame
  split <;> rfl

/-- The numbers behind a frame in sequence, before the upper layer is told. -/
def numbered (f : H5Frame) (d : H5Link) : H5Link :=
  if d.AcksOutgoing f then
    linkClearQueue { ackFrame f d with linkSeqNr := linkIncSeqNr (ackFrame f d).linkSeqNr }
  else ackFrame f d

theorem ackFrame_sound {f : H5Frame} {d : H5Link} (active : d.linkState = .active)
    (sound : Sound d) : Sound (ackFrame f d) := by
  unfold ackFrame
  split
  · refine { sound with idle := fun idle => absurd active idle, ackNr := ?_ }
    simp only [sound.ackNr]
    exact numberOf_succ _
  · exact sound

theorem ackFrame_same (f : H5Frame) (d : H5Link) :
    (ackFrame f d).linkState = d.linkState ∧ (ackFrame f d).hciPacket = d.hciPacket ∧
      (ackFrame f d).released = d.released ∧ (ackFrame f d).queued = d.queued ∧
      (ackFrame f d).handed = d.handed ∧ (ackFrame f d).line = d.line ∧
      (ackFrame f d).actions.sendQueuedPacket = d.actions.sendQueuedPacket ∧
      (ackFrame f d).accepted = d.accepted + if f.reliable then 1 else 0 := by
  unfold ackFrame
  split
  · simp
  · simp

theorem numbered_sound {f : H5Frame} {d : H5Link} (active : d.linkState = .active)
    (sound : Sound d) : Sound (numbered f d) := by
  have acked : Sound (ackFrame f d) := ackFrame_sound active sound
  unfold numbered
  split
  · next acks =>
    obtain ⟨state, packet, released, queued, -⟩ := ackFrame_same f d
    obtain ⟨held, here⟩ := Option.isSome_iff_exists.mp acks.2.1
    have inside : (ackFrame f d).released < (ackFrame f d).queued.length := by
      rw [released, queued]
      exact (List.getElem?_eq_some_iff.mp (sound.packet.symm.trans here)).1
    exact {
      idle := fun idle => absurd (state.trans active) idle
      seqNr := (congrArg linkIncSeqNr acked.seqNr).trans (numberOf_succ _)
      ackNr := acked.ackNr
      packet := (List.getElem?_eq_none acked.one).symm
      inside := inside
      one := acked.one.trans (Nat.le_succ _)
      type := fun packet none => nomatch none
      transmitted := acked.transmitted }
  · exact acked

theorem numbered_same (f : H5Frame) (d : H5Link) :
    (numbered f d).released = d.released + (if d.AcksOutgoing f then 1 else 0) ∧
      (numbered f d).accepted = d.accepted + (if f.reliable then 1 else 0) ∧
      (numbered f d).queued = d.queued ∧ (numbered f d).handed = d.handed ∧
      (numbered f d).line = d.line := by
  obtain ⟨-, -, released, queued, handed, line, -, accepted⟩ := ackFrame_same f d
  unfold numbered
  split
  · next acks => exact ⟨congrArg (· + 1) released, accepted, queued, handed, line⟩
  · exact ⟨released, accepted, queued, handed, line⟩

/-- The acknowledgement is processed: the upper layer sends from the numbered state, and no
transmission stays pending without a packet where it sends one. -/
theorem processAck_brings {f : H5Frame} {d : H5Link} {upper : Upper}
    (active : d.linkState = .active) (sound : Sound d) (inHand : InHand d)
    (keeps : d.AcksOutgoing f → d.actions.sendQueuedPacket = true → upper.onSent ≠ []) :
    Sound (processAck f upper (ackFrame f d)) ∧ InHand (processAck f upper (ackFrame f d)) ∧
      Brings [] (numbered f d) (processAck f upper (ackFrame f d)) := by
  have kept := numbered_sound active sound (f := f)
  obtain ⟨state, packet, -, -, -, -, pending, -⟩ := ackFrame_same f d
  unfold processAck
  by_cases acks : d.AcksOutgoing f
  · rw [if_pos ((ackFrame_acksOutgoing f d).mpr acks)]
    have here : numbered f d = linkClearQueue { ackFrame f d with
        linkSeqNr := linkIncSeqNr (ackFrame f d).linkSeqNr } := if_pos acks
    rw [← here]
    by_cases bit : d.actions.sendQueuedPacket = true
    · obtain ⟨first, rest, sends⟩ := List.exists_cons_of_ne_nil (keeps acks bit)
      have can : (numbered f d).canSendPacketNow = true := by
        rw [here]
        simp [canSendPacketNow, haveOutgoingPacket, linkClearQueue, state, active]
      obtain ⟨sound', inHand', brings⟩ := sendPacket_settles can first kept
      obtain ⟨sound'', inHand'', brings'⟩ := sendPackets_quiet rest _ sound' inHand'
      rw [sends]
      exact ⟨sound'', inHand'', brings.trans brings'⟩
    · refine sendPackets_quiet _ _ kept fun bit' => absurd ?_ bit
      rw [here] at bit'
      exact pending.symm.trans bit'
  · rw [if_neg (mt (ackFrame_acksOutgoing f d).mp acks)]
    have here : numbered f d = ackFrame f d := if_neg acks
    rw [← here]
    refine Quiet.refl _ kept fun bit => ?_
    rw [here] at bit ⊢
    rw [packet]
    exact inHand (pending.symm.trans bit)

theorem dispatch_brings (f : H5Frame) (slipPayload : List Byte) (upper : Upper) {d : H5Link}
    (sound : Sound d) (inHand : InHand d) :
    Sound (dispatch f slipPayload upper d) ∧ InHand (dispatch f slipPayload upper d) ∧
      Brings (if IsData f.packet then [(f.reliable, f.packet)] else []) d
        (dispatch f slipPayload upper d) := by
  unfold dispatch
  split
  · next control =>
    have other : ¬ IsData f.packet := by
      simp only [IsData, control]
      decide
    rw [if_neg other]
    exact controlMessage_quiet _ _ _ _ sound inHand
  · split
    · obtain ⟨sound', inHand', brings⟩ := ((sendPackets_quiet upper.onData { d with
        linkPeerAsleep := false
        handed := d.handed ++ [(f.reliable, f.packet)] }).trans (inactivityTimerSet_quiet _))
        sound inHand
      have brought : Brings [(f.reliable, f.packet)] d { d with
          linkPeerAsleep := false
          handed := d.handed ++ [(f.reliable, f.packet)] } :=
        ⟨rfl, rfl, rfl, List.prefix_rfl, [], (List.append_nil _).symm, by simp⟩
      exact ⟨sound', inHand', brought.trans brings⟩
    · exact Quiet.refl d sound inHand

/-- What a frame in sequence does. -/
structure Takes (f : H5Frame) (d after : H5Link) : Prop where
  released : after.released = d.released + if d.AcksOutgoing f then 1 else 0
  accepted : after.accepted = d.accepted + if f.reliable then 1 else 0
  handed : after.handed = d.handed ++ if IsData f.packet then [(f.reliable, f.packet)] else []
  queued : d.queued <+: after.queued
  line : ∃ frames : List H5Frame, after.line = d.line ++ frames.map H5Frame.encode ∧
    ∀ f ∈ frames, Carries (fun i => after.queued[i]?) 1 (after.released, after.accepted) f

/-- **A frame of the active link** out of sequence brings nothing; in sequence it moves the
numbers on and is handed over. -/
theorem activeFrame_takes {f : H5Frame} (slipPayload : List Byte) {upper : Upper} {d : H5Link}
    (active : d.linkState = .active) (sound : Sound d) (inHand : InHand d)
    (keeps : ¬ (f.reliable = true ∧ f.seqNr ≠ d.linkAckNr) → d.AcksOutgoing f →
      d.actions.sendQueuedPacket = true → upper.onSent ≠ []) :
    Sound (linkRun (activeFrame f slipPayload upper d)) ∧
      InHand (linkRun (activeFrame f slipPayload upper d)) ∧
      if f.reliable = true ∧ f.seqNr ≠ d.linkAckNr then
        Brings [] d (linkRun (activeFrame f slipPayload upper d))
      else Takes f d (linkRun (activeFrame f slipPayload upper d)) := by
  unfold activeFrame
  by_cases outside : f.reliable = true ∧ f.seqNr ≠ d.linkAckNr
  · rw [if_pos outside, if_pos outside]
    exact actions_quiet (linkRun_quiet _) id sound inHand
  · rw [if_neg outside, if_neg outside]
    obtain ⟨sound₁, inHand₁, told⟩ := processAck_brings active sound inHand (keeps outside)
    obtain ⟨sound₂, inHand₂, handed⟩ := dispatch_brings f slipPayload upper sound₁ inHand₁
    obtain ⟨sound₃, inHand₃, run⟩ := linkRun_quiet _ sound₂ inHand₂
    have all := (told.trans handed).trans run
    obtain ⟨released, accepted, queued, before, line⟩ := numbered_same f d
    refine ⟨sound₃, inHand₃, all.released.trans released, all.accepted.trans accepted, ?_, ?_, ?_⟩
    · rw [all.handed, before, List.nil_append, List.append_nil]
    · rw [← queued]
      exact all.queued
    · rw [all.released, all.accepted, ← line]
      exact all.line

end H5Link

end PosFirmware.Bluetooth
