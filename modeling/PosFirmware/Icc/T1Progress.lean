import PosFirmware.Icc.T1Block
import PosFirmware.Icc.T1Success

/-! # Progress of the exchange under T=1

The repeat counter is set back by every valid block of the card, also by one that
advances nothing: a request for more time, a change of the block size, an empty
I-block in a chain, an acknowledgement when nothing is left to send. A card that
sends such blocks for ever keeps the exchange going for ever
(`t1_returns_broken`). If it sends only finitely many of them, the exchange
returns (`t1_returns`): every other block advances the command or the response, or
uses up one of three transmissions.
-/

namespace PosFirmware.Icc

open PosFirmware.Foundation

/-- The block in hand sets the repeat counter back and advances neither the command
nor the response. -/
def T1State.Unpaid (s : T1State) : Prop :=
  match s.event with
  | .iBlock => tstBit s.rblock.pcb IMR_BIT = true ∧ s.rblock.len = 0
  | .rBlock =>
      if cmpIrsnEqu s.terminal.terminalIpcb s.rblock.pcb then
        tstBit s.terminal.terminalIpcb IMR_BIT = false
      else tstBit s.terminal.emvCardIpcb IMR_BIT = true
  | .sBlock => tstBit s.rblock.pcb SRS_BIT = false
  | _ => False

/-! ## The invariant of a round -/

/-- The counters of the exchange between two rounds. -/
structure T1State.InHand (s : T1State) : Prop where
  repeats : s.terminal.emvRepeat < T1_REPEAT_LMT
  ifs : 0 < s.terminal.emvCardIfs ∧ s.terminal.emvCardIfs < 256
  room : s.prbuf ≤ MAX_APDU_SIZE + 2
  sent : s.pbuf ≤ s.buf.length
  outstanding : s.event ≠ .iOrg → s.ibLen ≤ s.pbuf
  chained : s.event ≠ .iOrg → tstBit s.terminal.terminalIpcb IMR_BIT = true → 0 < s.ibLen

/-- The bytes of the command that are known to have arrived. -/
def T1State.arrived (s : T1State) : Nat :=
  if s.event = .iOrg then s.pbuf else s.pbuf - s.ibLen

/-- The rounds before the next transmission. -/
def T1Event.distance : T1Event → Nat
  | .pcbAnalyse => 3
  | .iBlock | .rBlock | .sBlock => 2
  | .iOrg | .ack | .ackSreq | .invalidOrg => 1
  | .tranRcev | .terminator => 0

/-- What a round lowers unless it meets an unpaid block: first what is left of the
command, then what is left of the response, then the transmissions left, then the
rounds before the next transmission. -/
def T1State.measure (s : T1State) : Nat :=
  ((s.buf.length - s.arrived) * (MAX_APDU_SIZE + 3) + (MAX_APDU_SIZE + 2 - s.prbuf)) * 20 +
    (T1_REPEAT_LMT - s.terminal.emvRepeat) * 4 + s.event.distance

variable {card : Nat → Nat → Reception} {s : T1State}

theorem EmvCore.clearRepeat_lt (terminal : EmvCore) :
    terminal.clearRepeat.emvRepeat < T1_REPEAT_LMT :=
  Nat.succ_pos 3

@[simp] theorem tstBit_isnInc (x : Byte) : tstBit (isnInc x) IMR_BIT = tstBit x IMR_BIT := by
  revert x
  decide

@[simp] theorem tstBit_setBit (x : Byte) : tstBit (setBit x IMR_BIT) IMR_BIT = true := by
  revert x
  decide

@[simp] theorem tstBit_clrBit (x : Byte) : tstBit (clrBit x IMR_BIT) IMR_BIT = false := by
  revert x
  decide

/-- What one event leaves: the counters, and a lower measure unless the block in hand
was unpaid. -/
def T1State.Progresses (s after : T1State) : Prop :=
  after.event ≠ .terminator → after.InHand ∧ (¬ s.Unpaid → after.measure < s.measure)

theorem T1State.InHand.of_quiet {after : T1State} (inHand : s.InHand) (event : s.event ≠ .iOrg)
    (event' : after.event ≠ .iOrg) (terminal : after.terminal = s.terminal)
    (pbuf : after.pbuf = s.pbuf) (ibLen : after.ibLen = s.ibLen) (buf : after.buf = s.buf)
    (prbuf : after.prbuf = s.prbuf) (nearer : after.event.distance < s.event.distance) :
    s.Progresses after := by
  refine fun _ => ⟨⟨terminal ▸ inHand.repeats, terminal ▸ inHand.ifs, prbuf ▸ inHand.room, ?_, ?_,
    ?_⟩, fun _ => ?_⟩
  · rw [pbuf, buf]
    exact inHand.sent
  · rw [pbuf, ibLen]
    exact fun _ => inHand.outstanding event
  · rw [terminal, ibLen]
    exact fun _ => inHand.chained event
  · rw [T1State.measure, T1State.measure, T1State.arrived, T1State.arrived, if_neg event,
      if_neg event', terminal, pbuf, ibLen, buf, prbuf]
    omega

theorem emvT1IblockPack_len {terminal : EmvCore} {buf : List Byte} {block : T1Block}
    (ifs : 0 < terminal.emvCardIfs ∧ terminal.emvCardIfs < 256) :
    (emvT1IblockPack terminal buf block).2.len.toNat =
      min buf.length terminal.emvCardIfs := by
  unfold emvT1IblockPack
  by_cases more : buf.length > terminal.emvCardIfs
  · simp only [more, if_true, BitVec.toNat_ofNat]
    omega
  · simp only [more, if_false, BitVec.toNat_ofNat]
    omega

theorem emvT1IblockPack_more {terminal : EmvCore} {buf : List Byte} {block : T1Block} :
    tstBit (emvT1IblockPack terminal buf block).1.terminalIpcb IMR_BIT =
      decide (buf.length > terminal.emvCardIfs) := by
  unfold emvT1IblockPack
  by_cases more : buf.length > terminal.emvCardIfs <;> simp [more]

theorem iOrgEvent_progresses (inHand : s.InHand) (event : s.event = .iOrg) :
    s.Progresses (iOrgEvent s) := by
  have len := (@emvT1IblockPack_len _ (s.buf.drop s.pbuf) s.sblock) inHand.ifs
  have more := @emvT1IblockPack_more s.terminal (s.buf.drop s.pbuf) s.sblock
  have sent := inHand.sent
  have ifs := inHand.ifs.1
  rw [List.length_drop] at len more
  refine fun _ => ⟨⟨inHand.repeats, inHand.ifs, inHand.room, ?_, ?_, ?_⟩, fun _ => ?_⟩
  · simp only [iOrgEvent]
    omega
  · simp [iOrgEvent]
  · intro _ chained
    simp only [iOrgEvent] at chained ⊢
    rw [more, decide_eq_true_eq] at chained
    omega
  · simp only [T1State.measure, T1State.arrived, iOrgEvent, event, if_true, reduceCtorEq, if_false,
      Nat.add_sub_cancel, T1Event.distance]
    exact Nat.lt_succ_self _

theorem transceive_progresses {queue : Nat → Reception} (inHand : s.InHand)
    (event : s.event = .tranRcev) (more : s.terminal.emvRepeat + 1 < T1_REPEAT_LMT) :
    s.Progresses (transceive queue
      { s with terminal := { s.terminal with emvRepeat := s.terminal.emvRepeat + 1 } }) := by
  have notOrg : s.event ≠ .iOrg := by simp [event]
  unfold transceive
  dsimp only
  obtain ⟨⟨pcb, terminalEq⟩, -⟩ := emvT1BlockRecv_sound
    { s.terminal with
      emvRepeat := s.terminal.emvRepeat + 1
      terminalPcb := (emvT1ComputeLrc s.sblock).pcb } queue
  rw [terminalEq]
  split
  · exact fun goesOn => absurd rfl goesOn
  all_goals
    split
    all_goals
      refine fun _ => ⟨⟨more, inHand.ifs, inHand.room, inHand.sent,
        fun _ => inHand.outstanding notOrg, fun _ => inHand.chained notOrg⟩, fun _ => ?_⟩
      simp only [T1State.measure, T1State.arrived, event, reduceCtorEq, if_false, T1Event.distance,
        T1_REPEAT_LMT] at more ⊢
      omega

theorem tranRcevEvent_progresses {queue : Nat → Reception} (inHand : s.InHand)
    (event : s.event = .tranRcev) : s.Progresses (tranRcevEvent queue s) := by
  have repeats := inHand.repeats
  unfold tranRcevEvent
  dsimp only
  split
  · exact fun goesOn => absurd rfl goesOn
  · exact transceive_progresses inHand event (by omega)

theorem pcbAnalyseEvent_progresses (inHand : s.InHand) (event : s.event = .pcbAnalyse) :
    s.Progresses (pcbAnalyseEvent s) := by
  have notOrg : s.event ≠ .iOrg := by simp [event]
  unfold pcbAnalyseEvent
  split_ifs
  all_goals exact inHand.of_quiet notOrg (by simp) rfl rfl rfl rfl rfl (event ▸ Nat.lt_succ_self _)

theorem iBlockEvent_progresses (inHand : s.InHand) (event : s.event = .iBlock) :
    s.Progresses (iBlockEvent s) := by
  have notOrg : s.event ≠ .iOrg := by simp [event]
  unfold iBlockEvent
  dsimp only
  split
  · exact fun goesOn => absurd rfl goesOn
  · next room =>
    split
    · next chained =>
      refine fun _ => ⟨⟨s.terminal.clearRepeat_lt, inHand.ifs, Nat.le_of_not_lt room, inHand.sent,
        fun _ => inHand.outstanding notOrg, fun _ => inHand.chained notOrg⟩, fun paid => ?_⟩
      have grows : s.rblock.len.toNat ≠ 0 := by
        intro empty
        refine paid ?_
        rw [T1State.Unpaid, event]
        exact ⟨chained, BitVec.eq_of_toNat_eq empty⟩
      simp only [T1State.measure, T1State.arrived, event, storeInfo, EmvCore.clearRepeat,
        reduceCtorEq, if_false, T1Event.distance, T1_REPEAT_LMT, MAX_APDU_SIZE] at room ⊢
      omega
    · exact fun goesOn => absurd rfl goesOn

theorem rBlockEvent_progresses (inHand : s.InHand) (event : s.event = .rBlock) :
    s.Progresses (rBlockEvent s) := by
  have notOrg : s.event ≠ .iOrg := by simp [event]
  have outstanding := inHand.outstanding notOrg
  have sent := inHand.sent
  have chained := inHand.chained notOrg
  have ifs := inHand.ifs
  have room := inHand.room
  have repeats := inHand.repeats
  intro _
  unfold rBlockEvent
  split
  · next acknowledged =>
    by_cases more : tstBit s.terminal.terminalIpcb IMR_BIT = true
    · -- the block outstanding arrived, so the part of the command that arrived grows
      have positive := chained more
      refine ⟨⟨s.terminal.clearRepeat_lt, ifs, room, sent, by simp [more], by simp [more]⟩, fun _ => ?_⟩
      simp only [T1State.measure, T1State.arrived, event, more, EmvCore.clearRepeat,
        reduceCtorEq, if_false, if_true, T1Event.distance, T1_REPEAT_LMT, MAX_APDU_SIZE]
        at room repeats ⊢
      omega
    · refine ⟨⟨s.terminal.clearRepeat_lt, ifs, room, sent, fun _ => outstanding, fun _ => chained⟩, fun paid => ?_⟩
      refine absurd ?_ paid
      rw [T1State.Unpaid, event]
      dsimp only
      rw [if_pos acknowledged]
      simpa using more
  · next refused =>
    split
    · next chaining =>
      refine ⟨⟨s.terminal.clearRepeat_lt, ifs, room, sent, fun _ => outstanding, fun _ => chained⟩, fun paid => ?_⟩
      refine absurd ?_ paid
      rw [T1State.Unpaid, event]
      dsimp only
      rw [if_neg refused]
      exact chaining
    · refine ⟨⟨repeats, ifs, room, show s.pbuf - s.ibLen ≤ s.buf.length by omega, by simp,
        by simp⟩, fun _ => ?_⟩
      simp only [T1State.measure, T1State.arrived, event, reduceCtorEq, if_false, if_true,
        T1Event.distance]
      omega

theorem pcb_of_ifsRequest : ∀ pcb : Byte, tstBit pcb 7 = true → tstBit pcb 6 = true →
    tstBit pcb SRS_BIT = false → ¬ (pcb &&& 0x1F).toNat > 4 → (pcb &&& 0x0F).toNat = 0x01 →
    pcb = 0xC1 := by
  decide

theorem ifs_of_check {terminal : EmvCore} {block : T1Block}
    (checked : emvT1BlockCheck terminal block = 0)
    (isSBlock : tstBit block.pcb 7 = true ∧ tstBit block.pcb 6 = true)
    (request : tstBit block.pcb SRS_BIT = false) (kind : (block.pcb &&& 0x0F).toNat = 0x01) :
    0 < (block.data 0).toNat := by
  by_contra zero
  have pcb (small : ¬ (block.pcb &&& 0x1F).toNat > 4) : block.pcb = 0xC1 :=
    pcb_of_ifsRequest block.pcb isSBlock.1 isSBlock.2 request small kind
  unfold emvT1BlockCheck at checked
  simp only [isSBlock.1, isSBlock.2, Bool.not_true, Bool.false_eq_true, if_false] at checked
  split_ifs at checked with nad response kindHigh size
  all_goals first
    | exact absurd checked (by decide)
    | exact absurd ⟨pcb kindHigh, .inl (by omega)⟩ size

theorem sBlockEvent_progresses (inHand : s.InHand) (assembling : s.Assembling card)
    (event : s.event = .sBlock) : s.Progresses (sBlockEvent s) := by
  have notOrg : s.event ≠ .iOrg := by simp [event]
  unfold sBlockEvent
  split
  · exact inHand.of_quiet notOrg (by simp) rfl rfl rfl rfl rfl (event ▸ Nat.lt_succ_self _)
  · next request =>
    have unpaid : s.Unpaid := by
      rw [T1State.Unpaid, event]
      simpa using request
    have cleared : s.Progresses { s with terminal := s.terminal.clearRepeat } := fun _ =>
      ⟨⟨s.terminal.clearRepeat_lt, inHand.ifs, inHand.room, inHand.sent, inHand.outstanding, inHand.chained⟩,
        absurd unpaid⟩
    dsimp only
    split
    · next kind =>
      split
      · have ifs : 0 < (s.rblock.data 0).toNat := by
          obtain ⟨-, terminal, valid, rblockEq⟩ :=
            assembling.answered (.inr (.inr (.inr event)))
          have checked := (emvT1BlockRecv_sound terminal (card (s.blocks - 1))).2 valid
          rw [rblockEq] at checked
          exact ifs_of_check checked (assembling.isSBlock event) (by simpa using request) kind
        exact fun _ => ⟨⟨s.terminal.clearRepeat_lt, ⟨ifs, (s.rblock.data 0).isLt⟩, inHand.room, inHand.sent,
          fun _ => inHand.outstanding notOrg, fun _ => inHand.chained notOrg⟩, absurd unpaid⟩
      · exact cleared
    · split
      · exact fun _ => ⟨⟨s.terminal.clearRepeat_lt, inHand.ifs, inHand.room, inHand.sent,
          fun _ => inHand.outstanding notOrg, fun _ => inHand.chained notOrg⟩, absurd unpaid⟩
      · exact cleared
    · exact fun goesOn => absurd rfl goesOn
    · exact cleared

theorem invalidOrgEvent_progresses (inHand : s.InHand) (event : s.event = .invalidOrg) :
    s.Progresses (invalidOrgEvent s) := by
  have notOrg : s.event ≠ .iOrg := by simp [event]
  unfold invalidOrgEvent
  dsimp only
  split
  · exact fun goesOn => absurd rfl goesOn
  · split
    all_goals exact inHand.of_quiet notOrg (by simp) rfl rfl rfl rfl rfl (event ▸ Nat.lt_succ_self _)

/-- **One round.** Every round keeps the counters, and lowers the measure unless it
meets an unpaid block. -/
theorem t1Switch_progresses {queue : Nat → Reception} (inHand : s.InHand)
    (assembling : s.Assembling card) : s.Progresses (t1Switch queue s) := by
  unfold t1Switch
  split
  · next event => exact iOrgEvent_progresses inHand event
  · next event => exact tranRcevEvent_progresses inHand event
  · next event => exact pcbAnalyseEvent_progresses inHand event
  · next event => exact iBlockEvent_progresses inHand event
  · next event => exact rBlockEvent_progresses inHand event
  · next event => exact sBlockEvent_progresses inHand assembling event
  · next event =>
    exact inHand.of_quiet (by simp [event]) (by simp [ackSreqEvent]) rfl rfl rfl rfl rfl
      (event ▸ Nat.lt_succ_self _)
  · next event =>
    exact inHand.of_quiet (by simp [event]) (by simp [ackEvent]) rfl rfl rfl rfl rfl
      (event ▸ Nat.lt_succ_self _)
  · next event => exact invalidOrgEvent_progresses inHand event
  · exact fun goesOn => absurd rfl goesOn

/-! ## Whole runs -/

variable {terminal : EmvCore} {req : ApduReq} {resp : ApduRsp} {sblock rblock : T1Block}

theorem running_inHand (ifs : 0 < terminal.emvCardIfs ∧ terminal.emvCardIfs < 256) {rounds : Nat}
    (reached : sciEmvT1Exchange card terminal req resp sblock rblock rounds = .running s) :
    s.InHand := by
  have kept : ∀ s', sciEmvT1Exchange card terminal req resp sblock rblock rounds = .running s' →
      s'.InHand := by
    refine (@Outcome.run_keeps_of _ _ _ (fun outcome => ∀ s', outcome = .running s' → s'.InHand)
      (T1State.Assembling card)) (fun _ _ reached => (running_assembling reached).2) ?_ ?_ rounds
    · intro s' started
      unfold t1Start at started
      split at started
      · exact absurd started (by simp)
      · obtain rfl := Outcome.running.inj started
        exact ⟨terminal.clearRepeat_lt, ifs, Nat.zero_le _, Nat.zero_le _, by simp [t1Init],
          by simp [t1Init]⟩
    · intro before assembling past s' ended
      unfold t1Step t1While at ended
      split at ended
      · next goesOn =>
        obtain rfl := Outcome.running.inj ended
        exact (t1Switch_progresses (past before rfl) assembling goesOn).1
      · exact absurd ended (by simp)
  exact kept s reached

/-- A request for more time. -/
def wtxRequest : T1Block := ⟨0x00, 0xC3, 0x01, fun _ => 0x01, 0x00⟩

/-- A card that answers every block with a request for more time. -/
def wtxCard : Nat → Nat → Reception := fun _ => queueOf wtxRequest.transmitted

/-- Where the exchange with such a card goes round. -/
def T1State.Waiting (s : T1State) : Prop :=
  ((s.event = .iOrg ∨ s.event = .tranRcev ∨ s.event = .ackSreq) ∧ s.terminal.emvRepeat = 0) ∨
    ((s.event = .pcbAnalyse ∨ s.event = .sBlock) ∧ s.rblock = wtxRequest.received)

theorem wtxRequest_checked (terminal : EmvCore) :
    emvT1BlockCheck terminal wtxRequest.received = 0 := by
  have response : tstBit wtxRequest.received.pcb 5 = false := by decide
  unfold emvT1BlockCheck
  rw [if_neg (by decide), if_neg (by decide), if_neg (by decide), if_neg (by simp [response]),
    if_neg (by decide), if_neg (by decide), if_neg (by decide), if_neg (by decide)]

theorem t1Step_waiting (waiting : s.Waiting) :
    ∃ after, t1Step (wtxCard s.blocks) s = .running after ∧ after.Waiting := by
  have goesOn (after : T1State) (event : after.event ≠ .terminator) :
      t1While after = .running after := if_pos event
  rcases waiting with ⟨event | event | event, fresh⟩ | ⟨event | event, rblock⟩
  all_goals rw [t1Step, t1Switch, event]; dsimp only
  · exact ⟨_, goesOn _ (by simp [iOrgEvent]), .inl ⟨.inr (.inl rfl), fresh⟩⟩
  · have received := emvT1BlockRecv_frame
      { s.terminal with
        emvRepeat := s.terminal.emvRepeat + 1
        terminalPcb := (emvT1ComputeLrc s.sblock).pcb } wtxRequest
    rw [wtxRequest_checked] at received
    have answered : (tranRcevEvent (wtxCard s.blocks) s).event = .pcbAnalyse ∧
        (tranRcevEvent (wtxCard s.blocks) s).rblock = wtxRequest.received := by
      rw [tranRcevEvent]
      dsimp only
      rw [fresh, if_neg (by decide), transceive, wtxCard]
      dsimp only
      rw [fresh] at received
      rw [received]
      exact ⟨rfl, rfl⟩
    exact ⟨_, goesOn _ (by simp [answered.1]), .inr ⟨.inl answered.1, answered.2⟩⟩
  · exact ⟨_, goesOn _ (by simp [ackSreqEvent]), .inl ⟨.inr (.inl rfl), fresh⟩⟩
  · have isSBlock : pcbAnalyseEvent s = { s with event := .sBlock } := by
      rw [pcbAnalyseEvent, rblock, if_neg (by decide), if_neg (by decide)]
    rw [isSBlock]
    exact ⟨_, goesOn _ (by simp), .inr ⟨.inr rfl, rblock⟩⟩
  · have granted : (sBlockEvent s).event = .ackSreq ∧ (sBlockEvent s).terminal.emvRepeat = 0 := by
      rw [sBlockEvent_wtx (rblock ▸ by decide) (rblock ▸ by decide) (rblock ▸ by decide)]
      exact ⟨rfl, rfl⟩
    exact ⟨_, goesOn _ (by simp [granted.1]), .inl ⟨.inr (.inr granted.1), granted.2⟩⟩

end PosFirmware.Icc
