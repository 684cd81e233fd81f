import PosFirmware.Icc.T1Link
import PosFirmware.Icc.T1Progress

/-! # Delivery of the exchange under T=1

With a card that follows ISO 7816-3, on a line that damages, garbles or loses
blocks, the card receives each byte of the command once and in order, and a response
that the exchange returns is the concatenation of the fields that the card sent
(`t1_delivers`). The terminal keeps where the two sides stand in every event of its
loop (`Linked.step`); what the card does in between is `Position.reacts`.
-/

namespace PosFirmware.Icc

open PosFirmware.Foundation

/-! ## The invariant -/

/-- An R-block of the terminal carries the number that it awaits. -/
def T1State.ReadyOut (s : T1State) : Prop :=
  s.sendBlockType = .rBlock → s.sblock.IsReady ∧ s.sblock.readyNumber = s.view.awaited

/-- A block of the card is in the hands of the terminal. -/
structure InHands (answer : List Byte → List (List Byte)) (s : T1State) (card : Card)
    (sent : CardBlock) : Prop where
  position : Position answer s.view card
  emitted : Emitted s.view card sent
  rblock : s.rblock = sent.encode.received
  readyOut : s.ReadyOut
  state : s.state = 0

/-- What holds before each event of the terminal. -/
def Phase (answer : List Byte → List (List Byte)) (s : T1State) (card : Card) : Prop :=
  match s.event with
  | .iOrg => ReadyToSend s.view card
  | .tranRcev => Position answer s.view card ∧ Outgoing s card
  | .pcbAnalyse => ∃ sent, InHands answer s card sent
  | .iBlock => ∃ more field, InHands answer s card (.info s.view.awaited more field)
  | .rBlock => ∃ error, InHands answer s card (.ready card.expected error)
  | .sBlock => ∃ request, InHands answer s card (.request request)
  | .ack => Position answer s.view card
  | .ackSreq => Position answer s.view card ∧ ∃ request, card.request = some request ∧
      s.rblock = (CardBlock.request request).encode.received
  | .invalidOrg => Position answer s.view card ∧ s.ReadyOut ∧ s.state ≠ ICC_ERR_T1_SRA
  | .terminator => False

/-- The terminal goes on. -/
structure Linked (answer : List Byte → List (List Byte)) (command : List Byte) (s : T1State)
    (card : Card) : Prop where
  ifs : 0 < s.terminal.emvCardIfs ∧ s.terminal.emvCardIfs < 256
  assembled : s.Assembled
  buf : s.buf = command
  isInfo : tstBit s.terminal.terminalIpcb 7 = false
  cardNumbers : Alternates card.numbers card.expected
  numbers : Alternates (s.accepted.map T1Block.number) s.view.awaited
  phase : Phase answer s card

/-- The terminal and the card agree on the numbers of their next I-blocks, and no chain
and no request of the card is open. -/
structure Synced (terminal : EmvCore) (card : Card) : Prop where
  isInfo : tstBit terminal.terminalIpcb 7 = false
  expected : card.expected = tstBit terminal.terminalIpcb ISN_BIT
  number : card.number = tstBit terminal.emvCardIpcb ISN_BIT
  unchained : tstBit terminal.emvCardIpcb IMR_BIT = false
  free : card.request = none

/-- The terminal left the exchange. -/
structure Ended (answer : List Byte → List (List Byte)) (command : List Byte) (code : Int)
    (s : T1State) (card : Card) : Prop where
  cardNumbers : Alternates card.numbers card.expected
  numbers : ∃ next, Alternates (s.accepted.map T1Block.number) next
  sent : card.received <+: command
  success : code = 0 → card.received = command ∧ s.accepted.map T1Block.info = answer command ∧
    s.Delivered ∧ Synced s.terminal card
  failure : code ≠ 0 → code = ICC_ERR_T1_BREP ∨ code = ICC_ERR_T1_BWT ∨ code = ICC_ERR_T1_CWT ∨
    card.received = command

/-- What holds in every state of the system. -/
def LinkKept (answer : List Byte → List (List Byte)) (command : List Byte) (card : Card) :
    Outcome T1State → Prop
  | .running s => Linked answer command s card
  | .returned code s => Ended answer command code s card

variable {answer : List Byte → List (List Byte)} {command : List Byte} {s : T1State}
  {card after : Card} {sent : CardBlock}

/-! ## Positions -/

theorem Position.received_initial (position : Position answer s.view card) :
    card.received <+: s.buf := by
  rcases position with standing | confirming
  · cases standing with
    | unaccepted _ received => exact received ▸ List.take_prefix _ _
    | accepted _ received => exact received ▸ List.take_prefix _ _
    | answering _ _ received => exact received ▸ List.prefix_rfl
  · exact confirming.received ▸ List.prefix_rfl

theorem Position.of_info {v : T1View} {more : Bool} {field : List Byte}
    (position : Position answer v card) (due : card.reply = .info v.awaited more field) :
    card.expected = v.sendNumber ∧ card.received = v.buf ∧ v.sendMore = false ∧
      more = !card.pending.isEmpty ∧ answer v.buf = v.fields ++ field :: card.pending ∧
      card.number = !v.awaited := by
  rcases position with standing | confirming
  · cases standing with
    | unaccepted _ _ _ _ _ reply =>
      obtain ⟨error, reply⟩ := reply
      exact absurd (due.symm.trans reply) (by simp)
    | accepted _ _ _ _ reply =>
      obtain ⟨error, reply⟩ := reply
      exact absurd (due.symm.trans reply) (by simp)
    | answering field' expected received last due' fields number =>
      have same := due.symm.trans due'
      simp only [CardBlock.info.injEq, true_and] at same
      obtain ⟨rfl, rfl⟩ := same
      exact ⟨expected, received, last, rfl, fields, number⟩
  · obtain ⟨field', due'⟩ := confirming.due
    have same := due.symm.trans due'
    simp at same

theorem Emitted.checked (emitted : Emitted s.view card sent) (position : Position answer s.view card)
    (sized : ∀ command, ∀ field ∈ answer command, field.length ≤ 254) {terminal : EmvCore}
    (sendMore : tstBit terminal.terminalIpcb IMR_BIT = s.view.sendMore)
    (awaited : tstBit terminal.emvCardIpcb ISN_BIT = s.view.awaited) :
    emvT1BlockCheck terminal sent.encode.received = 0 := by
  have nad : ¬ sent.encode.received.nad ≠ 0 := not_not.mpr rfl
  cases emitted with
  | ready error free =>
    obtain ⟨isBlock, isReady, noError, -⟩ := readyPcb_bits card.expected error
    have pcb : (CardBlock.ready card.expected error).encode.received.pcb =
        (CardBlock.ready card.expected error).pcb := rfl
    have len : (CardBlock.ready card.expected error).encode.received.len = 0 := rfl
    rw [emvT1BlockCheck, if_neg nad, pcb, isBlock, isReady, noError, if_neg (by simp),
      if_pos (by simp), if_neg (not_not.mpr len), if_neg (by simp)]
  | info more field free due =>
    obtain ⟨-, -, last, -, fields, -⟩ := position.of_info due
    obtain ⟨isInfo, number, -⟩ := infoPcb_bits s.view.awaited more
    have short := sized s.view.buf field (fields ▸ by simp)
    have pcb : (CardBlock.info s.view.awaited more field).encode.received.pcb =
        (CardBlock.info s.view.awaited more []).pcb := rfl
    have len : (CardBlock.info s.view.awaited more field).encode.received.len =
        BitVec.ofNat 8 field.length := rfl
    rw [emvT1BlockCheck, if_neg nad, pcb, isInfo, number, if_pos (by simp), len,
      if_neg (by simp; omega), sendMore, last, if_neg (by simp), awaited, if_neg (by simp)]
  | request request outstanding =>
    have value := request.received_data
    cases request with
    | ifs size inRange =>
      have range : ¬ (size.toNat < 0x10 ∨ size.toNat > 0xFE) := by omega
      have pcb : (CardBlock.request (.ifs size inRange)).encode.received.pcb = 0xC1 := rfl
      have len : (CardBlock.request (.ifs size inRange)).encode.received.len = 1 := rfl
      rw [emvT1BlockCheck, if_neg nad, pcb, value, if_neg (by decide), if_neg (by decide),
        if_neg (fun both => absurd both.2 (by decide)), if_neg (by decide),
        if_neg (fun both => range both.2), if_neg (by decide), if_neg (not_not.mpr len)]
    | wtx multiplier =>
      have pcb : (CardBlock.request (.wtx multiplier)).encode.received.pcb = 0xC3 := rfl
      have len : (CardBlock.request (.wtx multiplier)).encode.received.len = 1 := rfl
      rw [emvT1BlockCheck, if_neg nad, pcb, if_neg (by decide), if_neg (by decide),
        if_neg (fun both => absurd both.2 (by decide)), if_neg (by decide),
        if_neg (fun both => absurd both.1 (by decide)), if_neg (by decide),
        if_neg (not_not.mpr len)]

theorem Outgoing.readyOut (outgoing : Outgoing s card) : s.ReadyOut := by
  intro type
  cases outgoing with
  | info _ type' => exact absurd (type.symm.trans type') (by simp)
  | ready _ isReady number => exact ⟨isReady, number⟩
  | response _ type' => exact absurd (type.symm.trans type') (by simp)

/-! ## The events of the terminal -/

theorem t1While_linked {s' : T1State} (linked : Linked answer command s' card)
    (goesOn : s'.event ≠ .terminator) : LinkKept answer command card (t1While s') := by
  rw [t1While, if_pos goesOn]
  exact linked

theorem t1While_ended {s' : T1State} (ended : s'.event = .terminator)
    (kept : Ended answer command s'.state s' card) :
    LinkKept answer command card (t1While s') := by
  rw [t1While, if_neg (not_not.mpr ended)]
  exact kept

theorem ipcb_bits : ∀ x : Byte, tstBit (isnInc x) 7 = tstBit x 7 ∧
    (tstBit (isnInc x) ISN_BIT = !tstBit x ISN_BIT) ∧
    tstBit (isnInc x) IMR_BIT = tstBit x IMR_BIT := by
  decide

theorem packedPcb_bits : ∀ (x : Byte) (more : Bool),
    tstBit (if more then setBit x IMR_BIT else clrBit x IMR_BIT) 7 = tstBit x 7 ∧
    tstBit (if more then setBit x IMR_BIT else clrBit x IMR_BIT) ISN_BIT = tstBit x ISN_BIT ∧
    tstBit (if more then setBit x IMR_BIT else clrBit x IMR_BIT) IMR_BIT = more := by
  decide

theorem emvT1IblockPack_spec {terminal : EmvCore} (buf : List Byte) (block : T1Block)
    (ifs : 0 < terminal.emvCardIfs ∧ terminal.emvCardIfs < 256) :
    (emvT1IblockPack terminal buf block).1.terminalIpcb =
        isnInc (emvT1IblockPack terminal buf block).2.pcb ∧
      tstBit (emvT1IblockPack terminal buf block).2.pcb 7 = tstBit terminal.terminalIpcb 7 ∧
      tstBit (emvT1IblockPack terminal buf block).2.pcb ISN_BIT =
        tstBit terminal.terminalIpcb ISN_BIT ∧
      (emvT1IblockPack terminal buf block).2.info =
        buf.take (emvT1IblockPack terminal buf block).2.len.toNat := by
  have len := (@emvT1IblockPack_len _ buf block) ifs
  obtain ⟨isInfo, number, -⟩ := packedPcb_bits terminal.terminalIpcb
    (decide (buf.length > terminal.emvCardIfs))
  simp only [decide_eq_true_eq] at isInfo number
  refine ⟨rfl, isInfo, number, T1Block.info_of_stored ?_ rfl⟩
  rw [List.length_take]
  omega

theorem iOrgEvent_linked (linked : Linked answer command s card) (event : s.event = .iOrg) :
    LinkKept answer command card (t1While (iOrgEvent s)) := by
  have ready : ReadyToSend s.view card := by
    have phase := linked.phase
    rwa [Phase, event] at phase
  have len := (@emvT1IblockPack_len _ (s.buf.drop s.pbuf) s.sblock) linked.ifs
  have more := @emvT1IblockPack_more s.terminal (s.buf.drop s.pbuf) s.sblock
  obtain ⟨ipcb, isInfo, number, info⟩ :=
    emvT1IblockPack_spec (s.buf.drop s.pbuf) s.sblock linked.ifs
  have inside : s.pbuf ≤ s.buf.length := ready.inside
  rw [List.length_drop] at len more
  have bits := ipcb_bits (emvT1IblockPack s.terminal (s.buf.drop s.pbuf) s.sblock).2.pcb
  rw [← ipcb] at bits
  obtain ⟨isInfo', number', more'⟩ := bits
  have expected : card.expected = !(iOrgEvent s).view.sendNumber := by
    show card.expected = !tstBit (emvT1IblockPack s.terminal _ s.sblock).1.terminalIpcb ISN_BIT
    rw [number', number, Bool.not_not]
    exact ready.expected
  refine t1While_linked ⟨linked.ifs, ⟨linked.assembled.length, linked.assembled.data⟩, linked.buf,
    isInfo'.trans (isInfo.trans linked.isInfo), linked.cardNumbers, linked.numbers, ?_⟩
    (by simp [iOrgEvent])
  have pbuf : (iOrgEvent s).pbuf - (iOrgEvent s).ibLen = s.pbuf := Nat.add_sub_cancel _ _
  refine ⟨.inl (.unaccepted expected ?_ (Nat.le_add_left _ _) ?_ ?_ ready.reply ready.number
    ready.unchained ready.empty), .info ready.free rfl (isInfo.trans linked.isInfo) ?_ more'.symm ?_
    expected⟩
  · exact ready.received.trans (congrArg (s.buf.take ·) pbuf.symm)
  · show s.pbuf + (emvT1IblockPack s.terminal _ s.sblock).2.len.toNat ≤ s.buf.length
    omega
  · intro last
    have last : tstBit (emvT1IblockPack s.terminal (s.buf.drop s.pbuf) s.sblock).1.terminalIpcb
        IMR_BIT = false := last
    rw [more, decide_eq_false_iff_not] at last
    show s.pbuf + (emvT1IblockPack s.terminal _ s.sblock).2.len.toNat = s.buf.length
    omega
  · rw [← expected]
    exact number.trans ready.expected.symm
  · rw [pbuf]
    exact info

theorem Linked.ended {code : Int} (linked : Linked answer command s card)
    (numbers : Alternates after.numbers after.expected) (position : Position answer s.view after)
    (line : code = ICC_ERR_T1_BREP ∨ code = ICC_ERR_T1_BWT ∨ code = ICC_ERR_T1_CWT)
    {s' : T1State} (accepted : s'.accepted = s.accepted) : Ended answer command code s' after := by
  refine ⟨numbers, ⟨_, accepted ▸ linked.numbers⟩, linked.buf ▸ position.received_initial, ?_, ?_⟩
  · rintro rfl
    rcases line with line | line | line <;> exact absurd line (by decide)
  · intro _
    rcases line with line | line | line
    · exact .inl line
    · exact .inr (.inl line)
    · exact .inr (.inr (.inl line))

theorem Linked.transmitting (linked : Linked answer command s card) (event : s.event = .tranRcev) :
    Position answer s.view card ∧ Outgoing s card := by
  have phase := linked.phase
  rwa [Phase, event] at phase

theorem tranRcevEvent_exhausted {queue : Nat → Reception} (linked : Linked answer command s card)
    (event : s.event = .tranRcev) (limit : s.terminal.emvRepeat + 1 = T1_REPEAT_LMT) :
    LinkKept answer command card (t1While (tranRcevEvent queue s)) := by
  obtain ⟨position, -⟩ := linked.transmitting event
  rw [tranRcevEvent]
  dsimp only
  rw [if_pos limit.symm]
  exact t1While_ended rfl (linked.ended linked.cardNumbers position (.inl rfl) rfl)

theorem tranRcevEvent_garbled {queue : Nat → Reception} (linked : Linked answer command s card)
    (event : s.event = .tranRcev) (position : Position answer s.view after)
    (numbers : Alternates after.numbers after.expected)
    (error : ∀ terminal, TransmissionError (emvT1BlockRecv terminal queue).1)
    (more : s.terminal.emvRepeat + 1 ≠ T1_REPEAT_LMT) :
    LinkKept answer command after (t1While (tranRcevEvent queue s)) := by
  obtain ⟨-, outgoing⟩ := linked.transmitting event
  rw [tranRcevEvent]
  dsimp only
  rw [if_neg (Ne.symm more), transceive]
  dsimp only
  have code := error { s.terminal with
    emvRepeat := s.terminal.emvRepeat + 1
    terminalPcb := (emvT1ComputeLrc s.sblock).pcb }
  obtain ⟨⟨pcb, terminalEq⟩, -⟩ := emvT1BlockRecv_sound
    { s.terminal with
      emvRepeat := s.terminal.emvRepeat + 1
      terminalPcb := (emvT1ComputeLrc s.sblock).pcb } queue
  rw [terminalEq]
  split
  · next timeout =>
    exact t1While_ended rfl (linked.ended numbers position (.inr timeout) rfl)
  · next noTimeout =>
    rw [if_pos ?_]
    · refine t1While_linked ⟨linked.ifs, ⟨linked.assembled.length, linked.assembled.data⟩,
        linked.buf, linked.isInfo, numbers, linked.numbers, position, outgoing.readyOut, ?_⟩ (by simp)
      rcases code with code | code | code | code
      · exact fun abort => absurd (code.symm.trans abort) (by decide)
      · exact fun abort => absurd (code.symm.trans abort) (by decide)
      · exact absurd (.inl code) noTimeout
      · exact absurd (.inr code) noTimeout
    · rcases code with code | code | code | code <;> rw [code] <;> decide

theorem tranRcevEvent_delivered (linked : Linked answer command s card)
    (event : s.event = .tranRcev) (left : Sent answer s.view after sent)
    (sized : ∀ command, ∀ field ∈ answer command, field.length ≤ 254)
    (more : s.terminal.emvRepeat + 1 ≠ T1_REPEAT_LMT) :
    LinkKept answer command after
      (t1While (tranRcevEvent (queueOf sent.encode.transmitted) s)) := by
  obtain ⟨-, outgoing⟩ := linked.transmitting event
  rw [tranRcevEvent]
  dsimp only
  rw [if_neg (Ne.symm more), transceive_valid (emvT1BlockRecv_valid ?_)]
  · exact t1While_linked ⟨linked.ifs, ⟨linked.assembled.length, linked.assembled.data⟩, linked.buf,
      linked.isInfo, left.numbers, linked.numbers, sent, left.position, left.emitted, rfl,
      outgoing.readyOut, rfl⟩ (by simp)
  · exact fun _ => left.emitted.checked left.position sized rfl rfl

theorem pcbAnalyseEvent_linked (linked : Linked answer command s card)
    (event : s.event = .pcbAnalyse) :
    LinkKept answer command card (t1While (pcbAnalyseEvent s)) := by
  obtain ⟨sent, hands⟩ : ∃ sent, InHands answer s card sent := by
    have phase := linked.phase
    rwa [Phase, event] at phase
  obtain ⟨position, emitted, rblock, readyOut, state⟩ := hands
  have goOn {event' : T1Event} (goesOn : event' ≠ .terminator)
      (phase : Phase answer { s with event := event' } card) :
      LinkKept answer command card (t1While { s with event := event' }) :=
    t1While_linked ⟨linked.ifs, ⟨linked.assembled.length, linked.assembled.data⟩, linked.buf,
      linked.isInfo, linked.cardNumbers, linked.numbers, phase⟩ goesOn
  have pcb : s.rblock.pcb = sent.pcb := congrArg T1Block.pcb rblock
  rw [pcbAnalyseEvent, pcb]
  cases emitted with
  | ready error free =>
    obtain ⟨isBlock, isReady, -⟩ := readyPcb_bits card.expected error
    rw [isBlock, isReady, if_neg (by simp), if_pos (by simp)]
    exact goOn (by simp) ⟨error, position, .ready error free, rblock, readyOut, state⟩
  | info more field free due =>
    obtain ⟨isInfo, -⟩ := infoPcb_bits s.view.awaited more
    have isInfo : tstBit (CardBlock.info s.view.awaited more field).pcb 7 = false := isInfo
    rw [isInfo, if_pos (by simp)]
    exact goOn (by simp) ⟨more, field, position, .info more field free due, rblock, readyOut, state⟩
  | request request outstanding =>
    obtain ⟨isBlock, isSBlock, -⟩ := request.pcb_bits
    have pcb : (CardBlock.request request).pcb = request.pcb := rfl
    rw [pcb, isBlock, isSBlock, if_neg (by simp), if_neg (by simp)]
    exact goOn (by simp) ⟨request, position, .request request outstanding, rblock, readyOut, state⟩

/-- `I_BLOCK_EVENT` stores the field that is due, and ends the exchange with the last
one. -/
theorem iBlockEvent_linked (linked : Linked answer command s card) (event : s.event = .iBlock)
    (sized : ∀ command, ∀ field ∈ answer command, field.length ≤ 254) :
    LinkKept answer command card (t1While (iBlockEvent s)) := by
  obtain ⟨more, field, hands⟩ :
      ∃ more field, InHands answer s card (.info s.view.awaited more field) := by
    have phase := linked.phase
    rwa [Phase, event] at phase
  obtain ⟨position, emitted, rblock, -, state⟩ := hands
  obtain ⟨free, due⟩ : card.request = none ∧ card.reply = .info s.view.awaited more field := by
    cases emitted with
    | info _ _ free due => exact ⟨free, due⟩
  obtain ⟨expected, received, last, moreEq, fields, number⟩ := position.of_info due
  obtain ⟨-, numberBit, moreBit⟩ := infoPcb_bits s.view.awaited more
  have short := sized s.view.buf field (fields ▸ by simp)
  have pcb : s.rblock.pcb = (CardBlock.info s.view.awaited more []).pcb :=
    congrArg T1Block.pcb rblock
  have info : s.rblock.info = field := by
    rw [rblock, T1Block.received_info, CardBlock.encode_info (by
      show field.length < 256
      omega)]
    rfl
  have numberEq : s.rblock.number = s.view.awaited := by
    rw [T1Block.number, pcb, numberBit]
  have stored : Alternates ((s.accepted ++ [s.rblock]).map T1Block.number)
      (tstBit (isnInc s.rblock.pcb) ISN_BIT) := by
    rw [List.map_append, List.map_singleton, numberEq, (ipcb_bits _).2.1, pcb, numberBit]
    exact linked.numbers.push
  have bufEq : s.view.buf = command := linked.buf
  unfold iBlockEvent
  dsimp only
  split
  · exact t1While_ended rfl ⟨linked.cardNumbers, ⟨_, linked.numbers⟩,
      linked.buf ▸ position.received_initial, fun zero => absurd zero (show ICC_ERR_PARAM ≠ 0 by decide),
      fun _ => .inr (.inr (.inr (received.trans bufEq)))⟩
  · have assembled : T1State.Assembled
        (storeInfo { s with terminal := s.terminal.clearRepeat }) :=
      T1State.Assembled.storeInfo ⟨linked.assembled.length, linked.assembled.data⟩
    have heard : (s.accepted ++ [s.rblock]).map T1Block.info = s.view.fields ++ [field] := by
      rw [List.map_append, List.map_singleton, info]
      rfl
    split
    · next chained =>
      rw [pcb, moreBit] at chained
      have pending : card.pending ≠ [] := by
        intro none
        rw [chained, none] at moreEq
        exact absurd moreEq (by simp)
      refine t1While_linked ⟨linked.ifs, ⟨assembled.length, assembled.data⟩, linked.buf,
        linked.isInfo, linked.cardNumbers, stored, ?_⟩ (by simp)
      have awaited : tstBit (isnInc s.rblock.pcb) ISN_BIT = !s.view.awaited := by
        rw [(ipcb_bits _).2.1, pcb, numberBit]
      refine .inr ⟨expected, received, last, ⟨field, ?_⟩, pending, ?_, ?_, free⟩
      · show card.reply = .info (!tstBit (isnInc s.rblock.pcb) ISN_BIT) true field
        rw [awaited, Bool.not_not, due, chained]
      · refine fields.trans ?_
        show _ = (s.accepted ++ [s.rblock]).map T1Block.info ++ card.pending
        rw [heard, List.append_assoc]
        rfl
      · exact number.trans awaited.symm
    · next ended =>
      rw [pcb, moreBit] at ended
      have pending : card.pending = [] := by
        simpa [Bool.eq_false_iff.mpr ended] using moreEq
      obtain ⟨stored', storedEq⟩ :
        ∃ stored', storeInfo { s with terminal := s.terminal.clearRepeat } = stored' := ⟨_, rfl⟩
      have accepted : stored'.accepted = s.accepted ++ [s.rblock] := storedEq ▸ rfl
      have terminal : stored'.terminal =
          { s.terminal.clearRepeat with emvCardIpcb := isnInc s.rblock.pcb } := storedEq ▸ rfl
      have code : stored'.state = 0 := storedEq ▸ state
      rw [storedEq] at assembled ⊢
      refine t1While_ended rfl ⟨linked.cardNumbers, ⟨tstBit (isnInc s.rblock.pcb) ISN_BIT, ?_⟩,
        linked.buf ▸ position.received_initial, fun zero => ⟨received.trans bufEq, ?_, ?_, ?_⟩,
        fun _ => .inr (.inr (.inr (received.trans bufEq)))⟩
      · dsimp only
        rw [takeStatus_accepted, accepted]
        exact stored
      · dsimp only
        rw [takeStatus_accepted, accepted, heard, ← bufEq, fields, pending]
      · by_cases short : stored'.prbuf < 2
        · rw [takeStatus, if_pos short] at zero
          exact absurd zero (show ICC_ERR_T1_LEN ≠ 0 by decide)
        · have delivered := assembled.takeStatus short
          exact ⟨delivered.data, delivered.status⟩
      · have kept : (takeStatus stored').terminal = stored'.terminal := by
          unfold takeStatus
          split_ifs <;> rfl
        dsimp only
        rw [kept, terminal]
        refine ⟨linked.isInfo, expected, ?_, ?_, free⟩
        · rw [(ipcb_bits _).2.1, pcb, numberBit]
          exact number
        · rw [(ipcb_bits _).2.2, pcb, moreBit]
          exact Bool.eq_false_iff.mpr ended

private theorem isnRsn_eq : ∀ i : Byte, isnRsn i = bitOf (tstBit i ISN_BIT) RSN_BIT := by
  decide

private theorem rsn_eq : ∀ r : Byte, r &&& 1#8 <<< RSN_BIT = bitOf (tstBit r RSN_BIT) RSN_BIT := by
  decide

theorem cmpIrsnEqu_eq (i r : Byte) :
    cmpIrsnEqu i r = (tstBit i ISN_BIT == tstBit r RSN_BIT) := by
  rw [cmpIrsnEqu, isnRsn_eq, rsn_eq]
  cases tstBit i ISN_BIT <;> cases tstBit r RSN_BIT <;> decide

/-- `R_BLOCK_EVENT`: the card refuses the last I-block, asks for the next one, or asks
for the last block again. -/
theorem rBlockEvent_linked (linked : Linked answer command s card) (event : s.event = .rBlock) :
    LinkKept answer command card (t1While (rBlockEvent s)) := by
  obtain ⟨error, position, emitted, rblock, readyOut, state⟩ :
      ∃ error, InHands answer s card (.ready card.expected error) := by
    have phase := linked.phase
    rwa [Phase, event] at phase
  have free : card.request = none := by
    cases emitted with
    | ready _ free => exact free
  have pcb : s.rblock.pcb = (CardBlock.ready card.expected error).pcb :=
    congrArg T1Block.pcb rblock
  have equal : cmpIrsnEqu s.terminal.terminalIpcb s.rblock.pcb =
      (s.view.sendNumber == card.expected) := by
    rw [cmpIrsnEqu_eq, pcb, (readyPcb_bits card.expected error).2.2.2]
    rfl
  have repeatBlock (position : Position answer s.view card)
      (expected : card.expected = s.view.sendNumber) (last : s.view.sendMore = false) :
      LinkKept answer command card (t1While (rBlockEvent s)) := by
    have last : tstBit s.terminal.terminalIpcb IMR_BIT = false := last
    rw [rBlockEvent, equal, expected, beq_self_eq_true, if_pos rfl, last, if_neg (by simp)]
    exact t1While_linked ⟨linked.ifs, ⟨linked.assembled.length, linked.assembled.data⟩, linked.buf,
      linked.isInfo, linked.cardNumbers, linked.numbers, position, readyOut,
      fun abort => absurd (state.symm.trans abort) (by decide)⟩ (by simp)
  rcases position with standing | confirming
  · cases standing with
    | unaccepted expected received outstanding inside last reply number unchained empty =>
      have unchained' : tstBit s.terminal.emvCardIpcb IMR_BIT = false := unchained
      rw [rBlockEvent, equal, expected, if_neg (by simp), unchained', if_neg (by simp)]
      refine t1While_linked ⟨linked.ifs, ⟨linked.assembled.length, linked.assembled.data⟩,
        linked.buf, (ipcb_bits _).1.trans linked.isInfo, linked.cardNumbers, linked.numbers,
        ⟨?_, received, (Nat.sub_le _ _).trans inside, reply, number, unchained, empty, free⟩⟩
        (by simp)
      exact expected.trans (ipcb_bits _).2.1.symm
    | accepted expected received inside more reply number unchained empty =>
      have more : tstBit s.terminal.terminalIpcb IMR_BIT = true := more
      rw [rBlockEvent, equal, expected, beq_self_eq_true, if_pos rfl, more, if_pos rfl]
      exact t1While_linked ⟨linked.ifs, ⟨linked.assembled.length, linked.assembled.data⟩,
        linked.buf, linked.isInfo, linked.cardNumbers, linked.numbers,
        ⟨expected, received, inside, reply, number, unchained, empty, free⟩⟩ (by simp)
    | answering field expected received last due fields number =>
      exact repeatBlock (.inl (.answering field expected received last due fields number)) expected
        last
  · exact repeatBlock (.inr confirming) confirming.expected confirming.last

theorem sBlockEvent_linked (linked : Linked answer command s card) (event : s.event = .sBlock) :
    LinkKept answer command card (t1While (sBlockEvent s)) := by
  obtain ⟨request, position, emitted, rblock, -, -⟩ :
      ∃ request, InHands answer s card (.request request) := by
    have phase := linked.phase
    rwa [Phase, event] at phase
  have outstanding : card.request = some request := by
    cases emitted with
    | request _ outstanding => exact outstanding
  have pcb : s.rblock.pcb = request.pcb := congrArg T1Block.pcb rblock
  have len : s.rblock.len ≠ 0 := by
    rw [congrArg T1Block.len rblock]
    show BitVec.ofNat 8 1 ≠ 0
    decide
  have asked : tstBit s.rblock.pcb SRS_BIT = false := pcb ▸ request.pcb_bits.2.2
  have value : s.rblock.data 0 = request.value :=
    (congrFun (congrArg T1Block.data rblock) 0).trans request.received_data
  cases request with
  | ifs size inRange =>
    have kind : (s.rblock.pcb &&& 0x0F).toNat = 0x01 := by
      rw [pcb, SRequest.pcb]
      decide
    rw [sBlockEvent_ifs asked kind len, value]
    exact t1While_linked ⟨⟨show 0 < size.toNat by omega, size.isLt⟩,
      ⟨linked.assembled.length, linked.assembled.data⟩, linked.buf, linked.isInfo,
      linked.cardNumbers, linked.numbers, position, _, outstanding, rblock⟩ (by simp)
  | wtx multiplier =>
    have kind : (s.rblock.pcb &&& 0x0F).toNat = 0x03 := by
      rw [pcb, SRequest.pcb]
      decide
    rw [sBlockEvent_wtx asked kind len]
    exact t1While_linked ⟨linked.ifs, ⟨linked.assembled.length, linked.assembled.data⟩, linked.buf,
      linked.isInfo, linked.cardNumbers, linked.numbers, position, _, outstanding, rblock⟩
      (by simp)

theorem readyOutPcb_bits : ∀ (error x : Byte), error ∈ [0x80, 0x81, 0x82] →
    tstBit (error ||| isnRsn x) 7 = true ∧ tstBit (error ||| isnRsn x) 6 = false ∧
      tstBit (error ||| isnRsn x) RSN_BIT = tstBit x ISN_BIT := by
  intro error x known
  simp only [List.mem_cons, List.not_mem_nil, or_false] at known
  rcases known with rfl | rfl | rfl <;> revert x <;> decide

theorem ackEvent_linked (linked : Linked answer command s card) (event : s.event = .ack) :
    LinkKept answer command card (t1While (ackEvent s)) := by
  have position : Position answer s.view card := by
    have phase := linked.phase
    rwa [Phase, event] at phase
  obtain ⟨isBlock, isReady, number⟩ := readyOutPcb_bits 0x80 s.terminal.emvCardIpcb (by simp)
  exact t1While_linked ⟨linked.ifs, ⟨linked.assembled.length, linked.assembled.data⟩, linked.buf,
    linked.isInfo, linked.cardNumbers, linked.numbers, position,
    .ready rfl ⟨isBlock, isReady⟩ number⟩ (by simp [ackEvent])

theorem ackSreqEvent_linked (linked : Linked answer command s card) (event : s.event = .ackSreq) :
    LinkKept answer command card (t1While (ackSreqEvent s)) := by
  obtain ⟨position, request, outstanding, rblock⟩ : Position answer s.view card ∧
      ∃ request, card.request = some request ∧
        s.rblock = (CardBlock.request request).encode.received := by
    have phase := linked.phase
    rwa [Phase, event] at phase
  have pcb : s.rblock.pcb = request.pcb := congrArg T1Block.pcb rblock
  have value : s.rblock.data 0 = request.value :=
    (congrFun (congrArg T1Block.data rblock) 0).trans request.received_data
  have answers : request.AnsweredBy (ackSreqEvent s).sblock :=
    ⟨congrArg (setBit · SRS_BIT) pcb, congrArg (fun byte => [byte]) value⟩
  exact t1While_linked ⟨linked.ifs, ⟨linked.assembled.length, linked.assembled.data⟩, linked.buf,
    linked.isInfo, linked.cardNumbers, linked.numbers, position,
    .response request rfl outstanding answers⟩ (by simp [ackSreqEvent])

theorem invalidOrgEvent_linked (linked : Linked answer command s card)
    (event : s.event = .invalidOrg) :
    LinkKept answer command card (t1While (invalidOrgEvent s)) := by
  obtain ⟨position, readyOut, noAbort⟩ :
      Position answer s.view card ∧ s.ReadyOut ∧ s.state ≠ ICC_ERR_T1_SRA := by
    have phase := linked.phase
    rwa [Phase, event] at phase
  rw [invalidOrgEvent]
  dsimp only
  rw [if_neg noAbort]
  split
  · next type =>
    obtain ⟨isReady, number⟩ := readyOut type
    exact t1While_linked ⟨linked.ifs, ⟨linked.assembled.length, linked.assembled.data⟩, linked.buf,
      linked.isInfo, linked.cardNumbers, linked.numbers, position, .ready type isReady number⟩
      (by simp)
  · obtain ⟨isBlock, isReady, number⟩ := readyOutPcb_bits
      (if s.state = ICC_ERR_PARS ∨ s.state = ICC_ERR_T1_LRC then 0x81 else 0x82)
      s.terminal.emvCardIpcb (by split <;> simp)
    exact t1While_linked ⟨linked.ifs, ⟨linked.assembled.length, linked.assembled.data⟩, linked.buf,
      linked.isInfo, linked.cardNumbers, linked.numbers, position,
      .ready rfl ⟨isBlock, isReady⟩ number⟩ (by simp)

/-! ## The system -/

theorem Linked.received_initial (linked : Linked answer command s card) :
    card.received <+: command := by
  have phase := linked.phase
  rw [← linked.buf]
  unfold Phase at phase
  split at phase
  · exact phase.received ▸ List.take_prefix _ _
  · exact phase.1.received_initial
  · obtain ⟨_, hands⟩ := phase
    exact hands.position.received_initial
  · obtain ⟨_, _, hands⟩ := phase
    exact hands.position.received_initial
  · obtain ⟨_, hands⟩ := phase
    exact hands.position.received_initial
  · obtain ⟨_, hands⟩ := phase
    exact hands.position.received_initial
  · exact phase.received_initial
  · exact phase.1.received_initial
  · exact phase.1.received_initial
  · exact phase.elim

theorem emvT1BlockRecv_timeout (terminal : EmvCore) :
    TransmissionError (emvT1BlockRecv terminal fun _ => .timeout).1 :=
  .inr (.inr (.inl rfl))

theorem Linked.inside {queue : Nat → Reception} (linked : Linked answer command s card)
    (sized : ∀ command, ∀ field ∈ answer command, field.length ≤ 254)
    (noBlock : s.event ≠ .tranRcev ∨ s.terminal.emvRepeat + 1 = T1_REPEAT_LMT) :
    LinkKept answer command card (t1Step queue s) := by
  rw [t1Step, t1Switch]
  cases event : s.event with
  | iOrg => exact iOrgEvent_linked linked event
  | tranRcev => exact tranRcevEvent_exhausted linked event (noBlock.resolve_left (not_not.mpr event))
  | pcbAnalyse => exact pcbAnalyseEvent_linked linked event
  | iBlock => exact iBlockEvent_linked linked event sized
  | rBlock => exact rBlockEvent_linked linked event
  | sBlock => exact sBlockEvent_linked linked event
  | ack => exact ackEvent_linked linked event
  | ackSreq => exact ackSreqEvent_linked linked event
  | invalidOrg => exact invalidOrgEvent_linked linked event
  | terminator =>
    have phase := linked.phase
    rw [Phase, event] at phase
    exact phase.elim

theorem LinkKept.step {link link' : T1Link} (responds : Responds answer)
    (kept : LinkKept answer command link.card link.outcome)
    (step : T1Link.Step answer link link') :
    LinkKept answer command link'.card link'.outcome := by
  obtain ⟨answers, sized⟩ := responds
  have transmits {queue : Nat → Reception} {s : T1State} (event : s.event = .tranRcev) :
      t1Step queue s = t1While (tranRcevEvent queue s) := by
    rw [t1Step, t1Switch, event]
  cases step with
  | inside noBlock => exact Linked.inside kept sized noBlock
  | @lost s card event =>
    have linked : Linked answer command s card := kept
    by_cases limit : s.terminal.emvRepeat + 1 = T1_REPEAT_LMT
    · exact linked.inside sized (.inr limit)
    · obtain ⟨position, -⟩ := linked.transmitting event
      exact transmits event ▸ tranRcevEvent_garbled linked event position linked.cardNumbers
        emvT1BlockRecv_timeout limit
  | @delivered s card after arrived sent event more arrives reacts =>
    have linked : Linked answer command s card := kept
    obtain ⟨position, outgoing⟩ := linked.transmitting event
    exact transmits event ▸ tranRcevEvent_delivered linked event
      (position.reacts answers outgoing linked.cardNumbers arrives reacts) sized more
  | @garbled s card after arrived sent queue event more arrives reacts error =>
    have linked : Linked answer command s card := kept
    obtain ⟨position, outgoing⟩ := linked.transmitting event
    have left := position.reacts answers outgoing linked.cardNumbers arrives reacts
    exact transmits event ▸ tranRcevEvent_garbled linked event left.position left.numbers error more

theorem t1Start_linked {terminal : EmvCore} {req : ApduReq} {resp : ApduRsp}
    {sblock rblock : T1Block} (lc : req.lc ≤ 255)
    (ifs : 0 < terminal.emvCardIfs ∧ terminal.emvCardIfs < 256) (synced : Synced terminal card) :
    LinkKept answer (emvT1Extract req) card.awaiting
      (t1Start terminal req resp sblock rblock) := by
  rw [t1Start, if_neg (by omega)]
  refine ⟨ifs, ⟨rfl, fun i inside => absurd inside (Nat.not_lt_zero i)⟩, rfl, synced.isInfo,
    ⟨.nil, by simp [Card.awaiting]⟩, ⟨.nil, by simp [t1Init]⟩, ?_⟩
  exact ⟨synced.expected, rfl, Nat.zero_le _, ⟨0, rfl⟩, synced.number, synced.unchained, rfl,
    synced.free⟩

/-- **Delivery.** Whatever the line does to the blocks and whatever requests the card
makes, the card has received the first bytes of the command, each once and in order,
and the numbers of the I-blocks accepted alternate on both sides. When the exchange
returns zero, the card has received the whole command, the response is the
concatenation of the fields of the card, and both sides are ready for the next
command; when it returns another code, the line failed or the card has received the
whole command. -/
theorem t1_delivers (answer : List Byte → List (List Byte)) (terminal : EmvCore) (req : ApduReq)
    (resp : ApduRsp) (sblock rblock : T1Block) (card : Card) (link : T1Link)
    (responds : Responds answer) (lc : req.lc ≤ 255)
    (ifs : 0 < terminal.emvCardIfs ∧ terminal.emvCardIfs < 256) (synced : Synced terminal card)
    (reached : Relation.ReflTransGen (T1Link.Step answer)
      ⟨t1Start terminal req resp sblock rblock, card.awaiting⟩ link) :
    link.card.received <+: emvT1Extract req ∧ link.card.numbers.IsChain (· ≠ ·) ∧
      (link.outcome.state.accepted.map T1Block.number).IsChain (· ≠ ·) ∧
      ∀ code s, link.outcome = .returned code s →
        (code = 0 → link.card.received = emvT1Extract req ∧
          s.accepted.map T1Block.info = answer (emvT1Extract req) ∧ s.Delivered ∧
          Synced s.terminal link.card) ∧
        (code ≠ 0 → code = ICC_ERR_T1_BREP ∨ code = ICC_ERR_T1_BWT ∨ code = ICC_ERR_T1_CWT ∨
          link.card.received = emvT1Extract req) := by
  have kept : LinkKept answer (emvT1Extract req) link.card link.outcome := by
    induction reached with
    | refl => exact t1Start_linked lc ifs synced
    | tail _ step past => exact past.step responds step
  cases outcome : link.outcome with
  | running s =>
    rw [outcome] at kept
    have linked : Linked answer (emvT1Extract req) s link.card := kept
    exact ⟨linked.received_initial, linked.cardNumbers.1, linked.numbers.1, by simp⟩
  | returned code s =>
    rw [outcome] at kept
    obtain ⟨cardNumbers, ⟨next, numbers⟩, sent, success, failure⟩ := kept
    refine ⟨sent, cardNumbers.1, numbers.1, fun code' s' ended => ?_⟩
    obtain ⟨rfl, rfl⟩ := Outcome.returned.inj ended
    exact ⟨success, failure⟩

/-! ## A card that answers at once -/

/-- A card fresh from its answer to reset. -/
def freshCard : Card := ⟨false, [], [], false, .ready false 0, [], none⟩

/-- Every command is answered with the status bytes of success. -/
def answerOk : List Byte → List (List Byte) := fun _ => [[0x90, 0x00]]

/-- The variables after the first I-block was packed. -/
def headerPacked : T1State := iOrgEvent (t1Init freshCore headerReq .blank .zero .zero)

/-- The response with the status bytes of success. -/
def statusOk : CardBlock := .info false false [0x90, 0x00]

/-- The variables after the response arrived. -/
def statusArrived : T1State := tranRcevEvent (queueOf statusOk.encode.transmitted) headerPacked

/-- The card after it received the command. -/
def headerAccepted : Card := freshCard.awaiting.accept answerOk (emvT1ComputeLrc headerPacked.sblock)

theorem header_exchanged : Relation.ReflTransGen (T1Link.Step answerOk)
    ⟨t1Start freshCore headerReq .blank .zero .zero, freshCard.awaiting⟩
    ⟨.returned 0 (iBlockEvent (pcbAnalyseEvent statusArrived)), headerAccepted⟩ := by
  have packed : T1Link.Step answerOk
      ⟨t1Start freshCore headerReq .blank .zero .zero, freshCard.awaiting⟩
      ⟨.running headerPacked, freshCard.awaiting⟩ := .inside (.inl (by decide))
  have reacts : freshCard.awaiting.Reacts answerOk (some (emvT1ComputeLrc headerPacked.sblock))
      headerAccepted statusOk := .accepted rfl rfl rfl (.due headerAccepted)
  have delivered : T1Link.Step answerOk ⟨.running headerPacked, freshCard.awaiting⟩
      ⟨.running statusArrived, headerAccepted⟩ := .delivered rfl (by decide) (.inr rfl) reacts
  have analysed : T1Link.Step answerOk ⟨.running statusArrived, headerAccepted⟩
      ⟨.running (pcbAnalyseEvent statusArrived), headerAccepted⟩ := .inside (.inl (by decide))
  have returned : T1Link.Step answerOk
      ⟨.running (pcbAnalyseEvent statusArrived), headerAccepted⟩
      ⟨.returned 0 (iBlockEvent (pcbAnalyseEvent statusArrived)), headerAccepted⟩ :=
    .inside (.inl (by decide))
  exact .tail (.tail (.tail (.single packed) delivered) analysed) returned

/-- Such a card receives a command without data, and the exchange returns zero. -/
theorem t1_delivers_header : headerAccepted.received = emvT1Extract headerReq ∧
    (iBlockEvent (pcbAnalyseEvent statusArrived)).accepted.map T1Block.info = [[0x90, 0x00]] := by
  have delivers := t1_delivers answerOk freshCore headerReq .blank .zero .zero freshCard _
    ⟨fun _ => by simp [answerOk], fun _ field among => by
      obtain rfl := List.mem_singleton.mp among
      decide⟩
    (by decide) (by decide) ⟨rfl, rfl, rfl, rfl, rfl⟩ header_exchanged
  obtain ⟨received, fields, -⟩ := (delivers.2.2.2 0 _ rfl).1 rfl
  exact ⟨received, fields⟩

end PosFirmware.Icc
