import PosFirmware.Icc.T1Card
import PosFirmware.Icc.T1Success

/-! # The terminal, the card and the line between them

The exchange under T=1 as a system: the terminal goes round its loop, and a block
that it transmits arrives at the card, arrives damaged, or is lost; what the card
sends back arrives or is garbled. Where the two sides stand is said by `Position`,
which only depends on what the terminal shows of itself (`T1View`), and the card
keeps it whatever it does (`Position.reacts`).
-/

namespace PosFirmware.Icc

open PosFirmware.Foundation

/-! ## The system -/

/-- The terminal and the card. -/
structure T1Link where
  outcome : Outcome T1State
  card : Card

/-- The results of receiving a block that was lost or garbled on the line. -/
def TransmissionError (code : Int) : Prop :=
  code = ICC_ERR_PARS ∨ code = ICC_ERR_T1_LRC ∨ code = ICC_ERR_T1_BWT ∨ code = ICC_ERR_T1_CWT

/-- One round of the terminal, and what becomes of the blocks in it. -/
inductive T1Link.Step (answer : List Byte → List (List Byte)) : T1Link → T1Link → Prop
  | inside {s : T1State} {card : Card}
      (noBlock : s.event ≠ .tranRcev ∨ s.terminal.emvRepeat + 1 = T1_REPEAT_LMT) :
      Step answer ⟨.running s, card⟩ ⟨t1Step (fun _ => .timeout) s, card⟩
  | lost {s : T1State} {card : Card} (event : s.event = .tranRcev) :
      Step answer ⟨.running s, card⟩ ⟨t1Step (fun _ => .timeout) s, card⟩
  | delivered {s : T1State} {card after : Card} {arrived : Option T1Block} {sent : CardBlock}
      (event : s.event = .tranRcev) (more : s.terminal.emvRepeat + 1 ≠ T1_REPEAT_LMT)
      (arrives : arrived = none ∨ arrived = some (emvT1ComputeLrc s.sblock))
      (reacts : card.Reacts answer arrived after sent) :
      Step answer ⟨.running s, card⟩ ⟨t1Step (queueOf sent.encode.transmitted) s, after⟩
  | garbled {s : T1State} {card after : Card} {arrived : Option T1Block} {sent : CardBlock}
      {queue : Nat → Reception}
      (event : s.event = .tranRcev) (more : s.terminal.emvRepeat + 1 ≠ T1_REPEAT_LMT)
      (arrives : arrived = none ∨ arrived = some (emvT1ComputeLrc s.sblock))
      (reacts : card.Reacts answer arrived after sent)
      (error : ∀ terminal, TransmissionError (emvT1BlockRecv terminal queue).1) :
      Step answer ⟨.running s, card⟩ ⟨t1Step queue s, after⟩

/-! ## Where the two sides stand -/

/-- What the terminal shows of itself: the number of its next I-block, whether its last
one announced more, the number it awaits, whether the card is chaining, the command
with the part sent and the length of the block sent last, and the fields of the
I-blocks it accepted. -/
structure T1View where
  sendNumber : Bool
  sendMore : Bool
  awaited : Bool
  chaining : Bool
  buf : List Byte
  pbuf : Nat
  ibLen : Nat
  fields : List (List Byte)

def T1State.view (s : T1State) : T1View where
  sendNumber := tstBit s.terminal.terminalIpcb ISN_BIT
  sendMore := tstBit s.terminal.terminalIpcb IMR_BIT
  awaited := tstBit s.terminal.emvCardIpcb ISN_BIT
  chaining := tstBit s.terminal.emvCardIpcb IMR_BIT
  buf := s.buf
  pbuf := s.pbuf
  ibLen := s.ibLen
  fields := s.accepted.map T1Block.info

/-- Where the two sides stand when the card knows what the terminal has: the card has
not accepted the last I-block; it has, and more of the command follows; or it has the
whole command and its next field is due. -/
inductive Standing (answer : List Byte → List (List Byte)) (v : T1View) (card : Card) : Prop
  | unaccepted (expected : card.expected = !v.sendNumber)
      (received : card.received = v.buf.take (v.pbuf - v.ibLen))
      (outstanding : v.ibLen ≤ v.pbuf) (inside : v.pbuf ≤ v.buf.length)
      (last : v.sendMore = false → v.pbuf = v.buf.length)
      (reply : ∃ error, card.reply = .ready card.expected error)
      (number : card.number = v.awaited) (unchained : v.chaining = false) (empty : v.fields = [])
  | accepted (expected : card.expected = v.sendNumber)
      (received : card.received = v.buf.take v.pbuf) (inside : v.pbuf ≤ v.buf.length)
      (more : v.sendMore = true) (reply : ∃ error, card.reply = .ready card.expected error)
      (number : card.number = v.awaited) (unchained : v.chaining = false) (empty : v.fields = [])
  | answering (field : List Byte) (expected : card.expected = v.sendNumber)
      (received : card.received = v.buf) (last : v.sendMore = false)
      (due : card.reply = .info v.awaited (!card.pending.isEmpty) field)
      (fields : answer v.buf = v.fields ++ field :: card.pending)
      (number : card.number = !v.awaited)

/-- The terminal has the field that the card sent last, and the card does not know
yet. -/
structure Confirming (answer : List Byte → List (List Byte)) (v : T1View) (card : Card) : Prop where
  expected : card.expected = v.sendNumber
  received : card.received = v.buf
  last : v.sendMore = false
  due : ∃ field, card.reply = .info (!v.awaited) true field
  more : card.pending ≠ []
  fields : answer v.buf = v.fields ++ card.pending
  number : card.number = v.awaited
  free : card.request = none

/-- Where the two sides stand while a block of the terminal is outstanding. -/
def Position (answer : List Byte → List (List Byte)) (v : T1View) (card : Card) : Prop :=
  Standing answer v card ∨ Confirming answer v card

/-- The terminal is about to send the next I-block of the command. -/
structure ReadyToSend (v : T1View) (card : Card) : Prop where
  expected : card.expected = v.sendNumber
  received : card.received = v.buf.take v.pbuf
  inside : v.pbuf ≤ v.buf.length
  reply : ∃ error, card.reply = .ready card.expected error
  number : card.number = v.awaited
  unchained : v.chaining = false
  empty : v.fields = []
  free : card.request = none

/-- The block that the terminal is about to transmit. -/
inductive Outgoing (s : T1State) (card : Card) : Prop
  | info (free : card.request = none) (type : s.sendBlockType = .iBlock)
      (isInfo : s.sblock.IsInfo) (number : s.sblock.number = !s.view.sendNumber)
      (more : tstBit s.sblock.pcb IMR_BIT = s.view.sendMore)
      (slice : s.sblock.info = (s.buf.drop (s.pbuf - s.ibLen)).take s.ibLen)
      (expected : card.expected = !s.view.sendNumber)
  | ready (type : s.sendBlockType = .rBlock) (isReady : s.sblock.IsReady)
      (number : s.sblock.readyNumber = s.view.awaited)
  | response (request : SRequest) (type : s.sendBlockType = .sResponseBlock)
      (outstanding : card.request = some request) (answers : request.AnsweredBy s.sblock)

/-- The blocks that the card may have sent where it stands. -/
inductive Emitted (v : T1View) (card : Card) : CardBlock → Prop
  | ready (error : BitVec 4) (free : card.request = none) :
      Emitted v card (.ready card.expected error)
  | info (more : Bool) (field : List Byte) (free : card.request = none)
      (due : card.reply = .info v.awaited more field) : Emitted v card (.info v.awaited more field)
  | request (request : SRequest) (outstanding : card.request = some request) :
      Emitted v card (.request request)

/-- Numbers that alternate, so that a next one may follow. -/
def Alternates (numbers : List Bool) (next : Bool) : Prop :=
  numbers.IsChain (· ≠ ·) ∧ ∀ last ∈ numbers.getLast?, last ≠ next

theorem Alternates.push {numbers : List Bool} {next : Bool} (alternates : Alternates numbers next) :
    Alternates (numbers ++ [next]) (!next) := by
  obtain ⟨chain, last⟩ := alternates
  refine ⟨List.isChain_append.mpr ⟨chain, List.isChain_singleton _, ?_⟩, by simp⟩
  intro x xLast y yFirst
  obtain rfl : next = y := by simpa using yFirst
  exact last x xLast

/-! ## What the card keeps -/

variable {answer : List Byte → List (List Byte)} {v : T1View} {s : T1State} {card after : Card}
  {arrived : Option T1Block} {sent : CardBlock}

theorem Standing.of_request {request : Option SRequest} (standing : Standing answer v card) :
    Standing answer v { card with request := request } := by
  cases standing with
  | unaccepted expected received outstanding inside last reply number unchained empty =>
    exact .unaccepted expected received outstanding inside last reply number unchained empty
  | accepted expected received inside more reply number unchained empty =>
    exact .accepted expected received inside more reply number unchained empty
  | answering field expected received last due fields number =>
    exact .answering field expected received last due fields number

theorem Standing.emitted_reply (standing : Standing answer v card) (free : card.request = none) :
    Emitted v card card.reply := by
  cases standing with
  | unaccepted expected received outstanding inside last reply =>
    obtain ⟨error, reply⟩ := reply
    rw [reply]
    exact .ready error free
  | accepted expected received inside more reply =>
    obtain ⟨error, reply⟩ := reply
    rw [reply]
    exact .ready error free
  | answering field expected received last due =>
    rw [due]
    exact .info _ field free due

/-- What the card leaves after it sent something. -/
structure Sent (answer : List Byte → List (List Byte)) (v : T1View) (card : Card)
    (sent : CardBlock) : Prop where
  position : Position answer v card
  emitted : Emitted v card sent
  numbers : Alternates card.numbers card.expected

theorem Standing.sends (standing : Standing answer v card) (free : card.request = none)
    (numbers : Alternates card.numbers card.expected) (sends : Card.Sends card after sent) :
    Sent answer v after sent := by
  cases sends with
  | due => exact ⟨.inl standing, standing.emitted_reply free, numbers⟩
  | request request => exact ⟨.inl standing.of_request, .request request rfl, numbers⟩

theorem Standing.accept (standing : Standing answer v card) {block : T1Block}
    (sized : ∀ command, answer command ≠ [])
    (more : tstBit block.pcb IMR_BIT = v.sendMore)
    (slice : block.info = (v.buf.drop (v.pbuf - v.ibLen)).take v.ibLen)
    (expected : card.expected = !v.sendNumber) :
    Standing answer v (card.accept answer block) := by
  cases standing with
  | unaccepted expected received outstanding inside last reply number unchained empty =>
    have extended : card.received ++ block.info = v.buf.take v.pbuf := by
      rw [received, slice, ← List.take_add, Nat.sub_add_cancel outstanding]
    unfold Card.accept
    dsimp only
    rw [extended, more]
    cases sendMore : v.sendMore with
    | true =>
      rw [if_pos rfl]
      exact .accepted (by simp [expected]) rfl inside sendMore ⟨0, rfl⟩ number unchained empty
    | false =>
      rw [if_neg (by simp), last sendMore, List.take_length]
      cases fields : answer v.buf with
      | nil => exact absurd fields (sized v.buf)
      | cons field rest =>
        refine .answering field (by simp [Card.sendNext, expected]) rfl sendMore ?_ ?_ ?_
        · simp [Card.sendNext, number]
        · simp [Card.sendNext, empty, fields]
        · simp [Card.sendNext, number]
  | accepted expected' => simp [expected] at expected'
  | answering field expected' => simp [expected] at expected'

theorem Standing.acknowledge (standing : Standing answer v card) {block : T1Block}
    (number : block.readyNumber = v.awaited) : card.acknowledge block = card := by
  unfold Card.acknowledge
  cases standing with
  | unaccepted expected received outstanding inside last reply =>
    obtain ⟨error, reply⟩ := reply
    rw [reply]
  | accepted expected received inside more reply =>
    obtain ⟨error, reply⟩ := reply
    rw [reply]
  | answering field expected received last due =>
    rw [due]
    exact if_neg (not_not.mpr number)

theorem Confirming.acknowledge (confirming : Confirming answer v card) {block : T1Block}
    (number : block.readyNumber = v.awaited) :
    Standing answer v (card.acknowledge block) ∧ (card.acknowledge block).request = none ∧
      (card.acknowledge block).numbers = card.numbers ∧
      (card.acknowledge block).expected = card.expected := by
  obtain ⟨expected, received, last, ⟨field, due⟩, more, fields, numberEq, free⟩ := confirming
  unfold Card.acknowledge
  rw [due]
  dsimp only
  rw [if_pos (by simp [number])]
  cases pending : card.pending with
  | nil => exact absurd pending more
  | cons next rest =>
    rw [pending] at fields
    exact ⟨.answering next expected received last (by simp [Card.sendNext, numberEq]) fields
      (by simp [Card.sendNext, numberEq]), free, rfl, rfl⟩

/-- **What the card keeps.** Whatever arrives of the block of the terminal, and
whatever the card does, both sides stand somewhere. -/
theorem Position.reacts (sized : ∀ command, answer command ≠ [])
    (position : Position answer s.view card) (outgoing : Outgoing s card)
    (numbers : Alternates card.numbers card.expected)
    (arrives : arrived = none ∨ arrived = some (emvT1ComputeLrc s.sblock))
    (reacts : card.Reacts answer arrived after sent) : Sent answer s.view after sent := by
  cases reacts with
  | repeated outstanding =>
    exact ⟨position, .request _ outstanding, numbers⟩
  | answered outstanding answers sends =>
    have standing : Standing answer s.view card := by
      refine position.resolve_right fun confirming => ?_
      rw [confirming.free] at outstanding
      exact absurd outstanding (by simp)
    exact standing.of_request.sends rfl numbers sends
  | accepted free isInfo expected sends =>
    obtain rfl := Option.some.inj (arrives.resolve_left (by simp))
    cases outgoing with
    | info _ _ _ _ more slice expected' =>
      have standing : Standing answer s.view card := by
        refine position.resolve_right fun confirming => ?_
        rw [confirming.expected] at expected'
        simp at expected'
      obtain ⟨requestEq, numbersEq, expectedEq⟩ :=
        card.accept_kept answer (emvT1ComputeLrc s.sblock)
      refine ((@Standing.accept _ _ _ standing (emvT1ComputeLrc s.sblock)) sized more slice
        expected').sends (requestEq.trans free) ?_ sends
      rw [numbersEq, expectedEq, expected]
      exact numbers.push
    | ready _ isReady => exact absurd (isInfo.symm.trans isReady.1) (by simp)
    | response request _ outstanding =>
      rw [free] at outstanding
      exact absurd outstanding (by simp)
  | acknowledged free isReady sends =>
    obtain rfl := Option.some.inj (arrives.resolve_left (by simp))
    cases outgoing with
    | info _ _ isInfo => exact absurd (isInfo.symm.trans isReady.1) (by simp)
    | ready _ _ number =>
      rcases position with standing | confirming
      · have same : card.acknowledge (emvT1ComputeLrc s.sblock) = card :=
          standing.acknowledge number
        rw [same] at sends
        exact standing.sends free numbers sends
      · obtain ⟨standing, free', numbersEq, expectedEq⟩ :=
          @Confirming.acknowledge _ _ _ confirming (emvT1ComputeLrc s.sblock) number
        refine standing.sends free' ?_ sends
        rw [numbersEq, expectedEq]
        exact numbers
    | response request _ outstanding =>
      rw [free] at outstanding
      exact absurd outstanding (by simp)
  | refused free => exact ⟨position, .ready _ free, numbers⟩

end PosFirmware.Icc
