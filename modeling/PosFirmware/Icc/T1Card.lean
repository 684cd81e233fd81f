import PosFirmware.Icc.T1Block

/-! # A card that follows ISO 7816-3

The other side of the exchange under T=1: a card that accepts I-blocks with the
number it expects, acknowledges or answers them, repeats its last block when it is
asked to, refuses what arrives damaged, and may ask for more time or for another
block size whenever it is its turn. Which of these requests it makes, and when, is
left open; what it answers to a command is a parameter.
-/

namespace PosFirmware.Icc

/-! ## The blocks of a card -/

/-- What a card may request: another block size or more time. -/
inductive SRequest where
  | ifs (size : Byte) (inRange : 0x10 ≤ size.toNat ∧ size.toNat ≤ 0xFE)
  | wtx (multiplier : Byte)

/-- The blocks that a card sends. -/
inductive CardBlock where
  | info (number more : Bool) (field : List Byte)
  | ready (number : Bool) (error : BitVec 4)
  | request (request : SRequest)

/-- A bit of a control byte. -/
def bitOf (set : Bool) (y : Nat) : Byte := if set then 1#8 <<< y else 0

def SRequest.pcb : SRequest → Byte
  | ifs _ _ => 0xC1
  | wtx _ => 0xC3

def SRequest.value : SRequest → Byte
  | ifs size _ => size
  | wtx multiplier => multiplier

/-- The control byte of a block. -/
def CardBlock.pcb : CardBlock → Byte
  | info number more _ => bitOf number ISN_BIT ||| bitOf more IMR_BIT
  | ready number error => 0x80 ||| bitOf number RSN_BIT ||| error.setWidth 8
  | request asked => asked.pcb

/-- The information field of a block. -/
def CardBlock.field : CardBlock → List Byte
  | info _ _ field => field
  | ready _ _ => []
  | request asked => [asked.value]

/-- A block of the card as it is transmitted. -/
def CardBlock.encode (block : CardBlock) : T1Block where
  nad := 0
  pcb := block.pcb
  len := BitVec.ofNat 8 block.field.length
  data := fun i => block.field.getD i 0
  lrc := 0

/-! ## The blocks of the terminal -/

def T1Block.IsInfo (block : T1Block) : Prop := tstBit block.pcb 7 = false

def T1Block.IsReady (block : T1Block) : Prop :=
  tstBit block.pcb 7 = true ∧ tstBit block.pcb 6 = false

/-- The number of an I-block. -/
def T1Block.number (block : T1Block) : Bool := tstBit block.pcb ISN_BIT

/-- The number of an R-block. -/
def T1Block.readyNumber (block : T1Block) : Bool := tstBit block.pcb RSN_BIT

/-- The block that answers a request. -/
def SRequest.AnsweredBy (request : SRequest) (block : T1Block) : Prop :=
  block.pcb = setBit request.pcb SRS_BIT ∧ block.info = [request.value]

/-! ## The card -/

/-- The state of a card: the number of the I-block it expects, the information of the
I-blocks it accepted and their numbers, the number of its next I-block, the block that
is due or was sent last other than a request, what is left of its response, and the
request that is not answered yet. -/
structure Card where
  expected : Bool
  received : List Byte
  numbers : List Bool
  number : Bool
  reply : CardBlock
  pending : List (List Byte)
  request : Option SRequest

/-- The next I-block of the response is due. -/
def Card.sendNext (card : Card) : List (List Byte) → Card
  | [] => card
  | field :: rest =>
      { card with
        number := !card.number
        reply := .info card.number (!rest.isEmpty) field
        pending := rest }

/-- An I-block with the number expected: it is acknowledged if more of the command
follows, and the response is due otherwise. -/
def Card.accept (answer : List Byte → List (List Byte)) (card : Card) (block : T1Block) : Card :=
  let received := card.received ++ block.info
  let card := { card with
    expected := !card.expected
    received := received
    numbers := card.numbers ++ [block.number] }
  if tstBit block.pcb IMR_BIT then { card with reply := .ready card.expected 0 }
  else card.sendNext (answer received)

/-- A card before a command: it received nothing of it, and asks for the I-block it
expects when it is asked to repeat. -/
def Card.awaiting (card : Card) : Card :=
  { card with received := [], numbers := [], reply := .ready card.expected 0, pending := [] }

/-- What a card answers: at least one field, and none longer than a block holds. -/
structure Responds (answer : List Byte → List (List Byte)) : Prop where
  answers : ∀ command, answer command ≠ []
  sized : ∀ command, ∀ field ∈ answer command, field.length ≤ 254

theorem Card.sendNext_kept (card : Card) (fields : List (List Byte)) :
    (card.sendNext fields).request = card.request ∧ (card.sendNext fields).numbers = card.numbers ∧
      (card.sendNext fields).expected = card.expected := by
  cases fields <;> exact ⟨rfl, rfl, rfl⟩

theorem Card.accept_kept (answer : List Byte → List (List Byte)) (card : Card) (block : T1Block) :
    (card.accept answer block).request = card.request ∧
      (card.accept answer block).numbers = card.numbers ++ [block.number] ∧
      (card.accept answer block).expected = !card.expected := by
  unfold Card.accept
  dsimp only
  split
  · exact ⟨rfl, rfl, rfl⟩
  · exact Card.sendNext_kept _ _

/-- An R-block: it acknowledges the I-block sent last if its number is the other one,
and asks for the last block again otherwise. -/
def Card.acknowledge (card : Card) (block : T1Block) : Card :=
  match card.reply with
  | .info number _ _ => if block.readyNumber ≠ number then card.sendNext card.pending else card
  | _ => card

/-- What a card sends after a valid block: the block that is due, or a request. -/
inductive Card.Sends : Card → Card → CardBlock → Prop
  | due (card : Card) : Sends card card card.reply
  | request (card : Card) (request : SRequest) :
      Sends card { card with request := some request } (.request request)

/-- How a card reacts to what arrives, a block or, as `none`, a damaged block. -/
inductive Card.Reacts (answer : List Byte → List (List Byte)) :
    Card → Option T1Block → Card → CardBlock → Prop
  | repeated {card : Card} {arrived : Option T1Block} {request : SRequest}
      (outstanding : card.request = some request)
      (unanswered : ∀ block, arrived = some block → ¬ request.AnsweredBy block) :
      Reacts answer card arrived card (.request request)
  | answered {card after : Card} {block : T1Block} {request : SRequest} {sent : CardBlock}
      (outstanding : card.request = some request) (answers : request.AnsweredBy block)
      (sends : Card.Sends { card with request := none } after sent) :
      Reacts answer card (some block) after sent
  | accepted {card after : Card} {block : T1Block} {sent : CardBlock}
      (free : card.request = none) (isInfo : block.IsInfo)
      (expected : block.number = card.expected)
      (sends : Card.Sends (card.accept answer block) after sent) :
      Reacts answer card (some block) after sent
  | acknowledged {card after : Card} {block : T1Block} {sent : CardBlock}
      (free : card.request = none) (isReady : block.IsReady)
      (sends : Card.Sends (card.acknowledge block) after sent) :
      Reacts answer card (some block) after sent
  | refused {card : Card} {arrived : Option T1Block} {error : BitVec 4}
      (free : card.request = none)
      (unfit : ∀ block, arrived = some block →
        ¬ (block.IsInfo ∧ block.number = card.expected) ∧ ¬ block.IsReady) :
      Reacts answer card arrived card (.ready card.expected error)

/-! ## The blocks of a card at the terminal -/

theorem infoPcb_bits (number more : Bool) :
    tstBit (CardBlock.info number more []).pcb 7 = false ∧
      tstBit (CardBlock.info number more []).pcb ISN_BIT = number ∧
      tstBit (CardBlock.info number more []).pcb IMR_BIT = more := by
  revert number more
  decide

theorem readyPcb_bits (number : Bool) (error : BitVec 4) :
    tstBit (CardBlock.ready number error).pcb 7 = true ∧
      tstBit (CardBlock.ready number error).pcb 6 = false ∧
      tstBit (CardBlock.ready number error).pcb 5 = false ∧
      tstBit (CardBlock.ready number error).pcb RSN_BIT = number := by
  revert number error
  decide

theorem SRequest.pcb_bits (request : SRequest) :
    tstBit request.pcb 7 = true ∧ tstBit request.pcb 6 = true ∧
      tstBit request.pcb SRS_BIT = false := by
  cases request <;> simp only [SRequest.pcb] <;> decide

theorem CardBlock.encode_info {block : CardBlock} (small : block.field.length < 256) :
    block.encode.info = block.field := by
  have length : block.encode.len.toNat = block.field.length := by
    simp [CardBlock.encode, Nat.mod_eq_of_lt small]
  rw [T1Block.info, length]
  refine List.ext_getElem (by simp) fun i inside _ => ?_
  have inside : i < block.field.length := by simpa using inside
  simp [CardBlock.encode, inside]

theorem SRequest.received_data (request : SRequest) :
    (CardBlock.request request).encode.received.data 0 = request.value := by
  have info := (@CardBlock.encode_info (.request request)) (by simp [CardBlock.field])
  show storeBytes (fun _ => 0) 0 (CardBlock.request request).encode.info 0 = request.value
  rw [info]
  rfl

end PosFirmware.Icc
