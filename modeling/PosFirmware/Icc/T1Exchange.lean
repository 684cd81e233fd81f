import PosFirmware.Foundation.Loop
import PosFirmware.Icc.T1Block

/-! # The exchange under T=1

`sci_emv_t1_exchange` as a loop over its events. A round that transmits a block
reads the answer from a queue of receptions; every other round works on the
variables alone. Beside the variables the state counts the blocks read and keeps
the I-blocks whose information was stored.
-/

namespace PosFirmware.Icc

open PosFirmware.Foundation

def T1_REPEAT_LMT : Nat := 4

/-- `enum BLOCK_TYPE`. -/
inductive BlockType where
  | invalidBlock
  | iBlock
  | rBlock
  | sResponseBlock
  deriving DecidableEq

/-- The events of the exchange. -/
inductive T1Event where
  | iBlock
  | rBlock
  | sBlock
  | tranRcev
  | terminator
  | iOrg
  | invalidOrg
  | pcbAnalyse
  | ack
  | ackSreq
  deriving DecidableEq

/-- The variables of the exchange. `pbuf` and `prbuf` are offsets into `buf` and
into the data of the response. -/
structure T1State where
  event : T1Event
  terminal : EmvCore
  buf : List Byte
  pbuf : Nat
  resp : ApduRsp
  prbuf : Nat
  sblock : T1Block
  rblock : T1Block
  state : Int
  ibLen : Nat
  bwt : Nat
  sendBlockType : BlockType
  /-- The number of blocks transmitted, each with an answer awaited. -/
  blocks : Nat
  /-- The I-blocks whose information was stored in the response. -/
  accepted : List T1Block

/-- `I_ORG_EVENT`. -/
def iOrgEvent (s : T1State) : T1State :=
  let packed := emvT1IblockPack s.terminal (s.buf.drop s.pbuf) s.sblock
  { s with
    terminal := packed.1
    sblock := packed.2
    ibLen := packed.2.len.toNat
    pbuf := s.pbuf + packed.2.len.toNat
    sendBlockType := .iBlock
    event := .tranRcev }

/-- The part of `TRAN_RCEV_EVENT` that transmits a block and reads the answer. -/
def transceive (queue : Nat → Reception) (s : T1State) : T1State :=
  let sblock := emvT1ComputeLrc s.sblock
  let received := emvT1BlockRecv { s.terminal with terminalPcb := sblock.pcb } queue
  let terminal := { received.2.2 with terminalBwt := s.bwt }
  let s := { s with
    sblock := sblock
    state := received.1
    rblock := received.2.1
    terminal := terminal
    blocks := s.blocks + 1 }
  if received.1 = ICC_ERR_T1_BWT ∨ received.1 = ICC_ERR_T1_CWT then
    { s with terminal := s.terminal.powerDump, event := .terminator }
  else if received.1 ≠ 0 then { s with event := .invalidOrg }
  else { s with event := .pcbAnalyse }

theorem transceive_valid {queue : Nat → Reception} {s : T1State} {block : T1Block}
    {terminal : EmvCore} (received : emvT1BlockRecv
      { s.terminal with terminalPcb := (emvT1ComputeLrc s.sblock).pcb } queue =
        (0, block, terminal)) :
    transceive queue s = { s with
      sblock := emvT1ComputeLrc s.sblock
      state := 0
      rblock := block
      terminal := { terminal with terminalBwt := s.bwt }
      blocks := s.blocks + 1
      event := .pcbAnalyse } := by
  rw [transceive]
  dsimp only
  rw [received]
  dsimp only
  rw [if_neg (by decide), if_neg (not_not.mpr rfl)]

/-- `TRAN_RCEV_EVENT`. -/
def tranRcevEvent (queue : Nat → Reception) (s : T1State) : T1State :=
  let s := { s with terminal := { s.terminal with emvRepeat := s.terminal.emvRepeat + 1 } }
  if T1_REPEAT_LMT = s.terminal.emvRepeat then
    { s with
      terminal := s.terminal.powerDump
      state := ICC_ERR_T1_BREP
      event := .terminator }
  else transceive queue s

/-- `PCB_ANALYSE_EVENT`. -/
def pcbAnalyseEvent (s : T1State) : T1State :=
  if !tstBit s.rblock.pcb 7 then { s with event := .iBlock }
  else if !tstBit s.rblock.pcb 6 then { s with event := .rBlock }
  else { s with event := .sBlock }

/-- The repeat counter set back. -/
def EmvCore.clearRepeat (terminal : EmvCore) : EmvCore := { terminal with emvRepeat := 0 }

/-- The information of the I-block received stored in the response. -/
def storeInfo (s : T1State) : T1State :=
  { s with
    resp := { s.resp with data := storeBytes s.resp.data s.prbuf s.rblock.info }
    prbuf := s.prbuf + s.rblock.len.toNat
    accepted := s.accepted ++ [s.rblock]
    terminal := { s.terminal with emvCardIpcb := isnInc s.rblock.pcb } }

/-- The end of the response: the status bytes taken from its last two bytes. -/
def takeStatus (s : T1State) : T1State :=
  if s.prbuf < 2 then { s with state := ICC_ERR_T1_LEN }
  else
    { s with
      resp := { s.resp with
        len := s.prbuf - 2
        swb := s.resp.data (s.prbuf - 1)
        swa := s.resp.data (s.prbuf - 2) }
      prbuf := s.prbuf - 2 }

/-- `I_BLOCK_EVENT`. -/
def iBlockEvent (s : T1State) : T1State :=
  let s := { s with terminal := s.terminal.clearRepeat }
  if s.prbuf + s.rblock.len.toNat > MAX_APDU_SIZE + 2 then
    { s with event := .terminator, state := ICC_ERR_PARAM }
  else if tstBit s.rblock.pcb IMR_BIT then { storeInfo s with event := .ack }
  else { takeStatus (storeInfo s) with event := .terminator }

/-- `R_BLOCK_EVENT`. -/
def rBlockEvent (s : T1State) : T1State :=
  if cmpIrsnEqu s.terminal.terminalIpcb s.rblock.pcb then
    { s with
      event := if tstBit s.terminal.terminalIpcb IMR_BIT then .iOrg else .invalidOrg
      terminal := s.terminal.clearRepeat }
  else if tstBit s.terminal.emvCardIpcb IMR_BIT then
    { s with terminal := s.terminal.clearRepeat, event := .invalidOrg }
  else
    { s with
      terminal := { s.terminal with terminalIpcb := isnDec s.terminal.terminalIpcb }
      pbuf := s.pbuf - s.ibLen
      event := .iOrg }

/-- `S_BLOCK_EVENT`. -/
def sBlockEvent (s : T1State) : T1State :=
  if tstBit s.rblock.pcb SRS_BIT then { s with event := .invalidOrg }
  else
    let s := { s with terminal := s.terminal.clearRepeat }
    match (s.rblock.pcb &&& 0x0F).toNat with
    | 0x01 =>
        if s.rblock.len ≠ 0 then
          { s with
            terminal := { s.terminal with emvCardIfs := (s.rblock.data 0).toNat }
            event := .ackSreq }
        else s
    | 0x03 =>
        if s.rblock.len ≠ 0 then
          { s with
            terminal := { s.terminal with terminalBwt := s.bwt * (s.rblock.data 0).toNat % 2 ^ 32 }
            event := .ackSreq }
        else s
    | 0x04 => { s with terminal := s.terminal.powerDump, event := .terminator }
    | _ => s

theorem sBlockEvent_ifs {s : T1State} (request : tstBit s.rblock.pcb SRS_BIT = false)
    (kind : (s.rblock.pcb &&& 0x0F).toNat = 0x01) (len : s.rblock.len ≠ 0) :
    sBlockEvent s = { s with
      terminal := { s.terminal.clearRepeat with emvCardIfs := (s.rblock.data 0).toNat }
      event := .ackSreq } := by
  rw [sBlockEvent, if_neg (by simp [request])]
  dsimp only
  rw [kind]
  exact if_pos len

theorem sBlockEvent_wtx {s : T1State} (request : tstBit s.rblock.pcb SRS_BIT = false)
    (kind : (s.rblock.pcb &&& 0x0F).toNat = 0x03) (len : s.rblock.len ≠ 0) :
    sBlockEvent s = { s with
      terminal := { s.terminal.clearRepeat with
        terminalBwt := s.bwt * (s.rblock.data 0).toNat % 2 ^ 32 }
      event := .ackSreq } := by
  rw [sBlockEvent, if_neg (by simp [request])]
  dsimp only
  rw [kind]
  exact if_pos len

/-- `ACK_SREQ_EVENT`. -/
def ackSreqEvent (s : T1State) : T1State :=
  let pcb := setBit s.rblock.pcb SRS_BIT
  { s with
    rblock := { s.rblock with pcb := pcb }
    sblock := { s.sblock with
      nad := s.rblock.nad
      pcb := pcb
      len := 1
      data := storeBytes s.sblock.data 0 [s.rblock.data 0] }
    sendBlockType := .sResponseBlock
    event := .tranRcev }

/-- `ACK_EVENT`. -/
def ackEvent (s : T1State) : T1State :=
  { s with
    sblock := { s.sblock with
      nad := s.terminal.emvCardNad
      pcb := 0x80 ||| isnRsn s.terminal.emvCardIpcb
      len := 0 }
    sendBlockType := .rBlock
    event := .tranRcev }

/-- `INVALID_ORG_EVENT`. -/
def invalidOrgEvent (s : T1State) : T1State :=
  let s := { s with sblock := { s.sblock with nad := s.terminal.emvCardNad, len := 0 } }
  if s.state = ICC_ERR_T1_SRA then
    { s with terminal := s.terminal.powerDump, event := .terminator }
  else if s.sendBlockType = .rBlock then { s with event := .tranRcev }
  else
    let error : Byte := if s.state = ICC_ERR_PARS ∨ s.state = ICC_ERR_T1_LRC then 0x81 else 0x82
    { s with
      sblock := { s.sblock with pcb := error ||| isnRsn s.terminal.emvCardIpcb }
      sendBlockType := .rBlock
      event := .tranRcev }

/-- The `switch` over the event. -/
def t1Switch (queue : Nat → Reception) (s : T1State) : T1State :=
  match s.event with
  | .iOrg => iOrgEvent s
  | .tranRcev => tranRcevEvent queue s
  | .pcbAnalyse => pcbAnalyseEvent s
  | .iBlock => iBlockEvent s
  | .rBlock => rBlockEvent s
  | .sBlock => sBlockEvent s
  | .ackSreq => ackSreqEvent s
  | .ack => ackEvent s
  | .invalidOrg => invalidOrgEvent s
  | .terminator => { s with event := .terminator }

/-- The condition of the loop. -/
def t1While (s : T1State) : Outcome T1State :=
  if s.event ≠ .terminator then .running s else .returned s.state s

/-- One round of the loop. -/
def t1Step (queue : Nat → Reception) (s : T1State) : Outcome T1State :=
  t1While (t1Switch queue s)

/-- The variables before the loop. The two blocks hold what the stack held. -/
def t1Init (terminal : EmvCore) (req : ApduReq) (resp : ApduRsp) (sblock rblock : T1Block) :
    T1State where
  event := .iOrg
  terminal := terminal.clearRepeat
  buf := emvT1Extract req
  pbuf := 0
  resp := resp
  prbuf := 0
  sblock := sblock
  rblock := rblock
  state := 0
  ibLen := 0
  bwt := terminal.terminalBwt
  sendBlockType := .invalidBlock
  blocks := 0
  accepted := []

/-- `sci_emv_t1_exchange` up to its loop. -/
def t1Start (terminal : EmvCore) (req : ApduReq) (resp : ApduRsp) (sblock rblock : T1Block) :
    Outcome T1State :=
  if req.lc > 255 then
    .returned ICC_ERR_PARAM { t1Init terminal req resp sblock rblock with terminal := terminal }
  else .running (t1Init terminal req resp sblock rblock)

/-- `sci_emv_t1_exchange` after a number of rounds, with a card that answers the
blocks transmitted with these receptions, one queue for each block. -/
def sciEmvT1Exchange (card : Nat → Nat → Reception) (terminal : EmvCore) (req : ApduReq)
    (resp : ApduRsp) (sblock rblock : T1Block) (rounds : Nat) : Outcome T1State :=
  Outcome.run (fun s => t1Step (card s.blocks) s) (t1Start terminal req resp sblock rblock) rounds

end PosFirmware.Icc
