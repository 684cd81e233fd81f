import PosFirmware.Foundation.Loop
import PosFirmware.Icc.Queue

/-! # The exchange under T=0

`sci_emv_t0_exchange` as a loop over its events. The card is the sequence of
receptions that the terminal reads, so every order of procedure bytes is a card.
Beside its variables the state records which indices of the request were read
for transmission and which indices of the response were written.
-/

namespace PosFirmware.Icc

open PosFirmware.Foundation

/-- `enum T0_EVENT`. -/
inductive T0Event where
  | terminal
  | sendCmd
  | getProcedure
  | insProc
  | invinsProc
  | specialProc
  deriving DecidableEq

/-- The way data goes after the command, `card_trans_state`. -/
inductive CardTransState where
  | receiData
  | transData

/-- The variables of the exchange. `prx` and `ptx` are offsets from the start of
the two arrays; `rxout` counts the bytes read from the card. -/
structure T0State where
  event : T0Event
  req : ApduReq
  resp : ApduRsp
  cmdCase : Nat
  txResidual : Int
  rxResidual : Int
  isFirstSw : Bool
  exchangeSw : Bool
  prx : Int
  ptx : Int
  ch : Byte
  ch2 : Byte
  sw1 : Byte
  sw2 : Byte
  cardTransState : CardTransState
  rxout : Nat
  /-- Whether the card was powered down. -/
  dumped : Bool
  /-- The blocks handed to the hardware. -/
  xmitted : List (List Byte)
  /-- The indices of `apdu_req->data` that were transmitted. -/
  reads : List Int
  /-- The indices of `apdu_resp->data` that were written. -/
  stores : List Int

/-- Indices from an offset on. -/
def indicesFrom (start : Int) (count : Nat) : List Int :=
  (List.range count).map fun offset : Nat => start + offset

/-- Whether a byte can only be a status byte, or the null byte. -/
def isStatusByte (ch : Byte) : Bool := ch &&& 0xF0 == 0x90 || ch &&& 0xF0 == 0x60

/-- Leaving the exchange after powering the card down. -/
def powerDump (code : Int) (s : T0State) : Outcome T0State :=
  .returned code { s with dumped := true }

/-- `T0_SEND_CMD_EVENT`. -/
def sendCmdEvent (s : T0State) : Outcome T0State :=
  let cmdCase := emvTellCase s.req
  let ch : Byte :=
    if cmdCase > 2 then BitVec.ofNat 8 (s.req.lc % 256)
    else if cmdCase = 2 ∧ s.req.le < 256 then BitVec.ofNat 8 (s.req.le % 256)
    else 0
  .running { s with
    cmdCase := cmdCase
    txResidual := s.req.lc
    rxResidual := if s.req.le ≥ 256 ∨ s.req.le = 0 then 256 else s.req.le
    ch := ch
    cardTransState := if cmdCase > 2 then .receiData else .transData
    xmitted := s.xmitted ++ [(List.ofFn s.req.cmd) ++ [ch]]
    event := .getProcedure }

/-- `T0_GET_PROCEDURE_EVENT`. -/
def getProcedureEvent (card : Nat → Reception) (s : T0State) : Outcome T0State :=
  let got := sciQueueSpill 0 card 1 s.rxout
  let ch := got.bytes.headD s.ch
  let s := { s with ch := ch, rxout := got.rxout }
  if got.result ≠ 0 then powerDump got.result s
  else if ch = s.req.cmd 1 then
    if !isStatusByte ch then .running { s with event := .insProc, isFirstSw := false }
    else .running { s with event := .specialProc }
  else if ch = 0xFF ^^^ s.req.cmd 1 then
    if !isStatusByte ch then .running { s with event := .invinsProc, isFirstSw := false }
    else .running { s with event := .specialProc }
  else if ch = 0x60 then .running { s with event := .getProcedure, isFirstSw := false }
  else .running { s with event := .specialProc }

/-- Bytes of the card stored in the response. -/
def spillToResp (card : Nat → Reception) (length : Nat) (s : T0State) : Int × T0State :=
  let got := sciQueueSpill 0 card length s.rxout
  (got.result, { s with
    rxout := got.rxout
    resp := { s.resp with data := storeBytes s.resp.data s.prx.toNat got.bytes }
    stores := s.stores ++ indicesFrom s.prx got.bytes.length })

/-- Bytes of the request transmitted to the card. -/
def xmitFromReq (length : Nat) (s : T0State) : T0State :=
  { s with
    xmitted := s.xmitted ++ [(indicesFrom s.ptx length).map fun i => s.req.data i.toNat]
    reads := s.reads ++ indicesFrom s.ptx length }

/-- `T0_INS_PROC_EVENT`. -/
def insProcEvent (card : Nat → Reception) (s : T0State) : Outcome T0State :=
  if s.cmdCase < 3 then
    if s.prx + s.rxResidual > 256 then powerDump ICC_ERR_PARAM s
    else
      let (commState, s) := spillToResp card s.rxResidual.toNat s
      if commState ≠ 0 then powerDump commState s
      else .running { s with
        prx := s.prx + s.rxResidual
        rxResidual := 0
        event := .getProcedure }
  else
    let s := xmitFromReq s.txResidual.toNat s
    .running { s with
      ptx := s.ptx + s.txResidual
      txResidual := 0
      event := .getProcedure }

/-- `T0_INVINS_PROC_EVENT`. -/
def invinsProcEvent (card : Nat → Reception) (s : T0State) : Outcome T0State :=
  if s.cmdCase < 3 then
    if s.prx > 256 ∨ s.prx + s.rxResidual > 256 then powerDump ICC_ERR_PARAM s
    else
      let (commState, s) := spillToResp card 1 s
      if commState ≠ 0 then powerDump commState s
      else .running { s with
        prx := s.prx + 1
        rxResidual := s.rxResidual - 1
        event := .getProcedure }
  else
    if s.ptx > 256 then powerDump ICC_ERR_PARAM s
    else
      let s := xmitFromReq 1 s
      .running { s with
        ptx := s.ptx + 1
        txResidual := s.txResidual - 1
        event := .getProcedure }

/-- The command `GET RESPONSE`. -/
def getResponseCmd : Fin 4 → Byte := ![0x00, 0xC0, 0x00, 0x00]

/-- What `T0_SPECIAL_PROC_EVENT` does with the status bytes of a terminal that
sends `GET RESPONSE` by itself. -/
def autoResponse (s : T0State) : T0State :=
  if s.ch = 0x61 then
    { s with
      req := { s.req with cmd := getResponseCmd, lc := 0, le := s.ch2.toNat }
      isFirstSw := false
      event := .sendCmd }
  else if s.ch = 0x6C then
    { s with
      req := { s.req with lc := 0, le := s.ch2.toNat }
      isFirstSw := false
      event := .sendCmd }
  else if s.cmdCase = 4 ∧ s.isFirstSw = false then
    if s.ch = 0x62 ∨ s.ch = 0x63 ∨ (s.ch &&& 0xF0 = 0x90 ∧ (s.ch ≠ 0x90 ∨ s.ch2 ≠ 0x00)) then
      { s with
        req := { s.req with cmd := getResponseCmd, lc := 0, le := 256 }
        exchangeSw := true
        sw1 := s.ch
        sw2 := s.ch2
        event := .sendCmd }
    else s
  else s

/-- `T0_SPECIAL_PROC_EVENT`. -/
def specialProcEvent (auto : Bool) (card : Nat → Reception) (s : T0State) : Outcome T0State :=
  if !isStatusByte s.ch then powerDump ICC_ERR_T0_PROB s
  else
    let got := sciQueueSpill 0 card 1 s.rxout
    let s := { s with ch2 := got.bytes.headD s.ch2, rxout := got.rxout }
    if got.result ≠ 0 then powerDump got.result s
    else
      let s := { s with
        resp := { s.resp with swa := s.ch, swb := s.ch2 }
        event := .terminal }
      .running (if auto then autoResponse s else s)

/-- What follows the loop. -/
def t0Finish (s : T0State) : T0State :=
  { s with resp :=
      { s.resp with
        swa := if s.exchangeSw then s.sw1 else s.resp.swa
        swb := if s.exchangeSw then s.sw2 else s.resp.swb
        len := s.prx } }

/-- The `switch` over the event. -/
def t0Switch (auto : Bool) (card : Nat → Reception) (s : T0State) : Outcome T0State :=
  match s.event with
  | .sendCmd => sendCmdEvent s
  | .getProcedure => getProcedureEvent card s
  | .insProc => insProcEvent card s
  | .invinsProc => invinsProcEvent card s
  | .specialProc => specialProcEvent auto card s
  | .terminal => .running s

/-- The condition of the loop. -/
def t0While : Outcome T0State → Outcome T0State
  | .running s => if s.event ≠ .terminal then .running s else .returned 0 (t0Finish s)
  | .returned code s => .returned code s

/-- One round of the loop. -/
def t0Step (auto : Bool) (card : Nat → Reception) (s : T0State) : Outcome T0State :=
  t0While (t0Switch auto card s)

/-- The variables before the loop. -/
def t0Init (req : ApduReq) (resp : ApduRsp) : T0State where
  event := .sendCmd
  req := req
  resp := resp
  cmdCase := 0
  txResidual := 0
  rxResidual := 0
  isFirstSw := true
  exchangeSw := false
  prx := 0
  ptx := 0
  ch := 0
  ch2 := 0
  sw1 := 0
  sw2 := 0
  cardTransState := .transData
  rxout := 0
  dumped := false
  xmitted := []
  reads := []
  stores := []

/-- `sci_emv_t0_exchange` up to its loop: a request longer than 255 bytes is
refused. -/
def t0Start (req : ApduReq) (resp : ApduRsp) : Outcome T0State :=
  if req.lc > 255 then .returned ICC_ERR_PARAM (t0Init req resp) else .running (t0Init req resp)

/-- `sci_emv_t0_exchange` after a number of rounds of its loop. -/
def sciEmvT0Exchange (auto : Bool) (card : Nat → Reception) (req : ApduReq) (resp : ApduRsp)
    (rounds : Nat) : Outcome T0State :=
  Outcome.run (t0Step auto card) (t0Start req resp) rounds

end PosFirmware.Icc
