import PosFirmware.Foundation.Loop

/-!
# The contactless block exchange

`ISO14443_4_HalfDuplexExchange` of `iso14443_4.c` as a loop over its stages. The
stage that transmits a block takes the answer of the card and of the reader chip from
a sequence of answers; every other stage works on the variables alone. `pucSrc` is an
offset into the command and `pucDes` the list of the bytes stored so far.
-/

namespace PosFirmware.Contactless

open PosFirmware.Foundation

/-- A byte of a block. -/
abbrev Byte := BitVec 8

/-- `ISO14443_CL_PROTOCOL_CHAINED`. -/
def CHAINED : Byte := 0x10

/-- `ISO14443_CL_PROTOCOL_CID`. -/
def CID : Byte := 0x08

/-- `ISO14443_CL_PROTOCOL_NAD`. -/
def NAD : Byte := 0x04

/-- `ISO14443_CL_PROTOCOL_ISN`. -/
def ISN : Byte := 0x01

/-- `ISO14443_PROTOCOL_RETRANSMISSION_LIMITED`. -/
def RETRANSMISSION_LIMITED : Nat := 2

/-- `ISO14443_HW_ERR_COMM_TIMEOUT`. -/
def COMM_TIMEOUT : Int := -1

/-- `ISO14443_HW_ERR_COMM_PARITY`. -/
def COMM_PARITY : Int := -4

/-- `ISO14443_HW_ERR_COMM_FRAME`, one of the codes the exchange does not look at. -/
def COMM_FRAME : Int := -5

/-- `ISO14443_HW_ERR_COMM_CODE`. -/
def COMM_CODE : Int := -7

/-- `ISO14443_HW_ERR_COMM_CRC`. -/
def COMM_CRC : Int := -9

/-- `ISO14443_PCD_ERR_USER_CANCEL`. -/
def USER_CANCEL : Int := -10

/-- `ISO14443_4_ERR_PROTOCOL`. -/
def ERR_PROTOCOL : Int := -100

/-- `gausMaxFrameSizeTable`. -/
def maxFrameSizeTable : List Nat :=
  [16, 24, 32, 40, 48, 64, 96, 128, 256, 256, 256, 256, 256, 256, 256, 256, 256, 256]

/-- `GetMaxFrameSize`. -/
def getMaxFrameSize (index : Nat) : Nat := maxFrameSizeTable.getD index 256

/-- The fields of `ST_PCDINFO` the exchange works with. -/
structure PcdInfo where
  /-- Whether blocks carry a node address. -/
  ucNadEn : Bool
  /-- The node address. -/
  ucNad : Byte
  /-- Whether blocks carry a card identifier. -/
  ucCidEn : Bool
  /-- The card identifier. -/
  ucCid : Byte
  /-- The frame size the card announced. -/
  uiFsc : Nat
  /-- The frame waiting time. -/
  uiFwt : UInt32
  /-- Control byte of the last I-block sent, with the block number in use. -/
  ucPcdPcb : Byte
  /-- Control byte of the last I-block accepted. -/
  ucPiccPcb : Byte

/-- The fields of `gt_c_para` the exchange works with. -/
structure PiccPara where
  /-- `user_control_w` is one. -/
  userControl : Bool
  /-- `wait_retry_limit_w` is one. -/
  waitRetryLimit : Bool
  /-- `wait_retry_limit_val`. -/
  waitRetryLimitVal : Nat

/-- A limit on the waiting time extensions is configured. -/
def PiccPara.limited (para : PiccPara) : Bool :=
  para.waitRetryLimit && 0 < para.waitRetryLimitVal

/-- What one `PcdTransCeive` and the look at the keyboard after it give. -/
structure Answer where
  /-- The return code of the reader chip. -/
  rev : Int
  /-- `uiPcdTxRNum` after the call. -/
  num : Nat
  /-- `aucPcdTxRBuffer` after the call. -/
  data : Nat → Byte
  /-- The key that cancels was pressed. -/
  cancelKey : Bool

/-- `enum EXC_STEP`. -/
inductive ExcStep where
  | orgIBlock
  | orgAckBlock
  | orgNackBlock
  | orgSBlock
  | orgTraRcv
  | rcvIBlock
  | rcvRBlock
  | rcvSBlock
  | rcvInvBlock
  | nonEvent
  deriving DecidableEq, Repr

/-- The variables of the exchange. -/
structure Exchange where
  /-- `*ptPcdInfo`. -/
  pcd : PcdInfo
  /-- `eExStep`. -/
  step : ExcStep
  /-- Command bytes not sent yet. -/
  iTxNum : Nat
  /-- Command bytes in the last I-block. -/
  iTxCn : Nat
  /-- `pucSrc` as an offset into the command. -/
  src : Nat
  /-- The block built in `aucTxBuf`. -/
  txBuf : List Byte
  /-- `aucRxBuf`. -/
  rxBuf : Nat → Byte
  /-- `uiPcdTxRNum`. -/
  rxNum : Nat
  /-- S-blocks in a row. -/
  iSRetry : Nat
  /-- Retransmissions of an I-block. -/
  iIRetry : Nat
  /-- Transmissions since the last that did not fail. -/
  iErrRetry : Nat
  /-- The multiplier of the waiting time. -/
  uiWtx : UInt32
  /-- `s_swt_limit_count`. -/
  swtLimitCount : Nat
  /-- The return code. -/
  iRev : Int
  /-- The bytes stored from `pucDes` on. -/
  des : List Byte
  /-- The number of calls of `PcdTransCeive`. -/
  transceptions : Nat
  /-- The number of times the carrier was switched off and on. -/
  carrierResets : Nat

/-- `iTxLmt`: the room for information in an I-block. -/
def iTxLmt (pcd : PcdInfo) : Nat :=
  pcd.uiFsc - 3 - (if pcd.ucNadEn then 1 else 0) - (if pcd.ucCidEn then 1 else 0)

/-- The variables at the start. -/
def startExchange (pcd : PcdInfo) (command : List Byte) (rxBuf : Nat → Byte) : Exchange where
  pcd := { pcd with uiFsc := if pcd.uiFsc < 16 then 32 else pcd.uiFsc }
  step := .orgIBlock
  iTxNum := command.length
  iTxCn := 0
  src := 0
  txBuf := []
  rxBuf := rxBuf
  rxNum := 0
  iSRetry := 0
  iIRetry := 0
  iErrRetry := 0
  uiWtx := 1
  swtLimitCount := 0
  iRev := 0
  des := []
  transceptions := 0
  carrierResets := 0

/-- The CID byte of a block, where there is one. -/
def cidField (pcd : PcdInfo) : List Byte := if pcd.ucCidEn then [pcd.ucCid &&& 0x0F] else []

/-- The NAD byte of a block, where there is one. -/
def nadField (pcd : PcdInfo) : List Byte := if pcd.ucNadEn then [pcd.ucNad &&& 0x0F] else []

/-- The control bit that announces a CID. -/
def cidBit (pcd : PcdInfo) : Byte := if pcd.ucCidEn then CID else 0

/-- The control bit that announces a NAD. -/
def nadBit (pcd : PcdInfo) : Byte := if pcd.ucNadEn then NAD else 0

/-- The control byte of an I-block. -/
def iBlockPcb (pcd : PcdInfo) (chained : Bool) : Byte :=
  (if chained then 0x12 else 0x02) ||| (pcd.ucPcdPcb &&& ISN) ||| cidBit pcd ||| nadBit pcd

/-- `ORG_IBLOCK`. -/
def orgIBlock (command : List Byte) (s : Exchange) : Exchange :=
  let chained := iTxLmt s.pcd < s.iTxNum
  let cn := if chained then iTxLmt s.pcd else s.iTxNum
  let pcb := iBlockPcb s.pcd chained
  { s with
    txBuf := pcb :: (cidField s.pcd ++ nadField s.pcd ++ (command.drop s.src).take cn)
    iTxCn := cn
    iTxNum := s.iTxNum - cn
    src := s.src + cn
    pcd := { s.pcd with ucPcdPcb := pcb }
    step := .orgTraRcv }

/-- `ORG_ACKBLOCK` and `ORG_NACKBLOCK`, an R-block with the given control bits. -/
def orgRBlock (control : Byte) (s : Exchange) : Exchange :=
  { s with
    txBuf := (control ||| (s.pcd.ucPcdPcb &&& 1) ||| cidBit s.pcd) :: cidField s.pcd
    step := .orgTraRcv }

/-- `ORG_SBLOCK`. -/
def orgSBlock (s : Exchange) : Exchange :=
  { s with
    txBuf := [0xF2, BitVec.ofNat 8 (s.uiWtx.toNat % 64)]
    step := .orgTraRcv }

/-- `PcdTransCeive`: the buffer is filled when the reader chip reports no error. -/
def pcdTransCeive (answer : Answer) (s : Exchange) : Exchange :=
  { s with
    iRev := answer.rev
    rxNum := answer.num
    rxBuf := if answer.rev = 0 then
        fun i => if i < min 256 answer.num then answer.data i else s.rxBuf i
      else s.rxBuf
    transceptions := s.transceptions + 1 }

/-- The return codes taken for a transmission error. -/
def commError (rev : Int) : Bool :=
  rev = COMM_PARITY || rev = COMM_CODE || rev = COMM_TIMEOUT || rev = COMM_CRC

/-- The stage after a transmission error. -/
def afterCommError (s : Exchange) : ExcStep :=
  if RETRANSMISSION_LIMITED < s.iErrRetry ∨ RETRANSMISSION_LIMITED < s.iSRetry then .rcvInvBlock
  else if s.pcd.ucPiccPcb &&& CHAINED ≠ 0 then .orgAckBlock
  else .orgNackBlock

/-- A control byte of an I-block. -/
def isIBlock (pcb : Byte) : Bool := pcb &&& 0xE2 = 0x02

/-- A control byte of an R-block. -/
def isRBlock (pcb : Byte) : Bool := pcb &&& 0xE0 = 0xA0

/-- A control byte of an S-block. -/
def isSBlock (pcb : Byte) : Bool := pcb &&& 0xC0 = 0xC0

/-- A control byte that announces a CID or a NAD. -/
def hasAddress (pcb : Byte) : Bool := (CID ||| NAD) &&& pcb ≠ 0

/-- The block received is sorted by its control byte. -/
def sortBlock (s : Exchange) : Exchange :=
  let pcb := s.rxBuf 0
  if isIBlock pcb then
    if pcb &&& 0x2 = 0 ∨ 254 < s.rxNum ∨ hasAddress pcb then { s with step := .rcvInvBlock }
    else { s with iSRetry := 0, step := .rcvIBlock }
  else if isRBlock pcb then
    if hasAddress pcb ∨ 2 < s.rxNum then { s with step := .rcvInvBlock }
    else { s with iSRetry := 0, step := .rcvRBlock }
  else if isSBlock pcb then
    if hasAddress pcb ∨ 2 < s.rxNum then { s with step := .rcvInvBlock }
    else { s with iSRetry := s.iSRetry + 1, step := .rcvSBlock }
  else { s with step := .rcvInvBlock }

/-- The stage after a transmission, by its return code. A code that is neither zero nor a
known error leaves the stage as it is. -/
def afterTransCeive (s : Exchange) : Exchange :=
  if commError s.iRev then { s with step := afterCommError s }
  else
    let s := { s with iErrRetry := 0 }
    if s.iRev = 0 then sortBlock s else s

/-- The waiting time divided back. -/
def restoreFwt (s : Exchange) : Exchange :=
  { s with
    pcd := { s.pcd with uiFwt := s.pcd.uiFwt / s.uiWtx }
    uiWtx := 1 }

/-- `ORG_TRARCV`. The user and the limit leave the stage before the waiting time is
divided back. -/
def orgTraRcv (para : PiccPara) (answer : Answer) (s : Exchange) : Exchange :=
  let s := { s with iErrRetry := s.iErrRetry + 1 }
  if 59 < s.uiWtx then { s with iRev := ERR_PROTOCOL, step := .rcvInvBlock }
  else
    let s := { s with pcd := { s.pcd with uiFwt := s.uiWtx * s.pcd.uiFwt } }
    let s := pcdTransCeive answer s
    if para.userControl ∧ answer.cancelKey then
      { s with iRev := USER_CANCEL, step := .rcvInvBlock }
    else if para.limited ∧ para.waitRetryLimitVal ≤ s.swtLimitCount then
      { s with iRev := COMM_TIMEOUT, step := .rcvInvBlock }
    else restoreFwt (afterTransCeive s)

/-- Bytes of a received block before its information. -/
def prologue (pcb : Byte) : Nat :=
  1 + (if pcb &&& CID ≠ 0 then 1 else 0) + (if pcb &&& NAD ≠ 0 then 1 else 0)

/-- The information of the block received. -/
def information (s : Exchange) : List Byte :=
  let skip := prologue (s.rxBuf 0)
  (List.range (s.rxNum - skip)).map fun i => s.rxBuf (skip + i)

/-- The control byte with the block number toggled. -/
def PcdInfo.toggle (pcd : PcdInfo) : PcdInfo := { pcd with ucPcdPcb := pcd.ucPcdPcb ^^^ ISN }

/-- The block number of the block received is the one in use. -/
def sameNumber (s : Exchange) : Bool := s.pcd.ucPcdPcb &&& ISN = s.rxBuf 0 &&& ISN

/-- `RCV_IBLOCK`. -/
def rcvIBlock (s : Exchange) : Exchange :=
  if s.iTxNum ≠ 0 then { s with step := .rcvInvBlock }
  else if sameNumber s then
    { s with
      pcd := { s.pcd with ucPiccPcb := s.rxBuf 0 }.toggle
      des := s.des ++ information s
      step := if s.rxBuf 0 &&& CHAINED ≠ 0 then .orgAckBlock else .nonEvent }
  else { s with step := .rcvInvBlock }

/-- `RCV_RBLOCK`. -/
def rcvRBlock (s : Exchange) : Exchange :=
  if s.rxBuf 0 &&& 0x10 ≠ 0 then { s with step := .rcvInvBlock }
  else if sameNumber s then
    if s.pcd.ucPcdPcb &&& CHAINED ≠ 0 then
      { s with pcd := s.pcd.toggle, iIRetry := 0, step := .orgIBlock }
    else { s with step := .rcvInvBlock }
  else
    let s := { s with iIRetry := s.iIRetry + 1 }
    if RETRANSMISSION_LIMITED < s.iIRetry then { s with step := .rcvInvBlock }
    else
      { s with
        iTxNum := s.iTxNum + s.iTxCn
        src := s.src - s.iTxCn
        step := .orgIBlock }

/-- The multiplier a waiting time request asks for. -/
def requestedWtx (s : Exchange) : Byte :=
  s.rxBuf (1 + if s.rxBuf 0 &&& CID ≠ 0 then 1 else 0) &&& 0x3F

/-- A waiting time request taken up. -/
def extendWait (s : Exchange) : Exchange :=
  { s with
    swtLimitCount := s.swtLimitCount + 1
    uiWtx := UInt32.ofNat (requestedWtx s).toNat
    step := .orgSBlock }

/-- `RCV_SBLOCK`. -/
def rcvSBlock (s : Exchange) : Exchange :=
  if s.rxBuf 0 &&& 0xF7 ≠ 0xF2 then { s with step := .rcvInvBlock }
  else if requestedWtx s = 0 then { s with step := .rcvInvBlock }
  else extendWait s

/-- `RCV_INVBLOCK`. -/
def rcvInvBlock (s : Exchange) : Exchange :=
  { s with
    iRev := if s.iRev ≠ COMM_TIMEOUT ∧ s.iRev ≠ USER_CANCEL then ERR_PROTOCOL else s.iRev
    step := .nonEvent
    carrierResets := s.carrierResets + 1 }

/-- The body of the loop, one `switch`. -/
def exchangeBody (para : PiccPara) (command : List Byte) (answer : Answer) (s : Exchange) :
    Exchange :=
  match s.step with
  | .orgIBlock => orgIBlock command s
  | .orgAckBlock => orgRBlock 0xA2 s
  | .orgNackBlock => orgRBlock 0xB2 s
  | .orgSBlock => orgSBlock s
  | .orgTraRcv => orgTraRcv para answer s
  | .rcvIBlock => rcvIBlock s
  | .rcvRBlock => rcvRBlock s
  | .rcvSBlock => rcvSBlock s
  | .rcvInvBlock => rcvInvBlock s
  | .nonEvent => s

/-- One round of the loop, with the answer to the next transmission. -/
def exchangeStep (para : PiccPara) (command : List Byte) (answers : Nat → Answer)
    (s : Exchange) : Outcome Exchange :=
  let s := exchangeBody para command (answers s.transceptions) s
  if s.step = .nonEvent then .returned s.iRev s else .running s

/-- `ISO14443_4_HalfDuplexExchange` after a number of rounds. -/
def exchange (para : PiccPara) (pcd : PcdInfo) (command : List Byte) (rxBuf : Nat → Byte)
    (answers : Nat → Answer) : Nat → Outcome Exchange :=
  Outcome.run (exchangeStep para command answers) (.running (startExchange pcd command rxBuf))

/-- No limit and no key. -/
def plainPara : PiccPara where
  userControl := false
  waitRetryLimit := false
  waitRetryLimitVal := 3

/-- A card with frames of 32 bytes, just activated. -/
def freshPcd : PcdInfo where
  ucNadEn := false
  ucNad := 0
  ucCidEn := false
  ucCid := 0
  uiFsc := 32
  uiFwt := 100
  ucPcdPcb := 0x02
  ucPiccPcb := 0x03

/-! ## What the stages do -/

section Bits

theorem iBlockPcb_chained (pcd : PcdInfo) (chained : Bool) :
    iBlockPcb pcd chained &&& CHAINED ≠ 0 ↔ chained = true := by
  have number : ∀ pcb : Byte, ∀ cid nad chained : Bool,
      ((if chained then (0x12 : Byte) else 0x02) ||| (pcb &&& ISN) |||
        (if cid then CID else 0) ||| (if nad then NAD else 0)) &&& CHAINED ≠ 0 ↔
      chained = true := by decide +kernel
  exact number pcd.ucPcdPcb pcd.ucCidEn pcd.ucNadEn chained

theorem toggle_chained (pcd : PcdInfo) : pcd.toggle.ucPcdPcb &&& CHAINED = pcd.ucPcdPcb &&& CHAINED := by
  have bits : ∀ pcb : Byte, (pcb ^^^ ISN) &&& CHAINED = pcb &&& CHAINED := by decide +kernel
  exact bits pcd.ucPcdPcb

theorem isIBlock_plain {pcb : Byte} (sorted : isIBlock pcb = true) (plain : hasAddress pcb ≠ true) :
    pcb = 0x02 ∨ pcb = 0x03 ∨ pcb = 0x12 ∨ pcb = 0x13 := by
  have bits : ∀ pcb : Byte, isIBlock pcb = true → hasAddress pcb ≠ true →
      pcb = 0x02 ∨ pcb = 0x03 ∨ pcb = 0x12 ∨ pcb = 0x13 := by decide +kernel
  exact bits pcb sorted plain

theorem wtx_plain {pcb : Byte} (plain : hasAddress pcb ≠ true) (request : pcb &&& 0xF7 = 0xF2) :
    pcb = 0xF2 := by
  have bits : ∀ pcb : Byte, hasAddress pcb ≠ true → pcb &&& 0xF7 = 0xF2 → pcb = 0xF2 := by
    decide +kernel
  exact bits pcb plain request

theorem requestedWtx_lt (s : Exchange) : (requestedWtx s).toNat < 64 := by
  have bits : ∀ byte : Byte, (byte &&& 0x3F).toNat < 64 := by decide +kernel
  exact bits _

end Bits

/-- How a block that was received is sorted. -/
inductive Sorted (s : Exchange) : Exchange → Prop where
  /-- Refused. -/
  | invalid : Sorted s { s with step := .rcvInvBlock }
  /-- An I-block. -/
  | iBlock (pcb : s.rxBuf 0 = 0x02 ∨ s.rxBuf 0 = 0x03 ∨ s.rxBuf 0 = 0x12 ∨ s.rxBuf 0 = 0x13)
      (num : s.rxNum ≤ 254) : Sorted s { s with iSRetry := 0, step := .rcvIBlock }
  /-- An R-block. -/
  | rBlock (pcb : isRBlock (s.rxBuf 0) = true) (plain : hasAddress (s.rxBuf 0) ≠ true) :
      Sorted s { s with iSRetry := 0, step := .rcvRBlock }
  /-- An S-block. -/
  | sBlock (pcb : isSBlock (s.rxBuf 0) = true) (plain : hasAddress (s.rxBuf 0) ≠ true) :
      Sorted s { s with iSRetry := s.iSRetry + 1, step := .rcvSBlock }

theorem sortBlock_sorted (s : Exchange) : Sorted s (sortBlock s) := by
  unfold sortBlock
  dsimp only
  split
  · next iBlock =>
    split
    · exact .invalid
    · next fine =>
      obtain ⟨-, short, plain⟩ := not_or.mp fine |>.imp id not_or.mp
      exact .iBlock (isIBlock_plain iBlock plain) (not_lt.mp short)
  · split
    · next rBlock =>
      split
      · exact .invalid
      · next fine => exact .rBlock rBlock (not_or.mp fine).1
    · split
      · next sBlock =>
        split
        · exact .invalid
        · next fine => exact .sBlock sBlock (not_or.mp fine).1
      · exact .invalid

/-- The state right after a block was sent and the answer came in. -/
def sent (answer : Answer) (s : Exchange) : Exchange :=
  pcdTransCeive answer
    { s with
      iErrRetry := s.iErrRetry + 1
      pcd := { s.pcd with uiFwt := s.uiWtx * s.pcd.uiFwt } }

/-- The user or the limit on waiting time requests ends the exchange. -/
def Stops (para : PiccPara) (answer : Answer) (s : Exchange) : Prop :=
  para.userControl ∧ answer.cancelKey ∨ para.limited ∧ para.waitRetryLimitVal ≤ s.swtLimitCount

/-- How the stage that transmits ends. -/
inductive TraRcv (para : PiccPara) (answer : Answer) (s : Exchange) : Exchange → Prop where
  /-- The card asked for a longer waiting time than there is. -/
  | protocolError (large : 59 < s.uiWtx) : TraRcv para answer s
      { s with
        iErrRetry := s.iErrRetry + 1
        iRev := ERR_PROTOCOL
        step := .rcvInvBlock }
  /-- It is left with the waiting time still multiplied. -/
  | left (rev : Int) (small : ¬ 59 < s.uiWtx) (stops : Stops para answer s) :
      TraRcv para answer s { sent answer s with iRev := rev, step := .rcvInvBlock }
  /-- A transmission error. -/
  | failed (small : ¬ 59 < s.uiWtx) (goes : ¬ Stops para answer s)
      (error : commError answer.rev = true) : TraRcv para answer s
        (restoreFwt { sent answer s with step := afterCommError (sent answer s) })
  /-- A return code the stage does not look at. -/
  | unknown (small : ¬ 59 < s.uiWtx) (goes : ¬ Stops para answer s)
      (error : commError answer.rev ≠ true) (code : answer.rev ≠ 0) : TraRcv para answer s
        (restoreFwt { sent answer s with iErrRetry := 0 })
  /-- A block. -/
  | block (small : ¬ 59 < s.uiWtx) (goes : ¬ Stops para answer s) (good : answer.rev = 0)
      {after : Exchange} (sorted : Sorted { sent answer s with iErrRetry := 0 } after) :
      TraRcv para answer s (restoreFwt after)

/-- **The stage that transmits** ends in one of these ways. -/
theorem orgTraRcv_spec (para : PiccPara) (answer : Answer) (s : Exchange) :
    TraRcv para answer s (orgTraRcv para answer s) := by
  unfold orgTraRcv
  dsimp only
  split
  · next large => exact .protocolError large
  · next small =>
    split
    · next cancelled => exact .left USER_CANCEL small (.inl cancelled)
    · next goesOn =>
      split
      · next limit => exact .left COMM_TIMEOUT small (.inr limit)
      · next below =>
        have goes : ¬ Stops para answer s := not_or.mpr ⟨goesOn, below⟩
        change TraRcv para answer s (restoreFwt (afterTransCeive (sent answer s)))
        unfold afterTransCeive
        split
        · next error => exact .failed small goes error
        · next error =>
          dsimp only
          split
          · next good => exact .block small goes good (sortBlock_sorted _)
          · next code => exact .unknown small goes error code

end PosFirmware.Contactless
