import PosFirmware.Contactless.Exchange

/-! # Activation of a type A card

`ISO14443_3A_AntiSel` and `ISO14443_3A_Rats` of `iso14443_3a.c`. Each `PcdTransCeive` takes the
next of a sequence of answers, and the answers are whatever a card and the reader chip may give.
-/

namespace PosFirmware.Contactless

def TYPEA_ERR_NUMBER : Int := -51
def TYPEA_ERR_ATQA0 : Int := -52
def TYPEA_ERR_BCC : Int := -54
def TYPEA_ERR_CASCADE_TAG : Int := -55
def TYPEA_ERR_SELECT : Int := -56
def TYPEA_ERR_TL : Int := -58
def TYPEA_ERR_T0 : Int := -59

def A_COMMAND_SEL1 : Byte := 0x93
def A_COMMAND_RATS : Byte := 0xE0
def A_CASCADE_TAG : Byte := 0x88

/-- `ISO14443_A_SELECT_NVB`: the sum binds closer than the shift. -/
def aSelectNvb (x : Nat) : Byte := BitVec.ofNat 8 (((16 + x) / 8) <<< (4 + x % 8))

def TYPEB_FWT_MIN : Nat := 9
def TYPEB_FWT_RATS : Nat := 560
def BAUDRATE_106000 : Nat := 106000
def BAUDRATE_212000 : Nat := 212000
def BAUDRATE_424000 : Nat := 424000
def BAUDRATE_848000 : Nat := 848000
def TYPEA_STANDARD : Nat := 1
def STANDARD_COMPLIANT_A : Nat := 0

/-- The fields of `ST_PCDINFO` that the activation works with. -/
structure TypeAInfo where
  uiPcdBaudrate : Nat
  uiPiccBaudrate : Nat
  uiPcdSupportBaudrate : Nat
  uiPiccSupportBaudrate : Nat
  ucProtocol : Nat
  uiFwt : Nat
  uiSfgt : Nat
  uiFsc : Nat
  ucM1CryptoEn : Bool
  ucEmdEn : Bool
  ucModInvert : Bool
  ucCrcEnable : Bool
  ucNadEn : Bool
  ucCidEn : Bool
  ucPcdPcb : Byte
  ucPiccPcb : Byte
  ucPiccType : Nat
  ucUidLen : Nat
  /-- The bytes stored in `aucUid` so far. -/
  aucUid : List Byte
  /-- The values of SAK stored behind `aucSAK[0]`, which counts them. -/
  aucSAK : List Byte
  /-- The bytes stored in `aucATS`. -/
  aucATS : List Byte

/-- What one `PcdTransCeive` gives: its return code, `uiPcdTxRNum` and `aucPcdTxRBuffer`. -/
structure CardAnswer where
  rev : Int
  num : Nat
  data : Nat → Byte

/-- A buffer after a `PcdTransCeive` that expects a number of bytes. -/
def CardAnswer.fill (answer : CardAnswer) (expected : Nat) (buf : Nat → Byte) : Nat → Byte :=
  if answer.rev = 0 then fun i => if i < min expected answer.num then answer.data i else buf i
  else buf

/-- `ISO14443_3A_CalBcc`. -/
def calBcc (bytes : List Byte) : Byte := bytes.foldl (· ^^^ ·) 0

/-- The fields of `gt_c_para` that the activation works with. -/
structure TypeAPara where
  cardTypeCheckW : Nat
  cardTypeCheckVal : Nat

/-! ## Anticollision -/

/-- The variables of `ISO14443_3A_AntiSel`. -/
structure AntiSel where
  pcd : TypeAInfo
  /-- `aucRxBuf`. -/
  rxBuf : Nat → Byte
  /-- `*pucSak`. -/
  sak : Byte
  /-- `ucCascadeLevel`. -/
  level : Byte
  /-- The frames sent. -/
  sent : List (List Byte)

/-- A function that goes on unless a return code is an error. -/
def thenRun {σ : Type} (first : Int × σ) (next : σ → Int × σ) : Int × σ :=
  if first.1 = 0 then next first.2 else first

/-- `while( iRetrans++ < 3 )`: a frame is sent again after a timeout, and its answer is
accepted or refused. -/
def retrans (answers : Nat → CardAnswer) (frame : AntiSel → List Byte)
    (accept : CardAnswer → AntiSel → Int × AntiSel) : Nat → AntiSel → Int × AntiSel
  | 0, s => (COMM_TIMEOUT, s)
  | tries + 1, s =>
      let answer := answers s.sent.length
      let s := { s with sent := s.sent ++ [frame s] }
      if answer.rev = COMM_TIMEOUT then retrans answers frame accept tries s
      else if answer.rev ≠ 0 then (answer.rev, s)
      else accept answer s

/-- The bytes of `aucRxBuf`. -/
def rxBytes (s : AntiSel) (start n : Nat) : List Byte :=
  (List.range n).map fun i => s.rxBuf (start + i)

/-- The anticollision of a level. -/
def anticollision (answers : Nat → CardAnswer) (s : AntiSel) : Int × AntiSel :=
  retrans answers (fun s => [s.level, aSelectNvb 0])
    (fun answer s =>
      let s := { s with rxBuf := answer.fill 5 s.rxBuf }
      if answer.num ≠ 5 then (TYPEA_ERR_NUMBER, s)
      else if calBcc (rxBytes s 0 5) ≠ 0 then (TYPEA_ERR_BCC, s)
      else (0, s))
    3 { s with pcd := { s.pcd with ucCrcEnable := false } }

/-- The selection of a level by four bytes, whose SAK has to say whether the UID is complete. -/
def select (answers : Nat → CardAnswer) (bytes : AntiSel → List Byte) (last : Bool) (s : AntiSel) :
    Int × AntiSel :=
  retrans answers (fun s => [s.level, aSelectNvb 40] ++ bytes s ++ [calBcc (bytes s)])
    (fun answer s =>
      let s := { s with sak := answer.fill 1 (fun _ => s.sak) 0 }
      if answer.num ≠ 1 then (TYPEA_ERR_NUMBER, s)
      else if decide (s.sak &&& 0x04 ≠ 0) = last then (TYPEA_ERR_SELECT, s)
      else (0, { s with pcd := { s.pcd with aucSAK := s.pcd.aucSAK ++ [s.sak] } }))
    3 { s with pcd := { s.pcd with ucCrcEnable := true } }

/-- A card whose last level starts with a cascade tag is refused. -/
def refusesTag (para : TypeAPara) : Bool :=
  para.cardTypeCheckW = 0 || (para.cardTypeCheckW = 1 && para.cardTypeCheckVal = 0)

/-- The last level: four bytes of the UID. -/
def lastLevel (answers : Nat → CardAnswer) (para : TypeAPara) (s : AntiSel) : Int × AntiSel :=
  if s.rxBuf 0 = A_CASCADE_TAG ∧ refusesTag para then (TYPEA_ERR_SELECT, s)
  else
    select answers (fun s => rxBytes s 0 4) true
      { s with pcd := { s.pcd with aucUid := s.pcd.aucUid ++ rxBytes s 0 4 } }

/-- A level that is not the last: a cascade tag and three bytes of the UID. -/
def innerLevel (answers : Nat → CardAnswer) (s : AntiSel) : Int × AntiSel :=
  if s.rxBuf 0 ≠ A_CASCADE_TAG then (TYPEA_ERR_CASCADE_TAG, s)
  else
    thenRun (select answers (fun s => A_CASCADE_TAG :: rxBytes s 1 3) false
      { s with pcd := { s.pcd with aucUid := s.pcd.aucUid ++ rxBytes s 1 3 } }) fun s =>
        (0, { s with level := s.level + 2 })

/-- `while( iUidNum )`. -/
def cascade (answers : Nat → CardAnswer) (para : TypeAPara) (iUidNum : Nat) (s : AntiSel) :
    Int × AntiSel :=
  if iUidNum = 0 then (0, s)
  else
    thenRun (anticollision answers s) fun s =>
      if iUidNum = 4 then
        thenRun (lastLevel answers para s) (cascade answers para (iUidNum - 4))
      else thenRun (innerLevel answers s) (cascade answers para (iUidNum - 3))
termination_by iUidNum

/-- The device as `ISO14443_3A_AntiSel` sets it up. -/
def antiSelSetUp (pcd : TypeAInfo) : TypeAInfo :=
  { pcd with
    uiPcdBaudrate := BAUDRATE_106000
    uiPiccBaudrate := BAUDRATE_106000
    ucProtocol := TYPEA_STANDARD
    uiFwt := TYPEB_FWT_MIN
    uiSfgt := 53
    uiFsc := 32
    ucM1CryptoEn := false
    ucEmdEn := false
    ucModInvert := false
    aucSAK := [] }

/-- `ISO14443_3A_AntiSel`. -/
def antiSel (answers : Nat → CardAnswer) (para : TypeAPara) (pcd : TypeAInfo) (sak : Byte) :
    Int × AntiSel :=
  let s : AntiSel := ⟨antiSelSetUp pcd, fun _ => 0, sak, A_COMMAND_SEL1, []⟩
  if pcd.ucUidLen ≠ 4 ∧ pcd.ucUidLen ≠ 7 ∧ pcd.ucUidLen ≠ 10 then (TYPEA_ERR_ATQA0, s)
  else
    thenRun (cascade answers para pcd.ucUidLen
      { s with sak := 0, pcd := { s.pcd with aucUid := [] } }) fun s =>
        (0, { s with pcd := { s.pcd with
          ucPiccType := if s.sak &&& 0x20 ≠ 0 then STANDARD_COMPLIANT_A else s.pcd.ucPiccType
          ucEmdEn := true } })

/-! ## The answer to select -/

/-- The interface bytes of an ATS. -/
inductive InterfaceByte where
  | ta1
  | tb1
  | tc1
  deriving DecidableEq

/-- The bit of T0 that announces an interface byte. -/
def InterfaceByte.announcedBy : InterfaceByte → Byte
  | .ta1 => 0x10
  | .tb1 => 0x20
  | .tc1 => 0x40

/-- The baud rate of the last bit set, from the lowest. -/
def baudrate (param : Byte) (masks : Byte × Byte × Byte) (rate : Nat) : Nat :=
  let rate := if param &&& masks.1 ≠ 0 then BAUDRATE_212000 else rate
  let rate := if param &&& masks.2.1 ≠ 0 then BAUDRATE_424000 else rate
  if param &&& masks.2.2 ≠ 0 then BAUDRATE_848000 else rate

/-- TA(1): the speeds that the card supports. -/
def readTa1 (param : Byte) (pcd : TypeAInfo) : TypeAInfo :=
  let pcd := { pcd with
    uiPcdSupportBaudrate := baudrate param (0x01, 0x02, 0x04) pcd.uiPcdSupportBaudrate
    uiPiccSupportBaudrate := baudrate param (0x10, 0x20, 0x40) pcd.uiPiccSupportBaudrate }
  if param &&& 0x80 ≠ 0 then { pcd with uiPcdSupportBaudrate := pcd.uiPiccSupportBaudrate }
  else pcd

/-- TB(1): the waiting time of frames, and the guard time. -/
def readTb1 (param : Byte) (pcd : TypeAInfo) : TypeAInfo :=
  let fwi := 2 ^ ((param &&& 0xF0) >>> 4).toNat
  let sfgi := 2 ^ (param &&& 0x0F).toNat
  { pcd with
    uiFwt := 32 * fwi + 3 * fwi + 34
    uiSfgt := if 0 < (param &&& 0x0F).toNat then 32 * sfgi + 3 * sfgi else pcd.uiSfgt }

/-- TC(1): what a block may carry. -/
def readTc1 (param : Byte) (pcd : TypeAInfo) : TypeAInfo :=
  { pcd with
    ucNadEn := pcd.ucNadEn || param &&& 0x01 ≠ 0
    ucCidEn := pcd.ucCidEn || param &&& 0x02 ≠ 0 }

def InterfaceByte.read : InterfaceByte → Byte → TypeAInfo → TypeAInfo
  | .ta1 => readTa1
  | .tb1 => readTb1
  | .tc1 => readTc1

/-- The variables of the parser: `ucpParam` as an offset into the ATS, and the offset at which
each interface byte was read. -/
structure AtsParser where
  pcd : TypeAInfo
  param : Nat
  interpreted : List (InterfaceByte × Nat)

/-- One interface byte, if T0 announces it. -/
def parseInterface (ats : Nat → Byte) (byte : InterfaceByte) (s : AtsParser) : AtsParser :=
  if ats 1 &&& byte.announcedBy ≠ 0 then
    ⟨byte.read (ats s.param) s.pcd, s.param + 1, s.interpreted ++ [(byte, s.param)]⟩
  else s

/-- The device as `ISO14443_3A_Rats` sets it up. -/
def ratsSetUp (pcd : TypeAInfo) : TypeAInfo :=
  { pcd with
    ucProtocol := TYPEA_STANDARD
    uiFwt := TYPEB_FWT_RATS
    uiSfgt := 60
    uiFsc := 32
    ucM1CryptoEn := false
    ucCrcEnable := true
    aucATS := []
    ucModInvert := false
    ucPcdPcb := 0x02
    ucPiccPcb := 0x03 }

/-- `ISO14443_3A_Rats` with the answer of the card to `[0xE0, 0x80]`, which is put into a buffer
that may hold anything. -/
def rats (answer : CardAnswer) (pcd : TypeAInfo) (buf : Nat → Byte) : Int × AtsParser :=
  let ats := answer.fill 254 buf
  let s : AtsParser := ⟨ratsSetUp pcd, 2, []⟩
  if answer.rev ≠ 0 then (answer.rev, s)
  else if (ats 0).toNat ≠ answer.num then (TYPEA_ERR_NUMBER, s)
  else if 254 < (ats 0).toNat then (TYPEA_ERR_TL, s)
  else
    let s := { s with pcd := { s.pcd with aucATS := (List.range (ats 0).toNat).map ats } }
    if 1 < (ats 0).toNat ∧ ats 1 &&& 0x80 ≠ 0 then (TYPEA_ERR_T0, s)
    else
      let s :=
        if 1 < (ats 0).toNat then
          parseInterface ats .tc1 (parseInterface ats .tb1 (parseInterface ats .ta1
            { s with pcd := { s.pcd with uiFsc := getMaxFrameSize (ats 1 &&& 0x0F).toNat } }))
        else s
      (0, { s with pcd := { s.pcd with uiSfgt := 60 } })

end PosFirmware.Contactless
