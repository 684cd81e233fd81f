import PosFirmware.Icc.Queue

/-! # Blocks of T=1

The block of `icc_core.h`, its bits, how an I-block is packed, and
`emv_t1_block_recv`, which reads a block and checks it. What the hardware
receives between two transmissions is a queue of receptions.
-/

namespace PosFirmware.Icc

/-! ## Bits -/

def IMR_BIT : Nat := 5
def ISN_BIT : Nat := 6
def RSN_BIT : Nat := 4
def SRS_BIT : Nat := 5

def setBit (x : Byte) (y : Nat) : Byte := x ||| 1#8 <<< y
def clrBit (x : Byte) (y : Nat) : Byte := x &&& ~~~(1#8 <<< y)
def tstBit (x : Byte) (y : Nat) : Bool := x.getLsbD y

def isnInc (x : Byte) : Byte := x ^^^ 1#8 <<< ISN_BIT
def isnDec (x : Byte) : Byte := isnInc x
def isnRsn (x : Byte) : Byte := (x &&& 1#8 <<< ISN_BIT) >>> 2
def cmpIrsnEqu (i r : Byte) : Bool := isnRsn i == r &&& 1#8 <<< RSN_BIT

/-! ## Blocks -/

/-- `struct emv_t1_block`. -/
structure T1Block where
  nad : Byte
  pcb : Byte
  len : Byte
  data : Nat → Byte
  lrc : Byte

/-- The block after `memset`. -/
def T1Block.zero : T1Block := ⟨0, 0, 0, fun _ => 0, 0⟩

/-- The information field. -/
def T1Block.info (block : T1Block) : List Byte := (List.range block.len.toNat).map block.data

@[simp] theorem T1Block.info_length (block : T1Block) : block.info.length = block.len.toNat := by
  simp [T1Block.info]

/-- `emv_t1_compute_lrc`. -/
def emvT1ComputeLrc (block : T1Block) : T1Block :=
  { block with lrc := block.info.foldl (· ^^^ ·) (block.nad ^^^ block.pcb ^^^ block.len) }

/-- The bytes of a block in the order in which they are transmitted. -/
def T1Block.frame (block : T1Block) : List Byte :=
  [block.nad, block.pcb, block.len] ++ block.info ++ [block.lrc]

/-- What the exchange uses of `struct emv_core`. -/
structure EmvCore where
  emvCardIfs : Nat
  emvCardNad : Byte
  emvRepeat : Nat
  terminalIpcb : Byte
  terminalPcb : Byte
  emvCardIpcb : Byte
  emvCardPcb : Byte
  terminalBwt : Nat
  terminalOpen : Bool

/-- A terminal ready for the first exchange with a card. -/
def freshCore : EmvCore := ⟨32, 0, 0, 0, 0, 0, 0, 971, true⟩

/-- `sci_emv_hard_power_dump`. -/
def EmvCore.powerDump (terminal : EmvCore) : EmvCore := { terminal with terminalOpen := false }

/-- `emv_t1_extract`: the command as the bytes of its I-blocks. -/
def emvT1Extract (req : ApduReq) : List Byte :=
  let lc : Byte := BitVec.ofNat 8 (req.lc % 256)
  let le : Byte := if req.le > 255 then 0 else BitVec.ofNat 8 (req.le % 256)
  let data := (List.range lc.toNat).map req.data
  let header := List.ofFn req.cmd
  match emvTellCase req with
  | 2 => header ++ [le]
  | 3 => header ++ [lc] ++ data
  | 4 => header ++ [lc] ++ data ++ [le]
  | _ => header

/-- `emv_t1_iblock_pack`: the next bytes of the command as an I-block. -/
def emvT1IblockPack (terminal : EmvCore) (buf : List Byte) (block : T1Block) :
    EmvCore × T1Block :=
  let more := buf.length > terminal.emvCardIfs
  let pcb := if more then setBit terminal.terminalIpcb IMR_BIT
    else clrBit terminal.terminalIpcb IMR_BIT
  let len : Byte := BitVec.ofNat 8 (if more then terminal.emvCardIfs else buf.length)
  ({ terminal with terminalIpcb := isnInc pcb },
    { block with
      nad := terminal.emvCardNad
      pcb := pcb
      len := len
      data := storeBytes block.data 0 (buf.take len.toNat) })

/-- The checks of `emv_t1_block_recv` on a block whose epilogue is right. -/
def emvT1BlockCheck (terminal : EmvCore) (block : T1Block) : Int :=
  if block.nad ≠ 0 then ICC_ERR_T1_NAD
  else if !tstBit block.pcb 7 then
    if block.len.toNat > 254 then ICC_ERR_T1_LEN
    else if tstBit terminal.terminalIpcb IMR_BIT then ICC_ERR_T1_PCB
    else if tstBit terminal.emvCardIpcb ISN_BIT ≠ tstBit block.pcb ISN_BIT then ICC_ERR_T1_PCB
    else 0
  else if !tstBit block.pcb 6 then
    if block.len ≠ 0 then ICC_ERR_T1_LEN
    else if tstBit block.pcb 5 then ICC_ERR_T1_PCB
    else 0
  else if terminal.terminalPcb &&& 0xC0 ≠ 0xC0 ∧ tstBit block.pcb 5 then ICC_ERR_T1_PCB
  else if (block.pcb &&& 0x1F).toNat > 4 then ICC_ERR_T1_SRC
  else if block.pcb = 0xC1 ∧ ((block.data 0).toNat < 0x10 ∨ (block.data 0).toNat > 0xFE) then
    ICC_ERR_T1_SRL
  else if block.pcb = 0xC2 then ICC_ERR_T1_SRA
  else if block.len ≠ 1 then ICC_ERR_T1_LEN
  else 0

/-- Whether a result of `sci_queue_spill` ends `emv_t1_block_recv` at once. -/
def endsRecv (commState : Int) : Bool := commState ≠ 0 && commState ≠ ICC_ERR_PARS

/-- The record of a parity error that does not end `emv_t1_block_recv`. -/
def keepParity (state commState : Int) : Int :=
  if commState = ICC_ERR_PARS then ICC_ERR_PARS else state

/-- The end of `emv_t1_block_recv`: the epilogue of the block and the checks. -/
def recvEpilogue (terminal : EmvCore) (queue : Nat → Reception) (block : T1Block) (state : Int)
    (rxout : Nat) : Int × T1Block × EmvCore :=
  let lrc := sciQueueSpill 1 queue 1 rxout
  if endsRecv lrc.result then (lrc.result, block, terminal)
  else
    let block := emvT1ComputeLrc block
    let code :=
      if lrc.bytes.headD 0 ^^^ block.lrc ≠ 0 then ICC_ERR_T1_LRC
      else if keepParity state lrc.result = ICC_ERR_PARS then ICC_ERR_PARS
      else emvT1BlockCheck terminal block
    (code, block, terminal)

/-- The middle of `emv_t1_block_recv`: the information field. -/
def recvInfo (terminal : EmvCore) (queue : Nat → Reception) (block : T1Block) (state : Int)
    (rxout : Nat) : Int × T1Block × EmvCore :=
  let info := sciQueueSpill 1 queue block.len.toNat rxout
  let block := { block with data := storeBytes block.data 0 info.bytes }
  if endsRecv info.result then (info.result, block, terminal)
  else recvEpilogue terminal queue block (keepParity state info.result) info.rxout

/-- The length of a block and what follows it. -/
def recvLen (terminal : EmvCore) (queue : Nat → Reception) (block : T1Block) (state : Int)
    (rxout : Nat) : Int × T1Block × EmvCore :=
  let len := sciQueueSpill 1 queue 1 rxout
  let block := { block with len := len.bytes.headD 0 }
  if len.result = ICC_ERR_PARS then
    let rest := sciQueueSpill 1 queue 256 len.rxout
    (len.result, { block with data := storeBytes block.data 0 rest.bytes }, terminal)
  else if len.result ≠ 0 then (len.result, block, terminal)
  else recvInfo terminal queue block state len.rxout

/-- The control byte of a block and what follows it. -/
def recvPcb (terminal : EmvCore) (queue : Nat → Reception) (block : T1Block) (state : Int)
    (rxout : Nat) : Int × T1Block × EmvCore :=
  let pcb := sciQueueSpill 1 queue 1 rxout
  let block := { block with pcb := pcb.bytes.headD 0 }
  if endsRecv pcb.result then (pcb.result, block, terminal)
  else
    recvLen { terminal with emvCardPcb := block.pcb } queue block (keepParity state pcb.result)
      pcb.rxout

/-- `emv_t1_block_recv`: its result, the block, and the terminal. -/
def emvT1BlockRecv (terminal : EmvCore) (queue : Nat → Reception) : Int × T1Block × EmvCore :=
  let nad := sciQueueSpill 1 queue 1 0
  let block := { T1Block.zero with nad := nad.bytes.headD 0 }
  if endsRecv nad.result then (nad.result, block, terminal)
  else recvPcb terminal queue block (keepParity 0 nad.result) nad.rxout

/-! ## What receiving leaves -/

theorem endsRecv_ne_zero {commState : Int} (ends : endsRecv commState = true) :
    commState ≠ 0 := by
  rintro rfl
  exact absurd ends (by decide)

/-- What a received block and its result have in common, whatever was received: the
terminal is as before but for the record of the card's block, and a block without
an error passed the checks. -/
def RecvSound (terminal : EmvCore) (received : Int × T1Block × EmvCore) : Prop :=
  (∃ pcb, received.2.2 = { terminal with emvCardPcb := pcb }) ∧
    (received.1 = 0 → emvT1BlockCheck received.2.2 received.2.1 = 0)

variable {terminal : EmvCore} {queue : Nat → Reception} {block : T1Block} {state : Int}
  {rxout : Nat}

theorem recvSound_of_ne {code : Int} (failed : code ≠ 0) :
    RecvSound terminal (code, block, terminal) :=
  ⟨⟨terminal.emvCardPcb, rfl⟩, fun ok => absurd ok failed⟩

theorem recvEpilogue_sound : RecvSound terminal (recvEpilogue terminal queue block state rxout) := by
  unfold recvEpilogue
  dsimp only
  split
  · next ends => exact recvSound_of_ne (endsRecv_ne_zero ends)
  · split
    · exact recvSound_of_ne (by decide)
    · split
      · exact recvSound_of_ne (by decide)
      · exact ⟨⟨terminal.emvCardPcb, rfl⟩, id⟩

theorem recvInfo_sound : RecvSound terminal (recvInfo terminal queue block state rxout) := by
  unfold recvInfo
  dsimp only
  split
  · next ends => exact recvSound_of_ne (endsRecv_ne_zero ends)
  · exact recvEpilogue_sound

theorem recvLen_sound : RecvSound terminal (recvLen terminal queue block state rxout) := by
  unfold recvLen
  dsimp only
  split
  · next parity =>
    refine recvSound_of_ne ?_
    rw [parity]
    decide
  · split
    · next failed => exact recvSound_of_ne failed
    · exact recvInfo_sound

theorem recvPcb_sound : RecvSound terminal (recvPcb terminal queue block state rxout) := by
  unfold recvPcb
  dsimp only
  split
  · next ends => exact recvSound_of_ne (endsRecv_ne_zero ends)
  · obtain ⟨⟨pcb, terminalEq⟩, checked⟩ := @recvLen_sound
      { terminal with emvCardPcb := (sciQueueSpill 1 queue 1 rxout).bytes.headD 0 } queue
      { block with pcb := (sciQueueSpill 1 queue 1 rxout).bytes.headD 0 }
      (keepParity state (sciQueueSpill 1 queue 1 rxout).result)
      (sciQueueSpill 1 queue 1 rxout).rxout
    exact ⟨⟨pcb, terminalEq⟩, checked⟩

theorem emvT1BlockRecv_sound (terminal : EmvCore) (queue : Nat → Reception) :
    RecvSound terminal (emvT1BlockRecv terminal queue) := by
  unfold emvT1BlockRecv
  dsimp only
  split
  · next ends => exact recvSound_of_ne (endsRecv_ne_zero ends)
  · exact recvPcb_sound

end PosFirmware.Icc

/-! ## Blocks that arrive intact

The bytes of a block, received without an error, give the block back
(`emvT1BlockRecv_frame`), so the result of receiving it is that of its checks.
-/

namespace PosFirmware.Icc

variable {bytes : List Byte} {block : T1Block} {terminal : EmvCore}

theorem spillLoop_queueOf (ptype left rxout : Nat) (inside : rxout + left ≤ bytes.length) :
    spillLoop ptype (queueOf bytes) left 0 rxout =
      ⟨(bytes.drop rxout).take left, 0, rxout + left⟩ := by
  induction left generalizing rxout with
  | zero => simp [spillLoop]
  | succ left past =>
    have here : rxout < bytes.length := by omega
    have received : queueOf bytes rxout = .byte bytes[rxout] := by
      rw [queueOf, List.getElem?_eq_getElem here]
    rw [spillLoop, received]
    dsimp only
    rw [past (rxout + 1) (by omega), Spill.store, List.drop_eq_getElem_cons here,
      List.take_succ_cons, Nat.add_right_comm, Nat.add_assoc]

theorem sciQueueSpill_queueOf {ptype length rxout : Nat} (inside : rxout + length ≤ bytes.length) :
    sciQueueSpill ptype (queueOf bytes) length rxout =
      ⟨(bytes.drop rxout).take length, 0, rxout + length⟩ :=
  spillLoop_queueOf ptype length rxout inside

/-- The block that the terminal makes of the bytes of a block. -/
def T1Block.received (block : T1Block) : T1Block :=
  emvT1ComputeLrc { block with data := storeBytes (fun _ => 0) 0 block.info, lrc := 0 }

theorem T1Block.info_of_stored {data : Nat → Byte} (length : block.len.toNat = bytes.length)
    (stored : block.data = storeBytes data 0 bytes) : block.info = bytes := by
  refine List.ext_getElem? fun i => ?_
  by_cases inside : i < bytes.length
  · have value := (@storeBytes_inside data 0 i bytes) inside
    rw [Nat.zero_add, ← stored] at value
    rw [value]
    simp [T1Block.info, length, inside]
  · rw [List.getElem?_eq_none (by rw [T1Block.info_length]; omega),
      List.getElem?_eq_none (by omega)]

@[simp] theorem T1Block.received_info (block : T1Block) : block.received.info = block.info :=
  T1Block.info_of_stored (T1Block.info_length block).symm rfl

/-- The transmitted form of a block. -/
def T1Block.transmitted (block : T1Block) : List Byte := (emvT1ComputeLrc block).frame

theorem T1Block.transmitted_eq (block : T1Block) :
    block.transmitted = block.nad :: block.pcb :: block.len ::
      (block.info ++ [(emvT1ComputeLrc block).lrc]) := rfl

theorem T1Block.transmitted_length (block : T1Block) :
    block.transmitted.length = block.len.toNat + 4 := by
  simp [T1Block.transmitted_eq]

@[simp] theorem T1Block.received_lrc (block : T1Block) :
    block.received.lrc = (emvT1ComputeLrc block).lrc := by
  show block.received.info.foldl _ _ = _
  rw [T1Block.received_info]
  rfl

/-- **A block that arrives intact.** Receiving it ends with the result of the checks. -/
theorem emvT1BlockRecv_frame (terminal : EmvCore) (block : T1Block) :
    emvT1BlockRecv terminal (queueOf block.transmitted) =
      (emvT1BlockCheck { terminal with emvCardPcb := block.pcb } block.received, block.received,
        { terminal with emvCardPcb := block.pcb }) := by
  have length := block.transmitted_length
  have nad : sciQueueSpill 1 (queueOf block.transmitted) 1 0 = ⟨[block.nad], 0, 1⟩ := by
    rw [sciQueueSpill_queueOf (by omega)]
    rfl
  have pcb : sciQueueSpill 1 (queueOf block.transmitted) 1 1 = ⟨[block.pcb], 0, 2⟩ := by
    rw [sciQueueSpill_queueOf (by omega)]
    rfl
  have len : sciQueueSpill 1 (queueOf block.transmitted) 1 2 = ⟨[block.len], 0, 3⟩ := by
    rw [sciQueueSpill_queueOf (by omega)]
    rfl
  have info : sciQueueSpill 1 (queueOf block.transmitted) block.len.toNat 3 =
      ⟨block.info, 0, 3 + block.len.toNat⟩ := by
    rw [sciQueueSpill_queueOf (by omega)]
    simp [T1Block.transmitted_eq]
  have lrc : sciQueueSpill 1 (queueOf block.transmitted) 1 (3 + block.len.toNat) =
      ⟨[block.received.lrc], 0, 3 + block.len.toNat + 1⟩ := by
    rw [sciQueueSpill_queueOf (by omega), T1Block.received_lrc]
    congr 1
    rw [T1Block.transmitted_eq, Nat.add_comm 3]
    simp
  have noParity : keepParity 0 0 = 0 := by decide
  have noEnd : endsRecv 0 = false := by decide
  unfold emvT1BlockRecv
  rw [nad]
  dsimp only [List.headD_cons]
  rw [noEnd, noParity, if_neg Bool.false_ne_true, recvPcb, pcb]
  dsimp only [List.headD_cons]
  rw [noEnd, noParity, if_neg Bool.false_ne_true, recvLen, len]
  dsimp only [List.headD_cons]
  rw [if_neg (by decide), if_neg (not_not.mpr rfl), recvInfo, info]
  dsimp only
  rw [noEnd, noParity, if_neg Bool.false_ne_true, recvEpilogue, lrc]
  dsimp only [List.headD_cons]
  rw [noEnd, noParity, if_neg Bool.false_ne_true]
  have same : block.received.lrc ^^^ block.received.lrc = 0 := BitVec.xor_self
  change ((if block.received.lrc ^^^ block.received.lrc ≠ 0 then ICC_ERR_T1_LRC
    else if (0 : Int) = ICC_ERR_PARS then ICC_ERR_PARS
    else emvT1BlockCheck { terminal with emvCardPcb := block.pcb } block.received),
    block.received, { terminal with emvCardPcb := block.pcb }) = _
  rw [if_neg (not_not.mpr same), if_neg (by decide)]

theorem emvT1BlockRecv_valid {terminal : EmvCore} {block : T1Block}
    (checked : ∀ pcb, emvT1BlockCheck { terminal with emvCardPcb := pcb } block.received = 0) :
    emvT1BlockRecv terminal (queueOf block.transmitted) =
      (0, block.received, { terminal with emvCardPcb := block.pcb }) := by
  rw [emvT1BlockRecv_frame, checked]

end PosFirmware.Icc
