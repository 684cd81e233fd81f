import Mathlib.Logic.Function.Basic

/-!
# The V.80 transparency codes

`pack_sdlc_v80` and `step_rcv_v80_cmd` of `modem.c`. A frame is sent with its special bytes
replaced by codes of two bytes, alone or in pairs, and ends with the code of a valid frame. The
receiver is a coroutine that undoes the codes in place.
-/

namespace PosFirmware.Modem

abbrev Byte := BitVec 8
abbrev Buffer := Nat → Byte

def FRAME_SIZE : Nat := 2060
def DATA_SIZE : Nat := 2048
def ERR_SDLC_TX_UNDERRUN : Nat := 10
def ERR_SDLC_TX_OVERRUN : Nat := 11
def ERR_SDLC_RX_OVERRUN : Nat := 12

/-- The size of `ci_pool` and `sdlc_tx_pool`. -/
def POOL_SIZE : Nat := FRAME_SIZE * 3

/-! ## Packing -/

/-- `single_esc`. -/
def singleEsc : List Byte := [0x5c, 0x76, 0xa0, 0xa1]

/-- `pair_esc`. -/
def pairEsc : List Byte :=
  [0x5d, 0x77, 0xa2, 0xa3, 0xa4, 0xa5, 0xa6, 0xa7, 0xa8, 0xa9, 0xaa, 0xab, 0xac, 0xad, 0xae, 0xaf]

/-- The switch over two bytes. -/
def pairMask (data next : Byte) : Nat :=
  if data = 0x19 then
    if next = 0x19 then 0 else if next = 0x99 then 4 else if next = 0x11 then 5
    else if next = 0x13 then 6 else 16
  else if data = 0x99 then
    if next = 0x19 then 7 else if next = 0x99 then 1 else if next = 0x11 then 8
    else if next = 0x13 then 9 else 16
  else if data = 0x11 then
    if next = 0x11 then 2 else if next = 0x19 then 10 else if next = 0x99 then 11
    else if next = 0x13 then 12 else 16
  else if data = 0x13 then
    if next = 0x13 then 3 else if next = 0x19 then 13 else if next = 0x99 then 14
    else if next = 0x11 then 15 else 16
  else 16

/-- The switch over one byte. -/
def singleMask (data : Byte) : Nat :=
  if data = 0x19 then 0 else if data = 0x99 then 1 else if data = 0x11 then 2
  else if data = 0x13 then 3 else 4

/-- What is written for one byte. -/
def packSingle (data : Byte) : List Byte :=
  if singleMask data < 4 then [0x19, singleEsc.getD (singleMask data) 0] else [data]

/-- The loop of `pack_sdlc_v80` over `xpool`. -/
def packBytes : List Byte → List Byte
  | [] => []
  | [data] => packSingle data
  | data :: next :: rest =>
    if pairMask data next < 16 then
      [0x19, pairEsc.getD (pairMask data next) 0] ++ packBytes rest
    else packSingle data ++ packBytes (next :: rest)

/-- What `pack_sdlc_v80` copies to `xpool`. -/
def xpool (frameAddress ctrl : Byte) (inData : List Byte) : List Byte :=
  frameAddress :: ctrl :: inData.take (FRAME_SIZE - 2)

/-- `pack_sdlc_v80`: what it writes to its pool from the start. -/
def packSdlcV80 (frameAddress ctrl : Byte) (inData : List Byte) : List Byte :=
  packBytes (xpool frameAddress ctrl inData) ++ [0x19, 0xb1]

/-! ## Receiving -/

/-- The variables of `step_rcv_v80_cmd`, its pools, its task variable and its timer. -/
structure Rcv where
  taskP2 : Nat
  i : Nat
  emFound : Bool
  huntFlag : Bool
  wantDlen : Nat
  aborts : Nat
  timeout : Nat
  cmdType : Byte
  tm02Remains : Nat
  ciPool : Buffer
  framePool : Buffer
  dlen : Nat

/-- A byte is written to `ci_pool`, which has no place outside. -/
def Rcv.writePool (s : Rcv) (i : Nat) (data : Byte) : Option Rcv :=
  if i < POOL_SIZE then some { s with ciPool := Function.update s.ciPool i data } else none

/-- The timeout of a receiver. -/
def rcvTimeout (longWait isHalfDuplex : Bool) : Nat :=
  if longWait then if isHalfDuplex then 100 else 400 else 84

/-- `STEP0`. -/
def Rcv.start (s : Rcv) (longWait isHalfDuplex : Bool) : Rcv :=
  { s with
    i := 0, emFound := false, huntFlag := false, wantDlen := 10000, aborts := 0
    timeout := rcvTimeout longWait isHalfDuplex, dlen := 0, cmdType := 0
    tm02Remains := rcvTimeout longWait isHalfDuplex }

/-- The codes that stand for one byte or two. -/
def codes : List (Byte × List Byte) :=
  [ (0xa0, [0x11]), (0xa1, [0x13]), (0x5c, [0x19]), (0x76, [0x99]),
    (0x5d, [0x19, 0x19]), (0x77, [0x99, 0x99]), (0xa2, [0x11, 0x11]), (0xa3, [0x13, 0x13]),
    (0xa4, [0x19, 0x99]), (0xa5, [0x19, 0x11]), (0xa6, [0x19, 0x13]), (0xa7, [0x99, 0x19]),
    (0xa8, [0x99, 0x11]), (0xa9, [0x99, 0x13]), (0xaa, [0x11, 0x19]), (0xab, [0x11, 0x99]),
    (0xac, [0x11, 0x13]), (0xad, [0x13, 0x19]), (0xae, [0x13, 0x99]), (0xaf, [0x13, 0x11]) ]

/-- A code is replaced by what it stands for. -/
def Rcv.undo (s : Rcv) (data : List Byte) : Option Rcv :=
  let i := if 2 < s.i then s.i - 2 else s.i
  data.foldlM (fun s data => (s.writePool s.i data).map fun s => { s with i := s.i + 1 })
    { s with i := i, emFound := false }

/-- Where the body of the loop goes on: the rest of the body, or `R_END` with a response. -/
inductive Turn where
  | next (s : Rcv)
  | finish (s : Rcv) (resp : Nat)

/-- A valid frame ends. -/
def Rcv.validFrame (s : Rcv) : Rcv :=
  let i := if 2 ≤ s.i then s.i - 2 else s.i
  let s := { s with cmdType := 0xb1, i := i, emFound := false }
  if i = 1 ∧ s.ciPool 0 = 0xff ∨ 2 ≤ i ∧ s.ciPool 0 = 0xff ∧ s.ciPool 1 = 0xff then { s with i := 0 }
  else if i = 0 then { s with wantDlen := 10000 }
  else { s with wantDlen := i }

/-- The switch over the byte behind `0x19`. -/
def Rcv.command (s : Rcv) (cc : Byte) : Option Turn :=
  if cc = 0xbe then
    some (.next { s with cmdType := cc, i := 0, wantDlen := 2, emFound := false })
  else if cc = 0xb0 then
    let s := { s with aborts := s.aborts + 1, emFound := false, i := 0 }
    some (if 6 ≤ s.aborts then .finish s 100 else .next s)
  else if cc = 0xb4 then some (.finish s ERR_SDLC_TX_UNDERRUN)
  else if cc = 0xb5 then some (.finish s ERR_SDLC_TX_OVERRUN)
  else if cc = 0xb6 then some (.finish s ERR_SDLC_RX_OVERRUN)
  else if cc = 0xb2 then
    some (.next { s with cmdType := cc, i := 0, emFound := false, huntFlag := true })
  else if cc = 0xb1 then some (.next s.validFrame)
  else
    match codes.lookup cc with
    | some data => (s.undo data).map .next
    | none =>
      if cc = 0xba then some (.finish { s with i := 0, emFound := false } 1)
      else if cc = 0xbd then some (.next { s with i := 0, emFound := false })
      else some (.finish s 20)

/-- The end of the body of the loop. -/
def Rcv.check (s : Rcv) (cc : Byte) : Turn :=
  let s := { s with emFound := s.emFound || cc = 0x19 }
  if s.wantDlen ≤ s.i then .finish s (if s.i < FRAME_SIZE then 0 else 3)
  else if DATA_SIZE + 3 < s.i then .finish s 5
  else .next { s with tm02Remains := s.timeout }

/-- The body of the loop for a byte that was received. -/
def Rcv.receive (s : Rcv) (cc : Byte) : Option Turn := do
  let s ← s.writePool s.i cc
  let s := { s with i := s.i + 1 }
  if s.emFound then
    match ← s.command cc with
    | .next s => some (s.check cc)
    | .finish s resp => some (.finish s resp)
  else some (s.check cc)

/-- `R_END`. The frame and its command have to fit into `frame_pool`. -/
def Rcv.rEnd (s : Rcv) (resp : Nat) : Option (Nat × Rcv) :=
  if s.i < FRAME_SIZE then
    some (resp, { s with
      dlen := s.i
      framePool := Function.update (fun j => if j < s.i then s.ciPool j else s.framePool j) s.i
        s.cmdType
      taskP2 := 0 })
  else none

/-- The loop, while there are bytes to receive. The bytes that are left stay in the port. -/
def Rcv.loop : Rcv → List Byte → Option ((Nat × Rcv) × List Byte)
  | s, [] =>
    if s.tm02Remains = 0 then (s.rEnd 6).map (·, []) else some ((0, { s with taskP2 := 1 }), [])
  | s, cc :: rest => do
    match ← s.receive cc with
    | .next s => s.loop rest
    | .finish s resp => (s.rEnd resp).map (·, rest)

/-- `step_rcv_v80_cmd` when these bytes can be received. -/
def stepRcvV80Cmd (longWait isHalfDuplex : Bool) (s : Rcv) (bytes : List Byte) :
    Option ((Nat × Rcv) × List Byte) :=
  if s.taskP2 = 1 then s.loop bytes else (s.start longWait isHalfDuplex).loop bytes

/-- Some ticks of the timer. -/
def Rcv.elapse (s : Rcv) (ticks : Nat) : Rcv := { s with tm02Remains := s.tm02Remains - ticks }

end PosFirmware.Modem
