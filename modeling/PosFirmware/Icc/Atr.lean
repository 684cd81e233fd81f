import PosFirmware.Foundation.Loop
import PosFirmware.Icc.T1Block

/-!
# The answer to reset

`sci_emv_atr_analyser` of `icc_core.c`. It reads the bytes that a card sends after a reset one
after the other, stores them in the buffer of its caller and sorts the interface bytes into the
arrays of `struct emv_atr`. A write outside of an array returns `fault`, which the function itself
never does.
-/

namespace PosFirmware.Icc

open PosFirmware.Foundation

def CONV_CH : Byte := 0x3B
def INCONV_CH : Byte := 0x3F
def ICC_ERR_ATR_SWT : Int := -2820
def ICC_ERR_ATR_CWT : Int := -2822
def ICC_ERR_ATR_TS : Int := -2823
def ICC_ERR_ATR_TCK : Int := -2835

/-- The code of a run that wrote outside of an array. -/
def ATR_FAULT : Int := 1

/-- The length of the arrays of interface bytes, and of `hbytes`. -/
def ATR_GROUPS : Nat := 8
def ATR_HBYTES : Nat := 15

/-- `struct emv_atr`. -/
structure EmvAtr where
  ts : Byte
  t0 : Byte
  taFlag : Byte
  tbFlag : Byte
  tcFlag : Byte
  tdFlag : Byte
  ta : Nat → Byte
  tb : Nat → Byte
  tc : Nat → Byte
  td : Nat → Byte
  hbytes : List Byte

/-- A structure of zeros. -/
def EmvAtr.blank : EmvAtr where
  ts := 0
  t0 := 0
  taFlag := 0
  tbFlag := 0
  tcFlag := 0
  tdFlag := 0
  ta _ := 0
  tb _ := 0
  tc _ := 0
  td _ := 0
  hbytes := []

/-- The variables of the function. `atr` are the bytes stored up to `patr`. -/
structure AtrState where
  su : EmvAtr
  atr : List Byte
  flag : Byte
  i : Nat
  tckCond : Byte
  terminalConv : Nat
  rxout : Nat

/-- `sci_queue_spill` after a reset. -/
def atrSpill (ptype : Nat) (queue : Nat → Reception) (length rxout : Nat) : Spill :=
  let spill := sciQueueSpill ptype queue length rxout
  { spill with
    result := if spill.result = 0 ∨ spill.result = ICC_ERR_PARS then spill.result
      else if spill.rxout = 0 then ICC_ERR_ATR_SWT else ICC_ERR_ATR_CWT }

/-- Bytes stored at `patr` of a buffer of a number of bytes. -/
def AtrState.push (size : Nat) (bytes : List Byte) (s : AtrState) : Option AtrState :=
  if s.atr.length + bytes.length ≤ size then some { s with atr := s.atr ++ bytes } else none

/-- A byte stored in an array of interface bytes. -/
def storeInterface (array : Nat → Byte) (i : Nat) (ch : Byte) : Option (Nat → Byte) :=
  if i < ATR_GROUPS then some (Function.update array i ch) else none

/-- An interface byte. -/
def AtrState.store (ch : Byte) (s : AtrState) : Option AtrState :=
  if tstBit s.flag 4 then
    (storeInterface s.su.ta s.i ch).map fun ta =>
      { s with
        su := { s.su with taFlag := setBit s.su.taFlag s.i, ta := ta }
        flag := clrBit s.flag 4 }
  else if tstBit s.flag 5 then
    (storeInterface s.su.tb s.i ch).map fun tb =>
      { s with
        su := { s.su with tbFlag := setBit s.su.tbFlag s.i, tb := tb }
        flag := clrBit s.flag 5 }
  else if tstBit s.flag 6 then
    (storeInterface s.su.tc s.i ch).map fun tc =>
      { s with
        su := { s.su with tcFlag := setBit s.su.tcFlag s.i, tc := tc }
        flag := clrBit s.flag 6 }
  else
    (storeInterface s.su.td s.i ch).map fun td =>
      { s with
        su := { s.su with tdFlag := setBit s.su.tdFlag s.i, td := td }
        i := s.i + 1
        tckCond := s.tckCond ||| (ch &&& 0x0F)
        flag := ch &&& 0xF0 }

/-- The exclusive-or of some bytes. -/
def xorAll (bytes : List Byte) : Byte := bytes.foldl (· ^^^ ·) 0

/-- The number of bytes stored in front. -/
def AtrState.count (s : AtrState) : AtrState :=
  { s with atr := s.atr.set 0 (BitVec.ofNat 8 (s.atr.length - 1)) }

/-- The check byte. -/
def AtrState.check (ptype : Nat) (queue : Nat → Reception) (s : AtrState) : Outcome AtrState :=
  if s.tckCond = 0 then .returned 0 s.count
  else
    let spill := atrSpill ptype queue 1 s.rxout
    let s := { s with rxout := spill.rxout }
    if spill.result ≠ 0 then .returned spill.result s
    else if spill.bytes.headD 0 ≠ xorAll (s.atr.drop 2) then .returned ICC_ERR_ATR_TCK s
    else .returned 0 s.count

/-- The historical bytes. -/
def AtrState.history (ptype size : Nat) (queue : Nat → Reception) (s : AtrState) :
    Outcome AtrState :=
  let spill := atrSpill ptype queue (s.su.t0 &&& 0x0F).toNat s.rxout
  match s.push size spill.bytes with
  | none => .returned ATR_FAULT s
  | some s =>
    let s := { s with rxout := spill.rxout }
    if spill.result ≠ 0 then .returned spill.result s
    else if ATR_HBYTES < spill.bytes.length then .returned ATR_FAULT s
    else { s with su := { s.su with hbytes := spill.bytes } : AtrState }.check ptype queue

/-- A round of `while( flag )`, and what follows it. -/
def atrStep (ptype size : Nat) (queue : Nat → Reception) (s : AtrState) : Outcome AtrState :=
  if s.flag = 0 then s.history ptype size queue
  else
    let spill := atrSpill ptype queue 1 s.rxout
    let s := { s with rxout := spill.rxout }
    if spill.result ≠ 0 then .returned spill.result s
    else
      match s.push size spill.bytes with
      | none => .returned ATR_FAULT s
      | some s =>
        if s.flag &&& 0xF0 = 0 then s.history ptype size queue
        else (s.store (spill.bytes.headD 0)).elim (.returned ATR_FAULT s) .running

/-- The byte T0. -/
def AtrState.first (ptype size : Nat) (queue : Nat → Reception) (s : AtrState) :
    Outcome AtrState :=
  let spill := atrSpill ptype queue 1 s.rxout
  let s := { s with rxout := spill.rxout }
  if spill.result ≠ 0 then .returned spill.result s
  else
    match s.push size spill.bytes with
    | none => .returned ATR_FAULT s
    | some s =>
      .running { s with
        su := { s.su with t0 := spill.bytes.headD 0 }
        flag := spill.bytes.headD 0 &&& 0xF0
        i := 0 }

/-- The function up to its loop, from the variables of the caller. -/
def atrStart (ptype size : Nat) (queue : Nat → Reception) (terminalConv : Nat) :
    Outcome AtrState :=
  let s : AtrState := ⟨.blank, [], 0, 0, 0, terminalConv, 0⟩
  match s.push size [0] with
  | none => .returned ATR_FAULT s
  | some s =>
    let spill := atrSpill ptype queue 1 s.rxout
    let s := { s with rxout := spill.rxout }
    if spill.result ≠ 0 then .returned spill.result s
    else if spill.bytes.headD 0 ≠ CONV_CH ∧ spill.bytes.headD 0 ≠ INCONV_CH then
      .returned ICC_ERR_ATR_TS s
    else
      let s := { s with terminalConv := if spill.bytes.headD 0 = CONV_CH then 0 else 1 }
      match s.push size spill.bytes with
      | none => .returned ATR_FAULT s
      | some s =>
        { s with su := { s.su with ts := spill.bytes.headD 0 } : AtrState }.first ptype size queue

/-- `sci_emv_atr_analyser` after a number of rounds of its loop. -/
def sciEmvAtrAnalyser (ptype size : Nat) (queue : Nat → Reception) (terminalConv rounds : Nat) :
    Outcome AtrState :=
  Outcome.run (atrStep ptype size queue) (atrStart ptype size queue terminalConv) rounds

end PosFirmware.Icc
