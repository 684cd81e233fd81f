import PosFirmware.Modem.V80
import PosFirmware.Foundation.Memory

/-! # The number of a caller

`si_step_rcv_cid` and the reports of `si_callee_connect` and `cx_callee_connect` in `modem.c`. The
modem signals a call in codes behind `0x10`; the number comes as tones, or as a report up to a
closing text. What is read and written of `frame_pool` is noted.
-/

namespace PosFirmware.Modem.CallerId

open Foundation

def ascii (s : String) : List Byte := s.toList.map fun c => BitVec.ofNat 8 c.toNat

/-! ## Texts -/

def hexDigit (n : Nat) : Byte := if n < 10 then BitVec.ofNat 8 (0x30 + n) else BitVec.ofNat 8 (0x37 + n)

def hexDigits : Nat → Nat → List Byte
  | 0, n => [hexDigit n]
  | places + 1, n =>
      if n < 16 then [hexDigit n] else hexDigits places (n / 16) ++ [hexDigit (n % 16)]

/-- `sprintf` with `%02X`. -/
def sprintf02X (n : Nat) : List Byte := if n < 16 then [0x30, hexDigit n] else hexDigits 7 n

def toupper (c : Byte) : Byte := if 0x61 ≤ c ∧ c ≤ 0x7a then c - 0x20 else c

def hexValue (c : Byte) : Byte :=
  if 0x41 ≤ toupper c ∧ toupper c ≤ 0x46 then toupper c - 0x37 else toupper c &&& 0x0f

def htoc (high low : Byte) : Byte := (hexValue high <<< 4) + hexValue low

def delMsb (io : List Byte) : List Byte := io.map fun b => if b = 0x42 then 0x33 else b

def storeByte (pool : List Byte) (b : Byte) : List Byte :=
  if pool.length < DATA_SIZE + 5 then pool ++ [b] else pool

/-- `store_response` on the bytes that `response_pool` holds. -/
def storeResponse (pool str : List Byte) : List Byte := str.foldl storeByte pool

/-! ## Receiving -/

/-- The variables of `si_step_rcv_cid`, which bytes it received in `frame_pool` and stored in
`dtmf_code`, and which ones of `frame_pool` it read. -/
structure Collector where
  framePool : Buffer
  i : Nat
  dleFound : Bool
  ringFound : Byte
  cidFound : Bool
  dtmfFound : Nat
  dtmfCode : Buffer
  received : List Nat
  codes : List Nat
  reads : List Nat
  finished : Bool

/-- `STEP0`. -/
def Collector.start (framePool dtmfCode : Buffer) : Collector :=
  ⟨framePool, 0, false, 0, false, 0, dtmfCode, [], [], [], false⟩

def endOfReport : List Byte := ascii "\r\nNO CARRIER\r\n"
def noCarrier : List Byte := ascii "NO CARRIER\r\n"

/-- The size of `dtmf_code`. -/
def CODE_SIZE : Nat := 100

/-- A byte of a report. -/
def Collector.reportByte (s : Collector) (a : Byte) : Collector :=
  { s with
    framePool := Function.update s.framePool s.i a
    i := (s.i + 1) % 65536
    received := s.i :: s.received
    reads := if 14 ≤ (s.i + 1) % 65536 then
        List.range' ((s.i + 1) % 65536 - 14) 14 ++ s.reads
      else s.reads
    finished := decide (14 ≤ (s.i + 1) % 65536 ∧
      slice (Function.update s.framePool s.i a) ((s.i + 1) % 65536 - 14) 14 = endOfReport) }

/-- A tone. -/
def Collector.tone (s : Collector) (a : Byte) : Collector :=
  { s with
    dtmfCode := Function.update s.dtmfCode s.i a
    codes := s.i :: s.codes
    i := s.i + 1
    dtmfFound := 2 }

/-- The switch over a code: a ring, the end of the header of a report, or a tone that follows. -/
def Collector.signal (s : Collector) (a : Byte) : Collector :=
  { s with
    ringFound := if a = 0x52 then s.ringFound + 1 else s.ringFound
    cidFound := decide (a = 0x2e)
    dtmfFound := if a = 0x2f then 1 else s.dtmfFound
    dleFound := false }

/-- The tones without the first one if that is taken for a letter. -/
def trimLeading (tones : List Byte) : List Byte :=
  if 2 < tones.length ∧ 0x41 ≤ tones.headD 0 ∧ 0x44 ≤ tones.headD 0 then tones.tail else tones

/-- The tones without the last one if that is a letter. -/
def trimTail (tones : List Byte) : List Byte :=
  if 2 < tones.length ∧ 0x41 ≤ tones.getLastD 0 ∧ tones.getLastD 0 ≤ 0x44 then tones.dropLast
  else tones

/-- The tones as a report. -/
def Collector.toneReport (s : Collector) (tones : List Byte) : Collector :=
  { s with
    framePool := blit (blit s.framePool 0 (ascii "DTMF:" ++ trimLeading tones))
      (5 + (trimTail (trimLeading tones)).length) noCarrier
    i := (trimTail (trimLeading tones)).length + 17
    reads := if 2 < (trimLeading tones).length then
        ((trimLeading tones).length + 4) :: s.reads
      else s.reads
    received := List.range ((trimTail (trimLeading tones)).length + 17)
    finished := true }

/-- A byte from the modem. -/
def Collector.byte (s : Collector) (a : Byte) : Collector :=
  if s.cidFound then s.reportByte a
  else if !s.dleFound then { s with dleFound := decide (a = 0x10) }
  else if s.dtmfFound = 1 ∧ s.i < CODE_SIZE then s.tone a
  else if (s.signal a).dtmfFound = 2 ∧ (s.signal a).ringFound ≠ 0 then
    (s.signal a).toneReport (slice s.dtmfCode 0 s.i)
  else s.signal a

/-- The loop over the bytes that come before the timer runs out. -/
def Collector.bytes : List Byte → Collector → Collector
  | [], s => s
  | a :: rest, s => if (s.byte a).finished then s.byte a else Collector.bytes rest (s.byte a)

/-- `si_step_rcv_cid`; without a report the timer ran out. A zero is appended. -/
def siStepRcvCid (framePool dtmfCode : Buffer) (rx : List Byte) : Collector :=
  let s := Collector.bytes rx (Collector.start framePool dtmfCode)
  { s with framePool := Function.update s.framePool s.i 0 }

/-! ## Reports to the application -/

/-- The text for the application, what was read and written of `frame_pool`, the most that was
written to `tmps`, whether the loops over fields ended, and the variable `i`. -/
structure Report where
  text : List Byte
  reads : List Nat
  writes : List Nat
  tmps : Nat
  ended : Bool
  i : Nat

def crCid : List Byte := ascii "\r\nCID:"

def hexOf (bytes : List Byte) : List Byte := bytes.flatMap fun b => sprintf02X b.toNat

/-- Simple data format: the last byte is a checksum. -/
def siSimple (frame : Buffer) (dn : Nat) : Report where
  text := crCid ++ delMsb (hexOf (slice frame 7 (dn - 10))) ++ hexOf (slice frame (dn - 3) 1) ++
    slice frame (dn - 2) 2
  reads := List.range' 7 (dn - 7)
  writes := []
  tmps := 3
  ended := true
  i := dn - 2

/-- The loop to a field. -/
def siSeek (frame : Buffer) (dn : Nat) (tag : Byte) : Search :=
  seek (fun p => decide (frame p = tag)) (fun p => (p + ((frame (p + 1)).toNat + 2)) % 65536) dn dn 8

/-- Complex data format. -/
def siComplex (frame : Buffer) (dn : Nat) : Report where
  text := crCid ++
    sprintf02X (if (siSeek frame dn 2).stop < dn then
      8 + frame ((siSeek frame dn 2).stop + 1) else (8 : Byte)).toNat ++
    (if (siSeek frame dn 1).stop < dn then
      delMsb (hexOf (slice frame ((siSeek frame dn 1).stop + 2) 8)) else List.replicate 16 0x30) ++
    (if (siSeek frame dn 2).stop < dn then
      delMsb (hexOf (slice frame ((siSeek frame dn 2).stop + 2)
        (frame ((siSeek frame dn 2).stop + 1)).toNat)) else []) ++
    ascii "FF\r\n"
  reads := (siSeek frame dn 2).visited.flatMap (fun p => [p, p + 1]) ++
    (siSeek frame dn 1).visited.flatMap (fun p => [p, p + 1]) ++
    (if (siSeek frame dn 1).stop < dn then List.range' ((siSeek frame dn 1).stop + 2) 8 else []) ++
    (if (siSeek frame dn 2).stop < dn then
      List.range' ((siSeek frame dn 2).stop + 2) (frame ((siSeek frame dn 2).stop + 1)).toNat else [])
  writes := []
  tmps := 16
  ended := (siSeek frame dn 2).ended && (siSeek frame dn 1).ended
  i := (siSeek frame dn 2).stop

/-- Tones; `i` is what an earlier report left. -/
def siTones (frame : Buffer) (dn i : Nat) : Report where
  text := crCid ++ (sprintf02X (dn - 5 + 16)).take 2 ++ List.replicate 16 0x20 ++
    hexOf (slice frame (i + 5) ((dn - 5) % 256)) ++ ascii "FF\r\n"
  reads := List.range' (i + 5) ((dn - 5) % 256)
  writes := []
  tmps := max 16 ((sprintf02X (dn - 5 + 16)).length + 1)
  ended := true
  i := i

def siDump (frame : Buffer) (dn : Nat) : Report where
  text := hexOf (slice frame 0 dn)
  reads := List.range dn
  writes := []
  tmps := 3
  ended := true
  i := dn

/-- The formats of a report. -/
def siFormat (frame : Buffer) (dn i : Nat) : Report :=
  if 11 ≤ dn ∧ slice frame 0 7 = ascii "\r\nCIDM" ++ [0x04] then siSimple frame dn
  else if 11 ≤ dn ∧ slice frame 0 7 = ascii "\r\nCIDM" ++ [0x80] then siComplex frame dn
  else if 5 ≤ dn ∧ slice frame 0 5 = ascii "DTMF:" then siTones frame dn i
  else siDump frame dn

/-- What is read to find the format. -/
def formatReads (dn : Nat) : List Nat :=
  if 11 ≤ dn then List.range 7 else if 5 ≤ dn then List.range 5 else []

/-- Without the closing text. -/
def trimmed (frame : Buffer) (dn : Nat) : Nat :=
  if 12 ≤ dn ∧ slice frame (dn - 12) 12 = noCarrier then dn - 12 else dn

def Report.nothing (i : Nat) : Report := ⟨[], [], [], 0, true, i⟩

/-- The report of the number in `si_callee_connect`. -/
def siReport (answerInterface : Bool) (frame : Buffer) (dn i : Nat) : Report :=
  if 7 < dn ∧ !answerInterface then
    { siFormat frame (trimmed frame dn) i with
      reads := (if 12 ≤ dn then List.range' (dn - 12) 12 else []) ++
        formatReads (trimmed frame dn) ++ (siFormat frame (trimmed frame dn) i).reads }
  else .nothing i

/-- A call with a silicon modem: what was received, and the report if the timer did not run out. -/
def siCalleeConnect (answerInterface : Bool) (framePool dtmfCode : Buffer) (i : Nat)
    (rx : List Byte) : Collector × Report :=
  let s := siStepRcvCid framePool dtmfCode rx
  (s, if s.finished then siReport answerInterface s.framePool s.i i else .nothing i)

/-! ## The other modem -/

/-- The answers that `step_send_to_smodem` takes for whole after two lines. -/
def answers : List (List Byte) :=
  [ascii "\r\nOK", ascii "\r\nCONNECT", ascii "\r\nNO CARRIER", ascii "\r\nRING", ascii "\r\n04",
    ascii "\r\n80", ascii "\r\nDownload initiated .."]

/-- What ends an answer to the command for the number. -/
def isAnswer (got : List Byte) : Bool :=
  (got.count 0x0a == 2 && answers.any (·.isPrefixOf got)) ||
    (got.count 0x0a == 3 && (ascii "\r\nCIDM").isPrefixOf got) || decide (150 ≤ got.length)

/-- The loop that receives an answer. -/
def receiveAnswer : List Byte → List Byte → List Byte
  | got, [] => got
  | got, a :: rest => if isAnswer (got ++ [a]) then got ++ [a] else receiveAnswer (got ++ [a]) rest

/-- What `step_send_to_smodem` leaves in `frame_pool`. -/
def answerFrame (framePool : Buffer) (got : List Byte) : Buffer :=
  blit (blit framePool 0 (List.replicate 10 0)) 0 (got ++ [0])

/-- `del_msb` in a buffer. -/
def delMsbAt (frame : Buffer) (io dn : Nat) : Buffer := fun p =>
  if io ≤ p ∧ p < io + dn ∧ frame p = 0x42 then 0x33 else frame p

/-- The bytes that it writes. -/
def delMsbWrites (frame : Buffer) (io dn : Nat) : List Nat :=
  (List.range' io dn).filter fun p => frame p = 0x42

def cxSimple (frame : Buffer) (dn : Nat) : Report where
  text := crCid ++ slice (if 8 < dn then delMsbAt frame 6 (dn - 8) else frame) 4 (dn - 4)
  reads := List.range dn
  writes := if 8 < dn then delMsbWrites frame 6 (dn - 8) else []
  tmps := 0
  ended := true
  i := 0

/-- The loop to a field. -/
def cxSeek (frame : Buffer) (dn : Nat) (tag : List Byte) : Search :=
  seek (fun p => decide (slice frame p 2 = tag))
    (fun p => (p + ((htoc (frame (p + 2)) (frame (p + 3))).toNat * 2 + 4)) % 65536) dn dn 6

/-- The length in a field. -/
def cxLength (frame : Buffer) (p : Nat) : Byte := htoc (frame (p + 2)) (frame (p + 3))

/-- The buffer after the time was put out. -/
def cxTimed (frame : Buffer) (dn : Nat) : Buffer :=
  if (cxSeek frame dn (ascii "01")).stop < dn then
    delMsbAt frame ((cxSeek frame dn (ascii "01")).stop + 4) 16
  else frame

/-- The number's field is looked for twice, before the time is put out and after that. -/
def cxComplex (frame : Buffer) (dn : Nat) : Report :=
  let first := cxSeek frame dn (ascii "02")
  let time := cxSeek frame dn (ascii "01")
  let timed := cxTimed frame dn
  let tel := cxSeek timed dn (ascii "02")
  let a := (cxLength timed tel.stop * 2).toNat
  { text := crCid ++
      sprintf02X (if first.stop < dn then 8 + cxLength frame first.stop else (8 : Byte)).toNat ++
      (if time.stop < dn then slice timed (time.stop + 4) 16 else List.replicate 16 0x30) ++
      (if tel.stop < dn then slice (delMsbAt timed (tel.stop + 4) a) (tel.stop + 4) a else []) ++
      ascii "FF\r\n"
    reads := List.range 4 ++ first.visited.flatMap (List.range' · 4) ++ time.visited.flatMap (List.range' · 4) ++
      (if time.stop < dn then List.range' (time.stop + 4) 16 else []) ++
      tel.visited.flatMap (List.range' · 4) ++
      (if tel.stop < dn then List.range' (tel.stop + 4) a else [])
    writes := (if time.stop < dn then delMsbWrites frame (time.stop + 4) 16 else []) ++
      (if tel.stop < dn then delMsbWrites timed (tel.stop + 4) a else [])
    tmps := 16
    ended := first.ended && time.ended && tel.ended
    i := 0 }

/-- The report of the number in `cx_callee_connect`. -/
def cxReport (answerInterface : Bool) (frame : Buffer) (dn : Nat) : Report :=
  if 4 < dn ∧ !answerInterface then
    if slice frame 0 4 = ascii "\r\n04" then cxSimple frame dn
    else if slice frame 0 4 = ascii "\r\n80" then cxComplex frame dn
    else ⟨slice frame 0 dn, List.range dn, [], 0, true, 0⟩
  else .nothing 0

/-- A call with the other modem: the bytes that were received, and the report. -/
def cxCalleeConnect (answerInterface : Bool) (framePool : Buffer) (rx : List Byte) :
    List Byte × Report :=
  (receiveAnswer [] rx,
    cxReport answerInterface (answerFrame framePool (receiveAnswer [] rx))
      (receiveAnswer [] rx).length)

end PosFirmware.Modem.CallerId
