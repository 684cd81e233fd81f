import Mathlib.Logic.Function.Basic
import Mathlib.Data.List.Basic

/-!
# Logical ports on the UARTs

`s_CommInit`, `PortOpen_std` and `PortClose_std`: the table `port_xtab` from the logical
channels to the four UARTs, the flags of the UARTs in use, and the PINPAD port that is put
aside while RS232B is open.
-/

namespace PosFirmware.Comm

/-- A byte. -/
abbrev Byte := BitVec 8

/-- The channels below `CHANNEL_LIMIT`. -/
inductive Channel where
  | rs232a
  | rs232b
  | wnet
  | pinpad
  | modem
  | wifi
  | barcode
  | bt
  | gps
  deriving DecidableEq

/-- A channel number of a call. -/
inductive PortNo where
  /-- A channel on a UART. -/
  | uart (channel : Channel)
  /-- One of the USB ports, which have drivers of their own. -/
  | driver
  /-- Any other number. -/
  | invalid
  deriving DecidableEq

/-- `get_machine_type`. -/
inductive MachineType where
  | s78
  | s500
  | s58
  | s800
  | s80
  | d210
  | d200
  | s900
  | s90
  | sp30
  | s300
  | other (code : Nat)
  deriving DecidableEq

/-- What a machine is made of. -/
structure Machine where
  type : MachineType
  /-- `GetHWBranch` is `S900HW_V3x`. -/
  v3x : Bool
  ethModule : Bool
  wifiModule : Bool
  btModule : Bool
  barcodeModule : Bool

/-- What a call finds outside the ports. -/
structure Situation where
  /-- `modem_occupied`. -/
  modemOccupied : Bool
  /-- `wnet_ppp_used`. -/
  wnetPppUsed : Bool
  /-- The transmit buffer and the FIFO empty before the timer of `PortClose_std` runs out. -/
  drained : Bool
  /-- The result of the driver of a USB port. -/
  driverResult : Nat

/-- The settings of an open UART. -/
structure UartSettings where
  baudRate : Nat
  dataBits : Nat
  parity : Nat
  stopBits : Nat
  deriving DecidableEq

/-- `PHY_UART`. -/
def PHY_UART : Nat := 4

/-- `port_xtab` of a channel whose UART went to another one. -/
def TAKEN : Nat := 0xff

/-- `port_xtab` of a channel that `s_CommInit` leaves without a UART: two bytes of the
`memset`. -/
def UNSET : Nat := 0xffff

/-- The variables of the ports. -/
structure CommState where
  /-- `port_xtab`. -/
  xtab : Channel → Nat
  /-- `port_used`. -/
  used : Nat → Bool
  /-- The settings of the UARTs that are on. -/
  uart : Nat → Option UartSettings
  /-- `port_cts_watch`. -/
  ctsWatch : Nat → Bool
  /-- The pin that selects RS232B on an S800 or S500. -/
  uartSel : Bool
  /-- `s_PINPAD_info.status`. -/
  pinpadStatus : Bool
  /-- `s_PINPAD_info.attr`. -/
  pinpadAttr : List Byte

/-- `IsConfigPinpad`. -/
def isConfigPinpad (m : Machine) : Bool :=
  match m.type with
  | .s78 | .s500 | .s58 | .s800 => true
  | .s80 => !m.ethModule
  | _ => false

/-- `port_xtab` after `s_CommInit`. -/
def startXtab (m : Machine) : Channel → Nat
  | .modem => 0
  | .wnet =>
    match m.type with
    | .d210 => 0
    | .d200 => 3
    | _ => 1
  | .rs232a => 2
  | .pinpad => 3
  | .bt =>
    match m.type with
    | .d210 | .d200 => 1
    | _ => UNSET
  | .wifi =>
    match m.type with
    | .d210 | .d200 => 3
    | _ => UNSET
  | .rs232b | .barcode | .gps => UNSET

/-- `s_CommInit`. -/
def sCommInit (m : Machine) : CommState where
  xtab := startXtab m
  used := fun _ => false
  uart := fun _ => none
  ctsWatch := fun _ => false
  uartSel := false
  pinpadStatus := false
  pinpadAttr := []

/-! ## The attributes of a port -/

/-- The space that separates attributes. -/
def SPACE : Byte := 0x20

/-- The comma that separates attributes. -/
def COMMA : Byte := 0x2c

/-- The value of a digit. -/
def digitOf (c : Byte) : Option Nat :=
  if 0x30 ≤ c ∧ c ≤ 0x39 then some (c.toNat - 0x30) else none

/-- The digits at the front of a text, as a number. -/
def atolDigits (value : Int) : List Byte → Int
  | [] => value
  | c :: rest =>
    match digitOf c with
    | some digit => atolDigits (10 * value + digit) rest
    | none => value

/-- `atol`. -/
def atol (text : List Byte) : Int :=
  let text := text.dropWhile fun c => c = SPACE || 0x09 ≤ c && c ≤ 0x0d
  match text with
  | 0x2d :: rest => - atolDigits 0 rest
  | 0x2b :: rest => atolDigits 0 rest
  | _ => atolDigits 0 text

/-- The first loop over the attributes: the characters before the comma without spaces, and
what is behind the comma. More than six characters are refused. -/
def baudText (tmps : List Byte) : List Byte → Option (List Byte × List Byte)
  | [] => none
  | c :: rest =>
    if c = COMMA then some (tmps, rest)
    else
      let tmps := if c ≠ SPACE then tmps ++ [c] else tmps
      if 7 ≤ tmps.length then none else baudText tmps rest

/-- `baud_tab`. -/
def baudTab : List Nat :=
  [1200, 2400, 4800, 9600, 14400, 19200, 28800, 38400, 57600, 115200, 230400, 380400, 460800,
    921600]

/-- The next character that is not a space, and the rest behind it. -/
def nextChar (attr : List Byte) : Option (Byte × List Byte) :=
  match attr.dropWhile fun c => c = SPACE with
  | [] => none
  | c :: rest => some (c, rest)

/-- The rest behind the next character, which has to be a comma. -/
def skipComma (attr : List Byte) : Option (List Byte) := do
  let (c, rest) ← nextChar attr
  if c = COMMA then some rest else none

/-- The parity of its letter. -/
def parityOf (c : Byte) : Option Nat :=
  if c = 0x65 ∨ c = 0x45 then some 1
  else if c = 0x6f ∨ c = 0x4f then some 2
  else if c = 0x6e ∨ c = 0x4e then some 0
  else none

/-- The attributes of a port; only WIFI takes the highest rates. -/
def parseAttr (wifi : Bool) (attr : List Byte) : Option UartSettings := do
  let (tmps, rest) ← baudText [] attr
  let baudRate ← baudTab.find? fun (rate : Nat) => decide ((rate : Int) = atol tmps)
  if wifi = false ∧ 230400 < baudRate then none
  else
    let (dataBits, rest) ← nextChar rest
    if dataBits ≠ 0x37 ∧ dataBits ≠ 0x38 then none
    else
      let rest ← skipComma rest
      let (parity, rest) ← nextChar rest
      let parity ← parityOf parity
      let rest ← skipComma rest
      let (stopBits, _) ← nextChar rest
      if stopBits ≠ 0x31 ∧ stopBits ≠ 0x32 then none
      else some ⟨baudRate, dataBits.toNat - 0x30, parity, stopBits.toNat - 0x30⟩

/-! ## Opening -/

/-- The first `switch` of `s_PortOpen_std`: the code with which a channel is refused that the
machine does not have. -/
def channelRefused (m : Machine) (sit : Situation) (channel : Channel) : Option Nat :=
  match channel with
  | .rs232a => none
  | .rs232b =>
    if m.type ∈ [.s900, .s90, .sp30, .d210, .d200] then some 0x02
    else if m.type = .s80 ∧ m.ethModule then some 0x05
    else none
  | .wnet => if m.type ∈ [.s300, .sp30] then some 0x02 else none
  | .pinpad => if m.type ∈ [.s300, .s900, .sp30, .d210, .d200] then some 0x02 else none
  | .modem =>
    if m.type ∈ [.s300, .sp30, .d210, .d200, .s900] then some 0x02
    else if sit.modemOccupied then some 0xf0
    else none
  | .wifi =>
    if m.type ∈ [.s300, .sp30] then some 0x02
    else if m.wifiModule then none
    else some 0x05
  | .barcode =>
    if m.type ∉ [.s900, .s300] then some 0x02
    else if m.barcodeModule then none
    else some 0x05
  | .bt =>
    if m.type ∉ [.s900, .d210, .d200] then some 0x02
    else if m.btModule then none
    else some 0x05
  | .gps => if m.type ≠ .s900 then some 0x02 else none

/-- An S900 of the third kind. -/
def Machine.s900V3x (m : Machine) : Bool := m.type = .s900 && m.v3x

/-- The second `switch` of `s_PortOpen_std`: the UART of a channel. -/
def uartOf (m : Machine) : Channel → Option Nat
  | .rs232a => some 2
  | .rs232b => some 3
  | .wnet =>
    if m.type = .d210 then some 0
    else if m.type = .d200 ∨ m.s900V3x then some 3
    else some 1
  | .pinpad => some 3
  | .modem => some 0
  | .wifi =>
    if m.type ∈ [.s900, .d210, .d200] then some 3
    else if m.type ∈ [.s500, .s800] then some 1
    else none
  | .bt => if m.type ∈ [.d210, .d200] ∨ m.s900V3x then some 1 else some 3
  | .barcode => if m.type = .s300 then some 1 else some 0
  | .gps => if m.s900V3x then some 1 else some 3

/-- The channels for which the second `switch` looks whether the UART is in use. -/
def Channel.looks : Channel → Bool
  | .rs232a | .modem => false
  | _ => true

/-- The end of `s_PortOpen_std`: no other channel keeps the UART. -/
def assignUart (channel : Channel) (port : Nat) (settings : UartSettings) (s : CommState) :
    CommState :=
  { s with
    xtab := fun i => if i = channel then port else if s.xtab i = port then TAKEN else s.xtab i
    used := Function.update s.used port true
    uart := Function.update s.uart port (some settings)
    ctsWatch := if channel = .modem then Function.update s.ctsWatch 0 true else s.ctsWatch }

/-- The pin that selects between PINPAD and RS232B. -/
def selectUart (m : Machine) (channel : Channel) (s : CommState) : CommState :=
  if m.type ∈ [.s800, .s500] then
    match channel with
    | .rs232b => { s with uartSel := true }
    | .pinpad => { s with uartSel := false }
    | _ => s
  else s

/-- `s_PortOpen_std` for a channel on a UART. -/
def sPortOpenUart (m : Machine) (sit : Situation) (channel : Channel) (attr : List Byte)
    (s : CommState) : Nat × CommState :=
  match channelRefused m sit channel with
  | some code => (code, s)
  | none =>
    match parseAttr (channel = .wifi) attr with
    | none => (0xfe, s)
    | some settings =>
      match uartOf m channel with
      | none => (0x05, s)
      | some port =>
        if channel.looks ∧ s.xtab channel = TAKEN ∧ s.used port then (0x05, s)
        else (0, assignUart channel port settings (selectUart m channel s))

/-- `s_PortOpen_std`. -/
def sPortOpenStd (m : Machine) (sit : Situation) (port : PortNo) (attr : List Byte)
    (s : CommState) : Nat × CommState :=
  match port with
  | .uart channel => sPortOpenUart m sit channel attr s
  | .driver => (sit.driverResult, s)
  | .invalid => (0x02, s)

/-! ## Closing -/

/-- The checks at the start of `PortClose_std`: its result, if it ends there. -/
def closeRefused (m : Machine) (sit : Situation) (channel : Channel) (s : CommState) :
    Option Nat :=
  if channel = .modem ∧ sit.modemOccupied then some 0xf0
  else if channel = .wnet ∧ sit.wnetPppUsed then some 0xf0
  else if channel = .wifi ∧ ¬ m.wifiModule then some 0xf0
  else if PHY_UART ≤ s.xtab channel then some 3
  else if ¬ s.used (s.xtab channel) then some 0
  else none

/-- `PortClose_std` from `C_TAIL` on, up to the PINPAD port. -/
def closeUart (port : Nat) (s : CommState) : CommState :=
  { s with
    used := Function.update s.used port false
    uart := Function.update s.uart port none
    ctsWatch := Function.update s.ctsWatch port false }

/-- `PortClose_std`, with what it does to open the PINPAD port again. -/
def portCloseWith (reopen : CommState → CommState) (m : Machine) (sit : Situation)
    (port : PortNo) (s : CommState) : Nat × CommState :=
  match port with
  | .driver => (sit.driverResult, s)
  | .invalid => (2, s)
  | .uart channel =>
    match closeRefused m sit channel s with
    | some code => (code, s)
    | none =>
      let resp := if sit.drained then 0 else 0xff
      let s := closeUart (s.xtab channel) s
      if isConfigPinpad m then
        let s := if channel = .rs232b ∧ s.pinpadStatus then reopen s else s
        (resp, if resp = 0 ∧ channel = .pinpad then { s with pinpadStatus := false } else s)
      else (resp, s)

/-- `PortOpen_std`. Closing the PINPAD port does not open it again. -/
def portOpenStd (m : Machine) (sit : Situation) (port : PortNo) (attr : List Byte)
    (s : CommState) : Nat × CommState :=
  if port = .uart .wnet ∧ sit.wnetPppUsed then (0xf0, s)
  else
    let s :=
      if isConfigPinpad m ∧ port = .uart .rs232b ∧ s.pinpadStatus then
        { (portCloseWith id m sit (.uart .pinpad) s).2 with pinpadStatus := true }
      else s
    let (ret, s) := sPortOpenStd m sit port attr s
    if isConfigPinpad m then
      let s :=
        if port = .uart .pinpad ∧ ret = 0 then
          { s with pinpadStatus := true, pinpadAttr := attr.take 22 }
        else s
      let s :=
        if port = .uart .rs232b ∧ ret ≠ 0 ∧ s.pinpadStatus then
          (sPortOpenStd m sit (.uart .pinpad) s.pinpadAttr s).2
        else s
      (ret, s)
    else (ret, s)

/-- `PortClose_std`. -/
def portCloseStd (m : Machine) (sit : Situation) (port : PortNo) (s : CommState) :
    Nat × CommState :=
  portCloseWith (fun s => (portOpenStd m sit (.uart .pinpad) s.pinpadAttr s).2) m sit port s

/-- A call. -/
inductive PortCall where
  | open (sit : Situation) (port : PortNo) (attr : List Byte)
  | close (sit : Situation) (port : PortNo)

/-- What a call returns and leaves. -/
def PortCall.run (m : Machine) (s : CommState) : PortCall → Nat × CommState
  | .open sit port attr => portOpenStd m sit port attr s
  | .close sit port => portCloseStd m sit port s

/-- The state after a call. -/
def portStep (m : Machine) (s : CommState) (call : PortCall) : CommState := (call.run m s).2

end PosFirmware.Comm
