import Mathlib.Data.Fin.Basic
import PosFirmware.Bluetooth.UartReceive

/-!
# Frames of the H5 link

The header `hci_transport_link_calc_header` puts before a packet, the data integrity check
behind it, and what the two frame handlers check before they look at a frame. Every frame
with a payload of up to 4095 bytes is read back as it was made (`readFrame_encode`).
-/

namespace PosFirmware.Bluetooth

/-- Eight numbers for the packets. -/
instance neZeroEight : NeZero 8 := ⟨by decide⟩

/-- Sixteen types. -/
instance neZeroSixteen : NeZero 16 := ⟨by decide⟩

/-- `LINK_ACKNOWLEDGEMENT_TYPE`. -/
def LINK_ACKNOWLEDGEMENT_TYPE : Fin 16 := 0

/-- `LINK_CONTROL_PACKET_TYPE`. -/
def LINK_CONTROL_PACKET_TYPE : Fin 16 := 15

/-- `HCI_ACL_DATA_PACKET`. -/
def HCI_ACL_DATA_PACKET : Fin 16 := 2

/-- `HCI_SCO_DATA_PACKET`. -/
def HCI_SCO_DATA_PACKET : Fin 16 := 3

/-- `HCI_EVENT_PACKET`. -/
def HCI_EVENT_PACKET : Fin 16 := 4

/-- A packet with its type; its length fits into the 12 bits of the header. -/
structure H5Packet where
  type : Fin 16
  payload : List Byte
  fits : payload.length < 4096
  deriving DecidableEq

theorem nil_fits : ([] : List Byte).length < 4096 := by decide

/-- A frame: a packet with its numbers and flags. -/
structure H5Frame where
  seqNr : Fin 8
  ackNr : Fin 8
  /-- `data_integrity_check_present`. -/
  dicPresent : Bool
  reliable : Bool
  packet : H5Packet
  deriving DecidableEq

/-- `crc16_ccitt_table`. -/
def crc16CcittTable : List (BitVec 16) :=
  [0x0000, 0x1081, 0x2102, 0x3183, 0x4204, 0x5285, 0x6306, 0x7387,
    0x8408, 0x9489, 0xa50a, 0xb58b, 0xc60c, 0xd68d, 0xe70e, 0xf78f]

/-- `crc16_ccitt_update`. -/
def crc16CcittUpdate (crc : BitVec 16) (ch : Byte) : BitVec 16 :=
  let crc := (crc >>> 4) ^^^ crc16CcittTable.getD ((crc ^^^ ch.zeroExtend 16) &&& 0x000f).toNat 0
  (crc >>> 4) ^^^ crc16CcittTable.getD ((crc ^^^ (ch >>> 4).zeroExtend 16) &&& 0x000f).toNat 0

/-- `crc16_calc_for_slip_frame`: the sum over header and payload, with its bits reversed. -/
def crc16CalcForSlipFrame (header payload : List Byte) : BitVec 16 :=
  ((header ++ payload).foldl crc16CcittUpdate 0xffff).reverse

/-- `header[0]`: the numbers and the flags. -/
def header0 (seqNr ackNr : Fin 8) (dicPresent reliable : Bool) : Byte :=
  BitVec.ofNat 8 seqNr ||| (BitVec.ofNat 8 ackNr <<< 3) |||
    ((BitVec.ofBool dicPresent).zeroExtend 8 <<< 6) |||
    ((BitVec.ofBool reliable).zeroExtend 8 <<< 7)

/-- `header[1]`: the type and the low bits of the length. -/
def header1 (type : Fin 16) (length : Nat) : Byte :=
  BitVec.ofNat 8 type ||| BitVec.ofNat 8 (length % 16) <<< 4

/-- `hci_transport_link_calc_header`. -/
def calcHeader (f : H5Frame) : List Byte :=
  let length := f.packet.payload.length
  let sum := header0 f.seqNr f.ackNr f.dicPresent f.reliable + header1 f.packet.type length +
    BitVec.ofNat 8 (length / 16)
  [header0 f.seqNr f.ackNr f.dicPresent f.reliable, header1 f.packet.type length,
    BitVec.ofNat 8 (length / 16), 0xff - sum]

/-- `big_endian_store_16`. -/
def bigEndianStore16 (value : BitVec 16) : List Byte := [(value >>> 8).setWidth 8, value.setWidth 8]

/-- What `hci_transport_slip_send_frame` encodes: header, packet and, if it is announced in the
header, the check. -/
def H5Frame.encode (f : H5Frame) : List Byte :=
  calcHeader f ++ f.packet.payload ++
    if f.dicPresent then bigEndianStore16 (crc16CalcForSlipFrame (calcHeader f) f.packet.payload)
    else []

/-- `sync_response_bcsp`. -/
def syncResponseBcsp : List Byte := [0x01, 0x7a, 0x06, 0x10]

/-- `big_endian_read_16`. -/
def bigEndianRead16 (bytes : List Byte) (pos : Nat) : BitVec 16 :=
  (bytes.getD pos 0).zeroExtend 16 <<< 8 ||| (bytes.getD (pos + 1) 0).zeroExtend 16

/-- `link_payload_len`. -/
def linkPayloadLen (header1 header2 : Byte) : Nat := header1.toNat / 16 + 16 * header2.toNat

theorem linkPayloadLen_lt (header1 header2 : Byte) : linkPayloadLen header1 header2 < 4096 := by
  have := header1.isLt
  have := header2.isLt
  unfold linkPayloadLen
  omega

/-- The head of both frame handlers: the fields of a frame that passes the checks of length,
header and integrity. -/
def readFrame (bytes : List Byte) : Option H5Frame :=
  let first := bytes.getD 0 0
  let second := bytes.getD 1 0
  let third := bytes.getD 2 0
  let slipPayload := bytes.drop 4
  let dicPresent := first.getLsbD 6
  let dataIntegrityLen := if dicPresent then 2 else 0
  -- an `int` that is stored in 16 bits
  let received := (((slipPayload.length : Int) - dataIntegrityLen) % 65536).toNat
  let length := linkPayloadLen second third
  let payload := slipPayload.take length
  if bytes.length < 4 then none
  else if bytes.take 4 = syncResponseBcsp then none
  else if first + second + third + bytes.getD 3 0 ≠ 0xff then none
  else if length ≠ received then none
  else if dicPresent ∧
      bigEndianRead16 slipPayload length ≠ crc16CalcForSlipFrame (bytes.take 4) payload then none
  else some {
    seqNr := (first.extractLsb' 0 3).toFin
    ackNr := (first.extractLsb' 3 3).toFin
    dicPresent := dicPresent
    reliable := first.getLsbD 7
    packet := {
      type := (second.extractLsb' 0 4).toFin
      payload := payload
      fits := (List.length_take_le _ _).trans_lt (linkPayloadLen_lt second third) } }

theorem header0_fields : ∀ (seqNr ackNr : Fin 8) (dicPresent reliable : Bool),
    ((header0 seqNr ackNr dicPresent reliable).extractLsb' 0 3).toFin = seqNr ∧
      ((header0 seqNr ackNr dicPresent reliable).extractLsb' 3 3).toFin = ackNr ∧
      (header0 seqNr ackNr dicPresent reliable).getLsbD 6 = dicPresent ∧
      (header0 seqNr ackNr dicPresent reliable).getLsbD 7 = reliable := by
  decide +kernel

theorem header1_fields (type : Fin 16) (length : Nat) :
    ((header1 type length).extractLsb' 0 4).toFin = type ∧
      (header1 type length).toNat / 16 = length % 16 := by
  have each : ∀ type low : Fin 16,
      ((BitVec.ofNat 8 type ||| BitVec.ofNat 8 low <<< 4).extractLsb' 0 4).toFin = type ∧
        (BitVec.ofNat 8 type ||| BitVec.ofNat 8 low <<< 4).toNat / 16 = low := by
    decide +kernel
  exact each type ⟨length % 16, Nat.mod_lt _ (by decide)⟩

theorem linkPayloadLen_header (type : Fin 16) {length : Nat} (fits : length < 4096) :
    linkPayloadLen (header1 type length) (BitVec.ofNat 8 (length / 16)) = length := by
  rw [linkPayloadLen, (header1_fields type length).2, BitVec.toNat_ofNat]
  omega

theorem bigEndianRead16_store (front : List Byte) (value : BitVec 16) :
    bigEndianRead16 (front ++ bigEndianStore16 value) front.length = value := by
  have first : (front ++ bigEndianStore16 value).getD front.length 0 =
      (value >>> 8).setWidth 8 := by
    simp [bigEndianStore16]
  have second : (front ++ bigEndianStore16 value).getD (front.length + 1) 0 =
      value.setWidth 8 := by
    simp [bigEndianStore16]
  rw [bigEndianRead16, first, second]
  ext i below
  by_cases low : i < 8
  · simp [low, BitVec.getLsbD_eq_getElem below]
  · have high : i - 8 < 8 := by omega
    have place : 8 + (i - 8) = i := by omega
    simp [low, below, high, place]

theorem sum_header (sum : Byte) : sum + (0xff - sum) = 0xff := by
  rw [BitVec.add_comm, BitVec.sub_add_cancel]

/-- **Frames are read back** as they were made. -/
theorem readFrame_encode (f : H5Frame) : readFrame f.encode = some f := by
  obtain ⟨seqNr, ackNr, dicPresent, reliable, ⟨type, payload, fits⟩⟩ := f
  obtain ⟨seq, ack, dic, rel⟩ := header0_fields seqNr ackNr dicPresent reliable
  have kind := (header1_fields type payload.length).1
  have length := linkPayloadLen_header type fits
  simp only [H5Frame.encode, calcHeader]
  generalize header0 seqNr ackNr dicPresent reliable = first at *
  generalize header1 type payload.length = second at *
  generalize BitVec.ofNat 8 (payload.length / 16) = third at *
  have sum := sum_header (first + second + third)
  generalize 0xff - (first + second + third) = fourth at *
  have bcsp : ¬ [first, second, third, fourth] = syncResponseBcsp := by
    intro same
    simp only [syncResponseBcsp, List.cons.injEq, and_true] at same
    obtain ⟨rfl, rfl, rfl, rfl⟩ := same
    exact absurd sum (by decide)
  generalize behind : (if dicPresent = true then _ else _) = tail
  have counted : tail.length = if dicPresent = true then 2 else 0 := by
    rw [← behind]
    split <;> rfl
  have checked : dicPresent = true →
      bigEndianRead16 (payload ++ tail) payload.length =
        crc16CalcForSlipFrame [first, second, third, fourth] payload := by
    intro present
    rw [← behind, if_pos present]
    exact bigEndianRead16_store _ _
  have received : ((((payload ++ tail).length : Int) - if dicPresent = true then 2 else 0) %
      65536).toNat = payload.length := by
    rw [List.length_append, counted]
    split <;> omega
  have taken : (payload ++ tail).take payload.length = payload := List.take_left
  simp only [readFrame, List.cons_append, List.nil_append, List.getD_cons_zero,
    List.getD_cons_succ, List.drop_succ_cons, List.drop_zero, List.take_succ_cons, List.take_zero,
    seq, ack, dic, rel, kind, length]
  rw [if_neg (by simp), if_neg bcsp, if_neg (not_not_intro sum), received,
    if_neg (not_not_intro rfl)]
  simp only [taken]
  exact if_neg fun bad => bad.2 (checked bad.1)

end PosFirmware.Bluetooth
