import PosFirmware.Bluetooth.FrameReceive
import PosFirmware.Bluetooth.H5Frame

/-!
# A frame on its way out in SLIP chunks

`hci_transport_slip_send_frame` encodes the header and as much of the packet as fits into
one chunk, `hci_transport_h5_block_sent` the rest chunk by chunk; the check is encoded
behind the last byte of the packet by starting the encoder again. The chunks of a frame stay
inside `slip_outgoing_buffer` (`frameChunks_inside`), and together they are the escaped
frame between two start bytes (`frameChunks_joined`).
-/

namespace PosFirmware.Bluetooth

/-- `LINK_SLIP_TX_CHUNK_LEN`. -/
def LINK_SLIP_TX_CHUNK_LEN : Nat := 1037

/-- The size of `slip_outgoing_buffer`. -/
def slipOutgoingSize : Nat := LINK_SLIP_TX_CHUNK_LEN + 4 + 1

/-- `btstack_slip_encoder_state_t`. -/
inductive SlipEncoderState where
  | default
  | sendDC
  | sendDD
  deriving DecidableEq

/-- The encoder: its state and the `encoder_len` bytes at `encoder_data`. -/
structure SlipEncoder where
  state : SlipEncoderState
  data : List Byte

namespace SlipEncoder

/-- `btstack_slip_encoder_start`. -/
def start (data : List Byte) : SlipEncoder := ⟨.default, data⟩

/-- `btstack_slip_encoder_has_data`. -/
def hasData (e : SlipEncoder) : Bool := e.state ≠ .default || 0 < e.data.length

/-- `btstack_slip_encoder_get_byte`: the next byte and the encoder after it. -/
def getByte (e : SlipEncoder) : Byte × SlipEncoder :=
  match e.state with
  | .default =>
    let nextByte := e.data.headD 0
    if nextByte = BTSTACK_SLIP_SOF then (0xDB, ⟨.sendDC, e.data.tail⟩)
    else if nextByte = 0xDB then (0xDB, ⟨.sendDD, e.data.tail⟩)
    else (nextByte, ⟨.default, e.data.tail⟩)
  | .sendDC => (0xDC, { e with state := .default })
  | .sendDD => (0xDD, { e with state := .default })

theorem getByte_cases (byte : Byte) (data : List Byte) :
    byte = BTSTACK_SLIP_SOF ∧ getByte ⟨.default, byte :: data⟩ = (0xDB, ⟨.sendDC, data⟩) ∨
    byte = 0xDB ∧ getByte ⟨.default, byte :: data⟩ = (0xDB, ⟨.sendDD, data⟩) ∨
    (byte ≠ BTSTACK_SLIP_SOF ∧ byte ≠ 0xDB) ∧
      getByte ⟨.default, byte :: data⟩ = (byte, ⟨.default, data⟩) := by
  by_cases sof : byte = BTSTACK_SLIP_SOF
  · exact .inl ⟨sof, if_pos sof⟩
  · by_cases escape : byte = 0xDB
    · exact .inr (.inl ⟨escape, (if_neg sof).trans (if_pos escape)⟩)
    · exact .inr (.inr ⟨⟨sof, escape⟩, (if_neg sof).trans (if_neg escape)⟩)

/-- Calls of `get_byte` left, at most. -/
def size (e : SlipEncoder) : Nat :=
  2 * e.data.length + if e.state = .default then 0 else 1

theorem getByte_size {e : SlipEncoder} (more : e.hasData = true) :
    e.getByte.2.size < e.size := by
  obtain ⟨state, data⟩ := e
  cases state with
  | default =>
    cases data with
    | nil => cases more
    | cons byte data =>
      obtain ⟨-, next⟩ | ⟨-, next⟩ | ⟨-, next⟩ := getByte_cases byte data <;> rw [next] <;>
        simp only [size, List.length_cons, reduceCtorEq, if_true, if_false] <;> omega
  | sendDC => simp [getByte, size]
  | sendDD => simp [getByte, size]

end SlipEncoder

/-- The outgoing side: the encoder, `slip_outgoing_dic` and `slip_outgoing_dic_present`. -/
structure SlipOutgoing where
  encoder : SlipEncoder
  dic : BitVec 16
  dicPresent : Bool

/-- The first loop of `hci_transport_slip_encode_chunk_and_send`, with the room left before
`LINK_SLIP_TX_CHUNK_LEN`. -/
def fillChunk : Nat → SlipEncoder → List Byte → SlipEncoder × List Byte
  | 0, e, chunk => (e, chunk)
  | room + 1, e, chunk =>
    if e.hasData then fillChunk room e.getByte.2 (chunk ++ [e.getByte.1]) else (e, chunk)

/-- A loop over `btstack_slip_encoder_has_data` alone, as for the header and for the check. -/
def drain (e : SlipEncoder) (chunk : List Byte) : SlipEncoder × List Byte :=
  if e.hasData then drain e.getByte.2 (chunk ++ [e.getByte.1]) else (e, chunk)
termination_by e.size
decreasing_by exact SlipEncoder.getByte_size (by assumption)

/-- `hci_transport_slip_encode_chunk_and_send` behind the bytes already in the buffer: the
state after it and the block sent. -/
def encodeChunkAndSend (o : SlipOutgoing) (chunk : List Byte) : SlipOutgoing × List Byte :=
  let (e, chunk) := fillChunk (LINK_SLIP_TX_CHUNK_LEN - chunk.length) o.encoder chunk
  if e.hasData then ({ o with encoder := e }, chunk)
  else
    let (e, chunk) := if o.dicPresent then drain (.start (bigEndianStore16 o.dic)) chunk
      else (e, chunk)
    ({ o with encoder := e }, chunk ++ [BTSTACK_SLIP_SOF])

/-- `hci_transport_slip_send_frame`. -/
def slipSendFrame (header packet : List Byte) (dataIntegrityCheck : BitVec 16) :
    SlipOutgoing × List Byte :=
  let chunk := (drain (.start header) [BTSTACK_SLIP_SOF]).2
  encodeChunkAndSend
    { encoder := .start packet
      dic := dataIntegrityCheck
      dicPresent := (header.headD 0).getLsbD 6 } chunk

/-! ## The bytes the encoder still gives out -/

/-- A byte inside a frame. -/
def slipEscape (byte : Byte) : List Byte :=
  if byte = BTSTACK_SLIP_SOF then [0xDB, 0xDC] else if byte = 0xDB then [0xDB, 0xDD] else [byte]

/-- The bytes inside a frame. -/
def slipEscapes (bytes : List Byte) : List Byte := bytes.flatMap slipEscape

namespace SlipEncoder

/-- What the encoder gives out from here on. -/
def pending (e : SlipEncoder) : List Byte :=
  (match e.state with
    | .default => []
    | .sendDC => [0xDC]
    | .sendDD => [0xDD]) ++ slipEscapes e.data

@[simp] theorem pending_start (data : List Byte) : (start data).pending = slipEscapes data := rfl

theorem pending_done {e : SlipEncoder} (done : e.hasData ≠ true) : e.pending = [] := by
  obtain ⟨state, data⟩ := e
  cases state with
  | default =>
    cases data with
    | nil => rfl
    | cons byte data => exact absurd rfl done
  | sendDC => exact absurd rfl done
  | sendDD => exact absurd rfl done

theorem pending_next {e : SlipEncoder} (more : e.hasData = true) :
    e.pending = e.getByte.1 :: e.getByte.2.pending := by
  obtain ⟨state, data⟩ := e
  cases state with
  | default =>
    cases data with
    | nil => cases more
    | cons byte data =>
      obtain ⟨rfl, next⟩ | ⟨rfl, next⟩ | ⟨⟨sof, escape⟩, next⟩ := getByte_cases byte data <;>
        rw [next]
      · rfl
      · rfl
      · simp only [pending, slipEscapes, List.flatMap_cons, slipEscape, List.nil_append]
        rw [if_neg sof, if_neg escape, List.singleton_append]
  | sendDC => rfl
  | sendDD => rfl

theorem hasData_iff (e : SlipEncoder) : e.hasData = true ↔ e.pending ≠ [] := by
  by_cases more : e.hasData = true
  · simp [more, pending_next more]
  · simp [more, pending_done more]

end SlipEncoder

theorem fillChunk_spec (room : Nat) (e : SlipEncoder) (chunk : List Byte) :
    (fillChunk room e chunk).2 = chunk ++ e.pending.take room ∧
      (fillChunk room e chunk).1.pending = e.pending.drop room := by
  induction room generalizing e chunk with
  | zero => simp [fillChunk]
  | succ room past =>
    rw [fillChunk]
    by_cases more : e.hasData = true
    · obtain ⟨chunks, left⟩ := past e.getByte.2 (chunk ++ [e.getByte.1])
      rw [if_pos more, chunks, left, SlipEncoder.pending_next more]
      simp
    · rw [if_neg more, SlipEncoder.pending_done more]
      simp

theorem drain_spec (e : SlipEncoder) (chunk : List Byte) :
    (drain e chunk).2 = chunk ++ e.pending ∧ (drain e chunk).1.pending = [] := by
  induction e, chunk using drain.induct with
  | case1 e chunk more past =>
    rw [drain, if_pos more, past.1, past.2, SlipEncoder.pending_next more]
    simp
  | case2 e chunk done =>
    rw [drain, if_neg done, SlipEncoder.pending_done done]
    simp

/-! ## The chunks of a frame -/

/-- The check behind the packet. -/
def SlipOutgoing.check (o : SlipOutgoing) : List Byte :=
  if o.dicPresent then bigEndianStore16 o.dic else []

theorem slipEscapes_length (bytes : List Byte) :
    (slipEscapes bytes).length ≤ 2 * bytes.length := by
  induction bytes with
  | nil => simp [slipEscapes]
  | cons byte bytes past =>
    have one : (slipEscape byte).length ≤ 2 := by
      unfold slipEscape
      split_ifs <;> simp
    simp only [slipEscapes, List.flatMap_cons, List.length_append, List.length_cons] at past ⊢
    omega

theorem check_length (o : SlipOutgoing) : (slipEscapes o.check).length ≤ 4 := by
  refine (slipEscapes_length o.check).trans ?_
  unfold SlipOutgoing.check
  split_ifs <;> simp [bigEndianStore16]

/-- What is not sent yet: the rest of the packet, the check and the start byte at the end. -/
def SlipOutgoing.unsent (o : SlipOutgoing) : List Byte :=
  o.encoder.pending ++ slipEscapes o.check ++ [BTSTACK_SLIP_SOF]

/-- One chunk is the next part of what is not sent yet. Either more than a full chunk was
left, and the rest of it still is, or nothing is left. -/
theorem encodeChunkAndSend_spec (o : SlipOutgoing) (chunk : List Byte)
    (short : chunk.length ≤ LINK_SLIP_TX_CHUNK_LEN) :
    let after := encodeChunkAndSend o chunk
    after.2.length ≤ slipOutgoingSize ∧
      (after.1.encoder.hasData = true ∧ after.2.length = LINK_SLIP_TX_CHUNK_LEN ∧
          after.2 ++ after.1.unsent = chunk ++ o.unsent ∨
        after.1.encoder.hasData ≠ true ∧ after.2 = chunk ++ o.unsent) := by
  obtain ⟨filled, left⟩ :=
    fillChunk_spec (LINK_SLIP_TX_CHUNK_LEN - chunk.length) o.encoder chunk
  unfold encodeChunkAndSend
  generalize fillChunk (LINK_SLIP_TX_CHUNK_LEN - chunk.length) o.encoder chunk = full at *
  obtain ⟨e, bytes⟩ := full
  dsimp only at filled left ⊢
  have whole : bytes ++ e.pending = chunk ++ o.encoder.pending := by
    rw [filled, left, List.append_assoc, List.take_append_drop]
  have bound : bytes.length ≤ LINK_SLIP_TX_CHUNK_LEN := by
    rw [filled, List.length_append, List.length_take]
    omega
  by_cases more : e.hasData = true
  · rw [if_pos more]
    have rest := (SlipEncoder.hasData_iff e).mp more
    have long : LINK_SLIP_TX_CHUNK_LEN - chunk.length < o.encoder.pending.length := by
      by_contra all
      rw [left, List.drop_of_length_le (by omega)] at rest
      exact rest rfl
    have length : bytes.length = LINK_SLIP_TX_CHUNK_LEN := by
      rw [filled, List.length_append, List.length_take]
      omega
    refine ⟨bound.trans (by decide), .inl ⟨more, length, ?_⟩⟩
    change bytes ++ (e.pending ++ slipEscapes o.check ++ [BTSTACK_SLIP_SOF]) = _
    rw [← List.append_assoc, ← List.append_assoc, whole, SlipOutgoing.unsent]
    simp only [List.append_assoc]
  · rw [if_neg more]
    have none := SlipEncoder.pending_done more
    rw [none, List.append_nil] at whole
    have check := check_length o
    cases present : o.dicPresent with
    | false =>
      rw [if_neg (by simp)]
      dsimp only
      have empty : o.check = [] := by simp [SlipOutgoing.check, present]
      refine ⟨?_, .inr ⟨more, ?_⟩⟩
      · rw [List.length_append, List.length_singleton]
        unfold slipOutgoingSize
        omega
      · rw [whole, SlipOutgoing.unsent, empty, slipEscapes, List.flatMap_nil, List.append_nil,
          List.append_assoc]
    | true =>
      rw [if_pos rfl]
      obtain ⟨drained, done⟩ := drain_spec (.start (bigEndianStore16 o.dic)) bytes
      have bytesOf : o.check = bigEndianStore16 o.dic := by simp [SlipOutgoing.check, present]
      rw [SlipEncoder.pending_start, ← bytesOf] at drained
      rw [← bytesOf] at done
      dsimp only
      rw [← bytesOf, drained]
      refine ⟨?_, .inr ⟨?_, ?_⟩⟩
      · rw [List.length_append, List.length_append, List.length_singleton]
        unfold slipOutgoingSize
        omega
      · exact fun more => (SlipEncoder.hasData_iff _).mp more done
      · rw [whole, SlipOutgoing.unsent]
        simp only [List.append_assoc]

theorem encodeChunkAndSend_less {o : SlipOutgoing} (more : o.encoder.hasData = true) :
    (encodeChunkAndSend o []).1.encoder.pending.length < o.encoder.pending.length := by
  have some := List.length_pos_of_ne_nil ((SlipEncoder.hasData_iff _).mp more)
  obtain ⟨-, ⟨-, full, joined⟩ | ⟨done, -⟩⟩ := encodeChunkAndSend_spec o [] (by simp)
  · have lengths := congrArg List.length joined
    have same : (encodeChunkAndSend o []).1.check = o.check := by
      unfold encodeChunkAndSend
      dsimp only
      split <;> rfl
    simp only [SlipOutgoing.unsent, List.length_append, full, same, List.length_nil] at lengths
    have positive : 0 < LINK_SLIP_TX_CHUNK_LEN := by decide
    omega
  · rw [SlipEncoder.pending_done done]
    exact some

/-- The chunks `hci_transport_h5_block_sent` sends one after the other, each when the one
before is out. -/
def blockSentChunks (o : SlipOutgoing) : List (List Byte) :=
  if o.encoder.hasData then
    (encodeChunkAndSend o []).2 :: blockSentChunks (encodeChunkAndSend o []).1
  else []
termination_by o.encoder.pending.length
decreasing_by exact encodeChunkAndSend_less (by assumption)

/-- The chunks of a frame. -/
def frameChunks (header packet : List Byte) (dataIntegrityCheck : BitVec 16) :
    List (List Byte) :=
  let (o, chunk) := slipSendFrame header packet dataIntegrityCheck
  chunk :: blockSentChunks o

theorem blockSentChunks_spec (o : SlipOutgoing) :
    (∀ chunk ∈ blockSentChunks o, chunk.length ≤ slipOutgoingSize) ∧
      (o.encoder.hasData = true → (blockSentChunks o).flatten = o.unsent) := by
  induction o using blockSentChunks.induct with
  | case1 o more past =>
    obtain ⟨short, ends⟩ := encodeChunkAndSend_spec o [] (by simp)
    rw [blockSentChunks, if_pos more]
    constructor
    · intro chunk mem
      rcases List.mem_cons.mp mem with rfl | later
      · exact short
      · exact past.1 chunk later
    · intro _
      rw [List.flatten_cons]
      rcases ends with ⟨again, -, joined⟩ | ⟨done, joined⟩
      · rw [past.2 again, joined, List.nil_append]
      · rw [blockSentChunks, if_neg done, List.flatten_nil, List.append_nil, joined,
          List.nil_append]
  | case2 o done =>
    rw [blockSentChunks, if_neg done]
    exact ⟨by simp, fun more => absurd more done⟩

/-- The bytes of a frame: the header, the packet and, if the header announces it, the
check. -/
def slipContent (header packet : List Byte) (dataIntegrityCheck : BitVec 16) : List Byte :=
  header ++ packet ++
    if (header.headD 0).getLsbD 6 then bigEndianStore16 dataIntegrityCheck else []

theorem slipSendFrame_spec (header packet : List Byte) (dic : BitVec 16)
    (short : header.length = 4) :
    let after := slipSendFrame header packet dic
    after.2.length ≤ slipOutgoingSize ∧
      (after.1.encoder.hasData = true ∧ after.2 ++ after.1.unsent =
          BTSTACK_SLIP_SOF :: slipEscapes (slipContent header packet dic) ++ [BTSTACK_SLIP_SOF] ∨
        after.1.encoder.hasData ≠ true ∧ after.2 =
          BTSTACK_SLIP_SOF :: slipEscapes (slipContent header packet dic) ++
            [BTSTACK_SLIP_SOF]) := by
  obtain ⟨headed, -⟩ := drain_spec (.start header) [BTSTACK_SLIP_SOF]
  rw [SlipEncoder.pending_start] at headed
  have room : (BTSTACK_SLIP_SOF :: slipEscapes header).length ≤ LINK_SLIP_TX_CHUNK_LEN := by
    have bound := slipEscapes_length header
    rw [List.length_cons]
    unfold LINK_SLIP_TX_CHUNK_LEN
    omega
  have whole : BTSTACK_SLIP_SOF :: slipEscapes header ++ SlipOutgoing.unsent
        ⟨.start packet, dic, (header.headD 0).getLsbD 6⟩ =
      BTSTACK_SLIP_SOF :: slipEscapes (slipContent header packet dic) ++ [BTSTACK_SLIP_SOF] := by
    simp [SlipOutgoing.unsent, SlipOutgoing.check, slipContent, slipEscapes]
  have spec := encodeChunkAndSend_spec
    ⟨.start packet, dic, (header.headD 0).getLsbD 6⟩ _ room
  rw [whole] at spec
  unfold slipSendFrame
  rw [headed]
  obtain ⟨inside, ⟨more, -, joined⟩ | done⟩ := spec
  · exact ⟨inside, .inl ⟨more, joined⟩⟩
  · exact ⟨inside, .inr done⟩

/-- **The chunks of a frame** stay inside the buffer. -/
theorem frameChunks_inside {header packet : List Byte} {dic : BitVec 16}
    (four : header.length = 4) :
    ∀ chunk ∈ frameChunks header packet dic, chunk.length ≤ slipOutgoingSize := by
  intro chunk mem
  rcases List.mem_cons.mp mem with rfl | later
  · exact (slipSendFrame_spec header packet dic four).1
  · exact (blockSentChunks_spec _).1 chunk later

/-- **Together the chunks are the escaped frame** between two start bytes. -/
theorem frameChunks_joined {header packet : List Byte} {dic : BitVec 16}
    (four : header.length = 4) :
    (frameChunks header packet dic).flatten =
      BTSTACK_SLIP_SOF :: slipEscapes (slipContent header packet dic) ++ [BTSTACK_SLIP_SOF] := by
  have first : (frameChunks header packet dic).flatten =
      (slipSendFrame header packet dic).2 ++
        (blockSentChunks (slipSendFrame header packet dic).1).flatten := List.flatten_cons
  rw [first]
  obtain ⟨-, ⟨more, joined⟩ | ⟨done, joined⟩⟩ := slipSendFrame_spec header packet dic four
  · rw [(blockSentChunks_spec _).2 more, joined]
  · rw [blockSentChunks, if_neg done, List.flatten_nil, List.append_nil, joined]

end PosFirmware.Bluetooth
