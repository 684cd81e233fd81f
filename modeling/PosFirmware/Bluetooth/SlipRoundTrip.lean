import PosFirmware.Bluetooth.SlipEncode

/-!
# SLIP frames from the encoder to the decoders

The decoder of the run loop and the one of the interrupt are the same code on two sets of
variables. A frame that fits the decoder buffer comes out as it went in. In a longer one
the byte that finds the buffer full is stored at its start again: the frame is given up if
that byte was sent as it is, and goes on if it was escaped, as the caller sets the state back
(`slip_roundTrip_iff`).
-/

namespace PosFirmware.Bluetooth

/-- `decoder_max_size`: `6 + HCI_PACKET_BUFFER_SIZE`. -/
def decoderMaxSize : Nat := 6 + 1699

/-- `btstack_slip_decoder_reset`. -/
def slipDecoderReset (d : SlipDecoder) : SlipDecoder := { d with state := .unknown, pos := 0 }

/-- `btstack_slip_decoder_store_byte`. -/
def slipDecoderStoreByte (input : Byte) (d : SlipDecoder) : SlipDecoder :=
  let d := if decoderMaxSize ≤ d.pos then slipDecoderReset d else d
  { d with pos := d.pos + 1, buffer := fun i => if i = d.pos then input else d.buffer i }

/-- `btstack_slip_decoder_process`. -/
def slipDecoderProcess (input : Byte) (d : SlipDecoder) : SlipDecoder :=
  match d.state with
  | .unknown => if input ≠ BTSTACK_SLIP_SOF then d else { slipDecoderReset d with state := .xC0 }
  | .complete => slipDecoderReset d
  | .xC0 =>
    if input = BTSTACK_SLIP_SOF then d
    else if input = 0xDB then { d with state := .xDB }
    else { slipDecoderStoreByte input d with state := .active }
  | .xDB =>
    if input = 0xDC then { slipDecoderStoreByte BTSTACK_SLIP_SOF d with state := .active }
    else if input = 0xDD then { slipDecoderStoreByte 0xDB d with state := .active }
    else slipDecoderReset d
  | .active =>
    if input = BTSTACK_SLIP_SOF then
      if d.pos ≠ 0 then { d with state := .complete } else slipDecoderReset d
    else if input = 0xDB then { d with state := .xDB }
    else slipDecoderStoreByte input d

/-- **The two decoders** do the same with every byte. -/
theorem slipDecoderProcess_eq : slipDecoderProcess = SlipDecoder.process := rfl

/-- `btstack_slip_decoder_frame_size`. -/
def slipFrameSize (d : SlipDecoder) : Nat := if d.state = .complete then d.pos else 0

/-- The bytes from the line in one of the receivers: a frame of some size is taken, and
`hci_transport_slip_init` starts the decoder again. -/
def slipReceive (process : Byte → SlipDecoder → SlipDecoder) :
    SlipDecoder → List Byte → SlipDecoder × List (List Byte)
  | d, [] => (d, [])
  | d, byte :: bytes =>
    let d := process byte d
    if slipFrameSize d ≠ 0 then
      let (after, frames) := slipReceive process (slipDecoderReset d) bytes
      (after, d.frame :: frames)
    else slipReceive process d bytes

/-- The decoder is not inside a frame. -/
def SlipDecoder.Outside (d : SlipDecoder) : Prop := d.state ≠ .active ∧ d.state ≠ .xDB

/-- A frame sent after some garbage, at a decoder that had seen nothing. -/
structure SlipRoundTrip (d : SlipDecoder) (garbage header packet : List Byte)
    (dataIntegrityCheck : BitVec 16) : Prop where
  /-- The chunks stay inside the buffer. -/
  inside : ∀ chunk ∈ frameChunks header packet dataIntegrityCheck, chunk.length ≤ slipOutgoingSize
  /-- A frame that fits the decoder is the one frame completed. -/
  fits : (slipContent header packet dataIntegrityCheck).length ≤ decoderMaxSize →
    ∀ process ∈ [slipDecoderProcess, SlipDecoder.process],
      (slipReceive process (slipReceive process d garbage).1
        (frameChunks header packet dataIntegrityCheck).flatten).2 =
          [slipContent header packet dataIntegrityCheck]
  /-- A frame that does not fit is not completed. -/
  refused : ¬ (slipContent header packet dataIntegrityCheck).length ≤ decoderMaxSize →
    ∀ process ∈ [slipDecoderProcess, SlipDecoder.process],
      (slipReceive process (slipReceive process d garbage).1
        (frameChunks header packet dataIntegrityCheck).flatten).2 = []
  /-- Both decoders make the same of every input. -/
  same : ∀ bytes, slipReceive slipDecoderProcess d bytes = slipReceive SlipDecoder.process d bytes

/-- A byte that is sent as it is. -/
def Unescaped (byte : Byte) : Prop := byte ≠ BTSTACK_SLIP_SOF ∧ byte ≠ 0xDB

instance (byte : Byte) : Decidable (Unescaped byte) := inferInstanceAs (Decidable (_ ∧ _))

/-- One of the bytes that find the decoder buffer full is sent as it is. -/
def GivenUp (content : List Byte) : Prop :=
  ∃ k byte, content[(k + 1) * decoderMaxSize]? = some byte ∧ Unescaped byte

/-! ## One byte -/

namespace SlipDecoder

/-- Ready for a byte of a frame. -/
def Open (d : SlipDecoder) : Prop := d.state = .active ∨ d.state = .xC0

theorem storeByte_room {d : SlipDecoder} (room : d.pos < decoderMaxSize) (byte : Byte) :
    d.storeByte byte = { d with
      pos := d.pos + 1
      buffer := fun i => if i = d.pos then byte else d.buffer i } := by
  have below : ¬ decoderMaxSizeExt ≤ d.pos := not_le.mpr room
  simp only [storeByte, if_neg below]

theorem storeByte_full {d : SlipDecoder} (full : decoderMaxSize ≤ d.pos) (byte : Byte) :
    d.storeByte byte = { d with
      state := .unknown
      pos := 1
      buffer := fun i => if i = 0 then byte else d.buffer i } := by
  have above : decoderMaxSizeExt ≤ d.pos := full
  simp only [storeByte, if_pos above, reset]

theorem frame_stored {d : SlipDecoder} (room : d.pos < decoderMaxSize) (byte : Byte) :
    (d.storeByte byte).frame = d.frame ++ [byte] := by
  rw [storeByte_room room]
  simp only [frame, List.range_succ, List.map_append, List.map_singleton, if_true]
  congr 1
  apply List.map_congr_left
  intro i below
  rw [if_neg (by have := List.mem_range.mp below; omega)]

end SlipDecoder

section Receive

open SlipDecoder

variable {d : SlipDecoder} {byte : Byte}

theorem slipReceive_goesOn (going : (d.process byte).state ≠ .complete) (bytes : List Byte) :
    slipReceive SlipDecoder.process d (byte :: bytes) =
      slipReceive SlipDecoder.process (d.process byte) bytes := by
  rw [slipReceive]
  simp only [slipFrameSize, if_neg going, ne_eq, not_true_eq_false, if_false]

theorem slipReceive_escaped (ready : d.Open) (escaped : ¬ Unescaped byte) (bytes : List Byte) :
    slipReceive SlipDecoder.process d (slipEscape byte ++ bytes) =
      slipReceive SlipDecoder.process { d.storeByte byte with state := .active } bytes := by
  have special : byte = BTSTACK_SLIP_SOF ∨ byte = 0xDB := by
    by_contra neither
    exact escaped (not_or.mp neither)
  have first : d.process 0xDB = { d with state := .xDB } := by
    rcases ready with state | state <;> simp [process, state, BTSTACK_SLIP_SOF]
  have start : ∀ second : Byte,
      slipReceive SlipDecoder.process d (0xDB :: second :: bytes) =
        slipReceive SlipDecoder.process { d with state := .xDB } (second :: bytes) := by
    intro second
    rw [slipReceive_goesOn (by rw [first]; exact fun same => by cases same), first]
  rcases special with rfl | rfl
  · have second : ({ d with state := .xDB } : SlipDecoder).process 0xDC =
        { d.storeByte BTSTACK_SLIP_SOF with state := .active } := by
      by_cases full : decoderMaxSizeExt ≤ d.pos <;> simp [process, storeByte, full, reset]
    change slipReceive _ d (0xDB :: 0xDC :: bytes) = _
    rw [start, slipReceive_goesOn (by rw [second]; exact fun same => by cases same), second]
  · have second : ({ d with state := .xDB } : SlipDecoder).process 0xDD =
        { d.storeByte 0xDB with state := .active } := by
      by_cases full : decoderMaxSizeExt ≤ d.pos <;> simp [process, storeByte, full, reset]
    change slipReceive _ d (0xDB :: 0xDD :: bytes) = _
    rw [start, slipReceive_goesOn (by rw [second]; exact fun same => by cases same), second]

theorem slipReceive_room (ready : d.Open) (room : d.pos < decoderMaxSize) (bytes : List Byte) :
    slipReceive SlipDecoder.process d (slipEscape byte ++ bytes) =
      slipReceive SlipDecoder.process { d.storeByte byte with state := .active } bytes := by
  by_cases plain : Unescaped byte
  · have stored : d.process byte = { d.storeByte byte with state := .active } := by
      rcases ready with state | state
      · simp only [process, state]
        rw [if_neg plain.1, if_neg plain.2, storeByte_room room]
        simp only [state]
      · simp only [process, state]
        rw [if_neg plain.1, if_neg plain.2]
    have itself : slipEscape byte = [byte] := (if_neg plain.1).trans (if_neg plain.2)
    rw [itself, List.singleton_append, slipReceive_goesOn (by rw [stored]; nofun), stored]
  · exact slipReceive_escaped ready plain bytes

theorem slipReceive_full (active : d.state = .active) (full : decoderMaxSize ≤ d.pos)
    (plain : Unescaped byte) (bytes : List Byte) :
    slipReceive SlipDecoder.process d (slipEscape byte ++ bytes) =
      slipReceive SlipDecoder.process (d.storeByte byte) bytes := by
  have stored : d.process byte = d.storeByte byte := by
    simp only [process, active]
    rw [if_neg plain.1, if_neg plain.2]
  have itself : slipEscape byte = [byte] := (if_neg plain.1).trans (if_neg plain.2)
  have going : (d.process byte).state ≠ .complete := by
    rw [stored, storeByte_full full]
    nofun
  rw [itself, List.singleton_append, slipReceive_goesOn going, stored]

theorem slipReceive_end (active : d.state = .active) (some : d.pos ≠ 0) :
    slipReceive SlipDecoder.process d [BTSTACK_SLIP_SOF] = (slipDecoderReset d, [d.frame]) := by
  have complete : d.process BTSTACK_SLIP_SOF = { d with state := .complete } := by
    simp [process, active, some]
  simp only [slipReceive, complete, slipFrameSize, if_true, if_pos some]
  rfl

theorem slipReceive_ignored (given : d.state = .unknown) (content : List Byte) :
    (slipReceive SlipDecoder.process d (slipEscapes content ++ [BTSTACK_SLIP_SOF])).2 = [] := by
  have skip : ∀ byte : Byte, byte ≠ BTSTACK_SLIP_SOF → ∀ bytes,
      slipReceive SlipDecoder.process d (byte :: bytes) =
        slipReceive SlipDecoder.process d bytes := by
    intro byte other bytes
    have same : d.process byte = d := by simp [process, given, other]
    rw [slipReceive_goesOn (by rw [same, given]; nofun), same]
  induction content with
  | nil =>
    have begun : d.process BTSTACK_SLIP_SOF = { d.reset with state := .xC0 } := by
      simp [process, given]
    change (slipReceive _ d [BTSTACK_SLIP_SOF]).2 = []
    rw [slipReceive_goesOn (by rw [begun]; nofun)]
    rfl
  | cons byte content past =>
    have escapes : slipEscapes (byte :: content) = slipEscape byte ++ slipEscapes content := rfl
    rw [escapes, List.append_assoc]
    unfold slipEscape
    split_ifs with sof escape
    · rw [List.cons_append, skip _ (by decide), List.singleton_append, skip _ (by decide), past]
    · rw [List.cons_append, skip _ (by decide), List.singleton_append, skip _ (by decide), past]
    · rw [List.singleton_append, skip _ sof, past]

/-! ## A frame -/

theorem slipReceive_fits (content : List Byte) (ready : d.Open)
    (fits : d.pos + content.length ≤ decoderMaxSize) (some : d.state = .xC0 → content ≠ [])
    (started : d.state = .active → d.pos ≠ 0) :
    (slipReceive SlipDecoder.process d (slipEscapes content ++ [BTSTACK_SLIP_SOF])).2 =
      [d.frame ++ content] := by
  induction content generalizing d with
  | nil =>
    have active : d.state = .active := ready.resolve_right fun state => some state rfl
    change (slipReceive _ d [BTSTACK_SLIP_SOF]).2 = _
    rw [slipReceive_end active (started active), List.append_nil]
  | cons byte content past =>
    rw [List.length_cons] at fits
    have room : d.pos < decoderMaxSize := by omega
    have stored := storeByte_room room byte
    have escapes : slipEscapes (byte :: content) = slipEscape byte ++ slipEscapes content := rfl
    rw [escapes, List.append_assoc, slipReceive_room ready room]
    have rest := @past { d.storeByte byte with state := .active } (.inl rfl)
      (by rw [stored]; simp only; omega) nofun (by rw [stored]; simp)
    rw [rest]
    have frame : ({ d.storeByte byte with state := .active } : SlipDecoder).frame =
        (d.storeByte byte).frame := rfl
    rw [frame, frame_stored room, List.append_assoc, List.singleton_append]

/-- The decoder gives a frame up behind the bytes stored. -/
def givesUp : Nat → List Byte → Prop
  | _, [] => False
  | pos, byte :: content =>
    if pos < decoderMaxSize then givesUp (pos + 1) content
    else Unescaped byte ∨ givesUp 1 content

theorem slipReceive_givesUp (content : List Byte) (active : d.state = .active)
    (started : d.pos ≠ 0) :
    (slipReceive SlipDecoder.process d (slipEscapes content ++ [BTSTACK_SLIP_SOF])).2 = [] ↔
      givesUp d.pos content := by
  induction content generalizing d with
  | nil =>
    change (slipReceive _ d [BTSTACK_SLIP_SOF]).2 = _ ↔ _
    rw [slipReceive_end active started]
    simp [givesUp]
  | cons byte content past =>
    have escapes : slipEscapes (byte :: content) = slipEscape byte ++ slipEscapes content := rfl
    rw [escapes, List.append_assoc, givesUp]
    by_cases room : d.pos < decoderMaxSize
    · rw [if_pos room, slipReceive_room (.inl active) room, past rfl (by
        rw [storeByte_room room]; simp), storeByte_room room]
    · have full := not_lt.mp room
      rw [if_neg room]
      by_cases plain : Unescaped byte
      · rw [slipReceive_full active full plain]
        refine iff_of_true (slipReceive_ignored ?_ content) (.inl plain)
        rw [storeByte_full full]
      · rw [slipReceive_escaped (.inl active) plain, past rfl (by
          rw [storeByte_full full]; simp), storeByte_full full]
        simp only [plain, false_or]

/-- Where the decoder gives up, in numbers: the first byte that finds the buffer full, and
every `decoder_max_size` bytes after it. -/
theorem givesUp_iff (content : List Byte) {pos : Nat} (started : 0 < pos)
    (inside : pos ≤ decoderMaxSize) :
    givesUp pos content ↔ ∃ k byte,
      content[decoderMaxSize - pos + k * decoderMaxSize]? = some byte ∧ Unescaped byte := by
  have positive : 0 < decoderMaxSize := by decide
  induction content generalizing pos with
  | nil => simp [givesUp]
  | cons byte content past =>
    rw [givesUp]
    by_cases room : pos < decoderMaxSize
    · have index : ∀ k, decoderMaxSize - pos + k * decoderMaxSize =
          decoderMaxSize - (pos + 1) + k * decoderMaxSize + 1 := by
        intro k
        omega
      rw [if_pos room]
      refine (past (by omega) (by omega)).trans ?_
      simp only [index, List.getElem?_cons_succ]
    · obtain rfl : pos = decoderMaxSize := by omega
      rw [if_neg room, Nat.sub_self]
      refine (or_congr_right (past (by omega) (by omega))).trans ?_
      have index : ∀ k, (0 + (k + 1) * decoderMaxSize) =
          decoderMaxSize - 1 + k * decoderMaxSize + 1 := by
        intro k
        rw [Nat.succ_mul]
        omega
      constructor
      · rintro (plain | ⟨k, other, at_, plain⟩)
        · exact ⟨0, byte, by simp, plain⟩
        · exact ⟨k + 1, other, by rw [index, List.getElem?_cons_succ, at_], plain⟩
      · rintro ⟨k, other, at_, plain⟩
        cases k with
        | zero =>
          obtain rfl : byte = other := by simpa using at_
          exact .inl plain
        | succ k =>
          rw [index, List.getElem?_cons_succ] at at_
          exact .inr ⟨k, other, at_, plain⟩

theorem slipReceive_none (content : List Byte) (some : content ≠ []) (state : d.state = .xC0)
    (fresh : d.pos = 0) :
    (slipReceive SlipDecoder.process d (slipEscapes content ++ [BTSTACK_SLIP_SOF])).2 = [] ↔
      GivenUp content := by
  cases content with
  | nil => exact absurd rfl some
  | cons byte content =>
    have room : d.pos < decoderMaxSize := by rw [fresh]; decide
    have stored := storeByte_room room byte
    have escapes : slipEscapes (byte :: content) = slipEscape byte ++ slipEscapes content := rfl
    rw [escapes, List.append_assoc, slipReceive_room (.inr state) room,
      slipReceive_givesUp content rfl (by rw [stored]; simp), stored]
    simp only [fresh]
    rw [givesUp_iff content (by decide) (by decide), GivenUp]
    have index : ∀ k, (k + 1) * decoderMaxSize =
        decoderMaxSize - (0 + 1) + k * decoderMaxSize + 1 := by
      intro k
      have positive : 0 < decoderMaxSize := by decide
      rw [Nat.succ_mul]
      omega
    simp only [index, List.getElem?_cons_succ]

/-- Between two frames the decoder is behind a start byte with an empty buffer, or waits
for one. -/
def SlipDecoder.Between (d : SlipDecoder) : Prop :=
  d.state ≠ .complete ∧ (d.state = .xC0 → d.pos = 0)

theorem between_process (between : d.Between) :
    (slipFrameSize (d.process byte) ≠ 0 ∨ (d.process byte).Between) := by
  obtain ⟨open_, clean⟩ := between
  unfold slipFrameSize SlipDecoder.Between
  cases state : d.state with
  | unknown =>
    simp only [process, state]
    split_ifs <;> simp [reset, state]
  | complete => exact absurd state open_
  | xC0 =>
    simp only [process, state]
    split_ifs <;> simp_all
  | xDB =>
    simp only [process, state]
    split_ifs <;> simp [reset]
  | active =>
    simp only [process, state, storeByte]
    split_ifs <;> simp_all [reset]

theorem between_receive (between : d.Between) (garbage : List Byte) :
    (slipReceive SlipDecoder.process d garbage).1.Between := by
  induction garbage generalizing d with
  | nil => exact between
  | cons byte garbage past =>
    rw [slipReceive]
    dsimp only
    split
    · exact past ⟨nofun, nofun⟩
    · next none => exact past ((between_process between).resolve_left none)

theorem slipReceive_start (between : d.Between) (outside : d.Outside) (bytes : List Byte) :
    ∃ begun : SlipDecoder, begun.state = .xC0 ∧ begun.pos = 0 ∧
      slipReceive SlipDecoder.process d (BTSTACK_SLIP_SOF :: bytes) =
        slipReceive SlipDecoder.process begun bytes := by
  cases state : d.state with
  | unknown =>
    have begun : d.process BTSTACK_SLIP_SOF = { d.reset with state := .xC0 } := by
      simp [process, state]
    exact ⟨_, rfl, rfl, by rw [slipReceive_goesOn (by rw [begun]; nofun), begun]⟩
  | xC0 =>
    have same : d.process BTSTACK_SLIP_SOF = d := by simp [process, state]
    exact ⟨d, state, between.2 state, by
      rw [slipReceive_goesOn (by rw [same, state]; nofun), same]⟩
  | complete => exact absurd state between.1
  | xDB => exact absurd state outside.2
  | active => exact absurd state outside.1

end Receive

theorem slipReceive_frame {d : SlipDecoder} (fresh : d.state = .unknown) {garbage : List Byte}
    (outside : (slipReceive SlipDecoder.process d garbage).1.Outside) {header : List Byte}
    (four : header.length = 4) (packet : List Byte) (dic : BitVec 16) :
    let content := slipContent header packet dic
    let reported := (slipReceive SlipDecoder.process
      (slipReceive SlipDecoder.process d garbage).1 (frameChunks header packet dic).flatten).2
    (content.length ≤ decoderMaxSize → reported = [content]) ∧
      (reported = [] ↔ GivenUp content) := by
  have between : d.Between := by
    constructor
    all_goals
      rw [fresh]
      exact fun same => by cases same
  obtain ⟨begun, state, zero, start⟩ := slipReceive_start (between_receive between garbage) outside
    (slipEscapes (slipContent header packet dic) ++ [BTSTACK_SLIP_SOF])
  have some : slipContent header packet dic ≠ [] := by
    intro none
    have length := congrArg List.length none
    simp only [slipContent, List.length_append, four, List.length_nil] at length
    omega
  dsimp only
  rw [frameChunks_joined four, List.cons_append, start]
  refine ⟨fun fits => ?_, slipReceive_none _ some state zero⟩
  have active : begun.state = .active → begun.pos ≠ 0 := fun same => by
    rw [state] at same
    cases same
  rw [slipReceive_fits _ (.inr state) (by omega) (fun _ => some) active]
  simp [SlipDecoder.frame, zero]

/-- **A SLIP frame makes the round trip** exactly when it fits the decoder buffer, or one of
the bytes that find the buffer full is sent as it is. -/
theorem slip_roundTrip_iff (h0 h1 h2 h3 : Byte) (packet : List Byte)
    (dataIntegrityCheck : BitVec 16) {d : SlipDecoder} (fresh : d.state = .unknown)
    {garbage : List Byte} (outside : (slipReceive slipDecoderProcess d garbage).1.Outside) :
    SlipRoundTrip d garbage [h0, h1, h2, h3] packet dataIntegrityCheck ↔
      (slipContent [h0, h1, h2, h3] packet dataIntegrityCheck).length ≤ decoderMaxSize ∨
        GivenUp (slipContent [h0, h1, h2, h3] packet dataIntegrityCheck) := by
  obtain ⟨whole, none⟩ := 
    @slipReceive_frame d fresh garbage outside [h0, h1, h2, h3] rfl packet dataIntegrityCheck
  constructor
  · intro trip
    by_cases fits : (slipContent [h0, h1, h2, h3] packet dataIntegrityCheck).length ≤
        decoderMaxSize
    · exact .inl fits
    · exact .inr (none.mp (trip.refused fits _ (by simp)))
  · intro condition
    refine ⟨frameChunks_inside rfl, ?_, ?_, fun _ => rfl⟩
    · intro fits process mem
      have each : process = SlipDecoder.process := by simpa [slipDecoderProcess_eq] using mem
      rw [each]
      exact whole fits
    · intro long process mem
      have each : process = SlipDecoder.process := by simpa [slipDecoderProcess_eq] using mem
      rw [each]
      exact none.mpr (condition.resolve_left long)

/-- A decoder that has seen nothing. -/
def freshSlipDecoder : SlipDecoder := ⟨.unknown, 0, fun _ => 0⟩

/-- A frame with an escaped payload after two bytes of garbage. -/
theorem slip_roundTrip_iff_short :
    SlipRoundTrip freshSlipDecoder [0x55, 0xDB] [0x40, 0x20, 0x00, 0x9F] [0xC0, 0xDB] 0xC0DB ↔
      (slipContent [0x40, 0x20, 0x00, 0x9F] [0xC0, 0xDB] 0xC0DB).length ≤ decoderMaxSize ∨
        GivenUp (slipContent [0x40, 0x20, 0x00, 0x9F] [0xC0, 0xDB] 0xC0DB) :=
  slip_roundTrip_iff _ _ _ _ _ _ rfl ⟨by decide, by decide⟩

/-- **A frame that does not fit is reported**: 1706 bytes of which the last is a start byte
in the payload come out as a frame of one byte. -/
theorem slip_overlong_reported :
    ¬ SlipRoundTrip freshSlipDecoder [] [0, 0, 0, 0] (List.replicate 1701 0 ++ [0xC0]) 0 := by
  intro trip
  have content : slipContent [0, 0, 0, 0] (List.replicate 1701 0 ++ [0xC0]) 0 =
      List.replicate 1705 0 ++ [0xC0] := by
    have whole : slipContent [0, 0, 0, 0] (List.replicate 1701 0 ++ [0xC0]) 0 =
        List.replicate 4 0 ++ (List.replicate 1701 0 ++ [0xC0]) ++ [] := rfl
    rw [whole, List.append_nil, ← List.append_assoc, List.replicate_append_replicate]
  have long : (slipContent [0, 0, 0, 0] (List.replicate 1701 0 ++ [0xC0]) 0).length = 1706 := by
    rw [content, List.length_append, List.length_replicate, List.length_singleton]
  have refused := trip.refused (by rw [long]; decide) SlipDecoder.process (by simp)
  obtain ⟨k, byte, at_, plain⟩ :=
    (@slipReceive_frame freshSlipDecoder rfl [] ⟨by decide, by decide⟩ _ rfl _ 0).2.mp refused
  have below := (List.getElem?_eq_some_iff.mp at_).1
  rw [long] at below
  obtain rfl : k = 0 := by
    by_contra some
    have : 2 * decoderMaxSize ≤ (k + 1) * decoderMaxSize := Nat.mul_le_mul_right _ (by omega)
    have : decoderMaxSize = 1705 := rfl
    omega
  rw [content, List.getElem?_append_right (by rw [List.length_replicate]; decide),
    List.length_replicate] at at_
  obtain rfl : 0xC0 = byte := by simpa [decoderMaxSize] using at_
  exact plain.1 rfl

end PosFirmware.Bluetooth
