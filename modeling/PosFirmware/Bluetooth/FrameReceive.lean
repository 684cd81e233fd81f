import PosFirmware.Bluetooth.Queue
import PosFirmware.Bluetooth.UartReceive

/-!
# H5 frames from the interrupt to the run loop

After the connection `interrupt_uart` decodes the bytes of the Bluetooth port itself. A
frame that is complete goes into the ring `tMasterRecvQueTest`, its length into
`gFrameSizeExt`; `run_bt_loop` calls `hci_transport_h5_process_frame_ext`, which takes the
oldest length and that many bytes. `frames_intact` says that no frame is lost or mixed up in
a run whose frames have from 4 to 1024 bytes and find room in both, where `PortRecvs` does
not fill `temp_buffer` over its end.
-/

namespace PosFirmware.Bluetooth

open PosFirmware.Foundation

/-- `BTSTACK_SLIP_SOF`, the byte around a frame. -/
def BTSTACK_SLIP_SOF : Byte := 0xC0

/-- `decoder_max_size_ext`: `6 + HCI_PACKET_BUFFER_SIZE`. -/
def decoderMaxSizeExt : Nat := 6 + 1699

/-- Number of entries of `gFrameSizeExt`, of `process_frame_ext` and of `temp_buffer`. -/
def arraySize : Nat := 1024

/-- `btstack_slip_decoder_state_t`. -/
inductive SlipDecoderState where
  /-- Nothing of a frame was seen. -/
  | unknown
  /-- Inside a frame. -/
  | active
  /-- Behind a start byte. -/
  | xC0
  /-- Behind an escape byte. -/
  | xDB
  /-- The frame is complete. -/
  | complete
  deriving DecidableEq

/-- The decoder of the interrupt. -/
structure SlipDecoder where
  /-- `decoder_state_ext`. -/
  state : SlipDecoderState
  /-- `decoder_pos_ext`. -/
  pos : Nat
  /-- `decoder_buffer_ext`. -/
  buffer : Nat → Byte

namespace SlipDecoder

/-- `btstack_slip_decoder_reset_ext`. -/
def reset (d : SlipDecoder) : SlipDecoder := { d with state := .unknown, pos := 0 }

/-- `btstack_slip_decoder_store_byte_ext`. -/
def storeByte (input : Byte) (d : SlipDecoder) : SlipDecoder :=
  let d := if decoderMaxSizeExt ≤ d.pos then d.reset else d
  { d with pos := d.pos + 1, buffer := fun i => if i = d.pos then input else d.buffer i }

/-- `btstack_slip_decoder_process_ext`. -/
def process (input : Byte) (d : SlipDecoder) : SlipDecoder :=
  match d.state with
  | .unknown => if input ≠ BTSTACK_SLIP_SOF then d else { d.reset with state := .xC0 }
  | .complete => d.reset
  | .xC0 =>
    if input = BTSTACK_SLIP_SOF then d
    else if input = 0xDB then { d with state := .xDB }
    else { d.storeByte input with state := .active }
  | .xDB =>
    if input = 0xDC then { d.storeByte BTSTACK_SLIP_SOF with state := .active }
    else if input = 0xDD then { d.storeByte 0xDB with state := .active }
    else d.reset
  | .active =>
    if input = BTSTACK_SLIP_SOF then
      if d.pos ≠ 0 then { d with state := .complete } else d.reset
    else if input = 0xDB then { d with state := .xDB }
    else d.storeByte input

/-- The bytes decoded so far. -/
def frame (d : SlipDecoder) : List Byte := (List.range d.pos).map d.buffer

end SlipDecoder

/-- Where the run loop is in `hci_transport_h5_process_frame_ext`. -/
inductive TaskPhase where
  /-- Before the call. -/
  | idle
  /-- The ring was not empty. -/
  | called
  /-- In the loop of `QueGets`, with its length and its index. -/
  | gets (len i : Nat)
  /-- In the loop of `PortRecvs`, with the length `QueGets` returned and the index. -/
  | recvs (len i : Nat)
  /-- `PortRecvs` returned. -/
  | examine (len : Nat)
  deriving DecidableEq

/-- The interrupt side, the run loop, and what they share. -/
structure ReceiveState where
  /-- The decoder of the interrupt. -/
  decoder : SlipDecoder
  /-- `tMasterRecvQueTest`. -/
  queue : RingBuffer Byte
  /-- `gFrameSizeExt`. -/
  frameSizes : Nat → Nat
  /-- `numExt`, where the interrupt writes the next length. -/
  numExt : Nat
  /-- `numExtt`, where the run loop reads the next length. -/
  numExtt : Nat
  /-- `gframe_size`. -/
  gframeSize : Nat
  /-- `gRecvFrameFinish`. -/
  recvFrameFinish : Bool
  /-- `process_frame_ext`. -/
  processFrame : Nat → Byte
  /-- Where the run loop is. -/
  phase : TaskPhase
  /-- An index left its array. -/
  outOfRange : Bool
  /-- The frames the decoder completed. -/
  decoded : List (List Byte)
  /-- The frames the run loop looked at, with the length it took them for. -/
  examined : List (List Byte × Nat)

/-- A byte from the line, or the run loop goes on; `PortRecvs` finds a byte or gives up. -/
inductive ReceiveEvent where
  | arrive (c : Byte)
  | task (delivers : Bool)

/-- `btstack_slip_decoder_frame_size_ext` and what `interrupt_uart` does with its result. -/
def frameSizeExt (s : ReceiveState) : ReceiveState :=
  if s.decoder.state = .complete then
    let size := s.decoder.pos
    let s := { s with
      queue := quePuts s.queue s.decoder.frame
      frameSizes := fun i => if i = s.numExt then size else s.frameSizes i
      outOfRange := s.outOfRange || decide (arraySize ≤ s.numExt)
      numExt := s.numExt + 1
      gframeSize := size
      decoded := s.decoded ++ [s.decoder.frame] }
    if size ≠ 0 then { s with recvFrameFinish := true, decoder := s.decoder.reset } else s
  else { s with gframeSize := 0 }

/-- The part of `interrupt_uart` for a byte of the Bluetooth port with a connection. -/
def interruptUartExt (c : Byte) (s : ReceiveState) : ReceiveState :=
  frameSizeExt { s with decoder := s.decoder.process c }

/-- One step of `run_bt_loop` in `hci_transport_h5_process_frame_ext`. -/
def taskStep (delivers : Bool) (s : ReceiveState) : ReceiveState :=
  let size := s.frameSizes s.numExtt
  match s.phase with
  | .idle =>
    if s.recvFrameFinish = true ∧ ¬ s.gframeSize < 4 ∧ s.queue.head ≠ s.queue.tail then
      { s with phase := .called }
    else s
  | .called =>
    { s with
      phase := .gets (min s.queue.count size) 0
      outOfRange := s.outOfRange || decide (arraySize ≤ s.numExtt) }
  | .gets len i =>
    if i < len then
      { s with
        processFrame := fun j => if j = i then s.queue.buf s.queue.tail else s.processFrame j
        outOfRange := s.outOfRange || decide (arraySize ≤ i)
        queue := s.queue.drop
        phase := .gets len (i + 1) }
    else { s with phase := .recvs len 0 }
  | .recvs len i =>
    if delivers = true ∧ i < size + 2 then
      { s with phase := .recvs len (i + 1), outOfRange := s.outOfRange || decide (arraySize ≤ i) }
    else if len = 0 then { s with phase := .idle }
    else { s with phase := .examine len }
  | .examine _ =>
    -- the four bytes of the header are looked at in any case
    { s with
      numExtt := s.numExtt + 1
      examined := s.examined ++ [((List.range (max 4 size)).map s.processFrame, size)]
      phase := .idle }

/-- One event. -/
def receiveStep (s : ReceiveState) : ReceiveEvent → ReceiveState
  | .arrive c => interruptUartExt c s
  | .task delivers => taskStep delivers s

/-- The transport opened, before the first byte. -/
def startReceive (buffer ring : Nat → Byte) : ReceiveState where
  decoder := ⟨.unknown, 0, buffer⟩
  queue := RingBuffer.empty BT_FIFO_SIZE BT_FIFO_SIZE_pos ring
  frameSizes := fun _ => 0
  numExt := 0
  numExtt := 0
  gframeSize := 0
  recvFrameFinish := false
  processFrame := fun _ => 0
  phase := .idle
  outOfRange := false
  decoded := []
  examined := []

/-- The bytes of the oldest frame that `QueGets` has taken from the ring. -/
def ReceiveState.taken (s : ReceiveState) : List Byte :=
  match s.phase with
  | .idle | .called => []
  | .gets _ i => (List.range i).map s.processFrame
  | .recvs len _ | .examine len => (List.range len).map s.processFrame

/-- **No frame is lost or mixed up**: the frames looked at are the frames decoded, in order
and with their lengths, but for those that wait whole in the ring; no index left its
array. -/
def Lossless (s : ReceiveState) : Prop :=
  s.outOfRange = false ∧
    ∃ waiting : List (List Byte),
      s.decoded.map (fun frame => (frame, frame.length)) =
        s.examined ++ waiting.map (fun frame => (frame, frame.length)) ∧
      s.taken ++ s.queue.contents = waiting.flatten ∧ [] ∉ waiting

/-- A byte that completes a frame finds place for its length and for all its bytes, and the
frame has from 4 to 1024 of them; `PortRecvs` finds no byte for a full `temp_buffer`. -/
def Fits (s : ReceiveState) : ReceiveEvent → Prop
  | .arrive c =>
    (s.decoder.process c).state = .complete →
      s.numExt < arraySize ∧ (s.decoder.process c).pos ≤ s.queue.room ∧
        4 ≤ (s.decoder.process c).pos ∧ (s.decoder.process c).pos ≤ arraySize
  | .task delivers => ∀ len, s.phase = .recvs len arraySize → delivers = false

instance (s : ReceiveState) (event : ReceiveEvent) : Decidable (Fits s event) :=
  match event with
  | .arrive c => inferInstanceAs (Decidable (_ → _))
  | .task delivers =>
    match phase : s.phase with
    | .recvs len i =>
      decidable_of_iff (i = arraySize → delivers = false) (by
        simp only [Fits, phase, TaskPhase.recvs.injEq]
        exact ⟨fun quiet _ same => quiet same.2, fun quiet same => quiet len ⟨rfl, same⟩⟩)
    | .idle | .called | .gets _ _ | .examine _ => isTrue (by simp [Fits, phase])

/-- What the phase of the run loop says about the frames that wait. -/
def PhaseFits (s : ReceiveState) (waiting : List (List Byte)) : Prop :=
  match s.phase with
  | .idle => True
  | .called => waiting ≠ []
  | .gets len i => ∃ front, waiting.head? = some front ∧ len = front.length ∧ i ≤ len
  | .recvs len i =>
    (∃ front, waiting.head? = some front ∧ len = front.length ∧ s.taken = front) ∧ i ≤ arraySize
  | .examine len => ∃ front, waiting.head? = some front ∧ len = front.length ∧ s.taken = front

/-- The ring and the array of lengths in step, with the frames that wait. -/
structure InStep (s : ReceiveState) (waiting : List (List Byte)) : Prop where
  decoded : s.decoded.map (fun frame => (frame, frame.length)) =
    s.examined ++ waiting.map (fun frame => (frame, frame.length))
  bytes : s.taken ++ s.queue.contents = waiting.flatten
  sizes : (List.range' s.numExtt waiting.length).map s.frameSizes = waiting.map List.length
  counted : s.numExtt + waiting.length = s.numExt
  few : s.numExt ≤ arraySize
  bounded : ∀ frame ∈ waiting, 4 ≤ frame.length ∧ frame.length ≤ arraySize
  inRange : s.outOfRange = false
  decoding : s.decoder.state ≠ .complete
  phase : PhaseFits s waiting

theorem InStep.lossless {s : ReceiveState} {waiting : List (List Byte)}
    (inStep : InStep s waiting) : Lossless s := by
  refine ⟨inStep.inRange, waiting, inStep.decoded, inStep.bytes, fun empty => ?_⟩
  have long := (inStep.bounded [] empty).1
  simp at long

theorem InStep.front {s : ReceiveState} {front : List Byte} {rest : List (List Byte)}
    (inStep : InStep s (front :: rest)) : s.frameSizes s.numExtt = front.length := by
  have sizes := inStep.sizes
  rw [List.length_cons, List.range'_succ, List.map_cons, List.map_cons] at sizes
  exact (List.cons.inj sizes).1

theorem InStep.decode {s : ReceiveState} {waiting : List (List Byte)} (inStep : InStep s waiting)
    {decoder : SlipDecoder} (decoding : decoder.state ≠ .complete) (gframeSize : Nat) :
    InStep { s with decoder, gframeSize } waiting :=
  ⟨inStep.decoded, inStep.bytes, inStep.sizes, inStep.counted, inStep.few, inStep.bounded,
    inStep.inRange, decoding, inStep.phase⟩

theorem PhaseFits.append {s after : ReceiveState} {waiting : List (List Byte)}
    (fits : PhaseFits s waiting) (phase : after.phase = s.phase)
    (processFrame : after.processFrame = s.processFrame) (frame : List Byte) :
    PhaseFits after (waiting ++ [frame]) := by
  have taken : after.taken = s.taken := by
    unfold ReceiveState.taken
    rw [phase, processFrame]
  have head {front : List Byte} (first : waiting.head? = some front) :
      (waiting ++ [frame]).head? = some front := by
    rw [List.head?_append, first, Option.some_or]
  unfold PhaseFits at fits ⊢
  rw [phase]
  cases at_ : s.phase with
  | idle => trivial
  | called => simp
  | gets len i =>
    simp only [at_] at fits
    obtain ⟨front, first, length, inside⟩ := fits
    exact ⟨front, head first, length, inside⟩
  | recvs len i =>
    simp only [at_] at fits
    obtain ⟨⟨front, first, length, whole⟩, few⟩ := fits
    exact ⟨⟨front, head first, length, taken.trans whole⟩, few⟩
  | examine len =>
    simp only [at_] at fits
    obtain ⟨front, first, length, whole⟩ := fits
    exact ⟨front, head first, length, taken.trans whole⟩

theorem InStep.complete {s : ReceiveState} {waiting : List (List Byte)} (inStep : InStep s waiting)
    {d : SlipDecoder} (place : s.numExt < arraySize) (room : d.pos ≤ s.queue.room)
    (short : 4 ≤ d.pos) (long : d.pos ≤ arraySize) :
    InStep { s with
      queue := quePuts s.queue d.frame
      frameSizes := fun i => if i = s.numExt then d.pos else s.frameSizes i
      outOfRange := s.outOfRange || decide (arraySize ≤ s.numExt)
      numExt := s.numExt + 1
      gframeSize := d.pos
      decoded := s.decoded ++ [d.frame]
      recvFrameFinish := true
      decoder := d.reset } (waiting ++ [d.frame]) := by
  have length : d.frame.length = d.pos := by simp [SlipDecoder.frame]
  have counted := inStep.counted
  refine ⟨?_, ?_, ?_, ?_, place, ?_, ?_, by simp [SlipDecoder.reset], ?_⟩
  · simp only [List.map_append, inStep.decoded, List.append_assoc]
  · have all : d.frame.take s.queue.room = d.frame := List.take_of_length_le (by omega)
    have pushed : (s.queue.pushAll d.frame).contents = s.queue.contents ++ d.frame :=
      RingBuffer.contents_pushAll (by omega)
    have before := inStep.bytes
    simp only [ReceiveState.taken, quePuts, all, pushed] at before ⊢
    rw [← List.append_assoc, before, List.flatten_append, List.flatten_singleton]
  · have earlier : (List.range' s.numExtt waiting.length).map
        (fun i => if i = s.numExt then d.pos else s.frameSizes i) =
        (List.range' s.numExtt waiting.length).map s.frameSizes := by
      refine List.map_congr_left fun i member => if_neg ?_
      have below := (List.mem_range'_1.mp member).2
      omega
    rw [List.length_append, List.length_singleton, List.range'_1_concat, List.map_append,
      List.map_append, earlier, inStep.sizes, counted]
    simp [length]
  · rw [List.length_append, List.length_singleton]
    exact congrArg (· + 1) counted
  · intro frame member
    rcases List.mem_append.mp member with old | new
    · exact inStep.bounded frame old
    · rw [List.mem_singleton.mp new, length]
      exact ⟨short, long⟩
  · simp [inStep.inRange, Nat.not_le.mpr place]
  · exact inStep.phase.append rfl rfl d.frame

/-- **A byte from the line** keeps the ring and the lengths in step. -/
theorem arrive_inStep {s : ReceiveState} {waiting : List (List Byte)} (inStep : InStep s waiting)
    {c : Byte} (fits : Fits s (.arrive c)) : ∃ waiting, InStep (interruptUartExt c s) waiting := by
  unfold interruptUartExt frameSizeExt
  by_cases complete : (s.decoder.process c).state = .complete
  · obtain ⟨place, room, short, long⟩ := fits complete
    have some : (s.decoder.process c).pos ≠ 0 := by omega
    simp only [complete, if_true, ne_eq, some, not_false_eq_true]
    exact ⟨_, inStep.complete place room short long⟩
  · simp only [complete, if_false]
    exact ⟨waiting, inStep.decode complete 0⟩

theorem InStep.gets {s : ReceiveState} {waiting : List (List Byte)} (inStep : InStep s waiting)
    {len i : Nat} (phase : s.phase = .gets len i) (more : i < len) :
    InStep { s with
      processFrame := fun j => if j = i then s.queue.buf s.queue.tail else s.processFrame j
      outOfRange := s.outOfRange || decide (arraySize ≤ i)
      queue := s.queue.drop
      phase := .gets len (i + 1) } waiting := by
  obtain ⟨front, first, length, inside⟩ : ∃ front, waiting.head? = some front ∧
      len = front.length ∧ i ≤ len := by simpa only [PhaseFits, phase] using inStep.phase
  obtain ⟨rest, rfl⟩ : ∃ rest, waiting = front :: rest := by
    cases waiting with
    | nil => simp at first
    | cons head rest => exact ⟨rest, by rw [Option.some.inj first]⟩
  have bounded := inStep.bounded front List.mem_cons_self
  have before := inStep.bytes
  simp only [ReceiveState.taken, phase] at before
  have some : s.queue.count ≠ 0 := by
    intro none
    have lengths := congrArg List.length before
    simp only [List.length_append, List.length_map, List.length_range,
      RingBuffer.length_contents, List.flatten_cons] at lengths
    omega
  refine ⟨inStep.decoded, ?_, inStep.sizes, inStep.counted, inStep.few, inStep.bounded, ?_,
    inStep.decoding, ?_⟩
  · have written : (List.range i).map
        (fun j => if j = i then s.queue.buf s.queue.tail else s.processFrame j) =
        (List.range i).map s.processFrame :=
      List.map_congr_left fun j member => if_neg (Nat.ne_of_lt (List.mem_range.mp member))
    simp only [ReceiveState.taken, List.range_succ, List.map_append, written, List.map_cons,
      List.map_nil, if_true]
    rw [List.append_assoc, List.singleton_append, ← RingBuffer.contents_drop some]
    exact before
  · have small : ¬ arraySize ≤ i := by omega
    simp [inStep.inRange, small]
  · exact ⟨front, first, length, more⟩

theorem InStep.taken {s : ReceiveState} {waiting : List (List Byte)} (inStep : InStep s waiting)
    {len i : Nat} (phase : s.phase = .gets len i) (done : ¬ i < len) :
    InStep { s with phase := .recvs len 0 } waiting := by
  obtain ⟨front, first, length, inside⟩ : ∃ front, waiting.head? = some front ∧
      len = front.length ∧ i ≤ len := by simpa only [PhaseFits, phase] using inStep.phase
  obtain ⟨rest, rfl⟩ : ∃ rest, waiting = front :: rest := by
    cases waiting with
    | nil => simp at first
    | cons head rest => exact ⟨rest, by rw [Option.some.inj first]⟩
  obtain rfl : i = len := by omega
  have bytes := inStep.bytes
  simp only [ReceiveState.taken, phase, List.flatten_cons] at bytes
  have whole : (List.range i).map s.processFrame = front :=
    (List.append_inj bytes (by simp [length])).1
  refine ⟨inStep.decoded, ?_, inStep.sizes, inStep.counted, inStep.few, inStep.bounded,
    inStep.inRange, inStep.decoding, ⟨front, first, length, whole⟩, Nat.zero_le _⟩
  simpa only [ReceiveState.taken, List.flatten_cons] using bytes

theorem InStep.examine {s : ReceiveState} {waiting : List (List Byte)} (inStep : InStep s waiting)
    {len : Nat} (phase : s.phase = .examine len) :
    ∃ rest, InStep { s with
      numExtt := s.numExtt + 1
      examined := s.examined ++ [((List.range (max 4 (s.frameSizes s.numExtt))).map s.processFrame,
        s.frameSizes s.numExtt)]
      phase := .idle } rest := by
  obtain ⟨front, first, length, whole⟩ : ∃ front, waiting.head? = some front ∧
      len = front.length ∧ s.taken = front := by simpa only [PhaseFits, phase] using inStep.phase
  obtain ⟨rest, rfl⟩ : ∃ rest, waiting = front :: rest := by
    cases waiting with
    | nil => simp at first
    | cons head rest => exact ⟨rest, by rw [Option.some.inj first]⟩
  have bounded := inStep.bounded front List.mem_cons_self
  have counted := inStep.counted
  have bytes := inStep.bytes
  have sizes := inStep.sizes
  rw [whole, List.flatten_cons] at bytes
  rw [List.length_cons, List.range'_succ, List.map_cons, List.map_cons] at sizes
  simp only [ReceiveState.taken, phase] at whole
  have header : max 4 front.length = len := by omega
  rw [List.length_cons] at counted
  refine ⟨rest, ?_, List.append_cancel_left bytes, (List.cons.inj sizes).2, ?_, inStep.few,
    fun frame member => inStep.bounded frame (List.mem_cons_of_mem _ member), inStep.inRange,
    inStep.decoding, trivial⟩
  · simp only [inStep.front, header, whole, inStep.decoded, List.map_cons, List.append_assoc,
      List.singleton_append]
  · simp only
    omega

/-- **A step of the run loop** keeps the ring and the lengths in step. -/
theorem task_inStep {s : ReceiveState} {waiting : List (List Byte)} (inStep : InStep s waiting)
    {delivers : Bool} (fits : Fits s (.task delivers)) :
    ∃ waiting, InStep (taskStep delivers s) waiting := by
  have bytes := inStep.bytes
  unfold taskStep
  cases phase : s.phase with
  | idle =>
    simp only [ReceiveState.taken, phase, List.nil_append] at bytes
    simp only
    split
    · next called =>
      have some : waiting ≠ [] := by
        rintro rfl
        have empty : s.queue.count = 0 := by
          rw [← RingBuffer.length_contents, bytes]
          rfl
        exact called.2.2 ((RingBuffer.count_eq_zero_iff _).mp empty)
      exact ⟨waiting, inStep.decoded, bytes, inStep.sizes, inStep.counted, inStep.few,
        inStep.bounded, inStep.inRange, inStep.decoding, some⟩
    · exact ⟨waiting, inStep⟩
  | called =>
    have some : waiting ≠ [] := by simpa only [PhaseFits, phase] using inStep.phase
    obtain ⟨front, rest, rfl⟩ := List.exists_cons_of_ne_nil some
    have counted := inStep.counted
    have few := inStep.few
    rw [List.length_cons] at counted
    simp only [ReceiveState.taken, phase, List.nil_append] at bytes
    have enough : front.length ≤ s.queue.count := by
      rw [← RingBuffer.length_contents, bytes, List.flatten_cons, List.length_append]
      exact Nat.le_add_right _ _
    have inside : ¬ arraySize ≤ s.numExtt := by omega
    refine ⟨front :: rest, inStep.decoded, bytes, inStep.sizes, inStep.counted, inStep.few,
      inStep.bounded, by simp [inStep.inRange, inside], inStep.decoding, front, rfl, ?_,
      Nat.zero_le _⟩
    rw [inStep.front, Nat.min_eq_right enough]
  | gets len i =>
    simp only
    split
    · next more => exact ⟨waiting, inStep.gets phase more⟩
    · next done => exact ⟨waiting, inStep.taken phase done⟩
  | recvs len i =>
    obtain ⟨⟨front, first, length, whole⟩, few⟩ : (∃ front, waiting.head? = some front ∧
        len = front.length ∧ s.taken = front) ∧ i ≤ arraySize := by
      simpa only [PhaseFits, phase] using inStep.phase
    have bounded := inStep.bounded front (List.mem_of_mem_head? first)
    simp only [ReceiveState.taken, phase] at bytes whole
    simp only
    split
    · next more =>
      have free : i ≠ arraySize := by
        rintro rfl
        rw [fits len phase] at more
        exact Bool.false_ne_true more.1
      have small : ¬ arraySize ≤ i := by omega
      exact ⟨waiting, inStep.decoded, bytes, inStep.sizes, inStep.counted, inStep.few,
        inStep.bounded, by simp [inStep.inRange, small], inStep.decoding,
        ⟨front, first, length, whole⟩, by omega⟩
    · have some : len ≠ 0 := by omega
      simp only [some, if_false]
      exact ⟨waiting, inStep.decoded, bytes, inStep.sizes, inStep.counted, inStep.few,
        inStep.bounded, inStep.inRange, inStep.decoding, front, first, length, whole⟩
  | examine len => exact inStep.examine phase

theorem start_inStep (buffer ring : Nat → Byte) : InStep (startReceive buffer ring) [] := by
  refine ⟨rfl, ?_, rfl, rfl, Nat.zero_le _, by simp, rfl, by simp [startReceive], trivial⟩
  simp [startReceive, ReceiveState.taken, RingBuffer.contents, RingBuffer.count_eq,
    RingBuffer.empty]

/-- Where nothing is left in the ring and the run loop is before its call, it looked at every
frame. -/
theorem Lossless.drained {s : ReceiveState} (lossless : Lossless s) (idle : s.phase = .idle)
    (empty : s.queue.count = 0) :
    s.examined = s.decoded.map fun frame => (frame, frame.length) := by
  obtain ⟨-, waiting, split, bytes, nonempty⟩ := lossless
  have none : s.queue.contents = [] := List.length_eq_zero_iff.mp (by simpa using empty)
  rw [none, ReceiveState.taken, idle] at bytes
  have drained : waiting = [] := by
    cases waiting with
    | nil => rfl
    | cons front rest =>
      have nothing := (List.append_eq_nil_iff.mp bytes.symm).1
      exact absurd (nothing ▸ List.mem_cons_self) nonempty
  rw [split, drained, List.map_nil, List.append_nil]

/-- **No frame is lost or mixed up in a run whose bytes find their place**: the frames looked
at are the frames decoded, in order and whole, but for those that wait in the ring, and all
of them once the ring is empty. -/
theorem frames_intact (buffer ring : Nat → Byte) {events : List ReceiveEvent}
    (fits : Meets receiveStep Fits (startReceive buffer ring) events) :
    let s := runEvents receiveStep (startReceive buffer ring) events
    Lossless s ∧ (s.phase = .idle → s.queue.count = 0 →
      s.examined = s.decoded.map fun frame => (frame, frame.length)) := by
  have kept : ∃ waiting, InStep (runEvents receiveStep (startReceive buffer ring) events) waiting := by
    refine @runEvents_keeps _ _ receiveStep Fits (fun s => ∃ waiting, InStep s waiting) ?_ _
      ⟨[], start_inStep buffer ring⟩ _ fits
    rintro s event ⟨waiting, inStep⟩ fits
    cases event with
    | arrive c => exact arrive_inStep inStep fits
    | task delivers => exact task_inStep inStep fits
  obtain ⟨waiting, inStep⟩ := kept
  exact ⟨inStep.lossless, inStep.lossless.drained⟩

/-- The bytes of a frame arrive and the run loop takes it, with nothing from the port. -/
def frameEvents (frame : List Byte) (steps : Nat) : List ReceiveEvent :=
  ([BTSTACK_SLIP_SOF] ++ frame ++ [BTSTACK_SLIP_SOF]).map ReceiveEvent.arrive ++
    List.replicate steps (.task false)

/-- A frame of four bytes is looked at. -/
theorem frames_intact_header :
    let s := runEvents receiveStep (startReceive (fun _ => 0) fun _ => 0)
      (frameEvents [1, 2, 3, 4] 9)
    Lossless s ∧ (s.phase = .idle → s.queue.count = 0 →
      s.examined = s.decoded.map fun frame => (frame, frame.length)) :=
  frames_intact _ _ (by decide +kernel)

/-- **A frame shorter than a header is mixed up**: it waits until a longer one is complete, and
then the run loop takes it for a header of four bytes. -/
theorem frames_mixed :
    let s := runEvents receiveStep (startReceive (fun _ => 0) fun _ => 0)
      (frameEvents [1] 9 ++ frameEvents [2, 3, 4, 5] 6)
    s.decoded = [[1], [2, 3, 4, 5]] ∧ s.examined = [([1, 0, 0, 0], 1)] ∧ ¬ Lossless s := by
  have decoded : (runEvents receiveStep (startReceive (fun _ => 0) fun _ => 0)
      (frameEvents [1] 9 ++ frameEvents [2, 3, 4, 5] 6)).decoded = [[1], [2, 3, 4, 5]] := by
    decide +kernel
  have examined : (runEvents receiveStep (startReceive (fun _ => 0) fun _ => 0)
      (frameEvents [1] 9 ++ frameEvents [2, 3, 4, 5] 6)).examined = [([1, 0, 0, 0], 1)] := by
    decide +kernel
  refine ⟨decoded, examined, ?_⟩
  rintro ⟨-, waiting, split, -⟩
  rw [decoded, examined] at split
  simp at split

end PosFirmware.Bluetooth
