import PosFirmware.Bluetooth.UartReceive
import PosFirmware.Foundation.RingBuffer

/-!
# Queues

`T_Queue` of `queue1.c`: what its operations do to what is between the places.
-/

namespace PosFirmware.Bluetooth

open PosFirmware.Foundation

/-- `BT_FIFO_SIZE`, the size of the queues. -/
def BT_FIFO_SIZE : Nat := 8193

theorem BT_FIFO_SIZE_pos : 0 < BT_FIFO_SIZE := by decide

/-- `T_Queue`. -/
abbrev Queue := RingBuffer Byte

/-- `QueReset`. -/
def queReset (q : Queue) : Queue :=
  RingBuffer.empty q.size (Nat.zero_lt_of_lt q.head_lt) q.buf

/-- `QueIsEmpty`. -/
def queIsEmpty (q : Queue) : Bool := q.head = q.tail

/-- `QueIsFull`. -/
def queIsFull (q : Queue) : Bool := (q.head + 1) % q.size = q.tail

/-- The loop of `QueGets`. -/
def queGetsLoop : Nat → Queue → List Byte × Queue
  | 0, q => ([], q)
  | n + 1, q =>
    let (rest, after) := queGetsLoop n q.drop
    (q.buf q.tail :: rest, after)

/-- `QueGets`. -/
def queGets (size : Nat) (q : Queue) : List Byte × Queue :=
  let iLen := (q.head + q.size - q.tail) % q.size
  queGetsLoop (if size ≤ iLen then size else iLen) q

/-- The loop of `QueGetsWithoutDelete`. -/
def quePeekLoop (q : Queue) : Nat → Nat → List Byte
  | 0, _ => []
  | n + 1, tail => q.buf tail :: quePeekLoop q n ((tail + 1) % q.size)

/-- `QueGetsWithoutDelete`. -/
def queGetsWithoutDelete (size : Nat) (q : Queue) : List Byte :=
  let iLen := (q.head + q.size - q.tail) % q.size
  quePeekLoop q (if size ≤ iLen then size else iLen) q.tail

/-- `QueCheckCapability`. -/
def queCheckCapability (q : Queue) : Nat := q.room

/-- `QuePuts`: what does not fit is left out. -/
def quePuts (queue : RingBuffer Byte) (bytes : List Byte) : RingBuffer Byte :=
  queue.pushAll (bytes.take queue.room)

variable {q : Queue}

@[simp] theorem queReset_size (q : Queue) : (queReset q).size = q.size := rfl

theorem contents_queReset (q : Queue) : (queReset q).contents = [] :=
  RingBuffer.contents_empty ..

theorem queIsEmpty_iff : queIsEmpty q = true ↔ q.contents = [] := by
  rw [queIsEmpty, decide_eq_true_iff, ← List.length_eq_zero_iff, RingBuffer.length_contents,
    RingBuffer.count_eq_zero_iff]

theorem queGetsLoop_eq {n : Nat} (there : n ≤ q.count) :
    (queGetsLoop n q).1 = q.contents.take n ∧
      (queGetsLoop n q).2.contents = q.contents.drop n := by
  induction n generalizing q with
  | zero => exact ⟨rfl, rfl⟩
  | succ n past =>
    have some : q.count ≠ 0 := by omega
    have one := RingBuffer.count_drop some
    have rest := @past q.drop (by omega)
    rw [RingBuffer.contents_drop some]
    exact ⟨congrArg (q.buf q.tail :: ·) rest.1, rest.2⟩

theorem queGets_eq (size : Nat) (q : Queue) :
    (queGets size q).1 = q.contents.take size ∧
      (queGets size q).2.contents = q.contents.drop size := by
  have length := q.length_contents
  have bound : (if size ≤ q.count then size else q.count) ≤ q.count := by split <;> omega
  have got := queGetsLoop_eq bound
  unfold queGets
  change (queGetsLoop (if size ≤ q.count then size else q.count) q).1 = _ ∧
    (queGetsLoop (if size ≤ q.count then size else q.count) q).2.contents = _
  rw [got.1, got.2]
  split
  · exact ⟨rfl, rfl⟩
  · rw [List.take_of_length_le (by omega), List.take_of_length_le (by omega),
      List.drop_of_length_le (by omega), List.drop_of_length_le (by omega)]
    exact ⟨rfl, rfl⟩

theorem quePeekLoop_eq {n i : Nat} :
    quePeekLoop q n (q.place i) = (List.range n).map fun j => q.buf (q.place (i + j)) := by
  induction n generalizing i with
  | zero => rfl
  | succ n past =>
    have next : (q.place i + 1) % q.size = q.place (i + 1) := by
      rw [RingBuffer.place, RingBuffer.place, Nat.mod_add_mod, Nat.add_assoc]
    rw [quePeekLoop, next, past, List.range_succ_eq_map, List.map_cons, List.map_map]
    refine congrArg (q.buf (q.place i) :: ·) (List.map_congr_left fun j _ => ?_)
    rw [Function.comp_apply, Nat.add_assoc, Nat.add_comm 1 j]

theorem queGetsWithoutDelete_eq (size : Nat) (q : Queue) :
    queGetsWithoutDelete size q = q.contents.take size := by
  have start : q.tail = q.place 0 := (Nat.mod_eq_of_lt q.tail_lt).symm
  unfold queGetsWithoutDelete
  change quePeekLoop q (if size ≤ q.count then size else q.count) q.tail = _
  rw [start, quePeekLoop_eq, RingBuffer.contents, ← List.map_take, List.take_range]
  simp only [Nat.zero_add]
  congr 2

theorem contents_quePuts (q : Queue) (buf : List Byte) :
    (quePuts q buf).contents = q.contents ++ buf.take q.room := by
  apply RingBuffer.contents_pushAll
  rw [List.length_take]
  exact Nat.min_le_left ..

end PosFirmware.Bluetooth
