import Mathlib.Tactic.IntervalCases
import PosFirmware.Usb.BulkRespond

/-!
# Requests and answers as bytes

A request and an answer have one format (`frame`). `dev_bulk_io` keeps a checksum in the high
halves of the first two bytes, `dev_bulk_io_h` in a byte of its own behind the data. What
`set_checksum` makes is a frame, and a frame is accepted as the request that it was made of.
-/

namespace PosFirmware.Usb

open PosFirmware.Foundation

theorem xorAll_append (front back : List Byte) :
    xorAll (front ++ back) = xorAll front ^^^ xorAll back := by
  have shifted : ∀ (start : Byte) (bytes : List Byte),
      bytes.foldl (· ^^^ ·) start = start ^^^ xorAll bytes := by
    intro start bytes
    induction bytes generalizing start with
    | nil => exact (BitVec.xor_zero).symm
    | cons byte rest past =>
      have one : xorAll (byte :: rest) = rest.foldl (· ^^^ ·) (0 ^^^ byte) := rfl
      have zero : (0 : Byte) ^^^ byte = byte := BitVec.zero_xor
      rw [List.foldl_cons, past, one, past, zero, BitVec.xor_assoc]
  rw [xorAll, List.foldl_append]
  exact shifted _ back

theorem xorAll_singleton (byte : Byte) : xorAll [byte] = byte := BitVec.zero_xor

theorem xorAll_slice_succ (mem : Nat → Byte) (start n : Nat) :
    xorAll (slice mem start (n + 1)) = xorAll (slice mem start n) ^^^ mem (start + n) := by
  have one : slice mem (start + n) 1 = [mem (start + n)] := rfl
  rw [slice_add, xorAll_append, one, xorAll_singleton]

/-- The length of a record. -/
def lenBytes (n : Nat) : List Byte := [BitVec.ofNat 8 n, BitVec.ofNat 8 (n / 256)]

/-- The checksum of `set_checksum`. -/
def halfSum (id reqType : Byte) (data : List Byte) : Byte :=
  xorAll (lenBytes data.length ++ data) ^^^ (id &&& 0x0f) ^^^ (reqType &&& 0x0f)

/-- The bytes in front of the checksum of `dev_bulk_io_h`. -/
def fastBody (id reqType : Byte) (data : List Byte) : List Byte :=
  id :: reqType :: lenBytes (data.length + 1) ++ data

/-- A request or an answer as bytes. -/
def frame (fast : Bool) (id reqType : Byte) (data : List Byte) : List Byte :=
  if fast then fastBody id reqType data ++ [xorAll (fastBody id reqType data)]
  else
    ((id &&& 0x0f) ||| (halfSum id reqType data &&& 0xf0)) ::
      (reqType ||| (halfSum id reqType data <<< 4)) :: lenBytes data.length ++ data

theorem length_frame (fast : Bool) (id reqType : Byte) (data : List Byte) :
    (frame fast id reqType data).length = data.length + sumLen fast + 4 := by
  cases fast with
  | true => simp [frame, fastBody, lenBytes, sumLen]
  | false => simp [frame, lenBytes, sumLen]

/-! ## Records -/

theorem BulkIo.slice_byte (bulk : BulkIo) :
    slice bulk.byte 0 (bulk.len + 4) =
      bulk.id :: bulk.reqType :: lenBytes bulk.len ++ slice bulk.data 0 bulk.len := by
  have rest : slice bulk.byte 4 bulk.len = slice bulk.data 0 bulk.len := by
    unfold slice
    refine List.map_congr_left fun i _ => ?_
    rw [Nat.add_comm 4 i, Nat.zero_add]
    rfl
  rw [Nat.add_comm, slice_add, Nat.zero_add, rest]
  rfl

theorem BulkIo.slice_byte_two (bulk : BulkIo) :
    slice bulk.byte 2 (bulk.len + 2) = lenBytes bulk.len ++ slice bulk.data 0 bulk.len := by
  have whole := bulk.slice_byte
  rw [show bulk.len + 4 = 2 + (bulk.len + 2) by omega, slice_add, Nat.zero_add] at whole
  exact @List.append_cancel_left _ [bulk.id, bulk.reqType] _ _ whole

theorem checksum_eq (bulk : BulkIo) :
    checksum bulk = halfSum bulk.id bulk.reqType (slice bulk.data 0 bulk.len) := by
  rw [checksum, BulkIo.slice_byte_two, halfSum, slice_length]

/-- **`set_checksum` makes a frame.** -/
theorem slice_setChecksum (bulk : BulkIo) :
    slice (setChecksum bulk).byte 0 (bulk.len + 4) =
      frame false bulk.id bulk.reqType (slice bulk.data 0 bulk.len) := by
  have bytes := (setChecksum bulk).slice_byte
  have len : (setChecksum bulk).len = bulk.len := rfl
  rw [len] at bytes
  rw [bytes, frame, if_neg Bool.false_ne_true, slice_length, ← checksum_eq]
  rfl

/-! ## Accepting -/

/-- A request that the format can carry. -/
structure Request.Valid (fast : Bool) (request : Request) : Prop where
  fits : request.payload.length + sumLen fast + 4 ≤ TMPS_SIZE
  id : fast = false → request.id &&& 0x0f = request.id
  reqType : fast = false → request.reqType &&& 0x0f = request.reqType

/-- A request as bytes. -/
def Request.bytes (fast : Bool) (request : Request) : List Byte :=
  frame fast request.id request.reqType request.payload

theorem toNat_lenBytes {n : Nat} (small : n < 65536) :
    (BitVec.ofNat 8 n).toNat + 256 * (BitVec.ofNat 8 (n / 256)).toNat = n := by
  rw [BitVec.toNat_ofNat, BitVec.toNat_ofNat]
  omega

theorem BulkIo.of_held {tmps : Nat → Byte} {n m : Nat} {a b : Byte} {data rest : List Byte}
    (held : slice tmps 0 n = a :: b :: (lenBytes m ++ (data ++ rest))) (small : m < 65536) :
    (BulkIo.of tmps).id = a ∧ (BulkIo.of tmps).reqType = b ∧ (BulkIo.of tmps).len = m ∧
      slice (BulkIo.of tmps).data 0 data.length = data := by
  have length := congrArg List.length held
  simp only [slice_length, List.length_cons, List.length_append, lenBytes, List.length_nil] at length
  rw [show n = 4 + (data.length + rest.length) by omega, slice_add, Nat.zero_add] at held
  have regroup : a :: b :: (lenBytes m ++ (data ++ rest)) =
      ([a, b] ++ lenBytes m) ++ (data ++ rest) := rfl
  have parts := List.append_inj (held.trans regroup) rfl
  have header : [tmps 0, tmps 1, tmps 2, tmps 3] = [a, b] ++ lenBytes m := parts.1
  injection header with first header
  injection header with second header
  injection header with third header
  injection header with fourth
  refine ⟨first, second, ?_, ?_⟩
  · show (tmps 2).toNat + 256 * (tmps 3).toNat = m
    rw [third, fourth]
    exact toNat_lenBytes small
  · have body := parts.2
    rw [slice_add] at body
    refine Eq.trans ?_ (List.append_inj body (slice_length ..)).1
    unfold slice
    refine List.map_congr_left fun i _ => ?_
    rw [Nat.add_comm 4 i, Nat.zero_add]
    rfl

theorem low_of_halves (x a : Byte) : ((x &&& 0x0f) ||| (a &&& 0xf0)) &&& 0x0f = x &&& 0x0f := by
  ext i inside
  interval_cases i <;> simp

theorem high_of_halves (x a : Byte) : ((x &&& 0x0f) ||| (a &&& 0xf0)) &&& 0xf0 = a &&& 0xf0 := by
  ext i inside
  interval_cases i <;> simp

theorem low_of_shifted (x a : Byte) : (x ||| (a <<< 4)) &&& 0x0f = x &&& 0x0f := by
  ext i inside
  interval_cases i <;> simp

theorem high_of_shifted {x : Byte} (small : x &&& 0x0f = x) (a : Byte) :
    (x ||| (a <<< 4)) >>> 4 = a &&& 0x0f := by
  rw [← small]
  ext i inside
  interval_cases i <;> simp

theorem add_halves (a : Byte) : (a &&& 0xf0) + (a &&& 0x0f) = a := by
  rw [BitVec.add_eq_or_of_and_eq_zero]
  · ext i inside
    interval_cases i <;> simp
  · ext i inside
    interval_cases i <;> simp

theorem Request.Valid.small {fast : Bool} {request : Request} (valid : request.Valid fast) :
    request.payload.length + 1 < 65536 := by
  have fits := valid.fits
  unfold TMPS_SIZE MAXDATA at fits
  omega

/-- **`verify_checksum` accepts a frame** as what it was made of. -/
theorem verifyChecksum_frame {tmps : Nat → Byte} {n : Nat} {request : Request}
    (valid : request.Valid false) (held : slice tmps 0 n = request.bytes false) :
    ∃ bulk, verifyChecksum (BulkIo.of tmps) = some bulk ∧ bulk.request = request := by
  obtain ⟨id, reqType, payload⟩ := request
  have small : payload.length < 65536 := Nat.lt_of_succ_lt valid.small
  have whole : slice tmps 0 n = ((id &&& 0x0f) ||| (halfSum id reqType payload &&& 0xf0)) ::
      (reqType ||| (halfSum id reqType payload <<< 4)) ::
        (lenBytes payload.length ++ (payload ++ [])) := by
    rw [held, List.append_nil]
    rfl
  obtain ⟨first, second, len, data⟩ := BulkIo.of_held whole small
  have idLow : (BulkIo.of tmps).id &&& 0x0f = id := by
    rw [first, low_of_halves, valid.id rfl]
  have typeLow : (BulkIo.of tmps).reqType &&& 0x0f = reqType := by
    rw [second, low_of_shifted, valid.reqType rfl]
  have sum : checksum (BulkIo.of tmps) = halfSum id reqType payload := by
    have idSame : id &&& 0x0f = id := valid.id rfl
    have typeSame : reqType &&& 0x0f = reqType := valid.reqType rfl
    rw [checksum_eq, len, data, halfSum, halfSum, idLow, typeLow, idSame, typeSame]
  have right : checksum (BulkIo.of tmps) =
      ((BulkIo.of tmps).id &&& (0xf0 : Byte)) + ((BulkIo.of tmps).reqType >>> 4) := by
    rw [sum, first, second, high_of_halves, high_of_shifted (valid.reqType rfl), add_halves]
  refine ⟨_, if_pos right, ?_⟩
  simp only [BulkIo.request, idLow, typeLow, len]
  rw [data]

theorem xorAll_frame (id reqType : Byte) (data : List Byte) : xorAll (frame true id reqType data) = 0 := by
  rw [frame, if_pos rfl, xorAll_append, xorAll_singleton, BitVec.xor_self]
  rfl

theorem fast_held {tmps : Nat → Byte} {n : Nat} {request : Request} (valid : request.Valid true)
    (held : slice tmps 0 n = request.bytes true) :
    (BulkIo.of tmps).len = request.payload.length + 1 ∧
      ({ BulkIo.of tmps with len := (BulkIo.of tmps).len - 1 } : BulkIo).request = request := by
  obtain ⟨id, reqType, payload⟩ := request
  have whole : slice tmps 0 n = id :: reqType ::
      (lenBytes (payload.length + 1) ++ (payload ++ [xorAll (fastBody id reqType payload)])) := by
    rw [held, ← List.append_assoc]
    rfl
  obtain ⟨first, second, len, data⟩ := BulkIo.of_held whole valid.small
  refine ⟨len, ?_⟩
  simp only [BulkIo.request, first, second, len, Nat.add_sub_cancel]
  rw [data]

theorem frame_cases (fast : Bool) (id reqType : Byte) (data : List Byte) :
    ∃ a b body, frame fast id reqType data = a :: b :: (lenBytes (data.length + sumLen fast) ++ body)
      ∧ (fast = true → b = reqType) := by
  cases fast with
  | true =>
    refine ⟨id, reqType, data ++ [xorAll (fastBody id reqType data)], ?_, fun _ => rfl⟩
    rw [← List.append_assoc]
    rfl
  | false => exact ⟨_, _, data, rfl, nofun⟩

theorem header_held {fast : Bool} {tmps : Nat → Byte} {n : Nat} {request : Request}
    (valid : request.Valid fast) (long : 4 ≤ n)
    (held : slice tmps 0 n = (request.bytes fast).take n) :
    (BulkIo.of tmps).len + 4 = (request.bytes fast).length ∧
      (fast = true → tmps 1 = request.reqType) := by
  obtain ⟨a, b, body, cases_, type⟩ :=
    frame_cases fast request.id request.reqType request.payload
  have total := length_frame fast request.id request.reqType request.payload
  have taken : slice tmps 0 n = a :: b ::
      (lenBytes (request.payload.length + sumLen fast) ++ ([] ++ body.take (n - 4))) := by
    obtain ⟨m, rfl⟩ := Nat.exists_eq_add_of_le' long
    rw [held, Request.bytes, cases_]
    rfl
  have fits := valid.fits
  unfold TMPS_SIZE MAXDATA at fits
  obtain ⟨_, second, len, _⟩ := BulkIo.of_held taken (by omega)
  refine ⟨?_, fun isFast => second.trans (type isFast)⟩
  rw [len, Request.bytes, total]

end PosFirmware.Usb
