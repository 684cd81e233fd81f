import PosFirmware.Usb.BulkDevice

/-!
# What a request does

The device seen from outside: the bytes that were received and not read, the bytes that are to be
sent, and the last request. `Ends.respond` says what a request does to them and how it is
answered, and the `switch` of both receivers does that (`onRequest_respond`).
-/

namespace PosFirmware.Usb

open PosFirmware.Foundation

/-- A request with the bytes that it carries. -/
structure Request where
  id : Byte
  reqType : Byte
  payload : List Byte

/-- The request of a record. -/
def BulkIo.request (bulk : BulkIo) : Request where
  id := bulk.id
  reqType := bulk.reqType
  payload := slice bulk.data 0 bulk.len

/-- How a request is answered. -/
inductive Reply where
  | reject
  | reset
  | answer (reqType : Byte) (data : List Byte)

/-- The device seen from outside. -/
structure Ends where
  rx : List Byte
  tx : List Byte
  lastBio : LastBio
  maxdata : Nat

/-- The pools seen from outside. -/
def Pools.ends (pools : Pools) : Ends where
  rx := pools.rx.contents
  tx := pools.tx.contents
  lastBio := pools.lastBio
  maxdata := pools.maxdata

namespace Ends

/-- A number of four bytes, the lowest first. -/
def word (number : Nat) : List Byte :=
  [BitVec.ofNat 8 number, BitVec.ofNat 8 (number / 2 ^ 8), BitVec.ofNat 8 (number / 2 ^ 16),
    BitVec.ofNat 8 (number / 2 ^ 24)]

/-- The state of the pools in an answer. -/
def status (ends : Ends) : List Byte :=
  [TX_POOL_SIZE - 1, RX_POOL_SIZE - 1, ends.tx.length, RX_POOL_SIZE - 1 - ends.rx.length].flatMap
    word

/-- Whether a request shows that the last BULK IN is done with. -/
def Ended (ends : Ends) (request : Request) : Prop :=
  ends.lastBio.reqType = 1 ∧
    ((request.id.toNat : Int) ≠ ends.lastBio.seqNo ∨ request.reqType ≠ 1)

instance (ends : Ends) (request : Request) : Decidable (ends.Ended request) :=
  inferInstanceAs (Decidable (_ ∧ _))

/-- The bytes of a BULK IN that is done with are not sent again. -/
def finish (ends : Ends) (request : Request) : Ends :=
  if ends.Ended request then { ends with tx := ends.tx.drop ends.lastBio.dataLen } else ends

/-- The last request is this one. -/
def backup (ends : Ends) (request : Request) : Ends :=
  { ends with lastBio := { ends.lastBio with
    seqNo := request.id.toNat
    reqType := request.reqType.toNat } }

/-- Whether a BULK OUT repeats the last one. -/
def Repeated (ends : Ends) (request : Request) : Prop :=
  ends.lastBio.reqType = 0 ∧ (request.id.toNat : Int) = ends.lastBio.seqNo

instance (ends : Ends) (request : Request) : Decidable (ends.Repeated request) :=
  inferInstanceAs (Decidable (_ ∧ _))

/-- The bytes that can still be received. -/
def rxLeft (ends : Ends) : Nat := RX_POOL_SIZE - 1 - ends.rx.length

/-- Bytes are received. -/
def receive (ends : Ends) (bytes : List Byte) : Ends := { ends with rx := ends.rx ++ bytes }

/-- The number of bytes that answer a BULK IN. -/
def inLen (fast : Bool) (ends : Ends) (request : Request) : Nat :=
  min (min ends.tx.length
      ((request.payload.getD 0 0).toNat + 256 * (request.payload.getD 1 0).toNat))
    (if fast then ends.maxdata - 1 else ends.maxdata)

/-- A number of bytes answer a BULK IN. -/
def offer (ends : Ends) (n : Nat) : Ends :=
  { ends with lastBio := { ends.lastBio with dataLen := n } }

/-- A BULK OUT. -/
def onOut (ends : Ends) (request : Request) : Ends × Reply :=
  if ends.Repeated request then (ends, .answer 2 ends.status)
  else if ends.rxLeft < request.payload.length then (ends, .answer 0 ends.status)
  else (ends.receive request.payload, .answer 2 (ends.receive request.payload).status)

/-- A BULK IN. -/
def onIn (fast : Bool) (ends : Ends) (request : Request) : Ends × Reply :=
  if request.payload.length < 2 then (ends, .reject)
  else if ends.inLen fast request = 0 then (ends.offer 0, .answer 2 ends.status)
  else (ends.offer (ends.inLen fast request), .answer 1 (ends.tx.take (ends.inLen fast request)))

/-- The longest answer of a receiver. -/
def maxdataOf (fast : Bool) : Nat := if fast then MAXDATA else 508

/-- A request when the last one is done with. -/
def onRequest (fast : Bool) (ends : Ends) (request : Request) : Ends × Reply :=
  match request.reqType.toNat with
  | 0 => ends.onOut request
  | 1 => ends.onIn fast request
  | 2 => (ends, .answer 2 ends.status)
  | 3 => (ends, .reset)
  | 4 =>
    ({ ends with maxdata := maxdataOf fast },
      .answer 4 [BitVec.ofNat 8 (maxdataOf fast), BitVec.ofNat 8 (maxdataOf fast / 256)])
  | _ => (ends, .reject)

/-- What is kept of a request. -/
def remember (request : Request) : Ends × Reply → Ends × Reply
  | (ends, .answer reqType data) => (ends.backup request, .answer reqType data)
  | (ends, reply) => (ends, reply)

/-- A request. -/
def respond (fast : Bool) (ends : Ends) (request : Request) : Ends × Reply :=
  remember request (onRequest fast (ends.finish request) request)

end Ends

/-- What the last BULK IN carried is still to be sent. -/
def Pools.Settled (pools : Pools) : Prop :=
  pools.lastBio.reqType = 1 → pools.lastBio.dataLen ≤ pools.tx.count

/-! ## The pools -/

namespace Pools

theorem settled_congr {pools next : Pools} (same : next.ends = pools.ends)
    (settled : pools.Settled) : next.Settled := by
  have last : next.lastBio = pools.lastBio := congrArg Ends.lastBio same
  have count : next.tx.count = pools.tx.count := by
    have lengths := congrArg (fun ends => ends.tx.length) same
    simp only [Pools.ends, RingBuffer.length_contents] at lengths
    exact lengths
  unfold Settled
  rw [last, count]
  exact settled

@[simp] theorem ends_rx (pools : Pools) : pools.ends.rx = pools.rx.contents := rfl
@[simp] theorem ends_tx (pools : Pools) : pools.ends.tx = pools.tx.contents := rfl
@[simp] theorem ends_lastBio (pools : Pools) : pools.ends.lastBio = pools.lastBio := rfl
@[simp] theorem ends_maxdata (pools : Pools) : pools.ends.maxdata = pools.maxdata := rfl

theorem ends_finishLast {pools : Pools} (settled : pools.Settled) (bulk : BulkIo) :
    (pools.finishLast bulk).ends = pools.ends.finish bulk.request := by
  unfold finishLast Ends.finish Ends.Ended
  split
  · next ended =>
    refine Eq.trans ?_ (if_pos ended).symm
    refine congrArg (fun tx => (⟨_, tx, _, _⟩ : Ends)) ?_
    exact RingBuffer.contents_skip (settled ended.1)
  · next ended =>
    exact (if_neg ended).symm

theorem ends_backup (pools : Pools) (bulk : BulkIo) :
    (pools.backup bulk).ends = pools.ends.backup bulk.request := rfl

theorem bioState_eq (pools : Pools) : pools.bioState = pools.ends.status := by
  unfold bioState Ends.status rxLeft
  rw [ends_rx, ends_tx, RingBuffer.length_contents, RingBuffer.length_contents]
  rfl

theorem bioState_length (pools : Pools) : pools.bioState.length = 16 := rfl

/-- Pools with other bytes to receive into. -/
def withBuf (pools : Pools) (buf : Nat → Byte) : Pools :=
  { pools with rx := { pools.rx with buf := buf }, rx_size := pools.rx_size }

theorem ends_withBuf {pools : Pools} {buf : Nat → Byte}
    (same : ∀ i < pools.rx.count, buf (pools.rx.place i) = pools.rx.buf (pools.rx.place i)) :
    (pools.withBuf buf).ends = pools.ends := by
  refine congrArg (fun rx => (⟨rx, _, _, _⟩ : Ends)) ?_
  exact RingBuffer.contents_congr rfl rfl rfl same

/-- The bytes of a request stand behind the received ones. -/
def Staged (pools : Pools) (bytes : List Byte) : Prop := pools.rx.Staged bytes bytes.length

theorem ends_publish {pools : Pools} {bytes : List Byte} (staged : pools.Staged bytes) :
    (pools.publish bytes.length).ends = { pools.ends with rx := pools.rx.contents ++ bytes } :=
  congrArg (fun rx => (⟨rx, _, _, _⟩ : Ends)) (RingBuffer.contents_publish staged)

theorem count_le_rxLeft {pools : Pools} {n : Nat} (fits : n ≤ pools.rxLeft) :
    pools.rx.count + n < pools.rx.size := by
  have small := pools.rx.count_lt
  have size := pools.rx_size
  unfold rxLeft at fits
  unfold RX_POOL_SIZE at fits size
  omega

theorem staged_of_buf {pools : Pools} {bytes : List Byte} {buf : Nat → Byte}
    (fits : bytes.length ≤ pools.rxLeft)
    (stored : ∀ j, (inside : j < bytes.length) →
      buf ((pools.rx.head + j) % RX_POOL_SIZE) = bytes[j])
    (kept : ∀ x, (∀ j < bytes.length, x ≠ (pools.rx.head + j) % RX_POOL_SIZE) →
      buf x = pools.rx.buf x) :
    (pools.withBuf buf).ends = pools.ends ∧ (pools.withBuf buf).Staged bytes := by
  have room := count_le_rxLeft fits
  constructor
  · refine ends_withBuf fun i early => kept _ fun j inside => ?_
    rw [← pools.rx_size]
    exact RingBuffer.place_ne_ahead early (by omega)
  · refine ⟨room, fun j inside => ?_⟩
    rw [List.getElem?_eq_getElem inside]
    refine congrArg some ?_
    rw [← stored j inside, ← pools.rx_size]
    rfl

/-- **Copying a request** puts it in front of `rx_write`. -/
theorem copyIn_staged {pools : Pools} {bytes : List Byte} (fits : bytes.length ≤ pools.rxLeft) :
    ∃ next, pools.copyIn bytes = some next ∧ next.ends = pools.ends ∧ next.Staged bytes := by
  have room := count_le_rxLeft fits
  have head : pools.rx.head < RX_POOL_SIZE := pools.rx_size ▸ pools.rx.head_lt
  rw [pools.rx_size] at room
  unfold copyIn
  split
  · next whole =>
    refine ⟨_, if_pos whole, staged_of_buf fits (fun j inside => ?_) (fun x apart => ?_)⟩
    · rw [Nat.mod_eq_of_lt (by omega)]
      exact blit_inside inside
    · refine blit_outside ?_
      by_contra within
      refine apart (x - pools.rx.head) (by omega) ?_
      rw [Nat.mod_eq_of_lt (by omega)]
      omega
  · next parts =>
    have front : (bytes.take (RX_POOL_SIZE - pools.rx.head)).length =
        RX_POOL_SIZE - pools.rx.head := by
      rw [List.length_take]
      omega
    have back : (bytes.drop (RX_POOL_SIZE - pools.rx.head)).length =
        bytes.length - (RX_POOL_SIZE - pools.rx.head) := List.length_drop
    have first : pools.rx.head + (bytes.take (RX_POOL_SIZE - pools.rx.head)).length ≤
        RX_POOL_SIZE := by omega
    have second : 0 + (bytes.drop (RX_POOL_SIZE - pools.rx.head)).length ≤ RX_POOL_SIZE := by omega
    rw [copy, if_pos first, Option.bind_some]
    refine ⟨_, if_pos second, staged_of_buf fits (fun j inside => ?_) (fun x apart => ?_)⟩
    · by_cases early : j < RX_POOL_SIZE - pools.rx.head
      · rw [Nat.mod_eq_of_lt (by omega)]
        refine (blit_outside (by omega)).trans ?_
        refine (blit_inside (by omega)).trans ?_
        exact List.getElem_take
      · have wrapped : (pools.rx.head + j) % RX_POOL_SIZE =
            0 + (j - (RX_POOL_SIZE - pools.rx.head)) := by
          rw [Nat.mod_eq_sub_mod (by omega), Nat.mod_eq_of_lt (by omega)]
          omega
        rw [wrapped]
        refine (blit_inside (by omega)).trans ?_
        rw [List.getElem_drop]
        congr 1
        omega
    · refine (blit_outside ?_).trans (blit_outside ?_)
      · by_contra within
        refine apart (x + (RX_POOL_SIZE - pools.rx.head)) (by omega) ?_
        rw [Nat.mod_eq_sub_mod (by omega), Nat.mod_eq_of_lt (by omega)]
        omega
      · by_contra within
        refine apart (x - pools.rx.head) (by omega) ?_
        rw [Nat.mod_eq_of_lt (by omega)]
        omega

end Pools

/-! ## The `switch` -/

theorem BulkIo.fill_of_le {bulk : BulkIo} {bytes : List Byte} (fits : bytes.length ≤ MAXDATA) :
    ∃ data, bulk.fill bytes = some { bulk with data := data } ∧
      slice data 0 bytes.length = bytes := by
  refine ⟨_, if_pos fits, ?_⟩
  exact slice_blit_self

/-- The number of bytes of a checksum behind the data. -/
def sumLen (fast : Bool) : Nat := if fast then 1 else 0

/-- What the `switch` did is what a reply says. -/
def Outcome.Fits (fast : Bool) (bulk : BulkIo) : Outcome → Reply → Prop
  | .reject, .reject => True
  | .reset, .reset => True
  | .answer out, .answer reqType data =>
    (out.id = bulk.id ∧ out.reqType = reqType ∧ out.len = data.length) ∧
      data.length + sumLen fast ≤ MAXDATA ∧ (fast = false ∨ reqType ≠ 1 → slice out.data 0 data.length = data)
  | _, _ => False

theorem answerStatus_fits (fast : Bool) (pools : Pools) (bulk out : BulkIo) (reqType : Byte) :
    ∃ next outcome, answerStatus pools bulk out reqType = some (next, outcome) ∧
      next.ends = pools.ends ∧ outcome.Fits fast bulk (.answer reqType pools.ends.status) := by
  have small : pools.bioState.length + sumLen fast ≤ MAXDATA := by
    rw [Pools.bioState_length]
    cases fast <;> decide
  obtain ⟨data, filled, copied⟩ := @BulkIo.fill_of_le
    { out with id := bulk.id, reqType := reqType, len := 16 } pools.bioState
    (Nat.le_trans (Nat.le_add_right _ _) small)
  rw [answerStatus, filled, Option.map_some]
  refine ⟨_, _, rfl, rfl, ⟨rfl, rfl, rfl⟩, ?_, fun _ => ?_⟩
  · rw [← Pools.bioState_eq]
    exact small
  · rw [← Pools.bioState_eq]
    exact copied

theorem getInfo_fits (fast : Bool) (pools : Pools) (bulk out : BulkIo) :
    ∃ next outcome, getInfo fast pools bulk out = some (next, outcome) ∧
      next.ends = { pools.ends with maxdata := Ends.maxdataOf fast } ∧
      outcome.Fits fast bulk (.answer 4 [BitVec.ofNat 8 (Ends.maxdataOf fast),
        BitVec.ofNat 8 (Ends.maxdataOf fast / 256)]) := by
  obtain ⟨data, filled, copied⟩ := @BulkIo.fill_of_le
    { out with id := bulk.id, reqType := 4, len := 2 }
    [BitVec.ofNat 8 (Ends.maxdataOf fast), BitVec.ofNat 8 (Ends.maxdataOf fast / 256)]
    (show 2 ≤ MAXDATA by decide)
  unfold Ends.maxdataOf at filled copied ⊢
  simp only [getInfo, filled, Option.map_some]
  refine ⟨_, _, rfl, rfl, ⟨rfl, rfl, rfl⟩, ?_, fun _ => copied⟩
  show 2 + sumLen fast ≤ MAXDATA
  cases fast <;> decide

variable {fast : Bool}

/-- The bytes of a new BULK OUT that the fast receiver has stored. -/
def Pools.Stored (fast : Bool) (pools : Pools) (bulk : BulkIo) : Prop :=
  fast = true → bulk.reqType = 0 → ¬ pools.repeated bulk → bulk.len ≤ pools.rxLeft →
    pools.Staged bulk.request.payload

@[simp] theorem BulkIo.length_payload (bulk : BulkIo) :
    bulk.request.payload.length = bulk.len := slice_length ..

theorem Pools.ends_rxLeft (pools : Pools) : pools.ends.rxLeft = pools.rxLeft := by
  rw [Ends.rxLeft, Pools.ends_rx, RingBuffer.length_contents]
  rfl

theorem bulkOut_fits {pools : Pools} {bulk : BulkIo} (out : BulkIo) (isOut : bulk.reqType = 0)
    (stored : pools.Stored fast bulk) :
    ∃ next outcome, bulkOut fast pools bulk out = some (next, outcome) ∧
      next.ends = (pools.ends.onOut bulk.request).1 ∧
      outcome.Fits fast bulk (pools.ends.onOut bulk.request).2 := by
  unfold bulkOut Ends.onOut
  rw [Pools.ends_rxLeft, BulkIo.length_payload]
  by_cases repeated : pools.repeated bulk
  · have same : pools.ends.Repeated bulk.request := repeated
    rw [if_pos repeated, if_pos same]
    exact answerStatus_fits fast pools bulk out 2
  · have same : ¬ pools.ends.Repeated bulk.request := repeated
    rw [if_neg repeated, if_neg same]
    by_cases full : pools.rxLeft < bulk.len
    · rw [if_pos full, if_pos full]
      exact answerStatus_fits fast pools bulk out 0
    · rw [if_neg full, if_neg full]
      have copied : ∃ next, (if fast then some pools
            else pools.copyIn (slice bulk.data 0 bulk.len)) = some next ∧
          next.ends = pools.ends ∧ next.Staged bulk.request.payload := by
        cases fast with
        | true => exact ⟨pools, rfl, rfl, stored rfl isOut repeated (Nat.not_lt.mp full)⟩
        | false =>
          refine @Pools.copyIn_staged _ bulk.request.payload ?_
          rw [BulkIo.length_payload]
          exact Nat.not_lt.mp full
      obtain ⟨next, copies, same, staged⟩ := copied
      rw [copies, Option.bind_some]
      have published : (next.publish bulk.len).ends = pools.ends.receive bulk.request.payload := by
        have done := Pools.ends_publish staged
        rw [BulkIo.length_payload, ← Pools.ends_rx, same] at done
        exact done
      have answered := answerStatus_fits fast (next.publish bulk.len) bulk out 2
      rw [published] at answered
      exact answered

theorem Pools.inLen_eq (fast : Bool) {pools : Pools} {bulk : BulkIo} (long : ¬ bulk.len < 2) :
    pools.inLen fast bulk = pools.ends.inLen fast bulk.request := by
  have first : bulk.request.payload.getD 0 0 = bulk.data 0 := by
    rw [List.getD_eq_getElem?_getD, BulkIo.request, slice_getElem? (by omega)]
    rfl
  have second : bulk.request.payload.getD 1 0 = bulk.data 1 := by
    rw [List.getD_eq_getElem?_getD, BulkIo.request, slice_getElem? (by omega)]
    rfl
  rw [Pools.inLen, Ends.inLen, Pools.ends_tx, RingBuffer.length_contents, first, second]
  rfl

theorem bulkIn_fits {pools : Pools} (bulk out : BulkIo) (small : pools.maxdata ≤ MAXDATA) :
    ∃ next outcome, bulkIn fast pools bulk out = some (next, outcome) ∧
      next.ends = (pools.ends.onIn fast bulk.request).1 ∧
      outcome.Fits fast bulk (pools.ends.onIn fast bulk.request).2 := by
  unfold bulkIn Ends.onIn
  rw [BulkIo.length_payload]
  by_cases short : bulk.len < 2
  · rw [if_pos short, if_pos short]
    exact ⟨_, _, rfl, rfl, trivial⟩
  rw [if_neg short, if_neg short, ← Pools.inLen_eq fast short]
  by_cases empty : pools.inLen fast bulk = 0
  · rw [if_pos empty, if_pos empty]
    exact answerStatus_fits fast
      { pools with lastBio := { pools.lastBio with dataLen := 0 } } bulk out 2
  rw [if_neg empty, if_neg empty]
  have counted : pools.inLen fast bulk ≤ pools.tx.count := by
    unfold Pools.inLen
    omega
  have bounded : pools.inLen fast bulk + sumLen fast ≤ MAXDATA := by
    cases fast with
    | true =>
      unfold Pools.inLen at empty ⊢
      simp only [if_true, sumLen] at empty ⊢
      omega
    | false =>
      unfold Pools.inLen
      simp only [Bool.false_eq_true, if_false, sumLen]
      omega
  have taken : pools.ends.tx.take (pools.inLen fast bulk) =
      (List.range (pools.inLen fast bulk)).map fun i => pools.tx.buf (pools.tx.place i) :=
    RingBuffer.contents_take counted
  have length : ((List.range (pools.inLen fast bulk)).map fun i =>
      pools.tx.buf (pools.tx.place i)).length = pools.inLen fast bulk := by
    rw [List.length_map, List.length_range]
  rw [taken]
  cases fast with
  | true =>
    refine ⟨_, _, rfl, rfl, ⟨rfl, rfl, length.symm⟩, by rw [length]; exact bounded, fun data => ?_⟩
    exact absurd rfl (data.resolve_left (by decide))
  | false =>
    obtain ⟨data, filled, copied⟩ := @BulkIo.fill_of_le out _
      (Nat.le_trans (Nat.le_of_eq length) (Nat.le_trans (Nat.le_add_right _ _) bounded))
    rw [if_neg Bool.false_ne_true, filled, Option.map_some]
    exact ⟨_, _, rfl, rfl, ⟨rfl, rfl, length.symm⟩, by rw [length]; exact bounded, fun _ => copied⟩

/-- **The `switch`** does what a request does to the ends. -/
theorem onRequest_fits {pools : Pools} {bulk : BulkIo} (out : BulkIo)
    (small : pools.maxdata ≤ MAXDATA) (stored : pools.Stored fast bulk) :
    ∃ next outcome, onRequest fast pools bulk out = some (next, outcome) ∧
      next.ends = (pools.ends.onRequest fast bulk.request).1 ∧
      outcome.Fits fast bulk (pools.ends.onRequest fast bulk.request).2 := by
  have same : bulk.request.reqType = bulk.reqType := rfl
  unfold onRequest
  split
  · next type =>
    rw [Ends.onRequest, same, type]
    exact bulkOut_fits out (BitVec.eq_of_toNat_eq type) stored
  · next type =>
    rw [Ends.onRequest, same, type]
    exact bulkIn_fits bulk out small
  · next type =>
    rw [Ends.onRequest, same, type]
    exact answerStatus_fits fast pools bulk out 2
  · next type =>
    rw [Ends.onRequest, same, type]
    exact ⟨_, _, rfl, rfl, trivial⟩
  · next type =>
    rw [Ends.onRequest, same, type]
    exact getInfo_fits fast pools bulk out
  · next isOut isIn status reset info =>
    refine ⟨_, _, rfl, ?_⟩
    unfold Ends.onRequest
    split
    · next type => exact absurd type isOut
    · next type => exact absurd type isIn
    · next type => exact absurd type status
    · next type => exact absurd type reset
    · next type => exact absurd type info
    · exact ⟨rfl, trivial⟩

end PosFirmware.Usb
