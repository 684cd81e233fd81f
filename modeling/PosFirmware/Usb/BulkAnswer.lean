import PosFirmware.Usb.BulkFrame

/-!
# Answers in packets

The host fetches an answer packet by packet. The fast receiver prepares each packet when the one
before it was fetched, from the bytes that are to be sent. The packets together are the answer
(`answer_fetched`).
-/

namespace PosFirmware.Usb

open PosFirmware.Foundation

/-! ## Preparing -/

theorem BulkIo.byte_update (bulk : BulkIo) (k : Nat) (byte : Byte) (i : Nat) :
    ({ bulk with data := Function.update bulk.data k byte } : BulkIo).byte i =
      if i = k + 4 then byte else bulk.byte i := by
  match i with
  | 0 | 1 | 2 | 3 =>
    rw [if_neg (by omega)]
    rfl
  | i + 4 =>
    show Function.update bulk.data k byte i = _
    rw [Function.update_apply]
    by_cases same : i = k
    · rw [if_pos same, if_pos (by omega)]
    · rw [if_neg same, if_neg (by omega)]
      rfl

/-- An answer of the fast receiver whose bytes in front of `check_i` are prepared. -/
structure Device.Preparing (s : Device) (wire : List Byte) : Prop where
  len : s.bulkOut.len + 4 = wire.length
  short : wire.length ≤ MAXDATA + 4
  checkI_lt : s.checkI < wire.length
  done : ∀ i < s.checkI, wire[i]? = some (s.bulkOut.byte i)
  source : ∀ i, s.checkI ≤ i → i + 1 < wire.length →
    wire[i]? = some (if s.bulkOut.reqType = 1 ∧ 4 ≤ i then
      s.pools.tx.buf (s.pools.tx.place (i - 4)) else s.bulkOut.byte i)
  inside : s.bulkOut.reqType = 1 → wire.length ≤ s.pools.tx.count + 5
  sum : s.checkSum = xorAll (wire.take s.checkI)
  last : wire[wire.length - 1]? = some (xorAll (wire.take (wire.length - 1)))

theorem xorAll_take_succ {wire : List Byte} {i : Nat} {byte : Byte} (there : wire[i]? = some byte) :
    xorAll (wire.take (i + 1)) = xorAll (wire.take i) ^^^ byte := by
  rw [List.take_add_one, there, xorAll_append]
  exact congrArg _ (xorAll_singleton byte)

theorem Device.Preparing.step {s : Device} {wire : List Byte} (preparing : s.Preparing wire)
    (more : s.checkI + 1 < wire.length) :
    ∃ out sum, s.prepare = some { s with bulkOut := out, checkSum := sum, checkI := s.checkI + 1 } ∧
      ({ s with bulkOut := out, checkSum := sum, checkI := s.checkI + 1 } : Device).Preparing
        wire := by
  have len := preparing.len
  have next := preparing.source s.checkI (Nat.le_refl _) more
  unfold prepare
  by_cases copies : s.bulkOut.reqType = 1 ∧ 4 ≤ s.checkI
  · rw [if_pos copies] at next
    have inside : s.checkI - 4 < MAXDATA := by
      have short := preparing.short
      omega
    have place : (s.pools.tx.tail + (s.checkI - 4)) % TX_POOL_SIZE =
        s.pools.tx.place (s.checkI - 4) := by
      rw [RingBuffer.place, s.pools.tx_size]
    have index : s.checkI - 4 + 4 = s.checkI := Nat.sub_add_cancel copies.2
    rw [if_pos ⟨copies.1, copies.2, by omega⟩, if_pos inside, place]
    refine ⟨_, _, rfl, ⟨len, preparing.short, more, fun i early => ?_, fun i late early => ?_,
      preparing.inside, ?_, preparing.last⟩⟩
    · show _ = some (BulkIo.byte { s.bulkOut with data := Function.update s.bulkOut.data _ _ } i)
      rw [BulkIo.byte_update, index]
      by_cases same : i = s.checkI
      · rw [if_pos same, same, next]
      · rw [if_neg same]
        exact preparing.done i (Nat.lt_of_le_of_ne (Nat.lt_succ_iff.mp early) same)
    · change s.checkI + 1 ≤ i at late
      rw [preparing.source i (by omega) early]
      refine congrArg some (if_congr Iff.rfl rfl ?_)
      show _ = BulkIo.byte { s.bulkOut with data := Function.update s.bulkOut.data _ _ } i
      rw [BulkIo.byte_update, index, if_neg (by omega)]
    · show s.checkSum ^^^ BulkIo.byte { s.bulkOut with
        data := Function.update s.bulkOut.data _ _ } s.checkI = _
      rw [BulkIo.byte_update, if_pos index.symm, xorAll_take_succ next, preparing.sum]
  · rw [if_neg copies] at next
    rw [if_neg fun all => copies ⟨all.1, all.2.1⟩]
    refine ⟨s.bulkOut, _, rfl, ⟨len, preparing.short, more, fun i early => ?_,
      fun i late early => preparing.source i (Nat.le_of_succ_le late) early, preparing.inside, ?_,
      preparing.last⟩⟩
    · by_cases same : i = s.checkI
      · rw [same, next]
      · exact preparing.done i (Nat.lt_of_le_of_ne (Nat.lt_succ_iff.mp early) same)
    · show s.checkSum ^^^ s.bulkOut.byte s.checkI = _
      rw [xorAll_take_succ next, preparing.sum]

theorem Device.Preparing.steps {s : Device} {wire : List Byte} (preparing : s.Preparing wire)
    {n : Nat} (more : s.checkI + n < wire.length) :
    ∃ out sum, s.prepareAll n =
        some { s with bulkOut := out, checkSum := sum, checkI := s.checkI + n } ∧
      ({ s with bulkOut := out, checkSum := sum, checkI := s.checkI + n } : Device).Preparing
        wire := by
  induction n generalizing s with
  | zero => exact ⟨s.bulkOut, s.checkSum, rfl, preparing⟩
  | succ n past =>
    obtain ⟨out, sum, one, then_⟩ := preparing.step (by omega)
    obtain ⟨out, sum, rest, last⟩ := past then_
      (show s.checkI + 1 + n < wire.length by omega)
    have index : s.checkI + 1 + n = s.checkI + (n + 1) := by omega
    change Device.prepareAll _ n = some { s with
      bulkOut := out, checkSum := sum, checkI := s.checkI + 1 + n } at rest
    change Device.Preparing { s with
      bulkOut := out, checkSum := sum, checkI := s.checkI + 1 + n } wire at last
    rw [index] at rest last
    exact ⟨out, sum, by rw [prepareAll, one]; exact rest, last⟩

/-- An answer whose first `n` bytes are prepared. -/
structure Device.PreparedTo (s : Device) (wire : List Byte) (n : Nat) : Prop where
  preparing : s.Preparing wire
  checkI : s.checkI = min n (wire.length - 1)
  closed : s.checkI + 1 = wire.length → wire[s.checkI]? = some (s.bulkOut.byte s.checkI)

theorem Device.PreparedTo.byte {s : Device} {wire : List Byte} {n : Nat}
    (prepared : s.PreparedTo wire n) {i : Nat} (early : i < n) (inside : i < wire.length) :
    wire[i]? = some (s.bulkOut.byte i) := by
  have place := prepared.checkI
  by_cases last : i < s.checkI
  · exact prepared.preparing.done i last
  · have same : i = s.checkI := by omega
    rw [same]
    exact prepared.closed (by omega)

theorem Device.Preparing.close {s : Device} {wire : List Byte} (preparing : s.Preparing wire)
    (all : s.checkI + 1 = wire.length) (some_ : 1 ≤ s.bulkOut.len) :
    ∃ out, s.closeAnswer = some { s with bulkOut := out } ∧
      ({ s with bulkOut := out } : Device).Preparing wire ∧
      wire[s.checkI]? = some (out.byte s.checkI) := by
  have len := preparing.len
  have short := preparing.short
  have index : s.bulkOut.len - 1 + 4 = s.checkI := by omega
  have inside : s.bulkOut.len - 1 < MAXDATA := by omega
  refine ⟨_, if_pos inside, ⟨len, short, preparing.checkI_lt, fun i early => ?_,
    fun i late early => ?_, preparing.inside, preparing.sum, preparing.last⟩, ?_⟩
  · show _ = some (BulkIo.byte { s.bulkOut with data := Function.update s.bulkOut.data _ _ } i)
    rw [BulkIo.byte_update, index, if_neg (Nat.ne_of_lt early)]
    exact preparing.done i early
  · change s.checkI ≤ i at late
    exact absurd early (by omega)
  · rw [BulkIo.byte_update, if_pos index.symm, preparing.sum]
    have last := preparing.last
    rw [← all, Nat.add_sub_cancel] at last
    exact last

/-- **Preparing the next packet.** -/
theorem Device.PreparedTo.next {s : Device} {wire : List Byte} {n : Nat}
    (prepared : s.PreparedTo wire n) (tn : s.tn = wire.length) (some_ : 1 ≤ s.bulkOut.len) :
    ∃ out sum i, s.prepareNext = some { s with bulkOut := out, checkSum := sum, checkI := i } ∧
      ({ s with bulkOut := out, checkSum := sum, checkI := i } : Device).PreparedTo wire
        (n + EP1_BUF_SIZE) := by
  have preparing := prepared.preparing
  have place := prepared.checkI
  have short := preparing.short
  have low := preparing.checkI_lt
  have rest : (s.tn + 2 ^ 32 - 1 - s.checkI) % 2 ^ 32 = wire.length - 1 - s.checkI := by
    unfold MAXDATA at short
    omega
  unfold prepareNext
  rw [rest]
  by_cases full : EP1_BUF_SIZE < wire.length - 1 - s.checkI
  · rw [if_pos full]
    have more : s.checkI + EP1_BUF_SIZE < wire.length := by omega
    obtain ⟨out, sum, runs, then_⟩ := preparing.steps more
    refine ⟨out, sum, _, runs, then_, ?_, fun all => ?_⟩
    · show s.checkI + EP1_BUF_SIZE = _
      omega
    · change s.checkI + EP1_BUF_SIZE + 1 = wire.length at all
      omega
  · have count : s.tn - 1 - s.checkI = wire.length - 1 - s.checkI := by rw [tn]
    rw [if_neg full]
    by_cases part : wire.length - 1 - s.checkI ≠ 0
    · rw [if_pos part, count]
      obtain ⟨out, sum, runs, then_⟩ := preparing.steps (n := wire.length - 1 - s.checkI) (by omega)
      rw [runs, Option.bind_some]
      have all : s.checkI + (wire.length - 1 - s.checkI) + 1 = wire.length := by omega
      have len : out.len = s.bulkOut.len := by
        have before := preparing.len
        have after := then_.len
        exact Nat.add_right_cancel (after.trans before.symm)
      obtain ⟨closed, closes, ready, last⟩ := then_.close all (Nat.le_trans some_ (Nat.le_of_eq len.symm))
      refine ⟨closed, sum, _, closes, ready, ?_, fun _ => last⟩
      show s.checkI + (wire.length - 1 - s.checkI) = _
      omega
    · rw [if_neg part]
      refine ⟨s.bulkOut, s.checkSum, s.checkI, rfl, preparing, ?_, prepared.closed⟩
      show s.checkI = _
      omega

/-! ## Sending -/

/-- The bytes of an answer that can be sent. -/
def Device.Covers (fast : Bool) (s : Device) (wire : List Byte) (n : Nat) : Prop :=
  if fast then s.PreparedTo wire n ∧ 1 ≤ s.bulkOut.len
  else ∀ i < wire.length, wire[i]? = some (s.bulkOut.byte i)

theorem Device.Covers.byte {fast : Bool} {s : Device} {wire : List Byte} {n : Nat}
    (covers : s.Covers fast wire n) {i : Nat} (early : i < n) (inside : i < wire.length) :
    wire[i]? = some (s.bulkOut.byte i) := by
  cases fast with
  | true => exact covers.1.byte early inside
  | false => exact covers i inside

theorem Device.Covers.congr {fast : Bool} {s s' : Device} {wire : List Byte} {n : Nat}
    (covers : s.Covers fast wire n) (pools : s'.pools = s.pools) (out : s'.bulkOut = s.bulkOut)
    (sum : s'.checkSum = s.checkSum) (checkI : s'.checkI = s.checkI) :
    s'.Covers fast wire n := by
  cases fast with
  | true =>
    obtain ⟨⟨⟨len, short, low, done, source, inside, total, last⟩, place, closed⟩, some_⟩ := covers
    rw [← pools, ← out, ← checkI] at source
    rw [← pools, ← out] at inside
    rw [← out, ← checkI] at done closed
    rw [← out] at len some_
    rw [← checkI] at low place
    rw [← sum, ← checkI] at total
    exact ⟨⟨⟨len, short, low, done, source, inside, total, last⟩, place, closed⟩, some_⟩
  | false =>
    intro i inside
    rw [out]
    exact covers i inside

theorem Device.Covers.slice {fast : Bool} {s : Device} {wire : List Byte} {at_ k : Nat}
    (covers : s.Covers fast wire (at_ + EP1_BUF_SIZE)) (short : k ≤ EP1_BUF_SIZE)
    (inside : at_ + k ≤ wire.length) :
    wire.take at_ ++ Foundation.slice s.bulkOut.byte at_ k = wire.take (at_ + k) := by
  rw [List.take_add]
  refine congrArg _ (List.ext_getElem? fun i => ?_)
  rw [List.getElem?_take]
  split
  · next early =>
    rw [slice_getElem? early, List.getElem?_drop]
    exact (covers.byte (by omega) (by omega)).symm
  · next late => exact List.getElem?_eq_none (by rw [slice_length]; omega)

/-- An answer that the host fetches. -/
structure Device.Sending (fast : Bool) (s : Device) (wire : List Byte)
    (before : List (List Byte)) : Prop where
  task : s.taskP1 = .send
  waiting : s.taskP2 = true
  tn : s.tn = wire.length
  left : s.txAt + s.txLeft = wire.length
  len : s.txLen = min s.txLeft EP1_BUF_SIZE
  sent : ∃ pieces, s.sent = before ++ pieces ∧ pieces.flatten = wire.take (s.txAt + s.txLen)
  covers : s.Covers fast wire (s.txAt + EP1_BUF_SIZE)

theorem Device.Sending.fill {fast : Bool} {s : Device} {wire : List Byte}
    {before pieces : List (List Byte)} (task : s.taskP1 = .send) (tn : s.tn = wire.length)
    (left : s.txAt + s.txLeft = wire.length) (sent : s.sent = before ++ pieces)
    (pieces_eq : pieces.flatten = wire.take s.txAt)
    (covers : s.Covers fast wire (s.txAt + EP1_BUF_SIZE)) :
    s.fillEp1.Sending fast wire before := by
  refine ⟨task, rfl, tn, left, rfl,
    ⟨pieces ++ [Foundation.slice s.bulkOut.byte s.txAt (min s.txLeft EP1_BUF_SIZE)], ?_, ?_⟩, ?_⟩
  · rw [← List.append_assoc, ← sent]
    rfl
  · rw [List.flatten_append, pieces_eq, List.flatten_singleton]
    exact covers.slice (Nat.min_le_right _ _) (by omega)
  · exact covers.congr rfl rfl rfl rfl

/-- What an answer leaves as it was. -/
structure Device.Beside (s t : Device) : Prop where
  pools : t.pools = s.pools
  tmps : t.tmps = s.tmps
  rn : t.rn = s.rn

/-- What preparing a packet leaves as it was. -/
structure Device.Prepares (s t : Device) : Prop where
  beside : s.Beside t
  taskP1 : t.taskP1 = s.taskP1
  taskP2 : t.taskP2 = s.taskP2
  tn : t.tn = s.tn
  txLeft : t.txLeft = s.txLeft
  txAt : t.txAt = s.txAt
  txLen : t.txLen = s.txLen
  txDataNo : t.txDataNo = s.txDataNo
  sent : t.sent = s.sent

theorem Device.Covers.next {fast : Bool} {s : Device} {wire : List Byte} {n : Nat}
    (covers : s.Covers fast wire n) (tn : s.tn = wire.length) :
    ∃ t, (if fast then s.prepareNext else some s) = some t ∧ s.Prepares t ∧
      t.Covers fast wire (n + EP1_BUF_SIZE) := by
  cases fast with
  | true =>
    obtain ⟨out, sum, i, prepares, ready⟩ := covers.1.next tn covers.2
    rw [if_pos rfl, prepares]
    refine ⟨_, rfl, ⟨⟨rfl, rfl, rfl⟩, rfl, rfl, rfl, rfl, rfl, rfl, rfl, rfl⟩, ready, ?_⟩
    have before := covers.1.preparing.len
    have after := ready.preparing.len
    have len : out.len = s.bulkOut.len := Nat.add_right_cancel (after.trans before.symm)
    exact Nat.le_trans covers.2 (Nat.le_of_eq len.symm)
  | false =>
    exact ⟨s, rfl, ⟨⟨rfl, rfl, rfl⟩, rfl, rfl, rfl, rfl, rfl, rfl, rfl, rfl⟩, covers⟩

theorem afterStep_fillEp1 (fast : Bool) (s : Device) :
    afterStep fast s.fillEp1 0 = (s.fillEp1, 0) := rfl

/-- **The first packet** of an answer. -/
theorem sendAnswer_first {fast : Bool} {s : Device} {wire : List Byte} (txn : Txn)
    (task : s.taskP1 = .send) (idle : s.taskP2 = false) (tn : s.tn = wire.length)
    (covers : s.Covers fast wire 0) :
    ∃ t, sendAnswer fast txn s = some (t, 0) ∧ t.Sending fast wire s.sent ∧ s.Beside t ∧
      t.txDataNo = s.txDataNo := by
  obtain ⟨t, prepares, same, ready⟩ := covers.next tn
  have step : stepTxEp1 t.tn txn t =
      (({ t with txLeft := t.tn, txAt := 0 } : Device).fillEp1, 0) :=
    if_pos (same.taskP2.trans idle)
  have total : t.tn = wire.length := same.tn.trans tn
  rw [sendAnswer, prepares, Option.map_some, step, afterStep_fillEp1]
  refine ⟨_, rfl, ?_, ⟨same.beside.pools, same.beside.tmps, same.beside.rn⟩, same.txDataNo⟩
  refine @Device.Sending.fill _ _ _ _ [] (same.taskP1.trans task) total ?_ ?_ rfl ?_
  · exact (Nat.zero_add _).trans total
  · exact same.sent.trans (List.append_nil _).symm
  · exact ready.congr rfl rfl rfl rfl

/-- A packet is fetched by the host. -/
structure Txn.Fetches (txn : Txn) (s : Device) : Prop where
  pidIn : txn.pidIn = true
  toggle : txn.toggle = s.txDataNo

/-- The device when the host has fetched an answer. -/
structure Device.Answered (fast : Bool) (s : Device) (wire : List Byte)
    (before : List (List Byte)) : Prop where
  task : s.taskP1 = .receive
  idle : s.taskP2 = false
  check : fast = true → s.checkSum = 0 ∧ s.checkI = 0
  sent : ∃ pieces, s.sent = before ++ pieces ∧ pieces.flatten = wire

/-- **The host fetches a packet.** There is a next one, or the answer is complete. -/
theorem Device.Sending.fetch {fast : Bool} {s : Device} {wire : List Byte}
    {before : List (List Byte)} (sending : s.Sending fast wire before) {txn : Txn}
    (fetches : txn.Fetches s) :
    ∃ t, sendAnswer fast txn s = some (t, 0) ∧ s.Beside t ∧ t.txDataNo = !s.txDataNo ∧
      (t.Sending fast wire before ∧ t.txLeft < s.txLeft ∨ t.Answered fast wire before) := by
  obtain ⟨t, prepares, same, ready⟩ := sending.covers.next sending.tn
  rw [sendAnswer, prepares, Option.map_some]
  have left := sending.left
  have len := sending.len
  have total : t.tn = wire.length := same.tn.trans sending.tn
  have waits : ¬ t.taskP2 = false := by
    rw [same.taskP2, sending.waiting]
    exact nofun
  obtain ⟨pieces, sent, flat⟩ := sending.sent
  unfold stepTxEp1
  rw [if_neg waits, if_neg (by rw [fetches.pidIn]; exact nofun),
    if_neg (by rw [fetches.toggle, same.txDataNo, not_not])]
  by_cases more : t.tn % 512 ≠ 0 ∧ t.txLen = EP1_BUF_SIZE ∨
      t.tn % 512 = 0 ∧ t.txLeft - t.txLen ≠ 0
  · rw [if_pos more, afterStep_fillEp1]
    rw [same.txLen, same.txLeft] at more
    have full : s.txLen = EP1_BUF_SIZE := by
      rcases more with ⟨_, full⟩ | ⟨_, some_⟩
      · exact full
      · omega
    refine ⟨_, rfl, ⟨same.beside.pools, same.beside.tmps, same.beside.rn⟩,
      congrArg (! ·) same.txDataNo, Or.inl ⟨?_, ?_⟩⟩
    · refine @Device.Sending.fill _ _ _ _ pieces (same.taskP1.trans sending.task) total ?_
        (same.sent.trans sent) ?_ ?_
      · show t.txAt + t.txLen + (t.txLeft - t.txLen) = wire.length
        rw [same.txAt, same.txLen, same.txLeft]
        omega
      · show _ = wire.take (t.txAt + t.txLen)
        rw [same.txAt, same.txLen]
        exact flat
      · have place : t.fetched.txAt = s.txAt + EP1_BUF_SIZE := by
          show t.txAt + t.txLen = _
          rw [same.txAt, same.txLen, full]
        rw [place]
        exact ready.congr rfl rfl rfl rfl
    · show t.txLeft - t.txLen < s.txLeft
      rw [same.txLeft, same.txLen, full]
      have positive : 0 < EP1_BUF_SIZE := by decide
      omega
  · rw [if_neg more]
    rw [same.txLen, same.txLeft, total] at more
    have all : s.txAt + s.txLen = wire.length := by
      unfold EP1_BUF_SIZE at len more
      omega
    rw [all, List.take_length] at flat
    cases fast with
    | true =>
      refine ⟨_, rfl, ⟨same.beside.pools, same.beside.tmps, same.beside.rn⟩,
        congrArg (! ·) same.txDataNo, Or.inr ⟨rfl, rfl, fun _ => ⟨rfl, rfl⟩, pieces, ?_, flat⟩⟩
      exact same.sent.trans sent
    | false =>
      refine ⟨_, rfl, ⟨same.beside.pools, same.beside.tmps, same.beside.rn⟩,
        congrArg (! ·) same.txDataNo, Or.inr ⟨rfl, rfl, nofun, pieces, ?_, flat⟩⟩
      exact same.sent.trans sent

theorem Device.Sending.error {fast : Bool} {s : Device} {wire : List Byte}
    {before : List (List Byte)} (sending : s.Sending fast wire before) {txn : Txn}
    (other : ¬ txn.Fetches s) :
    ∃ t, sendAnswer fast txn s = some (t, 6) ∧ s.Beside t ∧ t.sent = s.sent := by
  obtain ⟨t, prepares, same, _⟩ := sending.covers.next sending.tn
  have waits : ¬ t.taskP2 = false := by
    rw [same.taskP2, sending.waiting]
    exact nofun
  rw [sendAnswer, prepares, Option.map_some]
  unfold stepTxEp1
  rw [if_neg waits]
  by_cases pidIn : txn.pidIn = false
  · rw [if_pos pidIn]
    exact ⟨t, rfl, same.beside, same.sent⟩
  · have toggle : txn.toggle ≠ t.txDataNo := fun equal =>
      other ⟨(Bool.not_eq_false _).mp pidIn, equal.trans same.txDataNo⟩
    rw [if_neg pidIn, if_pos toggle]
    exact ⟨t, rfl, same.beside, same.sent⟩

/-! ## What is sent -/

theorem getElem?_of_slice {mem : Nat → Byte} {n : Nat} {bytes : List Byte}
    (held : slice mem 0 n = bytes) {i : Nat} (inside : i < bytes.length) :
    bytes[i]? = some (mem i) := by
  have length := congrArg List.length held
  rw [slice_length] at length
  rw [← held, slice_getElem? (by omega), Nat.zero_add]

theorem Device.covers_slow {s : Device} {out : BulkIo} {data : List Byte}
    (len : out.len = data.length) (copied : slice out.data 0 data.length = data)
    (made : s.bulkOut = setChecksum out) :
    s.Covers false (frame false out.id out.reqType data) 0 := by
  intro i inside
  have bytes := slice_setChecksum out
  rw [len, copied] at bytes
  rw [made]
  exact getElem?_of_slice bytes inside

theorem Device.covers_fast {s : Device} {out : BulkIo} {data : List Byte}
    (len : out.len = data.length) (short : data.length + 1 ≤ MAXDATA)
    (source : ∀ i < data.length, data[i]? = some (if out.reqType = 1 then
      s.pools.tx.buf (s.pools.tx.place i) else out.data i))
    (inside : out.reqType = 1 → data.length ≤ s.pools.tx.count) (made : s.bulkOut = { out with len := out.len + 1 }) (sum : s.checkSum = 0)
    (checkI : s.checkI = 0) : s.Covers true (frame true out.id out.reqType data) 0 := by
  have wire : frame true out.id out.reqType data =
      fastBody out.id out.reqType data ++ [xorAll (fastBody out.id out.reqType data)] := rfl
  have total := length_frame true out.id out.reqType data
  have body : (fastBody out.id out.reqType data).length = data.length + 4 := by
    simp [fastBody, lenBytes]
  have outLen : s.bulkOut.len = data.length + 1 := by
    rw [made, ← len]
  rw [sumLen, if_pos rfl] at total
  refine ⟨⟨⟨?_, ?_, ?_, ?_, fun i _ early => ?_, fun isIn => ?_, ?_, ?_⟩, ?_, ?_⟩, ?_⟩
  · rw [outLen, total]
  · omega
  · rw [checkI, total]
    omega
  · intro i early
    rw [checkI] at early
    exact absurd early (Nat.not_lt_zero i)
  · rw [wire, List.getElem?_append_left (by omega), made]
    rcases i with _ | _ | _ | _ | i
    · rw [if_neg (by omega)]
      rfl
    · rw [if_neg (by omega)]
      rfl
    · rw [if_neg (by omega), len]
      rfl
    · rw [if_neg (by omega), len]
      rfl
    · have there := source i (by omega)
      refine Eq.trans ?_ (there.trans (congrArg some ?_))
      · rfl
      · refine if_congr ?_ rfl rfl
        exact ⟨fun one => ⟨one, by omega⟩, And.left⟩
  · rw [made] at isIn
    have fits := inside isIn
    omega
  · rw [sum, checkI]
    rfl
  · rw [total, wire, show data.length + 1 + 4 - 1 = (fastBody out.id out.reqType data).length by
      omega, List.getElem?_concat_length, List.take_left]
  · rw [checkI, Nat.zero_min]
  · rw [checkI, total]
    omega
  · rw [outLen]
    omega

/-- **An answer** is sent from its first packet on. -/
theorem Device.answer_sending {fast : Bool} {s : Device} {out : BulkIo} {data : List Byte}
    (len : out.len = data.length) (short : data.length + sumLen fast ≤ MAXDATA)
    (copied : fast = false ∨ out.reqType ≠ 1 → slice out.data 0 data.length = data)
    (source : fast = true → out.reqType = 1 → data = s.pools.tx.contents.take data.length)
    (idle : s.taskP2 = false) (txn : Txn) :
    ∃ t, s.answer fast txn out = some (t, 0) ∧
      t.Sending fast (frame fast out.id out.reqType data) s.sent ∧ t.rn = 0 ∧
      t.pools = s.pools ∧ t.txDataNo = s.txDataNo := by
  have total := length_frame fast out.id out.reqType data
  cases fast with
  | true =>
    rw [answer, if_pos rfl]
    have fits : out.reqType = 1 → data.length ≤ s.pools.tx.count := fun isIn => by
      have lengths := congrArg List.length (source rfl isIn)
      rw [List.length_take, RingBuffer.length_contents] at lengths
      omega
    have bytes : ∀ i < data.length, data[i]? = some (if out.reqType = 1 then
        s.pools.tx.buf (s.pools.tx.place i) else out.data i) := by
      intro i inside
      by_cases isIn : out.reqType = 1
      · have taken := source rfl isIn
        rw [RingBuffer.contents_take (fits isIn)] at taken
        rw [if_pos isIn, taken, List.getElem?_map, List.getElem?_range inside]
        rfl
      · rw [if_neg isIn]
        exact getElem?_of_slice (copied (Or.inr isIn)) inside
    have tn : out.len + 1 + 4 = (frame true out.id out.reqType data).length := by
      rw [total, len]
      rfl
    obtain ⟨t, sends, sending, beside, toggle⟩ := sendAnswer_first
      (s := { s with
        rn := 0, checkSum := 0, checkI := 0, taskP1 := .send
        bulkOut := { out with len := out.len + 1 }, tn := out.len + 1 + 4 })
      txn rfl idle tn (Device.covers_fast len short bytes fits rfl rfl rfl)
    exact ⟨t, sends, sending, beside.rn, beside.pools, toggle⟩
  | false =>
    rw [answer, if_neg Bool.false_ne_true]
    have tn : out.len + 4 = (frame false out.id out.reqType data).length := by
      rw [total, len]
      rfl
    obtain ⟨t, sends, sending, beside, toggle⟩ := sendAnswer_first
      (s := { s with rn := 0, taskP1 := .send, bulkOut := setChecksum out, tn := out.len + 4 })
      txn rfl idle tn (Device.covers_slow len (copied (Or.inl rfl)) rfl)
    exact ⟨t, sends, sending, beside.rn, beside.pools, toggle⟩

/-- The host fetches a packet. -/
def fetchTxn (toggle : Bool) : Txn where
  pidOut := false
  pidIn := true
  packet := []
  toggle := toggle
  packet_length := Nat.zero_le _

/-- The host fetches a number of packets. -/
def fetches (toggle : Bool) : Nat → List Event
  | 0 => []
  | n + 1 => .interrupt (fetchTxn toggle) :: fetches (!toggle) n

theorem interruptUsbdev_ok {fast : Bool} {s t : Device} {txn : Txn}
    (takes : bulkIo fast txn s = some (t, 0)) : s.step fast (.interrupt txn) = some t := by
  have both : (if fast then devBulkIoH txn s else devBulkIo txn s) = some (t, 0) := by
    cases fast with
    | true => exact takes
    | false => exact takes
  show interruptUsbdev fast txn s = some t
  rw [interruptUsbdev, both]
  rfl

/-- **The packets of an answer together are the answer.** -/
theorem Device.Sending.answered {fast : Bool} {s : Device} {wire : List Byte}
    {before : List (List Byte)} (sending : s.Sending fast wire before) :
    ∃ n t, (fetches s.txDataNo n).foldlM (Device.step fast) s = some t ∧
      t.Answered fast wire before ∧ s.Beside t := by
  induction measure : s.txLeft using Nat.strong_induction_on generalizing s with
  | _ left past =>
    obtain ⟨t, one, beside, toggles, more⟩ := sending.fetch
      (show (fetchTxn s.txDataNo).Fetches s from ⟨rfl, rfl⟩)
    have step : s.step fast (.interrupt (fetchTxn s.txDataNo)) = some t := by
      refine interruptUsbdev_ok ?_
      rw [bulkIo, sending.task]
      exact one
    rcases more with ⟨more, fewer⟩ | done
    · obtain ⟨n, last, runs, ends, same⟩ := past t.txLeft (by omega) more rfl
      refine ⟨n + 1, last, ?_, ends, ?_⟩
      · rw [fetches, List.foldlM_cons, step, ← toggles]
        exact runs
      · exact ⟨same.pools.trans beside.pools, same.tmps.trans beside.tmps, same.rn.trans beside.rn⟩
    · refine ⟨1, t, ?_, done, beside⟩
      rw [fetches, List.foldlM_cons, step]
      rfl

end PosFirmware.Usb
