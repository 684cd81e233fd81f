import PosFirmware.Usb.BulkAnswer

/-!
# Requests in packets

A device that waits for a request puts it together from any packets that carry it, and then does
what `Ends.respond` says (`packets_respond`).
-/

namespace PosFirmware.Usb

open PosFirmware.Foundation

/-! ## The loop of the fast receiver -/

/-- The place of a byte of `tmps` in the pool. -/
def Device.storePlace (s : Device) (i : Nat) : Nat := (s.pools.rx.head + (i - 4)) % RX_POOL_SIZE

/-- The bytes of the pool behind a part of the loop. -/
structure Device.StoredTo (s : Device) (n : Nat) (buf : Nat → Byte) : Prop where
  stored : ∀ i, s.Stores i → s.checkI ≤ i → i < s.checkI + n → buf (s.storePlace i) = s.tmps i
  kept : ∀ x, (∀ i, s.Stores i → s.checkI ≤ i → i < s.checkI + n → x ≠ s.storePlace i) →
    buf x = s.pools.rx.buf x

theorem Device.storePlace_inj {s : Device} {i j : Nat} (hi : 4 ≤ i) (hj : 4 ≤ j)
    (shortI : i < TMPS_SIZE) (shortJ : j < TMPS_SIZE) (same : s.storePlace i = s.storePlace j) :
    i = j := by
  have head := s.pools.rx.head_lt
  rw [s.pools.rx_size] at head
  unfold storePlace at same
  unfold TMPS_SIZE MAXDATA at shortI shortJ
  unfold RX_POOL_SIZE at head same
  omega

theorem Device.check_of_stores {s : Device} {i : Nat} (stores : s.Stores i) :
    s.check i = { s with pools := s.pools.stage (i - 4) (s.tmps i)
                         checkSum := s.checkSum ^^^ s.tmps i
                         checkI := i + 1 } := by
  unfold check
  rw [if_pos stores]

theorem Device.check_of_not_stores {s : Device} {i : Nat} (skips : ¬ s.Stores i) :
    s.check i = { s with checkSum := s.checkSum ^^^ s.tmps i, checkI := i + 1 } := by
  unfold check
  rw [if_neg skips]

theorem Pools.stage_withBuf (pools : Pools) (buf : Nat → Byte) (i : Nat) (byte : Byte) :
    (pools.withBuf buf).stage i byte =
      pools.withBuf (Function.update buf ((pools.rx.head + i) % RX_POOL_SIZE) byte) := by
  have updated : (fun x => if x = (pools.rx.head + i) % RX_POOL_SIZE then byte else buf x) =
      Function.update buf ((pools.rx.head + i) % RX_POOL_SIZE) byte := by
    funext x
    rw [Function.update_apply]
  rw [← updated]
  rfl

/-- **The loop of the fast receiver** stores bytes and adds them up. -/
theorem Device.check_range (s : Device) {n : Nat} (short : s.checkI + n ≤ TMPS_SIZE) :
    ∃ buf, s.StoredTo n buf ∧ (List.range' s.checkI n).foldl Device.check s =
      { s with pools := s.pools.withBuf buf
               checkSum := s.checkSum ^^^ xorAll (slice s.tmps s.checkI n)
               checkI := s.checkI + n } := by
  induction n with
  | zero =>
    refine ⟨s.pools.rx.buf, ⟨fun i _ low high => absurd high (by omega), fun _ _ => rfl⟩, ?_⟩
    have none : s.checkSum ^^^ xorAll (slice s.tmps s.checkI 0) = s.checkSum := BitVec.xor_zero
    rw [none]
    rfl
  | succ n past =>
    obtain ⟨buf, done, runs⟩ := past (by omega)
    rw [List.range'_1_concat, List.foldl_append, runs, List.foldl_cons, List.foldl_nil,
      xorAll_slice_succ, ← BitVec.xor_assoc]
    by_cases stores : s.Stores (s.checkI + n)
    · refine ⟨Function.update buf (s.storePlace (s.checkI + n)) (s.tmps (s.checkI + n)),
        ⟨fun i member low high => ?_, fun x apart => ?_⟩, ?_⟩
      · by_cases last : i = s.checkI + n
        · rw [last, Function.update_self]
        · have other : s.storePlace i ≠ s.storePlace (s.checkI + n) := fun same =>
            last (storePlace_inj member.2.1 stores.2.1 (by omega) (by omega) same)
          rw [Function.update_of_ne other]
          exact done.stored i member low (by omega)
      · rw [Function.update_of_ne (apart _ stores (by omega) (by omega))]
        exact done.kept x fun i member low high => apart i member low (by omega)
      · refine (check_of_stores ?_).trans (congrArg (fun pools => ({ s with
          pools := pools
          checkSum := s.checkSum ^^^ xorAll (slice s.tmps s.checkI n) ^^^ s.tmps (s.checkI + n)
          checkI := s.checkI + n + 1 } : Device)) (Pools.stage_withBuf ..))
        exact stores
    · refine ⟨buf, ⟨fun i member low high => ?_, fun x apart => ?_⟩, ?_⟩
      · have other : i ≠ s.checkI + n := fun same => stores (same ▸ member)
        exact done.stored i member low (by omega)
      · exact done.kept x fun i member low high => apart i member low (by omega)
      · refine check_of_not_stores ?_
        exact stores

/-- The loop has added up the bytes in front of `check_i`. -/
structure Device.Summed (s : Device) : Prop where
  checkI_le : s.checkI ≤ s.rn
  header : s.checkI = 0 ∨ 4 ≤ s.checkI
  sum : s.checkSum = xorAll (slice s.tmps 0 s.checkI)

/-- The loop has stored the bytes in front of `check_i`. -/
def Device.Kept (s : Device) : Prop :=
  ∀ i < s.checkI, s.Stores i → s.pools.rx.buf (s.storePlace i) = s.tmps i

/-- The bytes of a request are stored in front of the unread ones. -/
def Device.Room (s : Device) : Prop :=
  ∀ i < s.rn, s.Stores i → s.pools.rx.count + (i - 4) < RX_POOL_SIZE

theorem Device.checkAll_spec {s : Device} (summed : s.Summed) (short : s.rn ≤ TMPS_SIZE)
    (room : s.Room) :
    ∃ buf, s.checkAll = { s with pools := s.pools.withBuf buf
                                 checkSum := xorAll (slice s.tmps 0 s.rn)
                                 checkI := s.rn } ∧
      (∀ i < s.pools.rx.count, buf (s.pools.rx.place i) = s.pools.rx.buf (s.pools.rx.place i)) ∧
      (s.Kept → ∀ i < s.rn, s.Stores i → buf (s.storePlace i) = s.tmps i) := by
  have whole : s.checkI + (s.rn - s.checkI) = s.rn := Nat.add_sub_cancel' summed.checkI_le
  obtain ⟨buf, done, runs⟩ := s.check_range (n := s.rn - s.checkI) (by omega)
  have sums : s.checkSum ^^^ xorAll (slice s.tmps s.checkI (s.rn - s.checkI)) =
      xorAll (slice s.tmps 0 s.rn) := by
    have parts := slice_add s.tmps 0 s.checkI (s.rn - s.checkI)
    rw [whole, Nat.zero_add] at parts
    rw [parts, xorAll_append, summed.sum]
  refine ⟨buf, ?_, fun i early => done.kept _ fun j stores low high => ?_, ?_⟩
  · rw [checkAll, runs, sums, whole]
  · have fits := room j (by omega) stores
    rw [← s.pools.rx_size] at fits
    have apart := RingBuffer.place_ne_ahead early fits
    rw [s.pools.rx_size] at apart
    exact apart
  · intro kept i inside stores
    by_cases new : s.checkI ≤ i
    · exact done.stored i stores new (by omega)
    · have old := kept i (by omega) stores
      rw [← old]
      refine done.kept _ fun j member low high same => ?_
      have equal := storePlace_inj stores.2.1 member.2.1 (by omega) (by omega) same
      omega

/-! ## Packets -/

/-- The bytes of a request that have come. -/
structure Device.Holds (fast : Bool) (s : Device) (bytes : List Byte) : Prop where
  task : s.taskP1 = .receive
  idle : s.taskP2 = false
  tmps : slice s.tmps 0 s.rn = bytes
  summed : fast = true → s.Summed
  kept : fast = true → s.Kept

theorem Device.Holds.rn {fast : Bool} {s : Device} {bytes : List Byte} (holds : s.Holds fast bytes) :
    s.rn = bytes.length := by
  rw [← holds.tmps, slice_length]

/-- A packet in `tmps`. -/
def Device.put (s : Device) (packet : List Byte) : Device :=
  { s with tmps := blit s.tmps s.rn packet, rn := s.rn + packet.length }

theorem Device.fetch_eq_some {s : Device} {packet : List Byte}
    (fits : s.rn + packet.length ≤ TMPS_SIZE) : s.fetch packet = some (s.put packet) := if_pos fits

theorem Device.tmps_put (s : Device) (packet : List Byte) :
    slice (s.put packet).tmps 0 (s.put packet).rn = slice s.tmps 0 s.rn ++ packet := by
  have front : slice (blit s.tmps s.rn packet) 0 s.rn = slice s.tmps 0 s.rn :=
    slice_blit_outside (Or.inl (by omega))
  have back : slice (blit s.tmps s.rn packet) s.rn packet.length = packet := slice_blit_self
  have parts := slice_add (blit s.tmps s.rn packet) 0 s.rn packet.length
  rw [front, Nat.zero_add, back] at parts
  exact parts

theorem Device.stores_put {s : Device} (long : 4 ≤ s.rn) (packet : List Byte) (i : Nat) :
    (s.put packet).Stores i ↔ s.Stores i := by
  have same : ∀ j < 4, (s.put packet).tmps j = s.tmps j := fun j early =>
    blit_outside (Or.inl (by omega))
  have lens : (BulkIo.of (s.put packet).tmps).len = (BulkIo.of s.tmps).len := by
    simp only [BulkIo.of, same 2 (by omega), same 3 (by omega)]
  unfold Stores
  rw [same 1 (by omega), lens]

theorem Device.Summed.put {s : Device} (summed : s.Summed) (packet : List Byte) :
    (s.put packet).Summed := by
  have low := summed.checkI_le
  refine ⟨Nat.le_trans low (Nat.le_add_right _ _), summed.header, summed.sum.trans ?_⟩
  refine congrArg xorAll (slice_congr fun i inside => (blit_outside ?_).symm)
  omega

theorem Device.Kept.put {s : Device} (kept : s.Kept) (summed : s.Summed) (packet : List Byte) :
    (s.put packet).Kept := by
  have low := summed.checkI_le
  intro i inside stores
  change i < s.checkI at inside
  have long : 4 ≤ s.rn := by
    have header := summed.header
    omega
  have same : (s.put packet).tmps i = s.tmps i := blit_outside (Or.inl (by omega))
  rw [same]
  exact kept i inside ((stores_put long packet i).mp stores)

/-! ## Requests -/

variable {fast : Bool}

theorem Ends.onRequest_data {ends : Ends} {request : Request} {data : List Byte}
    (answer : (ends.onRequest fast request).2 = .answer 1 data) :
    data = (ends.onRequest fast request).1.tx.take data.length := by
  unfold onRequest at answer ⊢
  split at answer
  · unfold onOut at answer
    split at answer
    · cases answer
    · split at answer <;> cases answer
  · unfold onIn at answer ⊢
    split at answer
    · cases answer
    · next long =>
      split at answer
      · cases answer
      · next some_ =>
        injection answer with _ answer
        have inside : ends.inLen fast request ≤ ends.tx.length := by
          unfold inLen
          omega
        rw [if_neg long, if_neg some_, ← answer, List.length_take, Nat.min_eq_left inside]
        rfl
  · cases answer
  · cases answer
  · cases answer
  · cases answer

theorem Pools.finishLast_rx (pools : Pools) (bulk : BulkIo) :
    (pools.finishLast bulk).rx = pools.rx ∧ (pools.finishLast bulk).lastBio = pools.lastBio ∧
      (pools.finishLast bulk).maxdata = pools.maxdata := by
  unfold finishLast
  split <;> exact ⟨rfl, rfl, rfl⟩

theorem Pools.Stored.finishLast {pools : Pools} {bulk : BulkIo} (stored : pools.Stored fast bulk) :
    (pools.finishLast bulk).Stored fast bulk := by
  obtain ⟨rx, last, _⟩ := pools.finishLast_rx bulk
  unfold Stored repeated rxLeft Staged
  rw [rx, last]
  exact stored

/-- A device that waits for the first packet of a request. -/
def Device.Ready (fast : Bool) (s : Device) : Prop :=
  s.taskP1 = .start ∨ s.taskP1 = .receive ∧ s.taskP2 = false ∧ s.rn = 0 ∧
    (fast = true → s.checkSum = 0 ∧ s.checkI = 0)

/-- What an accepted request leaves. -/
def Device.Done (fast : Bool) (s t : Device) (id : Byte) : Reply → Prop
  | .answer reqType data => t.Sending fast (frame fast id reqType data) s.sent ∧ t.rn = 0
  | _ => t.Ready fast ∧ t.sent = s.sent

theorem Device.process_spec {s : Device} {bulk : BulkIo} (small : s.pools.maxdata ≤ MAXDATA)
    (stored : s.pools.Stored fast bulk) (idle : s.taskP2 = false) (txn : Txn) :
    let after := Ends.remember bulk.request
      ((s.pools.finishLast bulk).ends.onRequest fast bulk.request)
    ∃ t, s.process fast txn bulk = some (t, 0) ∧ t.pools.ends = after.1 ∧
      s.Done fast t bulk.id after.2 ∧ t.txDataNo = s.txDataNo := by
  obtain ⟨next, outcome, runs, after, fits⟩ := onRequest_fits s.bulkOut
    (Nat.le_trans (Nat.le_of_eq (s.pools.finishLast_rx bulk).2.2) small) stored.finishLast
  have data := @Ends.onRequest_data fast (s.pools.finishLast bulk).ends bulk.request
  rw [process, runs, Option.bind_some]
  cases replied : (s.pools.finishLast bulk).ends.onRequest fast bulk.request with
  | mk e reply =>
    rw [replied] at after fits data
    cases outcome with
    | reject =>
      cases reply with
      | reject => exact ⟨_, rfl, after, ⟨Or.inl rfl, rfl⟩, rfl⟩
      | reset | answer => exact absurd fits id
    | reset =>
      cases reply with
      | reset =>
        refine ⟨_, rfl, after, ⟨?_, rfl⟩, rfl⟩
        cases fast with
        | true => exact Or.inl rfl
        | false => exact Or.inr ⟨rfl, idle, rfl, nofun⟩
      | reject | answer => exact absurd fits id
    | answer out =>
      cases reply with
      | reject | reset => exact absurd fits id
      | answer reqType bytes =>
        obtain ⟨⟨sameId, sameType, len⟩, short, copied⟩ := fits
        rw [← sameType] at copied
        have source : fast = true → out.reqType = 1 →
            bytes = (next.backup bulk).tx.contents.take bytes.length := by
          intro _ isIn
          have taken := data (congrArg (Reply.answer · bytes) (sameType.symm.trans isIn))
          rw [← after] at taken
          exact taken
        obtain ⟨t, sends, sending, rn, pools, toggle⟩ := Device.answer_sending
          (s := { s with pools := next.backup bulk }) len short copied source idle txn
        rw [sameId, sameType] at sending
        refine ⟨t, sends, ?_, ⟨sending, rn⟩, toggle⟩
        rw [pools, Pools.ends_backup, after]
        rfl

/-- **A request** does what it does to the ends. -/
theorem Device.process_respond {s : Device} {bulk : BulkIo} (small : s.pools.maxdata ≤ MAXDATA)
    (settled : s.pools.Settled) (stored : s.pools.Stored fast bulk) (idle : s.taskP2 = false)
    (txn : Txn) :
    ∃ t, s.process fast txn bulk = some (t, 0) ∧
      t.pools.ends = (s.pools.ends.respond fast bulk.request).1 ∧
      s.Done fast t bulk.id (s.pools.ends.respond fast bulk.request).2 ∧
      t.txDataNo = s.txDataNo := by
  have spec := s.process_spec small stored idle txn
  rw [Pools.ends_finishLast settled bulk] at spec
  exact spec

/-! ## Assembling -/

/-- What the look at the bytes of a request leaves as it was. -/
structure Device.Looked (fast : Bool) (f t : Device) : Prop where
  tmps : t.tmps = f.tmps
  rn : t.rn = f.rn
  taskP2 : t.taskP2 = f.taskP2
  sent : t.sent = f.sent
  txDataNo : t.txDataNo = f.txDataNo
  ends : t.pools.ends = f.pools.ends
  summed : fast = true → t.Summed ∧ t.checkI = t.rn
  kept : fast = true → f.Kept → t.Kept

theorem Device.look {f : Device} (summed : fast = true → f.Summed) (short : f.rn ≤ TMPS_SIZE)
    (long : 4 ≤ f.rn) (room : fast = true → f.Room) :
    ∃ t, (if fast then f.checkAll else f) = t ∧ f.Looked fast t := by
  cases fast with
  | false => exact ⟨f, rfl, rfl, rfl, rfl, rfl, rfl, rfl, nofun, nofun⟩
  | true =>
    obtain ⟨buf, looks, unread, stored⟩ := checkAll_spec (summed rfl) short (room rfl)
    refine ⟨_, (if_pos rfl).trans looks, rfl, rfl, rfl, rfl, rfl, Pools.ends_withBuf unread,
      fun _ => ⟨⟨Nat.le_refl _, Or.inr long, rfl⟩, rfl⟩, fun _ kept => stored kept⟩

/-- Whether all of a request is in `tmps`. -/
def Device.Complete (f : Device) : Prop := 4 ≤ f.rn ∧ (BulkIo.of f.tmps).len + 4 ≤ f.rn

theorem Device.Holds.step1 {s : Device} {bytes : List Byte} (holds : s.Holds fast bytes) {txn : Txn}
    (out : txn.pidOut = true) (fits : bytes.length + txn.packet.length ≤ TMPS_SIZE) :
    s.step1 fast txn = (s.put txn.packet).assemble fast txn := by
  have inside : s.rn + txn.packet.length ≤ TMPS_SIZE := by
    rw [holds.rn]
    exact fits
  rw [Device.step1, if_neg (by rw [out]; nofun), fetch_eq_some inside, Option.bind_some]

/-- **A packet that does not complete a request** is kept. -/
theorem Device.Holds.more {s : Device} {bytes : List Byte} (holds : s.Holds fast bytes) {txn : Txn}
    (out : txn.pidOut = true) (fits : bytes.length + txn.packet.length ≤ TMPS_SIZE)
    (room : fast = true → (s.put txn.packet).Room) (part : ¬ (s.put txn.packet).Complete) :
    ∃ t, s.step1 fast txn = some (t, 0) ∧ t.Holds fast (bytes ++ txn.packet) ∧
      t.pools.ends = s.pools.ends ∧ t.sent = s.sent ∧ t.txDataNo = s.txDataNo := by
  have tmps := s.tmps_put txn.packet
  rw [holds.tmps] at tmps
  rw [holds.step1 out fits, assemble]
  by_cases short : (s.put txn.packet).rn < 4
  · rw [if_pos short]
    refine ⟨_, rfl, ⟨rfl, holds.idle, tmps, fun isFast => ?_, fun isFast => ?_⟩, rfl, rfl, rfl⟩
    · obtain ⟨low, header, sum⟩ := (holds.summed isFast).put txn.packet
      exact ⟨low, header, sum⟩
    · exact (holds.kept isFast).put (holds.summed isFast) txn.packet
  · rw [if_neg short]
    have inside : (s.put txn.packet).rn ≤ TMPS_SIZE := by
      show s.rn + txn.packet.length ≤ TMPS_SIZE
      rw [holds.rn]
      exact fits
    obtain ⟨t, looks, looked⟩ := look (fun isFast => (holds.summed isFast).put txn.packet) inside
      (Nat.not_lt.mp short) room
    have incomplete : t.rn < (BulkIo.of t.tmps).len + 4 := by
      rw [looked.rn, looked.tmps]
      exact Nat.not_le.mp fun whole => part ⟨Nat.not_lt.mp short, whole⟩
    simp only [looks]
    rw [if_pos incomplete]
    refine ⟨_, rfl, ⟨rfl, looked.taskP2.trans holds.idle, ?_, fun isFast => ?_, fun isFast => ?_⟩,
      looked.ends, looked.sent, looked.txDataNo⟩
    · show slice t.tmps 0 t.rn = _
      rw [looked.tmps, looked.rn]
      exact tmps
    · obtain ⟨⟨low, header, sum⟩, _⟩ := looked.summed isFast
      exact ⟨low, header, sum⟩
    · exact looked.kept isFast ((holds.kept isFast).put (holds.summed isFast) txn.packet)

theorem Device.accept_fast {s : Device} {bulk : BulkIo} (accepts : s.accept true = some bulk) :
    (BulkIo.of s.tmps).len ≠ 0 ∧
      bulk = { BulkIo.of s.tmps with len := (BulkIo.of s.tmps).len - 1 } := by
  rw [accept, if_pos rfl] at accepts
  split at accepts
  · cases accepts
  · next right => exact ⟨fun zero => right (Or.inr zero), (Option.some.inj accepts).symm⟩

theorem Device.Kept.stored {s : Device} {bulk : BulkIo} (kept : fast = true → s.Kept)
    (all : fast = true → s.checkI = s.rn) (accepts : s.accept fast = some bulk)
    (complete : s.Complete) : s.pools.Stored fast bulk := by
  rintro rfl isOut _ fits
  obtain ⟨some_, rfl⟩ := accept_fast accepts
  have room := Pools.count_le_rxLeft fits
  have checkI := all rfl
  have whole := complete.2
  refine ⟨?_, fun j inside => ?_⟩
  · rw [BulkIo.length_payload]
    exact room
  · rw [BulkIo.length_payload] at inside
    change j < (BulkIo.of s.tmps).len - 1 at inside
    have stores : s.Stores (j + 4) := ⟨isOut, Nat.le_add_left 4 j, by omega⟩
    have there := kept rfl (j + 4) (by omega) stores
    rw [storePlace, Nat.add_sub_cancel] at there
    have byte : (BulkIo.request { BulkIo.of s.tmps with
        len := (BulkIo.of s.tmps).len - 1 }).payload[j]? = some (s.tmps (j + 4)) := by
      refine (slice_getElem? inside).trans ?_
      rw [Nat.zero_add]
      rfl
    rw [byte, ← there, s.pools.rx_size]

/-- **A packet that completes a request.** -/
theorem Device.Holds.whole {s : Device} {bytes : List Byte} (holds : s.Holds fast bytes) {txn : Txn}
    (out : txn.pidOut = true) (fits : bytes.length + txn.packet.length ≤ TMPS_SIZE)
    (room : fast = true → (s.put txn.packet).Room) (complete : (s.put txn.packet).Complete) :
    ∃ t, (s.put txn.packet).Looked fast t ∧ t.Complete ∧
      (∀ bulk, t.accept fast = some bulk → t.pools.Stored fast bulk) ∧
      s.step1 fast txn =
        match t.accept fast with
        | none => some ({ t with taskP1 := .start }, 0)
        | some bulk => t.process fast txn bulk := by
  have inside : (s.put txn.packet).rn ≤ TMPS_SIZE := by
    show s.rn + txn.packet.length ≤ TMPS_SIZE
    rw [holds.rn]
    exact fits
  obtain ⟨t, looks, looked⟩ := look (fun isFast => (holds.summed isFast).put txn.packet) inside
    complete.1 room
  have all : t.Complete := by
    unfold Complete
    rw [looked.rn, looked.tmps]
    exact complete
  refine ⟨t, looked, all, fun bulk accepts => ?_, ?_⟩
  · refine Kept.stored (fun isFast => looked.kept isFast ?_) (fun isFast => (looked.summed isFast).2)
      accepts all
    exact (holds.kept isFast).put (holds.summed isFast) txn.packet
  · rw [holds.step1 out fits, assemble, if_neg (Nat.not_lt.mpr complete.1)]
    simp only [looks]
    refine (if_neg (Nat.not_lt.mpr all.2)).trans ?_
    cases t.accept fast <;> rfl

theorem Device.accept_held {s : Device} {request : Request} (valid : request.Valid fast)
    (held : slice s.tmps 0 s.rn = request.bytes fast)
    (sum : fast = true → s.checkSum = xorAll (slice s.tmps 0 s.rn)) :
    ∃ bulk, s.accept fast = some bulk ∧ bulk.request = request := by
  unfold accept
  cases fast with
  | true =>
    obtain ⟨len, same⟩ := fast_held valid held
    have zero : s.checkSum = 0 := by
      rw [sum rfl, held]
      exact xorAll_frame ..
    rw [if_pos rfl, if_neg (by rw [zero, len]; simp)]
    exact ⟨_, rfl, same⟩
  | false =>
    rw [if_neg Bool.false_ne_true]
    exact verifyChecksum_frame valid held

/-! ## Packets of a request -/

/-- A device whose receiver runs. -/
def Device.begin (s : Device) : Device := if s.taskP1 = .start then s.step0 else s

theorem Device.Ready.holds {s : Device} (ready : s.Ready fast) :
    s.begin.Holds fast [] ∧ s.begin.pools = s.pools ∧ s.begin.sent = s.sent ∧
      s.begin.txDataNo = s.txDataNo := by
  rcases ready with start | ⟨task, idle, none, check⟩
  · rw [begin, if_pos start]
    exact ⟨⟨rfl, rfl, rfl, fun _ => ⟨Nat.le_refl 0, Or.inl rfl, rfl⟩,
      fun _ i inside => absurd inside (Nat.not_lt_zero i)⟩, rfl, rfl, rfl⟩
  · rw [begin, if_neg (by rw [task]; nofun)]
    refine ⟨⟨task, idle, by rw [none]; rfl, fun isFast => ?_, fun isFast i inside => ?_⟩,
      rfl, rfl, rfl⟩
    · obtain ⟨sum, checkI⟩ := check isFast
      refine ⟨by rw [checkI]; exact Nat.zero_le _, Or.inl checkI, ?_⟩
      rw [sum, checkI]
      rfl
    · rw [(check isFast).2] at inside
      exact absurd inside (Nat.not_lt_zero i)

theorem Device.Ready.bulkIo {s : Device} (ready : s.Ready fast) (txn : Txn) :
    Usb.bulkIo fast txn s = s.begin.step1 fast txn := by
  unfold Usb.bulkIo begin
  rcases ready with start | ⟨task, _⟩
  · rw [start, if_pos rfl]
  · rw [task, if_neg nofun]

theorem Device.Holds.bulkIo {s : Device} {bytes : List Byte} (holds : s.Holds fast bytes)
    (txn : Txn) : Usb.bulkIo fast txn s = s.step1 fast txn := by
  rw [Usb.bulkIo, holds.task]

/-- A request that fits into the pool, if it is a BULK OUT. -/
def Ends.Takes (ends : Ends) (request : Request) : Prop :=
  request.reqType = 0 → request.payload.length ≤ ends.rxLeft

theorem Device.room_of_takes {f : Device} {request : Request} (valid : request.Valid true)
    (takes : f.pools.ends.Takes request)
    (held : slice f.tmps 0 f.rn = (request.bytes true).take f.rn)
    (short : f.rn ≤ (request.bytes true).length) : f.Room := by
  intro i inside stores
  have low := stores.2.1
  obtain ⟨len, type⟩ := header_held valid (by omega) held
  have fits := takes ((type rfl).symm.trans stores.1)
  have total := length_frame true request.id request.reqType request.payload
  rw [Pools.ends_rxLeft] at fits
  have room := Pools.count_le_rxLeft fits
  rw [f.pools.rx_size] at room
  have apart := stores.2.2
  rw [Request.bytes, total, sumLen, if_pos rfl] at len short
  omega

/-- A packet of a request. -/
structure Txn.Carries (txn : Txn) : Prop where
  pidOut : txn.pidOut = true
  some : txn.packet ≠ []

/-- A packet behind the front of a request is a longer front of it. -/
structure Device.Fronts (fast : Bool) (s : Device) (front packet whole : List Byte) : Prop where
  rn : (s.put packet).rn = (front ++ packet).length
  held : slice (s.put packet).tmps 0 (s.put packet).rn = whole.take (s.put packet).rn
  inside : (s.put packet).rn ≤ whole.length
  fits : front.length + packet.length ≤ TMPS_SIZE
  room : fast = true → (s.put packet).Room

theorem Device.Holds.fronts {s : Device} {front packet back : List Byte}
    (holds : s.Holds fast front) {request : Request} (valid : request.Valid fast)
    (takes : s.pools.ends.Takes request)
    (parts : front ++ (packet ++ back) = request.bytes fast) :
    s.Fronts fast front packet (request.bytes fast) := by
  have rn : (s.put packet).rn = (front ++ packet).length := by
    show s.rn + packet.length = _
    rw [holds.rn, List.length_append]
  have regroup : request.bytes fast = front ++ packet ++ back := by rw [← parts, List.append_assoc]
  have held : slice (s.put packet).tmps 0 (s.put packet).rn =
      (request.bytes fast).take (s.put packet).rn := by
    rw [s.tmps_put, holds.tmps, rn, regroup, List.take_left]
  have inside : (s.put packet).rn ≤ (request.bytes fast).length := by
    rw [rn, regroup, @List.length_append _ (front ++ packet) back]
    exact Nat.le_add_right _ _
  have shortest := valid.fits
  rw [← length_frame fast request.id request.reqType request.payload] at shortest
  refine ⟨rn, held, inside, ?_, ?_⟩
  · rw [← List.length_append, ← rn]
    exact Nat.le_trans inside shortest
  · rintro rfl
    exact room_of_takes valid takes held inside

theorem Device.Done.congr {s s' t : Device} {id : Byte} {reply : Reply}
    (done : s.Done fast t id reply) (sent : s.sent = s'.sent) : s'.Done fast t id reply := by
  cases reply with
  | reject | reset => exact ⟨done.1, done.2.trans sent⟩
  | answer =>
    obtain ⟨sending, rn⟩ := done
    rw [sent] at sending
    exact ⟨sending, rn⟩

theorem Device.Holds.last {s : Device} {front : List Byte} (holds : s.Holds fast front)
    (small : s.pools.maxdata ≤ MAXDATA) (settled : s.pools.Settled) {request : Request}
    (valid : request.Valid fast) (takes : s.pools.ends.Takes request) {txn : Txn}
    (out : txn.pidOut = true) (whole : front ++ txn.packet = request.bytes fast) :
    ∃ u, s.step1 fast txn = some (u, 0) ∧
      u.pools.ends = (s.pools.ends.respond fast request).1 ∧
      s.Done fast u request.id (s.pools.ends.respond fast request).2 ∧
      u.txDataNo = s.txDataNo := by
  obtain ⟨rn, held, _, fits, room⟩ := holds.fronts valid takes
    (show front ++ (txn.packet ++ []) = _ by rw [List.append_nil]; exact whole)
  rw [whole] at rn
  have long : 4 ≤ (s.put txn.packet).rn := by
    rw [rn, Request.bytes, length_frame]
    exact Nat.le_add_left 4 _
  have complete : (s.put txn.packet).Complete :=
    ⟨long, Nat.le_of_eq ((header_held valid long held).1.trans rn.symm)⟩
  rw [rn, List.take_length] at held
  obtain ⟨t, looked, _, stored, steps⟩ := holds.whole out fits room complete
  have sum : fast = true → t.checkSum = xorAll (slice t.tmps 0 t.rn) := fun isFast => by
    obtain ⟨summed, all⟩ := looked.summed isFast
    rw [← all]
    exact summed.sum
  obtain ⟨bulk, accepts, same⟩ := accept_held valid
    (by rw [looked.tmps, looked.rn, rn, held]) sum
  have ends : t.pools.ends = s.pools.ends := looked.ends
  have maxdata : t.pools.maxdata = s.pools.maxdata := congrArg Ends.maxdata ends
  obtain ⟨u, runs, after, done, toggle⟩ := process_respond
    (by rw [maxdata]; exact small) (Pools.settled_congr ends settled) (stored bulk accepts)
    (looked.taskP2.trans holds.idle) txn
  have id : bulk.id = request.id := congrArg Request.id same
  rw [same, ends] at after done
  rw [id] at done
  refine ⟨u, ?_, after, done.congr looked.sent, toggle.trans looked.txDataNo⟩
  rw [steps, accepts]
  exact runs

theorem Device.Holds.respond {s : Device} {front : List Byte} (holds : s.Holds fast front)
    (small : s.pools.maxdata ≤ MAXDATA) (settled : s.pools.Settled) {request : Request}
    (valid : request.Valid fast) (takes : s.pools.ends.Takes request) {first : Txn}
    {rest : List Txn} (carries : ∀ txn ∈ first :: rest, txn.Carries)
    (parts : front ++ ((first :: rest).map Txn.packet).flatten = request.bytes fast) :
    ∃ t u, s.step1 fast first = some (t, 0) ∧
      (rest.map Event.interrupt).foldlM (Device.step fast) t = some u ∧
      u.pools.ends = (s.pools.ends.respond fast request).1 ∧
      s.Done fast u request.id (s.pools.ends.respond fast request).2 ∧
      u.txDataNo = s.txDataNo := by
  induction rest generalizing s front first with
  | nil =>
    have whole : front ++ first.packet = request.bytes fast := by
      rw [← parts, List.map_singleton, List.flatten_singleton]
    obtain ⟨u, steps, after⟩ := holds.last small settled valid takes
      (carries first List.mem_cons_self).pidOut whole
    exact ⟨u, u, steps, rfl, after⟩
  | cons next rest past =>
    rw [List.map_cons, List.flatten_cons] at parts
    obtain ⟨rn, held, _, fits, room⟩ := holds.fronts valid takes parts
    have behind : (s.put first.packet).rn < (request.bytes fast).length := by
      have some_ := (carries next (List.mem_cons_of_mem _ List.mem_cons_self)).some
      have positive := List.length_pos_of_ne_nil some_
      rw [rn, ← parts, List.map_cons, List.flatten_cons]
      simp only [List.length_append]
      omega
    have part : ¬ (s.put first.packet).Complete := by
      rintro ⟨long, whole⟩
      have len := (header_held valid long held).1
      omega
    obtain ⟨t, steps, then_, ends, sent, toggle⟩ := holds.more
      (carries first List.mem_cons_self).pidOut fits room part
    have maxdata : t.pools.maxdata = s.pools.maxdata := congrArg Ends.maxdata ends
    obtain ⟨u, v, second, runs, after, done, last⟩ := past then_
      (by rw [maxdata]; exact small) (Pools.settled_congr ends settled)
      (by rw [ends]; exact takes) (fun txn member => carries txn (List.mem_cons_of_mem _ member))
      (by rw [List.append_assoc]; exact parts)
    rw [ends] at after done
    refine ⟨t, v, steps, ?_, after, done.congr sent, last.trans toggle⟩
    rw [List.map_cons, List.foldlM_cons,
      interruptUsbdev_ok ((then_.bulkIo next).trans second)]
    exact runs

/-- **The packets of a request** do what it does to the ends. -/
theorem packets_respond {s : Device} (ready : s.Ready fast) (small : s.pools.maxdata ≤ MAXDATA)
    (settled : s.pools.Settled) {request : Request} (valid : request.Valid fast)
    (takes : s.pools.ends.Takes request) {txns : List Txn} (carries : ∀ txn ∈ txns, txn.Carries)
    (parts : (txns.map Txn.packet).flatten = request.bytes fast) :
    ∃ t, (txns.map Event.interrupt).foldlM (Device.step fast) s = some t ∧
      t.pools.ends = (s.pools.ends.respond fast request).1 ∧
      s.Done fast t request.id (s.pools.ends.respond fast request).2 ∧
      t.txDataNo = s.txDataNo := by
  obtain ⟨holds, pools, sent, toggle⟩ := ready.holds
  cases txns with
  | nil =>
    have lengths := congrArg List.length parts
    rw [Request.bytes, length_frame] at lengths
    cases lengths
  | cons first rest =>
    rw [← pools] at small settled takes
    obtain ⟨t, u, steps, runs, after, done, same⟩ :=
      holds.respond small settled valid takes carries parts
    rw [pools] at after done
    refine ⟨u, ?_, after, done.congr sent, same.trans toggle⟩
    rw [List.map_cons, List.foldlM_cons,
      interruptUsbdev_ok ((ready.bulkIo first).trans steps)]
    exact runs

end PosFirmware.Usb
