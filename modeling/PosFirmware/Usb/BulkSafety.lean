import PosFirmware.Foundation.Run
import PosFirmware.Usb.BulkAssembly

/-!
# Safety of the bulk receiver

Both receivers stay inside their arrays, keep what is received and not read, and go on normally
after a request that they refuse, in every run whose packets `Device.Admits` (`receiver_safe`). A
request that is longer than `tmps` runs over it (`longRequest_outside`).
-/

namespace PosFirmware.Usb

open PosFirmware.Foundation

variable {fast : Bool}

/-! ## The property -/

/-- The bytes that answer a request. -/
def Reply.bytes (fast : Bool) (id : Byte) : Reply → List Byte
  | .answer reqType data => frame fast id reqType data
  | _ => []

/-- A device does what a request asks for, and answers it. -/
def Device.Serves (fast : Bool) (s : Device) (request : Request) : Prop :=
  ∀ txns : List Txn, (∀ txn ∈ txns, txn.Carries) →
    (txns.map Txn.packet).flatten = request.bytes fast →
      ∃ n u pieces, (txns.map Event.interrupt ++ fetches s.txDataNo n).foldlM (Device.step fast) s =
          some u ∧ u.Ready fast ∧ u.pools.ends = (s.pools.ends.respond fast request).1 ∧
        u.sent = s.sent ++ pieces ∧
        pieces.flatten = (s.pools.ends.respond fast request).2.bytes fast request.id

/-- A device goes on normally with the next request. -/
def Device.Resumes (fast : Bool) (s : Device) : Prop :=
  ∀ request : Request, request.Valid fast → s.pools.ends.Takes request → s.Serves fast request

/-- The request in `tmps`, if its checksum is right. -/
def Device.request (fast : Bool) (f : Device) : Option BulkIo :=
  if fast then
    if xorAll (slice f.tmps 0 f.rn) ≠ 0 ∨ (BulkIo.of f.tmps).len = 0 then none
    else some { BulkIo.of f.tmps with len := (BulkIo.of f.tmps).len - 1 }
  else verifyChecksum (BulkIo.of f.tmps)

/-- A request of an unknown type, or a BULK IN without a length. -/
def BulkIo.Invalid (bulk : BulkIo) : Prop :=
  4 < bulk.reqType.toNat ∨ bulk.reqType = 1 ∧ bulk.len < 2

/-- A new BULK OUT for which there is no room. -/
def Pools.Full (pools : Pools) (bulk : BulkIo) : Prop :=
  bulk.reqType = 0 ∧ ¬ pools.repeated bulk ∧ pools.rxLeft < bulk.len

/-- A packet of a request is received. -/
def Device.Arrives (s : Device) (txn : Txn) : Prop := s.taskP1 ≠ .send ∧ txn.pidOut = true

/-- A packet completes a request that is refused. -/
def Device.Rejects (fast : Bool) (s : Device) (txn : Txn) : Prop :=
  s.Arrives txn ∧ (s.begin.put txn.packet).Complete ∧
    ∀ bulk, (s.begin.put txn.packet).request fast = some bulk → bulk.Invalid ∨ s.pools.Full bulk

/-- What an interrupt must not do: it keeps what is received and not read, and a request that is
refused leaves a device as it was, which goes on normally. -/
def Device.Safe (fast : Bool) (s : Device) : Event → Device → Prop
  | .interrupt txn, t =>
    s.pools.rx.contents <+: t.pools.rx.contents ∧
      (s.Rejects fast txn → t.pools.ends = s.pools.ends ∧ t.Resumes fast)
  | _, _ => True

/-! ## The condition -/

/-- A request that is refused does not take the data of the last BULK IN for sent, and is not a
BULK OUT for which there is no room. -/
structure Pools.Harmless (pools : Pools) (request : Option BulkIo) : Prop where
  settled : (∀ bulk, request = some bulk → bulk.Invalid) → pools.Settled
  ended : ∀ bulk, request = some bulk → bulk.Invalid → pools.ends.Ended bulk.request →
    pools.lastBio.dataLen = 0
  room : ∀ bulk, request = some bulk → ¬ pools.Full bulk

/-- The packets that the receivers are made for. -/
def Device.Admits (fast : Bool) (s : Device) : Event → Prop
  | .interrupt txn => s.Arrives txn →
      s.begin.rn + txn.packet.length ≤ TMPS_SIZE ∧
        (fast = true → (s.begin.put txn.packet).Room) ∧
        ((s.begin.put txn.packet).Complete →
          s.pools.Harmless ((s.begin.put txn.packet).request fast))
  | _ => True

/-! ## Requests that are served -/

theorem Device.Answered.ready {s : Device} {wire : List Byte} {before : List (List Byte)}
    (answered : s.Answered fast wire before) (rn : s.rn = 0) : s.Ready fast :=
  Or.inr ⟨answered.task, answered.idle, rn, answered.check⟩

theorem Device.Ready.serves {s : Device} (ready : s.Ready fast) (small : s.pools.maxdata ≤ MAXDATA)
    (settled : s.pools.Settled) {request : Request} (valid : request.Valid fast)
    (takes : s.pools.ends.Takes request) : s.Serves fast request := by
  intro txns carries parts
  obtain ⟨t, runs, ends, done, toggle⟩ :=
    packets_respond ready small settled valid takes carries parts
  cases replied : (s.pools.ends.respond fast request).2 with
  | reject | reset =>
    rw [replied] at done
    refine ⟨0, t, [], ?_, done.1, ends, ?_, rfl⟩
    · rw [fetches, List.append_nil]
      exact runs
    · rw [List.append_nil]
      exact done.2
  | answer reqType data =>
    rw [replied] at done
    obtain ⟨n, u, fetched, answered, beside⟩ := done.1.answered
    obtain ⟨pieces, sent, flat⟩ := answered.sent
    refine ⟨n, u, pieces, ?_, answered.ready (beside.rn.trans done.2), ?_, sent, flat⟩
    · rw [List.foldlM_append, runs, ← toggle]
      exact fetched
    · rw [beside.pools, ends]

theorem Device.resumes_of_start {s : Device} (start : s.taskP1 = .start)
    (small : s.pools.maxdata ≤ MAXDATA) (settled : s.pools.Settled) : s.Resumes fast :=
  fun _ valid takes => Ready.serves (Or.inl start) small settled valid takes

/-! ## The invariant -/

/-- A device between two events. -/
structure Device.Sound (fast : Bool) (s : Device) : Prop where
  small : s.pools.maxdata ≤ MAXDATA
  task : s.taskP1 = .start ∨ (∃ bytes, s.Holds fast bytes) ∨
    ∃ wire before, s.Sending fast wire before ∧ s.rn = 0

theorem Device.Opened.sound {s : Device} (opened : s.Opened) : s.Sound fast := by
  obtain ⟨⟨rx, tx, pools⟩, task⟩ := opened
  refine ⟨?_, Or.inl task⟩
  rw [pools]
  show 508 ≤ MAXDATA
  decide

theorem Device.Holds.of_rx {s t : Device} {bytes : List Byte} (holds : s.Holds fast bytes)
    (task : t.taskP1 = s.taskP1) (idle : t.taskP2 = s.taskP2) (tmps : t.tmps = s.tmps)
    (rn : t.rn = s.rn) (sum : t.checkSum = s.checkSum) (checkI : t.checkI = s.checkI)
    (head : t.pools.rx.head = s.pools.rx.head) (buf : t.pools.rx.buf = s.pools.rx.buf) :
    t.Holds fast bytes := by
  refine ⟨task.trans holds.task, idle.trans holds.idle, ?_, fun isFast => ?_, fun isFast => ?_⟩
  · rw [tmps, rn]
    exact holds.tmps
  · obtain ⟨low, header, total⟩ := holds.summed isFast
    refine ⟨?_, ?_, ?_⟩
    · rw [checkI, rn]
      exact low
    · rw [checkI]
      exact header
    · rw [sum, tmps, checkI]
      exact total
  · intro i inside stores
    rw [checkI] at inside
    unfold Stores at stores
    rw [tmps] at stores
    unfold storePlace
    rw [head, buf, tmps]
    exact holds.kept isFast i inside stores

theorem Device.Sending.of_tx {s t : Device} {wire : List Byte} {before : List (List Byte)}
    (sending : s.Sending fast wire before)
    (same : t = { s with pools := t.pools })
    (more : s.pools.tx.contents <+: t.pools.tx.contents) : t.Sending fast wire before := by
  obtain ⟨task, waiting, tn, left, len, sent, covers⟩ := sending
  rw [same]
  refine ⟨task, waiting, tn, left, len, sent, ?_⟩
  cases fast with
  | false => exact covers
  | true =>
    obtain ⟨⟨preparing, place, closed⟩, some_⟩ := covers
    have longer := more.length_le
    rw [RingBuffer.length_contents, RingBuffer.length_contents] at longer
    refine ⟨⟨⟨preparing.len, preparing.short, preparing.checkI_lt, preparing.done,
      fun i late early => ?_, fun isIn => ?_, preparing.sum, preparing.last⟩, place, closed⟩, some_⟩
    · refine (preparing.source i late early).trans (congrArg some ?_)
      by_cases copies : s.bulkOut.reqType = 1 ∧ 4 ≤ i
      · have inside := preparing.inside copies.1
        rw [if_pos copies]
        refine Eq.trans ?_ (if_pos copies).symm
        exact (RingBuffer.buf_of_prefix more (by omega)).symm
      · rw [if_neg copies]
        exact (if_neg copies).symm
    · exact Nat.le_trans (preparing.inside isIn) (Nat.add_le_add_right longer 5)

theorem Device.Sound.call {s : Device} (sound : s.Sound fast) {t : Device}
    (same : t = { s with pools := t.pools }) (small : t.pools.maxdata = s.pools.maxdata)
    (head : t.pools.rx.head = s.pools.rx.head) (buf : t.pools.rx.buf = s.pools.rx.buf)
    (more : s.pools.tx.contents <+: t.pools.tx.contents) : t.Sound fast := by
  refine ⟨small ▸ sound.small, ?_⟩
  rcases sound.task with start | ⟨bytes, holds⟩ | ⟨wire, before, sending, rn⟩
  · rw [same]
    exact Or.inl start
  · refine Or.inr (Or.inl ⟨bytes, holds.of_rx ?_ ?_ ?_ ?_ ?_ ?_ head buf⟩)
    all_goals rw [same]
  · refine Or.inr (Or.inr ⟨wire, before, sending.of_tx same more, ?_⟩)
    rw [same]
    exact rn

theorem Device.Sound.usbDevSends {s : Device} (sound : s.Sound fast) (buf : List Byte) :
    (Usb.usbDevSends buf s).Sound fast := by
  unfold Usb.usbDevSends
  split
  · exact sound
  · next room =>
    refine sound.call rfl rfl rfl rfl ?_
    have total := s.pools.tx.room_add_count
    rw [s.pools.tx_size] at total
    show _ <+: (s.pools.tx.pushAll buf).contents
    rw [RingBuffer.contents_pushAll (by omega)]
    exact List.prefix_append _ _

/-! ## Interrupts -/

theorem interruptUsbdev_error {s t : Device} {txn : Txn} {ret : Nat}
    (takes : bulkIo fast txn s = some (t, ret)) (error : ret ≠ 0) :
    s.step fast (.interrupt txn) = some { t with taskP1 := .start, txDataNo := false } := by
  have both : (if fast then devBulkIoH txn s else devBulkIo txn s) = some (t, ret) := by
    cases fast with
    | true => exact takes
    | false => exact takes
  show interruptUsbdev fast txn s = _
  rw [interruptUsbdev, both, Option.map_some]
  exact congrArg some (if_pos error)

theorem Device.Sound.begin {s : Device} (sound : s.Sound fast) (task : s.taskP1 ≠ .send)
    (txn : Txn) :
    bulkIo fast txn s = s.begin.step1 fast txn ∧ s.begin.pools = s.pools ∧
      ∃ bytes, s.begin.Holds fast bytes := by
  rcases sound.task with start | ⟨bytes, holds⟩ | ⟨wire, before, sending, _⟩
  · have ready : s.Ready fast := Or.inl start
    obtain ⟨holds, pools, _⟩ := ready.holds
    exact ⟨ready.bulkIo txn, pools, [], holds⟩
  · have same : s.begin = s := if_neg (by rw [holds.task]; nofun)
    rw [same]
    exact ⟨holds.bulkIo txn, rfl, bytes, holds⟩
  · exact absurd sending.task task

theorem Device.Looked.accept {f t : Device} (looked : f.Looked fast t) :
    t.accept fast = f.request fast := by
  unfold Device.accept request
  rw [looked.tmps]
  cases fast with
  | false => rfl
  | true =>
    obtain ⟨summed, all⟩ := looked.summed rfl
    have sum := summed.sum
    rw [all, looked.tmps, looked.rn] at sum
    rw [sum]

theorem Device.Ready.sound {s : Device} (ready : s.Ready fast) (small : s.pools.maxdata ≤ MAXDATA) :
    s.Sound fast := by
  refine ⟨small, ?_⟩
  have holds := ready.holds.1
  rcases ready with start | ⟨task, _⟩
  · exact Or.inl start
  · rw [begin, if_neg (by rw [task]; decide)] at holds
    exact Or.inr (Or.inl ⟨[], holds⟩)

theorem Ends.onRequest_rx (ends : Ends) (request : Request) :
    ends.rx <+: (ends.onRequest fast request).1.rx := by
  unfold onRequest
  split
  · unfold onOut
    split
    · exact List.prefix_rfl
    · split
      · exact List.prefix_rfl
      · exact List.prefix_append _ _
  · unfold onIn
    split
    · exact List.prefix_rfl
    · split <;> exact List.prefix_rfl
  all_goals exact List.prefix_rfl

theorem Ends.onRequest_maxdata {ends : Ends} (small : ends.maxdata ≤ MAXDATA) (request : Request) :
    (ends.onRequest fast request).1.maxdata ≤ MAXDATA := by
  unfold onRequest
  split
  · unfold onOut
    split
    · exact small
    · split <;> exact small
  · unfold onIn
    split
    · exact small
    · split <;> exact small
  · exact small
  · exact small
  · show maxdataOf fast ≤ MAXDATA
    cases fast <;> decide
  · exact small

theorem Ends.remember_fst (request : Request) (result : Ends × Reply) :
    (remember request result).1.rx = result.1.rx ∧
      (remember request result).1.maxdata = result.1.maxdata := by
  obtain ⟨ends, reply⟩ := result
  cases reply <;> exact ⟨rfl, rfl⟩

theorem Ends.remember_invalid {ends : Ends} {bulk : BulkIo} (invalid : bulk.Invalid) :
    remember bulk.request (ends.onRequest fast bulk.request) = (ends, .reject) := by
  have refused : ends.onRequest fast bulk.request = (ends, .reject) := by
    rcases invalid with large | ⟨isIn, short⟩
    · have type : bulk.request.reqType = bulk.reqType := rfl
      unfold onRequest
      rw [type]
      split
      all_goals first | omega | rfl
    · have type : bulk.request.reqType.toNat = 1 := by
        show bulk.reqType.toNat = 1
        rw [isIn]
        rfl
      rw [onRequest, type]
      show ends.onIn fast bulk.request = _
      rw [onIn, BulkIo.length_payload, if_pos short]
  rw [refused]
  rfl

theorem Pools.finishLast_ends {pools : Pools} {bulk : BulkIo}
    (nothing : pools.ends.Ended bulk.request → pools.lastBio.dataLen = 0) :
    (pools.finishLast bulk).ends = pools.ends := by
  unfold finishLast
  split
  · next ended =>
    have zero := nothing ended
    refine congrArg (fun tx => (⟨_, tx, _, _⟩ : Ends)) ?_
    rw [zero, RingBuffer.contents_skip (Nat.zero_le _), List.drop_zero]
  · rfl

theorem Pools.prefix_of_ends {pools next : Pools} (same : next.ends = pools.ends) :
    pools.rx.contents <+: next.rx.contents := by
  rw [← Pools.ends_rx next, same]
  exact List.prefix_rfl

theorem Device.Done.sound {s t : Device} {id : Byte} {reply : Reply} (done : s.Done fast t id reply)
    (small : t.pools.maxdata ≤ MAXDATA) : t.Sound fast := by
  cases reply with
  | reject | reset => exact done.1.sound small
  | answer => exact ⟨small, Or.inr (Or.inr ⟨_, _, done⟩)⟩

theorem Device.Sound.complete {s : Device} (sound : s.Sound fast) {txn : Txn}
    (arrives : s.Arrives txn) {bytes : List Byte} (holds : s.begin.Holds fast bytes)
    (pools : s.begin.pools = s.pools) (fits : bytes.length + txn.packet.length ≤ TMPS_SIZE)
    (room : fast = true → (s.begin.put txn.packet).Room)
    (complete : (s.begin.put txn.packet).Complete)
    (harmless : s.pools.Harmless ((s.begin.put txn.packet).request fast)) :
    ∃ t, s.begin.step1 fast txn = some (t, 0) ∧ t.Sound fast ∧ s.Safe fast (.interrupt txn) t := by
  obtain ⟨t, looked, _, stored, steps⟩ := holds.whole arrives.2 fits room complete
  have ends : t.pools.ends = s.pools.ends := looked.ends.trans (congrArg Pools.ends pools)
  have small : t.pools.maxdata ≤ MAXDATA :=
    Nat.le_trans (Nat.le_of_eq (congrArg Ends.maxdata ends)) sound.small
  rw [steps, looked.accept]
  cases accepted : (s.begin.put txn.packet).request fast with
  | none =>
    rw [accepted] at harmless
    refine ⟨_, rfl, ⟨small, Or.inl rfl⟩, ?_, fun _ => ⟨ends, ?_⟩⟩
    · exact Pools.prefix_of_ends ends
    · refine resumes_of_start rfl small (Pools.settled_congr ends (harmless.settled ?_))
      exact fun bulk there => nomatch there
  | some bulk =>
    obtain ⟨u, runs, after, done, _⟩ := t.process_spec small
      (stored bulk (looked.accept.trans accepted)) (looked.taskP2.trans holds.idle) txn
    have rx := (t.pools.finishLast_rx bulk).1
    obtain ⟨grows, maxdata⟩ := Ends.remember_fst bulk.request
      ((t.pools.finishLast bulk).ends.onRequest fast bulk.request)
    have smaller : u.pools.maxdata ≤ MAXDATA := by
      have bound := @Ends.onRequest_maxdata fast (t.pools.finishLast bulk).ends
        (Nat.le_trans (Nat.le_of_eq (t.pools.finishLast_rx bulk).2.2) small) bulk.request
      rw [← maxdata, ← after] at bound
      exact bound
    refine ⟨u, runs, done.sound smaller, ?_, fun rejects => ?_⟩
    · have more := @Ends.onRequest_rx fast (t.pools.finishLast bulk).ends bulk.request
      rw [← grows, ← after, Pools.ends_rx, rx, ← Pools.ends_rx, ends] at more
      exact more
    · have invalid : bulk.Invalid :=
        (rejects.2.2 bulk accepted).resolve_right (harmless.room bulk accepted)
      have last : t.pools.lastBio = s.pools.lastBio := congrArg Ends.lastBio ends
      have nothing : t.pools.ends.Ended bulk.request → t.pools.lastBio.dataLen = 0 := by
        rw [ends, last]
        exact harmless.ended bulk accepted invalid
      rw [Pools.finishLast_ends nothing, Ends.remember_invalid invalid] at after done
      refine ⟨after.trans ends, fun request valid takes => ?_⟩
      have settled := harmless.settled fun other there => by
        rw [accepted] at there
        cases there
        exact invalid
      exact done.1.serves smaller (Pools.settled_congr (after.trans ends) settled) valid takes

/-- **An interrupt** keeps a device sound and is safe. -/
theorem Device.Sound.interrupt {s : Device} (sound : s.Sound fast) {txn : Txn}
    (admits : s.Admits fast (.interrupt txn)) :
    ∃ t, s.step fast (.interrupt txn) = some t ∧ t.Sound fast ∧
      s.Safe fast (.interrupt txn) t := by
  by_cases task : s.taskP1 = .send
  · have idle : ¬ s.Rejects fast txn := fun rejects => rejects.1.1 task
    rcases sound.task with start | ⟨bytes, holds⟩ | ⟨wire, before, sending, rn⟩
    · exact absurd (start.symm.trans task) (by decide)
    · exact absurd (holds.task.symm.trans task) (by decide)
    · have sends : bulkIo fast txn s = sendAnswer fast txn s := by rw [bulkIo, task]
      by_cases fetches : txn.Fetches s
      · obtain ⟨t, steps, beside, _, more⟩ := sending.fetch fetches
        have unread : s.pools.rx.contents <+: t.pools.rx.contents := by rw [beside.pools]
        refine ⟨t, interruptUsbdev_ok (sends.trans steps), ?_, unread, fun rejects => absurd rejects idle⟩
        have small : t.pools.maxdata ≤ MAXDATA := by
          rw [beside.pools]
          exact sound.small
        rcases more with ⟨more, _⟩ | answered
        · exact ⟨small, Or.inr (Or.inr ⟨wire, before, more, beside.rn.trans rn⟩)⟩
        · exact (answered.ready (beside.rn.trans rn)).sound small
      · obtain ⟨t, steps, beside, _⟩ := sending.error fetches
        refine ⟨_, interruptUsbdev_error (sends.trans steps) (by decide), ⟨?_, Or.inl rfl⟩, ?_,
          fun rejects => absurd rejects idle⟩
        · show t.pools.maxdata ≤ MAXDATA
          rw [beside.pools]
          exact sound.small
        · show s.pools.rx.contents <+: t.pools.rx.contents
          rw [beside.pools]
  · obtain ⟨takes, pools, bytes, holds⟩ := sound.begin task txn
    cases out : txn.pidOut with
    | false =>
      have error : bulkIo fast txn s = some (s.begin, 1) := by
        rw [takes, step1, if_pos out]
      refine ⟨_, interruptUsbdev_error error (by decide), ⟨?_, Or.inl rfl⟩, ?_, fun rejects => ?_⟩
      · show s.begin.pools.maxdata ≤ MAXDATA
        rw [pools]
        exact sound.small
      · show s.pools.rx.contents <+: s.begin.pools.rx.contents
        rw [pools]
      · exact absurd (out.symm.trans rejects.1.2) Bool.false_ne_true
    | true =>
      obtain ⟨fits, room, harmless⟩ := admits ⟨task, out⟩
      rw [holds.rn] at fits
      by_cases complete : (s.begin.put txn.packet).Complete
      · obtain ⟨t, steps, then_, safe⟩ :=
          sound.complete ⟨task, out⟩ holds pools fits room complete (harmless complete)
        exact ⟨t, interruptUsbdev_ok (takes.trans steps), then_, safe⟩
      · obtain ⟨t, steps, then_, ends, _⟩ := holds.more out fits room complete
        rw [pools] at ends
        refine ⟨t, interruptUsbdev_ok (takes.trans steps), ⟨?_, Or.inr (Or.inl ⟨_, then_⟩)⟩, ?_,
          fun rejects => absurd rejects.2.1 complete⟩
        · exact Nat.le_trans (Nat.le_of_eq (congrArg Ends.maxdata ends)) sound.small
        · exact Pools.prefix_of_ends ends

/-- **An event** keeps a device sound and is safe. -/
theorem Device.Sound.step {s : Device} (sound : s.Sound fast) {event : Event}
    (admits : s.Admits fast event) :
    ∃ t, s.step fast event = some t ∧ t.Sound fast ∧ s.Safe fast event t := by
  cases event with
  | interrupt txn => exact sound.interrupt admits
  | usbDevSends buf => exact ⟨_, rfl, sound.usbDevSends buf, trivial⟩
  | usbDevRecvs wantLen => exact ⟨_, rfl, sound.call rfl rfl rfl rfl List.prefix_rfl, trivial⟩
  | usbDevReset => exact ⟨_, rfl, sound.call rfl rfl rfl rfl List.prefix_rfl, trivial⟩
  | clearFeature inEndpoint => exact ⟨_, rfl, ⟨sound.small, Or.inl rfl⟩, trivial⟩

/-- **Safety of the bulk receiver.** In every run of either receiver whose packets it admits, no
write goes outside of an array, what is received and not read is kept, and a request that is
refused leaves the device as it was, which goes on normally. -/
theorem receiver_safe {s : Device} (opened : s.Opened) {events : List Event}
    (admits : MeetsPartial (Device.step fast) (Device.Admits fast) s events) :
    ∃ last, events.foldlM (Device.step fast) s = some last ∧
      ∀ before event after, events = before ++ event :: after →
        ∃ t u, before.foldlM (Device.step fast) s = some t ∧ t.step fast event = some u ∧
          t.Safe fast event u := by
  have each : ∀ (t : Device) event, t.Sound fast → t.Admits fast event →
      ∃ u, t.step fast event = some u ∧ u.Sound fast := fun t event sound meets => by
    obtain ⟨u, steps, then_, _⟩ := sound.step meets
    exact ⟨u, steps, then_⟩
  obtain ⟨last, runs, _⟩ := foldlM_keeps each opened.sound admits
  refine ⟨last, runs, fun before event after parts => ?_⟩
  rw [parts] at admits
  obtain ⟨front, back⟩ := admits.append
  obtain ⟨t, reached, sound⟩ := foldlM_keeps each opened.sound front
  obtain ⟨u, steps, _, safe⟩ := sound.step (back t reached).1
  exact ⟨t, u, reached, steps, safe⟩

/-! ## Two requests -/

/-- A device that was opened. -/
def openedDevice : Device where
  pools := .opened (fun _ => 0) (fun _ => 0)
  taskP1 := .start
  taskP2 := false
  tmps _ := 0
  rn := 0
  checkSum := 0
  checkI := 0
  bulkOut := { id := 0, reqType := 0, len := 0, data := fun _ => 0 }
  tn := 0
  txLeft := 0
  txAt := 0
  txLen := 0
  txDataNo := false
  sent := []

theorem openedDevice_opened : openedDevice.Opened := ⟨⟨_, _, rfl⟩, rfl⟩

/-- A GET STATUS. -/
def statusTxn : Txn where
  pidOut := true
  pidIn := false
  packet := [0x01, 0x32, 0, 0]
  toggle := false
  packet_length := by decide

theorem statusTxn_request : ((openedDevice.begin.put statusTxn.packet).request false).map
    (fun bulk => (bulk.reqType, bulk.len)) = some (2, 0) := by decide

theorem receiver_safe_status :
    ∃ last, [Event.interrupt statusTxn].foldlM (Device.step false) openedDevice = some last ∧
      ∀ before event after, [Event.interrupt statusTxn] = before ++ event :: after →
        ∃ t u, before.foldlM (Device.step false) openedDevice = some t ∧
          t.step false event = some u ∧ t.Safe false event u := by
  refine receiver_safe openedDevice_opened ⟨fun _ => ⟨by decide, nofun, fun _ => ?_⟩, fun _ _ => trivial⟩
  have valid : ∀ bulk, (openedDevice.begin.put statusTxn.packet).request false = some bulk →
      bulk.reqType = 2 := by
    intro bulk accepted
    have facts := statusTxn_request
    rw [accepted] at facts
    exact congrArg Prod.fst (Option.some.inj facts)
  have fine : ∀ bulk, (openedDevice.begin.put statusTxn.packet).request false = some bulk →
      ¬ bulk.Invalid := by
    intro bulk accepted
    rintro (large | ⟨isIn, _⟩)
    · rw [valid bulk accepted] at large
      exact absurd large (by decide)
    · exact absurd ((valid bulk accepted).symm.trans isIn) (by decide)
  refine ⟨fun refused => ?_, fun bulk accepted invalid => absurd invalid (fine bulk accepted),
    fun bulk accepted full => ?_⟩
  · exact fun isIn => absurd isIn (by decide)
  · exact absurd (full.1.symm.trans (valid bulk accepted)) (by decide)

/-- The front of a request that announces `65535` bytes, and more packets of zeros. -/
def longFront (k : Nat) : List Byte := [0, 0, 0xff, 0xff] ++ List.replicate (60 + 64 * k) 0

/-- A packet of a list of at most 64 bytes. -/
def outTxn (packet : List Byte) (short : packet.length ≤ EP1_BUF_SIZE) : Txn where
  pidOut := true
  pidIn := false
  packet := packet
  toggle := false
  packet_length := short

def zeroTxn : Txn := outTxn (List.replicate 64 0) (by decide)

/-- A request that announces `65535` bytes, in its first 513 packets. -/
def longRequest : List Event :=
  .interrupt (outTxn (longFront 0) (by decide)) :: List.replicate 512 (.interrupt zeroTxn)

theorem length_longFront (k : Nat) : (longFront k).length = 64 * (k + 1) := by
  rw [longFront, List.length_append, List.length_replicate]
  show 4 + (60 + 64 * k) = 64 * (k + 1)
  omega

theorem longFront_part {f : Device} {k : Nat} (held : slice f.tmps 0 f.rn = longFront k)
    (early : k < 1023) : ¬ f.Complete := by
  intro complete
  have rn : f.rn = 64 * (k + 1) := by
    rw [← length_longFront, ← held, slice_length]
  have whole : slice f.tmps 0 f.rn =
      0 :: 0 :: (lenBytes 65535 ++ ([] ++ List.replicate (60 + 64 * k) 0)) := held
  have len := (BulkIo.of_held whole (by decide)).2.2.1
  have all := complete.2
  omega

theorem longFront_more {s : Device} {k : Nat} (holds : s.Holds false (longFront k))
    (early : k < 511) :
    ∃ t, s.step false (.interrupt zeroTxn) = some t ∧ t.Holds false (longFront (k + 1)) := by
  have joined : longFront k ++ zeroTxn.packet = longFront (k + 1) := by
    show ([0, 0, 0xff, 0xff] ++ List.replicate (60 + 64 * k) 0) ++ List.replicate 64 0 = _
    rw [List.append_assoc, List.replicate_append_replicate]
    rfl
  have fits : (longFront k).length + zeroTxn.packet.length ≤ TMPS_SIZE := by
    rw [length_longFront]
    show 64 * (k + 1) + 64 ≤ 32773
    omega
  have held := s.tmps_put zeroTxn.packet
  rw [holds.tmps, joined] at held
  obtain ⟨t, steps, then_, _⟩ := holds.more (show zeroTxn.pidOut = true from rfl) fits nofun
    (longFront_part held (by omega))
  rw [joined] at then_
  exact ⟨t, interruptUsbdev_ok ((holds.bulkIo zeroTxn).trans steps), then_⟩

theorem longFront_outside {s : Device} (holds : s.Holds false (longFront 511)) :
    s.step false (.interrupt zeroTxn) = none := by
  have rn : s.rn = 32768 := holds.rn.trans (length_longFront 511)
  have outside : bulkIo false zeroTxn s = none := by
    rw [holds.bulkIo, Device.step1, if_neg (by decide), Device.fetch, rn]
    rfl
  show interruptUsbdev false zeroTxn s = none
  rw [interruptUsbdev, if_neg Bool.false_ne_true, devBulkIo, outside]
  rfl

theorem longFront_run {n : Nat} {s : Device} {k : Nat} (holds : s.Holds false (longFront k))
    (count : k + n = 512) (some_ : 0 < n) :
    (List.replicate n (Event.interrupt zeroTxn)).foldlM (Device.step false) s = none := by
  induction n generalizing s k with
  | zero => exact absurd some_ (Nat.lt_irrefl 0)
  | succ n past =>
    rw [List.replicate_succ, List.foldlM_cons]
    by_cases last : k = 511
    · subst last
      rw [longFront_outside holds]
      rfl
    · obtain ⟨t, steps, then_⟩ := longFront_more holds (by omega)
      rw [steps]
      exact past then_ (by omega) (by omega)

/-- A request that announces `65535` bytes is written behind the end of `tmps`. -/
theorem longRequest_outside :
    openedDevice.Opened ∧ longRequest.foldlM (Device.step false) openedDevice = none := by
  refine ⟨openedDevice_opened, ?_⟩
  have ready : openedDevice.Ready false := Or.inl rfl
  obtain ⟨holds, _⟩ := ready.holds
  have held := openedDevice.begin.tmps_put (longFront 0)
  rw [holds.tmps, List.nil_append] at held
  obtain ⟨t, steps, then_, _⟩ := holds.more
    (show (outTxn (longFront 0) (by decide)).pidOut = true from rfl) (by decide) nofun (longFront_part held (by decide))
  rw [longRequest, List.foldlM_cons,
    interruptUsbdev_ok ((ready.bulkIo (outTxn (longFront 0) (by decide))).trans steps)]
  exact longFront_run then_ rfl (by decide)

end PosFirmware.Usb
