import PosFirmware.Usb.BulkHost

/-!
# The bulk protocol delivers every byte once

In every run of a proper host that the device admits, every byte comes through once and in order
(`delivery_exact`). What carries it is that an answer the host can take is one that the device
made for the request it asks for (`Link.Speaks`).
-/

namespace PosFirmware.Usb

open PosFirmware.Foundation

variable {fast : Bool}

/-! ## Frames -/

theorem slice_getD (bytes : List Byte) (n : Nat) (small : n ≤ bytes.length) :
    slice (bytes.getD · 0) 0 n = bytes.take n := by
  refine List.ext_getElem? fun i => ?_
  rw [List.getElem?_take]
  split
  · next early =>
    rw [slice_getElem? early, Nat.zero_add, List.getD_eq_getElem?_getD,
      List.getElem?_eq_getElem (by omega)]
    rfl
  · next late => exact List.getElem?_eq_none (by rw [slice_length]; omega)

theorem Request.bytes_injective {request other : Request} (valid : request.Valid fast)
    (validOther : other.Valid fast) (same : request.bytes fast = other.bytes fast) :
    request = other := by
  have held := slice_getD (request.bytes fast) _ (Nat.le_refl _)
  rw [List.take_length] at held
  cases fast with
  | true =>
    exact (fast_held valid held).2.symm.trans (fast_held validOther (held.trans same)).2
  | false =>
    obtain ⟨bulk, accepts, first⟩ := verifyChecksum_frame valid held
    obtain ⟨_, again, second⟩ := verifyChecksum_frame validOther (held.trans same)
    cases accepts.symm.trans again
    exact first.symm.trans second

theorem Request.eq_of_prefix {request other : Request} (valid : request.Valid fast)
    (validOther : other.Valid fast) (front : request.bytes fast <+: other.bytes fast) :
    request = other := by
  have long : 4 ≤ (request.bytes fast).length := by
    rw [bytes, length_frame]
    omega
  have whole : (request.bytes fast).take (request.bytes fast).length =
      (other.bytes fast).take (request.bytes fast).length := by
    rw [List.take_length]
    exact List.prefix_iff_eq_take.mp front
  have held := slice_getD (request.bytes fast) _ (Nat.le_refl _)
  have mine := (header_held valid long held).1
  rw [whole] at held
  have their := (header_held validOther long held).1
  exact bytes_injective valid validOther (front.eq_of_length (mine.symm.trans their))

/-! ## Interrupts of the device -/

theorem Device.Sending.interrupt {s : Device} {wire : List Byte} {before : List (List Byte)}
    (sending : s.Sending fast wire before) (rn : s.rn = 0) (small : s.pools.maxdata ≤ MAXDATA)
    (txn : Txn) :
    ∃ t, s.step fast (.interrupt txn) = some t ∧ t.Sound fast ∧ t.pools = s.pools ∧
      (∃ pieces, t.sent = before ++ pieces ∧ pieces.flatten <+: wire) ∧
      (t.taskP1 = .send → t.Sending fast wire before ∧ t.rn = 0) := by
  have sends : bulkIo fast txn s = sendAnswer fast txn s := by rw [bulkIo, sending.task]
  by_cases fetches : txn.Fetches s
  · obtain ⟨t, steps, beside, _, more⟩ := sending.fetch fetches
    have least : t.pools.maxdata ≤ MAXDATA := by
      rw [beside.pools]
      exact small
    have none_ : t.rn = 0 := beside.rn.trans rn
    refine ⟨t, interruptUsbdev_ok (sends.trans steps), ?_, beside.pools, ?_, ?_⟩
    · rcases more with ⟨more, _⟩ | answered
      · exact ⟨least, Or.inr (Or.inr ⟨wire, before, more, none_⟩)⟩
      · exact (answered.ready none_).sound least
    · rcases more with ⟨more, _⟩ | answered
      · obtain ⟨pieces, sent, flat⟩ := more.sent
        exact ⟨pieces, sent, flat ▸ List.take_prefix _ _⟩
      · obtain ⟨pieces, sent, flat⟩ := answered.sent
        exact ⟨pieces, sent, flat ▸ List.prefix_rfl⟩
    · intro task
      rcases more with ⟨more, _⟩ | answered
      · exact ⟨more, none_⟩
      · exact absurd (answered.task.symm.trans task) (by decide)
  · obtain ⟨t, steps, beside, same⟩ := sending.error fetches
    refine ⟨_, interruptUsbdev_error (sends.trans steps) (by decide), ⟨?_, Or.inl rfl⟩,
      beside.pools, ?_, fun task => by cases task⟩
    · show t.pools.maxdata ≤ MAXDATA
      rw [beside.pools]
      exact small
    · obtain ⟨pieces, sent, flat⟩ := sending.sent
      exact ⟨pieces, same.trans sent, flat ▸ List.take_prefix _ _⟩

/-- What an interrupt of a device that receives does: it keeps the ends, or does what the request
asks for that the packet completes. -/
def Device.Receives (fast : Bool) (s t : Device) : Option BulkIo → Prop
  | none => t.pools.ends = s.pools.ends ∧ t.sent = s.sent ∧ t.taskP1 ≠ .send
  | some bulk => t.pools.ends = (s.pools.ends.respond fast bulk.request).1 ∧
      s.Done fast t bulk.id (s.pools.ends.respond fast bulk.request).2

theorem Ends.respond_maxdata {ends : Ends} (small : ends.maxdata ≤ MAXDATA) (request : Request) :
    (ends.respond fast request).1.maxdata ≤ MAXDATA := by
  rw [respond, (remember_fst request _).2]
  refine onRequest_maxdata ?_ request
  unfold finish
  split <;> exact small

/-! ## What a request does -/

/-- A BULK OUT for which there is no room. -/
def Ends.Refuses (ends : Ends) (request : Request) : Prop :=
  request.reqType = 0 ∧ ¬ ends.Repeated request ∧ ends.rxLeft < request.payload.length

instance (ends : Ends) (request : Request) : Decidable (ends.Refuses request) :=
  inferInstanceAs (Decidable (_ ∧ _ ∧ _))

/-- The bytes that a request brings. -/
def Ends.brings (ends : Ends) (request : Request) : List Byte :=
  if request.reqType = 0 ∧ ¬ ends.Repeated request ∧ ¬ ends.Refuses request then request.payload
  else []

/-- A request that is answered. -/
structure Ends.Answers (fast : Bool) (ends next : Ends) (request : Request) (reqType : Byte)
    (data : List Byte) : Prop where
  seqNo : next.lastBio.seqNo = request.id.toNat
  lastType : next.lastBio.reqType = request.reqType.toNat
  tx : next.tx = ends.tx
  rx : next.rx = ends.rx ++ ends.brings request
  isOut : request.reqType = 0 → reqType = if ends.Refuses request then 0 else 2
  isIn : request.reqType = 1 → next.lastBio.dataLen ≤ ends.tx.length ∧
    (reqType = 1 ∧ data = ends.tx.take next.lastBio.dataLen ∨
      reqType = 2 ∧ next.lastBio.dataLen = 0)
  small : data.length + sumLen fast + 4 ≤ TMPS_SIZE
  known : reqType.toNat < 5

theorem Ends.status_small (ends : Ends) : ends.status.length + sumLen fast + 4 ≤ TMPS_SIZE := by
  show 16 + sumLen fast + 4 ≤ TMPS_SIZE
  cases fast <;> decide

theorem Ends.onOut_answers (ends : Ends) {request : Request} (isOut : request.reqType = 0) :
    ∃ next reqType data, ends.onOut request = (next, .answer reqType data) ∧
      ends.Answers fast (next.backup request) request reqType data := by
  have notIn : request.reqType ≠ 1 := by
    rw [isOut]
    decide
  unfold onOut
  by_cases repeated : ends.Repeated request
  · have kept : ¬ ends.Refuses request := fun refuses => refuses.2.1 repeated
    rw [if_pos repeated]
    refine ⟨_, _, _, rfl, rfl, rfl, rfl, ?_, fun _ => (if_neg kept).symm,
      fun isIn => absurd isIn notIn, ends.status_small, by decide⟩
    rw [brings, if_neg fun all => all.2.1 repeated, List.append_nil]
    rfl
  rw [if_neg repeated]
  by_cases full : ends.rxLeft < request.payload.length
  · have refuses : ends.Refuses request := ⟨isOut, repeated, full⟩
    rw [if_pos full]
    refine ⟨_, _, _, rfl, rfl, rfl, rfl, ?_, fun _ => (if_pos refuses).symm,
      fun isIn => absurd isIn notIn, ends.status_small, by decide⟩
    rw [brings, if_neg fun all => all.2.2 refuses, List.append_nil]
    rfl
  · have kept : ¬ ends.Refuses request := fun refuses => full refuses.2.2
    rw [if_neg full]
    refine ⟨_, _, _, rfl, rfl, rfl, rfl, ?_, fun _ => (if_neg kept).symm,
      fun isIn => absurd isIn notIn, (ends.receive request.payload).status_small, by decide⟩
    rw [brings, if_pos ⟨isOut, repeated, kept⟩]
    rfl

theorem Ends.brings_nil (ends : Ends) {request : Request} (notOut : request.reqType ≠ 0) :
    ends.brings request = [] := if_neg fun all => notOut all.1

theorem Ends.Answers.of_other {ends next : Ends} {request : Request} {reqType : Byte}
    {data : List Byte} (notOut : request.reqType ≠ 0) (notIn : request.reqType ≠ 1)
    (tx : next.tx = ends.tx) (rx : next.rx = ends.rx)
    (small : data.length + sumLen fast + 4 ≤ TMPS_SIZE) (known : reqType.toNat < 5) :
    ends.Answers fast (next.backup request) request reqType data :=
  ⟨rfl, rfl, tx, by rw [ends.brings_nil notOut, List.append_nil]; exact rx,
    fun isOut => absurd isOut notOut, fun isIn => absurd isIn notIn, small, known⟩

theorem Ends.onIn_answers {ends : Ends} (maxdata : ends.maxdata ≤ MAXDATA) {request : Request}
    (isIn : request.reqType = 1) (long : ¬ request.payload.length < 2) :
    ∃ next reqType data, ends.onIn fast request = (next, .answer reqType data) ∧
      ends.Answers fast (next.backup request) request reqType data := by
  have notOut : request.reqType ≠ 0 := by
    rw [isIn]
    decide
  have nothing : ends.rx = ends.rx ++ ends.brings request := by
    rw [ends.brings_nil notOut, List.append_nil]
  unfold onIn
  rw [if_neg long]
  by_cases empty : ends.inLen fast request = 0
  · rw [if_pos empty]
    exact ⟨_, _, _, rfl, rfl, rfl, rfl, nothing, fun isOut => absurd isOut notOut,
      fun _ => ⟨Nat.zero_le _, Or.inr ⟨rfl, rfl⟩⟩, ends.status_small, by decide⟩
  · rw [if_neg empty]
    have inside : ends.inLen fast request ≤ ends.tx.length := by
      unfold inLen
      omega
    refine ⟨_, _, _, rfl, rfl, rfl, rfl, nothing, fun isOut => absurd isOut notOut,
      fun _ => ⟨inside, Or.inl ⟨rfl, rfl⟩⟩, ?_, by decide⟩
    rw [List.length_take, Nat.min_eq_left inside]
    unfold inLen at empty ⊢
    unfold TMPS_SIZE
    cases fast with
    | true =>
      rw [if_pos rfl] at empty ⊢
      rw [sumLen, if_pos rfl]
      omega
    | false =>
      rw [if_neg Bool.false_ne_true, sumLen, if_neg Bool.false_ne_true]
      omega

/-- **What a request does**: one that is silent leaves what it finds, and every other one is
answered. -/
theorem Ends.respond_cases {ends : Ends} (maxdata : ends.maxdata ≤ MAXDATA) (request : Request) :
    request.Silent ∧ (ends.respond fast request).1 = ends.finish request ∧
        ((ends.respond fast request).2 = .reject ∨ (ends.respond fast request).2 = .reset) ∨
      ¬ request.Silent ∧ ∃ next reqType data,
        ends.respond fast request = (next, .answer reqType data) ∧
          (ends.finish request).Answers fast next request reqType data := by
  have least : (ends.finish request).maxdata ≤ MAXDATA := by
    unfold finish
    split <;> exact maxdata
  have answered : ∀ {next : Ends} {reqType : Byte} {data : List Byte},
      (ends.finish request).onRequest fast request = (next, .answer reqType data) →
      ends.respond fast request = (next.backup request, .answer reqType data) := by
    intro next reqType data replied
    rw [respond, replied]
    rfl
  rcases lt_or_ge 4 request.reqType.toNat with large | known
  · have refused : (ends.finish request).onRequest fast request = (ends.finish request, .reject) := by
      unfold onRequest
      split
      all_goals first | omega | rfl
    refine Or.inl ⟨Or.inr (Or.inl large), ?_⟩
    rw [respond, refused]
    exact ⟨rfl, Or.inl rfl⟩
  have kinds : request.reqType = 0 ∨ request.reqType = 1 ∨ request.reqType = 2 ∨
      request.reqType = 3 ∨ request.reqType = 4 := by
    simp only [← BitVec.toNat_inj]
    simp only [BitVec.reduceToNat]
    omega
  have loud : ∀ {type : Byte}, request.reqType = type → type.toNat ≤ 4 → type ≠ 3 → type ≠ 1 →
      ¬ request.Silent := by
    rintro _ rfl low notReset notIn (reset | unknown | short)
    · exact notReset reset
    · exact absurd unknown (Nat.not_lt.mpr low)
    · exact notIn short.1
  rcases kinds with type | type | type | type | type
  · obtain ⟨next, reqType, data, replied, answers⟩ :=
      @onOut_answers fast (ends.finish request) request type
    refine Or.inr ⟨loud type (by decide) (by decide) (by decide), _, _, _, answered ?_, answers⟩
    rw [onRequest, type]
    exact replied
  · by_cases short : request.payload.length < 2
    · have refused : (ends.finish request).onRequest fast request =
          (ends.finish request, .reject) := by
        rw [onRequest, type]
        exact if_pos short
      refine Or.inl ⟨Or.inr (Or.inr ⟨type, short⟩), ?_⟩
      rw [respond, refused]
      exact ⟨rfl, Or.inl rfl⟩
    · obtain ⟨next, reqType, data, replied, answers⟩ := @onIn_answers fast _ least _ type short
      refine Or.inr ⟨?_, _, _, _, answered ?_, answers⟩
      · rintro (reset | unknown | brief)
        · exact absurd (type.symm.trans reset) (by decide)
        · rw [type] at unknown
          exact absurd unknown (by decide)
        · exact short brief.2
      · rw [onRequest, type]
        exact replied
  · refine Or.inr ⟨loud type (by decide) (by decide) (by decide), _, 2, _, answered ?_,
      .of_other ?_ ?_ rfl rfl (ends.finish request).status_small (by decide)⟩
    · rw [onRequest, type]
      rfl
    all_goals rw [type]; decide
  · have reset : (ends.finish request).onRequest fast request = (ends.finish request, .reset) := by
      rw [onRequest, type]
      rfl
    refine Or.inl ⟨Or.inl type, ?_⟩
    rw [respond, reset]
    exact ⟨rfl, Or.inr rfl⟩
  · have replied : (ends.finish request).onRequest fast request =
        ({ ends.finish request with maxdata := maxdataOf fast },
          .answer 4 [BitVec.ofNat 8 (maxdataOf fast), BitVec.ofNat 8 (maxdataOf fast / 256)]) := by
      rw [onRequest, type]
      rfl
    refine Or.inr ⟨loud type (by decide) (by decide) (by decide), _, _, _, answered replied,
      .of_other ?_ ?_ rfl rfl ?_ (by decide)⟩
    · rw [type]
      decide
    · rw [type]
      decide
    · show 2 + sumLen fast + 4 ≤ TMPS_SIZE
      cases fast <;> decide

theorem Device.begin_sent (s : Device) : s.begin.sent = s.sent := by
  unfold begin
  split <;> rfl

/-- **An interrupt of a device that receives.** -/
theorem Device.Sound.receives {s : Device} (sound : s.Sound fast) (task : s.taskP1 ≠ .send)
    (settled : s.pools.Settled) {txn : Txn}
    (admits : s.Arrives txn → s.begin.rn + txn.packet.length ≤ TMPS_SIZE ∧
      (fast = true → (s.begin.put txn.packet).Room)) :
    ∃ t, s.step fast (.interrupt txn) = some t ∧ t.Sound fast ∧
      s.Receives fast t (s.completes fast txn) := by
  obtain ⟨takes, pools, bytes, holds⟩ := sound.begin task txn
  unfold completes
  by_cases out : txn.pidOut = false
  · have error : bulkIo fast txn s = some (s.begin, 1) := by
      rw [takes, step1, if_pos out]
    have idle : ¬ s.Arrives txn := fun arrives =>
      absurd (out.symm.trans arrives.2) Bool.false_ne_true
    refine ⟨_, interruptUsbdev_error error (by decide), ⟨?_, Or.inl rfl⟩, ?_⟩
    · show s.begin.pools.maxdata ≤ MAXDATA
      rw [pools]
      exact sound.small
    · rw [if_neg fun both => idle both.1]
      exact ⟨congrArg Pools.ends pools, s.begin_sent, fun task => by cases task⟩
  have arrives : s.Arrives txn := ⟨task, (Bool.not_eq_false _).mp out⟩
  obtain ⟨fits, room⟩ := admits arrives
  rw [holds.rn] at fits
  by_cases complete : (s.begin.put txn.packet).Complete
  · rw [if_pos ⟨arrives, complete⟩]
    obtain ⟨t, looked, _, stored, steps⟩ := holds.whole arrives.2 fits room complete
    have ends : t.pools.ends = s.pools.ends := looked.ends.trans (congrArg Pools.ends pools)
    have sent : t.sent = s.sent := looked.sent.trans s.begin_sent
    have small : t.pools.maxdata ≤ MAXDATA :=
      Nat.le_trans (Nat.le_of_eq (congrArg Ends.maxdata ends)) sound.small
    rw [← takes, looked.accept] at steps
    cases accepted : (s.begin.put txn.packet).request fast with
    | none =>
      rw [accepted] at steps
      exact ⟨_, interruptUsbdev_ok steps, ⟨small, Or.inl rfl⟩, ends, sent, fun task => by cases task⟩
    | some bulk =>
      rw [accepted] at steps
      obtain ⟨u, runs, after, done, _⟩ := t.process_respond small
        (Pools.settled_congr ends settled) (stored bulk (looked.accept.trans accepted))
        (looked.taskP2.trans holds.idle) txn
      rw [ends] at after done
      have bound := @Ends.respond_maxdata fast s.pools.ends sound.small bulk.request
      rw [← after] at bound
      exact ⟨u, interruptUsbdev_ok (steps.trans runs), done.sound bound, after, done.congr sent⟩
  · rw [if_neg fun both => complete both.2]
    obtain ⟨t, steps, then_, ends, sent, _⟩ := holds.more arrives.2 fits room complete
    rw [pools] at ends
    refine ⟨t, interruptUsbdev_ok (takes.trans steps), ⟨?_, Or.inr (Or.inl ⟨_, then_⟩)⟩, ends,
      sent.trans s.begin_sent, ?_⟩
    · exact Nat.le_trans (Nat.le_of_eq (congrArg Ends.maxdata ends)) sound.small
    · rw [then_.task]
      decide

/-! ## The invariant -/

/-- An answer of the device, of which the host has heard a part. -/
structure Link.Told (fast : Bool) (l : Link) (answer : Request) : Prop where
  valid : answer.Valid fast
  id : (answer.id.toNat : Int) = l.device.pools.lastBio.seqNo
  heard : l.heard <+: answer.bytes fast
  sending : l.device.taskP1 = .send → ∃ before, before.length = l.mark ∧
    l.device.Sending fast (answer.bytes fast) before ∧ l.device.rn = 0
  isOut : l.Waits → l.device.pools.lastBio.reqType = 0 →
    answer.reqType = if l.refused then 0 else 2
  isIn : l.Waits → l.device.pools.lastBio.reqType = 1 →
    answer.reqType = 1 ∧
        answer.payload = l.device.pools.tx.contents.take l.device.pools.lastBio.dataLen ∨
      answer.reqType = 2 ∧ l.device.pools.lastBio.dataLen = 0

/-- What the host has heard is a part of an answer that the device made. -/
def Link.Speaks (fast : Bool) (l : Link) : Prop :=
  (∃ answer, l.Told fast answer) ∨ l.heard = [] ∧ l.device.taskP1 ≠ .send

/-- A device and its host between two moves. -/
structure Link.Sound (fast : Bool) (l : Link) : Prop where
  device : l.device.Sound fast
  settled : l.device.pools.Settled
  exact : l.Exact
  valid : ∀ request ∈ l.asked, request.Valid fast
  known : l.Waits → ∀ request ∈ l.asked,
    l.device.pools.lastBio.reqType = request.reqType.toNat ∧ ¬ request.Silent
  speaks : l.Speaks fast

variable {l : Link}

namespace Link

theorem Waits.some (waits : l.Waits) : ∃ request, l.asked = some request ∧
    (request.id.toNat : Int) = l.device.pools.lastBio.seqNo := waits.2

theorem taken_of_waits (waits : l.Waits) : l.taken = 0 := if_neg fun both => both.2 waits

theorem pending_of_not_waits (idle : ¬ l.Waits) : l.pending = [] := if_neg fun all => idle all.1

theorem taken_le (settled : l.device.pools.Settled) :
    l.taken ≤ l.device.pools.tx.contents.length := by
  unfold taken
  rw [RingBuffer.length_contents]
  split
  · next done => exact settled done.1
  · exact Nat.zero_le _

end Link

theorem Link.Opened.sound (opened : l.Opened) : l.Sound fast := by
  obtain ⟨device, asked, mark, outs, ins, accepted, returned⟩ := opened
  obtain ⟨⟨rx, tx, pools⟩, task⟩ := device
  have idle : ¬ l.Waits := by
    rintro ⟨_, request, there, _⟩
    rw [asked] at there
    cases there
  have notIn : ¬ l.device.pools.lastBio.reqType = 1 := by
    rw [pools]
    show ¬ (-1 : Int) = 1
    decide
  have nothing : ∀ request ∈ l.asked, request.Valid fast := fun request there => by
    rw [asked] at there
    cases there
  refine ⟨Device.Opened.sound ⟨⟨rx, tx, pools⟩, task⟩, fun isIn => absurd isIn notIn, ⟨?_, ?_⟩,
    nothing, fun waits => absurd waits idle, Or.inr ⟨?_, ?_⟩⟩
  · have empty : l.device.pools.rx.contents = [] := by
      rw [pools]
      exact RingBuffer.contents_empty ..
    rw [Link.pending_of_not_waits idle, outs, returned, empty]
  · have empty : l.device.pools.tx.contents = [] := by
      rw [pools]
      exact RingBuffer.contents_empty ..
    rw [ins, accepted, empty, List.drop_nil]
    rfl
  · rw [Link.heard, mark, List.drop_length]
    rfl
  · rw [task]
    nofun

/-! ## Packets -/

theorem Request.Silent.not_out {request : Request} (silent : request.Silent) :
    request.reqType ≠ 0 := by
  intro isOut
  rcases silent with reset | unknown | short
  · exact absurd (isOut.symm.trans reset) (by decide)
  · rw [isOut] at unknown
    exact absurd unknown (by decide)
  · exact absurd (isOut.symm.trans short.1) (by decide)

theorem Device.Ready.not_send {s : Device} (ready : s.Ready fast) : s.taskP1 ≠ .send := by
  rcases ready with start | ⟨receive, _⟩
  · rw [start]
    nofun
  · rw [receive]
    nofun

theorem Pools.Leaves.finish {pools : Pools} {bulk : BulkIo} (leaves : pools.Leaves bulk)
    (silent : bulk.request.Silent) : pools.ends.finish bulk.request = pools.ends := by
  unfold Ends.finish
  split
  · next ended =>
    rw [Pools.ends_lastBio, leaves silent ended, List.drop_zero]
    rfl
  · rfl

namespace Link

theorem heard_of_sent {before pieces : List (List Byte)} (sent : l.device.sent = before ++ pieces)
    (mark : before.length = l.mark) : l.heard = pieces.flatten := by
  rw [heard, sent, ← mark, List.drop_left]

theorem waits_iff {request : Request} (asked : l.asked = some request)
    (answered : l.answered = false) :
    l.Waits ↔ (request.id.toNat : Int) = l.device.pools.lastBio.seqNo := by
  constructor
  · rintro ⟨_, other, there, same⟩
    rw [asked] at there
    cases there
    exact same
  · exact fun same => ⟨answered, request, asked, same⟩

theorem Sound.finish (sound : l.Sound fast) {request : Request} (asked : l.asked = some request)
    (answered : l.answered = false) :
    l.device.pools.ends.finish request =
      { l.device.pools.ends with tx := l.device.pools.tx.contents.drop l.taken } := by
  unfold Ends.finish
  by_cases waits : l.Waits
  · obtain ⟨same, _⟩ := sound.known waits request asked
    have repeats : ¬ l.device.pools.ends.Ended request := by
      rintro ⟨isIn, other⟩
      have type : request.reqType.toNat = 1 := by
        have both := same.symm.trans isIn
        omega
      refine other.elim (fun apart => apart ((waits_iff asked answered).mp waits)) fun apart => ?_
      exact apart (BitVec.eq_of_toNat_eq type)
    rw [if_neg repeats, taken_of_waits waits, List.drop_zero]
    rfl
  · have apart : (request.id.toNat : Int) ≠ l.device.pools.lastBio.seqNo := fun same =>
      waits ((waits_iff asked answered).mpr same)
    by_cases isIn : l.device.pools.lastBio.reqType = 1
    · have all : l.taken = l.device.pools.lastBio.dataLen := if_pos ⟨isIn, waits⟩
      rw [all]
      exact if_pos ⟨isIn, Or.inl apart⟩
    · have none_ : l.taken = 0 := if_neg fun both => isIn both.1
      rw [none_, List.drop_zero]
      exact if_neg fun ended => isIn ended.1

theorem Sound.repeated_iff (sound : l.Sound fast) {request : Request}
    (asked : l.asked = some request) (answered : l.answered = false) (isOut : request.reqType = 0)
    {ends : Ends} (last : ends.lastBio = l.device.pools.lastBio) :
    ends.Repeated request ↔ l.Waits := by
  rw [waits_iff asked answered, Ends.Repeated, last]
  refine ⟨fun both => both.2, fun same => ⟨?_, same⟩⟩
  rw [(sound.known ((waits_iff asked answered).mpr same) request asked).1, isOut]
  rfl

theorem Told.of_answers {t : Link} {ends : Ends} {request : Request} {reqType : Byte}
    {data : List Byte} (valid : request.Valid fast)
    (answers : ends.Answers fast t.device.pools.ends request reqType data)
    (refused : request.reqType = 0 → (t.refused = true ↔ ends.Refuses request))
    {before : List (List Byte)} (mark : before.length = t.mark)
    (sending : t.device.Sending fast (frame fast request.id reqType data) before)
    (rn : t.device.rn = 0) :
    t.Told fast { id := request.id, reqType := reqType, payload := data } := by
  have lastType := answers.lastType
  obtain ⟨pieces, sent, flat⟩ := sending.sent
  refine ⟨⟨answers.small, valid.id, fun _ => ?_⟩, answers.seqNo.symm, ?_,
    fun _ => ⟨before, mark, sending, rn⟩, fun _ type => ?_, fun _ type => ?_⟩
  · have known := answers.known
    rw [← BitVec.toNat_inj, BitVec.toNat_and]
    show reqType.toNat &&& 15 = reqType.toNat
    rw [show (15 : Nat) = 2 ^ 4 - 1 from rfl, Nat.and_two_pow_sub_one_eq_mod]
    omega
  · rw [heard_of_sent sent mark, flat]
    exact List.take_prefix _ _
  · have isOut : request.reqType = 0 := by
      refine BitVec.eq_of_toNat_eq ?_
      have both : t.device.pools.lastBio.reqType = request.reqType.toNat := lastType
      show request.reqType.toNat = 0
      omega
    refine (answers.isOut isOut).trans ?_
    by_cases refuses : ends.Refuses request
    · rw [if_pos refuses, if_pos ((refused isOut).mpr refuses)]
    · rw [if_neg refuses, if_neg fun yes => refuses ((refused isOut).mp yes)]
  · have isIn : request.reqType = 1 := by
      refine BitVec.eq_of_toNat_eq ?_
      have both : t.device.pools.lastBio.reqType = request.reqType.toNat := lastType
      show request.reqType.toNat = 1
      omega
    have tx : t.device.pools.tx.contents = ends.tx := answers.tx
    rw [tx]
    exact (answers.isIn isIn).2

theorem Sound.pending_brings {t : Link} {request : Request} (sound : l.Sound fast)
    (asked : l.asked = some request) (answered : l.answered = false) (refused : l.refused = false)
    (asks : t.asked = some request) (waits : t.Waits)
    (lastType : t.device.pools.lastBio.reqType = request.reqType.toNat)
    (refuses : request.reqType = 0 →
      (t.refused = true ↔ (l.device.pools.ends.finish request).Refuses request)) :
    l.pending ++ (l.device.pools.ends.finish request).brings request = t.pending := by
  have last : (l.device.pools.ends.finish request).lastBio = l.device.pools.lastBio := by
    rw [sound.finish asked answered]
    rfl
  by_cases isOut : request.reqType = 0
  · have repeated := sound.repeated_iff asked answered isOut last
    have type : t.device.pools.lastBio.reqType = 0 := by
      rw [lastType, isOut]
      rfl
    have after : t.refused = false → t.pending = request.payload := fun kept => by
      rw [pending, if_pos ⟨waits, type, kept⟩, asks]
      rfl
    by_cases again : l.Waits
    · have kept : ¬ (l.device.pools.ends.finish request).Refuses request := fun refuses =>
        refuses.2.1 (repeated.mpr again)
      have before : l.device.pools.lastBio.reqType = 0 := by
        rw [(sound.known again request asked).1, isOut]
        rfl
      rw [after ((Bool.not_eq_true _).mp fun yes => kept ((refuses isOut).mp yes)), pending,
        if_pos ⟨again, before, refused⟩, asked, Ends.brings,
        if_neg fun all => all.2.1 (repeated.mpr again), List.append_nil]
      rfl
    · rw [pending_of_not_waits again, List.nil_append, Ends.brings]
      by_cases full : (l.device.pools.ends.finish request).Refuses request
      · have no : ¬ t.refused = false := (Bool.not_eq_false _).mpr ((refuses isOut).mpr full)
        rw [if_neg fun all => all.2.2 full, pending, if_neg fun all => no all.2.2]
      · rw [if_pos ⟨isOut, fun both => again (repeated.mp both), full⟩]
        exact (after ((Bool.not_eq_true _).mp fun yes => full ((refuses isOut).mp yes))).symm
  · have notOut : ∀ {number : Int}, number = request.reqType.toNat → number ≠ 0 := by
      intro number same zero
      refine isOut (BitVec.eq_of_toNat_eq ?_)
      show request.reqType.toNat = 0
      omega
    have before : l.pending = [] := if_neg fun all =>
      notOut (sound.known all.1 request asked).1 all.2.1
    rw [before, Ends.brings_nil _ isOut, pending, if_neg fun all => notOut lastType all.2.1]
    rfl

/-- **A packet that completes a request** which is answered. -/
theorem Sound.answered {t : Link} {request : Request} {reqType : Byte} {data : List Byte}
    (sound : l.Sound fast) (asked : l.asked = some request) (answered : l.answered = false)
    (refused : l.refused = false)
    (same : t = { l with device := t.device, mark := t.mark, refused := t.refused })
    (device : t.device.Sound fast) (loud : ¬ request.Silent)
    (answers : (l.device.pools.ends.finish request).Answers fast t.device.pools.ends request
      reqType data)
    (refuses : request.reqType = 0 →
      (t.refused = true ↔ (l.device.pools.ends.finish request).Refuses request))
    (mark : l.device.sent.length = t.mark)
    (sending : t.device.Sending fast (frame fast request.id reqType data) l.device.sent)
    (rn : t.device.rn = 0) : t.Sound fast := by
  have asks : t.asked = some request := by
    rw [same]
    exact asked
  have open_ : t.answered = false := by
    rw [same]
    exact answered
  have valid := sound.valid request asked
  have finish := sound.finish asked answered
  have waits : t.Waits := (waits_iff asks open_).mpr answers.seqNo.symm
  have lastType : t.device.pools.lastBio.reqType = request.reqType.toNat := answers.lastType
  have tx : t.device.pools.tx.contents = l.device.pools.tx.contents.drop l.taken := by
    refine answers.tx.trans ?_
    rw [finish]
  have rx : t.device.pools.rx.contents = l.device.pools.rx.contents ++
      (l.device.pools.ends.finish request).brings request := by
    refine answers.rx.trans ?_
    rw [finish]
    rfl
  refine ⟨device, fun isIn => ?_, ⟨?_, ?_⟩, ?_, ?_,
    Or.inl ⟨{ id := request.id, reqType := reqType, payload := data }, ?_⟩⟩
  · have type : request.reqType = 1 := by
      refine BitVec.eq_of_toNat_eq ?_
      show request.reqType.toNat = 1
      omega
    have inside := (answers.isIn type).1
    rw [← answers.tx, Pools.ends_tx, RingBuffer.length_contents] at inside
    exact inside
  · have before : t.returned = l.returned ∧ t.outs = l.outs := by
      rw [same]
      exact ⟨rfl, rfl⟩
    rw [before.1, before.2, rx, ← List.append_assoc, sound.exact.received, List.append_assoc]
    refine congrArg (l.outs ++ ·) ?_
    exact sound.pending_brings asked answered refused asks waits lastType refuses
  · have before : t.accepted = l.accepted ∧ t.ins = l.ins := by
      rw [same]
      exact ⟨rfl, rfl⟩
    rw [before.1, before.2, tx, taken_of_waits waits, List.drop_zero]
    exact sound.exact.sent
  · intro other there
    rw [asks] at there
    cases there
    exact valid
  · intro _ other there
    rw [asks] at there
    cases there
    exact ⟨lastType, loud⟩
  · exact Told.of_answers valid answers refuses mark sending rn

theorem waits_congr {t : Link} (asked : t.asked = l.asked) (answered : t.answered = l.answered)
    (last : t.device.pools.lastBio = l.device.pools.lastBio) : t.Waits ↔ l.Waits := by
  rw [Waits, Waits, asked, answered, last]

theorem taken_congr {t : Link} (waits : t.Waits ↔ l.Waits)
    (last : t.device.pools.lastBio = l.device.pools.lastBio) : t.taken = l.taken := by
  unfold taken
  rw [last]
  by_cases waiting : l.Waits
  · rw [if_neg fun both => both.2 (waits.mpr waiting), if_neg fun both => both.2 waiting]
  · by_cases isIn : l.device.pools.lastBio.reqType = 1
    · rw [if_pos ⟨isIn, fun yes => waiting (waits.mp yes)⟩, if_pos ⟨isIn, waiting⟩]
    · rw [if_neg fun both => isIn both.1, if_neg fun both => isIn both.1]

theorem pending_congr {t : Link} (waits : t.Waits ↔ l.Waits)
    (last : t.device.pools.lastBio = l.device.pools.lastBio) (asked : t.asked = l.asked)
    (refused : t.refused = l.refused) : t.pending = l.pending := by
  unfold pending
  rw [last, asked, refused]
  by_cases all : l.Waits ∧ l.device.pools.lastBio.reqType = 0 ∧ l.refused = false
  · rw [if_pos all, if_pos ⟨waits.mpr all.1, all.2⟩]
  · rw [if_neg all, if_neg fun both => all ⟨waits.mp both.1, both.2⟩]

theorem Sound.quiet {t : Link} (sound : l.Sound fast)
    (same : t = { l with device := t.device, mark := t.mark }) (device : t.device.Sound fast)
    (ends : t.device.pools.ends = l.device.pools.ends) (speaks : t.Speaks fast) :
    t.Sound fast := by
  have last : t.device.pools.lastBio = l.device.pools.lastBio := congrArg Ends.lastBio ends
  have rx : t.device.pools.rx.contents = l.device.pools.rx.contents := congrArg Ends.rx ends
  have tx : t.device.pools.tx.contents = l.device.pools.tx.contents := congrArg Ends.tx ends
  have asked : t.asked = l.asked := by rw [same]
  have refused : t.refused = l.refused := by rw [same]
  have waits : t.Waits ↔ l.Waits := waits_congr asked (by rw [same]) last
  refine ⟨device, Pools.settled_congr ends sound.settled, ⟨?_, ?_⟩, ?_, ?_, speaks⟩
  · rw [rx, pending_congr waits last asked refused, same]
    exact sound.exact.received
  · rw [tx, taken_congr waits last, same]
    exact sound.exact.sent
  · rw [asked]
    exact sound.valid
  · rw [waits, asked, last]
    exact sound.known

theorem Told.packet {t : Link} {answer : Request} (told : l.Told fast answer)
    (same : t = { l with device := t.device }) (pools : t.device.pools = l.device.pools)
    (heard : t.heard <+: answer.bytes fast)
    (sending : t.device.taskP1 = .send → ∃ before, before.length = t.mark ∧
      t.device.Sending fast (answer.bytes fast) before ∧ t.device.rn = 0) :
    t.Told fast answer := by
  have asked : t.asked = l.asked := by rw [same]
  have refused : t.refused = l.refused := by rw [same]
  have waits : t.Waits ↔ l.Waits := waits_congr asked (by rw [same]) (by rw [pools])
  refine ⟨told.valid, ?_, heard, sending, fun waiting => ?_, fun waiting => ?_⟩
  · rw [pools]
    exact told.id
  · rw [pools, refused]
    exact told.isOut (waits.mp waiting)
  · rw [pools]
    exact told.isIn (waits.mp waiting)

theorem Sound.full_iff (sound : l.Sound fast) {bulk : BulkIo} (asked : l.asked = some bulk.request)
    (answered : l.answered = false) : l.device.pools.Full bulk ↔
      (l.device.pools.ends.finish bulk.request).Refuses bulk.request := by
  rw [sound.finish asked answered]
  unfold Pools.Full Ends.Refuses
  rw [BulkIo.length_payload, ← Pools.ends_rxLeft]
  rfl

/-- **A packet** keeps a link sound, and moves past nothing that is not in the pool. -/
theorem Sound.packet (sound : l.Sound fast) {txn : Txn} (proper : l.Proper fast (.packet txn))
    (admits : l.Admits fast (.packet txn)) :
    ∃ t, l.step fast (.packet txn) = some t ∧ t.Sound fast ∧
      t.device.pools.tx.contents <:+ l.device.pools.tx.contents := by
  show ∃ t, l.packet fast txn = some t ∧ _
  by_cases task : l.device.taskP1 = .send
  · have told : ∃ answer, l.Told fast answer :=
      sound.speaks.resolve_right fun quiet => quiet.2 task
    obtain ⟨answer, told⟩ := told
    obtain ⟨before, mark, sending, rn⟩ := told.sending task
    obtain ⟨u, steps, device, pools, ⟨pieces, sent, front⟩, more⟩ :=
      sending.interrupt rn sound.device.small txn
    have none_ : l.device.completes fast txn = none := if_neg fun both => both.1.1 task
    have refuses : l.device.refuses fast txn = false := by
      rw [Device.refuses, none_]
      rfl
    rw [Link.packet, steps, Option.map_some, if_pos task, refuses, Bool.or_false]
    refine ⟨_, rfl, sound.quiet rfl device (congrArg Pools.ends pools)
      (Or.inl ⟨answer, told.packet rfl pools ?_ fun again => ?_⟩), ?_⟩
    · have all := @heard_of_sent { l with device := u } before pieces sent mark
      rw [all]
      exact front
    · exact ⟨before, mark, (more again).1, (more again).2⟩
    · show u.pools.tx.contents <:+ _
      rw [pools]
  · obtain ⟨u, steps, device, receives⟩ := sound.device.receives task sound.settled
      fun arrives => ⟨(admits arrives).1, (admits arrives).2.1⟩
    have none_ : ∀ {t : Link}, t.device = u → t.mark = l.device.sent.length →
        u.sent = l.device.sent → u.taskP1 ≠ .send → t.Speaks fast := by
      rintro t rfl mark sent rests
      refine Or.inr ⟨?_, rests⟩
      rw [heard, sent, mark, List.drop_length]
      rfl
    rw [Link.packet, steps, Option.map_some, if_neg task]
    cases completed : l.device.completes fast txn with
    | none =>
      rw [completed] at receives
      obtain ⟨ends, sent, rests⟩ := receives
      have refuses : l.device.refuses fast txn = false := by
        rw [Device.refuses, completed]
        rfl
      rw [refuses, Bool.or_false]
      refine ⟨_, rfl, sound.quiet rfl device ends (none_ rfl rfl sent rests), ?_⟩
      show u.pools.ends.tx <:+ _
      rw [ends]
      exact List.suffix_rfl
    | some bulk =>
      rw [completed] at receives
      obtain ⟨asked, answered⟩ := proper bulk completed
      have arrives : l.device.Arrives txn := by
        by_contra other
        rw [Device.completes, if_neg fun both => other both.1] at completed
        cases completed
      obtain ⟨leaves, refused⟩ := (admits arrives).2.2 bulk completed
      have refuses : l.device.refuses fast txn = decide (l.device.pools.Full bulk) := by
        rw [Device.refuses, completed]
        rfl
      rw [refused, Bool.false_or, refuses]
      obtain ⟨after, done⟩ := receives
      have full := sound.full_iff asked answered
      rcases @Ends.respond_cases fast l.device.pools.ends sound.device.small
          bulk.request with ⟨silent, quiet, reply⟩ | ⟨loud, next, reqType, data, replied, answers⟩
      · have ends : u.pools.ends = l.device.pools.ends :=
          (after.trans quiet).trans (leaves.finish silent)
        have room : decide (l.device.pools.Full bulk) = false :=
          decide_eq_false fun isFull => silent.not_out isFull.1
        have ready : u.Ready fast ∧ u.sent = l.device.sent := by
          rcases reply with reject | reset
          · rw [reject] at done
            exact done
          · rw [reset] at done
            exact done
        rw [room, ← refused]
        refine ⟨_, rfl, sound.quiet rfl device ends (none_ rfl rfl ready.2 ready.1.not_send), ?_⟩
        show u.pools.ends.tx <:+ _
        rw [ends]
        exact List.suffix_rfl
      · rw [replied] at after done
        obtain ⟨sending, rn⟩ := done
        change u.pools.ends = next at after
        rw [← after] at answers
        refine ⟨_, rfl, sound.answered asked answered refused rfl device loud answers
          (fun _ => ?_) rfl sending rn, ?_⟩
        · exact decide_eq_true_iff.trans full
        · show u.pools.ends.tx <:+ _
          rw [answers.tx, sound.finish asked answered]
          exact List.drop_suffix _ _

/-! ## Calls and the host -/

theorem Speaks.call {t : Link} (speaks : l.Speaks fast) (settled : l.device.pools.Settled)
    (same : t = { l with
      device := { l.device with pools := t.device.pools }
      accepted := t.accepted
      returned := t.returned })
    (last : t.device.pools.lastBio = l.device.pools.lastBio)
    (more : l.device.pools.tx.contents <+: t.device.pools.tx.contents) : t.Speaks fast := by
  have heard : t.heard = l.heard := by
    rw [same]
    rfl
  have waits : t.Waits ↔ l.Waits := waits_congr (by rw [same]) (by rw [same]) last
  have task : t.device.taskP1 = l.device.taskP1 := by rw [same]
  rcases speaks with ⟨answer, told⟩ | ⟨nothing, rests⟩
  · refine Or.inl ⟨answer, told.valid, ?_, ?_, fun sends => ?_, fun waiting type => ?_,
      fun waiting type => ?_⟩
    · rw [last]
      exact told.id
    · rw [heard]
      exact told.heard
    · rw [task] at sends
      obtain ⟨before, mark, sending, rn⟩ := told.sending sends
      refine ⟨before, ?_, sending.of_tx ?_ more, ?_⟩
      all_goals rw [same]
      · exact mark
      · exact rn
    · rw [last] at type
      have refused : t.refused = l.refused := by rw [same]
      rw [refused]
      exact told.isOut (waits.mp waiting) type
    · rw [last] at type
      rw [last]
      refine (told.isIn (waits.mp waiting) type).imp_left fun ⟨isIn, carried⟩ => ⟨isIn, ?_⟩
      obtain ⟨rest, longer⟩ := more
      rw [← longer, List.take_append_of_le_length, carried]
      rw [RingBuffer.length_contents]
      exact settled type
  · refine Or.inr ⟨heard.trans nothing, ?_⟩
    rw [task]
    exact rests

theorem Sound.usbDevSends (sound : l.Sound fast) (buf : List Byte) :
    (l.usbDevSends buf).Sound fast := by
  by_cases full : TX_POOL_SIZE ≤ buf.length + l.device.pools.tx.count
  · have same : l.usbDevSends buf = l := by
      rw [Link.usbDevSends, Usb.usbDevSends, if_pos full, if_pos full]
    rw [same]
    exact sound
  have room := l.device.pools.tx.room_add_count
  rw [l.device.pools.tx_size] at room
  have device := sound.device.usbDevSends buf
  rw [Link.usbDevSends, if_neg full]
  rw [Usb.usbDevSends, if_neg full] at device ⊢
  have tx : (l.device.pools.tx.pushAll buf).contents = l.device.pools.tx.contents ++ buf :=
    RingBuffer.contents_pushAll (by omega)
  have count : (l.device.pools.tx.pushAll buf).count = l.device.pools.tx.count + buf.length := by
    rw [← RingBuffer.length_contents, tx, List.length_append, RingBuffer.length_contents]
  refine ⟨device, fun isIn => ?_, ⟨sound.exact.received, ?_⟩, sound.valid, sound.known,
    sound.speaks.call sound.settled rfl rfl ?_⟩
  · have inside := sound.settled isIn
    show l.device.pools.lastBio.dataLen ≤ (l.device.pools.tx.pushAll buf).count
    omega
  · show l.accepted ++ buf = l.ins ++ (l.device.pools.tx.pushAll buf).contents.drop l.taken
    rw [tx, List.drop_append_of_le_length (taken_le sound.settled), ← List.append_assoc,
      ← sound.exact.sent]
  · show _ <+: (l.device.pools.tx.pushAll buf).contents
    rw [tx]
    exact List.prefix_append _ _

theorem Sound.usbDevRecvs (sound : l.Sound fast) (wantLen : Nat) :
    (l.usbDevRecvs wantLen).Sound fast := by
  refine ⟨sound.device.call rfl rfl rfl rfl List.prefix_rfl, sound.settled, ⟨?_, sound.exact.sent⟩,
    sound.valid, sound.known, sound.speaks.call sound.settled rfl rfl List.prefix_rfl⟩
  have rest : (l.device.pools.rx.skip (min wantLen l.device.pools.rx.count)).contents =
      l.device.pools.rx.contents.drop wantLen := by
    rw [RingBuffer.contents_skip (Nat.min_le_right _ _), ← RingBuffer.length_contents]
    rcases le_total wantLen l.device.pools.rx.contents.length with few | all
    · rw [Nat.min_eq_left few]
    · rw [Nat.min_eq_right all, List.drop_length, List.drop_eq_nil_of_le all]
  show l.returned ++ l.device.pools.rx.contents.take wantLen ++
    (l.device.pools.rx.skip (min wantLen l.device.pools.rx.count)).contents = l.outs ++ l.pending
  rw [rest, List.append_assoc, List.take_append_drop]
  exact sound.exact.received

/-- What the host has heard does not change when it does something itself that it does not wait
for. -/
theorem Speaks.host {t : Link} (speaks : l.Speaks fast) (device : t.device = l.device)
    (mark : t.mark = l.mark) (idle : ¬ t.Waits) : t.Speaks fast := by
  have heard : t.heard = l.heard := by
    unfold Link.heard
    rw [device, mark]
  rcases speaks with ⟨answer, told⟩ | ⟨nothing, rests⟩
  · refine Or.inl ⟨answer, told.valid, ?_, ?_, ?_, fun waits => absurd waits idle,
      fun waits => absurd waits idle⟩
    · rw [device]
      exact told.id
    · rw [heard]
      exact told.heard
    · rw [device, mark]
      exact told.sending
  · refine Or.inr ⟨heard.trans nothing, ?_⟩
    rw [device]
    exact rests

theorem Sound.ask (sound : l.Sound fast) {request : Request}
    (proper : l.Proper fast (.ask request)) : (l.ask request).Sound fast := by
  obtain ⟨free, valid, fresh⟩ := proper
  have idle : ¬ (l.ask request).Waits := fun waits =>
    fresh ((waits_iff (l := l.ask request) rfl rfl).mp waits)
  have before : ¬ l.Waits := by
    intro waits
    obtain ⟨last, asked, _⟩ := waits.some
    rcases free with answered | silent
    · exact absurd (answered.symm.trans waits.1) Bool.false_ne_true.symm
    · exact (sound.known waits last asked).2 (silent last asked)
  refine ⟨sound.device, sound.settled, ⟨?_, ?_⟩, ?_, fun waits => absurd waits idle,
    sound.speaks.host rfl rfl idle⟩
  · have received := sound.exact.received
    rw [pending_of_not_waits before] at received
    rw [pending_of_not_waits idle]
    exact received
  · rw [taken_congr (iff_of_false idle before) rfl]
    exact sound.exact.sent
  · intro other there
    cases there
    exact valid

theorem Sound.told (sound : l.Sound fast) {request : Request} {reqType : Byte} {data : List Byte}
    (asked : l.asked = some request) (answered : l.answered = false)
    (valid : ({ id := request.id, reqType := reqType, payload := data } : Request).Valid fast)
    (heard : l.heard = frame fast request.id reqType data) :
    l.Waits ∧ l.Told fast { id := request.id, reqType := reqType, payload := data } := by
  have some_ : l.heard ≠ [] := by
    intro nothing
    have length := length_frame fast request.id reqType data
    rw [← heard, nothing] at length
    cases length
  obtain ⟨answer, told⟩ := sound.speaks.resolve_right fun quiet => some_ quiet.1
  have front := told.heard
  rw [heard] at front
  cases Request.eq_of_prefix valid told.valid front
  exact ⟨(waits_iff asked answered).mpr told.id, told⟩

theorem Sound.outs_accept (sound : l.Sound fast) {request : Request} {reqType : Byte}
    {data : List Byte} (asked : l.asked = some request) (waits : l.Waits)
    (told : l.Told fast { id := request.id, reqType := reqType, payload := data }) :
    l.outs ++ l.pending =
      if request.reqType = 0 ∧ reqType = 2 then l.outs ++ request.payload else l.outs := by
  obtain ⟨lastType, _⟩ := sound.known waits request asked
  by_cases isOut : request.reqType = 0
  · have type : l.device.pools.lastBio.reqType = 0 := by
      rw [lastType, isOut]
      rfl
    have answer : reqType = if l.refused then 0 else 2 := told.isOut waits type
    cases refused : l.refused with
    | true =>
      have nothing : l.pending = [] := if_neg fun all => by
        rw [refused] at all
        exact Bool.false_ne_true.symm all.2.2
      have no : ¬ (request.reqType = 0 ∧ reqType = 2) := fun both => by
        rw [both.2, refused] at answer
        exact absurd answer (by decide)
      rw [nothing, if_neg no, List.append_nil]
    | false =>
      rw [refused] at answer
      rw [if_pos ⟨isOut, answer⟩, pending, if_pos ⟨waits, type, refused⟩, asked]
      rfl
  · have nothing : l.pending = [] := if_neg fun all => by
      refine isOut (BitVec.eq_of_toNat_eq ?_)
      have both := lastType.symm.trans all.2.1
      show request.reqType.toNat = 0
      omega
    rw [nothing, if_neg fun both => isOut both.1, List.append_nil]

theorem Sound.ins_accept {t : Link} (sound : l.Sound fast) {request : Request} {reqType : Byte}
    {data : List Byte} (asked : l.asked = some request) (waits : l.Waits)
    (told : l.Told fast { id := request.id, reqType := reqType, payload := data })
    (idle : ¬ t.Waits) (device : t.device = l.device) :
    l.ins ++ l.device.pools.tx.contents =
      (if request.reqType = 1 ∧ reqType = 1 then l.ins ++ data else l.ins) ++
        l.device.pools.tx.contents.drop t.taken := by
  obtain ⟨lastType, _⟩ := sound.known waits request asked
  by_cases isIn : request.reqType = 1
  · have type : l.device.pools.lastBio.reqType = 1 := by
      rw [lastType, isIn]
      rfl
    have taken : t.taken = l.device.pools.lastBio.dataLen := by
      rw [Link.taken, device]
      exact if_pos ⟨type, idle⟩
    rw [taken]
    rcases told.isIn waits type with ⟨carries, payload⟩ | ⟨status, nothing⟩
    · have same : data = l.device.pools.tx.contents.take l.device.pools.lastBio.dataLen := payload
      rw [if_pos ⟨isIn, carries⟩, same, List.append_assoc, List.take_append_drop]
    · have other : ¬ reqType = 1 := fun one => absurd (status.symm.trans one) (by decide)
      rw [if_neg fun both => other both.2, nothing, List.drop_zero]
  · have taken : t.taken = 0 := by
      rw [Link.taken, device]
      refine if_neg fun both => isIn (BitVec.eq_of_toNat_eq ?_)
      have all := lastType.symm.trans both.1
      show request.reqType.toNat = 1
      omega
    rw [taken, if_neg fun both => isIn both.1, List.drop_zero]

theorem Sound.accept (sound : l.Sound fast) {reqType : Byte} {data : List Byte}
    (proper : l.Proper fast (.accept reqType data)) : (l.accept reqType data).Sound fast := by
  obtain ⟨answered, request, asked, valid, heard⟩ := proper
  have asks : l.asked = some request := asked
  obtain ⟨waits, told⟩ := sound.told asks answered valid heard
  obtain ⟨lastType, _⟩ := sound.known waits request asks
  have received := sound.exact.received
  have sent := sound.exact.sent
  rw [taken_of_waits waits, List.drop_zero] at sent
  rw [Link.accept, asks]
  have idle : ∀ outs ins, ¬ ({ l with
      asked := some request, answered := true, outs := outs, ins := ins } : Link).Waits :=
    fun _ _ yes => Bool.false_ne_true.symm yes.1
  refine ⟨sound.device, sound.settled, ⟨?_, ?_⟩, ?_, fun yes => absurd yes (idle _ _),
    sound.speaks.host rfl rfl (idle _ _)⟩
  · rw [pending_of_not_waits (idle _ _), List.append_nil]
    refine received.trans ?_
    exact sound.outs_accept asks waits told
  · refine sent.trans ?_
    exact sound.ins_accept asks waits told (idle _ _) rfl
  · intro other there
    cases there
    exact sound.valid request asks

/-- **A move** keeps a link sound, and moves past nothing that is not in the pool. -/
theorem Sound.step (sound : l.Sound fast) {move : Move} (proper : l.Proper fast move)
    (admits : l.Admits fast move) :
    ∃ t, l.step fast move = some t ∧ t.Sound fast ∧ (∀ txn, move = .packet txn →
      t.device.pools.tx.contents <:+ l.device.pools.tx.contents) := by
  cases move with
  | packet txn =>
    obtain ⟨t, steps, then_, front⟩ := sound.packet proper admits
    exact ⟨t, steps, then_, fun _ _ => front⟩
  | usbDevSends buf => exact ⟨_, rfl, sound.usbDevSends buf, nofun⟩
  | usbDevRecvs wantLen => exact ⟨_, rfl, sound.usbDevRecvs wantLen, nofun⟩
  | ask request => exact ⟨_, rfl, sound.ask proper, nofun⟩
  | accept reqType data => exact ⟨_, rfl, sound.accept proper, nofun⟩

end Link

/-- **Exactly once.** In every run of a proper host whose packets are admitted, what `UsbDevRecvs`
returns are the data of the BULK OUTs that were answered with success, what the host takes are the
bytes that `UsbDevSends` accepted, each once and in order, and no packet moves `tx_read` past
`tx_write`. -/
theorem delivery_exact (opened : l.Opened) {moves : List Move}
    (meets : MeetsPartial (Link.step fast) (fun l move => l.Proper fast move ∧ l.Admits fast move)
      l moves) :
    ∃ last, moves.foldlM (Link.step fast) l = some last ∧ last.Exact ∧
      ∀ before txn after, moves = before ++ .packet txn :: after →
        ∃ t u, before.foldlM (Link.step fast) l = some t ∧ t.step fast (.packet txn) = some u ∧
          t.Exact ∧ u.Exact ∧ u.device.pools.tx.contents <:+ t.device.pools.tx.contents := by
  have each : ∀ (t : Link) move, t.Sound fast → t.Proper fast move ∧ t.Admits fast move →
      ∃ u, t.step fast move = some u ∧ u.Sound fast := fun t move sound meets => by
    obtain ⟨u, steps, then_, _⟩ := sound.step meets.1 meets.2
    exact ⟨u, steps, then_⟩
  obtain ⟨last, runs, ends⟩ := foldlM_keeps each opened.sound meets
  refine ⟨last, runs, ends.exact, fun before txn after parts => ?_⟩
  rw [parts] at meets
  obtain ⟨front, back⟩ := meets.append
  obtain ⟨t, reached, sound⟩ := foldlM_keeps each opened.sound front
  obtain ⟨⟨proper, admits⟩, _⟩ := back t reached
  obtain ⟨u, steps, then_, past⟩ := sound.step proper admits
  exact ⟨t, u, reached, steps, sound.exact, then_.exact, past txn rfl⟩

/-! ## Two hosts -/

/-- A link before anything happens. -/
def openedLink : Link where
  device := openedDevice
  asked := none
  answered := false
  mark := 0
  refused := false
  outs := []
  ins := []
  accepted := []
  returned := []

theorem openedLink_opened : openedLink.Opened :=
  ⟨openedDevice_opened, rfl, rfl, rfl, rfl, rfl, rfl⟩

/-- The packet of a request without data. -/
def shortTxn (first second : Byte) : Txn where
  pidOut := true
  pidIn := false
  packet := [first, second, 0, 0]
  toggle := false
  packet_length := by
    show 4 ≤ EP1_BUF_SIZE
    decide

/-- The packet of a BULK IN for one byte. -/
def inTxn : Txn where
  pidOut := true
  pidIn := false
  packet := [0x01, 0x31, 2, 0, 1, 0]
  toggle := false
  packet_length := by decide

/-- A host that takes a byte. -/
def takeMoves : List Move :=
  [.usbDevSends [7], .ask { id := 1, reqType := 1, payload := [1, 0] }, .packet inTxn, .accept 1 [7]]

theorem takeMoves_proper :
    MeetsPartial (Link.step false) (Link.Proper false) openedLink takeMoves := by
  decide +kernel

theorem delivery_exact_take :
    ∃ last, takeMoves.foldlM (Link.step false) openedLink = some last ∧ last.Exact ∧
      ∀ before txn after, takeMoves = before ++ .packet txn :: after →
        ∃ t u, before.foldlM (Link.step false) openedLink = some t ∧
          t.step false (.packet txn) = some u ∧ t.Exact ∧ u.Exact ∧
          u.device.pools.tx.contents <:+ t.device.pools.tx.contents := by
  obtain ⟨_, sends⟩ := takeMoves_proper
  refine delivery_exact openedLink_opened ⟨⟨trivial, trivial⟩, fun _ sent => ?_⟩
  obtain ⟨asks, rest⟩ := sends _ sent
  refine ⟨⟨asks, trivial⟩, fun _ asked => ?_⟩
  obtain ⟨carries, back⟩ := rest _ asked
  cases sent
  cases asked
  refine ⟨⟨carries, fun _ => ⟨by decide, nofun, fun bulk _ => ⟨fun _ ended => ?_, rfl⟩⟩⟩,
    fun t taken => ?_⟩
  · exact absurd ended.1 (by decide)
  · obtain ⟨accepts, _⟩ := back t taken
    exact ⟨⟨accepts, trivial⟩, fun _ _ => trivial⟩

/-- A host that takes a byte and sends a RESET before it asks for the state. -/
def resetMoves : List Move :=
  [.usbDevSends [7], .ask { id := 1, reqType := 1, payload := [1, 0] }, .packet inTxn,
    .accept 1 [7], .packet (fetchTxn false), .ask { id := 2, reqType := 3, payload := [] },
    .packet (shortTxn 0x02 0x13), .ask { id := 3, reqType := 2, payload := [] },
    .packet (shortTxn 0x03 0x12)]

/-- The byte that the host took before a RESET is moved past once more, and the pool is full of
bytes that nobody sent. -/
theorem resetMoves_repeats : openedLink.Opened ∧
    MeetsPartial (Link.step false) (Link.Proper false) openedLink resetMoves ∧
    ∃ last, resetMoves.foldlM (Link.step false) openedLink = some last ∧ ¬ last.Exact := by
  have logs : (resetMoves.foldlM (Link.step false) openedLink).map (fun l =>
      (l.accepted, l.ins, l.device.pools.tx.count, l.device.pools.lastBio.reqType)) =
        some ([7], [7], 10240, 2) := by decide +kernel
  obtain ⟨last, runs, logs⟩ := Option.map_eq_some_iff.mp logs
  rw [Prod.mk.injEq, Prod.mk.injEq, Prod.mk.injEq] at logs
  obtain ⟨accepted, ins, count, type⟩ := logs
  refine ⟨openedLink_opened, by decide +kernel, last, runs, fun exact => ?_⟩
  have taken : last.taken = 0 := if_neg fun both => by
    rw [type] at both
    exact absurd both.1 (by decide)
  have sent := congrArg List.length exact.sent
  rw [accepted, ins, taken, List.drop_zero, List.length_append, RingBuffer.length_contents,
    count] at sent
  exact absurd sent (by decide)

end PosFirmware.Usb
