import PosFirmware.Ppp.Send

/-!
# Receiving over the PPP line

The receive interrupt calls `_ppp_recv_char` for each character: it decodes frames into
buffers of `rcv_bufs`. `ppp_get_rcv` copies the first frame that waits into a packet. Where no
buffer is free for a new frame, the oldest that waits is given up. `RcvFifo` says that
frames leave the queue as they came; `rcvStep_inOrder` keeps it where a frame is put
behind all that wait.
-/

namespace PosFirmware.Ppp

open PosFirmware.Foundation

/-- The receive side of a PPP device. -/
structure RcvState where
  /-- `rcv_bufs`. -/
  bufs : PppBufs
  /-- `rcv_buf`. -/
  rcvBuf : Option Nat
  /-- `bufin`, counted from the start of the buffer. -/
  bufin : Option Nat
  /-- `lastin`. -/
  lastin : Byte
  /-- The buffer `ppp_get_rcv` copies from. -/
  reading : Option Nat
  /-- The frames put into the queue. -/
  queued : List (List Byte)
  /-- The frames that left it, for the stack or given up. -/
  gone : List (List Byte × Bool)
  /-- What `ppp_get_rcv` copied, with a packet for it or not. -/
  read : List (List Byte × Bool)

/-- The buffers after the first loop of `ppp_get_buf`. -/
def PppBufs.aged (bufs : PppBufs) : PppBufs :=
  fun i => if i < PPP_QLEN then ageBuf (bufs i) else bufs i

/-- `ppp_get_buf` with `force`: the buffer it returns, and the buffers. -/
def pppGetBuf (bufs : PppBufs) : Nat × PppBufs :=
  match firstSlot (fun i => (bufs i).status = .free) PPP_QLEN with
  | some j => (j, bufs.aged.renew j)
  | none =>
    let j := (oldestBuf bufs.aged PPP_QLEN).1.getD 0
    (j, bufs.aged.renew j)

/-- `_ppp_recv_char` takes a buffer for a new frame; a frame that waits in it is given up. -/
def startFrame (s : RcvState) : RcvState :=
  let (j, bufs) := pppGetBuf s.bufs
  { s with
    bufs, rcvBuf := some j, bufin := some 0
    gone := if (s.bufs j).status = .free then s.gone
      else s.gone ++ [((s.bufs j).frame, false)] }

/-- The label `lab4`: what does not fit is left out. -/
def storeChar (c : Byte) (s : RcvState) : RcvState :=
  match s.rcvBuf, s.bufin with
  | some j, some n =>
    if n < PPP_MSS + PPP_HEADER_SPACE + 1 then
      { s with
        bufs := s.bufs.set j
          { s.bufs j with data := fun k => if k = n then c else (s.bufs j).data k }
        bufin := some (n + 1) }
    else s
  | _, _ => s

/-- The flag at the end of a frame: a frame of more than four bytes waits from now on. -/
def endFrame (s : RcvState) : RcvState :=
  match s.rcvBuf, s.bufin with
  | some j, some n =>
    let b := { s.bufs j with
      data := fun k => if k = n then FLAG else (s.bufs j).data k
      len := n + 1 }
    if n + 1 ≤ 4 then { s with bufs := s.bufs.set j b, rcvBuf := none, bufin := none }
    else
      { s with
        bufs := s.bufs.set j { b with status := .used }
        rcvBuf := none
        bufin := none
        queued := s.queued ++ [b.frame] }
  | _, _ => s

/-- `_ppp_recv_char` inside a frame. -/
def decodeChar (cc : Byte) (s : RcvState) : RcvState :=
  if s.lastin = CTL_ESC then storeChar (cc ^^^ 0x20) { s with lastin := 0 }
  else if cc = CTL_ESC then { s with lastin := cc }
  else if cc = FLAG then endFrame { s with lastin := cc }
  else storeChar cc { s with lastin := cc }

/-- `_ppp_recv_char`. -/
def pppRecvChar (cc : Byte) (s : RcvState) : RcvState :=
  match s.bufin with
  | none =>
    if cc ≠ FLAG ∧ s.lastin ≠ FLAG then s
    else if cc = FLAG then storeChar cc (startFrame s)
    else decodeChar cc (storeChar FLAG (startFrame s))
  | some _ => decodeChar cc s

/-- `ppp_get_rcv` takes the first frame that waits. -/
def takeRcv (s : RcvState) : RcvState :=
  match s.reading, pppFindBufUsed s.bufs with
  | none, some j =>
    { s with
      bufs := s.bufs.mark j .doing
      reading := some j
      gone := s.gone ++ [((s.bufs j).frame, true)] }
  | _, _ => s

/-- `ppp_get_rcv` has copied the frame, or there was no packet for it. -/
def doneRcv (memory : Bool) (s : RcvState) : RcvState :=
  match s.reading with
  | some j =>
    { s with
      bufs := s.bufs.mark j .free
      reading := none
      read := s.read ++ [((s.bufs j).frame, memory)] }
  | none => s

/-- A character arrives, or the stack goes on in `ppp_get_rcv`. -/
inductive RcvEvent where
  | char (cc : Byte)
  | take
  | done (memory : Bool)

/-- One event of the receive side. -/
def rcvStep (s : RcvState) : RcvEvent → RcvState
  | .char cc => pppRecvChar cc s
  | .take => takeRcv s
  | .done memory => doneRcv memory s

/-- The receive side after `ppp_reset_buf`. -/
def startRcv (data : Nat → Nat → Byte) : RcvState where
  bufs := fun i => ⟨.free, 0, 0, data i⟩
  rcvBuf := none
  bufin := none
  lastin := 0
  reading := none
  queued := []
  gone := []
  read := []

/-- What `ppp_get_rcv` is copying. -/
def PppBufs.copying (bufs : PppBufs) (reading : Option Nat) : List (List Byte) :=
  (reading.map fun j => (bufs j).frame).toList

/-- **The receive queue is first in, first out**: the frames put into it are those that left it
and those that wait, in order; and those that left it for the stack were copied as they
were, but for the one being copied. -/
def RcvFifo (s : RcvState) : Prop :=
  s.queued = s.gone.map Prod.fst ++ s.bufs.waiting ∧
    (s.gone.filter Prod.snd).map Prod.fst = s.read.map Prod.fst ++ s.bufs.copying s.reading

/-- A frame that ends is put behind all that wait. -/
def RcvOrderly (s : RcvState) : RcvEvent → Prop
  | .char cc => ∀ j ∈ s.rcvBuf, ∀ n ∈ s.bufin, s.lastin ≠ CTL_ESC → cc = FLAG → 4 < n + 1 →
      ∀ i, i < PPP_QLEN → j < i → (s.bufs i).status ≠ .used
  | .take => True
  | .done _ => True

instance (s : RcvState) (event : RcvEvent) : Decidable (RcvOrderly s event) :=
  match event with
  | .char _ => inferInstanceAs (Decidable (∀ j ∈ s.rcvBuf, ∀ n ∈ s.bufin, _ → _ → _ → _))
  | .take => inferInstanceAs (Decidable True)
  | .done _ => inferInstanceAs (Decidable True)

/-- The buffers of the receive queue, but for the one that is being filled. -/
structure RcvBufs (bufs : PppBufs) (reading : Option Nat) : Prop where
  copied : ∀ j, reading = some j → (bufs j).status = .doing
  doing : ∀ i, i < PPP_QLEN → (bufs i).status = .doing → reading = some i
  bounded : ∀ i, (bufs i).timestamp ≤ newTimestamp
  older : ∀ i j, i < j → j < PPP_QLEN → (bufs i).status = .used → (bufs j).status = .used →
    (bufs i).timestamp ≤ (bufs j).timestamp

/-- The receive queue in order. -/
structure RcvInOrder (s : RcvState) : Prop where
  fifo : RcvFifo s
  bufs : RcvBufs s.bufs s.reading
  filling : ∀ j, s.rcvBuf = some j →
    j < PPP_QLEN ∧ (s.bufs j).status = .free ∧ (s.bufs j).timestamp = newTimestamp
  bufin : s.bufin = none → s.rcvBuf = none

/-- Of buffers none of which is free, the oldest is the first that waits, where later ones are
younger. -/
theorem oldestBuf_eq {bufs : PppBufs}
    (older : ∀ i j, i < j → j < PPP_QLEN → (bufs i).status = .used → (bufs j).status = .used →
      (bufs i).timestamp ≤ (bufs j).timestamp)
    (busy : ∀ i, i < PPP_QLEN → (bufs i).status ≠ .free ∧ (bufs i).timestamp < newTimestamp)
    {count : Nat} (inside : count ≤ PPP_QLEN) :
    oldestBuf bufs count = match firstSlot bufs.waits count with
      | some j => (some j, (bufs j).timestamp)
      | none => (none, newTimestamp) := by
  induction count with
  | zero => rfl
  | succ count past =>
    have step : oldestBuf bufs (count + 1) = olderBuf bufs (oldestBuf bufs count) count := by
      rw [oldestBuf, List.range_succ, List.foldl_append]
      rfl
    obtain ⟨held, young⟩ := busy count (by omega)
    rw [step, past (by omega), firstSlot_succ]
    cases first : firstSlot bufs.waits count with
    | some j =>
      obtain ⟨below, waits, -⟩ := firstSlot_eq_some first
      refine if_neg ?_
      rintro ⟨earlier, idle⟩
      have used : (bufs count).status = .used := by
        cases status : (bufs count).status <;> simp_all
      have ordered := older j count below (by omega) ((bufs.waits_iff j).mp waits) used
      simp only at earlier
      omega
    | none =>
      cases status : (bufs count).status with
      | free => exact absurd status held
      | used => simp [olderBuf, PppBufs.waits, status, young]
      | doing => simp [olderBuf, PppBufs.waits, status]

theorem PppBufs.copying_set (bufs : PppBufs) {reading : Option Nat} {j : Nat} (b : PppBuf)
    (apart : reading ≠ some j) : (bufs.set j b).copying reading = bufs.copying reading := by
  cases reading with
  | none => rfl
  | some i =>
    have other : i ≠ j := fun same => apart (congrArg some same)
    simp [copying, bufs.set_other b other]

theorem RcvBufs.apart {bufs : PppBufs} {reading : Option Nat} (held : RcvBufs bufs reading) {j : Nat}
    (idle : (bufs j).status ≠ .doing) : reading ≠ some j :=
  fun same => idle (held.copied j same)

/-- A buffer that is not copied may change; where it waits then, it is the youngest and behind
all that wait. -/
theorem RcvBufs.set {bufs : PppBufs} {reading : Option Nat} (held : RcvBufs bufs reading) {j : Nat}
    {b : PppBuf} (apart : reading ≠ some j) (idle : b.status ≠ .doing)
    (bounded : b.timestamp ≤ newTimestamp)
    (last : b.status = .used → b.timestamp = newTimestamp ∧
      ∀ i, i < PPP_QLEN → j < i → (bufs i).status ≠ .used) : RcvBufs (bufs.set j b) reading := by
  obtain ⟨copied, doing, bound, older⟩ := held
  refine ⟨?_, ?_, ?_, ?_⟩
  · intro i at_
    have other : i ≠ j := by
      rintro rfl
      exact apart at_
    rw [bufs.set_other b other]
    exact copied i at_
  · intro i inside status
    by_cases same : i = j
    · subst same
      rw [PppBufs.set_same] at status
      exact absurd status idle
    · rw [bufs.set_other b same] at status
      exact doing i inside status
  · intro i
    by_cases same : i = j
    · subst same
      rwa [PppBufs.set_same]
    · rw [bufs.set_other b same]
      exact bound i
  · intro i k below inside first second
    by_cases same : k = j
    · subst same
      rw [PppBufs.set_same] at second ⊢
      rw [bufs.set_other b (Nat.ne_of_lt below), (last second).1]
      exact bound i
    · rw [bufs.set_other b same] at second ⊢
      by_cases same' : i = j
      · subst same'
        rw [PppBufs.set_same] at first
        exact absurd second ((last first).2 k inside below)
      · rw [bufs.set_other b same'] at first ⊢
        exact older i k below inside first second

theorem RcvInOrder.setFree {s : RcvState} (inOrder : RcvInOrder s) {j : Nat} {b : PppBuf}
    (before : (s.bufs j).status = .free) (after : b.status = .free)
    (bounded : b.timestamp ≤ newTimestamp) :
    RcvFifo { s with bufs := s.bufs.set j b } ∧ RcvBufs (s.bufs.set j b) s.reading := by
  have apart := inOrder.bufs.apart (j := j) (by simp [before])
  obtain ⟨queued, read⟩ := inOrder.fifo
  refine ⟨⟨?_, ?_⟩, inOrder.bufs.set apart (by simp [after]) bounded (by simp [after])⟩
  · have same : (s.bufs.set j b).waiting = s.bufs.waiting :=
      PppBufs.waiting_set (by simp [before]) (by simp [after])
    simp only [same, queued]
  · simp only [s.bufs.copying_set b apart, read]

@[simp] theorem PppBufs.aged_status (bufs : PppBufs) (i : Nat) :
    (bufs.aged i).status = (bufs i).status := by
  by_cases inside : i < PPP_QLEN <;> by_cases free : (bufs i).status = .free <;>
    simp [aged, ageBuf, inside, free]

@[simp] theorem PppBufs.aged_frame (bufs : PppBufs) (i : Nat) :
    (bufs.aged i).frame = (bufs i).frame := by
  by_cases inside : i < PPP_QLEN <;> by_cases free : (bufs i).status = .free <;>
    simp [aged, ageBuf, inside, free, PppBuf.frame]

theorem PppBufs.aged_timestamp (bufs : PppBufs) {i : Nat} (inside : i < PPP_QLEN)
    (held : (bufs i).status ≠ .free) : (bufs.aged i).timestamp = (bufs i).timestamp - 1 := by
  simp [aged, ageBuf, inside, held]

theorem RcvInOrder.aged {s : RcvState} (inOrder : RcvInOrder s) :
    RcvFifo { s with bufs := s.bufs.aged } ∧ RcvBufs s.bufs.aged s.reading := by
  obtain ⟨queued, read⟩ := inOrder.fifo
  obtain ⟨copied, doing, bound, older⟩ := inOrder.bufs
  refine ⟨⟨?_, ?_⟩, ?_, ?_, ?_, ?_⟩
  · have same : s.bufs.aged.waiting = s.bufs.waiting :=
      PppBufs.waiting_congr fun i _ => by simp [PppBufs.waits]
    simp only [same, queued]
  · simpa only [PppBufs.copying, PppBufs.aged_frame] using read
  · simpa only [PppBufs.aged_status] using copied
  · simpa only [PppBufs.aged_status] using doing
  · intro i
    have before := bound i
    by_cases inside : i < PPP_QLEN
    · by_cases held : (s.bufs i).status = .free
      · simpa [PppBufs.aged, inside, ageBuf, held] using before
      · rw [s.bufs.aged_timestamp inside held]
        omega
    · simpa [PppBufs.aged, inside] using before
  · intro i j below inside first second
    rw [PppBufs.aged_status] at first second
    have before := older i j below inside first second
    rw [s.bufs.aged_timestamp (by omega) (by simp [first]),
      s.bufs.aged_timestamp inside (by simp [second])]
    omega

/-- A buffer is worked on for one frame at a time, so one of several that are not free
waits. -/
theorem RcvBufs.someWaits {bufs : PppBufs} {reading : Option Nat} (held : RcvBufs bufs reading)
    (busy : ∀ i, i < PPP_QLEN → (bufs i).status ≠ .free) : ∃ j, pppFindBufUsed bufs = some j := by
  cases found : pppFindBufUsed bufs with
  | some j => exact ⟨j, rfl⟩
  | none =>
    have doing (i : Nat) (inside : i < PPP_QLEN) : (bufs i).status = .doing := by
      have waits := (bufs.waits_eq_false i).mp (firstSlot_eq_none found inside)
      have held := busy i inside
      cases status : (bufs i).status <;> simp_all
    have first := held.doing 0 (by decide) (doing 0 (by decide))
    have second := held.doing 1 (by decide) (doing 1 (by decide))
    rw [first] at second
    exact absurd (Option.some.inj second) (by decide)

/-- **A new frame takes a free buffer or that of the first frame that waits.** -/
theorem startFrame_inOrder {s : RcvState} (inOrder : RcvInOrder s) (idle : s.rcvBuf = none) :
    RcvInOrder (startFrame s) := by
  have aged : RcvInOrder { s with bufs := s.bufs.aged } :=
    ⟨inOrder.aged.1, inOrder.aged.2, fun j at_ => by simp [idle] at at_, inOrder.bufin⟩
  unfold startFrame pppGetBuf
  cases found : firstSlot (fun i => (s.bufs i).status = .free) PPP_QLEN with
  | some j =>
    obtain ⟨inside, free, -⟩ := firstSlot_eq_some found
    have free : (s.bufs j).status = .free := by simpa using free
    obtain ⟨fifo, bufs⟩ := aged.setFree (j := j)
      (b := { s.bufs.aged j with status := .free, timestamp := newTimestamp, len := 0 })
      (by simpa using free) rfl le_rfl
    refine ⟨?_, bufs, ?_, fun none => by simp at none⟩
    · simp only [free, if_true]
      exact ⟨fifo.1, fifo.2⟩
    · intro i at_
      obtain rfl := Option.some.inj at_
      exact ⟨inside, by simp [PppBufs.renew], by simp [PppBufs.renew]⟩
  | none =>
    have busy (i : Nat) (inside : i < PPP_QLEN) : (s.bufs.aged i).status ≠ .free := by
      have held := firstSlot_eq_none found inside
      simpa using held
    have young (i : Nat) (inside : i < PPP_QLEN) : (s.bufs.aged i).timestamp < newTimestamp := by
      have held : (s.bufs i).status ≠ .free := by simpa using busy i inside
      have bound := inOrder.bufs.bounded i
      rw [s.bufs.aged_timestamp inside held]
      have some : 0 < newTimestamp := by decide
      omega
    have older : ∀ i j, i < j → j < PPP_QLEN → (s.bufs.aged i).status = .used →
        (s.bufs.aged j).status = .used → (s.bufs.aged i).timestamp ≤ (s.bufs.aged j).timestamp :=
      aged.bufs.older
    obtain ⟨j, first⟩ : ∃ j, pppFindBufUsed s.bufs.aged = some j := aged.bufs.someWaits busy
    have oldest := oldestBuf_eq older (fun i inside => ⟨busy i inside, young i inside⟩) le_rfl
    have waits : firstSlot s.bufs.aged.waits PPP_QLEN = some j := first
    rw [waits] at oldest
    obtain ⟨inside, used, -⟩ := firstSlot_eq_some first
    have used := (PppBufs.waits_iff _ j).mp used
    have chosen : (oldestBuf s.bufs.aged PPP_QLEN).1.getD 0 = j := by rw [oldest]; rfl
    have held : (s.bufs j).status ≠ .free := by
      rw [← PppBufs.aged_status, used]
      simp
    have waitsFor : (s.bufs.aged j).status ≠ .doing := by
      rw [used]
      simp
    have apart := aged.bufs.apart waitsFor
    simp only [chosen, held, if_false]
    refine ⟨⟨?_, ?_⟩, aged.bufs.set apart (by simp) le_rfl (by simp), ?_, fun none => by simp at none⟩
    · have taken : s.bufs.aged.waiting = (s.bufs.aged j).frame :: (s.bufs.aged.renew j).waiting :=
        PppBufs.waiting_take first (by simp)
      have queued := aged.fifo.1
      simp only [taken, PppBufs.aged_frame] at queued
      simp only [queued, List.map_append, List.append_assoc, List.map_cons, List.map_nil,
        List.singleton_append]
    · have read := aged.fifo.2
      simp only [PppBufs.renew, s.bufs.aged.copying_set _ apart, ← read]
      simp
    · intro i at_
      obtain rfl := Option.some.inj at_
      exact ⟨inside, by simp [PppBufs.renew], by simp [PppBufs.renew]⟩

theorem storeChar_inOrder {s : RcvState} (inOrder : RcvInOrder s) (c : Byte) :
    RcvInOrder (storeChar c s) := by
  unfold storeChar
  split
  · next j n at_ filled =>
    split
    · obtain ⟨inside, free, new⟩ := inOrder.filling j at_
      obtain ⟨fifo, bufs⟩ := inOrder.setFree (j := j)
        (b := { s.bufs j with data := fun k => if k = n then c else (s.bufs j).data k })
        free free (by simp [new])
      refine ⟨⟨fifo.1, fifo.2⟩, bufs, ?_, fun none => by simp at none⟩
      intro i same
      obtain rfl : j = i := Option.some.inj (at_.symm.trans same)
      exact ⟨inside, by simpa using free, by simpa using new⟩
    · exact inOrder
  · exact inOrder

/-- **A frame that ends behind all that wait** is the last of the queue. -/
theorem endFrame_inOrder {s : RcvState} (inOrder : RcvInOrder s)
    (last : ∀ j n, s.rcvBuf = some j → s.bufin = some n → 4 < n + 1 →
      ∀ i, i < PPP_QLEN → j < i → (s.bufs i).status ≠ .used) : RcvInOrder (endFrame s) := by
  unfold endFrame
  split
  · next j n at_ filled =>
    obtain ⟨inside, free, new⟩ := inOrder.filling j at_
    simp only
    split
    · obtain ⟨fifo, bufs⟩ := inOrder.setFree (j := j)
        (b := { s.bufs j with
          data := fun k => if k = n then FLAG else (s.bufs j).data k, len := n + 1 })
        free free (by simp [new])
      exact ⟨⟨fifo.1, fifo.2⟩, bufs, fun i none => by simp at none, fun _ => rfl⟩
    · next long =>
      have behind := last j n at_ filled (by omega)
      obtain ⟨queued, read⟩ := inOrder.fifo
      have apart := inOrder.bufs.apart (j := j) (by simp [free])
      refine ⟨⟨?_, ?_⟩, inOrder.bufs.set apart (by simp) (by simp [new]) fun _ => ⟨new, behind⟩,
        fun i none => by simp at none, fun _ => rfl⟩
      · rw [PppBufs.waiting_push inside (by simp [free]) (fun i above below => behind i below above)
          rfl, ← List.append_assoc, ← queued]
        rfl
      · simp only [s.bufs.copying_set _ apart, read]
  · exact inOrder

theorem RcvInOrder.note {s : RcvState} (inOrder : RcvInOrder s) (lastin : Byte) :
    RcvInOrder { s with lastin } :=
  ⟨inOrder.fifo, inOrder.bufs, inOrder.filling, inOrder.bufin⟩

theorem decodeChar_inOrder {s : RcvState} (inOrder : RcvInOrder s) {cc : Byte}
    (orderly : RcvOrderly s (.char cc)) : RcvInOrder (decodeChar cc s) := by
  unfold decodeChar
  split
  · exact storeChar_inOrder (inOrder.note 0) _
  · next plain =>
    split
    · exact inOrder.note cc
    · split
      · next flag =>
        exact endFrame_inOrder (inOrder.note cc) fun j n at_ filled long =>
          orderly j at_ n filled plain flag long
      · exact storeChar_inOrder (inOrder.note cc) cc

/-- **A character from the line** keeps the receive queue in order where a frame ends behind
all that wait. -/
theorem pppRecvChar_inOrder {s : RcvState} (inOrder : RcvInOrder s) {cc : Byte}
    (orderly : RcvOrderly s (.char cc)) : RcvInOrder (pppRecvChar cc s) := by
  unfold pppRecvChar
  split
  · next idle =>
    have started := startFrame_inOrder inOrder (inOrder.bufin idle)
    split
    · exact inOrder
    · split
      · exact storeChar_inOrder started cc
      · next data =>
        -- the frame has just begun, so this character does not end it
        exact decodeChar_inOrder (storeChar_inOrder started FLAG)
          fun _ _ _ _ _ flag => absurd flag data
  · exact decodeChar_inOrder inOrder orderly

theorem RcvBufs.mark_ages {bufs : PppBufs} {reading : Option Nat} (held : RcvBufs bufs reading)
    (j : Nat) {status : BufStatus} (idle : status ≠ .used) :
    (∀ i, (bufs.mark j status i).timestamp ≤ newTimestamp) ∧
      ∀ i k, i < k → k < PPP_QLEN → (bufs.mark j status i).status = .used →
        (bufs.mark j status k).status = .used →
        (bufs.mark j status i).timestamp ≤ (bufs.mark j status k).timestamp := by
  have other {i : Nat} (used : (bufs.mark j status i).status = .used) :
      bufs.mark j status i = bufs i := by
    refine bufs.set_other _ ?_
    rintro rfl
    simp [PppBufs.mark, idle] at used
  constructor
  · intro i
    by_cases same : i = j
    · subst same
      simpa [PppBufs.mark] using held.bounded i
    · rw [PppBufs.mark, bufs.set_other _ same]
      exact held.bounded i
  · intro i k below inside first second
    have one := other first
    have two := other second
    rw [one] at first ⊢
    rw [two] at second ⊢
    exact held.older i k below inside first second

theorem RcvInOrder.filling_mark {s : RcvState} (inOrder : RcvInOrder s) {j : Nat}
    (held : (s.bufs j).status ≠ .free) (status : BufStatus) (i : Nat) (at_ : s.rcvBuf = some i) :
    i < PPP_QLEN ∧ (s.bufs.mark j status i).status = .free ∧
      (s.bufs.mark j status i).timestamp = newTimestamp := by
  obtain ⟨inside, free, new⟩ := inOrder.filling i at_
  have other : i ≠ j := by
    rintro rfl
    exact held free
  rw [PppBufs.mark, s.bufs.set_other _ other]
  exact ⟨inside, free, new⟩

theorem takeRcv_inOrder {s : RcvState} (inOrder : RcvInOrder s) : RcvInOrder (takeRcv s) := by
  unfold takeRcv
  split
  · next j idle first =>
    obtain ⟨inside, waits, -⟩ := firstSlot_eq_some first
    have used := (s.bufs.waits_iff j).mp waits
    obtain ⟨queued, read⟩ := inOrder.fifo
    have ages := @RcvBufs.mark_ages _ _ inOrder.bufs j .doing (by simp)
    have doing (i : Nat) (within : i < PPP_QLEN)
        (marked : (s.bufs.mark j .doing i).status = .doing) : some j = some i := by
      by_cases same : i = j
      · exact congrArg some same.symm
      · rw [PppBufs.mark, s.bufs.set_other _ same] at marked
        have reading := inOrder.bufs.doing i within marked
        rw [idle] at reading
        simp at reading
    refine ⟨⟨?_, ?_⟩, ⟨?_, doing, ages.1, ages.2⟩,
      inOrder.filling_mark (by simp [used]) .doing, inOrder.bufin⟩
    · have taken : s.bufs.waiting = (s.bufs j).frame :: (s.bufs.mark j .doing).waiting :=
        PppBufs.waiting_take first (by simp)
      simp only [queued, taken, List.map_append, List.append_assoc, List.map_cons, List.map_nil,
        List.singleton_append]
    · rw [idle] at read
      have frame : (s.bufs.mark j .doing).copying (some j) = [(s.bufs j).frame] := by
        simp [PppBufs.copying, PppBufs.mark, PppBuf.frame]
      simp only [frame]
      simpa [PppBufs.copying] using read
    · intro i at_
      obtain rfl := Option.some.inj at_
      simp [PppBufs.mark]
  · exact inOrder

theorem doneRcv_inOrder {s : RcvState} (inOrder : RcvInOrder s) (memory : Bool) :
    RcvInOrder (doneRcv memory s) := by
  unfold doneRcv
  split
  · next j at_ =>
    obtain ⟨queued, read⟩ := inOrder.fifo
    have held := inOrder.bufs.copied j at_
    have ages := @RcvBufs.mark_ages _ _ inOrder.bufs j .free (by simp)
    have doing (i : Nat) (within : i < PPP_QLEN)
        (marked : (s.bufs.mark j .free i).status = .doing) : none = some i := by
      by_cases same : i = j
      · subst same
        simp [PppBufs.mark] at marked
      · rw [PppBufs.mark, s.bufs.set_other _ same] at marked
        have reading := inOrder.bufs.doing i within marked
        rw [at_] at reading
        exact absurd (Option.some.inj reading).symm same
    refine ⟨⟨?_, ?_⟩, ⟨fun i none => by simp at none, doing, ages.1, ages.2⟩,
      inOrder.filling_mark (by simp [held]) .free, inOrder.bufin⟩
    · have same : (s.bufs.mark j .free).waiting = s.bufs.waiting :=
        PppBufs.waiting_set (by simp [held]) (by simp)
      simp only [same, queued]
    · rw [at_] at read
      simpa [PppBufs.copying] using read
  · exact inOrder

/-- **One event keeps the receive queue in order** where frames end behind all that wait. -/
theorem rcvStep_inOrder {s : RcvState} (inOrder : RcvInOrder s) {event : RcvEvent}
    (orderly : RcvOrderly s event) : RcvInOrder (rcvStep s event) := by
  cases event with
  | char cc => exact pppRecvChar_inOrder inOrder orderly
  | take => exact takeRcv_inOrder inOrder
  | done memory => exact doneRcv_inOrder inOrder memory

end PosFirmware.Ppp
