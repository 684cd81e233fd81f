import PosFirmware.Foundation.Run
import PosFirmware.Ppp.Buffers

/-!
# Sending over the PPP line

`ppp_put_snd` copies a frame into a free buffer and marks it; the transmit interrupt calls
`_ppp_xmit_char` for one character after the other. The scan for a free buffer runs with the
interrupt enabled. `SndFifo` says that frames leave the queue as they came;
`sndStep_inOrder` keeps it where a frame is put behind all that wait.
-/

namespace PosFirmware.Ppp

open PosFirmware.Foundation

/-- `FLAG`, around a frame. -/
def FLAG : Byte := 0x7E

/-- `CTL_ESC`, before an escaped character. -/
def CTL_ESC : Byte := 0x7D

/-- What `_ppp_xmit_char` reads of the state of the link. -/
structure XmitMode where
  /-- `(state & LCPopen) == LCPopen`. -/
  lcpOpen : Bool
  /-- `ACCM`, the control characters to be escaped. -/
  ACCM : BitVec 32
  /-- `auth_state == 1`. -/
  authenticated : Bool

/-- The bits of `snd_flags`. -/
structure SndFlags where
  /-- `PPP_SND_ESC`. -/
  esc : Bool
  /-- `PPP_SND_CHECK1`. -/
  check1 : Bool
  /-- `PPP_SND_CHECK2`. -/
  check2 : Bool
  /-- `PPP_SND_END`. -/
  fin : Bool
  deriving DecidableEq

/-- `snd_flags = 0`. -/
def SndFlags.none : SndFlags := ⟨false, false, false, false⟩

/-- Where `ppp_put_snd` is. -/
inductive PutPhase where
  /-- Not called. -/
  | idle
  /-- In the first loop of `ppp_get_buf`, with its index and `select`. -/
  | scan (frame : List Byte) (i : Nat) (select : Option Nat)
  /-- A buffer is chosen. -/
  | fill (frame : List Byte) (index : Nat)
  /-- The frame is copied. -/
  | publish (frame : List Byte) (index : Nat)

/-- The send side of a PPP device. -/
structure SndState where
  /-- `snd_bufs`. -/
  bufs : PppBufs
  /-- `snd_buf`. -/
  sndBuf : Option Nat
  /-- `bufout`, counted from the start of the buffer. -/
  bufout : Nat
  /-- `chsout`. -/
  chsout : Nat
  /-- `snd_flags`. -/
  flags : SndFlags
  /-- `nxtout`. -/
  nxtout : Byte
  /-- Where `ppp_put_snd` is. -/
  phase : PutPhase
  /-- The frames put into the queue. -/
  queued : List (List Byte)
  /-- The frames the interrupt took from it. -/
  left : List (List Byte)

/-- `base[i].status == PPP_BUF_FREE` with no earlier one selected, and the ageing of the others. -/
def scanBuf (frame : List Byte) (i : Nat) (select : Option Nat) (s : SndState) : SndState :=
  { s with
    bufs := s.bufs.set i (ageBuf (s.bufs i))
    phase := .scan frame (i + 1)
      (if (s.bufs i).status = .free then (if select = none then some i else select) else select) }

/-- A step of `ppp_put_snd`. -/
def putStep (s : SndState) : SndState :=
  match s.phase with
  | .idle => s
  | .scan frame i select =>
    if i < PPP_QLEN then scanBuf frame i select s
    else
      match select with
      | none => { s with phase := .idle }
      | some j => { s with bufs := s.bufs.renew j, phase := .fill frame j }
  | .fill frame j =>
    { s with
      bufs := s.bufs.set j { s.bufs j with data := fun k => frame.getD k ((s.bufs j).data k) }
      phase := .publish frame j }
  | .publish frame j =>
    { s with
      bufs := s.bufs.set j { s.bufs j with status := .used, len := frame.length }
      phase := .idle
      queued := s.queued ++ [frame] }

/-- `ppp_put_snd` is called; a payload that is empty or too long is refused. -/
def putStart (data : List Byte) (proto : BitVec 16) (s : SndState) : SndState :=
  match s.phase with
  | .idle =>
    if data.length = 0 ∨ PPP_MSS < data.length then s
    else { s with phase := .scan (sendFrame data proto) 0 none }
  | _ => s

/-- The character has to be escaped. -/
def escapes (mode : XmitMode) (cc : Byte) : Bool :=
  (cc < 0x20 ∧ (¬ mode.lcpOpen ∨ mode.ACCM.getLsbD cc.toNat ∨ ¬ mode.authenticated)) ∨
    cc = FLAG ∨ cc = CTL_ESC

/-- The end of `_ppp_xmit_char` for a character of the frame. -/
def emitChar (mode : XmitMode) (cc : Byte) (s : SndState) : Option Byte × SndState :=
  if escapes mode cc then
    (some CTL_ESC, { s with nxtout := cc ^^^ 0x20, flags := { s.flags with esc := true } })
  else (some cc, s)

/-- The buffer `snd_buf` points to. -/
def SndState.current (s : SndState) : PppBuf := s.bufs (s.sndBuf.getD 0)

/-- The buffers when the one that was sent is free. -/
def SndState.sentBufs (s : SndState) : PppBufs :=
  match s.sndBuf with
  | some j => s.bufs.mark j .free
  | none => s.bufs

/-- `_ppp_xmit_char` at the end of a frame: the buffer is free and the next one is taken. -/
def nextFrame (s : SndState) : Option Byte × SndState :=
  let bufs := s.sentBufs
  match pppFindBufUsed bufs with
  | none => (none, { s with bufs, sndBuf := none, flags := SndFlags.none })
  | some j =>
    (some FLAG, { s with
      bufs := bufs.mark j .doing
      sndBuf := some j
      flags := SndFlags.none
      bufout := 2
      chsout := (bufs j).len - 2
      left := s.left ++ [(bufs j).frame] })

/-- `_ppp_xmit_char`: the character to send, if there is one. -/
def pppXmitChar (mode : XmitMode) (s : SndState) : Option Byte × SndState :=
  if s.flags ≠ SndFlags.none then
    if s.flags.esc then (some s.nxtout, { s with flags := { s.flags with esc := false } })
    else if s.flags.fin then (some FLAG, { s with flags := SndFlags.none })
    else if s.flags.check1 then
      emitChar mode (s.current.data 0) { s with flags := { SndFlags.none with check2 := true } }
    else emitChar mode (s.current.data 1) { s with flags := { SndFlags.none with fin := true } }
  else if s.chsout = 0 then nextFrame s
  else
    let flags := if s.chsout - 1 = 0 then { SndFlags.none with check1 := true } else s.flags
    emitChar mode (s.current.data s.bufout)
      { s with chsout := s.chsout - 1, flags, bufout := s.bufout + 1 }

/-- The stack puts a frame, goes on with it, or the interrupt takes a character. -/
inductive SndEvent where
  | put (data : List Byte) (proto : BitVec 16)
  | go
  | xmit (mode : XmitMode)

/-- One event of the send side. -/
def sndStep (s : SndState) : SndEvent → SndState
  | .put data proto => putStart data proto s
  | .go => putStep s
  | .xmit mode => (pppXmitChar mode s).2

/-- The send side after `ppp_reset_buf`. -/
def startSnd (bufs : PppBufs) : SndState where
  bufs := fun i => { bufs i with status := .free }
  sndBuf := none
  bufout := 0
  chsout := 0
  flags := SndFlags.none
  nxtout := 0
  phase := .idle
  queued := []
  left := []

/-- **The send queue is first in, first out**: the frames put into it are those that left it
and those that wait, in order, and the interrupt sends from a buffer with the frame that
left last. -/
def SndFifo (s : SndState) : Prop :=
  s.queued = s.left ++ s.bufs.waiting ∧
    ∀ j, s.sndBuf = some j → s.left.getLast? = some (s.bufs j).frame

/-- A frame is put behind all that wait. -/
def SndOrderly (s : SndState) : SndEvent → Prop
  | .go =>
    match s.phase with
    | .publish _ j => ∀ i, i < PPP_QLEN → j < i → (s.bufs i).status ≠ .used
    | .idle | .scan _ _ _ | .fill _ _ => True
  | .put _ _ => True
  | .xmit _ => True

instance (s : SndState) (event : SndEvent) : Decidable (SndOrderly s event) :=
  match event with
  | .go => by
    unfold SndOrderly
    cases s.phase <;> infer_instance
  | .put _ _ => inferInstanceAs (Decidable True)
  | .xmit _ => inferInstanceAs (Decidable True)

/-- A frame that `ppp_put_snd` lays out. -/
def SendFrame (frame : List Byte) : Prop :=
  ∃ data proto, data ≠ [] ∧ data.length ≤ PPP_MSS ∧ frame = sendFrame data proto

/-- What the phase of `ppp_put_snd` says about the buffers. -/
def PutFits (bufs : PppBufs) : PutPhase → Prop
  | .idle => True
  | .scan frame _ select =>
    SendFrame frame ∧ ∀ j, select = some j → j < PPP_QLEN ∧ (bufs j).status = .free
  | .fill frame j => SendFrame frame ∧ j < PPP_QLEN ∧ (bufs j).status = .free
  | .publish frame j => SendFrame frame ∧ j < PPP_QLEN ∧ (bufs j).status = .free ∧
      (List.range frame.length).map (bufs j).data = frame

/-- The buffers that are not free hold frames, and the interrupt sends from one it alone
holds. -/
structure SndHeld (s : SndState) : Prop where
  sending : ∀ j, s.sndBuf = some j →
    (s.bufs j).status = .doing ∧ s.left.getLast? = some (s.bufs j).frame
  phase : PutFits s.bufs s.phase
  frames : ∀ i, (s.bufs i).status ≠ .free → SendFrame (s.bufs i).frame

/-- The send queue in order. -/
structure SndInOrder (s : SndState) : Prop where
  queued : s.queued = s.left ++ s.bufs.waiting
  held : SndHeld s

theorem SndInOrder.fifo {s : SndState} (inOrder : SndInOrder s) : SndFifo s :=
  ⟨inOrder.queued, fun j at_ => (inOrder.held.sending j at_).2⟩

theorem SndHeld.set {s : SndState} (held : SndHeld s) {j : Nat} {b : PppBuf}
    (before : (s.bufs j).status = .free) {phase : PutPhase}
    (fits : PutFits (s.bufs.set j b) phase) (frame : b.status ≠ .free → SendFrame b.frame)
    (queued : List (List Byte)) :
    SndHeld { s with bufs := s.bufs.set j b, phase, queued } := by
  refine ⟨?_, fits, ?_⟩
  · intro i at_
    have sending := held.sending i at_
    have other : i ≠ j := by
      rintro rfl
      simp [before] at sending
    simpa only [s.bufs.set_other b other] using sending
  · intro i status
    by_cases same : i = j
    · subst same
      simp only [PppBufs.set_same] at status ⊢
      exact frame status
    · simp only [s.bufs.set_other b same] at status ⊢
      exact held.frames i status

theorem map_range_getD (frame : List Byte) (old : Nat → Byte) :
    (List.range frame.length).map (fun k => frame.getD k (old k)) = frame := by
  refine List.ext_getElem (by simp) fun k inside _ => ?_
  have small : k < frame.length := by simpa using inside
  simp [small]

theorem ageBuf_same (b : PppBuf) : (ageBuf b).status = b.status ∧ (ageBuf b).frame = b.frame ∧
    (ageBuf b).data = b.data := by
  unfold ageBuf
  split <;> exact ⟨rfl, rfl, rfl⟩

theorem scanBuf_held {s : SndState} (held : SndHeld s) {frame : List Byte} {i : Nat}
    {select : Option Nat} (phase : s.phase = .scan frame i select) (inside : i < PPP_QLEN) :
    SndHeld (scanBuf frame i select s) := by
  have fits := held.phase
  simp only [phase, PutFits] at fits
  have same (k : Nat) : (s.bufs.set i (ageBuf (s.bufs i)) k).status = (s.bufs k).status ∧
      (s.bufs.set i (ageBuf (s.bufs i)) k).frame = (s.bufs k).frame := by
    by_cases at_ : k = i
    · subst at_
      rw [PppBufs.set_same]
      exact ⟨(ageBuf_same _).1, (ageBuf_same _).2.1⟩
    · rw [s.bufs.set_other _ at_]
      exact ⟨rfl, rfl⟩
  refine ⟨?_, ⟨fits.1, ?_⟩, ?_⟩
  · intro j at_
    simp only [scanBuf, (same j).1, (same j).2]
    exact held.sending j at_
  · intro j chosen
    simp only [scanBuf, (same j).1]
    split at chosen
    · next free =>
      split at chosen
      · obtain rfl := Option.some.inj chosen
        exact ⟨inside, free⟩
      · exact fits.2 j chosen
    · exact fits.2 j chosen
  · intro k status
    simp only [scanBuf, (same k).1, (same k).2] at status ⊢
    exact held.frames k status

theorem putStep_held {s : SndState} (held : SndHeld s) : SndHeld (putStep s) := by
  have fits := held.phase
  unfold putStep
  cases phase : s.phase with
  | idle => exact held
  | scan frame i select =>
    simp only
    split
    · next inside => exact scanBuf_held held phase inside
    · simp only [phase, PutFits] at fits
      split
      · exact ⟨held.sending, trivial, held.frames⟩
      · next j =>
        obtain ⟨inside, free⟩ := fits.2 j rfl
        have after : PutFits (s.bufs.renew j) (.fill frame j) :=
          ⟨fits.1, inside, by simp [PppBufs.renew]⟩
        exact held.set free after (by simp) s.queued
  | fill frame j =>
    simp only [phase, PutFits] at fits
    obtain ⟨offered, inside, free⟩ := fits
    have copied : PutFits (s.bufs.set j
        { s.bufs j with data := fun k => frame.getD k ((s.bufs j).data k) })
        (.publish frame j) := by
      refine ⟨offered, inside, by simpa using free, ?_⟩
      rw [PppBufs.set_same]
      exact map_range_getD frame _
    exact SndHeld.set held free
      (b := { s.bufs j with data := fun k => frame.getD k ((s.bufs j).data k) }) copied
      (fun status => absurd free status) s.queued
  | publish frame j =>
    simp only [phase, PutFits] at fits
    obtain ⟨offered, inside, free, copied⟩ := fits
    have done : PutFits (s.bufs.set j { s.bufs j with status := .used, len := frame.length })
        .idle := trivial
    refine SndHeld.set held free
      (b := { s.bufs j with status := .used, len := frame.length }) done (fun _ => ?_) _
    have whole : ({ s.bufs j with status := .used, len := frame.length } : PppBuf).frame = frame :=
      copied
    rwa [whole]

theorem putStep_queue {s : SndState} (held : SndHeld s) :
    ((putStep s).queued = s.queued ∧ (putStep s).bufs.waiting = s.bufs.waiting) ∨
      ∃ frame j b, s.phase = .publish frame j ∧ SendFrame frame ∧ j < PPP_QLEN ∧
        (s.bufs j).status = .free ∧ b.status = .used ∧ b.frame = frame ∧
        (putStep s).queued = s.queued ++ [frame] ∧ (putStep s).bufs = s.bufs.set j b := by
  have fits := held.phase
  unfold putStep
  cases phase : s.phase with
  | idle => exact .inl ⟨rfl, rfl⟩
  | scan frame i select =>
    left
    simp only [phase, PutFits] at fits
    simp only
    split
    · refine ⟨rfl, PppBufs.waiting_congr fun k _ => ?_⟩
      simp only [scanBuf]
      by_cases same : k = i
      · subst same
        simp [PppBufs.waits, ageBuf_same]
      · simp only [PppBufs.waits, s.bufs.set_other _ same, implies_true, and_self]
    · split
      · exact ⟨rfl, rfl⟩
      · next j =>
        have free := (fits.2 j rfl).2
        exact ⟨rfl, PppBufs.waiting_set (by simp [free]) (by simp)⟩
  | fill frame j =>
    simp only [phase, PutFits] at fits
    exact .inl ⟨rfl, PppBufs.waiting_set (by simp [fits.2.2]) (by simp [fits.2.2])⟩
  | publish frame j =>
    simp only [phase, PutFits] at fits
    obtain ⟨offered, inside, free, copied⟩ := fits
    exact .inr ⟨frame, j, { s.bufs j with status := .used, len := frame.length }, rfl, offered,
      inside, free, rfl, copied, rfl, rfl⟩

theorem putStep_left (s : SndState) : (putStep s).left = s.left := by
  unfold putStep
  split
  · rfl
  · split
    · rfl
    · split <;> rfl
  · rfl
  · rfl

theorem putStep_inOrder {s : SndState} (inOrder : SndInOrder s) (orderly : SndOrderly s .go) :
    SndInOrder (putStep s) := by
  refine ⟨?_, putStep_held inOrder.held⟩
  rw [putStep_left]
  rcases putStep_queue inOrder.held with
    ⟨queued, waiting⟩ | ⟨frame, j, b, phase, -, inside, free, used, copied, queued, bufs⟩
  · rw [queued, waiting, inOrder.queued]
  · simp only [SndOrderly, phase] at orderly
    rw [queued, bufs, PppBufs.waiting_push inside (by simp [free])
      (fun i above below => orderly i below above) used, copied, inOrder.queued, List.append_assoc]

theorem PutFits.mono {bufs bufs' : PppBufs} {phase : PutPhase} (fits : PutFits bufs phase)
    (alone : ∀ i, (bufs i).status = .free →
      (bufs' i).status = .free ∧ (bufs' i).data = (bufs i).data) : PutFits bufs' phase := by
  cases phase with
  | idle => trivial
  | scan frame i select =>
    exact ⟨fits.1, fun j chosen => ⟨(fits.2 j chosen).1, (alone j (fits.2 j chosen).2).1⟩⟩
  | fill frame j => exact ⟨fits.1, fits.2.1, (alone j fits.2.2).1⟩
  | publish frame j =>
    obtain ⟨offered, inside, free, copied⟩ := fits
    exact ⟨offered, inside, (alone j free).1, by rw [(alone j free).2, copied]⟩

theorem SndHeld.sent {s : SndState} (held : SndHeld s) :
    SndHeld { s with bufs := s.sentBufs, sndBuf := none } := by
  unfold SndState.sentBufs
  cases at_ : s.sndBuf with
  | none => exact ⟨fun j none => by simp at none, held.phase, held.frames⟩
  | some j =>
    have doing := (held.sending j at_).1
    refine ⟨fun j none => by simp at none, held.phase.mono fun i free => ?_, fun i status => ?_⟩
    · have other : i ≠ j := by
        rintro rfl
        simp [doing] at free
      simp only [PppBufs.mark, s.bufs.set_other _ other, free, and_self]
    · by_cases same : i = j
      · subst same
        simp [PppBufs.mark] at status
      · simp only [PppBufs.mark, s.bufs.set_other _ same] at status ⊢
        exact held.frames i status

theorem SndHeld.sent_waiting {s : SndState} (held : SndHeld s) :
    s.sentBufs.waiting = s.bufs.waiting := by
  unfold SndState.sentBufs
  cases at_ : s.sndBuf with
  | none => rfl
  | some j => exact PppBufs.waiting_set (by simp [(held.sending j at_).1]) (by simp)

theorem nextFrame_held {s : SndState} (held : SndHeld s) : SndHeld (nextFrame s).2 := by
  have sent := held.sent
  unfold nextFrame
  simp only
  split
  · exact ⟨sent.sending, sent.phase, sent.frames⟩
  · next j first =>
    obtain ⟨inside, waits, -⟩ := firstSlot_eq_some first
    have used := (s.sentBufs.waits_iff j).mp waits
    refine ⟨?_, sent.phase.mono fun i free => ?_, fun i status => ?_⟩
    · intro i at_
      obtain rfl := Option.some.inj at_
      exact ⟨by simp [PppBufs.mark], by simp [PppBufs.mark, PppBuf.frame]⟩
    · have other : i ≠ j := by
        rintro rfl
        simp [used] at free
      simp only [PppBufs.mark, s.sentBufs.set_other _ other] at free ⊢
      exact ⟨free, trivial⟩
    · by_cases same : i = j
      · subst same
        simpa [PppBufs.mark, PppBuf.frame] using sent.frames i (by simp [used])
      · simp only [PppBufs.mark, s.sentBufs.set_other _ same] at status ⊢
        exact sent.frames i status

theorem nextFrame_queue {s : SndState} (held : SndHeld s) :
    (nextFrame s).2.queued = s.queued ∧
      (nextFrame s).2.left ++ (nextFrame s).2.bufs.waiting = s.left ++ s.bufs.waiting := by
  rw [← held.sent_waiting]
  unfold nextFrame
  simp only
  split
  · exact ⟨rfl, rfl⟩
  · next j first =>
    have taken : s.sentBufs.waiting =
        (s.sentBufs j).frame :: (s.sentBufs.mark j .doing).waiting :=
      PppBufs.waiting_take first (by simp)
    simp only [taken, List.append_assoc, List.singleton_append, and_self]

theorem emitChar_same (mode : XmitMode) (cc : Byte) (s : SndState) :
    ∃ nxtout flags, (emitChar mode cc s).2 = { s with nxtout, flags } := by
  unfold emitChar
  split
  · exact ⟨_, _, rfl⟩
  · exact ⟨s.nxtout, s.flags, rfl⟩

theorem pppXmitChar_cases (mode : XmitMode) (s : SndState) :
    (pppXmitChar mode s = nextFrame s ∧ s.flags = SndFlags.none ∧ s.chsout = 0) ∨
      ∃ bufout chsout flags nxtout,
        (pppXmitChar mode s).2 = { s with bufout, chsout, flags, nxtout } := by
  have emitted (s' : SndState) (cc : Byte)
      (same : ∃ bufout chsout flags, s' = { s with bufout, chsout, flags }) :
      ∃ bufout chsout flags nxtout,
        (emitChar mode cc s').2 = { s with bufout, chsout, flags, nxtout } := by
    obtain ⟨bufout, chsout, flags, rfl⟩ := same
    obtain ⟨nxtout, flags, run⟩ := emitChar_same mode cc { s with bufout, chsout, flags }
    exact ⟨bufout, chsout, flags, nxtout, run⟩
  by_cases idle : s.flags = SndFlags.none
  · by_cases done : s.chsout = 0
    · exact .inl ⟨by simp [pppXmitChar, idle, done], idle, done⟩
    · right
      simp only [pppXmitChar, idle, ne_eq, not_true, if_false, done]
      exact emitted _ _ ⟨_, _, _, rfl⟩
  · right
    simp only [pppXmitChar, ne_eq, idle, not_false_iff, if_true]
    split
    · exact ⟨_, _, _, _, rfl⟩
    · split
      · exact ⟨_, _, _, _, rfl⟩
      · split
        · exact emitted _ _ ⟨_, _, _, rfl⟩
        · exact emitted _ _ ⟨_, _, _, rfl⟩

theorem xmit_held {s : SndState} (held : SndHeld s) (mode : XmitMode) :
    SndHeld (pppXmitChar mode s).2 := by
  rcases pppXmitChar_cases mode s with ⟨next, -⟩ | ⟨bufout, chsout, flags, nxtout, run⟩
  · rw [next]
    exact nextFrame_held held
  · rw [run]
    exact ⟨held.sending, held.phase, held.frames⟩

theorem xmit_queue {s : SndState} (held : SndHeld s) (mode : XmitMode) :
    (pppXmitChar mode s).2.queued = s.queued ∧
      (pppXmitChar mode s).2.left ++ (pppXmitChar mode s).2.bufs.waiting =
        s.left ++ s.bufs.waiting := by
  rcases pppXmitChar_cases mode s with ⟨next, -⟩ | ⟨bufout, chsout, flags, nxtout, run⟩
  · rw [next]
    exact nextFrame_queue held
  · rw [run]
    exact ⟨rfl, rfl⟩

theorem xmit_inOrder {s : SndState} (inOrder : SndInOrder s) (mode : XmitMode) :
    SndInOrder (pppXmitChar mode s).2 := by
  obtain ⟨queued, rest⟩ := xmit_queue inOrder.held mode
  exact ⟨by rw [queued, rest, inOrder.queued], xmit_held inOrder.held mode⟩

theorem putStart_held {s : SndState} (held : SndHeld s) (data : List Byte) (proto : BitVec 16) :
    SndHeld (putStart data proto s) := by
  unfold putStart
  split
  · split
    · exact held
    · next fits =>
      have some : data ≠ [] := fun none => fits (.inl (by rw [none, List.length_nil]))
      have short : data.length ≤ PPP_MSS := by omega
      exact ⟨held.sending, ⟨⟨data, proto, some, short, rfl⟩, fun j none => by simp at none⟩,
        held.frames⟩
  · exact held

/-- **One event of the send side** keeps what the buffers hold. -/
theorem sndStep_held {s : SndState} (held : SndHeld s) (event : SndEvent) :
    SndHeld (sndStep s event) := by
  cases event with
  | put data proto => exact putStart_held held data proto
  | go => exact putStep_held held
  | xmit mode => exact xmit_held held mode

/-- **One event keeps the send queue in order** where frames are put behind all that wait. -/
theorem sndStep_inOrder {s : SndState} (inOrder : SndInOrder s) {event : SndEvent}
    (orderly : SndOrderly s event) : SndInOrder (sndStep s event) := by
  cases event with
  | put data proto =>
    refine ⟨?_, putStart_held inOrder.held data proto⟩
    have queued := inOrder.queued
    simp only [sndStep, putStart]
    split
    · split <;> exact queued
    · exact queued
  | go => exact putStep_inOrder inOrder orderly
  | xmit mode => exact xmit_inOrder inOrder mode

end PosFirmware.Ppp
