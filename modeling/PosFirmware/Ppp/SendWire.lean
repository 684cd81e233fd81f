import PosFirmware.Ppp.Wire

/-!
# The line of the send side

What the transmit interrupt sends over a run. `sndStep_line` keeps `SndLine`: the line so far
holds the frames that left the queue, one after the other, each between two flags of its own
and the last as far as it was sent. `sndLine_between` reads it at the end of a frame.
-/

namespace PosFirmware.Ppp

open PosFirmware.Foundation

/-- The character that an event sends, if there is one. -/
def sndOut (s : SndState) : SndEvent → Option Byte
  | .put _ _ => none
  | .go => none
  | .xmit mode => (pppXmitChar mode s).1

/-- The characters that a run sends. -/
def sndLine : SndState → List SndEvent → List Byte
  | _, [] => []
  | s, event :: rest => (sndOut s event).toList ++ sndLine (sndStep s event) rest

/-- No frame is being sent. -/
def SndState.Between (s : SndState) : Prop := s.flags = SndFlags.none ∧ s.chsout = 0

instance (s : SndState) : Decidable s.Between := inferInstanceAs (Decidable (_ ∧ _))

/-- `snd_flags` when a number of the bytes of a frame were taken. -/
def flagsAt (len k : Nat) : SndFlags :=
  if k + 2 < len then SndFlags.none
  else if k + 2 = len then { SndFlags.none with check1 := true }
  else if k + 1 = len then { SndFlags.none with check2 := true }
  else { SndFlags.none with fin := true }

/-- The character that is due after an escape. -/
def SndState.due (s : SndState) : List Byte := if s.flags.esc then [s.nxtout] else []

/-- The interrupt has taken a number of the bytes of a frame, and sent the characters of these
but for the one that is due. -/
structure InFrame (s : SndState) (frame : List Byte) (k : Nat) (part : List Byte) : Prop where
  sending : s.sndBuf ≠ none
  inside : k ≤ frame.length
  flags : s.flags = { flagsAt frame.length k with esc := s.flags.esc }
  chsout : s.chsout = frame.length - 2 - k
  bufout : k + 2 < frame.length → s.bufout = k + 2
  part : Escaped (part ++ s.due) ((lineOrder frame).take k)

/-- Characters that stand for frames, one after the other. -/
abbrev OnLine (chars frames : List (List Byte)) : Prop :=
  List.Forall₂ (fun chars frame => Escaped chars (lineOrder frame)) chars frames

/-- Frames on the line, each between two flags of its own. -/
def ownLine (chars : List (List Byte)) : List Byte := lineOf (chars.map fun chars => (true, chars))

/-- What was sent so far. -/
def SndLine (s : SndState) (sent : List Byte) : Prop :=
  (s.Between ∧ ∃ chars, OnLine chars s.left ∧ sent = ownLine chars) ∨
    ∃ chars done frame k part, OnLine chars done ∧ s.left = done ++ [frame] ∧
      InFrame s frame k part ∧ sent = ownLine chars ++ FLAG :: part

theorem SndLine.apart {s : SndState} {sent : List Byte} (line : SndLine s sent) (bufs : PppBufs)
    (phase : PutPhase) (queued : List (List Byte)) :
    SndLine { s with bufs, phase, queued } sent := by
  rcases line with between | ⟨chars, done, frame, k, part, onLine, left, inFrame, sent⟩
  · exact .inl between
  · exact .inr ⟨chars, done, frame, k, part, onLine, left,
      ⟨inFrame.sending, inFrame.inside, inFrame.flags, inFrame.chsout, inFrame.bufout,
        inFrame.part⟩, sent⟩

theorem putStep_apart (s : SndState) :
    ∃ bufs phase queued, putStep s = { s with bufs, phase, queued } := by
  unfold putStep
  split
  · exact ⟨s.bufs, s.phase, s.queued, rfl⟩
  · split
    · exact ⟨_, _, s.queued, rfl⟩
    · split
      · exact ⟨s.bufs, _, s.queued, rfl⟩
      · exact ⟨_, _, s.queued, rfl⟩
  · exact ⟨_, _, s.queued, rfl⟩
  · exact ⟨_, _, _, rfl⟩

theorem putStart_apart (data : List Byte) (proto : BitVec 16) (s : SndState) :
    ∃ phase, putStart data proto s = { s with phase } := by
  unfold putStart
  split
  · split
    · exact ⟨s.phase, rfl⟩
    · exact ⟨_, rfl⟩
  · exact ⟨s.phase, rfl⟩

@[simp] theorem length_frame (b : PppBuf) : b.frame.length = b.len := by simp [PppBuf.frame]

theorem frame_getElem (b : PppBuf) {i : Nat} (inside : i < b.frame.length) :
    b.frame[i] = b.data i := by simp [PppBuf.frame]

theorem take_lineOrder (b : PppBuf) {k : Nat} (long : 2 ≤ b.len) (inside : k < b.len) :
    (lineOrder b.frame).take (k + 1) = (lineOrder b.frame).take k ++
      [if k + 2 < b.len then b.data (k + 2) else if k + 2 = b.len then b.data 0 else b.data 1] := by
  have within : k < (lineOrder b.frame).length := by simpa [length_lineOrder] using inside
  have byte : (lineOrder b.frame)[k] =
      if k + 2 < b.len then b.data (k + 2) else if k + 2 = b.len then b.data 0 else b.data 1 := by
    simp only [lineOrder, List.getElem_append, List.getElem_drop, List.getElem_take,
      List.length_drop, length_frame, frame_getElem]
    by_cases body : k + 2 < b.len
    · simp only [body, if_true, show k < b.len - 2 by omega, dif_pos, Nat.add_comm 2 k]
    · simp only [body, if_false, show ¬ k < b.len - 2 by omega, dif_neg, not_false_eq_true]
      by_cases low : k + 2 = b.len
      · simp only [low, if_true, show k - (b.len - 2) = 0 by omega]
      · simp only [low, if_false, show k - (b.len - 2) = 1 by omega]
  rw [← List.take_concat_get within, List.concat_eq_append, byte]

theorem emitChar_escaped (mode : XmitMode) (c : Byte) {s : SndState} (plain : s.flags.esc = false)
    {part bytes : List Byte} (sent : Escaped part bytes) :
    ∃ out esc nxtout,
      emitChar mode c s = (some out, { s with flags := { s.flags with esc }, nxtout }) ∧
      Escaped (part ++ [out] ++ if esc then [nxtout] else []) (bytes ++ [c]) := by
  unfold emitChar
  split
  · refine ⟨CTL_ESC, true, c ^^^ 0x20, rfl, ?_⟩
    have twice : (c ^^^ 0x20) ^^^ 0x20 = c := by
      rw [BitVec.xor_assoc, BitVec.xor_self, BitVec.xor_zero]
    have step := sent.append (.escape (c ^^^ 0x20) .nil)
    rw [twice] at step
    simpa using step
  · next unescaped =>
    refine ⟨c, false, s.nxtout, ?_, ?_⟩
    · rw [← plain]
    · have itself : c ≠ FLAG ∧ c ≠ CTL_ESC := by
        constructor
        · rintro rfl
          simp [escapes] at unescaped
        · rintro rfl
          simp [escapes] at unescaped
      simpa using sent.append (.plain itself.1 itself.2 .nil)

theorem pppXmitChar_next (mode : XmitMode) {s : SndState} {k : Nat} {part : List Byte}
    (inFrame : InFrame s s.current.frame k part) (plain : s.flags.esc = false)
    (more : k < s.current.len) :
    ∃ bufout, (k + 1 + 2 < s.current.len → bufout = k + 1 + 2) ∧
      pppXmitChar mode s = emitChar mode
        (if k + 2 < s.current.len then s.current.data (k + 2)
          else if k + 2 = s.current.len then s.current.data 0 else s.current.data 1)
        { s with
          flags := flagsAt s.current.len (k + 1)
          chsout := s.current.len - 2 - (k + 1)
          bufout } := by
  have flags := inFrame.flags
  have chsout := inFrame.chsout
  have bufout := inFrame.bufout
  rw [length_frame] at flags chsout bufout
  rw [plain] at flags
  by_cases body : k + 2 < s.current.len
  · have idle : s.flags = SndFlags.none := by
      rw [flags]
      simp [flagsAt, body, SndFlags.none]
    have busy : s.chsout ≠ 0 := by omega
    refine ⟨s.bufout + 1, fun _ => by omega, ?_⟩
    have after : (if s.chsout - 1 = 0 then { SndFlags.none with check1 := true } else s.flags) =
        flagsAt s.current.len (k + 1) := by
      rw [idle]
      by_cases last : s.chsout - 1 = 0
      · simp [flagsAt, last, show k + 1 + 2 = s.current.len by omega]
      · simp [flagsAt, last, show k + 1 + 2 < s.current.len by omega]
    unfold pppXmitChar
    rw [if_neg (not_not.mpr idle), if_neg busy]
    have sent : s.chsout - 1 = s.current.len - 2 - (k + 1) := by omega
    simp only [sent] at after
    simp only [sent, after, body, if_true, bufout body]
  · refine ⟨s.bufout, fun _ => by omega, ?_⟩
    by_cases low : k + 2 = s.current.len
    · have check : s.flags = { SndFlags.none with check1 := true } := by
        rw [flags]
        simp [flagsAt, low, SndFlags.none]
      have after : flagsAt s.current.len (k + 1) = { SndFlags.none with check2 := true } := by
        simp [flagsAt, show ¬ k + 1 + 2 < s.current.len by omega,
          show ¬ k + 1 + 2 = s.current.len by omega, show k + 1 + 1 = s.current.len by omega]
      have sent : s.chsout = s.current.len - 2 - (k + 1) := by omega
      simp [pppXmitChar, check, low, after, ← sent, SndFlags.none]
    · have check : s.flags = { SndFlags.none with check2 := true } := by
        rw [flags]
        simp [flagsAt, body, low, show k + 1 = s.current.len by omega, SndFlags.none]
      have after : flagsAt s.current.len (k + 1) = { SndFlags.none with fin := true } := by
        simp [flagsAt, show ¬ k + 1 + 2 < s.current.len by omega,
          show ¬ k + 1 + 2 = s.current.len by omega, show ¬ k + 1 + 1 = s.current.len by omega]
      have sent : s.chsout = s.current.len - 2 - (k + 1) := by omega
      simp [pppXmitChar, check, body, low, after, ← sent, SndFlags.none]

theorem SndHeld.current {s : SndState} (held : SndHeld s) {done : List (List Byte)}
    {frame : List Byte} (left : s.left = done ++ [frame]) (sending : s.sndBuf ≠ none) :
    s.current.frame = frame ∧ SendFrame frame := by
  obtain ⟨j, at_⟩ := Option.ne_none_iff_exists'.mp sending
  obtain ⟨doing, last⟩ := held.sending j at_
  have same : s.current.frame = frame := by
    rw [left, List.getLast?_concat] at last
    simp only [SndState.current, at_, Option.getD_some]
    exact (Option.some.inj last).symm
  refine ⟨same, ?_⟩
  rw [← same]
  simpa only [SndState.current, at_, Option.getD_some] using held.frames j (by simp [doing])

theorem SendFrame.long {frame : List Byte} (frameOf : SendFrame frame) : 6 < frame.length := by
  obtain ⟨data, proto, some, -, rfl⟩ := frameOf
  have long : 0 < data.length := List.length_pos_iff.mpr some
  rw [length_sendFrame, PPP_HEADER_SPACE]
  omega

theorem nextFrame_line {s : SndState} (held : SndHeld s) (between : s.Between)
    {chars : List (List Byte)} (onLine : OnLine chars s.left) :
    SndLine (nextFrame s).2 (ownLine chars ++ (nextFrame s).1.toList) := by
  have frames := (nextFrame_held held)
  unfold nextFrame at frames ⊢
  simp only at frames ⊢
  split at frames
  · exact .inl ⟨⟨rfl, between.2⟩, chars, onLine, by simp⟩
  · next j first =>
    have frame := (frames.current rfl (by simp)).2
    have long := frame.long
    rw [length_frame] at long
    refine .inr ⟨chars, s.left, (s.sentBufs j).frame, 0, [], onLine, rfl, ?_, by simp⟩
    refine ⟨by simp, by simp, ?_, by simp, fun _ => rfl, ?_⟩
    · simp [flagsAt, SndFlags.none, show 2 < (s.sentBufs j).len by omega]
    · simpa [SndState.due, SndFlags.none] using Escaped.nil

/-- **One character from the interrupt** goes on with the line. -/
theorem xmit_line {s : SndState} (held : SndHeld s) {sent : List Byte} (line : SndLine s sent)
    (mode : XmitMode) :
    SndLine (pppXmitChar mode s).2 (sent ++ (pppXmitChar mode s).1.toList) := by
  rcases line with ⟨between, chars, onLine, rfl⟩ |
    ⟨chars, done, frame, k, part, onLine, left, inFrame, rfl⟩
  · have run : pppXmitChar mode s = nextFrame s := by simp [pppXmitChar, between.1, between.2]
    rw [run]
    exact nextFrame_line held between onLine
  · obtain ⟨same, frameOf⟩ := held.current left inFrame.sending
    subst same
    have long := frameOf.long
    rw [length_frame] at long
    have inside := inFrame.inside
    rw [length_frame] at inside
    cases esc : s.flags.esc with
    | true =>
      -- the character after the escape
      have run : pppXmitChar mode s =
          (some s.nxtout, { s with flags := { s.flags with esc := false } }) := by
        have busy : s.flags ≠ SndFlags.none := by
          intro idle
          simp [idle, SndFlags.none] at esc
        simp [pppXmitChar, busy, esc]
      rw [run]
      refine .inr ⟨chars, done, _, k, part ++ [s.nxtout], onLine, left, ?_, by simp⟩
      refine ⟨inFrame.sending, inFrame.inside, ?_, inFrame.chsout, inFrame.bufout, ?_⟩
      · have flags := inFrame.flags
        simp only
        rw [flags]
      · simpa [SndState.due, esc] using inFrame.part
    | false =>
      rcases Nat.lt_or_ge k s.current.len with more | whole
      · -- the next byte of the frame
        obtain ⟨bufout, place, run⟩ := pppXmitChar_next mode inFrame esc more
        have plain : (flagsAt s.current.len (k + 1)).esc = false := by
          unfold flagsAt
          split
          · rfl
          · split
            · rfl
            · split <;> rfl
        have before := inFrame.part
        simp only [SndState.due, esc, Bool.false_eq_true, if_false, List.append_nil] at before
        obtain ⟨out, esc', nxtout, emitted, after⟩ := emitChar_escaped mode
          (if k + 2 < s.current.len then s.current.data (k + 2)
            else if k + 2 = s.current.len then s.current.data 0 else s.current.data 1)
          (s := { s with
            flags := flagsAt s.current.len (k + 1)
            chsout := s.current.len - 2 - (k + 1)
            bufout }) plain before
        rw [run, emitted]
        rw [← take_lineOrder s.current (by omega) more] at after
        refine .inr ⟨chars, done, _, k + 1, part ++ [out], onLine, left, ?_, by simp⟩
        exact ⟨inFrame.sending, by simpa using more, by simp, by simp, by simpa using place,
          by simpa [SndState.due] using after⟩
      · -- the flag at the end
        have end_ : k = s.current.len := by omega
        have flags := inFrame.flags
        rw [length_frame, esc] at flags
        have fin : s.flags = { SndFlags.none with fin := true } := by
          rw [flags]
          simp [flagsAt, end_, SndFlags.none]
        have run : pppXmitChar mode s = (some FLAG, { s with flags := SndFlags.none }) := by
          simp [pppXmitChar, fin, SndFlags.none]
        have chsout := inFrame.chsout
        rw [length_frame] at chsout
        rw [run]
        refine .inl ⟨⟨rfl, by simp only; omega⟩, chars ++ [part], ?_, by simp [ownLine, lineOf]⟩
        have whole := inFrame.part
        simp only [SndState.due, esc, Bool.false_eq_true, if_false, List.append_nil] at whole
        rw [List.take_of_length_le (by simp [length_lineOrder, end_])] at whole
        simp only [left]
        exact List.rel_append onLine (.cons whole .nil)

/-- **One event of the send side** goes on with the line. -/
theorem sndStep_line {s : SndState} (held : SndHeld s) {sent : List Byte} (line : SndLine s sent)
    (event : SndEvent) : SndLine (sndStep s event) (sent ++ (sndOut s event).toList) := by
  cases event with
  | put data proto =>
    obtain ⟨phase, run⟩ := putStart_apart data proto s
    simp only [sndStep, sndOut, run, Option.toList_none, List.append_nil]
    exact line.apart s.bufs phase s.queued
  | go =>
    obtain ⟨bufs, phase, queued, run⟩ := putStep_apart s
    simp only [sndStep, sndOut, run, Option.toList_none, List.append_nil]
    exact line.apart bufs phase queued
  | xmit mode => exact xmit_line held line mode

/-- What `ppp_put_snd` put into the queue are whole frames of payloads, and each left it once or
waits. -/
structure SndKept (s : SndState) : Prop where
  held : SndHeld s
  frames : ∀ frame ∈ s.queued, SendFrame frame
  once : s.queued.Perm (s.left ++ s.bufs.waiting)

theorem sndStep_kept {s : SndState} (kept : SndKept s) (event : SndEvent) :
    SndKept (sndStep s event) := by
  suffices queue : (∀ frame ∈ (sndStep s event).queued, SendFrame frame) ∧
      (sndStep s event).queued.Perm ((sndStep s event).left ++ (sndStep s event).bufs.waiting) from
    ⟨sndStep_held kept.held event, queue.1, queue.2⟩
  cases event with
  | put data proto =>
    obtain ⟨phase, run⟩ := putStart_apart data proto s
    simp only [sndStep, run]
    exact ⟨kept.frames, kept.once⟩
  | go =>
    simp only [sndStep, putStep_left]
    rcases putStep_queue kept.held with
      ⟨queued, waiting⟩ | ⟨frame, j, b, -, offered, inside, free, used, copied, queued, bufs⟩
    · rw [queued, waiting]
      exact ⟨kept.frames, kept.once⟩
    · rw [queued, bufs]
      have idle : (s.bufs j).status ≠ .used := by simp [free]
      have inserted := PppBufs.waiting_insert inside idle used
      rw [copied] at inserted
      refine ⟨fun other member => ?_, ?_⟩
      · rcases List.mem_append.mp member with before | new
        · exact kept.frames other before
        · rwa [List.mem_singleton.mp new]
      · calc List.Perm (s.queued ++ [frame]) (frame :: s.queued) :=
              List.perm_append_singleton _ _
          List.Perm _ (frame :: (s.left ++ s.bufs.waiting)) := kept.once.cons _
          List.Perm _ (s.left ++ frame :: s.bufs.waiting) := List.perm_middle.symm
          List.Perm _ (s.left ++ (s.bufs.set j b).waiting) := inserted.symm.append_left _
  | xmit mode =>
    obtain ⟨queued, rest⟩ := xmit_queue kept.held mode
    simp only [sndStep, queued, rest]
    exact ⟨kept.frames, kept.once⟩

theorem startSnd_kept (bufs : PppBufs) : SndKept (startSnd bufs) := by
  have empty : (startSnd bufs).bufs.waiting = [] :=
    slots_none fun i _ _ => (PppBufs.waits_eq_false _ i).mpr (by simp [startSnd])
  refine ⟨⟨fun j none => by simp [startSnd] at none, trivial, fun i used => absurd rfl used⟩,
    ?_, ?_⟩
  · intro frame member
    simp [startSnd] at member
  · rw [empty]
    exact .refl _

theorem sndLine_run {s : SndState} (kept : SndKept s) {sent : List Byte} (line : SndLine s sent)
    (events : List SndEvent) :
    SndKept (runEvents sndStep s events) ∧
      SndLine (runEvents sndStep s events) (sent ++ sndLine s events) := by
  induction events generalizing s sent with
  | nil => exact ⟨kept, by simpa [sndLine, runEvents] using line⟩
  | cons event rest past =>
    have step := past (sndStep_kept kept event) (sndStep_line kept.held line event)
    simpa only [runEvents, sndLine, List.foldl_cons, List.append_assoc] using step

/-- **What is on the line at the end of a frame**: payloads that were put into the queue, in
escaped frames with two flags around each. -/
theorem sndLine_between (bufs : PppBufs) {events : List SndEvent}
    (between : (runEvents sndStep (startSnd bufs) events).Between) :
    SndKept (runEvents sndStep (startSnd bufs) events) ∧
      ∃ chars, OnLine chars (runEvents sndStep (startSnd bufs) events).left ∧
        sndLine (startSnd bufs) events = ownLine chars := by
  have start : SndLine (startSnd bufs) [] := .inl ⟨⟨rfl, rfl⟩, [], .nil, rfl⟩
  obtain ⟨kept, line⟩ := sndLine_run (startSnd_kept bufs) start events
  refine ⟨kept, ?_⟩
  rcases line with ⟨-, chars, onLine, sent⟩ | ⟨chars, done, frame, k, part, -, left, inFrame, -⟩
  · exact ⟨chars, onLine, sent⟩
  · -- inside a frame, a flag is set or characters remain
    obtain ⟨same, frameOf⟩ := kept.held.current left inFrame.sending
    have long := frameOf.long
    have flags := inFrame.flags
    rw [between.1] at flags
    have chsout := inFrame.chsout
    rw [between.2] at chsout
    have inside := inFrame.inside
    unfold flagsAt at flags
    split at flags
    · omega
    · split at flags
      · simp [SndFlags.none] at flags
      · split at flags <;> simp [SndFlags.none] at flags

end PosFirmware.Ppp
