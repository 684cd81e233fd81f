import PosFirmware.Ppp.Receive
import PosFirmware.Ppp.Wire

/-!
# Decoding the line

`Decoder` is the receive side without its buffers: the bytes of the frame that is being
filled, the last character and the frames put into the queue. `rcvStep_decodes` connects
the two. `Decoder.recv_lineOf` says that frames on the line, with single or doubled flags
between them, are all put into the queue, and `Decoder.recv_flags` that the decoder is ready for
them after a flag between frames and after two flags wherever it is.
-/

namespace PosFirmware.Ppp

open PosFirmware.Foundation

/-- What the receive side knows of the line. -/
structure Decoder where
  /-- The bytes of the frame that is being filled. -/
  content : Option (List Byte)
  /-- `lastin`. -/
  lastin : Byte
  /-- The frames put into the queue. -/
  queued : List (List Byte)

namespace Decoder

/-- A byte of the frame. -/
def store (c : Byte) (d : Decoder) : Decoder :=
  match d.content with
  | some bytes =>
    if bytes.length < PPP_MSS + PPP_HEADER_SPACE + 1 then { d with content := some (bytes ++ [c]) }
    else d
  | none => d

/-- The flag at the end. -/
def finish (d : Decoder) : Decoder :=
  match d.content with
  | some bytes =>
    { d with
      content := none
      queued := if bytes.length + 1 ≤ 4 then d.queued else d.queued ++ [bytes ++ [FLAG]] }
  | none => d

/-- A character inside a frame. -/
def decode (cc : Byte) (d : Decoder) : Decoder :=
  if d.lastin = CTL_ESC then store (cc ^^^ 0x20) { d with lastin := 0 }
  else if cc = CTL_ESC then { d with lastin := cc }
  else if cc = FLAG then finish { d with lastin := cc }
  else store cc { d with lastin := cc }

/-- A character. -/
def recv (d : Decoder) (cc : Byte) : Decoder :=
  match d.content with
  | none =>
    if cc ≠ FLAG ∧ d.lastin ≠ FLAG then d
    else if cc = FLAG then { d with content := some [FLAG] }
    else decode cc { d with content := some [FLAG] }
  | some _ => decode cc d

/-- Between two frames the decoder has seen the flag before the next one. -/
def Ready (d : Decoder) : Prop :=
  (d.content = none ∧ d.lastin = FLAG) ∨ (d.content = some [FLAG] ∧ d.lastin ≠ CTL_ESC)

/-- Between frames no escape is pending. -/
def Sane (d : Decoder) : Prop := d.content = none → d.lastin ≠ CTL_ESC

/-- The frames of some bytes that are long enough to be put into the queue. -/
def kept (bytes : List Byte) : List (List Byte) := if bytes.length ≤ 2 then [] else [flagged bytes]

@[simp] theorem flag_ne_escape : FLAG ≠ CTL_ESC := by decide

@[simp] theorem zero_ne_escape : 0#8 ≠ CTL_ESC := by decide

/-- **Escaped characters fill a frame** with the bytes they stand for. -/
theorem recv_escaped {chars bytes : List Byte} (escaped : Escaped chars bytes) {d : Decoder}
    {front : List Byte} (content : d.content = some front) (plain : d.lastin ≠ CTL_ESC)
    (fits : front.length + bytes.length ≤ PPP_MSS + PPP_HEADER_SPACE + 1) :
    ∃ lastin, lastin ≠ CTL_ESC ∧
      chars.foldl recv d = { d with content := some (front ++ bytes), lastin } := by
  induction escaped generalizing d front with
  | nil => exact ⟨d.lastin, plain, by simp [← content]⟩
  | @plain c chars bytes noFlag noEscape _ past =>
    simp only [List.length_cons] at fits
    have step : recv d c = { d with content := some (front ++ [c]), lastin := c } := by
      have room : front.length < PPP_MSS + PPP_HEADER_SPACE + 1 := by omega
      simp [recv, decode, store, content, plain, noFlag, noEscape, room]
    obtain ⟨lastin, quiet, run⟩ := @past { d with content := some (front ++ [c]), lastin := c }
      (front ++ [c]) rfl noEscape (by simp only [List.length_append, List.length_singleton]; omega)
    refine ⟨lastin, quiet, ?_⟩
    rw [List.foldl_cons, step, run]
    simp
  | @escape c chars bytes _ past =>
    simp only [List.length_cons] at fits
    have step : recv (recv d CTL_ESC) c =
        { d with content := some (front ++ [c ^^^ 0x20]), lastin := 0 } := by
      have room : front.length < PPP_MSS + PPP_HEADER_SPACE + 1 := by omega
      simp [recv, decode, store, content, plain, room]
    obtain ⟨lastin, quiet, run⟩ := @past
      { d with content := some (front ++ [c ^^^ 0x20]), lastin := 0 } (front ++ [c ^^^ 0x20]) rfl
      zero_ne_escape (by simp only [List.length_append, List.length_singleton]; omega)
    refine ⟨lastin, quiet, ?_⟩
    rw [List.foldl_cons, List.foldl_cons, step, run]
    simp

theorem recv_flag {d : Decoder} (ready : d.Ready) :
    (recv d FLAG).Ready ∧ (recv d FLAG).queued = d.queued := by
  rcases ready with ⟨content, lastin⟩ | ⟨content, plain⟩
  · refine ⟨.inr ⟨by simp [recv, content], ?_⟩, by simp [recv, content]⟩
    simp [recv, content, lastin]
  · refine ⟨.inl ?_, ?_⟩ <;> simp [recv, decode, finish, content, plain]

/-- **A frame on the line** is put into the queue, and the decoder is ready for the next. -/
theorem recv_frame {d : Decoder} (ready : d.Ready) {chars bytes : List Byte}
    (escaped : Escaped chars bytes) (fits : bytes.length ≤ PPP_MSS + PPP_HEADER_SPACE) :
    ((chars ++ [FLAG]).foldl recv d).Ready ∧
      ((chars ++ [FLAG]).foldl recv d).queued = d.queued ++ kept bytes := by
  -- the first character starts the frame where the flag before it ended another
  have opened (filled : chars ≠ []) : ∃ d' : Decoder, d'.content = some [FLAG] ∧
      d'.lastin ≠ CTL_ESC ∧ d'.queued = d.queued ∧ chars.foldl recv d = chars.foldl recv d' := by
    rcases ready with ⟨content, lastin⟩ | ⟨content, plain⟩
    · refine ⟨{ d with content := some [FLAG] }, rfl, by simp [lastin], rfl, ?_⟩
      cases escaped with
      | nil => exact absurd rfl filled
      | @plain c chars bytes noFlag _ rest =>
        have first : recv d c = recv { d with content := some [FLAG] } c := by
          simp [recv, content, noFlag, lastin]
        rw [List.foldl_cons, List.foldl_cons, first]
      | @escape c chars bytes rest =>
        have first : recv d CTL_ESC = recv { d with content := some [FLAG] } CTL_ESC := by
          simp [recv, content, flag_ne_escape.symm, lastin]
        simp only [List.foldl_cons, first]
    · exact ⟨d, content, plain, rfl, rfl⟩
  by_cases filled : chars = []
  · subst filled
    cases escaped
    simpa [kept] using recv_flag ready
  · obtain ⟨d', content, plain, queued, same⟩ := opened filled
    obtain ⟨lastin, quiet, run⟩ := recv_escaped escaped content plain (by
      simp only [List.length_singleton]
      omega)
    rw [List.foldl_append, same, run]
    refine ⟨.inl ?_, ?_⟩
    · simp [recv, decode, finish, quiet]
    · by_cases short : bytes.length ≤ 2
      · simp [recv, decode, finish, quiet, kept, short, queued,
          show bytes.length + 1 + 1 ≤ 4 by omega]
      · simp [recv, decode, finish, quiet, kept, short, queued, flagged,
          show ¬ bytes.length + 1 + 1 ≤ 4 by omega]

/-- **Frames on the line**, with single or doubled flags between them, are all put into the
queue. -/
theorem recv_lineOf {frames : List (Bool × List Byte)} {bytes : List (List Byte)}
    (escaped : List.Forall₂ (fun frame bytes => Escaped frame.2 bytes) frames bytes)
    (fit : ∀ one ∈ bytes, one.length ≤ PPP_MSS + PPP_HEADER_SPACE) {d : Decoder}
    (ready : d.Ready) :
    ((lineOf frames).foldl recv d).Ready ∧
      ((lineOf frames).foldl recv d).queued = d.queued ++ bytes.flatMap kept := by
  induction escaped generalizing d with
  | nil => exact ⟨ready, by simp [lineOf]⟩
  | @cons frame one frames bytes first _ past =>
    obtain ⟨own, chars⟩ := frame
    have opened : ∃ d' : Decoder, d'.Ready ∧ d'.queued = d.queued ∧
        (if own then [FLAG] else []).foldl recv d = d' := by
      cases own with
      | true => exact ⟨_, (recv_flag ready).1, (recv_flag ready).2, rfl⟩
      | false => exact ⟨d, ready, rfl, rfl⟩
    obtain ⟨d', ready', queued, open_⟩ := opened
    obtain ⟨ready'', queued'⟩ := recv_frame ready' first (fit one (by simp))
    obtain ⟨done, all⟩ := past (fun other member => fit other (by simp [member])) ready''
    have split : lineOf ((own, chars) :: frames) =
        (if own then [FLAG] else []) ++ ((chars ++ [FLAG]) ++ lineOf frames) := by
      simp [lineOf]
    rw [split, List.foldl_append, open_, List.foldl_append]
    refine ⟨done, ?_⟩
    rw [all, queued', queued]
    simp

theorem recv_flag_between {d : Decoder} (sane : d.Sane) (between : d.content = none) :
    (recv d FLAG).Ready ∧ (recv d FLAG).queued = d.queued := by
  have plain := sane between
  exact ⟨.inr (by simp [recv, between, plain]), by simp [recv, between]⟩

/-- **Two flags ready the decoder** wherever it is, with at most one frame of what was before
them. -/
theorem recv_flags {d : Decoder} (sane : d.Sane) :
    (recv (recv d FLAG) FLAG).Ready ∧ ∃ junk : List (List Byte), junk.length ≤ 1 ∧
      (recv (recv d FLAG) FLAG).queued = d.queued ++ junk := by
  cases content : d.content with
  | none =>
    obtain ⟨ready, queued⟩ := recv_flag_between sane content
    exact ⟨(recv_flag ready).1, [], by simp, by rw [(recv_flag ready).2, queued]; simp⟩
  | some bytes =>
    by_cases pending : d.lastin = CTL_ESC
    · -- the first flag is taken for a byte of the frame, the second ends it
      have first : ∃ bytes', recv d FLAG = { d with content := some bytes', lastin := 0 } := by
        simp only [recv, content, decode, pending, if_true, store]
        split
        · exact ⟨_, rfl⟩
        · exact ⟨bytes, by rw [← content]⟩
      obtain ⟨bytes', first⟩ := first
      rw [first]
      refine ⟨.inl (by simp [recv, decode, finish]),
        if bytes'.length + 1 ≤ 4 then [] else [bytes' ++ [FLAG]], by split <;> simp, ?_⟩
      by_cases short : bytes'.length + 1 ≤ 4 <;> simp [recv, decode, finish, short]
    · have first : recv d FLAG = { d with
          content := none, lastin := FLAG
          queued := if bytes.length + 1 ≤ 4 then d.queued else d.queued ++ [bytes ++ [FLAG]] } := by
        simp [recv, decode, finish, content, pending]
      have ready : (recv d FLAG).Ready := .inl (by simp [first])
      refine ⟨(recv_flag ready).1, if bytes.length + 1 ≤ 4 then [] else [bytes ++ [FLAG]],
        by split <;> simp, ?_⟩
      rw [(recv_flag ready).2, first]
      by_cases short : bytes.length + 1 ≤ 4 <;> simp [short]

theorem store_content (c : Byte) {d : Decoder} (filling : d.content ≠ none) :
    (store c d).content ≠ none := by
  obtain ⟨bytes, content⟩ := Option.ne_none_iff_exists'.mp filling
  simp only [store, content]
  split <;> simp [content]

theorem decode_sane {d : Decoder} (filling : d.content ≠ none) (cc : Byte) :
    (decode cc d).Sane := by
  unfold decode
  split
  · exact fun none => absurd none (store_content _ filling)
  · split
    · exact fun none => absurd none filling
    · split
      · next flag =>
        intro _
        obtain ⟨bytes, content⟩ := Option.ne_none_iff_exists'.mp filling
        simp [finish, content, flag]
      · exact fun none => absurd none (store_content _ filling)

theorem recv_sane {d : Decoder} (sane : d.Sane) (cc : Byte) : (recv d cc).Sane := by
  unfold recv
  split
  · next content =>
    split
    · exact sane
    · split
      · exact fun none => by simp at none
      · exact decode_sane (by simp) cc
  · next bytes content => exact decode_sane (by simp [content]) cc

theorem foldl_sane {d : Decoder} (sane : d.Sane) (chars : List Byte) :
    (chars.foldl recv d).Sane := by
  induction chars generalizing d with
  | nil => exact sane
  | cons cc rest past => exact past (recv_sane sane cc)

end Decoder

/-- The bytes of the buffer that is being filled. -/
def RcvState.content (s : RcvState) : Option (List Byte) :=
  match s.rcvBuf, s.bufin with
  | some j, some n => some ((List.range n).map (s.bufs j).data)
  | _, _ => none

/-- The receive side as a decoder. -/
def RcvState.decoder (s : RcvState) : Decoder := ⟨s.content, s.lastin, s.queued⟩

/-- `bufin` points into the buffer that is being filled. -/
def RcvState.Linked (s : RcvState) : Prop := s.bufin ≠ none → s.rcvBuf ≠ none

theorem RcvState.content_some {s : RcvState} {j n : Nat} (at_ : s.rcvBuf = some j)
    (filled : s.bufin = some n) :
    s.decoder.content = some ((List.range n).map (s.bufs j).data) := by
  simp [decoder, content, at_, filled]

theorem RcvState.content_none {s : RcvState}
    (idle : ∀ j n, s.rcvBuf = some j → s.bufin = some n → False) : s.decoder.content = none := by
  unfold decoder content
  split
  · next j n at_ filled => exact (idle j n at_ filled).elim
  · rfl

theorem map_range_behind (data : Nat → Byte) (c : Byte) (n : Nat) :
    (List.range (n + 1)).map (fun k => if k = n then c else data k) =
      (List.range n).map data ++ [c] := by
  have before : (List.range n).map (fun k => if k = n then c else data k) =
      (List.range n).map data :=
    List.map_congr_left fun k member => if_neg (Nat.ne_of_lt (List.mem_range.mp member))
  simp [List.range_succ, before]

theorem startFrame_decoder (s : RcvState) :
    (startFrame s).Linked ∧ (startFrame s).decoder = { s.decoder with content := some [] } :=
  ⟨fun _ => by simp [startFrame], rfl⟩

theorem storeChar_decoder {s : RcvState} (linked : s.Linked) (c : Byte) :
    (storeChar c s).Linked ∧ (storeChar c s).decoder = s.decoder.store c := by
  unfold storeChar
  split
  · next j n at_ filled =>
    have content := RcvState.content_some at_ filled
    simp only [Decoder.store, content, List.length_map, List.length_range]
    split
    · refine ⟨fun _ => by simp [at_], ?_⟩
      simp [RcvState.decoder, RcvState.content, at_, map_range_behind]
    · exact ⟨linked, rfl⟩
  · next idle =>
    have content := RcvState.content_none idle
    simp only [Decoder.store, content]
    exact ⟨linked, trivial⟩

theorem endFrame_decoder {s : RcvState} (linked : s.Linked) :
    (endFrame s).Linked ∧ (endFrame s).decoder = s.decoder.finish := by
  unfold endFrame
  split
  · next j n at_ filled =>
    have content := RcvState.content_some at_ filled
    simp only [Decoder.finish, content, List.length_map, List.length_range]
    split
    · exact ⟨fun some => by simp at some, rfl⟩
    · refine ⟨fun some => by simp at some, ?_⟩
      simp [RcvState.decoder, RcvState.content, PppBuf.frame, map_range_behind]
  · next idle =>
    have content := RcvState.content_none idle
    simp only [Decoder.finish, content]
    exact ⟨linked, trivial⟩

theorem decodeChar_decoder {s : RcvState} (linked : s.Linked) (cc : Byte) :
    (decodeChar cc s).Linked ∧ (decodeChar cc s).decoder = s.decoder.decode cc := by
  have same : s.decoder.lastin = s.lastin := rfl
  unfold decodeChar Decoder.decode
  rw [same]
  split
  · exact @storeChar_decoder { s with lastin := 0 } linked _
  · split
    · exact ⟨linked, rfl⟩
    · split
      · exact @endFrame_decoder { s with lastin := cc } linked
      · exact @storeChar_decoder { s with lastin := cc } linked _

theorem openFrame_decoder (s : RcvState) : (storeChar FLAG (startFrame s)).Linked ∧
    (storeChar FLAG (startFrame s)).decoder = { s.decoder with content := some [FLAG] } := by
  obtain ⟨linked, start⟩ := startFrame_decoder s
  obtain ⟨linked', stored⟩ := storeChar_decoder linked FLAG
  refine ⟨linked', ?_⟩
  rw [stored, start]
  simp [Decoder.store, PPP_MSS]

/-- **`_ppp_recv_char` decodes the line.** -/
theorem pppRecvChar_decoder {s : RcvState} (linked : s.Linked) (cc : Byte) :
    (pppRecvChar cc s).Linked ∧ (pppRecvChar cc s).decoder = s.decoder.recv cc := by
  have same : s.decoder.lastin = s.lastin := rfl
  unfold pppRecvChar
  cases filled : s.bufin with
  | none =>
    have content : s.decoder.content = none :=
      RcvState.content_none fun j n _ some => by simp [filled] at some
    simp only [Decoder.recv, content, same]
    obtain ⟨linked', start⟩ := openFrame_decoder s
    split
    · exact ⟨linked, rfl⟩
    · split
      · next flag =>
        subst flag
        exact ⟨linked', start⟩
      · have decoded := decodeChar_decoder linked' cc
        rwa [start] at decoded
  | some n =>
    obtain ⟨j, at_⟩ := Option.ne_none_iff_exists'.mp (linked (by simp [filled]))
    simp only [Decoder.recv, RcvState.content_some at_ filled]
    exact decodeChar_decoder linked cc

theorem mark_decoder {s s' : RcvState} {i : Nat} {status : BufStatus} (linked : s.Linked)
    (rcvBuf : s'.rcvBuf = s.rcvBuf) (bufin : s'.bufin = s.bufin) (lastin : s'.lastin = s.lastin)
    (queued : s'.queued = s.queued) (bufs : s'.bufs = s.bufs.mark i status) :
    s'.Linked ∧ s'.decoder = s.decoder := by
  have data (j : Nat) : (s.bufs.mark i status j).data = (s.bufs j).data := by
    by_cases same : j = i
    · subst same
      simp [PppBufs.mark]
    · rw [PppBufs.mark, s.bufs.set_other _ same]
  refine ⟨fun some => ?_, ?_⟩
  · rw [rcvBuf]
    exact linked (by rwa [bufin] at some)
  · simp only [RcvState.decoder, RcvState.content, rcvBuf, bufin, lastin, queued, bufs, data]

/-- The characters of a run. -/
def rcvChars (events : List RcvEvent) : List Byte :=
  events.filterMap fun
    | .char cc => some cc
    | .take => none
    | .done _ => none

/-- **One event of the receive side** decodes its character, whatever the stack does. -/
theorem rcvStep_decodes {s : RcvState} (linked : s.Linked) (event : RcvEvent) :
    (rcvStep s event).Linked ∧
      (rcvStep s event).decoder = (rcvChars [event]).foldl Decoder.recv s.decoder := by
  cases event with
  | char cc => exact pppRecvChar_decoder linked cc
  | take =>
    simp only [rcvStep, takeRcv]
    split
    · exact mark_decoder linked rfl rfl rfl rfl rfl
    · exact ⟨linked, rfl⟩
  | done memory =>
    simp only [rcvStep, doneRcv]
    split
    · exact mark_decoder linked rfl rfl rfl rfl rfl
    · exact ⟨linked, rfl⟩

theorem runEvents_decodes {s : RcvState} (linked : s.Linked) (events : List RcvEvent) :
    (runEvents rcvStep s events).Linked ∧
      (runEvents rcvStep s events).decoder = (rcvChars events).foldl Decoder.recv s.decoder := by
  induction events generalizing s with
  | nil => exact ⟨linked, rfl⟩
  | cons event rest past =>
    obtain ⟨linked', decodes⟩ := rcvStep_decodes linked event
    obtain ⟨linked'', all⟩ := past linked'
    refine ⟨linked'', ?_⟩
    rw [decodes, ← List.foldl_append] at all
    have split : rcvChars (event :: rest) = rcvChars [event] ++ rcvChars rest := by
      cases event <;> rfl
    rw [split]
    exact all

end PosFirmware.Ppp
