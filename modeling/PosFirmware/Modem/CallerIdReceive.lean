import PosFirmware.Modem.CallerId

/-! # What a call signals

What `si_step_rcv_cid` makes of the bytes from the modem. `signalOf` says what the bytes signal:
tones before a ring, a report behind its header, or nothing in time. `siStepRcvCid_silent`,
`siStepRcvCid_tones` and `siStepRcvCid_report` say what is left in `frame_pool` of each.
-/

namespace PosFirmware.Modem.CallerId

open Foundation

/-- Nothing, tones, or a report after some tones. -/
inductive Signal
  | silent
  | tones (tones : List Byte)
  | report (tones : Nat) (rest : List Byte)

/-- What the rest of the bytes signals after an open `0x10` or not, some rings, a tone that is
announced or was given, and some tones. -/
def signalOf : List Byte → Bool → Byte → Nat → List Byte → Signal
  | [], _, _, _, _ => .silent
  | a :: rest, dle, ring, dtmf, tones =>
      if !dle then signalOf rest (decide (a = 0x10)) ring dtmf tones
      else if dtmf = 1 ∧ tones.length < CODE_SIZE then signalOf rest true ring 2 (tones ++ [a])
      else if (if a = 0x2f then 1 else dtmf) = 2 ∧ (if a = 0x52 then ring + 1 else ring) ≠ 0 then
        .tones tones
      else if a = 0x2e then .report tones.length rest
      else signalOf rest false (if a = 0x52 then ring + 1 else ring)
        (if a = 0x2f then 1 else dtmf) tones

/-- What the bytes of a call signal. -/
def signals (rx : List Byte) : Signal := signalOf rx false 0 0 []

variable {s : Collector} {a : Byte} {rx rest got tones : List Byte}

/-! ## Before a report -/

/-- Only tones were received. -/
structure Tones (s : Collector) (tones : List Byte) : Prop where
  count : s.i = tones.length
  few : tones.length ≤ CODE_SIZE
  stored : slice s.dtmfCode 0 tones.length = tones
  codes : ∀ p ∈ s.codes, p < CODE_SIZE
  received : s.received = []
  reads : s.reads = []
  finished : s.finished = false

theorem Tones.tone (has : Tones s tones) (room : tones.length < CODE_SIZE) (a : Byte) :
    Tones (s.tone a) (tones ++ [a]) := by
  have size : (tones ++ [a]).length = tones.length + 1 := by
    rw [List.length_append, List.length_singleton]
  refine ⟨?_, by rw [size]; exact room, ?_, ?_, has.received, has.reads, has.finished⟩
  · rw [size, ← has.count]
    rfl
  · have kept : slice (s.tone a).dtmfCode 0 tones.length = slice s.dtmfCode 0 tones.length :=
      slice_congr fun p below => Function.update_of_ne (by rw [has.count]; omega) _ _
    have last : slice (s.tone a).dtmfCode (0 + tones.length) 1 = [a] := by
      rw [Nat.zero_add, slice_succ, ← has.count]
      exact congrArg (· :: []) (Function.update_self _ _ _)
    rw [size, slice_add, kept, has.stored, last]
  · exact List.forall_mem_cons.mpr ⟨has.count ▸ room, has.codes⟩

theorem Tones.signal (has : Tones s tones) (a : Byte) : Tones (s.signal a) tones :=
  ⟨has.count, has.few, has.stored, has.codes, has.received, has.reads, has.finished⟩

theorem bytes_going (going : (s.byte a).finished = false) :
    Collector.bytes (a :: rest) s = Collector.bytes rest (s.byte a) := by
  rw [Collector.bytes, if_neg (by rw [going]; exact Bool.false_ne_true)]

theorem bytes_finished (finished : (s.byte a).finished = true) :
    Collector.bytes (a :: rest) s = s.byte a := by
  rw [Collector.bytes, if_pos finished]

/-- The collector after the bytes of a call up to a report, or to the end. -/
def Received (rx : List Byte) (s : Collector) : Signal → Prop
  | .silent => ∃ tones, Tones (Collector.bytes rx s) tones
  | .tones tones => ∃ s', Tones s' tones ∧ tones ≠ [] ∧ s'.framePool = s.framePool ∧
      Collector.bytes rx s = s'.toneReport tones
  | .report count rest => ∃ s' tones, Tones s' tones ∧ tones.length = count ∧
      s'.cidFound = true ∧ s'.framePool = s.framePool ∧
      Collector.bytes rx s = Collector.bytes rest s'

theorem Received.step {s' : Collector} {signal : Signal} (received : Received rest s' signal)
    (goes : Collector.bytes (a :: rest) s = Collector.bytes rest s')
    (pool : s'.framePool = s.framePool) : Received (a :: rest) s signal := by
  cases signal with
  | silent =>
      obtain ⟨tones, has⟩ := received
      exact ⟨tones, goes ▸ has⟩
  | tones tones =>
      obtain ⟨last, has, some, frame, ends⟩ := received
      exact ⟨last, has, some, frame.trans pool, goes.trans ends⟩
  | report count rest =>
      obtain ⟨last, tones, has, number, found, frame, ends⟩ := received
      exact ⟨last, tones, has, number, found, frame.trans pool, goes.trans ends⟩

theorem byte_plain (noReport : s.cidFound = false) (closed : s.dleFound = false) (a : Byte) :
    s.byte a = { s with dleFound := decide (a = 0x10) } := by
  rw [Collector.byte, if_neg (by rw [noReport]; exact Bool.false_ne_true),
    if_pos (by rw [closed]; rfl)]

theorem byte_code (noReport : s.cidFound = false) (dle : s.dleFound = true) (a : Byte) :
    s.byte a = if s.dtmfFound = 1 ∧ s.i < CODE_SIZE then s.tone a
      else if (s.signal a).dtmfFound = 2 ∧ (s.signal a).ringFound ≠ 0 then
        (s.signal a).toneReport (slice s.dtmfCode 0 s.i)
      else s.signal a := by
  rw [Collector.byte, if_neg (by rw [noReport]; exact Bool.false_ne_true),
    if_neg (by rw [dle]; exact Bool.false_ne_true)]

theorem signal_two (two : (s.signal a).dtmfFound = 2) : s.dtmfFound = 2 := by
  have found : (if a = 0x2f then 1 else s.dtmfFound) = 2 := two
  split at found
  · exact absurd found (by decide)
  · exact found

theorem Tones.bytes (has : Tones s tones) (noReport : s.cidFound = false)
    (given : s.dtmfFound = 2 → tones ≠ []) :
    Received rx s (signalOf rx s.dleFound s.ringFound s.dtmfFound tones) := by
  induction rx generalizing s tones with
  | nil => exact ⟨tones, has⟩
  | cons a rest ih =>
      cases dle : s.dleFound with
      | false =>
          have byte := byte_plain noReport dle a
          have going : (s.byte a).finished = false := by
            rw [byte]
            exact has.finished
          have tonesNow : Tones (s.byte a) tones := by
            rw [byte]
            exact ⟨has.count, has.few, has.stored, has.codes, has.received, has.reads, has.finished⟩
          refine Received.step ?_ (bytes_going going) (by rw [byte])
          have rest := ih tonesNow (by rw [byte]; exact noReport) (by rw [byte]; exact given)
          rw [byte] at rest ⊢
          exact rest
      | true =>
          have byte := byte_code noReport dle a
          rw [signalOf, if_neg (by decide : ¬(!true) = true)]
          rw [has.count] at byte
          by_cases tone : s.dtmfFound = 1 ∧ tones.length < CODE_SIZE
          · rw [if_pos tone] at byte ⊢
            refine Received.step ?_ (bytes_going (by rw [byte]; exact has.finished)) (by rw [byte]; rfl)
            have rest := ih (byte ▸ has.tone tone.2 a) (by rw [byte]; exact noReport)
              fun _ => List.append_ne_nil_of_right_ne_nil _ (List.cons_ne_nil _ _)
            rw [byte, show (s.tone a).dleFound = true from dle] at rest
            rw [byte]
            exact rest
          rw [if_neg tone] at byte ⊢
          change Received (a :: rest) s
            (if (s.signal a).dtmfFound = 2 ∧ (s.signal a).ringFound ≠ 0 then .tones tones
            else if a = 0x2e then .report tones.length rest
            else signalOf rest false (s.signal a).ringFound (s.signal a).dtmfFound tones)
          by_cases rings : (s.signal a).dtmfFound = 2 ∧ (s.signal a).ringFound ≠ 0
          · rw [if_pos rings, has.stored] at byte
            rw [if_pos rings]
            refine ⟨s.signal a, has.signal a, given (signal_two rings.1), rfl, ?_⟩
            rw [bytes_finished (by rw [byte]; rfl), byte]
          rw [if_neg rings] at byte ⊢
          have going : (s.byte a).finished = false := by
            rw [byte]
            exact has.finished
          by_cases header : a = 0x2e
          · rw [if_pos header]
            refine ⟨s.signal a, tones, has.signal a, rfl, decide_eq_true header, rfl, ?_⟩
            rw [bytes_going going, byte]
          · rw [if_neg header]
            refine Received.step ?_ (bytes_going going) (by rw [byte]; rfl)
            rw [byte]
            exact ih (has.signal a) (decide_eq_false header) fun two => given (signal_two two)

/-! ## A report -/

/-- The bytes up to a closing text, and whether it came. -/
def untilText (text : List Byte) : List Byte → List Byte → List Byte × Bool
  | got, [] => (got, false)
  | got, a :: rest =>
      if text <:+ got ++ [a] then (got ++ [a], true) else untilText text (got ++ [a]) rest

/-- Some bytes of a report were received. -/
structure Reporting (framePool : Buffer) (got : List Byte) (s : Collector) : Prop where
  found : s.cidFound = true
  count : s.i = got.length
  frame : s.framePool = blit framePool 0 got
  received : ∀ p, p ∈ s.received ↔ p < got.length
  codes : ∀ p ∈ s.codes, p < CODE_SIZE
  reads : ∀ p ∈ s.reads, p < got.length

variable {framePool : Buffer}

theorem byte_report (found : s.cidFound = true) (a : Byte) : s.byte a = s.reportByte a := by
  rw [Collector.byte, if_pos found]

theorem blit_snoc : Function.update (blit framePool 0 got) got.length a =
    blit framePool 0 (got ++ [a]) := by
  have whole := blit_append framePool 0 got [a]
  rw [Nat.zero_add, blit_singleton] at whole
  exact whole

theorem last_slice (framePool : Buffer) (text : List Byte) : (text.length ≤ got.length ∧
      slice (blit framePool 0 got) (got.length - text.length) text.length = text) ↔
    text <:+ got := by
  rw [List.suffix_iff_eq_drop]
  have inside : text.length ≤ got.length →
      slice (blit framePool 0 got) (got.length - text.length) text.length =
        got.drop (got.length - text.length) := fun fits => by
    have part := @slice_blit_inside _ framePool 0 (got.length - text.length) text.length got
      (by omega)
    rw [Nat.zero_add] at part
    rw [part, List.take_of_length_le]
    rw [List.length_drop]
    omega
  constructor
  · rintro ⟨fits, same⟩
    exact same.symm.trans (inside fits)
  · intro same
    have fits : text.length ≤ got.length := by
      have := congrArg List.length same
      rw [List.length_drop] at this
      omega
    exact ⟨fits, (inside fits).trans same.symm⟩

theorem Reporting.byte (has : Reporting framePool got s) (room : got.length < FRAME_SIZE)
    (a : Byte) : Reporting framePool (got ++ [a]) (s.byte a) ∧
      (s.byte a).finished = decide (endOfReport <:+ got ++ [a]) := by
  have size : (got ++ [a]).length = got.length + 1 := by
    rw [List.length_append, List.length_singleton]
  have next : (s.i + 1) % 65536 = (got ++ [a]).length := by
    rw [size, has.count]
    exact Nat.mod_eq_of_lt (Nat.lt_of_lt_of_le (Nat.succ_lt_succ room) (by decide))
  have frame : Function.update s.framePool s.i a = blit framePool 0 (got ++ [a]) := by
    rw [has.frame, has.count, blit_snoc]
  rw [byte_report has.found]
  constructor
  · refine ⟨has.found, next, frame, fun p => ?_, has.codes, fun p member => ?_⟩
    · rw [size, Nat.lt_succ_iff_lt_or_eq, ← has.received, or_comm, ← has.count]
      exact List.mem_cons
    · change p ∈ if 14 ≤ (s.i + 1) % 65536 then
          List.range' ((s.i + 1) % 65536 - 14) 14 ++ s.reads else s.reads at member
      rw [next] at member
      have later : ∀ p ∈ s.reads, p < (got ++ [a]).length := fun p member => by
        rw [size]
        exact Nat.lt_succ_of_lt (has.reads p member)
      split at member
      · rcases List.mem_append.mp member with now | before
        · have := List.mem_range'_1.mp now
          omega
        · exact later p before
      · exact later p member
  · change decide (14 ≤ (s.i + 1) % 65536 ∧ slice (Function.update s.framePool s.i a)
      ((s.i + 1) % 65536 - 14) 14 = endOfReport) = _
    rw [next, frame]
    exact decide_eq_decide.mpr (last_slice framePool endOfReport)

theorem received_mono (found : s.cidFound = true) {p : Nat} (member : p ∈ s.received) :
    p ∈ (Collector.bytes rest s).received := by
  induction rest generalizing s with
  | nil => exact member
  | cons a rest ih =>
      have more : p ∈ (s.byte a).received := by
        rw [byte_report found]
        exact List.mem_cons_of_mem _ member
      cases ends : (s.byte a).finished with
      | true => rwa [bytes_finished ends]
      | false =>
          rw [bytes_going ends]
          exact ih (by rw [byte_report found]; exact found) more

theorem untilText_length {text : List Byte} :
    got.length ≤ (untilText text got rest).1.length := by
  induction rest generalizing got with
  | nil => exact Nat.le_refl _
  | cons a rest ih =>
      rw [untilText]
      split
      · rw [List.length_append]
        exact Nat.le_add_right _ _
      · have longer := @ih (got ++ [a])
        rw [List.length_append] at longer
        exact Nat.le_of_succ_le longer

theorem Reporting.bytes (has : Reporting framePool got s)
    (room : (untilText endOfReport got rest).1.length < FRAME_SIZE) (going : s.finished = false) :
    Reporting framePool (untilText endOfReport got rest).1 (Collector.bytes rest s) ∧
      (Collector.bytes rest s).finished = (untilText endOfReport got rest).2 := by
  induction rest generalizing s got with
  | nil => exact ⟨has, going⟩
  | cons a rest ih =>
      have before := Nat.lt_of_le_of_lt untilText_length room
      obtain ⟨next, ends⟩ := has.byte before a
      rw [untilText] at room ⊢
      by_cases closed : endOfReport <:+ got ++ [a]
      · rw [if_pos closed]
        rw [decide_eq_true closed] at ends
        rw [bytes_finished ends]
        exact ⟨next, ends⟩
      · rw [if_neg closed] at room ⊢
        rw [decide_eq_false closed] at ends
        rw [bytes_going ends]
        exact ih next room ends

theorem Reporting.overflow (has : Reporting framePool got s) (within : got.length ≤ FRAME_SIZE)
    (long : FRAME_SIZE ≤ (untilText endOfReport got rest).1.length) :
    ∃ p ∈ (Collector.bytes rest s).i :: (Collector.bytes rest s).received, FRAME_SIZE ≤ p := by
  induction rest generalizing s got with
  | nil => exact ⟨s.i, List.mem_cons_self, has.count ▸ long⟩
  | cons a rest ih =>
      rcases Nat.lt_or_eq_of_le within with more | full
      · obtain ⟨next, ends⟩ := has.byte more a
        have size : (got ++ [a]).length = got.length + 1 := by
          rw [List.length_append, List.length_singleton]
        rw [untilText] at long
        by_cases closed : endOfReport <:+ got ++ [a]
        · rw [if_pos closed] at long
          rw [decide_eq_true closed] at ends
          rw [bytes_finished ends]
          exact ⟨(s.byte a).i, List.mem_cons_self, next.count ▸ long⟩
        · rw [if_neg closed] at long
          rw [decide_eq_false closed] at ends
          rw [bytes_going ends]
          exact ih next (by rw [size]; exact more) long
      · have here : FRAME_SIZE ∈ (s.byte a).received := by
          rw [byte_report has.found, ← full, ← has.count]
          exact List.mem_cons_self
        have found : (s.byte a).cidFound = true := by
          rw [byte_report has.found]
          exact has.found
        refine ⟨FRAME_SIZE, List.mem_cons_of_mem _ ?_, Nat.le_refl _⟩
        cases ends : (s.byte a).finished with
        | true => rwa [bytes_finished ends]
        | false =>
            rw [bytes_going ends]
            exact received_mono found here

/-! ## A report behind tones -/

theorem bytes_few (found : s.cidFound = true) (few : s.i + rest.length < 14)
    (going : s.finished = false) (below : ∀ p ∈ s.received, p < s.i) :
    (Collector.bytes rest s).finished = false ∧ (Collector.bytes rest s).reads = s.reads ∧
      (Collector.bytes rest s).codes = s.codes ∧ (Collector.bytes rest s).i < 14 ∧
      ∀ p ∈ (Collector.bytes rest s).received, p < (Collector.bytes rest s).i := by
  induction rest generalizing s with
  | nil => exact ⟨going, rfl, rfl, few, below⟩
  | cons a rest ih =>
      rw [List.length_cons] at few
      have byte := byte_report found a
      have next : (s.byte a).i = s.i + 1 := by
        rw [byte]
        exact Nat.mod_eq_of_lt (by omega)
      have short : ¬14 ≤ (s.i + 1) % 65536 := by
        rw [Nat.mod_eq_of_lt (by omega)]
        omega
      have going' : (s.byte a).finished = false := by
        rw [byte]
        exact decide_eq_false fun ends => short ends.1
      have unread : (s.byte a).reads = s.reads := by
        rw [byte]
        exact if_neg short
      have codes : (s.byte a).codes = s.codes := by
        rw [byte]
        rfl
      obtain ⟨ends, reads, same, count, later⟩ := ih (s := s.byte a) (by rw [byte]; exact found)
        (by rw [next]; omega) going' fun p member => by
          rw [next]
          rw [byte] at member
          rcases List.mem_cons.mp member with rfl | before
          · exact Nat.lt_succ_self _
          · exact Nat.lt_succ_of_lt (below p before)
      rw [bytes_going going']
      exact ⟨ends, reads.trans unread, same.trans codes, count, later⟩

theorem reads_mono (found : s.cidFound = true) {p : Nat} (member : p ∈ s.reads) :
    p ∈ (Collector.bytes rest s).reads := by
  induction rest generalizing s with
  | nil => exact member
  | cons a rest ih =>
      have more : p ∈ (s.byte a).reads := by
        rw [byte_report found]
        change p ∈ if 14 ≤ (s.i + 1) % 65536 then _ ++ s.reads else s.reads
        split
        · exact List.mem_append_right _ member
        · exact member
      cases ends : (s.byte a).finished with
      | true => rwa [bytes_finished ends]
      | false =>
          rw [bytes_going ends]
          exact ih (by rw [byte_report found]; exact found) more

theorem bytes_stale {count : Nat} (found : s.cidFound = true) (some : rest ≠ [])
    (positive : 0 < count) (early : s.i = count ∨ s.i < 14) (few : s.i ≤ CODE_SIZE)
    (enough : 14 ≤ s.i + rest.length) : ∃ p < count, p ∈ (Collector.bytes rest s).reads := by
  induction rest generalizing s with
  | nil => exact absurd rfl some
  | cons a rest ih =>
      have byte := byte_report found a
      have small : s.i + 1 < 65536 := Nat.lt_of_le_of_lt (Nat.succ_le_succ few) (by decide)
      have next : (s.i + 1) % 65536 = s.i + 1 := Nat.mod_eq_of_lt small
      have foundNext : (s.byte a).cidFound = true := by
        rw [byte]
        exact found
      rcases Nat.lt_or_ge (s.i + 1) 14 with short | compared
      · have going' : (s.byte a).finished = false := by
          rw [byte]
          refine decide_eq_false fun ends => ?_
          rw [next] at ends
          exact absurd ends.1 (Nat.not_le.mpr short)
        have count : (s.byte a).i = s.i + 1 := by
          rw [byte]
          exact next
        rw [List.length_cons] at enough
        rw [bytes_going going']
        refine ih foundNext (fun empty => ?_) (.inr (by omega)) ?_ (by omega)
        · rw [empty, List.length_nil] at enough
          omega
        · rw [count]
          exact Nat.le_trans (Nat.le_of_lt short) (by decide)
      · have stale : s.i + 1 - 14 ∈ (s.byte a).reads := by
          rw [byte]
          change _ ∈ if 14 ≤ (s.i + 1) % 65536 then
            List.range' ((s.i + 1) % 65536 - 14) 14 ++ s.reads else s.reads
          rw [next, if_pos compared]
          exact List.mem_append_left _ (List.mem_range'_1.mpr ⟨Nat.le_refl _, by omega⟩)
        refine ⟨s.i + 1 - 14, by omega, ?_⟩
        cases ends : (s.byte a).finished with
        | true => rwa [bytes_finished ends]
        | false =>
            rw [bytes_going ends]
            exact reads_mono foundNext stale

theorem bytes_low (rest : List Byte) {count : Nat} (found : s.cidFound = true) (start : count ≤ s.i)
    (within : s.i ≤ FRAME_SIZE) (low : ∀ p ∈ s.received, count ≤ p) :
    (∀ p ∈ (Collector.bytes rest s).received, count ≤ p) ∨
      ∃ p ∈ (Collector.bytes rest s).received, FRAME_SIZE ≤ p := by
  induction rest generalizing s with
  | nil => exact .inl low
  | cons a rest ih =>
      have byte := byte_report found a
      have foundNext : (s.byte a).cidFound = true := by
        rw [byte]
        exact found
      have lowNext : ∀ p ∈ (s.byte a).received, count ≤ p := by
        rw [byte]
        exact List.forall_mem_cons.mpr ⟨start, low⟩
      have here : s.i ∈ (s.byte a).received := by
        rw [byte]
        exact List.mem_cons_self
      cases ends : (s.byte a).finished with
      | true =>
          rw [bytes_finished ends]
          exact .inl lowNext
      | false =>
          rw [bytes_going ends]
          rcases Nat.lt_or_eq_of_le within with more | full
          · have next : (s.byte a).i = s.i + 1 := by
              rw [byte]
              exact Nat.mod_eq_of_lt (Nat.lt_of_le_of_lt more (by decide))
            exact ih foundNext (by rw [next]; exact Nat.le_succ_of_le start)
              (by rw [next]; exact more) lowNext
          · exact .inr ⟨s.i, received_mono foundNext here, Nat.le_of_eq full.symm⟩

/-! ## Tones -/

theorem trimLeading_le : (trimLeading tones).length ≤ tones.length := by
  rw [trimLeading]
  split
  · rw [List.length_tail]
    exact Nat.sub_le _ _
  · exact Nat.le_refl _

theorem trimTail_length : (trimTail tones).length ≤ tones.length ∧
    tones.length ≤ (trimTail tones).length + 1 := by
  rw [trimTail]
  split
  · rw [List.length_dropLast]
    omega
  · omega

theorem trimTail_prefix : trimTail tones <+: tones := by
  rw [trimTail]
  split
  · exact List.dropLast_prefix _
  · exact List.prefix_refl _

theorem trim_ne_nil (some : tones ≠ []) : trimTail (trimLeading tones) ≠ [] := by
  have leading : trimLeading tones ≠ [] := by
    rw [trimLeading]
    split
    next many =>
      refine List.ne_nil_of_length_pos ?_
      rw [List.length_tail]
      omega
    next => exact some
  rw [trimTail]
  split
  next many =>
    refine List.ne_nil_of_length_pos ?_
    rw [List.length_dropLast]
    omega
  next => exact leading

theorem noCarrier_length : noCarrier.length = 12 := by decide

/-- The pool after tones. -/
def toneFrame (framePool : Buffer) (tones : List Byte) : Buffer :=
  Function.update (blit (blit framePool 0 (ascii "DTMF:" ++ trimLeading tones))
    (5 + (trimTail (trimLeading tones)).length) noCarrier)
    ((trimTail (trimLeading tones)).length + 17) 0

theorem toneFrame_parts (framePool : Buffer) (tones : List Byte) :
    slice (toneFrame framePool tones) 0 5 = ascii "DTMF:" ∧
    slice (toneFrame framePool tones) 5 (trimTail (trimLeading tones)).length =
      trimTail (trimLeading tones) ∧
    slice (toneFrame framePool tones) (5 + (trimTail (trimLeading tones)).length) 12 =
      noCarrier := by
  have five : (ascii "DTMF:").length = 5 := by decide
  have shorter := (@trimTail_length (trimLeading tones)).1
  have before : ∀ start n, start + n ≤ 5 + (trimTail (trimLeading tones)).length →
      slice (toneFrame framePool tones) start n =
        slice (blit framePool 0 (ascii "DTMF:" ++ trimLeading tones)) start n := by
    intro start n within
    rw [← @slice_blit_outside _ (blit framePool 0 (ascii "DTMF:" ++ trimLeading tones)) _ _ _
      noCarrier (.inl within)]
    exact slice_congr fun p below => Function.update_of_ne (by omega) _ _
  refine ⟨?_, ?_, ?_⟩
  · rw [before 0 5 (by omega)]
    have part := @slice_blit_inside _ framePool 0 0 5 (ascii "DTMF:" ++ trimLeading tones)
      (by rw [List.length_append]; omega)
    rw [List.drop_zero] at part
    exact part.trans (List.take_left' five)
  · rw [before 5 _ (Nat.le_refl _)]
    have part := @slice_blit_inside _ framePool 0 5 (trimTail (trimLeading tones)).length
      (ascii "DTMF:" ++ trimLeading tones) (by rw [List.length_append]; omega)
    rw [Nat.zero_add, List.drop_left' five] at part
    exact part.trans (List.prefix_iff_eq_take.mp trimTail_prefix).symm
  · rw [← @slice_blit_self _ (blit framePool 0 (ascii "DTMF:" ++ trimLeading tones))
      (5 + (trimTail (trimLeading tones)).length) noCarrier, noCarrier_length]
    exact slice_congr fun p below => Function.update_of_ne (by omega) _ _

/-! ## A call -/

theorem start_tones (framePool dtmfCode : Buffer) :
    Tones (Collector.start framePool dtmfCode) [] :=
  ⟨rfl, Nat.zero_le _, rfl, fun _ member => absurd member List.not_mem_nil, rfl, rfl, rfl⟩

theorem start_received (framePool dtmfCode : Buffer) (rx : List Byte) :
    Received rx (Collector.start framePool dtmfCode) (signals rx) :=
  (start_tones framePool dtmfCode).bytes rfl fun two => absurd two (show ¬(0 : Nat) = 2 by decide)

theorem siStepRcvCid_silent (framePool dtmfCode : Buffer) (silent : signals rx = .silent) :
    ∃ tones, Tones (siStepRcvCid framePool dtmfCode rx) tones := by
  have received := start_received framePool dtmfCode rx
  rw [silent] at received
  obtain ⟨tones, has⟩ := received
  exact ⟨tones, has.count, has.few, has.stored, has.codes, has.received, has.reads, has.finished⟩

/-- What tones leave. -/
structure ToneCall (framePool : Buffer) (tones : List Byte) (s : Collector) : Prop where
  finished : s.finished = true
  few : tones.length ≤ CODE_SIZE
  some : tones ≠ []
  count : s.i = (trimTail (trimLeading tones)).length + 17
  frame : s.framePool = toneFrame framePool tones
  received : s.received = List.range ((trimTail (trimLeading tones)).length + 17)
  codes : ∀ p ∈ s.codes, p < CODE_SIZE
  reads : ∀ p ∈ s.reads, p < (trimTail (trimLeading tones)).length + 17

theorem siStepRcvCid_tones (framePool dtmfCode : Buffer) (given : signals rx = .tones tones) :
    ToneCall framePool tones (siStepRcvCid framePool dtmfCode rx) := by
  have received := start_received framePool dtmfCode rx
  rw [given] at received
  obtain ⟨s, has, some, pool, ends⟩ := received
  have frame : s.framePool = framePool := pool
  rw [siStepRcvCid, ends]
  refine ⟨rfl, has.few, some, rfl, ?_, rfl, has.codes, fun p member => ?_⟩
  · rw [toneFrame, ← frame]
    rfl
  · change p ∈ if 2 < (trimLeading tones).length then
      ((trimLeading tones).length + 4) :: s.reads else s.reads at member
    rw [has.reads] at member
    have shorter := (@trimTail_length (trimLeading tones)).2
    split at member
    · rw [List.mem_singleton] at member
      omega
    · exact absurd member List.not_mem_nil

theorem Tones.reporting (has : Tones s []) (found : s.cidFound = true) :
    Reporting s.framePool [] s := by
  refine ⟨found, has.count, ?_, fun p => ?_, has.codes, fun p member => ?_⟩
  · funext p
    rw [blit, if_pos (Nat.zero_le _)]
    rfl
  · rw [has.received]
    exact iff_of_false List.not_mem_nil (Nat.not_lt_zero _)
  · rw [has.reads] at member
    exact absurd member List.not_mem_nil

/-- What a report leaves. -/
structure ReportCall (framePool : Buffer) (got : List Byte) (s : Collector) : Prop where
  count : s.i = got.length
  frame : s.framePool = blit framePool 0 (got ++ [0])
  received : ∀ p, p ∈ s.received ↔ p < got.length
  codes : ∀ p ∈ s.codes, p < CODE_SIZE
  reads : ∀ p ∈ s.reads, p < got.length

theorem siStepRcvCid_report (framePool dtmfCode : Buffer) (given : signals rx = .report 0 rest)
    (room : (untilText endOfReport [] rest).1.length < FRAME_SIZE) :
    ReportCall framePool (untilText endOfReport [] rest).1 (siStepRcvCid framePool dtmfCode rx) ∧
      (siStepRcvCid framePool dtmfCode rx).finished = (untilText endOfReport [] rest).2 := by
  have received := start_received framePool dtmfCode rx
  rw [given] at received
  obtain ⟨s, tones, has, none, found, pool, ends⟩ := received
  obtain rfl := List.length_eq_zero_iff.mp none
  have frame : s.framePool = framePool := pool
  obtain ⟨whole, finished⟩ := (frame ▸ has.reporting found).bytes room has.finished
  rw [siStepRcvCid, ends]
  refine ⟨⟨whole.count, ?_, whole.received, whole.codes, whole.reads⟩, finished⟩
  change Function.update _ _ _ = _
  rw [whole.count, whole.frame, blit_snoc]

theorem siStepRcvCid_overflow (framePool dtmfCode : Buffer) (given : signals rx = .report 0 rest)
    (long : FRAME_SIZE ≤ (untilText endOfReport [] rest).1.length) :
    ∃ p ∈ (siStepRcvCid framePool dtmfCode rx).i :: (siStepRcvCid framePool dtmfCode rx).received,
      FRAME_SIZE ≤ p := by
  have received := start_received framePool dtmfCode rx
  rw [given] at received
  obtain ⟨s, tones, has, none, found, pool, ends⟩ := received
  obtain rfl := List.length_eq_zero_iff.mp none
  rw [siStepRcvCid, ends]
  exact (has.reporting found).overflow (Nat.zero_le _) long

theorem siStepRcvCid_few (framePool dtmfCode : Buffer) {count : Nat} (given : signals rx = .report count rest)
    (few : rest = [] ∨ count + rest.length < 14) :
    (siStepRcvCid framePool dtmfCode rx).finished = false ∧
      (siStepRcvCid framePool dtmfCode rx).reads = [] ∧
      (∀ p ∈ (siStepRcvCid framePool dtmfCode rx).codes, p < CODE_SIZE) ∧
      ∀ p ∈ (siStepRcvCid framePool dtmfCode rx).i :: (siStepRcvCid framePool dtmfCode rx).received,
        p < FRAME_SIZE := by
  have received := start_received framePool dtmfCode rx
  rw [given] at received
  obtain ⟨s, tones, has, number, found, pool, ends⟩ := received
  rw [siStepRcvCid, ends]
  rcases few with rfl | few
  · refine ⟨has.finished, has.reads, has.codes, List.forall_mem_cons.mpr ⟨?_, fun p member => ?_⟩⟩
    · exact Nat.lt_of_le_of_lt (Nat.le_trans (Nat.le_of_eq has.count) has.few) (by decide)
    · exact absurd (has.received ▸ member) List.not_mem_nil
  · have below : ∀ p ∈ s.received, p < s.i := fun p member =>
      absurd (has.received ▸ member) List.not_mem_nil
    have short : s.i + rest.length < 14 := by rwa [has.count, number]
    obtain ⟨going, reads, codes, last, inside⟩ := bytes_few found short has.finished below
    refine ⟨going, reads.trans has.reads, ?_, List.forall_mem_cons.mpr ⟨?_, fun p member => ?_⟩⟩
    · exact fun p member => has.codes p (codes ▸ member)
    · exact Nat.lt_trans last (by decide)
    · exact Nat.lt_trans (Nat.lt_trans (inside p member) last) (by decide)

theorem siStepRcvCid_stale (framePool dtmfCode : Buffer) {count : Nat}
    (given : signals rx = .report (count + 1) rest) (some : rest ≠ [])
    (many : 14 ≤ count + 1 + rest.length) :
    (∃ p ∈ (siStepRcvCid framePool dtmfCode rx).reads,
        p ∉ (siStepRcvCid framePool dtmfCode rx).received) ∨
      ∃ p ∈ (siStepRcvCid framePool dtmfCode rx).received, FRAME_SIZE ≤ p := by
  have received := start_received framePool dtmfCode rx
  rw [given] at received
  obtain ⟨s, tones, has, number, found, pool, ends⟩ := received
  have start : s.i = count + 1 := has.count.trans number
  have few : s.i ≤ CODE_SIZE := Nat.le_trans (Nat.le_of_eq has.count) has.few
  rw [siStepRcvCid, ends]
  obtain ⟨p, low, stale⟩ := bytes_stale found some (Nat.succ_pos count) (.inl start) few
    (by rwa [start])
  rcases bytes_low rest found (Nat.le_of_eq start.symm)
    (Nat.le_trans few (by decide)) (fun p member => absurd (has.received ▸ member) List.not_mem_nil)
    with inside | outside
  · exact .inl ⟨p, stale, fun member => absurd (inside p member) (Nat.not_le.mpr low)⟩
  · exact .inr outside

end PosFirmware.Modem.CallerId
