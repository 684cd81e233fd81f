import PosFirmware.Modem.CallerIdReceive

/-! # Which reports of a number are safe

`siCalleeConnect_safe_iff` and `cxCalleeConnect_safe_iff`: which bytes from the modem make a call
write inside the pool, read only what was received and end.
-/

namespace PosFirmware.Modem.CallerId

open Foundation

/-- The size of `tmps`. -/
def TMPS_SIZE : Nat := 40

/-- A report reads only what was received, writes inside its buffers and ends. -/
structure Report.Safe (report : Report) (size : Nat) : Prop where
  reads : ∀ p ∈ report.reads, p < size
  writes : ∀ p ∈ report.writes, p < FRAME_SIZE
  tmps : report.tmps ≤ TMPS_SIZE
  ended : report.ended = true

/-- A call with a silicon modem receives inside its buffers, and its report is safe. -/
structure SiSafe (call : Collector × Report) : Prop where
  pool : ∀ p ∈ call.1.i :: call.1.received, p < FRAME_SIZE
  codes : ∀ p ∈ call.1.codes, p < CODE_SIZE
  compared : ∀ p ∈ call.1.reads, p ∈ call.1.received
  reads : ∀ p ∈ call.2.reads, p ∈ call.1.received
  writes : ∀ p ∈ call.2.writes, p < FRAME_SIZE
  tmps : call.2.tmps ≤ TMPS_SIZE
  ended : call.2.ended = true

/-! ## A silicon modem -/

/-- The time and the number end inside what was received. -/
structure FieldsFit (frame : Buffer) (dn size : Nat) : Prop where
  time : (siSeek frame dn 1).stop < dn → (siSeek frame dn 1).stop + 10 ≤ size
  number : (siSeek frame dn 2).stop < dn →
    (siSeek frame dn 2).stop + 2 + (frame ((siSeek frame dn 2).stop + 1)).toNat ≤ size

/-- What is put out of a report was received. -/
def FormatFits (frame : Buffer) (dn size i : Nat) : Prop :=
  if 11 ≤ dn ∧ slice frame 0 7 = ascii "\r\nCIDM" ++ [0x04] then True
  else if 11 ≤ dn ∧ slice frame 0 7 = ascii "\r\nCIDM" ++ [0x80] then FieldsFit frame dn size
  else if 5 ≤ dn ∧ slice frame 0 5 = ascii "DTMF:" then
    (dn - 5) % 256 = 0 ∨ i + 5 + (dn - 5) % 256 ≤ size
  else True

/-- Tones come when no report left anything in `i` that leads behind them. A report comes before any
tone, is closed before the pool is full and holds what is put out of it; behind tones it breaks off
at once. -/
def SiFits (answerInterface : Bool) (framePool : Buffer) (i : Nat) : Signal → Prop
  | .silent => True
  | .tones _ => answerInterface = true ∨ i ≤ 12
  | .report 0 rest => (untilText endOfReport [] rest).1.length < FRAME_SIZE ∧
      ((untilText endOfReport [] rest).2 = true → answerInterface = true ∨
        FormatFits (blit framePool 0 ((untilText endOfReport [] rest).1 ++ [0]))
          ((untilText endOfReport [] rest).1.length - 12) (untilText endOfReport [] rest).1.length i)
  | .report (count + 1) rest => rest = [] ∨ count + 1 + rest.length < 14

variable {frame framePool : Buffer} {dn size i : Nat} {tag : Byte}

theorem hexDigits_length (places n : Nat) : (hexDigits places n).length ≤ places + 1 := by
  induction places generalizing n with
  | zero => exact Nat.le_refl _
  | succ places ih =>
      rw [hexDigits]
      split
      · exact Nat.succ_le_succ (Nat.zero_le _)
      · rw [List.length_append, List.length_singleton]
        exact Nat.succ_le_succ (ih _)

theorem sprintf02X_length (n : Nat) : (sprintf02X n).length ≤ 8 := by
  rw [sprintf02X]
  split
  · exact Nat.le_of_ble_eq_true rfl
  · exact hexDigits_length 7 n

theorem siSeek_ended (small : dn ≤ FRAME_SIZE) : (siSeek frame dn tag).ended = true := by
  refine seek_ended (fun p below => ?_) (Nat.le_add_left _ _)
  have length := (frame (p + 1)).isLt
  have bound : p + ((frame (p + 1)).toNat + 2) < 65536 := by
    have : FRAME_SIZE = 2060 := rfl
    omega
  rw [Nat.mod_eq_of_lt bound]
  omega

theorem siSeek_reads : ∀ p ∈ (siSeek frame dn tag).visited.flatMap (fun p => [p, p + 1]),
    p < dn + 12 := by
  intro p member
  obtain ⟨q, visited, near⟩ := List.mem_flatMap.mp member
  have below := seek_visited visited
  rcases List.mem_cons.mp near with rfl | near
  · omega
  · rw [List.mem_singleton] at near
    omega

theorem range'_inside {start count size : Nat} :
    (∀ p ∈ List.range' start count, p < size) ↔ count = 0 ∨ start + count ≤ size := by
  constructor
  · intro inside
    rcases Nat.eq_zero_or_pos count with none | some
    · exact .inl none
    · have last := inside (start + (count - 1)) (List.mem_range'_1.mpr ⟨by omega, by omega⟩)
      omega
  · intro fits p member
    have := List.mem_range'_1.mp member
    omega

theorem siComplex_reads : (∀ p ∈ (siComplex frame dn).reads, p < dn + 12) ↔
    FieldsFit frame dn (dn + 12) := by
  rw [siComplex]
  rw [List.forall_mem_append, List.forall_mem_append, List.forall_mem_append]
  constructor
  · rintro ⟨⟨-, time⟩, number⟩
    refine ⟨fun found => ?_, fun found => ?_⟩
    · rw [if_pos found, range'_inside] at time
      omega
    · rw [if_pos found, range'_inside] at number
      omega
  · rintro ⟨time, number⟩
    refine ⟨⟨⟨siSeek_reads, siSeek_reads⟩, ?_⟩, ?_⟩
    · split
      next found =>
        have := time found
        exact range'_inside.mpr (by omega)
      next => exact fun p member => absurd member List.not_mem_nil
    · split
      next found =>
        have := number found
        exact range'_inside.mpr (by omega)
      next => exact fun p member => absurd member List.not_mem_nil

theorem siFormat_safe_iff (small : dn ≤ FRAME_SIZE) :
    (siFormat frame dn i).Safe (dn + 12) ↔ FormatFits frame dn (dn + 12) i := by
  rw [siFormat, FormatFits]
  split
  · refine iff_of_true ⟨?_, ?_, ?_, rfl⟩ trivial
    · exact range'_inside.mpr (by omega)
    · exact fun p member => absurd member List.not_mem_nil
    · exact Nat.le_of_ble_eq_true rfl
  split
  · refine ⟨fun safe => siComplex_reads.mp safe.reads,
      fun fits => ⟨siComplex_reads.mpr fits, ?_, ?_, ?_⟩⟩
    · exact fun p member => absurd member List.not_mem_nil
    · exact Nat.le_of_ble_eq_true rfl
    · change ((siSeek frame dn 2).ended && (siSeek frame dn 1).ended) = true
      rw [siSeek_ended small, siSeek_ended small]
      rfl
  split
  · refine ⟨fun safe => range'_inside.mp safe.reads,
      fun fits => ⟨range'_inside.mpr fits, ?_, ?_, rfl⟩⟩
    · exact fun p member => absurd member List.not_mem_nil
    · have short := sprintf02X_length (dn - 5 + 16)
      exact Nat.max_le.mpr ⟨by decide, Nat.le_trans (Nat.succ_le_succ short) (by decide)⟩
  · refine iff_of_true ⟨?_, ?_, ?_, rfl⟩ trivial
    · intro p member
      have := List.mem_range.mp member
      omega
    · exact fun p member => absurd member List.not_mem_nil
    · exact Nat.le_of_ble_eq_true rfl

theorem formatReads_inside : ∀ p ∈ formatReads dn, p < dn := by
  intro p member
  rw [formatReads] at member
  split at member
  · have := List.mem_range.mp member
    omega
  split at member
  · have := List.mem_range.mp member
    omega
  · exact absurd member List.not_mem_nil

theorem nothing_safe (i size : Nat) : (Report.nothing i).Safe size := by
  refine ⟨?_, ?_, Nat.zero_le _, rfl⟩
  · exact fun p member => absurd member List.not_mem_nil
  · exact fun p member => absurd member List.not_mem_nil

theorem siReport_safe_iff (answerInterface : Bool) (small : dn + 12 < FRAME_SIZE)
    (closed : slice frame dn 12 = noCarrier) :
    (siReport answerInterface frame (dn + 12) i).Safe (dn + 12) ↔
      answerInterface = true ∨ FormatFits frame dn (dn + 12) i := by
  cases answerInterface with
  | true => exact iff_of_true (nothing_safe _ _) (.inl rfl)
  | false =>
      have cut : trimmed frame (dn + 12) = dn := by
        rw [trimmed, Nat.add_sub_cancel, if_pos ⟨Nat.le_add_left _ _, closed⟩]
      rw [or_iff_right Bool.false_ne_true, ← siFormat_safe_iff (by omega), siReport,
        if_pos ⟨by omega, rfl⟩, cut, if_pos (Nat.le_add_left _ _), Nat.add_sub_cancel]
      have front : ∀ p ∈ List.range' dn 12 ++ formatReads dn, p < dn + 12 :=
        List.forall_mem_append.mpr ⟨range'_inside.mpr (.inr (Nat.le_refl _)),
          fun p member => Nat.lt_of_lt_of_le (formatReads_inside p member) (Nat.le_add_right _ _)⟩
      constructor
      · rintro ⟨reads, writes, tmps, ended⟩
        exact ⟨(List.forall_mem_append.mp reads).2, writes, tmps, ended⟩
      · rintro ⟨reads, writes, tmps, ended⟩
        exact ⟨List.forall_mem_append.mpr ⟨front, reads⟩, writes, tmps, ended⟩

theorem siSafe_nothing {s : Collector} (pool : ∀ p ∈ s.i :: s.received, p < FRAME_SIZE)
    (codes : ∀ p ∈ s.codes, p < CODE_SIZE) (compared : ∀ p ∈ s.reads, p ∈ s.received) :
    SiSafe (s, .nothing i) := by
  refine ⟨pool, codes, compared, ?_, ?_, Nat.zero_le _, rfl⟩
  · exact fun p member => absurd member List.not_mem_nil
  · exact fun p member => absurd member List.not_mem_nil

theorem siSafe_report {s : Collector} {report : Report} (pool : size < FRAME_SIZE)
    (count : s.i = size) (received : ∀ p, p ∈ s.received ↔ p < size)
    (codes : ∀ p ∈ s.codes, p < CODE_SIZE) (compared : ∀ p ∈ s.reads, p < size) :
    SiSafe (s, report) ↔ report.Safe size := by
  constructor
  · rintro ⟨-, -, -, reads, writes, tmps, ended⟩
    exact ⟨fun p member => (received p).mp (reads p member), writes, tmps, ended⟩
  · rintro ⟨reads, writes, tmps, ended⟩
    refine ⟨?_, codes, ?_, ?_, writes, tmps, ended⟩
    · refine List.forall_mem_cons.mpr ⟨count ▸ pool, fun p member => ?_⟩
      exact Nat.lt_trans ((received p).mp member) pool
    · exact fun p member => (received p).mpr (compared p member)
    · exact fun p member => (received p).mpr (reads p member)

theorem tones_notReport {frame : Buffer} (format : slice frame 0 5 = ascii "DTMF:") (kind : Byte) :
    slice frame 0 7 ≠ ascii "\r\nCIDM" ++ [kind] := by
  intro same
  have five := congrArg (List.take 5) same
  rw [take_slice (by decide : 5 ≤ 7), format] at five
  exact absurd five (show ¬ascii "DTMF:" = ascii "\r\nCID" by decide)

theorem toneFrame_fits {tones : List Byte} (few : tones.length ≤ CODE_SIZE) (some : tones ≠ []) :
    FormatFits (toneFrame framePool tones) ((trimTail (trimLeading tones)).length + 5)
        ((trimTail (trimLeading tones)).length + 17) i ↔ i ≤ 12 := by
  have left := List.length_pos_iff.mpr (trim_ne_nil some)
  have short : (trimTail (trimLeading tones)).length < 256 := by
    have first := (@trimTail_length (trimLeading tones)).1
    have second := @trimLeading_le tones
    unfold CODE_SIZE at few
    omega
  have format := (toneFrame_parts framePool tones).1
  have other := tones_notReport format
  rw [FormatFits, if_neg fun simple => other _ simple.2, if_neg fun complex => other _ complex.2,
    if_pos ⟨Nat.le_add_left _ _, format⟩, Nat.add_sub_cancel, Nat.mod_eq_of_lt short]
  omega

theorem untilText_closed {text : List Byte} {got rest : List Byte}
    (closed : (untilText text got rest).2 = true) : text <:+ (untilText text got rest).1 := by
  induction rest generalizing got with
  | nil => exact absurd closed Bool.false_ne_true
  | cons a rest ih =>
      rw [untilText] at closed ⊢
      by_cases ends : text <:+ got ++ [a]
      · rwa [if_pos ends]
      · rw [if_neg ends] at closed ⊢
        exact ih closed

theorem closed_slice (framePool : Buffer) {got : List Byte} (closed : endOfReport <:+ got) :
    slice (blit framePool 0 (got ++ [0])) (got.length - 12) 12 = noCarrier ∧ 12 ≤ got.length := by
  have text : noCarrier <:+ got := List.IsSuffix.trans ⟨ascii "\r\n", by decide⟩ closed
  obtain ⟨fits, same⟩ := (last_slice framePool noCarrier).mpr text
  rw [noCarrier_length] at fits same
  refine ⟨?_, fits⟩
  rw [← same, ← blit_snoc]
  exact slice_congr fun p below => Function.update_of_ne (by omega) _ _

/-- A call with a silicon modem is safe exactly if what is signalled fits. -/
theorem siCalleeConnect_safe_iff (answerInterface : Bool) (framePool dtmfCode : Buffer) (i : Nat)
    (rx : List Byte) : SiSafe (siCalleeConnect answerInterface framePool dtmfCode i rx) ↔
      SiFits answerInterface framePool i (signals rx) := by
  rw [siCalleeConnect]
  cases given : signals rx with
  | silent =>
      obtain ⟨tones, has⟩ := siStepRcvCid_silent framePool dtmfCode given
      refine iff_of_true ?_ trivial
      rw [if_neg (by rw [has.finished]; exact Bool.false_ne_true)]
      refine siSafe_nothing (List.forall_mem_cons.mpr ⟨?_, fun p member => ?_⟩) has.codes ?_
      · exact Nat.lt_of_le_of_lt (Nat.le_trans (Nat.le_of_eq has.count) has.few) (by decide)
      · exact absurd (has.received ▸ member) List.not_mem_nil
      · exact fun p member => absurd (has.reads ▸ member) List.not_mem_nil
  | tones tones =>
      have call := siStepRcvCid_tones framePool dtmfCode given
      have short : (trimTail (trimLeading tones)).length ≤ CODE_SIZE :=
        Nat.le_trans trimTail_length.1 (Nat.le_trans trimLeading_le call.few)
      have small : (trimTail (trimLeading tones)).length + 17 < FRAME_SIZE :=
        Nat.lt_of_le_of_lt (Nat.add_le_add_right short 17) (by decide)
      have closed := (toneFrame_parts framePool tones).2.2
      rw [Nat.add_comm] at closed
      rw [if_pos call.finished, call.frame, call.count,
        siSafe_report small call.count (fun p => by rw [call.received, List.mem_range]) call.codes
          call.reads]
      exact (siReport_safe_iff answerInterface small closed).trans
        (or_congr Iff.rfl (toneFrame_fits call.few call.some))
  | report count rest =>
      cases count with
      | zero =>
          rw [SiFits]
          rcases Nat.lt_or_ge (untilText endOfReport [] rest).1.length FRAME_SIZE with room | long
          · obtain ⟨call, ends⟩ := siStepRcvCid_report framePool dtmfCode given room
            rw [and_iff_right room, ends]
            cases closed : (untilText endOfReport [] rest).2 with
            | false =>
                rw [if_neg Bool.false_ne_true, siSafe_report room call.count call.received call.codes
                  call.reads]
                exact iff_of_true (nothing_safe _ _) fun open_ => absurd open_ Bool.false_ne_true
            | true =>
                obtain ⟨text, fits⟩ := closed_slice framePool (untilText_closed closed)
                have size : (untilText endOfReport [] rest).1.length - 12 + 12 =
                    (untilText endOfReport [] rest).1.length := Nat.sub_add_cancel fits
                have safe := siReport_safe_iff (i := i) answerInterface
                  (by rw [size]; exact room) text
                rw [size] at safe
                rw [if_pos rfl, siSafe_report room call.count call.received call.codes call.reads,
                  call.frame, call.count, safe]
                exact ⟨fun fits _ => fits, fun fits => fits rfl⟩
          · refine iff_of_false (fun safe => ?_) fun fits => absurd fits.1 (Nat.not_lt.mpr long)
            obtain ⟨p, member, outside⟩ := siStepRcvCid_overflow framePool dtmfCode given long
            exact absurd (safe.pool p member) (Nat.not_lt.mpr outside)
      | succ count =>
          rw [SiFits]
          by_cases few : rest = [] ∨ count + 1 + rest.length < 14
          · obtain ⟨going, reads, codes, pool⟩ := siStepRcvCid_few framePool dtmfCode given few
            refine iff_of_true ?_ few
            rw [if_neg (by rw [going]; exact Bool.false_ne_true)]
            exact siSafe_nothing pool codes fun p member => absurd (reads ▸ member) List.not_mem_nil
          · refine iff_of_false (fun safe => ?_) few
            rw [not_or, Nat.not_lt] at few
            rcases siStepRcvCid_stale framePool dtmfCode given few.1 few.2
              with ⟨p, stale, outside⟩ | ⟨p, member, outside⟩
            · exact outside (safe.compared p stale)
            · exact absurd (safe.pool p (List.mem_cons_of_mem _ member)) (Nat.not_lt.mpr outside)

/-! ## The other modem -/

/-- A call with the other modem receives inside the pool, and its report is safe. -/
structure CxSafe (call : List Byte × Report) : Prop where
  pool : call.1.length < FRAME_SIZE
  report : call.2.Safe call.1.length

/-- The header of each field that is looked at was received, and so were the time and the number. -/
structure CxFieldsFit (frame : Buffer) (dn : Nat) : Prop where
  first : ∀ p ∈ (cxSeek frame dn (ascii "02")).visited, p + 4 ≤ dn
  headers : ∀ p ∈ (cxSeek frame dn (ascii "01")).visited, p + 4 ≤ dn
  time : (cxSeek frame dn (ascii "01")).stop < dn → (cxSeek frame dn (ascii "01")).stop + 20 ≤ dn
  later : ∀ p ∈ (cxSeek (cxTimed frame dn) dn (ascii "02")).visited, p + 4 ≤ dn
  number : (cxSeek (cxTimed frame dn) dn (ascii "02")).stop < dn →
    (cxSeek (cxTimed frame dn) dn (ascii "02")).stop + 4 +
      (cxLength (cxTimed frame dn) (cxSeek (cxTimed frame dn) dn (ascii "02")).stop * 2).toNat ≤ dn

/-- Only a complex report is looked through. -/
def CxFits (answerInterface : Bool) (frame : Buffer) (dn : Nat) : Prop :=
  4 < dn ∧ answerInterface = false ∧ slice frame 0 4 = ascii "\r\n80" → CxFieldsFit frame dn

/-- The largest answer. -/
def ANSWER_SIZE : Nat := 150

theorem receiveAnswer_length {got rest : List Byte} (short : got.length < ANSWER_SIZE) :
    (receiveAnswer got rest).length ≤ ANSWER_SIZE := by
  induction rest generalizing got with
  | nil => exact Nat.le_of_lt short
  | cons a rest ih =>
      have size : (got ++ [a]).length = got.length + 1 := by
        rw [List.length_append, List.length_singleton]
      rw [receiveAnswer]
      split
      next => exact Nat.le_trans (Nat.le_of_eq size) short
      next more =>
        refine ih (Nat.lt_of_not_le fun full => more ?_)
        rw [isAnswer, Bool.or_eq_true]
        exact .inr (decide_eq_true full)

theorem cxSeek_ended {tag : List Byte} (small : dn ≤ ANSWER_SIZE) :
    (cxSeek frame dn tag).ended = true := by
  refine seek_ended (fun p below => ?_) (Nat.le_add_left _ _)
  have length := (htoc (frame (p + 2)) (frame (p + 3))).isLt
  have bound : p + ((htoc (frame (p + 2)) (frame (p + 3))).toNat * 2 + 4) < 65536 := by
    have : ANSWER_SIZE = 150 := rfl
    omega
  rw [Nat.mod_eq_of_lt bound]
  omega

theorem headers_inside {visited : List Nat} :
    (∀ p ∈ visited.flatMap (List.range' · 4), p < size) ↔ ∀ p ∈ visited, p + 4 ≤ size := by
  constructor
  · intro inside p member
    have last := inside (p + 3) (List.mem_flatMap.mpr
      ⟨p, member, List.mem_range'_1.mpr ⟨by omega, by omega⟩⟩)
    omega
  · intro fits p member
    obtain ⟨q, visited, near⟩ := List.mem_flatMap.mp member
    have := fits q visited
    have := List.mem_range'_1.mp near
    omega

theorem found_inside {found : Prop} [Decidable found] {start count : Nat} :
    (∀ p ∈ if found then List.range' start count else [], p < size) ↔
      (found → count = 0 ∨ start + count ≤ size) := by
  by_cases here : found
  · rw [if_pos here, range'_inside]
    exact ⟨fun fits _ => fits, fun fits => fits here⟩
  · rw [if_neg here]
    exact iff_of_true (fun p member => absurd member List.not_mem_nil) fun h => absurd h here

theorem delMsbWrites_inside {io count limit : Nat} (fits : io + count ≤ limit) :
    ∀ p ∈ delMsbWrites frame io count, p < limit := by
  intro p member
  have := List.mem_range'_1.mp (List.mem_of_mem_filter member)
  omega

theorem cxComplex_safe_iff (header : 4 < dn) (small : dn ≤ ANSWER_SIZE) :
    (cxComplex frame dn).Safe dn ↔ CxFieldsFit frame dn := by
  constructor
  · rintro ⟨reads, -, -, -⟩
    rw [cxComplex] at reads
    simp only [List.forall_mem_append, headers_inside, found_inside] at reads
    obtain ⟨⟨⟨⟨⟨-, first⟩, headers⟩, time⟩, later⟩, number⟩ := reads
    refine ⟨first, headers, fun found => ?_, later, fun found => ?_⟩
    · have := time found
      omega
    · have visited : (cxSeek (cxTimed frame dn) dn (ascii "02")).stop ∈
          (cxSeek (cxTimed frame dn) dn (ascii "02")).visited := seek_stop (cxSeek_ended small) found
      have := later _ visited
      have := number found
      omega
  · rintro ⟨first, headers, time, later, number⟩
    have size : ANSWER_SIZE + 300 < FRAME_SIZE := by decide
    refine ⟨?_, ?_, Nat.le_of_ble_eq_true rfl, ?_⟩
    · rw [cxComplex]
      simp only [List.forall_mem_append, headers_inside, found_inside]
      refine ⟨⟨⟨⟨⟨fun p member => ?_, first⟩, headers⟩, fun found => ?_⟩, later⟩, fun found => ?_⟩
      · have := List.mem_range.mp member
        omega
      · have := time found
        omega
      · exact .inr (number found)
    · rw [cxComplex]
      refine List.forall_mem_append.mpr ⟨?_, ?_⟩
      · split
        next found =>
          have := time found
          exact delMsbWrites_inside (by omega)
        next => exact fun p member => absurd member List.not_mem_nil
      · split
        next found =>
          have := number found
          exact delMsbWrites_inside (by omega)
        next => exact fun p member => absurd member List.not_mem_nil
    · change ((cxSeek frame dn (ascii "02")).ended && (cxSeek frame dn (ascii "01")).ended &&
        (cxSeek (cxTimed frame dn) dn (ascii "02")).ended) = true
      rw [cxSeek_ended small, cxSeek_ended small, cxSeek_ended small]
      rfl

theorem cxCalleeConnect_safe_iff (answerInterface : Bool) (framePool : Buffer) (rx : List Byte) :
    CxSafe (cxCalleeConnect answerInterface framePool rx) ↔
      CxFits answerInterface (answerFrame framePool (receiveAnswer [] rx))
        (receiveAnswer [] rx).length := by
  have small : (receiveAnswer [] rx).length ≤ ANSWER_SIZE := receiveAnswer_length (by decide)
  have pool : (receiveAnswer [] rx).length < FRAME_SIZE := Nat.lt_of_le_of_lt small (by decide)
  have safe : CxSafe (cxCalleeConnect answerInterface framePool rx) ↔
      (cxReport answerInterface (answerFrame framePool (receiveAnswer [] rx))
        (receiveAnswer [] rx).length).Safe (receiveAnswer [] rx).length :=
    ⟨fun safe => safe.report, fun report => ⟨pool, report⟩⟩
  rw [safe]
  generalize answerFrame framePool (receiveAnswer [] rx) = frame
  generalize (receiveAnswer [] rx).length = dn at small
  rw [cxReport, CxFits]
  by_cases reports : 4 < dn ∧ !answerInterface
  · rw [if_pos reports]
    have modem : answerInterface = false := by simpa using reports.2
    by_cases simple : slice frame 0 4 = ascii "\r\n04"
    · rw [if_pos simple]
      have size : ANSWER_SIZE < FRAME_SIZE := by decide
      refine iff_of_true ⟨fun p member => List.mem_range.mp member, ?_, Nat.zero_le _, rfl⟩ ?_
      · change ∀ p ∈ if 8 < dn then delMsbWrites frame 6 (dn - 8) else [], p < FRAME_SIZE
        split
        · exact delMsbWrites_inside (by omega)
        · exact fun p member => absurd member List.not_mem_nil
      · rintro ⟨-, -, complex⟩
        exact absurd (simple.symm.trans complex) (by decide)
    · rw [if_neg simple]
      by_cases complex : slice frame 0 4 = ascii "\r\n80"
      · rw [if_pos complex, cxComplex_safe_iff reports.1 small]
        exact ⟨fun fits _ => fits, fun fits => fits ⟨reports.1, modem, complex⟩⟩
      · rw [if_neg complex]
        refine iff_of_true ⟨fun p member => List.mem_range.mp member, ?_, Nat.zero_le _, rfl⟩ ?_
        · exact fun p member => absurd member List.not_mem_nil
        · rintro ⟨-, -, header⟩
          exact absurd header complex
  · rw [if_neg reports]
    refine iff_of_true (nothing_safe _ _) ?_
    rintro ⟨long, modem, -⟩
    exact absurd ⟨long, by rw [modem]; rfl⟩ reports

end PosFirmware.Modem.CallerId
