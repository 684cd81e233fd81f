import PosFirmware.Modem.CallerIdSafety

/-! # The text of a number

What a silicon modem's report of a number, or its tones, are put out as: `si_simple_text`,
`si_complex_text` and `si_tones_text`.
-/

namespace PosFirmware.Modem.CallerId

open Foundation

/-! ## Digits -/

/-- A digit, with a parity bit or without. -/
def IsDigit (b : Byte) : Prop := 0x30 ≤ b &&& 0x7f ∧ b &&& 0x7f ≤ 0x39

instance : DecidablePred IsDigit := fun b =>
  inferInstanceAs (Decidable (0x30 ≤ b &&& 0x7f ∧ b &&& 0x7f ≤ 0x39))

/-- Digits without their parity bits. -/
def digitText (bytes : List Byte) : List Byte := hexOf (bytes.map (· &&& 0x7f))

/-- The text of a number: the total length, the time, the digits and four characters. -/
def Announces (text : List Byte) (total : Nat) (time number : List Byte) : Prop :=
  ∃ tail, tail.length = 4 ∧ text = crCid ++ sprintf02X total ++ time ++ digitText number ++ tail

/-- The time, or zeros. -/
def timeText : Option (List Byte) → List Byte
  | some time => digitText time
  | none => List.replicate 16 0x30

variable {frame framePool dtmfCode : Buffer} {bytes front back : List Byte} {p : Nat}

theorem digit_hex : ∀ b : Byte, IsDigit b →
    delMsb (sprintf02X b.toNat) = sprintf02X (b &&& 0x7f).toNat := by decide

theorem hex_byte : ∀ b : Byte,
    sprintf02X b.toNat = [hexDigit (b.toNat / 16), hexDigit (b.toNat % 16)] := by decide

theorem delMsb_append : delMsb (front ++ back) = delMsb front ++ delMsb back := List.map_append

theorem hexOf_cons (b : Byte) (bytes : List Byte) :
    hexOf (b :: bytes) = sprintf02X b.toNat ++ hexOf bytes := List.flatMap_cons

theorem hexOf_singleton (b : Byte) : hexOf [b] = sprintf02X b.toNat := List.append_nil _

theorem hexOf_append : hexOf (front ++ back) = hexOf front ++ hexOf back := List.flatMap_append

theorem hexOf_length : (hexOf bytes).length = 2 * bytes.length := by
  induction bytes with
  | nil => rfl
  | cons b bytes ih =>
      rw [hexOf_cons, List.length_append, ih, hex_byte]
      exact (Nat.mul_succ 2 bytes.length ▸ Nat.add_comm 2 _)

theorem delMsb_digits (digits : ∀ b ∈ bytes, IsDigit b) :
    delMsb (hexOf bytes) = digitText bytes := by
  induction bytes with
  | nil => rfl
  | cons b bytes ih =>
      rw [digitText, List.map_cons, hexOf_cons, hexOf_cons, delMsb_append,
        digit_hex b (digits b List.mem_cons_self),
        ih fun c member => digits c (List.mem_cons_of_mem _ member)]
      rfl

/-! ## Reports -/

/-- A simple report: its length, the time, the number and a checksum. -/
structure SimpleReport where
  time : List Byte
  number : List Byte
  checksum : Byte
  whole : time.length = 8
  digits : ∀ b ∈ time ++ number, IsDigit b
  short : 8 + number.length < 256

def SimpleReport.length (report : SimpleReport) : Byte := BitVec.ofNat 8 (8 + report.number.length)

def SimpleReport.body (report : SimpleReport) : List Byte :=
  report.length :: (report.time ++ report.number)

/-- A field of a complex report. -/
structure Field where
  tag : Byte
  data : List Byte
  short : data.length < 256

def Field.encode (field : Field) : List Byte :=
  field.tag :: BitVec.ofNat 8 field.data.length :: field.data

/-- A complex report: its length, fields in any order, and a checksum. -/
structure ComplexReport where
  total : Byte
  fields : List Field
  checksum : Byte
  time : ∀ field ∈ fields, field.tag = 1 → field.data.length = 8 ∧ ∀ b ∈ field.data, IsDigit b
  number : ∀ field ∈ fields, field.tag = 2 → ∀ b ∈ field.data, IsDigit b

/-- The data of the first field with a tag. -/
def ComplexReport.find (report : ComplexReport) (tag : Byte) : Option (List Byte) :=
  (report.fields.find? fun field => decide (field.tag = tag)).map Field.data

/-- The checksum is not taken for the tag of a field that is missing. -/
def ComplexReport.Distinct (report : ComplexReport) : Prop :=
  (report.find 1 = none → report.checksum ≠ 1) ∧ (report.find 2 = none → report.checksum ≠ 2)

/-! ## What a silicon modem delivers -/

def siSimpleBytes (report : SimpleReport) : List Byte :=
  ascii "\r\nCIDM" ++ [0x04] ++ report.body ++ [report.checksum] ++ endOfReport

def siComplexBytes (report : ComplexReport) : List Byte :=
  ascii "\r\nCIDM" ++ [0x80] ++ (report.total :: report.fields.flatMap Field.encode) ++
    [report.checksum] ++ endOfReport

/-- Codes, the header of a report, the report, and what follows it. -/
def siDelivers (codes report later : List Byte) : List Byte :=
  codes.flatMap (fun c => [0x10, c]) ++ 0x10 :: 0x2e :: (report ++ later)

/-- Codes of neither tones nor reports. -/
def Quiet (codes : List Byte) : Prop := ∀ c ∈ codes, c ≠ 0x2f ∧ c ≠ 0x2e

/-- Each tone between codes. -/
def toneCodes (tones : List Byte) : List Byte :=
  tones.flatMap fun tone => [0x10, 0x2f, 0x10, tone, 0x10, 0x7e]

/-- Tones, a ring, and what follows it. -/
def siDeliversTones (tones later : List Byte) : List Byte :=
  toneCodes tones ++ 0x10 :: 0x52 :: later

/-- A report has its closing text at its end only. -/
def ClosesOnce (report : List Byte) : Prop :=
  endOfReport <:+ report ∧
    ∀ front, front <+: report → endOfReport <:+ front → front = report

theorem untilText_closes (closes : ClosesOnce bytes) (later : List Byte) {got rest : List Byte}
    (parts : got ++ rest = bytes) (more : rest ≠ []) :
    untilText endOfReport got (rest ++ later) = (bytes, true) := by
  induction rest generalizing got with
  | nil => exact absurd rfl more
  | cons a rest ih =>
      have whole : got ++ [a] ++ rest = bytes := by rw [List.append_assoc]; exact parts
      rw [List.cons_append, untilText]
      by_cases ends : endOfReport <:+ got ++ [a]
      · rw [if_pos ends, closes.2 _ ⟨rest, whole⟩ ends]
      · rw [if_neg ends]
        refine ih whole fun empty => ?_
        rw [empty, List.append_nil] at whole
        exact ends (whole ▸ closes.1)

/-! ## What it signals -/

section

variable {rest tones : List Byte} {ring : Byte} {dtmf : Nat}

theorem signalOf_open : signalOf (0x10 :: rest) false ring dtmf tones =
    signalOf rest true ring dtmf tones := by
  rw [signalOf]
  rfl

theorem signalOf_code {c : Byte} (noTone : ¬(dtmf = 1 ∧ tones.length < CODE_SIZE)) :
    signalOf (c :: rest) true ring dtmf tones =
      if (if c = 0x2f then 1 else dtmf) = 2 ∧ (if c = 0x52 then ring + 1 else ring) ≠ 0 then
        .tones tones
      else if c = 0x2e then .report tones.length rest
      else signalOf rest false (if c = 0x52 then ring + 1 else ring)
        (if c = 0x2f then 1 else dtmf) tones := by
  rw [signalOf, if_neg (by decide : ¬(!true) = true), if_neg noTone]

theorem signalOf_report {codes : List Byte} (quiet : Quiet codes) (ring : Byte)
    (report later : List Byte) : signalOf (siDelivers codes report later) false ring 0 [] =
      .report 0 (report ++ later) := by
  have noTone : ¬((0 : Nat) = 1 ∧ ([] : List Byte).length < CODE_SIZE) := fun h =>
    absurd h.1 (by decide)
  induction codes generalizing ring with
  | nil =>
      rw [siDelivers, List.flatMap_nil, List.nil_append, signalOf_open, signalOf_code noTone]
      rfl
  | cons c codes ih =>
      obtain ⟨tone, header⟩ := quiet c List.mem_cons_self
      change signalOf (0x10 :: c :: siDelivers codes report later) false ring 0 [] = _
      rw [signalOf_open, signalOf_code noTone, if_neg tone, if_neg fun h => absurd h.1 (by decide),
        if_neg header]
      exact ih (fun d member => quiet d (List.mem_cons_of_mem _ member)) _

theorem signals_report {codes : List Byte} (quiet : Quiet codes) (report later : List Byte) :
    signals (siDelivers codes report later) = .report 0 (report ++ later) :=
  signalOf_report quiet 0 report later

theorem signalOf_tone {tone : Byte} (noTone : dtmf ≠ 1) (room : tones.length < CODE_SIZE) :
    signalOf (0x10 :: 0x2f :: 0x10 :: tone :: 0x10 :: 0x7e :: rest) false 0 dtmf tones =
      signalOf rest false 0 2 (tones ++ [tone]) := by
  have announced : signalOf (0x2f :: 0x10 :: tone :: 0x10 :: 0x7e :: rest) true 0 dtmf tones =
      signalOf (0x10 :: tone :: 0x10 :: 0x7e :: rest) false 0 1 tones := by
    rw [signalOf_code fun h => noTone h.1, if_pos rfl, if_neg fun h => absurd h.1 (by decide)]
    rfl
  have given : signalOf (tone :: 0x10 :: 0x7e :: rest) true 0 1 tones =
      signalOf (0x10 :: 0x7e :: rest) true 0 2 (tones ++ [tone]) := by
    rw [signalOf, if_neg (by decide : ¬(!true) = true), if_pos ⟨rfl, room⟩]
  have closed : signalOf (0x10 :: 0x7e :: rest) true 0 2 (tones ++ [tone]) =
      signalOf (0x7e :: rest) false 0 2 (tones ++ [tone]) := by
    rw [signalOf_code fun h => absurd h.1 (by decide)]
    rfl
  rw [signalOf_open, announced, signalOf_open, given, closed, signalOf]
  rfl

theorem signalOf_tones {given later : List Byte} (noTone : dtmf ≠ 1)
    (room : tones.length + given.length ≤ CODE_SIZE) (some : given = [] → dtmf = 2) :
    signalOf (siDeliversTones given later) false 0 dtmf tones = .tones (tones ++ given) := by
  induction given generalizing tones dtmf with
  | nil =>
      obtain rfl := some rfl
      change signalOf (0x10 :: 0x52 :: later) false 0 2 tones = _
      rw [signalOf_open, signalOf_code fun h => noTone h.1, List.append_nil]
      rfl
  | cons tone given ih =>
      rw [List.length_cons] at room
      change signalOf (0x10 :: 0x2f :: 0x10 :: tone :: 0x10 :: 0x7e :: siDeliversTones given later)
        false 0 dtmf tones = _
      rw [signalOf_tone noTone (by omega), ih (by decide) ?_ fun _ => rfl, List.append_assoc]
      · rfl
      · rw [List.length_append, List.length_singleton]
        omega

theorem signals_tones {given : List Byte} (room : given.length ≤ CODE_SIZE) (some : given ≠ [])
    (later : List Byte) : signals (siDeliversTones given later) = .tones given :=
  signalOf_tones (by decide) (by rwa [List.length_nil, Nat.zero_add]) fun none => absurd none some

end

/-! ## A simple report -/

theorem siSimple_letter (report : SimpleReport) {j : Nat}
    (letter : (siSimpleBytes report)[j]? = some 0x52) :
    j = 7 ∨ j = 16 + report.number.length ∨ j = 24 + report.number.length ∨
      j = 25 + report.number.length ∨ j = 28 + report.number.length := by
  have count : (report.time ++ report.number).length = 8 + report.number.length := by
    rw [List.length_append, report.whole]
  have parts : siSimpleBytes report = (ascii "\r\nCIDM" ++ [0x04]) ++ (report.length ::
      ((report.time ++ report.number) ++ (report.checksum :: endOfReport))) := by
    simp [siSimpleBytes, SimpleReport.body]
  rw [parts] at letter
  rcases Nat.lt_or_ge j 7 with header | behind
  · rw [List.getElem?_append_left header] at letter
    have none : ∀ k < 7, (ascii "\r\nCIDM" ++ [0x04])[k]? ≠ some 0x52 := by decide
    exact absurd letter (none j header)
  rw [List.getElem?_append_right behind] at letter
  change _[j - 7]? = _ at letter
  rcases Nat.eq_zero_or_pos (j - 7) with first | later
  · exact .inl (by omega)
  rw [show j - 7 = (j - 8) + 1 by omega, List.getElem?_cons_succ] at letter
  rcases Nat.lt_or_ge (j - 8) (report.time ++ report.number).length with inside | last
  · rw [List.getElem?_append_left inside] at letter
    have digit := report.digits _ (List.mem_of_getElem? letter)
    exact absurd digit (by decide)
  rw [List.getElem?_append_right last, count] at letter
  rw [count] at last
  rcases Nat.eq_zero_or_pos (j - 8 - (8 + report.number.length)) with checksum | closing
  · exact .inr (.inl (by omega))
  rw [show j - 8 - (8 + report.number.length) = (j - (17 + report.number.length)) + 1 by omega,
    List.getElem?_cons_succ] at letter
  have places : ∀ k < 14, endOfReport[k]? = some 0x52 → k = 7 ∨ k = 8 ∨ k = 11 := by decide
  have inside : j - (17 + report.number.length) < 14 := (List.getElem?_eq_some_iff.mp letter).1
  have := places _ inside letter
  omega

theorem siSimpleBytes_length (report : SimpleReport) :
    (siSimpleBytes report).length = 31 + report.number.length := by
  have whole := report.whole
  have closing : endOfReport.length = 14 := by decide
  have header : (ascii "\r\nCIDM").length = 6 := by decide
  simp only [siSimpleBytes, SimpleReport.body, List.length_append, List.length_cons, List.length_nil]
  omega

theorem siSimple_closes (report : SimpleReport) : ClosesOnce (siSimpleBytes report) := by
  refine ⟨List.suffix_append _ _, fun front inFront closed => ?_⟩
  obtain ⟨before, rfl⟩ := closed
  obtain ⟨after, whole⟩ := inFront
  have here : ∀ k < 14, (siSimpleBytes report)[before.length + k]? = endOfReport[k]? := by
    intro k below
    rw [← whole, List.append_assoc, List.getElem?_append_right (Nat.le_add_right _ _),
      Nat.add_sub_cancel_left]
    exact List.getElem?_append_left below
  have first := siSimple_letter report (here 7 (by decide))
  have second := siSimple_letter report (here 8 (by decide))
  have length := congrArg List.length whole
  rw [List.length_append, siSimpleBytes_length, List.length_append,
    show endOfReport.length = 14 by decide] at length
  have none : after.length = 0 := by omega
  rw [← whole, List.length_eq_zero_iff.mp none, List.append_nil]

theorem siDelivers_report {codes report : List Byte} (quiet : Quiet codes)
    (closes : ClosesOnce report) (room : report.length < FRAME_SIZE) (later : List Byte) (i : Nat) :
    (siCalleeConnect false framePool dtmfCode i (siDelivers codes report later)).2 =
      siReport false (blit framePool 0 (report ++ [0])) report.length i := by
  have some : report ≠ [] := fun none =>
    absurd (none ▸ closes.1) (by decide)
  have whole := untilText_closes closes later (List.nil_append report) some
  obtain ⟨call, finished⟩ := siStepRcvCid_report framePool dtmfCode
    (signals_report quiet report later) (by rw [whole]; exact room)
  rw [whole] at call finished
  change (if (siStepRcvCid framePool dtmfCode (siDelivers codes report later)).finished then _
    else _) = _
  rw [if_pos finished, call.frame, call.count]

theorem frame_holds (framePool : Buffer) (bytes : List Byte) :
    Holds (blit framePool 0 (bytes ++ [0])) 0 bytes := by
  have part := @slice_blit_inside _ framePool 0 0 bytes.length (bytes ++ [0])
    (by rw [List.length_append]; omega)
  rw [List.drop_zero, List.take_left' rfl] at part
  exact part

theorem siReport_text (closed : endOfReport <:+ bytes) (i : Nat) :
    (siReport false (blit framePool 0 (bytes ++ [0])) bytes.length i).text =
      (siFormat (blit framePool 0 (bytes ++ [0])) (bytes.length - 12) i).text := by
  obtain ⟨text, fits⟩ := closed_slice framePool closed
  have cut : trimmed (blit framePool 0 (bytes ++ [0])) bytes.length = bytes.length - 12 := by
    rw [trimmed, if_pos ⟨fits, text⟩]
  rw [siReport, if_pos ⟨by omega, rfl⟩, cut]

theorem siSimple_parts (report : SimpleReport) (holds : Holds frame p (siSimpleBytes report)) :
    Holds frame p (ascii "\r\nCIDM" ++ [0x04]) ∧ Holds frame (p + 7) report.body ∧
      Holds frame (p + 16 + report.number.length) [report.checksum] ∧
      Holds frame (p + 17 + report.number.length) (ascii "\r\n") := by
  have parts : siSimpleBytes report = (ascii "\r\nCIDM" ++ [0x04]) ++ (report.body ++
      ([report.checksum] ++ (ascii "\r\n" ++ noCarrier))) := by
    rw [siSimpleBytes, show endOfReport = ascii "\r\n" ++ noCarrier by decide]
    simp only [List.append_assoc]
  have count : report.body.length = 9 + report.number.length := by
    rw [SimpleReport.body, List.length_cons, List.length_append, report.whole]
    omega
  obtain ⟨header, rest⟩ := holds_append.mp (parts ▸ holds)
  obtain ⟨body, rest⟩ := holds_append.mp rest
  obtain ⟨checksum, rest⟩ := holds_append.mp rest
  obtain ⟨ending, -⟩ := holds_append.mp rest
  rw [count] at checksum ending
  refine ⟨header, body, ?_, ?_⟩
  · rw [show p + 16 + report.number.length = p + 7 + (9 + report.number.length) by omega]
    exact checksum
  · rw [show p + 17 + report.number.length = p + 7 + (9 + report.number.length) + 1 by omega]
    exact ending

theorem si_simple_text {codes : List Byte} (report : SimpleReport) (quiet : Quiet codes)
    (later : List Byte) (i : Nat) :
    (siCalleeConnect false framePool dtmfCode i
        (siDelivers codes (siSimpleBytes report) later)).2.text =
      crCid ++ delMsb (sprintf02X (8 + report.number.length)) ++ digitText report.time ++
        digitText report.number ++ (sprintf02X report.checksum.toNat ++ ascii "\r\n") := by
  have size := siSimpleBytes_length report
  have short := report.short
  have room : (siSimpleBytes report).length < FRAME_SIZE := by
    have : FRAME_SIZE = 2060 := rfl
    omega
  have closes := siSimple_closes report
  rw [siDelivers_report quiet closes room, siReport_text closes.1, size]
  obtain ⟨header, body, checksum, ending⟩ := siSimple_parts report
    (frame_holds framePool _)
  generalize blit framePool 0 (siSimpleBytes report ++ [0]) = frame at header body checksum ending
  have count : report.body.length = 9 + report.number.length := by
    rw [SimpleReport.body, List.length_cons, List.length_append, report.whole]
    omega
  have total : report.length.toNat = 8 + report.number.length := by
    rw [SimpleReport.length, BitVec.toNat_ofNat]
    exact Nat.mod_eq_of_lt short
  have timeDigits : ∀ b ∈ report.time, IsDigit b := fun b member =>
    report.digits b (List.mem_append_left _ member)
  have numberDigits : ∀ b ∈ report.number, IsDigit b := fun b member =>
    report.digits b (List.mem_append_right _ member)
  rw [siFormat, if_pos ⟨by omega, header⟩]
  change crCid ++ delMsb (hexOf (slice frame 7 _)) ++ hexOf (slice frame _ 1) ++ slice frame _ 2 = _
  rw [show 31 + report.number.length - 12 - 10 = 9 + report.number.length by omega,
    show 31 + report.number.length - 12 - 3 = 0 + 16 + report.number.length by omega,
    show 31 + report.number.length - 12 - 2 = 0 + 17 + report.number.length by omega]
  rw [Holds, count] at body
  rw [show slice frame 7 (9 + report.number.length) = report.body from body,
    show slice frame _ 1 = [report.checksum] from checksum,
    show slice frame _ 2 = ascii "\r\n" from ending, SimpleReport.body, hexOf_cons, hexOf_append,
    delMsb_append, delMsb_append, delMsb_digits timeDigits, delMsb_digits numberDigits, total,
    hexOf_singleton]
  simp only [List.append_assoc]

/-! ## A complex report -/

section

variable {fields : List Field} {rest data : List Byte} {dn : Nat} {tag : Byte}

theorem encode_ne_nil (field : Field) : field.encode ≠ [] := List.cons_ne_nil _ _

theorem encode_length (field : Field) : field.encode.length = field.data.length + 2 := rfl

theorem siField_reads (small : dn ≤ FRAME_SIZE) (field : Field) :
    ReadsField frame (fun p => decide (frame p = tag))
      (fun p => (p + ((frame (p + 1)).toNat + 2)) % 65536) dn Field.encode
      (fun field => decide (field.tag = tag)) field := by
  intro p holds inside
  obtain ⟨first, rest⟩ := holds_cons.mp holds
  obtain ⟨second, -⟩ := holds_cons.mp rest
  have length : (frame (p + 1)).toNat = field.data.length := by
    rw [second, BitVec.toNat_ofNat]
    exact Nat.mod_eq_of_lt field.short
  have pool : FRAME_SIZE = 2060 := rfl
  rw [encode_length] at inside ⊢
  change decide (frame p = tag) = decide (field.tag = tag) ∧
    (p + ((frame (p + 1)).toNat + 2)) % 65536 = p + (field.data.length + 2)
  rw [first, length]
  exact ⟨rfl, Nat.mod_eq_of_lt (by omega)⟩

theorem siSeek_found (small : dn ≤ FRAME_SIZE) (holds : Holds frame 8 (fields.flatMap Field.encode))
    (inside : 8 + (fields.flatMap Field.encode).length ≤ dn)
    (found : (fields.find? fun field => decide (field.tag = tag)).map Field.data = some data) :
    (siSeek frame dn tag).stop < dn ∧
      (frame ((siSeek frame dn tag).stop + 1)).toNat = data.length ∧
      Holds frame ((siSeek frame dn tag).stop + 2) data := by
  obtain ⟨field, first, rfl⟩ := Option.map_eq_some_iff.mp found
  obtain ⟨isField, before, after, rfl, others⟩ := List.find?_eq_some_iff_append.mp first
  have few : before.length ≤ (before.flatMap Field.encode).length :=
    length_le_flatMap fun f _ => encode_ne_nil f
  have split : ((before ++ field :: after).flatMap Field.encode).length =
      (before.flatMap Field.encode).length +
        (field.data.length + 2 + (after.flatMap Field.encode).length) := by
    rw [List.flatMap_append, List.flatMap_cons, List.length_append, List.length_append,
      encode_length]
  have both : (siSeek frame dn tag).stop = 8 + (before.flatMap Field.encode).length ∧
      Holds frame (8 + (before.flatMap Field.encode).length) field.encode :=
    seek_found holds inside (fun f _ => siField_reads small f)
      (fun f member => by simpa using others f member) isField (fun f _ => encode_ne_nil f)
      (by omega)
  obtain ⟨place, here⟩ := both
  rw [place]
  obtain ⟨-, rest⟩ := holds_cons.mp here
  obtain ⟨length, content⟩ := holds_cons.mp rest
  refine ⟨by omega, ?_, content⟩
  rw [length, BitVec.toNat_ofNat]
  exact Nat.mod_eq_of_lt field.short

theorem siSeek_missing (small : dn ≤ FRAME_SIZE)
    (holds : Holds frame 8 (fields.flatMap Field.encode))
    (last : dn = 8 + (fields.flatMap Field.encode).length + 3)
    (other : frame (8 + (fields.flatMap Field.encode).length) ≠ tag)
    (far : 3 ≤ (frame (8 + (fields.flatMap Field.encode).length + 1)).toNat + 2)
    (missing : (fields.find? fun field => decide (field.tag = tag)).map Field.data = none) :
    ¬(siSeek frame dn tag).stop < dn := by
  have none : ∀ field ∈ fields, decide (field.tag = tag) = false := fun field member => by
    have all := List.find?_eq_none.mp (Option.map_eq_none_iff.mp missing) field member
    exact eq_false_of_ne_true all
  have few : fields.length ≤ (fields.flatMap Field.encode).length :=
    length_le_flatMap fun f _ => encode_ne_nil f
  have bound := (frame (8 + (fields.flatMap Field.encode).length + 1)).isLt
  have pool : FRAME_SIZE = 2060 := rfl
  refine Nat.not_lt.mpr (seek_missing holds (by omega) (fun f _ => siField_reads small f) none
    (fun f _ => encode_ne_nil f) (by omega) (decide_eq_false other) ?_)
  rw [Nat.mod_eq_of_lt (by omega)]
  omega

theorem find_time {report : ComplexReport} (found : report.find 1 = some data) :
    data.length = 8 ∧ ∀ b ∈ data, IsDigit b := by
  obtain ⟨field, first, rfl⟩ := Option.map_eq_some_iff.mp found
  exact report.time field (List.mem_of_find?_eq_some first)
    (by simpa using List.find?_some first)

theorem find_number {report : ComplexReport} (found : report.find 2 = some data) :
    ∀ b ∈ data, IsDigit b := by
  obtain ⟨field, first, rfl⟩ := Option.map_eq_some_iff.mp found
  exact report.number field (List.mem_of_find?_eq_some first)
    (by simpa using List.find?_some first)

theorem siComplexBytes_length (report : ComplexReport) : (siComplexBytes report).length =
    23 + (report.fields.flatMap Field.encode).length := by
  have closing : endOfReport.length = 14 := by decide
  have header : (ascii "\r\nCIDM").length = 6 := by decide
  simp only [siComplexBytes, List.length_append, List.length_cons, List.length_nil]
  omega

theorem siComplex_parts (report : ComplexReport) (holds : Holds frame 0 (siComplexBytes report)) :
    Holds frame 0 (ascii "\r\nCIDM" ++ [0x80]) ∧
      Holds frame 8 (report.fields.flatMap Field.encode) ∧
      frame (8 + (report.fields.flatMap Field.encode).length) = report.checksum ∧
      frame (8 + (report.fields.flatMap Field.encode).length + 1) = 0x0d := by
  have parts : siComplexBytes report = (ascii "\r\nCIDM" ++ [0x80]) ++ (report.total ::
      (report.fields.flatMap Field.encode ++ (report.checksum :: endOfReport))) := by
    simp [siComplexBytes]
  obtain ⟨header, rest⟩ := holds_append.mp (parts ▸ holds)
  obtain ⟨-, rest⟩ := holds_cons.mp rest
  obtain ⟨fields, rest⟩ := holds_append.mp rest
  obtain ⟨checksum, closing⟩ := holds_cons.mp rest
  have text : endOfReport = 0x0d :: ascii "\nNO CARRIER\r\n" := by decide
  rw [text] at closing
  exact ⟨header, fields, checksum, (holds_cons.mp closing).1⟩

theorem siComplex_text (report : ComplexReport) (holds : Holds frame 0 (siComplexBytes report))
    (distinct : report.Distinct) (short : ∀ number, report.find 2 = some number → number.length < 248)
    (small : 11 + (report.fields.flatMap Field.encode).length ≤ FRAME_SIZE) :
    (siComplex frame (11 + (report.fields.flatMap Field.encode).length)).text =
      crCid ++ sprintf02X (8 + ((report.find 2).getD []).length) ++ timeText (report.find 1) ++
        digitText ((report.find 2).getD []) ++ ascii "FF\r\n" := by
  obtain ⟨header, fields, checksum, closing⟩ := siComplex_parts report holds
  have far : 3 ≤ (frame (8 + (report.fields.flatMap Field.encode).length + 1)).toNat + 2 := by
    rw [closing]
    decide
  generalize size : 11 + (report.fields.flatMap Field.encode).length = dn at small ⊢
  have missing : ∀ tag, report.find tag = none → report.checksum ≠ tag →
      ¬(siSeek frame dn tag).stop < dn := fun tag none other =>
    siSeek_missing small fields (by omega) (by rwa [checksum]) far none
  have time : (if (siSeek frame dn 1).stop < dn then
      delMsb (hexOf (slice frame ((siSeek frame dn 1).stop + 2) 8)) else List.replicate 16 0x30) =
        timeText (report.find 1) := by
    cases found : report.find 1 with
    | none => exact if_neg (missing 1 found (distinct.1 found))
    | some data =>
        obtain ⟨stop, -, content⟩ := siSeek_found small fields (by omega) found
        obtain ⟨eight, digits⟩ := find_time found
        rw [Holds, eight] at content
        rw [if_pos stop, content, delMsb_digits digits]
        rfl
  rw [siComplex]
  cases found : report.find 2 with
  | none =>
      have absent := missing 2 found (distinct.2 found)
      simp only [if_neg absent, time]
      rfl
  | some data =>
      obtain ⟨stop, length, content⟩ := siSeek_found small fields (by omega) found
      have total : (8 + frame ((siSeek frame dn 2).stop + 1) : Byte).toNat = 8 + data.length := by
        have bound := short data found
        rw [BitVec.toNat_add, length]
        exact Nat.mod_eq_of_lt (show 8 + data.length < 2 ^ 8 by omega)
      rw [Holds] at content
      simp only [if_pos stop, time, total, length, content, delMsb_digits (find_number found)]
      rfl

theorem si_complex_text {codes : List Byte} (report : ComplexReport) (quiet : Quiet codes)
    (closes : ClosesOnce (siComplexBytes report)) (distinct : report.Distinct)
    (short : ∀ number, report.find 2 = some number → number.length < 248)
    (room : (siComplexBytes report).length < FRAME_SIZE) (later : List Byte) (i : Nat) :
    (siCalleeConnect false framePool dtmfCode i
        (siDelivers codes (siComplexBytes report) later)).2.text =
      crCid ++ sprintf02X (8 + ((report.find 2).getD []).length) ++ timeText (report.find 1) ++
        digitText ((report.find 2).getD []) ++ ascii "FF\r\n" := by
  have size := siComplexBytes_length report
  rw [siDelivers_report quiet closes room, siReport_text closes.1]
  have holds := frame_holds framePool (siComplexBytes report)
  generalize blit framePool 0 (siComplexBytes report ++ [0]) = frame at holds ⊢
  have header : slice frame 0 7 = ascii "\r\nCIDM" ++ [0x80] := (siComplex_parts report holds).1
  rw [size, show 23 + (report.fields.flatMap Field.encode).length - 12 =
    11 + (report.fields.flatMap Field.encode).length by omega, siFormat,
    if_neg fun simple => absurd (simple.2.symm.trans header) (by decide),
    if_pos ⟨Nat.le_add_right _ _, header⟩]
  exact siComplex_text report holds distinct short (by omega)

end

/-! ## Tones -/

/-- A tone of a telephone: a digit, a letter from `A` to `D`, a star or a hash. -/
def IsTone (c : Byte) : Prop :=
  (0x30 ≤ c ∧ c ≤ 0x39) ∨ (0x41 ≤ c ∧ c ≤ 0x44) ∨ c = 0x2a ∨ c = 0x23

instance : DecidablePred IsTone := fun c => inferInstanceAs
  (Decidable ((0x30 ≤ c ∧ c ≤ 0x39) ∨ (0x41 ≤ c ∧ c ≤ 0x44) ∨ c = 0x2a ∨ c = 0x23))

/-- The tones of a call: the number may stand between letters. -/
structure ToneReport where
  tones : List Byte
  some : tones ≠ []
  all : ∀ c ∈ tones, IsTone c

/-- The number without a letter in front and one behind it. -/
def ToneReport.number (report : ToneReport) : List Byte :=
  trimTail (if 2 < report.tones.length ∧ 0x41 ≤ report.tones.headD 0 ∧
      report.tones.headD 0 ≤ 0x44 then report.tones.tail
    else report.tones)

/-- The tones have room, no letter but `D` is in front of them, and no report was put out before. -/
structure ToneReport.Fits (report : ToneReport) (i : Nat) : Prop where
  few : report.tones.length ≤ CODE_SIZE
  leading : 2 < report.tones.length →
    report.tones.headD 0 < 0x41 ∨ 0x44 ≤ report.tones.headD 0
  first : i = 0

theorem tone_limits : ∀ c : Byte, IsTone c → c ≤ 0x44 ∧ c &&& 0x7f = c := by decide

theorem ToneReport.trimmed (report : ToneReport) {i : Nat} (fits : report.Fits i) :
    trimTail (trimLeading report.tones) = report.number := by
  have limit : report.tones.headD 0 ≤ 0x44 := by
    obtain ⟨c, rest, same⟩ := List.exists_cons_of_ne_nil report.some
    rw [same]
    exact (tone_limits c (report.all c (same ▸ List.mem_cons_self))).1
  rw [ToneReport.number, trimLeading]
  refine congrArg trimTail ?_
  by_cases many : 2 < report.tones.length
  · rcases fits.leading many with digit | last
    · have below : ¬(0x41 : Byte) ≤ report.tones.headD 0 := BitVec.not_le.mpr digit
      rw [if_neg fun letter => below letter.2.1, if_neg fun letter => below letter.2.1]
    · have letter : (0x41 : Byte) ≤ report.tones.headD 0 :=
        BitVec.le_trans (show (0x41 : Byte) ≤ 0x44 by decide) last
      rw [if_pos ⟨many, letter, last⟩, if_pos ⟨many, letter, limit⟩]
  · rw [if_neg fun h => many h.1, if_neg fun h => many h.1]

theorem ToneReport.number_tones (report : ToneReport) : ∀ c ∈ report.number, IsTone c := by
  intro c member
  apply report.all
  rw [ToneReport.number] at member
  have shorter := trimTail_prefix.subset member
  split at shorter
  · exact List.mem_of_mem_tail shorter
  · exact shorter

theorem tones_hex {bytes : List Byte} (tones : ∀ c ∈ bytes, IsTone c) :
    digitText bytes = hexOf bytes := by
  have same : bytes.map (· &&& 0x7f) = bytes := by
    conv_rhs => rw [← List.map_id bytes]
    exact List.map_congr_left fun c member => (tone_limits c (tones c member)).2
  rw [digitText, same]

theorem sprintf02X_short {n : Nat} (short : n < 256) : (sprintf02X n).take 2 = sprintf02X n := by
  have byte := hex_byte (BitVec.ofNat 8 n)
  rw [BitVec.toNat_ofNat, Nat.mod_eq_of_lt (show n < 2 ^ 8 from short)] at byte
  rw [byte]
  rfl

theorem si_tones_text (report : ToneReport) {i : Nat} (fits : report.Fits i) (later : List Byte) :
    (siCalleeConnect false framePool dtmfCode i (siDeliversTones report.tones later)).2.text =
      crCid ++ sprintf02X (16 + report.number.length) ++ List.replicate 16 0x20 ++
        digitText report.number ++ ascii "FF\r\n" := by
  have call := siStepRcvCid_tones framePool dtmfCode
    (signals_tones fits.few report.some later)
  obtain ⟨format, number, closed⟩ := toneFrame_parts framePool report.tones
  have short : report.number.length ≤ CODE_SIZE := by
    rw [← report.trimmed fits]
    exact Nat.le_trans trimTail_length.1 (Nat.le_trans trimLeading_le fits.few)
  have count := call.count
  rw [report.trimmed fits] at number closed count
  have size : CODE_SIZE = 100 := rfl
  change (if (siStepRcvCid framePool dtmfCode (siDeliversTones report.tones later)).finished then _
    else _ : Report).text = _
  rw [if_pos call.finished, call.frame, count]
  generalize toneFrame framePool report.tones = frame at format number closed
  have cut : trimmed frame (report.number.length + 17) = report.number.length + 5 := by
    rw [trimmed, show report.number.length + 17 - 12 = 5 + report.number.length by omega,
      if_pos ⟨by omega, closed⟩, Nat.add_comm]
  have other := tones_notReport format
  rw [siReport, if_pos ⟨by omega, rfl⟩, cut, siFormat, if_neg fun simple => other _ simple.2,
    if_neg fun complex => other _ complex.2, if_pos ⟨Nat.le_add_left _ _, format⟩]
  change crCid ++ (sprintf02X (report.number.length + 5 - 5 + 16)).take 2 ++ List.replicate 16 0x20 ++
    hexOf (slice frame (i + 5) ((report.number.length + 5 - 5) % 256)) ++ ascii "FF\r\n" = _
  rw [fits.first, Nat.add_sub_cancel, Nat.mod_eq_of_lt (by omega), Nat.zero_add, number,
    sprintf02X_short (by omega), tones_hex report.number_tones, Nat.add_comm _ 16]

end PosFirmware.Modem.CallerId
