import PosFirmware.Modem.CallerIdText

/-! # Reports of a number

What the other modem's reports are put out as (`cx_simple_text`, `cx_complex_text`), and
`caller_id_reports` on both modems.
-/

namespace PosFirmware.Modem.CallerId

open Foundation

/-! ## Answers -/

/-- An answer with a report in hexadecimal text. -/
def cxSimpleAnswer (report : SimpleReport) : List Byte :=
  ascii "\r\n04" ++ hexOf (report.body ++ [report.checksum]) ++ ascii "\r\n"

def cxComplexAnswer (report : ComplexReport) : List Byte :=
  ascii "\r\n80" ++ hexOf (report.total :: (report.fields.flatMap Field.encode ++
    [report.checksum])) ++ ascii "\r\n"

variable {frame framePool : Buffer} {bytes text later : List Byte} {p io dn : Nat}

theorem delMsb_length : (delMsb text).length = text.length := List.length_map _

theorem hex_noLine : ∀ b : Byte, 0x0a ∉ sprintf02X b.toNat := by decide

theorem hexOf_noLine : 0x0a ∉ hexOf bytes := fun member => by
  obtain ⟨b, -, here⟩ := List.mem_flatMap.mp member
  exact hex_noLine b here

theorem receiveAnswer_closes {answer : List Byte} (whole : isAnswer answer = true)
    (going : ∀ front, front <+: answer → front ≠ answer → isAnswer front = false)
    {got rest : List Byte} (parts : got ++ rest = answer) (more : rest ≠ []) :
    receiveAnswer got (rest ++ later) = answer := by
  induction rest generalizing got with
  | nil => exact absurd rfl more
  | cons a rest ih =>
      have joined : got ++ [a] ++ rest = answer := by rw [List.append_assoc]; exact parts
      rw [List.cons_append, receiveAnswer]
      by_cases last : got ++ [a] = answer
      · rw [last, if_pos whole]
      · have going := going _ ⟨rest, joined⟩ last
        rw [going, if_neg Bool.false_ne_true]
        refine ih joined fun empty => last ?_
        rwa [empty, List.append_nil] at joined

theorem receiveAnswer_line (header : List Byte) {body : List Byte} (known : ascii "\r\n" ++ header ∈ answers)
    (headerLine : 0x0a ∉ header) (line : 0x0a ∉ body)
    (short : (ascii "\r\n" ++ header ++ body ++ ascii "\r\n").length ≤ ANSWER_SIZE) :
    receiveAnswer [] (ascii "\r\n" ++ header ++ body ++ ascii "\r\n" ++ later) =
      ascii "\r\n" ++ header ++ body ++ ascii "\r\n" := by
  have before : (ascii "\r\n" ++ header ++ body ++ [0x0d]).count 0x0a = 1 := by
    rw [List.count_append, List.count_append, List.count_append, List.count_eq_zero.mpr headerLine,
      List.count_eq_zero.mpr line]
    decide
  have parts : ascii "\r\n" ++ header ++ body ++ ascii "\r\n" =
      ascii "\r\n" ++ header ++ body ++ [0x0d] ++ [0x0a] := by
    rw [List.append_assoc _ [0x0d]]
    rfl
  rw [parts] at short ⊢
  refine receiveAnswer_closes ?_ (fun front inFront other => ?_) (List.nil_append _)
    (List.append_ne_nil_of_right_ne_nil _ (List.cons_ne_nil _ _))
  · have two : ((ascii "\r\n" ++ header ++ body ++ [0x0d] ++ [0x0a]).count 0x0a == 2) = true := by
      rw [List.count_append, before]
      decide
    have some : (answers.any (·.isPrefixOf (ascii "\r\n" ++ header ++ body ++ [0x0d] ++ [0x0a]))) =
        true := by
      refine List.any_eq_true.mpr ⟨_, known, List.isPrefixOf_iff_prefix.mpr ?_⟩
      simp only [List.append_assoc]
      exact ⟨body ++ ([0x0d] ++ [0x0a]), by simp only [List.append_assoc]⟩
    rw [isAnswer, two, some]
    rfl
  · rcases List.prefix_concat_iff.mp inFront with same | inside
    · exact absurd same other
    · have few : front.count 0x0a ≤ 1 := before ▸ inside.sublist.count_le 0x0a
      have long := inside.length_le
      rw [List.length_append, List.length_singleton] at short
      have two : (front.count 0x0a == 2) = false := beq_eq_false_iff_ne.mpr (by omega)
      have three : (front.count 0x0a == 3) = false := beq_eq_false_iff_ne.mpr (by omega)
      have less : ¬150 ≤ front.length := by
        have : ANSWER_SIZE = 150 := rfl
        omega
      rw [isAnswer, two, three, decide_eq_false less]
      rfl

theorem cxDelivers {answer : List Byte} (received : receiveAnswer [] (answer ++ later) = answer) :
    (cxCalleeConnect false framePool (answer ++ later)).2 =
      cxReport false (blit (blit framePool 0 (List.replicate 10 0)) 0 (answer ++ [0]))
        answer.length := by
  rw [cxCalleeConnect, received]
  rfl

/-! ## Parity bits in a buffer -/

theorem delMsbAt_inside (holds : Holds frame p text) :
    Holds (delMsbAt frame p text.length) p (delMsb text) := by
  rw [Holds, delMsb_length]
  have same : slice (delMsbAt frame p text.length) p text.length =
      delMsb (slice frame p text.length) := by
    rw [slice, slice, delMsb, List.map_map]
    refine List.map_congr_left fun k member => ?_
    have below := List.mem_range.mp member
    change (if _ ∧ _ ∧ _ then _ else _) = if _ then _ else _
    by_cases letter : frame (p + k) = 0x42
    · rw [if_pos letter, if_pos ⟨Nat.le_add_right _ _, Nat.add_lt_add_left below p, letter⟩]
    · rw [if_neg letter, if_neg fun all => letter all.2.2]
  rw [same]
  exact congrArg delMsb holds

theorem delMsbAt_outside {count : Nat} (holds : Holds frame p text)
    (outside : p + text.length ≤ io ∨ io + count ≤ p) :
    Holds (delMsbAt frame io count) p text := by
  rw [Holds, ← show slice frame p text.length = text from holds]
  rw [slice_length]
  refine slice_congr fun k below => if_neg ?_
  omega

/-! ## A simple report -/

section

variable (report : SimpleReport)

theorem SimpleReport.length_text : sprintf02X report.length.toNat =
      sprintf02X (8 + report.number.length) ∧
    (sprintf02X (8 + report.number.length)).length = 2 := by
  have total : report.length.toNat = 8 + report.number.length := by
    rw [SimpleReport.length, BitVec.toNat_ofNat]
    exact Nat.mod_eq_of_lt report.short
  rw [total]
  refine ⟨rfl, ?_⟩
  rw [← total, hex_byte]
  rfl

theorem SimpleReport.digit_text :
    delMsb (hexOf (report.time ++ report.number ++ [report.checksum])) =
      digitText report.time ++ digitText report.number ++ delMsb (sprintf02X report.checksum.toNat) := by
  have timeDigits : ∀ b ∈ report.time, IsDigit b := fun b member =>
    report.digits b (List.mem_append_left _ member)
  have numberDigits : ∀ b ∈ report.number, IsDigit b := fun b member =>
    report.digits b (List.mem_append_right _ member)
  rw [hexOf_append, hexOf_append, delMsb_append, delMsb_append, delMsb_digits timeDigits,
    delMsb_digits numberDigits, hexOf_singleton]

theorem cxSimple_parts : cxSimpleAnswer report = ascii "\r\n04" ++
    (sprintf02X (8 + report.number.length) ++
      (hexOf (report.time ++ report.number ++ [report.checksum]) ++ ascii "\r\n")) := by
  rw [cxSimpleAnswer, SimpleReport.body, List.cons_append, hexOf_cons, report.length_text.1]
  simp only [List.append_assoc]

theorem cxSimple_changed (holds : Holds frame 0 (cxSimpleAnswer report)) :
    (cxSimpleAnswer report).length = 26 + 2 * report.number.length ∧
      Holds frame 0 (ascii "\r\n04") ∧
      Holds (delMsbAt frame 6 (18 + 2 * report.number.length)) 4
        (sprintf02X (8 + report.number.length) ++
          (delMsb (hexOf (report.time ++ report.number ++ [report.checksum])) ++ ascii "\r\n")) := by
  have two := report.length_text.2
  have four : (ascii "\r\n04").length = 4 := by decide
  have ending : (ascii "\r\n").length = 2 := by decide
  have rest : (hexOf (report.time ++ report.number ++ [report.checksum])).length =
      18 + 2 * report.number.length := by
    rw [hexOf_length, List.length_append, List.length_append, report.whole, List.length_singleton]
    omega
  have same : (delMsb (hexOf (report.time ++ report.number ++ [report.checksum]))).length =
      18 + 2 * report.number.length := delMsb_length.trans rest
  obtain ⟨header, behind⟩ := holds_append.mp (cxSimple_parts report ▸ holds)
  obtain ⟨length, behind⟩ := holds_append.mp behind
  obtain ⟨text, line⟩ := holds_append.mp behind
  rw [four, Nat.zero_add] at length
  rw [four, two] at text
  rw [four, two, rest] at line
  refine ⟨?_, header, holds_append.mpr ⟨?_, holds_append.mpr ⟨?_, ?_⟩⟩⟩
  · rw [cxSimple_parts, List.length_append, List.length_append, List.length_append, four, two, rest,
      ending]
    omega
  · exact delMsbAt_outside length (.inl (by rw [two]))
  · rw [two, ← rest]
    exact delMsbAt_inside text
  · rw [two, same]
    exact delMsbAt_outside line (.inr (by omega))

theorem cx_simple_text (short : (cxSimpleAnswer report).length ≤ ANSWER_SIZE) (later : List Byte) :
    (cxCalleeConnect false framePool (cxSimpleAnswer report ++ later)).2.text =
      crCid ++ sprintf02X (8 + report.number.length) ++ digitText report.time ++
        digitText report.number ++ (delMsb (sprintf02X report.checksum.toNat) ++ ascii "\r\n") := by
  have received : receiveAnswer [] (cxSimpleAnswer report ++ later) = cxSimpleAnswer report :=
    receiveAnswer_line (ascii "04") (by decide) (by decide) hexOf_noLine short
  rw [cxDelivers received]
  have holds := frame_holds (blit framePool 0 (List.replicate 10 0)) (cxSimpleAnswer report)
  generalize blit (blit framePool 0 (List.replicate 10 0)) 0 (cxSimpleAnswer report ++ [0]) = frame
    at holds ⊢
  obtain ⟨size, header, changed⟩ := cxSimple_changed report holds
  have ending : (ascii "\r\n").length = 2 := by decide
  have count : (sprintf02X (8 + report.number.length) ++
      (delMsb (hexOf (report.time ++ report.number ++ [report.checksum])) ++
        ascii "\r\n")).length = 26 + 2 * report.number.length - 4 := by
    have rest : (delMsb (hexOf (report.time ++ report.number ++ [report.checksum]))).length =
        2 * (report.time ++ report.number ++ [report.checksum]).length :=
      delMsb_length.trans hexOf_length
    rw [List.length_append, List.length_append, report.length_text.2, ending, rest,
      List.length_append, List.length_append, report.whole, List.length_singleton]
    omega
  rw [cxReport, size, if_pos ⟨by omega, rfl⟩, if_pos (show slice frame 0 4 = _ from header)]
  change crCid ++ slice (if 8 < _ then delMsbAt frame 6 (_ - 8) else frame) 4 _ = _
  rw [if_pos (by omega), ← count, show 26 + 2 * report.number.length - 8 =
    18 + 2 * report.number.length by omega, show slice _ 4 _ = _ from changed, report.digit_text]
  simp only [List.append_assoc]

end

/-! ## A complex report -/

/-- A field in hexadecimal text. -/
structure TextField where
  tag : Byte
  length : Byte
  text : List Byte
  fits : text.length = 2 * length.toNat

def TextField.encode (field : TextField) : List Byte :=
  sprintf02X field.tag.toNat ++ (sprintf02X field.length.toNat ++ field.text)

/-- A field without parity bits. -/
def TextField.stripped (field : TextField) : TextField where
  tag := field.tag
  length := field.length
  text := delMsb field.text
  fits := delMsb_length.trans field.fits

theorem htoc_hex : ∀ b : Byte, htoc (hexDigit (b.toNat / 16)) (hexDigit (b.toNat % 16)) = b := by
  decide

theorem hex_injective {b c : Byte} (same : sprintf02X b.toNat = sprintf02X c.toNat) : b = c := by
  rw [hex_byte, hex_byte, List.cons.injEq, List.cons.injEq] at same
  rw [← htoc_hex b, same.1, same.2.1, htoc_hex]

theorem hex_length (b : Byte) : (sprintf02X b.toNat).length = 2 := by
  rw [hex_byte]
  rfl

theorem holds_hex {b : Byte} (holds : Holds frame p (sprintf02X b.toNat)) :
    slice frame p 2 = sprintf02X b.toNat ∧ htoc (frame p) (frame (p + 1)) = b := by
  have whole : slice frame p 2 = sprintf02X b.toNat := by
    rw [← hex_length b]
    exact holds
  refine ⟨whole, ?_⟩
  rw [hex_byte] at holds
  obtain ⟨high, rest⟩ := holds_cons.mp holds
  rw [high, (holds_cons.mp rest).1, htoc_hex]

section

variable {fields before after : List TextField} {field : TextField} {tag : Byte}

theorem text_encode_ne_nil (field : TextField) : field.encode ≠ [] := by
  intro none
  have size := congrArg List.length none
  rw [TextField.encode, List.length_append, hex_length, List.length_nil] at size
  omega

theorem text_encode_length (field : TextField) :
    field.encode.length = field.length.toNat * 2 + 4 := by
  rw [TextField.encode, List.length_append, List.length_append, hex_length, hex_length, field.fits]
  omega

theorem cxField_parts (holds : Holds frame p field.encode) :
    Holds frame p (sprintf02X field.tag.toNat) ∧
      Holds frame (p + 2) (sprintf02X field.length.toNat) ∧ Holds frame (p + 4) field.text := by
  obtain ⟨first, rest⟩ := holds_append.mp holds
  obtain ⟨second, text⟩ := holds_append.mp rest
  rw [hex_length] at second text
  rw [hex_length] at text
  exact ⟨first, second, text⟩

theorem cxField_reads (small : dn ≤ ANSWER_SIZE) (field : TextField) :
    ReadsField frame (fun p => decide (slice frame p 2 = sprintf02X tag.toNat))
      (fun p => (p + ((htoc (frame (p + 2)) (frame (p + 3))).toNat * 2 + 4)) % 65536) dn
      TextField.encode (fun field => decide (field.tag = tag)) field := by
  intro p holds inside
  obtain ⟨first, second, -⟩ := cxField_parts holds
  have size : ANSWER_SIZE = 150 := rfl
  rw [text_encode_length] at inside ⊢
  change decide (slice frame p 2 = sprintf02X tag.toNat) = decide (field.tag = tag) ∧
    (p + ((htoc (frame (p + 2)) (frame (p + 2 + 1))).toNat * 2 + 4)) % 65536 = _
  rw [(holds_hex first).1, (holds_hex second).2]
  refine ⟨?_, Nat.mod_eq_of_lt (by omega)⟩
  exact decide_eq_decide.mpr ⟨hex_injective, fun same => by rw [same]⟩

theorem cxSeek_found (small : dn ≤ ANSWER_SIZE)
    (holds : Holds frame 6 ((before ++ field :: after).flatMap TextField.encode))
    (inside : 6 + ((before ++ field :: after).flatMap TextField.encode).length ≤ dn)
    (others : ∀ f ∈ before, f.tag ≠ tag) (isField : field.tag = tag) :
    (cxSeek frame dn (sprintf02X tag.toNat)).stop =
        6 + (before.flatMap TextField.encode).length ∧
      Holds frame (6 + (before.flatMap TextField.encode).length) field.encode := by
  have few : before.length ≤ (before.flatMap TextField.encode).length :=
    length_le_flatMap fun f _ => text_encode_ne_nil f
  have split : ((before ++ field :: after).flatMap TextField.encode).length =
      (before.flatMap TextField.encode).length +
        (field.encode.length + (after.flatMap TextField.encode).length) := by
    rw [List.flatMap_append, List.flatMap_cons, List.length_append, List.length_append]
  exact seek_found holds inside (fun f _ => cxField_reads small f)
    (fun f member => decide_eq_false (others f member)) (decide_eq_true isField)
    (fun f _ => text_encode_ne_nil f) (by omega)

theorem cxSeek_missing {checksum : Byte} (small : dn ≤ ANSWER_SIZE)
    (holds : Holds frame 6 (fields.flatMap TextField.encode))
    (last : dn = 6 + (fields.flatMap TextField.encode).length + 4)
    (behind : Holds frame (6 + (fields.flatMap TextField.encode).length)
      (sprintf02X checksum.toNat))
    (other : checksum ≠ tag) (missing : ∀ f ∈ fields, f.tag ≠ tag) :
    ¬(cxSeek frame dn (sprintf02X tag.toNat)).stop < dn := by
  have few : fields.length ≤ (fields.flatMap TextField.encode).length :=
    length_le_flatMap fun f _ => text_encode_ne_nil f
  refine Nat.not_lt.mpr (seek_missing holds (by omega) (fun f _ => cxField_reads small f)
    (fun f member => decide_eq_false (missing f member)) (fun f _ => text_encode_ne_nil f)
    (by omega) (decide_eq_false ?_) ?_)
  · rw [(holds_hex behind).1]
    exact fun same => other (hex_injective same)
  · have bound := (htoc (frame (6 + (fields.flatMap TextField.encode).length + 2))
      (frame (6 + (fields.flatMap TextField.encode).length + 3))).isLt
    have size : ANSWER_SIZE = 150 := rfl
    rw [Nat.mod_eq_of_lt (by omega)]
    omega

theorem find_other (field : TextField) (other : field.tag ≠ tag) :
    ((before ++ field :: after).find? fun f => decide (f.tag = tag)) =
      (before.find? fun f => decide (f.tag = tag)).or
        (after.find? fun f => decide (f.tag = tag)) := by
  rw [List.find?_append, List.find?_cons_of_neg (by simpa using other)]

/-- Fields and a checksum in hexadecimal text, up to the end of the line. -/
structure HoldsFields (frame : Buffer) (dn : Nat) (fields : List TextField) (checksum : Byte) :
    Prop where
  texts : Holds frame 6 (fields.flatMap TextField.encode)
  behind : Holds frame (6 + (fields.flatMap TextField.encode).length) (sprintf02X checksum.toNat)
  last : dn = 6 + (fields.flatMap TextField.encode).length + 4

variable {checksum : Byte}

theorem HoldsFields.none (holds : HoldsFields frame dn fields checksum) (small : dn ≤ ANSWER_SIZE)
    (other : checksum ≠ tag) (missing : (fields.find? fun f => decide (f.tag = tag)) = none) :
    ¬(cxSeek frame dn (sprintf02X tag.toNat)).stop < dn :=
  cxSeek_missing small holds.texts holds.last holds.behind other fun f member same =>
    List.find?_eq_none.mp missing f member (decide_eq_true same)

theorem HoldsFields.some (holds : HoldsFields frame dn fields checksum) (small : dn ≤ ANSWER_SIZE)
    (found : (fields.find? fun f => decide (f.tag = tag)) = some field) :
    (cxSeek frame dn (sprintf02X tag.toNat)).stop + 4 + field.text.length ≤ dn ∧
      cxLength frame (cxSeek frame dn (sprintf02X tag.toNat)).stop = field.length ∧
      Holds frame ((cxSeek frame dn (sprintf02X tag.toNat)).stop + 4) field.text := by
  obtain ⟨isField, before, after, rfl, others⟩ := List.find?_eq_some_iff_append.mp found
  have last := holds.last
  obtain ⟨stop, here⟩ := cxSeek_found small holds.texts (by omega)
    (fun f member => by simpa using others f member) (by simpa using isField)
  obtain ⟨-, length, text⟩ := cxField_parts here
  rw [List.flatMap_append, List.flatMap_cons, List.length_append, List.length_append,
    text_encode_length] at last
  have fits := field.fits
  rw [stop]
  exact ⟨by omega, (holds_hex length).2, text⟩

theorem HoldsFields.strip (holds : HoldsFields frame dn (before ++ field :: after) checksum) :
    HoldsFields (delMsbAt frame (6 + (before.flatMap TextField.encode).length + 4)
      field.text.length) dn (before ++ field.stripped :: after) checksum := by
  have same : field.stripped.encode.length = field.encode.length := by
    rw [text_encode_length, text_encode_length]
    rfl
  have whole : ((before ++ field.stripped :: after).flatMap TextField.encode).length =
      ((before ++ field :: after).flatMap TextField.encode).length := by
    rw [List.flatMap_append, List.flatMap_append, List.flatMap_cons, List.flatMap_cons,
      List.length_append, List.length_append, List.length_append, List.length_append, same]
  obtain ⟨fields, checksum, last⟩ := holds
  rw [← whole] at checksum last
  have split : ((before ++ field.stripped :: after).flatMap TextField.encode).length =
      (before.flatMap TextField.encode).length +
        (field.encode.length + (after.flatMap TextField.encode).length) := by
    rw [whole, List.flatMap_append, List.flatMap_cons, List.length_append, List.length_append]
  have size := text_encode_length field
  have fits := field.fits
  refine ⟨?_, delMsbAt_outside checksum (.inr (by omega)), last⟩
  rw [List.flatMap_append, List.flatMap_cons, holds_append, holds_append] at fields ⊢
  obtain ⟨front, here, back⟩ := fields
  obtain ⟨tag, length, text⟩ := cxField_parts here
  refine ⟨delMsbAt_outside front (.inl (Nat.le_add_right _ _)), ?_, ?_⟩
  · rw [TextField.encode, holds_append, holds_append, hex_length, hex_length]
    refine ⟨delMsbAt_outside tag (.inl ?_), delMsbAt_outside length (.inl ?_), delMsbAt_inside text⟩
    · rw [hex_length]
      omega
    · rw [hex_length]
  · rw [same]
    exact delMsbAt_outside back (.inr (by omega))

end

def Field.asText (field : Field) : TextField where
  tag := field.tag
  length := BitVec.ofNat 8 field.data.length
  text := hexOf field.data
  fits := by
    rw [hexOf_length, BitVec.toNat_ofNat, Nat.mod_eq_of_lt (show field.data.length < 2 ^ 8 from
      field.short)]

section

variable (report : ComplexReport)

theorem asText_encode (field : Field) : field.asText.encode = hexOf field.encode := by
  rw [Field.encode, hexOf_cons, hexOf_cons]
  rfl

theorem find_asText (tag : Byte) :
    ((report.fields.map Field.asText).find? fun f => decide (f.tag = tag)) =
      (report.fields.find? fun f => decide (f.tag = tag)).map Field.asText := by
  rw [List.find?_map]
  rfl

theorem cxComplex_parts : cxComplexAnswer report = ascii "\r\n80" ++
    (sprintf02X report.total.toNat ++ ((report.fields.map Field.asText).flatMap TextField.encode ++
      (sprintf02X report.checksum.toNat ++ ascii "\r\n"))) := by
  have texts : (report.fields.map Field.asText).flatMap TextField.encode =
      hexOf (report.fields.flatMap Field.encode) := by
    rw [List.flatMap_map, hexOf, List.flatMap_assoc]
    exact congrArg (report.fields.flatMap ·) (funext asText_encode)
  rw [texts, cxComplexAnswer, hexOf_cons, hexOf_append, hexOf_singleton]
  simp only [List.append_assoc]

theorem cxComplex_holds (holds : Holds frame 0 (cxComplexAnswer report)) :
    Holds frame 0 (ascii "\r\n80") ∧
      HoldsFields frame (cxComplexAnswer report).length (report.fields.map Field.asText)
        report.checksum := by
  have four : (ascii "\r\n80").length = 4 := by decide
  have ending : (ascii "\r\n").length = 2 := by decide
  obtain ⟨header, rest⟩ := holds_append.mp (cxComplex_parts report ▸ holds)
  obtain ⟨-, rest⟩ := holds_append.mp rest
  obtain ⟨texts, rest⟩ := holds_append.mp rest
  obtain ⟨behind, -⟩ := holds_append.mp rest
  rw [four, hex_length] at texts behind
  refine ⟨header, texts, behind, ?_⟩
  rw [cxComplex_parts, List.length_append, List.length_append, List.length_append,
    List.length_append, four, hex_length, hex_length, ending]
  omega

theorem cxTimed_text (small : dn ≤ ANSWER_SIZE)
    (holds : HoldsFields frame dn (report.fields.map Field.asText) report.checksum)
    (distinct : report.Distinct) :
    ∃ fields, HoldsFields (cxTimed frame dn) dn fields report.checksum ∧
      (fields.find? fun f => decide (f.tag = 2)) =
        (report.fields.find? fun f => decide (f.tag = 2)).map Field.asText ∧
      (if (cxSeek frame dn (ascii "01")).stop < dn then
        slice (cxTimed frame dn) ((cxSeek frame dn (ascii "01")).stop + 4) 16
        else List.replicate 16 0x30) = timeText (report.find 1) := by
  rw [cxTimed, show ascii "01" = sprintf02X (1 : Byte).toNat by decide]
  have search := find_asText report 1
  cases first : report.fields.find? fun f => decide (f.tag = 1) with
  | none =>
      have none : report.find 1 = none := by rw [ComplexReport.find, first]; rfl
      rw [first] at search
      have missing := holds.none small (distinct.1 none) search
      rw [if_neg missing, if_neg missing, none]
      exact ⟨_, holds, find_asText report 2, rfl⟩
  | some field =>
      have found : report.find 1 = some field.data := by rw [ComplexReport.find, first]; rfl
      obtain ⟨eight, digits⟩ := find_time found
      have size : field.asText.text.length = 16 := hexOf_length.trans (by rw [eight])
      rw [first] at search
      obtain ⟨within, -, text⟩ := holds.some small search
      rw [if_pos (by omega), if_pos (by omega), found]
      obtain ⟨isTime, before, after, parts, others⟩ := List.find?_eq_some_iff_append.mp first
      have tag : field.tag = 1 := by simpa using isTime
      rw [parts, List.map_append, List.map_cons] at holds
      obtain ⟨stop, -⟩ := cxSeek_found small holds.texts
        (by rw [holds.last]; exact Nat.le_add_right _ _)
        (fun f member => by
          obtain ⟨g, inside, rfl⟩ := List.mem_map.mp member
          have other : ¬g.tag = 1 := by simpa using others g inside
          exact other) tag
      have digit : delMsb field.asText.text = digitText field.data := delMsb_digits digits
      refine ⟨before.map Field.asText ++ field.asText.stripped :: after.map Field.asText,
        ?_, ?_, ?_⟩
      · rw [stop, ← size]
        exact holds.strip
      · have other : ¬field.tag = 2 := by
          rw [tag]
          decide
        have number := find_asText report 2
        rw [parts, List.map_append, List.map_cons, find_other field.asText other] at number
        rw [find_other field.asText.stripped other, parts]
        exact number
      · have changed := delMsbAt_inside text
        have count : (delMsb field.asText.text).length = 16 := delMsb_length.trans size
        rw [Holds, count, size, digit] at changed
        exact changed

theorem cxComplex_text (small : dn ≤ ANSWER_SIZE)
    (holds : HoldsFields frame dn (report.fields.map Field.asText) report.checksum)
    (distinct : report.Distinct) : (cxComplex frame dn).text =
      crCid ++ sprintf02X (8 + ((report.find 2).getD []).length) ++ timeText (report.find 1) ++
        digitText ((report.find 2).getD []) ++ ascii "FF\r\n" := by
  obtain ⟨fields, timed, number, time⟩ := cxTimed_text report small holds distinct
  have search := find_asText report 2
  rw [cxComplex, show ascii "02" = sprintf02X (2 : Byte).toNat by decide]
  cases first : report.fields.find? fun f => decide (f.tag = 2) with
  | none =>
      have none : report.find 2 = none := by rw [ComplexReport.find, first]; rfl
      rw [first] at search number
      have missing := holds.none small (distinct.2 none) search
      have missingLater := timed.none small (distinct.2 none) number
      simp only [if_neg missing, if_neg missingLater, time, none]
      rfl
  | some field =>
      have found : report.find 2 = some field.data := by rw [ComplexReport.find, first]; rfl
      rw [first] at search number
      obtain ⟨within, length, -⟩ := holds.some small search
      obtain ⟨withinLater, lengthLater, text⟩ := timed.some small number
      have size : field.asText.text.length = 2 * field.data.length := hexOf_length
      have limit : ANSWER_SIZE = 150 := rfl
      have count : field.asText.length.toNat = field.data.length := by
        rw [Field.asText, BitVec.toNat_ofNat, Nat.mod_eq_of_lt (show _ < 2 ^ 8 from field.short)]
      have total : (8 + field.asText.length : Byte).toNat = 8 + field.data.length := by
        rw [BitVec.toNat_add, count]
        exact Nat.mod_eq_of_lt (show 8 + field.data.length < 2 ^ 8 by omega)
      have twice : (field.asText.length * 2 : Byte).toNat = field.asText.text.length := by
        rw [BitVec.toNat_mul, count, size, Nat.mul_comm]
        exact Nat.mod_eq_of_lt (show 2 * field.data.length < 2 ^ 8 by omega)
      have digits : delMsb field.asText.text = digitText field.data :=
        delMsb_digits (find_number found)
      have changed := delMsbAt_inside text
      rw [Holds, delMsb_length, digits] at changed
      have here : (cxSeek frame dn (sprintf02X (2 : Byte).toNat)).stop < dn := by omega
      have later : (cxSeek (cxTimed frame dn) dn (sprintf02X (2 : Byte).toNat)).stop < dn := by
        omega
      simp only [if_pos here, if_pos later, length, lengthLater, total, twice, time, changed, found]
      rfl

theorem cx_complex_text (distinct : report.Distinct)
    (short : (cxComplexAnswer report).length ≤ ANSWER_SIZE) (later : List Byte) :
    (cxCalleeConnect false framePool (cxComplexAnswer report ++ later)).2.text =
      crCid ++ sprintf02X (8 + ((report.find 2).getD []).length) ++ timeText (report.find 1) ++
        digitText ((report.find 2).getD []) ++ ascii "FF\r\n" := by
  have received : receiveAnswer [] (cxComplexAnswer report ++ later) = cxComplexAnswer report :=
    receiveAnswer_line (ascii "80") (by decide) (by decide) hexOf_noLine short
  rw [cxDelivers received]
  have whole := frame_holds (blit framePool 0 (List.replicate 10 0)) (cxComplexAnswer report)
  generalize blit (blit framePool 0 (List.replicate 10 0)) 0 (cxComplexAnswer report ++ [0]) = frame
    at whole ⊢
  obtain ⟨header, holds⟩ := cxComplex_holds report whole
  have format : slice frame 0 4 = ascii "\r\n80" := header
  have long : 4 < (cxComplexAnswer report).length := by
    rw [holds.last]
    omega
  rw [cxReport, if_pos ⟨long, rfl⟩,
    if_neg fun simple => absurd (simple.symm.trans format) (by decide), if_pos format]
  exact cxComplex_text report short holds distinct

end

/-! ## Both modems -/

/-- The text of a number is stored behind what the application has not read yet. -/
def Stores (pool text : List Byte) (total : Nat) (time number : List Byte) : Prop :=
  ∃ stored, storeResponse pool text = pool ++ stored ∧ Announces stored total time number

/-- There is room for the text of a number. -/
def Room (pool number : List Byte) : Prop := pool.length + (28 + 2 * number.length) ≤ DATA_SIZE + 5

theorem storeResponse_room {pool : List Byte} (room : pool.length + text.length ≤ DATA_SIZE + 5) :
    storeResponse pool text = pool ++ text := by
  induction text generalizing pool with
  | nil => exact (List.append_nil pool).symm
  | cons b text ih =>
      rw [List.length_cons] at room
      have stored : storeByte pool b = pool ++ [b] := if_pos (by omega)
      change storeResponse (storeByte pool b) text = _
      rw [stored, ih (by rw [List.length_append, List.length_singleton]; omega), List.append_assoc]
      rfl

theorem digitText_length : (digitText bytes).length = 2 * bytes.length := by
  rw [digitText, hexOf_length, List.length_map]

theorem announced_length {text time number : List Byte} {total : Nat} (byte : total < 256)
    (sixteen : time.length = 16) (announces : Announces text total time number) :
    text.length = 28 + 2 * number.length := by
  obtain ⟨tail, four, rfl⟩ := announces
  have two : (sprintf02X total).length = 2 := by
    have hex := hex_length (BitVec.ofNat 8 total)
    rwa [BitVec.toNat_ofNat, Nat.mod_eq_of_lt (show total < 2 ^ 8 from byte)] at hex
  have header : crCid.length = 6 := by decide
  rw [List.length_append, List.length_append, List.length_append, List.length_append, header, two,
    sixteen, digitText_length, four]
  omega

theorem stores_of_announces {pool text time number : List Byte} {total : Nat} (byte : total < 256)
    (sixteen : time.length = 16) (room : Room pool number)
    (announces : Announces text total time number) : Stores pool text total time number := by
  refine ⟨text, storeResponse_room ?_, announces⟩
  rw [announced_length byte sixteen announces]
  exact room

theorem timeText_length {report : ComplexReport} : (timeText (report.find 1)).length = 16 := by
  cases found : report.find 1 with
  | none => rfl
  | some data => exact digitText_length.trans (by rw [(find_time found).1])

theorem delMsb_eq_self_iff : delMsb bytes = bytes ↔ 0x42 ∉ bytes := by
  induction bytes with
  | nil => exact iff_of_true rfl List.not_mem_nil
  | cons b bytes ih =>
      rw [delMsb, List.map_cons, List.cons.injEq, List.mem_cons, not_or]
      refine and_congr ?_ ih
      by_cases letter : b = 0x42
      · rw [if_pos letter, letter]
        exact iff_of_false (by decide) fun other => other rfl
      · rw [if_neg letter]
        exact iff_of_true rfl (Ne.symm letter)

/-- A silicon modem's simple report is stored as its number and time exactly if the text of its
length has no letter `B`. -/
theorem si_simple_stores {codes pool : List Byte} {dtmfCode : Buffer} (report : SimpleReport)
    (quiet : Quiet codes) (room : Room pool report.number) (later : List Byte) (i : Nat) :
    Stores pool (siCalleeConnect false framePool dtmfCode i
        (siDelivers codes (siSimpleBytes report) later)).2.text (8 + report.number.length)
        (digitText report.time) report.number ↔
      0x42 ∉ sprintf02X (8 + report.number.length) := by
  have sixteen : (digitText report.time).length = 16 :=
    digitText_length.trans (by rw [report.whole])
  have four : (sprintf02X report.checksum.toNat ++ ascii "\r\n").length = 4 := by
    rw [List.length_append, hex_length]
    decide
  have same := @delMsb_length (sprintf02X (8 + report.number.length))
  rw [si_simple_text report quiet later i, ← delMsb_eq_self_iff]
  constructor
  · rintro ⟨stored, kept, tail, -, rfl⟩
    have fits : pool.length + (crCid ++ delMsb (sprintf02X (8 + report.number.length)) ++
        digitText report.time ++ digitText report.number ++
        (sprintf02X report.checksum.toNat ++ ascii "\r\n")).length ≤ DATA_SIZE + 5 := by
      have header : crCid.length = 6 := by decide
      rw [List.length_append, List.length_append, List.length_append, List.length_append, header,
        same, report.length_text.2, sixteen, digitText_length, four]
      unfold Room at room
      omega
    have texts := List.append_cancel_left ((storeResponse_room fits).symm.trans kept)
    simp only [List.append_assoc] at texts
    exact (List.append_inj (List.append_cancel_left texts) same).1
  · intro clean
    rw [clean]
    exact stores_of_announces report.short sixteen room ⟨_, four, rfl⟩

theorem complex_announces (report : ComplexReport) :
    Announces (crCid ++ sprintf02X (8 + ((report.find 2).getD []).length) ++
      timeText (report.find 1) ++ digitText ((report.find 2).getD []) ++ ascii "FF\r\n")
      (8 + ((report.find 2).getD []).length) (timeText (report.find 1))
      ((report.find 2).getD []) := ⟨_, by decide, rfl⟩

theorem find_length {report : ComplexReport} {tag : Byte} {data : List Byte}
    (found : report.find tag = some data) :
    data.length + 2 ≤ (report.fields.flatMap Field.encode).length := by
  obtain ⟨field, first, rfl⟩ := Option.map_eq_some_iff.mp found
  obtain ⟨-, before, after, parts, -⟩ := List.find?_eq_some_iff_append.mp first
  rw [parts, List.flatMap_append, List.flatMap_cons, List.length_append, List.length_append,
    encode_length]
  omega

theorem cxComplexAnswer_length (report : ComplexReport) : (cxComplexAnswer report).length =
    10 + 2 * (report.fields.flatMap Field.encode).length := by
  have four : (ascii "\r\n80").length = 4 := by decide
  have ending : (ascii "\r\n").length = 2 := by decide
  rw [cxComplexAnswer, List.length_append, List.length_append, four, ending, hexOf_length,
    List.length_cons, List.length_append, List.length_singleton]
  omega

theorem total_byte {number : Option (List Byte)}
    (short : ∀ digits, number = some digits → digits.length < 248) :
    8 + (number.getD []).length < 256 := by
  cases number with
  | none => exact Nat.lt_of_sub_pos (by decide)
  | some digits =>
      have := short digits rfl
      exact Nat.add_lt_add_left this 8

/-- **Reports of a caller's number.** A call is safe exactly if what the modem delivers fits; and a
simple report, a complex one and tones are stored as the number and the time if they are one of
those that are put out right. -/
theorem caller_id_reports (answerInterface : Bool) (framePool dtmfCode : Buffer) (i : Nat)
    (rx later pool : List Byte) :
    (SiSafe (siCalleeConnect answerInterface framePool dtmfCode i rx) ↔
      SiFits answerInterface framePool i (signals rx)) ∧
    (CxSafe (cxCalleeConnect answerInterface framePool rx) ↔
      CxFits answerInterface (answerFrame framePool (receiveAnswer [] rx))
        (receiveAnswer [] rx).length) ∧
    (∀ codes, ∀ report : SimpleReport, Quiet codes → Room pool report.number →
      (Stores pool (siCalleeConnect false framePool dtmfCode i
          (siDelivers codes (siSimpleBytes report) later)).2.text (8 + report.number.length)
          (digitText report.time) report.number ↔
        0x42 ∉ sprintf02X (8 + report.number.length))) ∧
    (∀ codes, ∀ report : ComplexReport, Quiet codes →
      ClosesOnce (siComplexBytes report) → report.Distinct →
      (∀ number, report.find 2 = some number → number.length < 248) →
      (siComplexBytes report).length < FRAME_SIZE → Room pool ((report.find 2).getD []) →
      Stores pool (siCalleeConnect false framePool dtmfCode i
          (siDelivers codes (siComplexBytes report) later)).2.text
        (8 + ((report.find 2).getD []).length) (timeText (report.find 1))
        ((report.find 2).getD [])) ∧
    (∀ report : ToneReport, report.Fits i → Room pool report.number →
      Stores pool (siCalleeConnect false framePool dtmfCode i
          (siDeliversTones report.tones later)).2.text
        (16 + report.number.length) (List.replicate 16 0x20) report.number) ∧
    (∀ report : SimpleReport,
      (cxSimpleAnswer report).length ≤ ANSWER_SIZE → Room pool report.number →
      Stores pool (cxCalleeConnect false framePool (cxSimpleAnswer report ++ later)).2.text
        (8 + report.number.length) (digitText report.time) report.number) ∧
    ∀ report : ComplexReport, report.Distinct →
      (cxComplexAnswer report).length ≤ ANSWER_SIZE → Room pool ((report.find 2).getD []) →
      Stores pool (cxCalleeConnect false framePool (cxComplexAnswer report ++ later)).2.text
        (8 + ((report.find 2).getD []).length) (timeText (report.find 1))
        ((report.find 2).getD []) := by
  refine ⟨siCalleeConnect_safe_iff .., cxCalleeConnect_safe_iff .., ?_, ?_, ?_, ?_, ?_⟩
  · intro codes report quiet room
    exact si_simple_stores report quiet room later i
  · intro codes report quiet closes distinct short inside room
    rw [si_complex_text report quiet closes distinct short inside]
    exact stores_of_announces (total_byte short) timeText_length room (complex_announces report)
  · intro report fits room
    have few : report.number.length ≤ CODE_SIZE := by
      rw [← report.trimmed fits]
      exact Nat.le_trans trimTail_length.1 (Nat.le_trans trimLeading_le fits.few)
    have byte : 16 + report.number.length < 256 :=
      Nat.lt_of_le_of_lt (Nat.add_le_add_left few 16) (by decide)
    rw [si_tones_text report fits later]
    exact stores_of_announces byte List.length_replicate room ⟨_, by decide, rfl⟩
  · intro report short room
    have sixteen : (digitText report.time).length = 16 :=
      digitText_length.trans (by rw [report.whole])
    rw [cx_simple_text report short later]
    refine stores_of_announces report.short sixteen room ⟨_, ?_, rfl⟩
    rw [List.length_append, delMsb, List.length_map, hex_length]
    decide
  · intro report distinct short room
    have few : ∀ number, report.find 2 = some number → number.length < 248 := by
      intro number found
      have inside := find_length found
      have limit : ANSWER_SIZE = 150 := rfl
      rw [cxComplexAnswer_length] at short
      omega
    rw [cx_complex_text report distinct short later]
    exact stores_of_announces (total_byte few) timeText_length room (complex_announces report)

/-- The reports and the tones that the comments of the source show. -/
def sampleSimple : SimpleReport where
  time := ascii "05131742"
  number := ascii "86155469"
  checksum := 0xa9
  whole := by decide
  digits := by decide
  short := by decide

def sampleComplex : ComplexReport where
  total := 0x21
  fields :=
    [⟨0x01, [0xb0, 0x38, 0x32, 0x31, 0x32, 0xb0, 0xb3, 0x31], by decide⟩,
      ⟨0x02, [0x32, 0xb9, 0xb0, 0x31, 0x32, 0xb3, 0x34, 0xb5, 0xb6, 0x37, 0xb0, 0x31], by decide⟩,
      ⟨0x07, [0xc2, 0xe5, 0xe9, 0xea, 0xe9, 0x6e, 0x67], by decide⟩]
  checksum := 0x89
  time := by decide
  number := by decide

def sampleTones : ToneReport where
  tones := ascii "D543210987602C"
  some := by decide
  all := by decide

theorem sampleComplex_closes : ClosesOnce (siComplexBytes sampleComplex) := by
  refine ⟨List.suffix_append _ _, fun front inFront closed => ?_⟩
  have places : ∀ k < 56, ¬endOfReport <:+ (siComplexBytes sampleComplex).take k := by
    decide +kernel
  rw [List.prefix_iff_eq_take.mp inFront] at closed
  have whole : (siComplexBytes sampleComplex).length = 56 := by decide
  have long : 56 ≤ front.length := Nat.le_of_not_lt fun short => places _ short closed
  exact inFront.eq_of_length_le (by rwa [whole])

theorem samples_stored :
    Stores [] (siCalleeConnect false (fun _ => 0) (fun _ => 0) 0
        (siDelivers [0x52, 0x58] (siSimpleBytes sampleSimple) [])).2.text
        (8 + sampleSimple.number.length) (digitText sampleSimple.time) sampleSimple.number ∧
      Stores [] (siCalleeConnect false (fun _ => 0) (fun _ => 0) 0
        (siDelivers [0x52, 0x58] (siComplexBytes sampleComplex) [])).2.text
        (8 + ((sampleComplex.find 2).getD []).length) (timeText (sampleComplex.find 1))
        ((sampleComplex.find 2).getD []) ∧
      Stores [] (siCalleeConnect false (fun _ => 0) (fun _ => 0) 0
        (siDeliversTones sampleTones.tones [])).2.text
        (16 + sampleTones.number.length) (List.replicate 16 0x20) sampleTones.number ∧
      Stores [] (cxCalleeConnect false (fun _ => 0) (cxSimpleAnswer sampleSimple ++ [])).2.text
        (8 + sampleSimple.number.length) (digitText sampleSimple.time) sampleSimple.number ∧
      Stores [] (cxCalleeConnect false (fun _ => 0) (cxComplexAnswer sampleComplex ++ [])).2.text
        (8 + ((sampleComplex.find 2).getD []).length) (timeText (sampleComplex.find 1))
        ((sampleComplex.find 2).getD []) := by
  obtain ⟨-, -, simple, complex, tones, simpleAnswer, complexAnswer⟩ :=
    caller_id_reports false (fun _ => 0) (fun _ => 0) 0 [] [] []
  have quiet : Quiet [0x52, 0x58] := by
    unfold Quiet
    decide
  have room : ∀ number : List Byte, number.length < 100 → Room [] number := fun number few => by
    have : DATA_SIZE = 2048 := rfl
    unfold Room
    rw [List.length_nil]
    omega
  have distinct : sampleComplex.Distinct := by
    unfold ComplexReport.Distinct
    decide
  have short : ∀ number, sampleComplex.find 2 = some number → number.length < 248 := by
    intro number found
    obtain rfl := Option.some.inj found
    decide
  refine ⟨?_, ?_, ?_, ?_, ?_⟩
  · exact (simple _ sampleSimple quiet (room _ (by decide))).mpr (by decide)
  · exact complex _ sampleComplex quiet sampleComplex_closes distinct short (by decide)
      (room _ (by decide))
  · exact tones sampleTones ⟨by decide, by decide, rfl⟩ (room _ (by decide))
  · exact simpleAnswer sampleSimple (by decide) (room _ (by decide))
  · exact complexAnswer sampleComplex distinct (by decide) (room _ (by decide))

/-- Tones with a letter in front of the number and one behind it. -/
def letteredTones : ToneReport where
  tones := ascii "A5550123C"
  some := by decide
  all := by decide

/-- The letter `A` is put out with the number. -/
theorem leading_letter_stays : ¬Stores [] (siCalleeConnect false (fun _ => 0) (fun _ => 0) 0
    (siDeliversTones letteredTones.tones [])).2.text (16 + letteredTones.number.length)
    (List.replicate 16 0x20) letteredTones.number := by
  rintro ⟨stored, kept, tail, -, rfl⟩
  have front : (storeResponse [] (siCalleeConnect false (fun _ => 0) (fun _ => 0) 0
      (siDeliversTones letteredTones.tones [])).2.text).take 8 =
        crCid ++ sprintf02X (16 + letteredTones.number.length) := by
    rw [kept]
    rfl
  exact absurd front (by decide +kernel)

end PosFirmware.Modem.CallerId
