import PosFirmware.CfgManage.ModifiedConfig

/-! # Records of settings

The records of the stored parameter (`Stored`), and what the three ways to write do to its string
(`replaceContext_eq`, `appendRecord_eq`, `firstRecord_eq`).
-/

namespace PosFirmware.CfgManage

open PosFirmware.Foundation

abbrev Pages := PageNo × PageNo × PageNo

/-! ## Records -/

/-- A string that a record can hold. -/
structure Clean (string : List Byte) : Prop where
  short : string.length ≤ ITEM_SIZE
  noEnd : 0 ∉ string
  noFill : 0x04 ∉ string

/-- A keyword and a context, each filled up. -/
def record (entry : List Byte × List Byte) : List Byte :=
  filledUp 0x04 ITEM_SIZE entry.1 ++ filledUp 0x04 ITEM_SIZE entry.2

/-- The string of the records, behind the flag and the pages. -/
def stored (parameter : Parameter) : List Byte :=
  match parameter with
  | some value => if VALID_CFG_PARAM <+: value then value.drop (ITEM_SIZE * 2) else []
  | none => []

/-- The records of a string. -/
def recordsIn : Nat → List Byte → List (List Byte × List Byte)
  | 0, _ => []
  | n + 1, string =>
      (stringOf 0x04 (string.take ITEM_SIZE),
        stringOf 0x04 ((string.drop ITEM_SIZE).take ITEM_SIZE)) ::
      recordsIn n (string.drop (ITEM_SIZE * 2))

def records (parameter : Parameter) : List (List Byte × List Byte) :=
  recordsIn ((stored parameter).length / (ITEM_SIZE * 2)) (stored parameter)

/-- No settings: nothing was stored yet, or `CheckCfgParam` has made it invalid. -/
def Unset (parameter : Parameter) : Prop :=
  parameter = none ∨ parameter = some (List.replicate ITEM_SIZE 0x04)

/-- A parameter with these records. -/
inductive Stored : Parameter → List (List Byte × List Byte) → Prop
  | unset {parameter : Parameter} : Unset parameter → Stored parameter []
  | set {header : List Byte} {entries : List (List Byte × List Byte)} :
      header.length = ITEM_SIZE * 2 → 0 ∉ header → VALID_CFG_PARAM <+: header →
      (∀ entry ∈ entries, Clean entry.1 ∧ Clean entry.2) → (entries.map Prod.fst).Nodup →
      ITEM_SIZE * 2 * (entries.length + 1) < VALUE_SIZE →
      Stored (some (header ++ entries.flatMap record)) entries

variable {parameter : Parameter} {entries front back : List (List Byte × List Byte)}
  {keyword context old string header : List Byte}

theorem Clean.filled_length (clean : Clean string) :
    (filledUp 0x04 ITEM_SIZE string).length = ITEM_SIZE := filledUp_length clean.short

theorem Clean.filled_noEnd (clean : Clean string) : 0 ∉ filledUp 0x04 ITEM_SIZE string := by
  intro member
  rcases List.mem_append.mp member with own | filling
  · exact clean.noEnd own
  · exact absurd (List.eq_of_mem_replicate filling) (by decide)

theorem record_length (clean : Clean keyword ∧ Clean context) :
    (record (keyword, context)).length = ITEM_SIZE * 2 := by
  rw [record, List.length_append, clean.1.filled_length, clean.2.filled_length]
  rfl

theorem records_length (clean : ∀ entry ∈ entries, Clean entry.1 ∧ Clean entry.2) :
    (entries.flatMap record).length = ITEM_SIZE * 2 * entries.length := by
  induction entries with
  | nil => rfl
  | cons entry entries ih =>
      obtain ⟨first, rest⟩ := List.forall_mem_cons.mp clean
      rw [List.flatMap_cons, List.length_append, record_length first, ih rest, Nat.add_comm]
      exact (Nat.mul_succ _ _).symm

theorem records_noEnd (clean : ∀ entry ∈ entries, Clean entry.1 ∧ Clean entry.2) :
    0 ∉ entries.flatMap record := by
  intro member
  obtain ⟨entry, isIn, inRecord⟩ := List.mem_flatMap.mp member
  rcases List.mem_append.mp inRecord with inKeyword | inContext
  · exact (clean entry isIn).1.filled_noEnd inKeyword
  · exact (clean entry isIn).2.filled_noEnd inContext

theorem recordsIn_flatMap (clean : ∀ entry ∈ entries, Clean entry.1 ∧ Clean entry.2) :
    recordsIn entries.length (entries.flatMap record) = entries := by
  induction entries with
  | nil => rfl
  | cons entry entries ih =>
      obtain ⟨⟨keyClean, contextClean⟩, rest⟩ := List.forall_mem_cons.mp clean
      have key := keyClean.filled_length
      have whole : (record (entry.1, entry.2)).length = ITEM_SIZE * 2 :=
        record_length ⟨keyClean, contextClean⟩
      have first : (record entry ++ entries.flatMap record).take ITEM_SIZE =
          filledUp 0x04 ITEM_SIZE entry.1 := by
        rw [record, List.append_assoc, List.take_left' key]
      have second : ((record entry ++ entries.flatMap record).drop ITEM_SIZE).take ITEM_SIZE =
          filledUp 0x04 ITEM_SIZE entry.2 := by
        rw [record, List.append_assoc, List.drop_left' key, List.take_left' contextClean.filled_length]
      rw [List.length_cons, recordsIn, List.flatMap_cons, first, second,
        stringOf_filledUp keyClean.noFill, stringOf_filledUp contextClean.noFill,
        List.drop_left' whole, ih rest]

theorem stored_set (long : header.length = ITEM_SIZE * 2) (flag : VALID_CFG_PARAM <+: header) :
    stored (some (header ++ string)) = string := by
  rw [stored, if_pos (flag.trans (List.prefix_append _ _)), List.drop_left' long]

theorem Stored.records (isStored : Stored parameter entries) :
    CfgManage.records parameter = entries := by
  cases isStored with
  | unset unset =>
      rcases unset with rfl | rfl
      · rfl
      · decide
  | set long noEnd flag clean once room =>
      rw [CfgManage.records, stored_set long flag, records_length clean,
        Nat.mul_div_cancel_left _ (by decide), recordsIn_flatMap clean]

/-! ## Keywords -/

theorem keywords_clean : ∀ config ∈ versiconKeyword, (text config.keyword).length ≤ ITEM_SIZE ∧
    0 ∉ text config.keyword ∧ 0x04 ∉ text config.keyword ∧ text config.keyword ≠ [] ∧
      trimmed (text config.keyword) = text config.keyword := by
  decide +kernel

theorem keywords_once : (versiconKeyword.map fun config => text config.keyword).Nodup := by
  decide +kernel

/-! ## The buffers -/

theorem readValue_some (room : string.length < VALUE_SIZE) : readValue (some string) =
    some (string ++ List.replicate (VALUE_SIZE - string.length) 0) := by
  have fits : 0 + (string ++ [0]).length ≤ (List.replicate VALUE_SIZE (0 : Byte)).length := by
    rw [List.length_append, List.length_replicate]
    exact Nat.le_trans (Nat.le_of_eq (Nat.zero_add _)) room
  have rest : VALUE_SIZE - string.length = (VALUE_SIZE - (string.length + 1)) + 1 := by omega
  rw [readValue, Option.elim_some, copyTo, if_pos fits, List.take_zero, List.nil_append,
    List.drop_replicate, List.append_assoc, List.length_append, Nat.zero_add, rest,
    List.replicate_succ]
  rfl

theorem writeValue_zeros (noEnd : 0 ∉ string) {count : Nat} (some_ : 0 < count) :
    writeValue (string ++ List.replicate count 0) = some (some string) := by
  have member : 0 ∈ string ++ List.replicate count (0 : Byte) :=
    List.mem_append_right _ (List.mem_replicate.mpr ⟨Nat.ne_of_gt some_, rfl⟩)
  rw [writeValue, if_pos member, stringOf_replicate noEnd]

theorem copyTo_filled {filled : List Byte} {count : Nat} (short : string.length ≤ ITEM_SIZE)
    (room : ITEM_SIZE ≤ count) :
    copyTo (filled ++ List.replicate count 0x04) filled.length string =
      some (filled ++ filledUp 0x04 ITEM_SIZE string ++ List.replicate (count - ITEM_SIZE) 0x04) :=
  copyTo_replicate short room

theorem copyTo_filling (short : string.length ≤ ITEM_SIZE) : copyTo filling 0 string =
    some (filledUp 0x04 ITEM_SIZE string ++ List.replicate (VALUE_SIZE - ITEM_SIZE) 0x04) := by
  have copied := @copyTo_filled string [] VALUE_SIZE short (by decide)
  rwa [List.nil_append, List.nil_append] at copied

theorem replaceContext_eq {before after : List Byte} {place count : Nat}
    (long : before.length = place + ITEM_SIZE) (cleanOld : Clean old) (clean : Clean context)
    (beforeFree : 0 ∉ before) (afterFree : 0 ∉ after) (some_ : 0 < count) :
    replaceContext parameter
      (before ++ (filledUp 0x04 ITEM_SIZE old ++ (after ++ List.replicate count 0))) context place =
      if context <+: old then some (0, parameter)
      else some (0, some (before ++ (filledUp 0x04 ITEM_SIZE context ++ after))) := by
  have oldLong := cleanOld.filled_length
  have short := clean.short
  have room : ¬ (before ++ (filledUp 0x04 ITEM_SIZE old ++
      (after ++ List.replicate count 0))).length < place + ITEM_SIZE + context.length := by
    rw [List.length_append, List.length_append, oldLong, long]
    omega
  have there : ((before ++ (filledUp 0x04 ITEM_SIZE old ++ (after ++ List.replicate count 0))).drop
      (place + ITEM_SIZE)).take context.length = context ↔ context <+: old := by
    rw [List.drop_left' long, List.take_append_of_le_length (by omega), ← prefix_filledUp clean.noFill,
      List.prefix_iff_eq_take, eq_comm]
  rw [replaceContext, if_neg room]
  by_cases same : context <+: old
  · rw [if_pos (there.mpr same), if_pos same]
  · rw [if_neg fun equal => same (there.mp equal), if_neg same, copyTo_filling short, ← long]
    simp only [Option.bind_eq_bind, Option.bind_some]
    rw [List.take_left' clean.filled_length, copyTo_part (clean.filled_length.trans oldLong.symm)]
    simp only [Option.bind_some]
    rw [← List.append_assoc, ← List.append_assoc, writeValue_zeros _ some_]
    · rw [List.append_assoc]
      rfl
    · intro member
      rcases List.mem_append.mp member with inFront | inAfter
      · rcases List.mem_append.mp inFront with inBefore | inContext
        · exact beforeFree inBefore
        · exact clean.filled_noEnd inContext
      · exact afterFree inAfter

theorem appendRecord_eq {count : Nat} (free : 0 ∉ string) (cleanKey : Clean keyword)
    (clean : Clean context) (room : ITEM_SIZE * 2 < count) :
    appendRecord (string ++ List.replicate count 0) keyword context =
      some (0, some (string ++ record (keyword, context))) := by
  have key := cleanKey.filled_length
  have second : copyTo (filledUp 0x04 ITEM_SIZE keyword ++
      List.replicate (VALUE_SIZE - ITEM_SIZE) 0x04) ITEM_SIZE context = some (record (keyword, context) ++
        List.replicate (VALUE_SIZE - ITEM_SIZE - ITEM_SIZE) 0x04) := by
    have copied := @copyTo_filled context (filledUp 0x04 ITEM_SIZE keyword) (VALUE_SIZE - ITEM_SIZE)
      clean.short (by decide)
    rwa [key] at copied
  have whole : (record (keyword, context)).length = ITEM_SIZE * 2 := record_length ⟨cleanKey, clean⟩
  have split : List.replicate count (0 : Byte) =
      List.replicate (ITEM_SIZE * 2) 0 ++ List.replicate (count - ITEM_SIZE * 2) 0 := by
    rw [List.replicate_append_replicate]
    congr 1
    omega
  rw [appendRecord, copyTo_filling cleanKey.short]
  simp only [Option.bind_eq_bind, Option.bind_some]
  rw [second]
  simp only [Option.bind_some]
  rw [List.take_left' whole, stringOf_replicate free, split,
    copyTo_part (whole.trans List.length_replicate.symm)]
  simp only [Option.bind_some]
  rw [← List.append_assoc, writeValue_zeros _ (by omega)]
  · rfl
  · intro member
    rcases List.mem_append.mp member with inFront | inRecord
    · exact free inFront
    · rcases List.mem_append.mp inRecord with inKeyword | inContext
      · exact cleanKey.filled_noEnd inKeyword
      · exact clean.filled_noEnd inContext

/-- The flag and the pages, in front of the records. -/
def headerOf (pages : Pages) : List Byte :=
  filledUp 0x04 ITEM_SIZE VALID_CFG_PARAM ++ filledUp 0x04 ITEM_SIZE
    [pageChar pages.1, pageChar pages.2.1, pageChar pages.2.2]

theorem pageChar_ne_zero (page : PageNo) : pageChar page ≠ 0 := by
  cases page with
  | none => decide
  | some page =>
      revert page
      decide

theorem headerOf_length (pages : Pages) : (headerOf pages).length = ITEM_SIZE * 2 := rfl

theorem headerOf_noEnd (pages : Pages) : 0 ∉ headerOf pages := by
  intro member
  rcases List.mem_append.mp member with inFlag | inPages
  · exact absurd inFlag (by decide)
  rcases List.mem_append.mp inPages with inPages | filling
  · simp only [List.mem_cons, List.not_mem_nil, or_false] at inPages
    rcases inPages with first | second | third
    · exact pageChar_ne_zero _ first.symm
    · exact pageChar_ne_zero _ second.symm
    · exact pageChar_ne_zero _ third.symm
  · exact absurd (List.eq_of_mem_replicate filling) (by decide)

theorem Unset.value (unset : Unset parameter) : ∃ bytes : List Byte, bytes.length = ITEM_SIZE * 4 ∧
    readValue parameter = some (bytes ++ List.replicate (VALUE_SIZE - ITEM_SIZE * 4) 0) ∧
    ¬ hasSettings parameter (bytes ++ List.replicate (VALUE_SIZE - ITEM_SIZE * 4) 0) := by
  rcases unset with rfl | rfl
  · refine ⟨List.replicate (ITEM_SIZE * 4) 0, List.length_replicate, ?_, fun settings =>
      absurd rfl settings.1⟩
    rw [List.replicate_append_replicate, readValue, Option.elim_none, copyTo]
    exact if_pos (Nat.zero_le _)
  · refine ⟨List.replicate ITEM_SIZE 0x04 ++ List.replicate (ITEM_SIZE * 3) 0, rfl, ?_, ?_⟩
    · rw [readValue_some (by decide), List.append_assoc, List.replicate_append_replicate]
      rfl
    · rintro ⟨-, flagged⟩
      rw [List.append_assoc, List.take_append_of_le_length (by decide)] at flagged
      exact absurd flagged (by decide)

theorem firstRecord_eq (pages : Pages) {bytes : List Byte} (long : bytes.length = ITEM_SIZE * 4)
    (cleanKey : Clean keyword) (clean : Clean context) :
    firstRecord pages (bytes ++ List.replicate (VALUE_SIZE - ITEM_SIZE * 4) 0) keyword context =
      some (0, some (headerOf pages ++ record (keyword, context))) := by
  have key := cleanKey.filled_length
  have second : copyTo (filledUp 0x04 ITEM_SIZE VALID_CFG_PARAM ++
      List.replicate (VALUE_SIZE - ITEM_SIZE) 0x04) ITEM_SIZE
        [pageChar pages.1, pageChar pages.2.1, pageChar pages.2.2] =
      some (headerOf pages ++ List.replicate (VALUE_SIZE - ITEM_SIZE - ITEM_SIZE) 0x04) :=
    @copyTo_filled [pageChar pages.1, pageChar pages.2.1, pageChar pages.2.2]
      (filledUp 0x04 ITEM_SIZE VALID_CFG_PARAM) (VALUE_SIZE - ITEM_SIZE) (Nat.le_add_right 3 17)
      (by decide)
  have third : copyTo (headerOf pages ++ List.replicate (VALUE_SIZE - ITEM_SIZE - ITEM_SIZE) 0x04)
      (ITEM_SIZE * 2) keyword = some (headerOf pages ++ filledUp 0x04 ITEM_SIZE keyword ++
        List.replicate (VALUE_SIZE - ITEM_SIZE - ITEM_SIZE - ITEM_SIZE) 0x04) :=
    @copyTo_filled keyword (headerOf pages) (VALUE_SIZE - ITEM_SIZE - ITEM_SIZE)
      cleanKey.short (by decide)
  have fourth : copyTo (headerOf pages ++ filledUp 0x04 ITEM_SIZE keyword ++
      List.replicate (VALUE_SIZE - ITEM_SIZE - ITEM_SIZE - ITEM_SIZE) 0x04) (ITEM_SIZE * 3) context =
        some (headerOf pages ++ record (keyword, context) ++
          List.replicate (VALUE_SIZE - ITEM_SIZE - ITEM_SIZE - ITEM_SIZE - ITEM_SIZE) 0x04) := by
    have copied := @copyTo_filled context (headerOf pages ++ filledUp 0x04 ITEM_SIZE keyword)
      (VALUE_SIZE - ITEM_SIZE - ITEM_SIZE - ITEM_SIZE) clean.short (by decide)
    have behind : (headerOf pages ++ filledUp 0x04 ITEM_SIZE keyword).length = ITEM_SIZE * 3 := by
      rw [List.length_append, headerOf_length, key]
      rfl
    rwa [behind, List.append_assoc (headerOf pages)] at copied
  have whole : (headerOf pages ++ record (keyword, context)).length = ITEM_SIZE * 4 := by
    rw [List.length_append, headerOf_length, record_length ⟨cleanKey, clean⟩]
    rfl
  have last := @copyTo_part _ [] bytes (List.replicate (VALUE_SIZE - ITEM_SIZE * 4) 0)
    (headerOf pages ++ record (keyword, context)) (whole.trans long.symm)
  rw [firstRecord, copyTo_filling (by decide)]
  simp only [Option.bind_eq_bind, Option.bind_some]
  rw [second]
  simp only [Option.bind_some]
  rw [third]
  simp only [Option.bind_some]
  rw [fourth]
  simp only [Option.bind_some]
  rw [List.take_left' whole, show copyTo (bytes ++ _) 0 _ = _ from last]
  simp only [Option.bind_some]
  rw [List.nil_append, writeValue_zeros _ (by decide)]
  · rfl
  · intro member
    rcases List.mem_append.mp member with inFront | inRecord
    · exact headerOf_noEnd pages inFront
    · rcases List.mem_append.mp inRecord with inKeyword | inContext
      · exact cleanKey.filled_noEnd inKeyword
      · exact clean.filled_noEnd inContext

end PosFirmware.CfgManage
