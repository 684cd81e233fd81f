import PosFirmware.CfgManage.ConfigLines
import PosFirmware.CfgManage.SettingsRecords
import Mathlib.Data.List.Nodup

/-! # The format of the configuration file

What a line of the file is to be, and what the pass does with a line that holds nothing that it
passes over or cuts (`PlainLine`): it sets the keyword of a line of the format, and refuses another
line (`lineRun_plain`).
-/

namespace PosFirmware.CfgManage

open PosFirmware.Foundation

/-- Blanks and nothing else. -/
def Blank (bytes : List Byte) : Prop := ∀ c ∈ bytes, isBlank c = true

instance (bytes : List Byte) : Decidable (Blank bytes) :=
  inferInstanceAs (Decidable (∀ c ∈ bytes, isBlank c = true))

/-- A line of the format, with the keyword that it sets and the value. -/
inductive LineSets : List Byte → Option (List Byte × List Byte) → Prop
  | nothing {line : List Byte} (blank : Blank (beforeMark slashes line)) : LineSets line none
  | keyword {config : VersionConfig} {front back gap value behind : List Byte}
      (known : config ∈ versiconKeyword) (blankFront : Blank front) (blankBack : Blank back)
      (blankGap : Blank gap) (blankBehind : Blank (beforeMark slashes behind))
      (closed : 0x22 ∉ value) (allowed : 0 ≤ contextNum config value) :
      LineSets (front ++ text config.keyword ++ back ++
          0x3d :: (gap ++ 0x22 :: (value ++ 0x22 :: behind)))
        (some (text config.keyword, value))

/-- The first `=` of a line that is not in a comment. -/
def KeyText (line pre rest : List Byte) : Prop :=
  line = pre ++ 0x3d :: rest ∧ 0x3d ∉ pre ∧ ¬slashes <:+: pre

/-- The first word of a string. -/
def wordOf (string : List Byte) : List Byte := trimmed (stringOf 0 string)

/-- The scan from an `=` to the end of a line stays in `buf` and in the content. -/
structure ScanFits (text : List Byte) (final : Bool) : Prop where
  room : ∀ x value behind, beforeMark slashes text = x ++ 0x22 :: (value ++ behind) → 0x22 ∉ x →
    0x22 ∉ value → value.length < BUF_SIZE
  stops : final = true → beforeMark slashes text = text →
    2 ≤ text.count 0x22 ∨ text.count 0x22 = 0 ∧ text.getLast? ≠ some 0x2f

/-- A value that is taken as it stands. -/
structure PlainValue (value : List Byte) : Prop where
  clear : ¬slashes <:+: value
  word : ∀ c ∈ value, c ≠ 0 ∧ isBlank c = false
  short : value.length ≤ ITEM_SIZE

/-- A line behind these bytes holds nothing that the pass runs out at, passes over or cuts. -/
structure PlainLine (before line : List Byte) (final : Bool) : Prop where
  keyFits : ∀ pre rest, KeyText line pre rest → (lead before ++ pre).length < BUF_SIZE ∧
    (wordOf (lead before ++ pre)).length < ITEM_SIZE * 2
  scanFits : (∀ pre rest, KeyText line pre rest → Known (wordOf (lead before ++ pre))) →
    ¬(final = true ∧ PassedOver line) → ScanFits (fromLast 0x3d (before ++ line)) final
  behindEmpty : before = [0x0a] → ∀ setting, ¬LineSets line (some setting)
  comment : (∀ pre rest, ¬KeyText line pre rest) → Blank (beforeMark slashes line)
  keyword : ∀ pre rest, KeyText line pre rest → Known (wordOf (lead before ++ pre)) →
    (∃ front back, Blank front ∧ Blank back ∧ pre = front ++ wordOf pre ++ back) ∧ 0x3d ∉ rest
  value : ∀ pre gap value behind, KeyText line pre (gap ++ 0x22 :: (value ++ 0x22 :: behind)) →
    Known (wordOf (lead before ++ pre)) → 0x22 ∉ gap → 0x22 ∉ value → ¬slashes <:+: gap →
    Blank gap ∧ Blank (beforeMark slashes behind) ∧ PlainValue value

/-! ## The parts of a line -/

section

variable {line pre rest front back gap value behind word : List Byte} {config : VersionConfig}
  {setting : Option (List Byte × List Byte)}

theorem Blank.free (blank : Blank pre) {c : Byte} (other : isBlank c = false) : c ∉ pre :=
  fun member => Bool.false_ne_true (other.symm.trans (blank c member))

theorem clear_of_free (free : 0x2f ∉ pre) : ¬slashes <:+: pre := fun inside =>
  free (inside.subset (by decide : 0x2f ∈ slashes))

theorem keywords_free : ∀ config ∈ versiconKeyword, 0x3d ∉ text config.keyword ∧
    0x2f ∉ text config.keyword ∧ 0x0a ∉ text config.keyword ∧ 0x20 ∉ text config.keyword ∧
      0x09 ∉ text config.keyword := by
  decide +kernel

theorem parts_same {c : Byte} {front' back' : List Byte} (first : c ∉ front) (second : c ∉ front')
    (same : front ++ c :: back = front' ++ c :: back') : front = front' ∧ back = back' := by
  have sameFront := congrArg (stringOf c) same
  rw [stringOf_append first, stringOf_append second] at sameFront
  subst sameFront
  exact ⟨rfl, (List.cons.inj (List.append_cancel_left same)).2⟩

theorem KeyText.same {pre' rest' : List Byte} (first : KeyText line pre rest)
    (second : KeyText line pre' rest') : pre = pre' ∧ rest = rest' :=
  parts_same first.2.1 second.2.1 (first.1.symm.trans second.1)

theorem Known.of_mem (known : config ∈ versiconKeyword) : Known (text config.keyword) :=
  List.mem_map_of_mem known

theorem keyText_keyword (known : config ∈ versiconKeyword) (blankFront : Blank front)
    (blankBack : Blank back) :
    KeyText (front ++ text config.keyword ++ back ++ 0x3d :: rest)
      (front ++ text config.keyword ++ back) rest := by
  obtain ⟨noEqual, noSlash, -⟩ := keywords_free config known
  have free : ∀ c, isBlank c = false → c ∉ text config.keyword →
      c ∉ front ++ text config.keyword ++ back := by
    intro c other freeWord member
    rcases List.mem_append.mp member with member | member
    · exact (List.mem_append.mp member).elim (blankFront.free other) freeWord
    · exact blankBack.free other member
  exact ⟨rfl, free 0x3d rfl noEqual, clear_of_free (free 0x2f rfl noSlash)⟩

theorem KeyText.not_blank (key : KeyText line pre rest) : ¬Blank (beforeMark slashes line) := by
  obtain ⟨rfl, -, clear⟩ := key
  rw [beforeMark_through (by decide) (by decide) clear]
  intro blank
  exact blank.free (by decide) (List.mem_append_right _ List.mem_cons_self)

theorem LineSets.of_key (sets : LineSets line setting) (key : KeyText line pre rest) :
    ∃ config ∈ versiconKeyword, ∃ front back gap value behind, Blank front ∧ Blank back ∧
      pre = front ++ text config.keyword ++ back ∧
      rest = gap ++ 0x22 :: (value ++ 0x22 :: behind) ∧ Blank gap ∧
      Blank (beforeMark slashes behind) ∧ 0x22 ∉ value ∧ 0 ≤ contextNum config value ∧
      setting = some (text config.keyword, value) := by
  cases sets with
  | nothing blank => exact absurd blank key.not_blank
  | @keyword config front back gap value behind known blankFront blankBack blankGap blankBehind
      closed allowed =>
      obtain ⟨samePre, sameRest⟩ := key.same (keyText_keyword known blankFront blankBack)
      exact ⟨config, known, front, back, gap, value, behind, blankFront, blankBack, samePre,
        sameRest, blankGap, blankBehind, closed, allowed, rfl⟩

theorem LineSets.of_noKey (sets : LineSets line setting) (none_ : ∀ pre rest, ¬KeyText line pre rest) :
    setting = none := by
  cases sets with
  | nothing blank => rfl
  | keyword known blankFront blankBack =>
      exact absurd (keyText_keyword known blankFront blankBack) (none_ _ _)

end

/-! ## The keyword of a line -/

section

variable {string front pre post : List Byte} {num : Int}

theorem trimmed_word (blankFront : Blank front) {word back : List Byte} (some_ : word ≠ [])
    (inside : ∀ c ∈ word, isBlank c = false) (blankBack : Blank back) :
    trimmed (front ++ word ++ back) = word := by
  have start : (word ++ back).dropWhile isBlank = word ++ back := by
    cases word with
    | nil => exact absurd rfl some_
    | cons c word =>
        rw [List.cons_append, List.dropWhile_cons_of_neg]
        rw [inside c List.mem_cons_self]
        exact Bool.false_ne_true
  have stop : back.takeWhile (fun c => !isBlank c) = [] := by
    cases back with
    | nil => rfl
    | cons c back =>
        rw [List.takeWhile_cons_of_neg]
        rw [blankBack c List.mem_cons_self]
        exact Bool.false_ne_true
  rw [trimmed, List.append_assoc, List.dropWhile_append_of_pos blankFront, start,
    List.takeWhile_append_of_pos, stop, List.append_nil]
  intro c member
  rw [inside c member]
  rfl

theorem keyOf_fits (short : string.length < BUF_SIZE)
    (shortWord : (wordOf string).length < ITEM_SIZE * 2) :
    keyOf string =
      if keywordNum (wordOf string) < 0 then .error (.returned KEYWORD_ERR)
      else .ok (keywordNum (wordOf string)) := by
  have fits : ¬ITEM_SIZE * 2 ≤ (trimmed (stringOf 0 string)).length := Nat.not_le_of_lt shortWord
  rw [keyOf, if_neg (Nat.not_le_of_lt short), verifySymbol, if_neg fits,
    if_pos (by decide : (-1 : Int) < 0)]
  rfl

theorem keyOf_known (short : string.length < BUF_SIZE)
    (shortWord : (wordOf string).length < ITEM_SIZE * 2) (known : Known (wordOf string)) :
    ∃ n : Nat, ∃ config, keyOf string = .ok n ∧ versiconKeyword[n]? = some config ∧
      text config.keyword = wordOf string := by
  rw [keyOf_fits short shortWord, keywordNum]
  obtain ⟨config, member, same⟩ := List.mem_map.mp known
  cases found : versiconKeyword.findIdx? fun config => text config.keyword = wordOf string with
  | none => exact absurd (List.findIdx?_eq_none_iff.mp found config member) (by simp [same])
  | some n =>
      obtain ⟨within, is, -⟩ := List.findIdx?_eq_some_iff_getElem.mp found
      exact ⟨n, versiconKeyword[n], if_neg (Int.not_lt.mpr (Int.natCast_nonneg n)),
        List.getElem?_eq_getElem within, of_decide_eq_true is⟩

theorem keyOf_unknown (short : string.length < BUF_SIZE)
    (shortWord : (wordOf string).length < ITEM_SIZE * 2) (unknown : ¬Known (wordOf string)) :
    keyOf string = .error (.returned KEYWORD_ERR) := by
  rw [keyOf_fits short shortWord, keywordNum]
  cases found : versiconKeyword.findIdx? fun config => text config.keyword = wordOf string with
  | none => rfl
  | some n =>
      obtain ⟨within, is, -⟩ := List.findIdx?_eq_some_iff_getElem.mp found
      exact absurd (List.mem_map.mpr ⟨_, List.getElem_mem within, of_decide_eq_true is⟩) unknown

theorem lineKey_passed (passed : ∀ p rest, post = p ++ 0x3d :: rest → slashes <:+: pre ++ p) :
    lineKey front pre post num = .ok num := by
  induction post generalizing pre with
  | nil => rfl
  | cons c post ih =>
      rw [lineKey, if_neg]
      · apply ih
        intro p rest parts
        have inside := passed (c :: p) rest (congrArg (c :: ·) parts)
        rwa [List.append_assoc]
      · rintro ⟨rfl, clear⟩
        exact clear (List.append_nil pre ▸ passed [] post rfl)

theorem lineKey_front (free : 0x3d ∉ post) : lineKey front pre post num = .ok num := by
  apply lineKey_passed
  rintro p rest rfl
  exact absurd (List.mem_append_right _ List.mem_cons_self) free

end

/-! ## The value of a line -/

section

variable {text : List Byte} {final : Bool} {num : Int} {info : List HardInfo}

theorem lineValue_cases (fits : ScanFits text final) (num : Int) (info : List HardInfo) :
    (∃ x value y, beforeMark slashes text = x ++ 0x22 :: (value ++ 0x22 :: y) ∧ 0x22 ∉ x ∧
      0x22 ∉ value ∧ lineValue text final num info =
        if num = -1 then .ok info else setContext (stringOf 0 value) num info) ∨
    ((beforeMark slashes text).count 0x22 < 2 ∧ ∃ code, lineValue text final num info =
      if num = -1 then .ok info else .error (.returned code)) := by
  rw [lineValue]
  rcases quotes_cases (beforeMark slashes text) with ⟨free, split⟩ |
    ⟨x, value, shown, free, freeValue, split⟩ | ⟨x, value, y, z, more, shown, free, freeValue, split⟩
  · have count : (beforeMark slashes text).count 0x22 = 0 := List.count_eq_zero.mpr free
    have stops : ¬(final = true ∧ beforeMark slashes text = text ∧ text.getLast? = some 0x2f) := by
      rintro ⟨last, whole, slash⟩
      rcases fits.stops last whole with two | ⟨-, other⟩
      · rw [whole] at count
        omega
      · exact other slash
    refine .inr ⟨by omega, NO_CONTEXT_ERR, ?_⟩
    rw [split]
    exact if_neg stops
  · have count : (beforeMark slashes text).count 0x22 = 1 := by
      rw [shown, List.count_append, List.count_cons_self, List.count_eq_zero.mpr free,
        List.count_eq_zero.mpr freeValue]
    have stops : ¬(BUF_SIZE ≤ value.length ∨ final = true ∧ beforeMark slashes text = text) := by
      rintro (long | ⟨last, whole⟩)
      · exact Nat.not_lt_of_le long (fits.room x value [] (by rw [shown, List.append_nil]) free freeValue)
      · rw [whole] at count
        rcases fits.stops last whole with two | ⟨none, -⟩
        · omega
        · omega
    refine .inr ⟨by omega, ONLY_ONE_QUOTE_ERR, ?_⟩
    rw [split]
    exact if_neg stops
  · have room := fits.room x value (0x22 :: y) shown free freeValue
    refine .inl ⟨x, value, y, shown, free, freeValue, ?_⟩
    rw [split]
    exact if_neg (Nat.not_le_of_lt room)

theorem lineValue_unset (fits : ScanFits text final) :
    lineValue text final (-1) info = .ok info := by
  rcases lineValue_cases fits (-1) info with ⟨_, _, _, _, _, _, same⟩ | ⟨_, _, same⟩ <;> exact same

end

/-! ## The table -/

/-- The value that a keyword was set to last. -/
def lastValue (sets : List (List Byte × List Byte)) (keyword : List Byte) : Option (List Byte) :=
  sets.reverse.lookup keyword

/-- The entry of a keyword. -/
def entryOf (old : VersionConfig → Option ConfigType) (sets : List (List Byte × List Byte))
    (config : VersionConfig) : HardInfo :=
  (lastValue sets (text config.keyword)).elim ⟨old config, text config.keyword, []⟩ fun value =>
    ⟨some config.type, text config.keyword, value⟩

/-- The table with these keywords set. -/
def tableOf (old : VersionConfig → Option ConfigType) (sets : List (List Byte × List Byte)) :
    List HardInfo := versiconKeyword.map (entryOf old sets)

section

variable {old : VersionConfig → Option ConfigType} {sets : List (List Byte × List Byte)}
  {config : VersionConfig} {value : List Byte} {n : Nat}

theorem entryOf_keyword (c : VersionConfig) : (entryOf old sets c).keyword = text c.keyword := by
  rw [entryOf]
  cases lastValue sets (text c.keyword) <;> rfl

theorem entryOf_snoc (keyword : List Byte) (c : VersionConfig) :
    entryOf old (sets ++ [(keyword, value)]) c =
      if text c.keyword = keyword then ⟨some c.type, text c.keyword, value⟩
      else entryOf old sets c := by
  rw [entryOf, lastValue, List.reverse_concat, List.lookup_cons]
  by_cases same : text c.keyword = keyword
  · rw [if_pos same, beq_iff_eq.mpr same]
    rfl
  · rw [if_neg same, beq_eq_false_iff_ne.mpr same]
    rfl

theorem fillHardwareInfo_map {configs : List VersionConfig} {entry : VersionConfig → HardInfo}
    {context : List Byte} (named : ∀ c, (entry c).keyword = text c.keyword)
    (once : (configs.map fun c => text c.keyword).Nodup) (member : config ∈ configs) :
    fillHardwareInfo (text config.keyword) context config.type (configs.map entry) =
      some (configs.map fun c =>
        if text c.keyword = text config.keyword then
          ⟨some c.type, text c.keyword, context.take ITEM_SIZE⟩
        else entry c) := by
  induction configs with
  | nil => cases member
  | cons c configs ih =>
      obtain ⟨first, once⟩ := List.nodup_cons.mp once
      rw [List.map_cons, List.map_cons, fillHardwareInfo, named]
      by_cases same : text c.keyword = text config.keyword
      · have is : config = c := by
          rcases List.mem_cons.mp member with is | later
          · exact is
          · exact absurd (List.mem_map.mpr ⟨config, later, same.symm⟩) first
        subst is
        have others : configs.map entry = configs.map fun d =>
            if text d.keyword = text config.keyword then
              ⟨some d.type, text d.keyword, context.take ITEM_SIZE⟩
            else entry d := by
          refine List.map_congr_left fun d later => (if_neg fun again => ?_).symm
          exact first (List.mem_map.mpr ⟨d, later, again⟩)
        rw [if_neg (not_not_intro rfl), if_pos rfl, ← others]
      · have later := (List.mem_cons.mp member).resolve_left fun is =>
          same (congrArg (fun c : VersionConfig => text c.keyword) is.symm)
        rw [if_pos same, if_neg same, ih once later]
        rfl

theorem trimmed_self (inside : ∀ c ∈ value, isBlank c = false) : trimmed value = value := by
  have start : value.dropWhile isBlank = value := by
    cases value with
    | nil => rfl
    | cons c value =>
        rw [List.dropWhile_cons_of_neg]
        rw [inside c List.mem_cons_self]
        exact Bool.false_ne_true
  rw [trimmed, start, List.takeWhile_eq_self_iff]
  intro c member
  rw [inside c member]
  rfl

theorem setContext_plain (plain : PlainValue value) (found : versiconKeyword[n]? = some config) :
    setContext value n (tableOf old sets) =
      if 0 ≤ contextNum config value then .ok (tableOf old (sets ++ [(text config.keyword, value)]))
      else .error (.returned CONTEXT_ERR) := by
  have short : ¬ITEM_SIZE * 2 ≤ value.length :=
    Nat.not_le_of_lt (Nat.lt_of_le_of_lt plain.short (by decide))
  have word := trimmed_self fun c member => (plain.word c member).2
  have member := List.mem_of_getElem? found
  have reads : verifySymbol value n = some (value, contextNum config value) := by
    rw [verifySymbol, word, if_neg short, if_neg (Int.not_lt.mpr (Int.natCast_nonneg n)),
      Int.toNat_natCast, found]
    rfl
  rw [setContext, reads, Int.toNat_natCast, found]
  dsimp only
  by_cases allowed : 0 ≤ contextNum config value
  · rw [if_pos allowed, if_neg (Int.not_lt.mpr allowed), tableOf,
      fillHardwareInfo_map entryOf_keyword keywords_once member, List.take_of_length_le plain.short]
    refine congrArg Except.ok (List.map_congr_left fun c _ => ?_)
    rw [entryOf_snoc]
  · rw [if_neg allowed, if_pos (Int.not_le.mp allowed)]

end

/-! ## A line -/

section

variable {before line pre rest : List Byte} {final : Bool}
  {old : VersionConfig → Option ConfigType} {sets : List (List Byte × List Byte)}

/-- A keyword line that sets the table, or is refused. -/
def Settles (old : VersionConfig → Option ConfigType) (sets : List (List Byte × List Byte))
    (line : List Byte) (run : Except Stop (List HardInfo)) : Prop :=
  (∀ setting, LineSets line setting → run = .ok (tableOf old (sets ++ setting.toList))) ∧
    ((∀ setting, ¬LineSets line setting) → ∃ code, run = .error (.returned code))

theorem fromLast_key (key : KeyText line pre rest) (last : 0x3d ∉ rest) :
    fromLast 0x3d (before ++ line) = 0x3d :: rest := by
  rw [key.1, ← List.append_assoc, fromLast_append last]

theorem lineKey_comment (none_ : ∀ pre rest, ¬KeyText line pre rest) :
    lineKey (lead before) [] line (-1) = .ok (-1) := by
  apply lineKey_passed
  rintro p rest rfl
  rw [List.nil_append]
  by_cases again : 0x3d ∈ p
  · obtain ⟨first, more, rfl, free⟩ := List.eq_append_cons_of_mem again
    have inside : slashes <:+: first := not_not.mp fun clear =>
      none_ first (more ++ 0x3d :: rest) ⟨by rw [List.append_assoc]; rfl, free, clear⟩
    exact inside.trans (List.prefix_append first _).isInfix
  · exact not_not.mp fun clear => none_ p rest ⟨rfl, again, clear⟩

theorem lineRun_comment (plain : PlainLine before line final)
    (none_ : ∀ pre rest, ¬KeyText line pre rest) :
    Settles old sets line (lineRun before line final (tableOf old sets)) := by
  have blank := plain.comment none_
  have run : lineRun before line final (tableOf old sets) = .ok (tableOf old sets) := by
    rw [lineRun, lineKey_comment none_]
    change ite _ _ _ = _
    by_cases passed : final = true ∧ PassedOver line
    · rw [if_pos passed]
    · rw [if_neg passed]
      exact lineValue_unset (plain.scanFits (fun pre rest key => absurd key (none_ pre rest)) passed)
  constructor
  · intro setting is
    rw [is.of_noKey none_, run]
    exact congrArg (fun sets => Except.ok (tableOf old sets)) (List.append_nil sets).symm
  · exact fun other => absurd (LineSets.nothing blank) (other none)

theorem lead_of_known (start : Known (wordOf (lead before ++ pre))) : lead before = [] := by
  rw [lead] at start ⊢
  by_cases second : before = [0x0a]
  · rw [if_pos second, second] at start
    obtain ⟨config, member, same⟩ := List.mem_map.mp start
    have inside : (0x0a : Byte) ∈ wordOf ([0x0a] ++ pre) := by
      rw [wordOf, List.singleton_append, stringOf_cons (by decide), trimmed,
        List.dropWhile_cons_of_neg (by decide), List.takeWhile_cons_of_pos (by decide)]
      exact List.mem_cons_self
    exact absurd (same ▸ inside) (keywords_free config member).2.2.1
  · rw [if_neg second]

theorem lineKey_key (key : KeyText line pre rest) (front : List Byte) (num : Int) :
    lineKey front [] line num = keyOf (front ++ pre) >>= lineKey front (pre ++ [0x3d]) rest := by
  rw [key.1, lineKey_append, lineKey_front key.2.1, List.nil_append]
  change lineKey front pre (0x3d :: rest) num = _
  rw [lineKey, if_pos ⟨rfl, key.2.2⟩]

theorem wordOf_keyword {config : VersionConfig} {front back : List Byte}
    (known : config ∈ versiconKeyword) (blankFront : Blank front) (blankBack : Blank back) :
    wordOf (front ++ text config.keyword ++ back) = text config.keyword := by
  obtain ⟨-, noEnd, -, some_, -⟩ := keywords_clean config known
  obtain ⟨-, -, -, noSpace, noTab⟩ := keywords_free config known
  have inside : ∀ c ∈ text config.keyword, isBlank c = false := by
    intro c member
    rw [isBlank, Bool.or_eq_false_iff]
    constructor
    · exact beq_eq_false_iff_ne.mpr fun same => noSpace (same ▸ member)
    · exact beq_eq_false_iff_ne.mpr fun same => noTab (same ▸ member)
  rw [wordOf, stringOf_of_free, trimmed_word blankFront some_ inside blankBack]
  intro member
  rcases List.mem_append.mp member with member | member
  · exact (List.mem_append.mp member).elim (blankFront.free rfl) noEnd
  · exact blankBack.free rfl member

theorem lineRun_unknown (plain : PlainLine before line final) (key : KeyText line pre rest)
    (unknown : ¬Known (wordOf (lead before ++ pre))) :
    Settles old sets line (lineRun before line final (tableOf old sets)) := by
  obtain ⟨short, shortWord⟩ := plain.keyFits pre rest key
  have run : lineRun before line final (tableOf old sets) = .error (.returned KEYWORD_ERR) := by
    rw [lineRun, lineKey_key key, keyOf_unknown short shortWord unknown]
    rfl
  constructor
  · intro setting is
    obtain ⟨config, known, front, back, _, value, _, blankFront, blankBack, rfl, -, -, -, -, -, rfl⟩ :=
      is.of_key key
    by_cases second : before = [0x0a]
    · exact absurd is (plain.behindEmpty second _)
    · rw [lead, if_neg second, List.nil_append, wordOf_keyword known blankFront blankBack] at unknown
      exact absurd (Known.of_mem known) unknown
  · exact fun _ => ⟨KEYWORD_ERR, run⟩

theorem KeyText.read (key : KeyText line pre rest) (last : 0x3d ∉ rest) : ¬PassedOver line := by
  rintro (none | ⟨front, parts, inside⟩)
  · exact absurd (key.1.symm.trans none) (by simp)
  · rcases List.eq_nil_or_concat' rest with rfl | ⟨more, c, rfl⟩
    · have same := key.1.symm.trans parts
      exact key.2.2 ((List.append_inj' same rfl).1 ▸ inside)
    · have same := key.1.symm.trans parts
      rw [← List.cons_append, ← List.append_assoc] at same
      obtain ⟨-, is⟩ := List.append_inj' same rfl
      exact last (List.mem_append_right _ (is ▸ List.mem_cons_self))

theorem shown_equal (rest : List Byte) :
    beforeMark slashes (0x3d :: rest) = 0x3d :: beforeMark slashes rest := by
  have clear : ¬slashes <:+: ([] : List Byte) := by decide
  exact beforeMark_through (by decide) (by decide) clear

theorem shown_quotes {gap value y : List Byte}
    (shown : beforeMark slashes rest = gap ++ 0x22 :: (value ++ 0x22 :: y)) :
    ¬slashes <:+: gap ∧ ∃ behind, rest = gap ++ 0x22 :: (value ++ 0x22 :: behind) ∧
      beforeMark slashes behind = y := by
  have parts : beforeMark slashes rest = (gap ++ 0x22 :: (value ++ [0x22])) ++ y := by
    rw [shown]
    simp only [List.append_assoc, List.cons_append, List.nil_append]
  obtain ⟨behind, whole, left⟩ := beforeMark_append parts
  have whole : rest = gap ++ 0x22 :: (value ++ 0x22 :: behind) := by
    rw [whole]
    simp only [List.append_assoc, List.cons_append, List.nil_append]
  refine ⟨fun inside => ?_, behind, whole, left⟩
  have length := (beforeMark_initial slashes gap).length_le
  rw [← beforeMark_inside inside, ← whole, shown, List.length_append, List.length_cons] at length
  omega

theorem quotes_shown {gap value : List Byte} (behind : List Byte) (blankGap : Blank gap)
    (clear : ¬slashes <:+: value) :
    2 ≤ (beforeMark slashes (gap ++ 0x22 :: (value ++ 0x22 :: behind))).count 0x22 := by
  rw [beforeMark_through (by decide) (by decide) (clear_of_free (blankGap.free rfl)),
    beforeMark_through (by decide) (by decide) clear, List.count_append, List.count_cons_self,
    List.count_append, List.count_cons_self]
  omega

/-- A line whose first `=` stands behind a keyword. -/
theorem lineRun_known (plain : PlainLine before line final) (key : KeyText line pre rest)
    (known : Known (wordOf (lead before ++ pre))) :
    Settles old sets line (lineRun before line final (tableOf old sets)) := by
  obtain ⟨short, shortWord⟩ := plain.keyFits pre rest key
  obtain ⟨⟨front, back, blankFront, blankBack, shape⟩, last⟩ := plain.keyword pre rest key known
  obtain ⟨n, config, number, found, named⟩ := keyOf_known short shortWord known
  have member := List.mem_of_getElem? found
  have leadless := lead_of_known known
  rw [leadless, List.nil_append] at named number
  rw [← named] at shape
  have read := key.read last
  have fits : ScanFits (0x3d :: rest) final := by
    rw [← @fromLast_key before line pre rest key last]
    apply plain.scanFits _ fun both => read both.2
    intro pre' rest' key'
    rwa [(key'.same key).1]
  have run : lineRun before line final (tableOf old sets) =
      lineValue (0x3d :: rest) final n (tableOf old sets) := by
    rw [lineRun, lineKey_key key, leadless, List.nil_append, number, fromLast_key key last]
    change (lineKey [] (pre ++ [0x3d]) rest n >>= _) = _
    rw [lineKey_front last]
    exact if_neg fun both => read both.2
  rw [run]
  have set : ¬(n : Int) = -1 := by omega
  rcases lineValue_cases fits n (tableOf old sets) with
    ⟨x, value, y, shown, free, freeValue, same⟩ | ⟨few, code, same⟩
  · rw [same, if_neg set]
    rw [shown_equal] at shown
    obtain ⟨gap, rfl⟩ : ∃ gap, x = 0x3d :: gap := by
      cases x with
      | nil => exact absurd (List.cons.inj shown).1 (by decide)
      | cons c gap => exact ⟨gap, congrArg (· :: gap) (List.cons.inj shown).1.symm⟩
    obtain ⟨clear, behind, whole, left⟩ := shown_quotes (List.cons.inj shown).2
    have freeGap : 0x22 ∉ gap := fun inside => free (List.mem_cons_of_mem _ inside)
    subst whole
    obtain ⟨blankGap, blankBehind, plainValue⟩ :=
      plain.value pre gap value behind key known freeGap freeValue clear
    rw [stringOf_of_free fun inside => (plainValue.word 0 inside).1 rfl,
      setContext_plain plainValue found]
    constructor
    · intro setting is
      obtain ⟨config', known', front', back', gap', value', behind', blankFront', blankBack', shape',
        parts, blankGap', -, closed, allowed, rfl⟩ := is.of_key key
      have sameWord : text config.keyword = text config'.keyword := by
        rw [named, shape', wordOf_keyword known' blankFront' blankBack']
      obtain rfl := List.inj_on_of_nodup_map keywords_once member known' sameWord
      obtain ⟨-, parts⟩ := parts_same freeGap (blankGap'.free rfl) parts
      obtain ⟨rfl, -⟩ := parts_same freeValue closed parts
      exact if_pos allowed
    · intro other
      refine ⟨CONTEXT_ERR, if_neg fun allowed => ?_⟩
      have is := LineSets.keyword member blankFront blankBack blankGap blankBehind freeValue allowed
      rw [← shape, ← key.1] at is
      exact other _ is
  · rw [same, if_neg set]
    refine ⟨fun setting is => ?_, fun _ => ⟨code, rfl⟩⟩
    obtain ⟨_, _, _, _, gap, value, behind, _, _, _, rfl, blankGap, -, closed, -, -⟩ := is.of_key key
    obtain ⟨-, -, plainValue⟩ := plain.value pre gap value behind key known (blankGap.free rfl) closed
      (clear_of_free (blankGap.free rfl))
    have two := quotes_shown behind blankGap plainValue.clear
    rw [shown_equal, List.count_cons_of_ne (by decide)] at few
    omega

/-- **A plain line.** -/
theorem lineRun_plain (plain : PlainLine before line final) :
    Settles old sets line (lineRun before line final (tableOf old sets)) := by
  by_cases one : ∃ pre rest, KeyText line pre rest
  · obtain ⟨pre, rest, key⟩ := one
    by_cases known : Known (wordOf (lead before ++ pre))
    · exact lineRun_known plain key known
    · exact lineRun_unknown plain key known
  · exact lineRun_comment plain fun pre rest key => one ⟨pre, rest, key⟩

end

end PosFirmware.CfgManage
