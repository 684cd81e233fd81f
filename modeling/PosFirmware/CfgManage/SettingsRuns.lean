import Mathlib.Data.List.Nodup
import Mathlib.Logic.Function.Basic
import PosFirmware.CfgManage.SettingsRecords

/-! # Runs of settings

What a call does to the records, and a run of calls: as long as each keyword is found in its own
record, the settings behave as a map (`settings_run`).
-/

namespace PosFirmware.CfgManage

open PosFirmware.Foundation

variable {parameter : Parameter} {entries front back : List (List Byte × List Byte)}
  {keyword context old : List Byte}

/-! ## Settings -/

/-- What each keyword is set to. -/
abbrev Settings := List Byte → Option (List Byte)

/-- What the records set each keyword to. -/
def settingsOf (entries : List (List Byte × List Byte)) : Settings := fun keyword =>
  (entries.find? fun entry => entry.1 = keyword).map Prod.snd

theorem settingsOf_own (new : keyword ∉ front.map Prod.fst) :
    settingsOf (front ++ (keyword, context) :: back) keyword = some context := by
  have missing : front.find? (fun entry => entry.1 = keyword) = none := by
    refine List.find?_eq_none.mpr fun entry member same => new ?_
    exact List.mem_map.mpr ⟨entry, member, of_decide_eq_true same⟩
  have found : ((keyword, context) :: back).find? (fun entry => entry.1 = keyword) =
      some (keyword, context) := List.find?_cons_of_pos (decide_eq_true rfl)
  rw [settingsOf, List.find?_append, missing, Option.none_or, found, Option.map_some]

theorem settingsOf_other {other : List Byte} (different : other ≠ keyword) :
    settingsOf (front ++ (keyword, context) :: back) other = settingsOf (front ++ back) other := by
  rw [settingsOf, settingsOf, List.find?_append, List.find?_append,
    List.find?_cons_of_neg fun same => different (of_decide_eq_true same).symm]

theorem settingsOf_replace (new : keyword ∉ front.map Prod.fst) :
    settingsOf (front ++ (keyword, context) :: back) =
      Function.update (settingsOf (front ++ (keyword, old) :: back)) keyword (some context) := by
  funext other
  by_cases same : other = keyword
  · rw [same, Function.update_self, settingsOf_own new]
  · rw [Function.update_of_ne same, settingsOf_other same, settingsOf_other same]

theorem settingsOf_append (new : keyword ∉ entries.map Prod.fst) :
    settingsOf (entries ++ [(keyword, context)]) =
      Function.update (settingsOf entries) keyword (some context) := by
  funext other
  by_cases same : other = keyword
  · rw [same, Function.update_self, settingsOf_own new]
  · rw [Function.update_of_ne same, settingsOf_other same, List.append_nil]

theorem settingsOf_none (new : keyword ∉ entries.map Prod.fst) : settingsOf entries keyword = none := by
  rw [settingsOf, Option.map_eq_none_iff, List.find?_eq_none]
  intro entry member same
  exact new (List.mem_map.mpr ⟨entry, member, of_decide_eq_true same⟩)

/-! ## Calls -/

/-- A call with a keyword; the pages are those of the configuration file. -/
inductive Call
  | write (pages : Pages) (keyword context : List Byte)
  | read (keyword : List Byte)

inductive Answer
  | wrote (ret : Int)
  | readTo (found : Except Int (List Byte))

/-- A call, or nothing where it leaves a buffer. -/
def Call.run : Call → Parameter → Option (Answer × Parameter)
  | .write pages keyword context, parameter =>
      (cfgWriteSysParam pages parameter keyword context).map fun result => (.wrote result.1, result.2)
  | .read keyword, parameter =>
      (cfgReadSysParam parameter keyword).map fun found => (.readTo found, parameter)

def runCalls : List Call → Parameter → Option (List Answer × Parameter)
  | [], parameter => some ([], parameter)
  | call :: calls, parameter =>
      match call.run parameter with
      | none => none
      | some (answer, parameter) =>
          (runCalls calls parameter).map fun rest => (answer :: rest.1, rest.2)

/-- The settings after a call. -/
def Call.after : Call → Settings → Settings
  | .write _ keyword context, settings => Function.update settings keyword (some context)
  | .read _, settings => settings

/-- The answer that a map of settings gives. -/
def Call.Right : Call → Settings → Answer → Prop
  | .write _ _ _, _, answer => answer = .wrote 0
  | .read keyword, settings, answer =>
      match settings keyword with
      | some context => answer = .readTo (.ok context)
      | none => ∃ ret < 0, answer = .readTo (.error ret)

/-- Answers that are those of a map of settings. -/
def RightAnswers : Settings → List Call → List Answer → Prop
  | _, [], answers => answers = []
  | settings, call :: calls, answers => ∃ answer rest, answers = answer :: rest ∧
      call.Right settings answer ∧ RightAnswers (call.after settings) calls rest

/-- A context that is allowed for a keyword of the table. -/
def Allowed (keyword context : List Byte) : Prop :=
  ∃ config ∈ versiconKeyword, keyword = text config.keyword ∧ 0 ≤ contextNum config context

/-- The record of a keyword in the string of the records. -/
def ownPlace (parameter : Parameter) (keyword : List Byte) : Option Nat :=
  ((records parameter).findIdx? fun entry => entry.1 = keyword).map (ITEM_SIZE * 2 * ·)

/-- The first place where a keyword occurs among the records is its own record, or it occurs
nowhere. -/
def FoundRight (parameter : Parameter) (keyword : List Byte) : Prop :=
  strstr (stored parameter) keyword = ownPlace parameter keyword

/-- A context without blanks and symbols of the filling, which is no proper prefix of the one that
it replaces, for a keyword that is found right and has room. -/
structure WriteMeets (parameter : Parameter) (keyword context : List Byte) : Prop where
  allowed : Allowed keyword context
  short : context.length ≤ ITEM_SIZE
  noEnd : 0 ∉ context
  plain : ∀ c ∈ context, isBlank c = false ∧ c ≠ 0x04
  found : FoundRight parameter keyword
  noPrefix : ∀ old, (keyword, old) ∈ records parameter → context <+: old → context = old
  room : keyword ∉ (records parameter).map Prod.fst →
    ITEM_SIZE * 2 * ((records parameter).length + 2) < VALUE_SIZE

/-- What a call needs of the parameter before it. -/
def Call.Meets : Call → Parameter → Prop
  | .write _ keyword context, parameter => WriteMeets parameter keyword context
  | .read keyword, parameter => Known keyword ∧ FoundRight parameter keyword

/-- Each call of a run has what it needs. -/
def AllMeet : List Call → Parameter → Prop
  | [], _ => True
  | call :: calls, parameter => call.Meets parameter ∧
      ∀ answer parameter', call.run parameter = some (answer, parameter') → AllMeet calls parameter'

/-! ## Keywords and contexts -/

theorem Known.facts (known : Known keyword) :
    Clean keyword ∧ keyword ≠ [] ∧ trimmed keyword = keyword := by
  obtain ⟨config, inTable, rfl⟩ := List.mem_map.mp known
  obtain ⟨short, noEnd, noFill, nonempty, same⟩ := keywords_clean config inTable
  exact ⟨⟨short, noEnd, noFill⟩, nonempty, same⟩

theorem Allowed.known (allowed : Allowed keyword context) : Known keyword := by
  obtain ⟨config, inTable, rfl, -⟩ := allowed
  exact List.mem_map.mpr ⟨config, inTable, rfl⟩

theorem trimmed_plain (plain : ∀ c ∈ context, isBlank c = false) : trimmed context = context := by
  have kept : context.dropWhile isBlank = context := by
    cases context with
    | nil => rfl
    | cons c rest =>
        exact List.dropWhile_cons_of_neg (by rw [plain c List.mem_cons_self]; exact Bool.false_ne_true)
  rw [trimmed, kept, List.takeWhile_eq_self_iff]
  intro c member
  rw [plain c member]
  rfl

theorem WriteMeets.verified (meets : WriteMeets parameter keyword context) : ∃ (itemNum : Nat) (ret : Int),
    verifySymbol keyword (-1) = some (keyword, (itemNum : Int)) ∧
      verifySymbol context itemNum = some (context, ret) ∧ 0 ≤ ret := by
  obtain ⟨clean, -, same⟩ := meets.allowed.known.facts
  obtain ⟨config, inTable, rfl, ret⟩ := meets.allowed
  have sameContext := trimmed_plain fun c member => (meets.plain c member).1
  have short := clean.short
  have shortContext := meets.short
  obtain ⟨itemNum, found⟩ : ∃ i, versiconKeyword.findIdx?
      (fun other => text other.keyword = text config.keyword) = some i :=
    ⟨_, List.findIdx?_eq_some_of_exists ⟨config, inTable, decide_eq_true rfl⟩⟩
  obtain ⟨inside, sameKey, -⟩ := List.findIdx?_eq_some_iff_getElem.mp found
  have isConfig : versiconKeyword[itemNum] = config :=
    List.inj_on_of_nodup_map keywords_once (List.getElem_mem inside) inTable (of_decide_eq_true sameKey)
  refine ⟨itemNum, contextNum config context, ?_, ?_, ret⟩
  · rw [verifySymbol, same, if_neg (by unfold ITEM_SIZE at *; omega), if_pos (by decide), keywordNum,
      found]
  · rw [verifySymbol, sameContext, if_neg (by unfold ITEM_SIZE at *; omega), if_neg (by omega),
      Int.toNat_natCast, List.getElem?_eq_getElem inside, isConfig, Option.map_some]

/-! ## What a call does to the records -/

theorem readValue_set {header : List Byte} (long : header.length = ITEM_SIZE * 2)
    (flag : VALID_CFG_PARAM <+: header) (clean : ∀ entry ∈ entries, Clean entry.1 ∧ Clean entry.2)
    (room : ITEM_SIZE * 2 * (entries.length + 1) < VALUE_SIZE) : ∃ count, 0 < count ∧
    count = VALUE_SIZE - ITEM_SIZE * 2 * (entries.length + 1) ∧
    readValue (some (header ++ entries.flatMap record)) =
      some (header ++ entries.flatMap record ++ List.replicate count 0) ∧
    hasSettings (some (header ++ entries.flatMap record))
      (header ++ entries.flatMap record ++ List.replicate count 0) ∧
    stringOf 0 ((header ++ entries.flatMap record ++ List.replicate count 0).drop (ITEM_SIZE * 2)) =
      entries.flatMap record := by
  have total : (header ++ entries.flatMap record).length = ITEM_SIZE * 2 * (entries.length + 1) := by
    rw [List.length_append, long, records_length clean, Nat.add_comm]
    exact (Nat.mul_succ _ _).symm
  refine ⟨VALUE_SIZE - ITEM_SIZE * 2 * (entries.length + 1), by omega, rfl, ?_, ⟨nofun, ?_⟩, ?_⟩
  · rw [readValue_some (by omega), total]
  · rw [List.append_assoc]
    exact (List.prefix_iff_eq_take.mp (flag.trans (List.prefix_append _ _))).symm
  · rw [List.append_assoc, List.drop_left' long, stringOf_replicate (records_noEnd clean)]

theorem own_record {pt : Nat} (own : (entries.findIdx? fun entry => entry.1 = keyword).map
      (ITEM_SIZE * 2 * ·) = some pt) : ∃ front old back,
    entries = front ++ (keyword, old) :: back ∧ pt = ITEM_SIZE * 2 * front.length ∧
      keyword ∉ front.map Prod.fst := by
  obtain ⟨i, found, rfl⟩ := Option.map_eq_some_iff.mp own
  obtain ⟨inside, same, earlier⟩ := List.findIdx?_eq_some_iff_getElem.mp found
  refine ⟨entries.take i, entries[i].2, entries.drop (i + 1), ?_, ?_, ?_⟩
  · have here : (keyword, entries[i].2) = entries[i] := by rw [← of_decide_eq_true same]
    rw [here, ← List.drop_eq_getElem_cons, List.take_append_drop]
  · rw [List.length_take, Nat.min_eq_left (Nat.le_of_lt inside)]
  · intro member
    obtain ⟨entry, isIn, sameKey⟩ := List.mem_map.mp member
    obtain ⟨j, below, rfl⟩ := List.mem_iff_getElem.mp isIn
    rw [List.length_take] at below
    rw [List.getElem_take] at sameKey
    exact earlier j (by omega) (decide_eq_true sameKey)

theorem no_record (own : (entries.findIdx? fun entry => entry.1 = keyword).map
    (ITEM_SIZE * 2 * ·) = none) : keyword ∉ entries.map Prod.fst := by
  intro member
  obtain ⟨entry, isIn, sameKey⟩ := List.mem_map.mp member
  have different := List.findIdx?_eq_none_iff.mp (Option.map_eq_none_iff.mp own) entry isIn
  exact absurd sameKey (of_decide_eq_false different)

theorem replace_stored {header : List Byte} {count : Nat} (long : header.length = ITEM_SIZE * 2)
    (noEnd : 0 ∉ header)
    (clean : ∀ entry ∈ front ++ (keyword, old) :: back, Clean entry.1 ∧ Clean entry.2)
    (cleanContext : Clean context) (noPrefix : context <+: old → context = old)
    (some_ : 0 < count) :
    replaceContext (some (header ++ (front ++ (keyword, old) :: back).flatMap record))
      (header ++ (front ++ (keyword, old) :: back).flatMap record ++ List.replicate count 0) context
      (ITEM_SIZE * 2 + ITEM_SIZE * 2 * front.length) =
        some (0, some (header ++ (front ++ (keyword, context) :: back).flatMap record)) := by
  obtain ⟨frontClean, clean⟩ := List.forall_mem_append.mp clean
  obtain ⟨⟨cleanKey, cleanOld⟩, backClean⟩ := List.forall_mem_cons.mp clean
  -- up to the context, and behind it
  have split (middle : List Byte) : header ++ (front ++ (keyword, middle) :: back).flatMap record =
      header ++ front.flatMap record ++ filledUp 0x04 ITEM_SIZE keyword ++
        (filledUp 0x04 ITEM_SIZE middle ++ back.flatMap record) := by
    rw [List.flatMap_append, List.flatMap_cons, record]
    simp only [List.append_assoc]
  have before : (header ++ front.flatMap record ++ filledUp 0x04 ITEM_SIZE keyword).length =
      ITEM_SIZE * 2 + ITEM_SIZE * 2 * front.length + ITEM_SIZE := by
    rw [List.length_append, List.length_append, long, records_length frontClean,
      cleanKey.filled_length]
  have beforeFree : 0 ∉ header ++ front.flatMap record ++ filledUp 0x04 ITEM_SIZE keyword := by
    intro member
    rcases List.mem_append.mp member with inFront | inKey
    · rcases List.mem_append.mp inFront with inHeader | inRecords
      · exact noEnd inHeader
      · exact records_noEnd frontClean inRecords
    · exact cleanKey.filled_noEnd inKey
  have replaced := @replaceContext_eq (some (header ++ (front ++ (keyword, old) :: back).flatMap record))
    context old _ (back.flatMap record) _ count before cleanOld cleanContext beforeFree
      (records_noEnd backClean) some_
  rw [← split context] at replaced
  have whole : header ++ (front ++ (keyword, old) :: back).flatMap record ++ List.replicate count 0 =
      header ++ front.flatMap record ++ filledUp 0x04 ITEM_SIZE keyword ++
        (filledUp 0x04 ITEM_SIZE old ++ (back.flatMap record ++ List.replicate count 0)) := by
    rw [split old]
    simp only [List.append_assoc]
  rw [whole, replaced]
  split
  · rename_i same
    rw [noPrefix same]
  · rfl

/-- A call to write sets its keyword. -/
theorem Stored.write (isStored : Stored parameter entries) (pages : Pages)
    (meets : WriteMeets parameter keyword context) : ∃ parameter' entries',
    cfgWriteSysParam pages parameter keyword context = some (0, parameter') ∧
      Stored parameter' entries' ∧
      settingsOf entries' = Function.update (settingsOf entries) keyword (some context) := by
  obtain ⟨itemNum, ret, keyVerified, contextVerified, allowed⟩ := meets.verified
  obtain ⟨cleanKey, -, -⟩ := meets.allowed.known.facts
  have clean : Clean context := ⟨meets.short, meets.noEnd, fun member => (meets.plain _ member).2 rfl⟩
  have found := meets.found
  have noPrefix := meets.noPrefix
  have room := meets.room
  rw [FoundRight, ownPlace, isStored.records] at found
  rw [isStored.records] at noPrefix room
  have checks : cfgWriteSysParam pages parameter keyword context =
      storeContext pages parameter keyword context := by
    rw [cfgWriteSysParam, if_neg (Nat.not_lt.mpr meets.short), keyVerified]
    dsimp only
    rw [if_neg (Int.not_lt.mpr (Int.natCast_nonneg itemNum)), contextVerified]
    dsimp only
    rw [if_neg (Int.not_lt.mpr allowed)]
  rw [checks, storeContext]
  cases isStored with
  | unset unset =>
      obtain ⟨bytes, long, reads, noSettings⟩ := unset.value
      have new : keyword ∉ ([] : List (List Byte × List Byte)).map Prod.fst := List.not_mem_nil
      refine ⟨some (headerOf pages ++ record (keyword, context)), [(keyword, context)], ?_, ?_,
        settingsOf_append new⟩
      · rw [reads]
        dsimp only
        rw [if_neg noSettings, firstRecord_eq pages long cleanKey clean]
      · have one : record (keyword, context) = [(keyword, context)].flatMap record := by simp
        rw [one]
        refine .set (headerOf_length pages) (headerOf_noEnd pages) ?_ ?_ (by simp)
          (show ITEM_SIZE * 2 * (1 + 1) < VALUE_SIZE by decide)
        · exact (List.prefix_append _ _).trans (List.prefix_append _ _)
        · intro entry member
          rw [List.mem_singleton.mp member]
          exact ⟨cleanKey, clean⟩
  | @set header entries long noEnd flag allClean once fits =>
      obtain ⟨count, some_, isCount, reads, settings, rest⟩ := readValue_set long flag allClean fits
      rw [stored_set long flag] at found
      rw [reads]
      dsimp only
      rw [if_pos settings, rest, found]
      cases place : (entries.findIdx? fun entry => entry.1 = keyword).map (ITEM_SIZE * 2 * ·) with
      | some pt =>
          obtain ⟨front, old, back, rfl, rfl, new⟩ := own_record place
          have sameOld := noPrefix old (List.mem_append_right _ List.mem_cons_self)
          refine ⟨some (header ++ (front ++ (keyword, context) :: back).flatMap record),
            front ++ (keyword, context) :: back, replace_stored long noEnd allClean clean
            sameOld some_, ?_, settingsOf_replace new⟩
          refine .set long noEnd flag ?_ ?_ ?_
          · obtain ⟨frontClean, clean'⟩ := List.forall_mem_append.mp allClean
            obtain ⟨-, backClean⟩ := List.forall_mem_cons.mp clean'
            exact List.forall_mem_append.mpr
              ⟨frontClean, List.forall_mem_cons.mpr ⟨⟨cleanKey, clean⟩, backClean⟩⟩
          · rw [List.map_append, List.map_cons] at once ⊢
            exact once
          · rw [List.length_append, List.length_cons] at fits ⊢
            exact fits
      | none =>
          have new := no_record place
          have more := room new
          refine ⟨some (header ++ entries.flatMap record ++ record (keyword, context)),
            entries ++ [(keyword, context)], appendRecord_eq ?_ cleanKey clean ?_, ?_,
            settingsOf_append new⟩
          · intro member
            rcases List.mem_append.mp member with inHeader | inRecords
            · exact noEnd inHeader
            · exact records_noEnd allClean inRecords
          · rw [isCount]
            have split : ITEM_SIZE * 2 * (entries.length + 2) =
                ITEM_SIZE * 2 * (entries.length + 1) + ITEM_SIZE * 2 := Nat.mul_succ _ _
            omega
          · have whole : header ++ entries.flatMap record ++ record (keyword, context) =
                header ++ (entries ++ [(keyword, context)]).flatMap record := by
              rw [List.flatMap_append, List.append_assoc]
              simp
            rw [whole]
            refine .set long noEnd flag ?_ ?_ ?_
            · refine List.forall_mem_append.mpr ⟨allClean, fun entry member => ?_⟩
              rw [List.mem_singleton.mp member]
              exact ⟨cleanKey, clean⟩
            · rw [List.map_append, List.nodup_append]
              refine ⟨once, by simp, fun key member other isNew same => new ?_⟩
              rw [← show other = keyword from List.mem_singleton.mp isNew, ← same]
              exact member
            · rw [List.length_append]
              exact more

theorem contextAt_record {header : List Byte} {count : Nat} (long : header.length = ITEM_SIZE * 2)
    (clean : ∀ entry ∈ front ++ (keyword, context) :: back, Clean entry.1 ∧ Clean entry.2) :
    contextAt (header ++ (front ++ (keyword, context) :: back).flatMap record ++
      List.replicate count 0) (ITEM_SIZE * 2 + ITEM_SIZE * 2 * front.length) = some context := by
  obtain ⟨frontClean, clean⟩ := List.forall_mem_append.mp clean
  obtain ⟨⟨cleanKey, cleanContext⟩, -⟩ := List.forall_mem_cons.mp clean
  have split : header ++ (front ++ (keyword, context) :: back).flatMap record ++
      List.replicate count 0 = header ++ front.flatMap record ++ filledUp 0x04 ITEM_SIZE keyword ++
        (filledUp 0x04 ITEM_SIZE context ++ (back.flatMap record ++ List.replicate count 0)) := by
    rw [List.flatMap_append, List.flatMap_cons, record]
    simp only [List.append_assoc]
  have before : (header ++ front.flatMap record ++ filledUp 0x04 ITEM_SIZE keyword).length =
      ITEM_SIZE * 2 + ITEM_SIZE * 2 * front.length + ITEM_SIZE := by
    rw [List.length_append, List.length_append, long, records_length frontClean,
      cleanKey.filled_length]
  have filled := cleanContext.filled_length
  rw [contextAt, split, List.drop_left' before, List.take_left' filled]
  dsimp only
  rw [if_pos (.inl filled), stringOf_filledUp cleanContext.noFill, stringOf_of_free cleanContext.noEnd]

theorem Stored.read (isStored : Stored parameter entries) (found : FoundRight parameter keyword) :
    ∃ answer, (Call.read keyword).run parameter = some (answer, parameter) ∧
      (Call.read keyword).Right (settingsOf entries) answer := by
  rw [FoundRight, ownPlace, isStored.records] at found
  have answers {result : Except Int (List Byte)}
      (reads : cfgReadSysParam parameter keyword = some result) :
      (Call.read keyword).run parameter = some (.readTo result, parameter) := by
    rw [Call.run, reads]
    rfl
  unfold Call.Right
  cases isStored with
  | unset unset =>
      obtain ⟨bytes, long, reads, noSettings⟩ := unset.value
      refine ⟨.readTo (.error (-1)), answers ?_, -1, by decide, rfl⟩
      rw [cfgReadSysParam, reads]
      exact if_neg noSettings
  | @set header entries long noEnd flag clean once fits =>
      obtain ⟨count, some_, isCount, reads, settings, rest⟩ := readValue_set long flag clean fits
      rw [stored_set long flag] at found
      cases place : (entries.findIdx? fun entry => entry.1 = keyword).map (ITEM_SIZE * 2 * ·) with
      | some pt =>
          rw [place] at found
          obtain ⟨front, context, back, rfl, rfl, new⟩ := own_record place
          refine ⟨.readTo (.ok context), answers ?_, ?_⟩
          · rw [cfgReadSysParam, reads]
            dsimp only
            rw [if_pos settings, rest, found]
            dsimp only
            rw [contextAt_record long clean, Option.map_some]
          · dsimp only
            rw [settingsOf_own new]
      | none =>
          rw [place] at found
          refine ⟨.readTo (.error (-2)), answers ?_, ?_⟩
          · rw [cfgReadSysParam, reads]
            dsimp only
            rw [if_pos settings, rest, found]
          · dsimp only
            rw [settingsOf_none (no_record place)]
            exact ⟨-2, by decide, rfl⟩

/-! ## Runs -/

theorem Stored.calls (isStored : Stored parameter entries) {calls : List Call}
    (meet : AllMeet calls parameter) : ∃ answers parameter', runCalls calls parameter =
      some (answers, parameter') ∧ RightAnswers (settingsOf entries) calls answers := by
  induction calls generalizing parameter entries with
  | nil => exact ⟨[], parameter, rfl, rfl⟩
  | cons call calls ih =>
      obtain ⟨meets, rest⟩ := meet
      obtain ⟨answer, parameter', entries', runs, isStored', right, after⟩ :
          ∃ answer parameter' entries', call.run parameter = some (answer, parameter') ∧
            Stored parameter' entries' ∧ call.Right (settingsOf entries) answer ∧
              settingsOf entries' = call.after (settingsOf entries) := by
        cases call with
        | write pages keyword context =>
            obtain ⟨parameter', entries', writes, isStored', after⟩ := isStored.write pages meets
            refine ⟨.wrote 0, parameter', entries', ?_, isStored', rfl, after⟩
            rw [Call.run, writes]
            rfl
        | read keyword =>
            obtain ⟨answer, reads, right⟩ := isStored.read meets.2
            exact ⟨answer, parameter, entries, reads, isStored, right, rfl⟩
      obtain ⟨answers, last, runs', rights⟩ := ih isStored' (rest answer parameter' runs)
      refine ⟨answer :: answers, last, ?_, answer, answers, rfl, right, ?_⟩
      · rw [runCalls, runs]
        dsimp only
        rw [runs', Option.map_some]
      · rwa [after] at rights

/-- **The settings behave as a map.** From a parameter without settings, a run of calls in which
each keyword is first found at its own record, and each new context is plain, replaces no longer
one that starts with it and has room, stays inside its buffers and answers as a map of settings. -/
theorem settings_run {calls : List Call} (unset : Unset parameter)
    (meet : AllMeet calls parameter) : ∃ answers parameter', runCalls calls parameter =
      some (answers, parameter') ∧ RightAnswers (fun _ => none) calls answers :=
  (Stored.unset unset).calls meet

/-- The parameter with one record, without pages. -/
def oneRecord (keyword context : String) : Parameter :=
  some (headerOf (none, none, none) ++ record (text keyword, text context))

theorem lcd_written : cfgWriteSysParam (none, none, none) none (text "LCD") (text "01") =
    some (0, oneRecord "LCD" "01") := by
  decide +kernel

/-- A display that is set and asked for. -/
theorem settings_run_lcd : ∃ answers parameter', runCalls
    [.write (none, none, none) (text "LCD") (text "01"), .read (text "LCD")] none =
      some (answers, parameter') ∧ RightAnswers (fun _ => none)
        [.write (none, none, none) (text "LCD") (text "01"), .read (text "LCD")] answers := by
  refine settings_run (.inl rfl) ⟨?_, fun answer parameter' runs => ⟨⟨?_, ?_⟩, fun _ _ _ => trivial⟩⟩
  · refine ⟨?_, by decide, by decide, by decide, rfl, nofun, fun _ => by decide⟩
    exact ⟨⟨.cfg, "LCD", _⟩, List.mem_of_getElem? (show versiconKeyword[52]? = _ from rfl), rfl,
      by decide +kernel⟩
  · exact List.mem_map.mpr ⟨⟨.cfg, "LCD", _⟩,
      List.mem_of_getElem? (show versiconKeyword[52]? = _ from rfl), rfl⟩
  · rw [Call.run, lcd_written, Option.map_some] at runs
    obtain ⟨-, rfl⟩ := Prod.mk.inj (Option.some.inj runs)
    have here : strstr (stored (oneRecord "LCD" "01")) (text "LCD") =
        ownPlace (oneRecord "LCD" "01") (text "LCD") := by decide +kernel
    exact here

/-- A keyword that starts with another one loses its context: the one of the other is stored in
its record. -/
theorem gprs_board_lost :
    cfgWriteSysParam (none, none, none) none (text "GPRS_BOARD") (text "V01") =
      some (0, oneRecord "GPRS_BOARD" "V01") ∧
    cfgWriteSysParam (none, none, none) (oneRecord "GPRS_BOARD" "V01") (text "GPRS") (text "01") =
      some (0, oneRecord "GPRS_BOARD" "01") ∧
    cfgReadSysParam (oneRecord "GPRS_BOARD" "01") (text "GPRS_BOARD") = some (.ok (text "01")) := by
  refine ⟨?_, ?_, ?_⟩
  · decide +kernel
  · decide +kernel
  · decide +kernel

end PosFirmware.CfgManage
