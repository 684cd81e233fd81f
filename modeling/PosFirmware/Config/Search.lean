import Mathlib.Tactic
import PosFirmware.Config.Store

/-!
# What a search of the configuration store finds

`search` finds the last readable record of each keyword (`search_apply`). The vote of
`Search_Keyword` does not depend on what its buffers held before where two copies are the same,
or fewer than two were found (`Decided`), and then `ReadTerminalInfo` returns the content of
that record (`readTerminalInfo_decided`).
-/

namespace PosFirmware.Config

open PosFirmware.Flash

variable {δ : Type} {chip : Chip δ}

/-! ## Records -/

/-- A page with a record of a keyword. -/
def isRecord (id : Nat) (pt : Buffer) : Bool :=
  pt 0 = 0x24 && hasKeyword id pt && decide (recordLen pt ≤ PAGE_SIZE) &&
    lrcOf (fun j => pt (KEYWORD_LEN + 2 + j)) (recordLen pt) = pt (KEYWORD_LEN + 2 + recordLen pt)

theorem isRecord_iff {id : Nat} {pt : Buffer} : isRecord id pt = true ↔
    ((pt 0 = 0x24 ∧ hasKeyword id pt = true) ∧ recordLen pt ≤ PAGE_SIZE) ∧
      lrcOf (fun j => pt (KEYWORD_LEN + 2 + j)) (recordLen pt) =
        pt (KEYWORD_LEN + 2 + recordLen pt) := by
  simp [isRecord]

theorem keywords_differ : ∀ id < keyNum, ∀ other < keyNum,
    (∀ i < KEYWORD_LEN, listBuffer (keywordTable.getD id []) i =
      listBuffer (keywordTable.getD other []) i) → id = other := by
  decide

theorem hasKeyword_unique {id other : Nat} {pt : Buffer} (inTable : id < keyNum)
    (inTable' : other < keyNum) (here : hasKeyword id pt = true)
    (there : hasKeyword other pt = true) : id = other := by
  refine keywords_differ id inTable other inTable' fun i below => ?_
  exact ((sameBytes_iff _ _ _).mp here i below).symm.trans ((sameBytes_iff _ _ _).mp there i below)

theorem isRecord_unique {id other : Nat} {pt : Buffer} (inTable : id < keyNum)
    (inTable' : other < keyNum) (here : isRecord id pt = true) (there : isRecord other pt = true) :
    id = other :=
  hasKeyword_unique inTable inTable' (isRecord_iff.mp here).1.1.2 (isRecord_iff.mp there).1.1.2

/-! ## One block -/

theorem searchPage_apply {index : Nat → Option Nat} {i id : Nat} {pt : Buffer}
    (inTable : id < keyNum) : searchPage index i pt id =
      (index id).or (if isRecord id pt then some i else none) := by
  unfold searchPage
  by_cases dollar : pt 0 = 0x24
  · rw [if_neg (not_not.mpr dollar)]
    cases first : (List.range keyNum).find? fun indexi =>
        (index indexi).isNone && hasKeyword indexi pt with
    | none =>
      have absent := List.find?_eq_none.mp first id (List.mem_range.mpr inTable)
      dsimp only
      cases known : index id with
      | some page => rw [Option.some_or]
      | none =>
        have other : isRecord id pt = false := by
          by_contra record
          have keyword := (isRecord_iff.mp (Bool.eq_true_of_not_eq_false record)).1.1.2
          exact absent (by rw [known, keyword]; rfl)
        simp [other]
    | some indexi =>
      have matched := List.find?_some first
      obtain ⟨unknown, keyword⟩ := Bool.and_eq_true_iff.mp matched
      have indexed : indexi < keyNum := List.mem_range.mp (List.mem_of_find?_eq_some first)
      have record : isRecord indexi pt = true ↔ recordLen pt ≤ PAGE_SIZE ∧
          lrcOf (fun j => pt (KEYWORD_LEN + 2 + j)) (recordLen pt) =
            pt (KEYWORD_LEN + 2 + recordLen pt) := by
        rw [isRecord_iff]
        simp only [dollar, keyword, and_self, true_and]
      by_cases same : id = indexi
      · subst same
        have none : index id = none := Option.isNone_iff_eq_none.mp unknown
        rw [none, Option.none_or]
        dsimp only
        by_cases long : PAGE_SIZE < recordLen pt
        · rw [if_pos long, if_neg (fun is => absurd (record.mp is).1 (not_le.mpr long)), none]
        · rw [if_neg long]
          by_cases checked : lrcOf (fun j => pt (KEYWORD_LEN + 2 + j)) (recordLen pt) =
              pt (KEYWORD_LEN + 2 + recordLen pt)
          · rw [if_pos checked, if_pos (record.mpr ⟨not_lt.mp long, checked⟩),
              Function.update_self]
          · rw [if_neg checked, if_neg (fun is => checked (record.mp is).2), none]
      · have other : isRecord id pt = false := by
          by_contra is
          have keyword' := (isRecord_iff.mp (Bool.eq_true_of_not_eq_false is)).1.1.2
          exact same (hasKeyword_unique inTable indexed keyword' keyword)
        rw [other, if_neg Bool.false_ne_true, Option.or_none]
        dsimp only
        split_ifs
        · rfl
        · exact Function.update_of_ne same _ _
        · rfl
  · have other : isRecord id pt = false := by
      by_contra is
      exact dollar (isRecord_iff.mp (Bool.eq_true_of_not_eq_false is)).1.1.1
    rw [if_pos dollar, other, if_neg Bool.false_ne_true, Option.or_none]

theorem searchRead_apply {index : Nat → Option Nat} {i id : Nat} {read : Int × Option Buffer}
    (inTable : id < keyNum) : searchRead index i read id =
      (index id).or (if (read.1 = 0 && isRecord id (read.2.getD zeros)) then some i else none) := by
  unfold searchRead
  by_cases readable : read.1 = 0
  · rw [if_neg (not_not.mpr readable), searchPage_apply inTable]
    simp [readable]
  · rw [if_pos readable]
    simp [readable]

/-- Whether a page is read, without a correction, and is a record of the keyword. -/
def readsRecord (chip : Chip δ) (state : δ) (block id i : Nat) : Bool :=
  (cfgNandRead chip state (pageAt block i)).1 = 0 &&
    isRecord id ((cfgNandRead chip state (pageAt block i)).2.getD zeros)

theorem search_apply {state : δ} {block id : Nat} (inTable : id < keyNum) :
    search chip state block (fun _ => none) id =
      (List.range CONFIG_PAGE_NUM).reverse.find? (readsRecord chip state block id) := by
  suffices loop : ∀ (pages : List Nat) (index : Nat → Option Nat), pages.foldl
      (fun index i => searchRead index i (cfgNandRead chip state (pageAt block i))) index id =
        (index id).or (pages.find? (readsRecord chip state block id)) from
    (loop _ _).trans (Option.none_or)
  intro pages
  induction pages with
  | nil => exact fun index => (Option.or_none).symm
  | cons i rest past =>
    intro index
    rw [List.foldl_cons, past, List.find?_cons, readsRecord, searchRead_apply inTable]
    cases here : decide ((cfgNandRead chip state (pageAt block i)).1 = 0) &&
        isRecord id ((cfgNandRead chip state (pageAt block i)).2.getD zeros) with
    | false => rw [if_neg Bool.false_ne_true, Option.or_none]
    | true => rw [if_pos rfl, Option.or_assoc, Option.some_or]

/-- The newest record of a keyword in a block, as it is read. -/
def copyOf (chip : Chip δ) (state : δ) (block id : Nat) : Option Buffer :=
  (search chip state block (fun _ => none) id).bind fun i =>
    (cfgNandRead chip state (pageAt block i)).2

theorem search_some {state : δ} {block id page : Nat} (inTable : id < keyNum)
    (found : search chip state block (fun _ => none) id = some page) :
    ∃ copy, cfgNandRead chip state (pageAt block page) = (0, some copy) ∧
      isRecord id copy = true ∧ copyOf chip state block id = some copy := by
  have held : copyOf chip state block id = (cfgNandRead chip state (pageAt block page)).2 := by
    rw [copyOf, found, Option.bind_some]
  rw [search_apply inTable] at found
  have reads := List.find?_some found
  rw [readsRecord, Bool.and_eq_true, decide_eq_true_eq] at reads
  obtain ⟨readable, record⟩ := reads
  cases read : cfgNandRead chip state (pageAt block page) with
  | mk ret data =>
    rw [read] at readable record held
    cases data with
    | none => exact absurd (isRecord_iff.mp record).1.1.1 (show ¬ (0 : Byte) = 0x24 by decide)
    | some copy => exact ⟨copy, Prod.ext readable rfl, record, held⟩

/-! ## The vote -/

/-- The number of copies. -/
def copies (copy : Nat → Option Buffer) : Nat :=
  (copy 0).isSome.toNat + (copy 1).isSome.toNat + (copy 2).isSome.toNat

/-- What `Search_Keyword` makes of the copies of a keyword when its buffers held `tmpbuf`. -/
def outcome (copy : Nat → Option Buffer) (tmpbuf : Nat → Buffer) : Option Buffer :=
  if copies copy < 2 then none else some (voteAll fun i => (copy i).getD (tmpbuf i))

/-- Whatever the buffers held before, the copies yield this. -/
def Decided (copy : Nat → Option Buffer) (out : Option Buffer) : Prop :=
  ∀ tmpbuf, outcome copy tmpbuf = out

theorem readCopy_none {state : δ} {indexTmp : Nat → Option Nat} {i id : Nat}
    (absent : indexTmp id = none) (held : (Nat → Buffer) × Nat) :
    readCopy chip state indexTmp id held i = held := by
  unfold readCopy
  rw [absent]

theorem readCopy_some {state : δ} {indexTmp : Nat → Option Nat} {i id page : Nat} {copy : Buffer}
    (found : indexTmp id = some page)
    (read : cfgNandRead chip state (pageAt i page) = (0, some copy))
    (held : (Nat → Buffer) × Nat) : readCopy chip state indexTmp id held i =
      (Function.update held.1 i copy, held.2 + 1) := by
  unfold readCopy
  rw [found]
  dsimp only
  rw [read, keepCopy, if_neg (not_not.mpr rfl), Option.getD_some]

theorem readCopy_eq {state : δ} {i id : Nat} (inTable : id < keyNum)
    (held : (Nat → Buffer) × Nat) :
    readCopy chip state (search chip state i fun _ => none) id held i =
      (Function.update held.1 i ((copyOf chip state i id).getD (held.1 i)),
        held.2 + (copyOf chip state i id).isSome.toNat) := by
  cases found : search chip state i (fun _ => none) id with
  | none =>
    have absent : copyOf chip state i id = none := by rw [copyOf, found]; rfl
    rw [readCopy_none found, absent]
    exact Prod.ext (Function.update_eq_self i held.1).symm rfl
  | some page =>
    obtain ⟨copy, read, -, holds⟩ := search_some inTable found
    rw [readCopy_some found read, holds]
    rfl

theorem voteAll_update (tmpbuf : Nat → Buffer) (copy : Nat → Buffer) :
    voteAll (Function.update (Function.update (Function.update tmpbuf 0 (copy 0)) 1 (copy 1))
      2 (copy 2)) = voteAll copy := by
  funext i
  simp [voteAll, Function.update]

theorem mergeKeyword_eq {state : δ} {id : Nat} (inTable : id < keyNum) (found : Keywords) :
    ∃ tmpbuf, mergeKeyword chip state (fun i => search chip state i fun _ => none) found id =
      match outcome (fun i => copyOf chip state i id) found.tmpbuf with
      | none => { found with tmpbuf := tmpbuf }
      | some merged =>
        { tmpbuf := tmpbuf, index := Function.update found.index id (some found.num),
          store := Function.update found.store found.num merged, num := found.num + 1 } := by
  have read : (List.range CONFIG_BLOCK_NUM).foldl (fun held i =>
      readCopy chip state (search chip state i fun _ => none) id held i) (found.tmpbuf, 0) =
      (Function.update (Function.update (Function.update found.tmpbuf
        0 ((copyOf chip state 0 id).getD (found.tmpbuf 0)))
        1 ((copyOf chip state 1 id).getD (found.tmpbuf 1)))
        2 ((copyOf chip state 2 id).getD (found.tmpbuf 2)),
        copies fun i => copyOf chip state i id) := by
    have blocks : List.range CONFIG_BLOCK_NUM = [0, 1, 2] := rfl
    rw [blocks]
    simp only [List.foldl_cons, List.foldl_nil, readCopy_eq inTable,
      Function.update_of_ne (show (1 : Nat) ≠ 0 by decide),
      Function.update_of_ne (show (2 : Nat) ≠ 0 by decide),
      Function.update_of_ne (show (2 : Nat) ≠ 1 by decide), copies, Nat.zero_add]
  have voted := voteAll_update found.tmpbuf fun i => (copyOf chip state i id).getD (found.tmpbuf i)
  rw [mergeKeyword, read, mergeCopies, outcome]
  dsimp only at voted ⊢
  rw [voted]
  by_cases few : copies (fun i => copyOf chip state i id) < 2
  · rw [if_pos few, if_pos few]
    exact ⟨_, rfl⟩
  · rw [if_neg few, if_neg few]
    exact ⟨_, rfl⟩

theorem vote_first (b other : Byte) : vote b b other = b := if_pos rfl

theorem vote_outer (b other : Byte) : vote b other b = b := by
  simp [vote]

theorem vote_last (b other : Byte) : vote other b b = b := by
  unfold vote
  by_cases first : other = b
  · rw [if_pos first, first]
  · rw [if_neg first, if_neg first, if_pos rfl]

theorem decided_pair {copy : Nat → Option Buffer} {record : Buffer} {b b' : Nat} (order : b < b')
    (inStore : b' < CONFIG_BLOCK_NUM) (here : copy b = some record) (there : copy b' = some record) :
    Decided copy (some record) := by
  intro tmpbuf
  have three : b' < 3 := inStore
  have cases_ : (b = 0 ∧ b' = 1) ∨ (b = 0 ∧ b' = 2) ∨ (b = 1 ∧ b' = 2) := by omega
  obtain ⟨rfl, rfl⟩ | ⟨rfl, rfl⟩ | ⟨rfl, rfl⟩ := cases_
  · have many : ¬ copies copy < 2 := by
      simp only [copies, here, there, Option.isSome_some, Bool.toNat_true]
      omega
    rw [outcome, if_neg many]
    refine congrArg some (funext fun i => ?_)
    simp only [voteAll, here, there, Option.getD_some]
    exact vote_first _ _
  · have many : ¬ copies copy < 2 := by
      simp only [copies, here, there, Option.isSome_some, Bool.toNat_true]
      omega
    rw [outcome, if_neg many]
    refine congrArg some (funext fun i => ?_)
    simp only [voteAll, here, there, Option.getD_some]
    exact vote_outer _ _
  · have many : ¬ copies copy < 2 := by
      simp only [copies, here, there, Option.isSome_some, Bool.toNat_true]
      omega
    rw [outcome, if_neg many]
    refine congrArg some (funext fun i => ?_)
    simp only [voteAll, here, there, Option.getD_some]
    exact vote_last _ _

theorem decided_few {copy : Nat → Option Buffer} (few : copies copy < 2) : Decided copy none :=
  fun _ => if_pos few

/-! ## All keywords -/

/-- The record that was found for a keyword. -/
def Keywords.entry (found : Keywords) (id : Nat) : Option Buffer :=
  (found.index id).map found.store

/-- The second loop of `Search_Keyword` after the first keywords. -/
structure Scanned (chip : Chip δ) (state : δ) (scanned : Nat) (found : Keywords) : Prop where
  inStore : ∀ id page, found.index id = some page → page < found.num ∧ id < scanned
  entry : ∀ id < scanned, ∀ out, Decided (fun b => copyOf chip state b id) out →
    found.entry id = out
  empty : (∀ id, found.index id = none) → found.num = 0

theorem mergeKeyword_scanned {state : δ} {id : Nat} {found : Keywords} (inTable : id < keyNum)
    (past : Scanned chip state id found) : Scanned chip state (id + 1)
      (mergeKeyword chip state (fun i => search chip state i fun _ => none) found id) := by
  obtain ⟨tmpbuf, merged⟩ := @mergeKeyword_eq _ chip state id inTable found
  have fresh : found.index id = none := by
    by_contra known
    obtain ⟨page, held⟩ := Option.ne_none_iff_exists'.mp known
    exact absurd (past.inStore id page held).2 (lt_irrefl id)
  rw [merged]
  cases result : outcome (fun i => copyOf chip state i id) found.tmpbuf with
  | none =>
    constructor
    · intro other page held
      obtain ⟨stored, before⟩ := past.inStore other page held
      exact ⟨stored, by omega⟩
    · intro other below out decided
      obtain before | rfl : other < id ∨ other = id := by omega
      · exact past.entry other before out decided
      · have decides := (decided found.tmpbuf).symm.trans result
        rw [decides]
        exact congrArg (Option.map found.store) fresh
    · exact past.empty
  | some record =>
    dsimp only
    constructor
    · intro other page held
      dsimp only at held ⊢
      by_cases same : other = id
      · rw [same, Function.update_self] at held
        cases held
        exact ⟨by omega, by omega⟩
      · rw [Function.update_of_ne same] at held
        obtain ⟨stored, before⟩ := past.inStore other page held
        exact ⟨by omega, by omega⟩
    · intro other below out decided
      unfold Keywords.entry
      dsimp only
      obtain before | rfl : other < id ∨ other = id := by omega
      · have known := past.entry other before out decided
        rw [Function.update_of_ne (by omega), ← known, Keywords.entry]
        cases held : found.index other with
        | none => rfl
        | some page =>
          have stored := (past.inStore other page held).1
          rw [Option.map_some, Option.map_some, Function.update_of_ne (by omega)]
      · rw [Function.update_self, Option.map_some, Function.update_self]
        exact result.symm.trans (decided found.tmpbuf)
    · intro none
      have here := none id
      dsimp only at here
      rw [Function.update_self] at here
      cases here

theorem searchKeyword_scanned (state : δ) :
    Scanned chip state keyNum (searchKeyword chip state) := by
  suffices loop : ∀ n ≤ keyNum, Scanned chip state n
      ((List.range n).foldl (mergeKeyword chip state fun i => search chip state i fun _ => none)
        { tmpbuf := fun _ => pageArray chip zeros, index := fun _ => none, store := fun _ => zeros,
          num := 0 }) from loop keyNum le_rfl
  intro n
  induction n with
  | zero =>
    intro _
    exact ⟨fun _ _ held => (nomatch held), fun _ below => absurd below (Nat.not_lt_zero _),
      fun _ => rfl⟩
  | succ n past =>
    intro below
    rw [List.range_succ, List.foldl_append]
    exact mergeKeyword_scanned (by omega) (past (by omega))

theorem searchKeyword_entry {state : δ} {id : Nat} {out : Option Buffer} (inTable : id < keyNum)
    (decided : Decided (fun b => copyOf chip state b id) out) :
    (searchKeyword chip state).entry id = out :=
  (searchKeyword_scanned state).entry id inTable out decided

theorem searchKeyword_entry_none {state : δ} {id : Nat} (outside : keyNum ≤ id) :
    (searchKeyword chip state).entry id = none := by
  have scanned : Scanned chip state keyNum (searchKeyword chip state) :=
    searchKeyword_scanned state
  cases held : (searchKeyword chip state).index id with
  | none => rw [Keywords.entry, held]; rfl
  | some page => exact absurd (scanned.inStore id page held).2 (not_lt.mpr outside)

theorem searchKeyword_num_eq_zero {state : δ} :
    (searchKeyword chip state).num = 0 ↔ ∀ id, (searchKeyword chip state).entry id = none := by
  have scanned : Scanned chip state keyNum (searchKeyword chip state) :=
    searchKeyword_scanned state
  constructor
  · intro empty id
    cases held : (searchKeyword chip state).index id with
    | none => rw [Keywords.entry, held]; rfl
    | some page => exact absurd (scanned.inStore id page held).1 (by omega)
  · intro none
    exact scanned.empty fun id => Option.map_eq_none_iff.mp (none id)

/-! ## Reading -/

/-- The content of a record. -/
def recordContent (record : Buffer) : List Byte :=
  (List.range (recordLen record)).map fun i => record (KEYWORD_LEN + 2 + i)

theorem recordContent_length (record : Buffer) :
    (recordContent record).length = recordLen record := by
  simp [recordContent]

/-- **What is decided is read**, cut to the length asked for. -/
theorem readTerminalInfo_decided {state : δ} {id len : Nat} {out : Option Buffer}
    (inTable : id < keyNum) (asked : 0 < len)
    (decided : Decided (fun b => copyOf chip state b id) out) :
    (readTerminalInfo chip state id len).toOption =
      out.map fun record => (recordContent record).take len := by
  have found := searchKeyword_entry inTable decided
  unfold readTerminalInfo
  rw [if_neg (by omega)]
  dsimp only
  by_cases empty : (searchKeyword chip state).num = 0
  · rw [if_pos empty, ← found, searchKeyword_num_eq_zero.mp empty id]
    rfl
  · rw [if_neg empty]
    rw [Keywords.entry] at found
    cases held : (searchKeyword chip state).index id with
    | none =>
      rw [held] at found
      rw [← found]
      rfl
    | some page =>
      rw [held, Option.map_some] at found
      rw [← found, Option.map_some]
      dsimp only
      generalize (searchKeyword chip state).store page = record
      have cut : (if len < recordLen record then len else recordLen record) =
          min len (recordLen record) := by
        by_cases shorter : len < recordLen record
        · rw [if_pos shorter, min_eq_left shorter.le]
        · rw [if_neg shorter, min_eq_right (not_lt.mp shorter)]
      rw [cut, recordContent, ← List.map_take, List.take_range]
      rfl

theorem isLatest_iff {found : Keywords} {id : Nat} {context : List Byte} :
    isLatest found id context = true ↔
      ∃ record, found.entry id = some record ∧ recordContent record = context := by
  unfold isLatest Keywords.entry
  cases found.index id with
  | none => simp
  | some page =>
    simp only [Option.map_some, Option.some.injEq, exists_eq_left', Bool.and_eq_true,
      decide_eq_true_eq, sameBytes_iff]
    constructor
    · rintro ⟨length, bytes⟩
      apply List.ext_getElem
      · rw [recordContent_length, length]
      · intro i below below'
        have byte := bytes i below'
        simp only [listBuffer, List.getD_eq_getElem?_getD, List.getElem?_eq_getElem below',
          Option.getD_some] at byte
        simpa [recordContent] using byte
    · rintro rfl
      refine ⟨(recordContent_length _).symm, fun i below => ?_⟩
      rw [recordContent_length] at below
      simp [listBuffer, recordContent, below]

end PosFirmware.Config
