import PosFirmware.Config.Operations

/-!
# A call of `WriteTerminalInfo`

What the store holds (`Holds`), and what a call writes: nothing, a record behind every good log,
or a record behind some of them and then every good log anew (`Wrote`).
-/

namespace PosFirmware.Config

open PosFirmware.Flash

variable {δ : Type} {chip : Chip δ} {good : Nat → Bool} {start logs : Nat → List Buffer}
  {R : δ → List Op → Prop} {state : δ} {ops : List Op} {held : Nat → Option Buffer}

/-! ## Records -/

theorem recordIn_apply (buf : Buffer) (index : Nat) (context : List Byte) (i : Nat) :
    recordIn buf index context i =
      if i = KEYWORD_LEN + 2 + context.length then lrcOf (listBuffer context) context.length
      else if KEYWORD_LEN + 2 ≤ i ∧ i < KEYWORD_LEN + 2 + context.length then
        listBuffer context (i - (KEYWORD_LEN + 2))
      else if KEYWORD_LEN ≤ i ∧ i < KEYWORD_LEN + 2 then
        listBuffer [BitVec.ofNat 8 context.length, BitVec.ofNat 8 (context.length / 256)]
          (i - KEYWORD_LEN)
      else if i < KEYWORD_LEN then listBuffer (keywordTable.getD index []) i
      else buf i := by
  simp only [recordIn, memcpy, Function.update_apply, Nat.zero_add, Nat.sub_zero, zero_le,
    true_and]

theorem keywords_marked : ∀ index < keyNum, listBuffer (keywordTable.getD index []) 0 = 0x24 := by
  decide

theorem recordIn_marked {buf : Buffer} {index : Nat} {context : List Byte}
    (inTable : index < keyNum) : recordIn buf index context 0 = 0x24 := by
  rw [recordIn_apply, if_neg (by simp only [KEYWORD_LEN]; omega), if_neg (by simp [KEYWORD_LEN]),
    if_neg (by simp [KEYWORD_LEN]), if_pos (by decide)]
  exact keywords_marked index inTable

/-- A content that fits in a page. -/
abbrev Fits (context : List Byte) : Prop := KEYWORD_LEN + 2 + context.length + 1 ≤ PAGE_SIZE

theorem recordIn_len {buf : Buffer} {index : Nat} {context : List Byte} (fits : Fits context) :
    recordLen (pageArray chip (recordIn buf index context)) = context.length := by
  simp only [Fits, KEYWORD_LEN, PAGE_SIZE] at fits
  have low : recordIn buf index context KEYWORD_LEN = BitVec.ofNat 8 context.length := by
    rw [recordIn_apply, if_neg (by simp [KEYWORD_LEN]; omega), if_neg (by simp [KEYWORD_LEN]),
      if_pos (by simp [KEYWORD_LEN])]
    rfl
  have high : recordIn buf index context (KEYWORD_LEN + 1) =
      BitVec.ofNat 8 (context.length / 256) := by
    rw [recordIn_apply, if_neg (by simp [KEYWORD_LEN]; omega), if_neg (by simp [KEYWORD_LEN]),
      if_pos (by simp [KEYWORD_LEN])]
    rfl
  rw [recordLen, pageArray_apply (by decide), pageArray_apply (by decide), low, high]
  simp only [BitVec.toNat_ofNat]
  omega

theorem recordIn_content {buf : Buffer} {index : Nat} {context : List Byte} (fits : Fits context)
    {i : Nat} (below : i < context.length) :
    pageArray chip (recordIn buf index context) (KEYWORD_LEN + 2 + i) = listBuffer context i := by
  simp only [Fits, KEYWORD_LEN, PAGE_SIZE] at fits
  rw [pageArray_apply (by simp only [KEYWORD_LEN, PAGE_SIZE]; omega), recordIn_apply,
    if_neg (by omega), if_pos (by omega), Nat.add_sub_cancel_left]

theorem lrcOf_congr {first second : Buffer} {len : Nat} (same : ∀ i < len, first i = second i) :
    lrcOf first len = lrcOf second len := by
  unfold lrcOf
  refine List.foldl_ext _ _ _ fun lrc j member => ?_
  rw [same j (List.mem_range.mp member)]

theorem recordIn_isRecord {buf : Buffer} {index : Nat} {context : List Byte}
    (inTable : index < keyNum) (fits : Fits context) :
    isRecord index (pageArray chip (recordIn buf index context)) = true := by
  have len : recordLen (pageArray chip (recordIn buf index context)) = context.length :=
    recordIn_len fits
  have room : context.length + 19 ≤ 2048 := by
    simp only [Fits, KEYWORD_LEN, PAGE_SIZE] at fits
    omega
  rw [isRecord_iff, len]
  refine ⟨⟨⟨?_, ?_⟩, by simp only [PAGE_SIZE]; omega⟩, ?_⟩
  · rw [pageArray_apply (by decide)]
    exact recordIn_marked inTable
  · rw [hasKeyword, sameBytes_iff]
    intro i below
    have inKeyword : i < 16 := below
    rw [pageArray_apply (by simp only [PAGE_SIZE]; omega), recordIn_apply,
      if_neg (by simp only [KEYWORD_LEN]; omega), if_neg (by simp only [KEYWORD_LEN]; omega),
      if_neg (by simp only [KEYWORD_LEN]; omega), if_pos below]
  · rw [lrcOf_congr fun i below => @recordIn_content _ chip _ _ _ fits i below,
      pageArray_apply (by simp only [KEYWORD_LEN, PAGE_SIZE]; omega), recordIn_apply, if_pos rfl]

theorem recordIn_recordContent {buf : Buffer} {index : Nat} {context : List Byte}
    (fits : Fits context) :
    recordContent (pageArray chip (recordIn buf index context)) = context := by
  have len : recordLen (pageArray chip (recordIn buf index context)) = context.length :=
    recordIn_len fits
  apply List.ext_getElem
  · rw [recordContent_length, len]
  · intro i below below'
    have byte : pageArray chip (recordIn buf index context) (KEYWORD_LEN + 2 + i) =
        listBuffer context i := recordIn_content fits below'
    simp only [recordContent, List.getElem_map, List.getElem_range, byte, listBuffer,
      List.getD_eq_getElem?_getD, List.getElem?_eq_getElem below', Option.getD_some]

/-! ## Newest records -/

theorem newest_append_own {log : List Buffer} {page : Buffer} {id : Nat}
    (record : isRecord id page = true) : newest (log ++ [page]) id = some page := by
  rw [newest, List.reverse_append, List.reverse_singleton, List.singleton_append,
    List.find?_cons_of_pos record]

theorem newest_append_other {log : List Buffer} {page : Buffer} {id : Nat}
    (other : isRecord id page = false) : newest (log ++ [page]) id = newest log id := by
  rw [newest, List.reverse_append, List.reverse_singleton, List.singleton_append,
    List.find?_cons_of_neg (by rw [other]; exact Bool.false_ne_true)]
  rfl

theorem newest_isRecord {log : List Buffer} {record : Buffer} {id : Nat}
    (here : newest log id = some record) : isRecord id record = true ∧ record ∈ log :=
  ⟨List.find?_some here, List.mem_reverse.mp (List.mem_of_find?_eq_some here)⟩

/-! ## What the store holds -/

/-- Whatever is in the bad blocks, the logs yield this record of a keyword. -/
def LogsDecide (good : Nat → Bool) (logs : Nat → List Buffer) (id : Nat) (out : Option Buffer) :
    Prop :=
  ∀ copy : Nat → Option Buffer,
    (∀ b < CONFIG_BLOCK_NUM, good b = true → copy b = newest (logs b) id) → Decided copy out

/-- The store holds a record of each keyword, or none. -/
structure Holds (chip : Chip δ) (good : Nat → Bool) (logs : Nat → List Buffer)
    (held : Nat → Option Buffer) : Prop where
  outside : ∀ id, keyNum ≤ id → held id = none
  decides : ∀ id < keyNum, LogsDecide good logs id (held id)
  record : ∀ id record, held id = some record →
    isRecord id record = true ∧ pageArray chip record = record

theorem LogsDecide.congr {logs' : Nat → List Buffer} {id : Nat} {out : Option Buffer}
    (decides : LogsDecide good logs id out)
    (same : ∀ b < CONFIG_BLOCK_NUM, good b = true → newest (logs' b) id = newest (logs b) id) :
    LogsDecide good logs' id out :=
  fun copy reads => decides copy fun b inStore isGood =>
    (reads b inStore isGood).trans (same b inStore isGood)

theorem Tracks.entry (tracks : Tracks chip good start R) (tracked : R state ops) {id : Nat}
    {out : Option Buffer} (inTable : id < keyNum)
    (decides : LogsDecide good (replay start ops) id out) :
    (searchKeyword chip state).entry id = out :=
  searchKeyword_entry inTable (decides _ fun _ inStore isGood =>
    (tracks.hasLog tracked inStore isGood).copyOf_eq inStore inTable)

theorem Tracks.entries (tracks : Tracks chip good start R) (tracked : R state ops)
    (holds : Holds chip good (replay start ops) held) (id : Nat) :
    (searchKeyword chip state).entry id = held id := by
  by_cases inTable : id < keyNum
  · exact tracks.entry tracked inTable (holds.decides id inTable)
  · rw [holds.outside id (not_lt.mp inTable)]
    exact searchKeyword_entry_none (not_lt.mp inTable)

/-! ## A call -/

/-- The blocks of the store. -/
abbrev blocks : List Nat := List.range CONFIG_BLOCK_NUM

/-- The records that are kept when a keyword is written. -/
def kept (held : Nat → Option Buffer) (index : Nat) : List Buffer :=
  (List.range MAX_INDEX).filterMap fun i => if i = index then none else held i

/-- What a call does first: it erases the blocks when the store holds nothing. -/
def Cleared (good : Nat → Bool) (held : Nat → Option Buffer) (ops : List Op) : Prop :=
  ops = [] ∧ (∃ id, held id ≠ none) ∨ ops = (goods good blocks).map .erased ∧ ∀ id, held id = none

/-- What a call returns and does to the good blocks. -/
inductive Wrote (chip : Chip δ) (good : Nat → Bool) (held : Nat → Option Buffer) (index : Nat)
    (context : List Byte) : Int → List Op → Prop
  | same {record : Buffer} : held index = some record → recordContent record = context →
      Wrote chip good held index context 0 []
  | refused {ret : Int} {ops : List Op} : Cleared good held ops → ret ≠ 0 →
      (keyNum ≤ index ∨ ¬ Fits context) → Wrote chip good held index context ret ops
  | appended {ops : List Op} : Cleared good held ops → index < keyNum → Fits context →
      Wrote chip good held index context 0
        (ops ++ (goods good blocks).map
          (.written · (pageArray chip (recordIn chip.stackBuf index context))))
  | rewritten {ops : List Op} {done : List Nat} : Cleared good held ops → index < keyNum →
      Fits context → done <+: goods good blocks →
      Wrote chip good held index context 0
        (ops ++ done.map (.written · (pageArray chip (recordIn chip.stackBuf index context))) ++
          (goods good blocks).flatMap
            (rewriteOps (kept held index ++ [pageArray chip (recordIn zeros index context)])))

theorem decides_none (few : (bads good blocks).length ≤ 1) {id : Nat}
    (unheld : ∀ b < CONFIG_BLOCK_NUM, good b = true → newest (logs b) id = none) :
    LogsDecide good logs id none := by
  intro copy reads
  refine decided_few ?_
  have absent : ∀ b < CONFIG_BLOCK_NUM, good b = true → copy b = none :=
    fun b inStore isGood => (reads b inStore isGood).trans (unheld b inStore isGood)
  have three : blocks = [0, 1, 2] := rfl
  have one : ∀ b < CONFIG_BLOCK_NUM, (copy b).isSome.toNat ≤ (!good b).toNat := by
    intro b inStore
    cases isGood : good b with
    | true => rw [absent b inStore isGood]; exact le_rfl
    | false => exact Bool.toNat_le _
  have count : (bads good blocks).length = (!good 0).toNat + (!good 1).toNat + (!good 2).toNat := by
    rw [bads, three]
    cases zero : good 0 <;> cases one : good 1 <;> cases two : good 2 <;> simp [zero, one, two]
  have first := one 0 (by decide)
  have second := one 1 (by decide)
  have third := one 2 (by decide)
  rw [copies]
  omega

theorem newest_written {page : Buffer} {id : Nat} (other : isRecord id page = false)
    (done : List Nat) (b : Nat) :
    newest (replay logs (done.map (.written · page)) b) id = newest (logs b) id := by
  induction done generalizing logs with
  | nil => rfl
  | cons block rest past =>
    rw [List.map_cons, replay_cons, past]
    by_cases here : block = b
    · subst here
      rw [Op.apply, Function.update_self]
      exact newest_append_other other
    · rw [@apply_other logs (.written block page) b here]

theorem replay_erased {done : List Nat} {b : Nat} (member : b ∈ done) :
    replay logs (done.map .erased) b = [] := by
  induction done generalizing logs with
  | nil => cases member
  | cons block rest past =>
    rw [List.map_cons, replay_cons]
    by_cases later : b ∈ rest
    · exact past later
    · have here : b = block := (List.mem_cons.mp member).resolve_right later
      subst here
      rw [replay_other]
      · exact Function.update_self _ _ _
      · intro op inRest
        obtain ⟨other, listed, rfl⟩ := List.mem_map.mp inRest
        exact fun same => later (same ▸ listed)

theorem mem_goods {b : Nat} (inStore : b < CONFIG_BLOCK_NUM) (isGood : good b = true) :
    b ∈ goods good blocks :=
  List.mem_filter.mpr ⟨List.mem_range.mpr inStore, isGood⟩

theorem Cleared.decides (few : (bads good blocks).length ≤ 1) (holds : Holds chip good start held)
    {first : List Op} (cleared : Cleared good held first) {page : Buffer} {id : Nat}
    (inTable : id < keyNum) (other : isRecord id page = false) (done : List Nat) :
    LogsDecide good (replay start (first ++ done.map (.written · page))) id (held id) := by
  obtain ⟨rfl, -⟩ | ⟨rfl, nothing⟩ := cleared
  · rw [List.nil_append]
    exact (holds.decides id inTable).congr fun b _ _ => newest_written other done b
  · rw [nothing id]
    refine decides_none few fun b inStore isGood => ?_
    rw [replay_append, newest_written other, replay_erased (mem_goods inStore isGood)]
    rfl

theorem Tracks.eraseIfEmpty (tracks : Tracks chip good start R) (tracked : R state [])
    (entries : ∀ id, (searchKeyword chip state).entry id = held id) :
    ∃ first, Cleared good held first ∧
      R (Config.eraseIfEmpty chip state (searchKeyword chip state)) first := by
  have empty : (searchKeyword chip state).num = 0 ↔
      ∀ id, (searchKeyword chip state).entry id = none := searchKeyword_num_eq_zero
  simp only [entries] at empty
  by_cases none : (searchKeyword chip state).num = 0
  · refine ⟨(goods good blocks).map .erased, .inr ⟨rfl, empty.mp none⟩, ?_⟩
    rw [Config.eraseIfEmpty, if_pos none]
    exact tracks.eraseAll blocks (fun b member => List.mem_range.mp member) tracked
  · refine ⟨[], .inl ⟨rfl, ?_⟩, ?_⟩
    · by_contra nothing
      push Not at nothing
      exact none (empty.mpr nothing)
    · rw [Config.eraseIfEmpty, if_neg none]
      exact tracked

theorem Tracks.rewriteBlocks (tracks : Tracks chip good start R)
    (few : (bads good blocks).length ≤ 1) {index : Nat} (context : List Byte)
    (inTable : index < keyNum) (tracked : R state ops)
    (outside : ∀ id, keyNum ≤ id → held id = none)
    (decides : ∀ id < keyNum, id ≠ index → LogsDecide good (replay start ops) id (held id))
    (record : ∀ id record, held id = some record →
      isRecord id record = true ∧ pageArray chip record = record) :
    (Config.rewriteBlocks chip state index context).1 = 0 ∧
      R (Config.rewriteBlocks chip state index context).2 (ops ++ (goods good blocks).flatMap
        (rewriteOps (kept held index ++ [pageArray chip (recordIn zeros index context)]))) := by
  have entries : ∀ id, id ≠ index → (searchKeyword chip state).entry id = held id := by
    intro id other
    by_cases known : id < keyNum
    · exact tracks.entry tracked known (decides id known other)
    · rw [outside id (not_lt.mp known)]
      exact searchKeyword_entry_none (not_lt.mp known)
  have same : copied chip (searchKeyword chip state) index (List.range MAX_INDEX) =
      kept held index := by
    refine List.filterMap_congr fun i _ => ?_
    split
    · rfl
    · next other =>
      rw [entries i other]
      cases here : held i with
      | none => rfl
      | some page => exact congrArg some (record i page here).2
  have marked : ∀ i page, i ≠ index → (searchKeyword chip state).entry i = some page →
      page 0 = 0x24 := by
    intro i page other here
    rw [entries i other] at here
    exact (isRecord_iff.mp (record i page here).1).1.1.1
  have dollar : recordIn zeros index context 0 = 0x24 := recordIn_marked inTable
  obtain ⟨failed, after⟩ := tracks.rewriteAll marked dollar blocks 0
    (fun b member => List.mem_range.mp member) tracked
  rw [same] at after
  rw [Nat.zero_add] at failed
  unfold Config.rewriteBlocks
  dsimp only
  generalize List.foldl (Config.rewriteBlock chip (searchKeyword chip state) index context)
    (0, state) blocks = result at failed after ⊢
  rw [if_neg (by omega)]
  exact ⟨rfl, after⟩

/-- **What a call does to the store.** -/
theorem Tracks.writeTerminalInfo (tracks : Tracks chip good start R)
    (few : (bads good blocks).length ≤ 1) (holds : Holds chip good start held)
    (tracked : R state []) (index : Nat) (context : List Byte) :
    ∃ ops, R (Config.writeTerminalInfo chip state index context).2 ops ∧
      Wrote chip good held index context (Config.writeTerminalInfo chip state index context).1
        ops := by
  have entries := tracks.entries tracked holds
  obtain ⟨first, cleared, ready⟩ := tracks.eraseIfEmpty tracked entries
  unfold Config.writeTerminalInfo
  dsimp only
  by_cases latest : isLatest (searchKeyword chip state) index context = true
  · obtain ⟨record, entry, content⟩ := isLatest_iff.mp latest
    rw [entries] at entry
    rw [if_pos latest]
    have kept : Config.eraseIfEmpty chip state (searchKeyword chip state) = state := by
      refine if_neg fun empty => ?_
      have none := searchKeyword_num_eq_zero.mp empty index
      rw [entries, entry] at none
      cases none
    rw [kept]
    exact ⟨[], tracked, .same entry content⟩
  · rw [if_neg latest]
    generalize Config.eraseIfEmpty chip state (searchKeyword chip state) = state' at ready ⊢
    unfold writeToFlash
    by_cases inTable : index < keyNum
    · rw [if_neg (not_le.mpr inTable)]
      by_cases fits : Fits context
      · rw [if_neg (not_lt.mpr fits)]
        have dollar : recordIn chip.stackBuf index context 0 = 0x24 := recordIn_marked inTable
        obtain ⟨done, some, next, ends⟩ := tracks.appendToBlocks dollar blocks 0
          (fun b member => List.mem_range.mp member) List.nodup_range (by omega) ready
        generalize Config.appendToBlocks chip (recordIn chip.stackBuf index context) blocks 0 state' =
          result at next ends ⊢
        obtain ⟨ret, after⟩ := result
        dsimp only at next ends ⊢
        obtain ⟨rfl, rfl⟩ | rfl := ends
        · rw [if_pos (show (0 : Int) ≠ -3 by decide)]
          exact ⟨_, next, .appended cleared inTable fits⟩
        · rw [if_neg (not_not.mpr rfl)]
          have own : isRecord index (pageArray chip (recordIn chip.stackBuf index context)) = true :=
            recordIn_isRecord inTable fits
          have others : ∀ id < keyNum, id ≠ index → LogsDecide good (replay start (first ++
              done.map (.written · (pageArray chip (recordIn chip.stackBuf index context))))) id
                (held id) := by
            intro id known other
            refine cleared.decides few holds known ?_ done
            by_contra also
            exact other (isRecord_unique known inTable (Bool.eq_true_of_not_eq_false also) own)
          obtain ⟨ok, last⟩ := tracks.rewriteBlocks few context inTable next
            holds.outside others holds.record
          rw [ok]
          exact ⟨_, last, .rewritten cleared inTable fits some⟩
      · rw [if_pos (not_le.mp fits)]
        exact ⟨first, ready, .refused cleared (show (-2 : Int) ≠ 0 by decide) (.inr fits)⟩
    · rw [if_pos (not_lt.mp inTable)]
      exact ⟨first, ready, .refused cleared (show (-1 : Int) ≠ 0 by decide) (.inl (not_lt.mp inTable))⟩

end PosFirmware.Config
