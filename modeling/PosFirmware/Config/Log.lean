import PosFirmware.Config.Search
import PosFirmware.Flash.MonitorPages

/-!
# The logs of the configuration store

A good block is a log: its first pages are records, the others are erased (`HasLog`). The
newest record of the log is the copy that a search finds (`HasLog.copyOf_eq`), a page is
programmed behind it (`HasLog.push`), and an erase empties it (`HasLog.erased`).
-/

namespace PosFirmware.Config

open PosFirmware.Flash

variable {δ : Type} {chip : Chip δ}

/-! ## Addresses -/

theorem pageAt_inside {block i : Nat} (inStore : block < CONFIG_BLOCK_NUM)
    (inBlock : i < CONFIG_PAGE_NUM) : ¬ outsideConfig (pageAt block i) := by
  simp only [CONFIG_BLOCK_NUM, CONFIG_PAGE_NUM, BLOCK_SIZE, PAGE_SIZE] at inStore inBlock
  simp only [outsideConfig, pageAt, CONFIG_BASE_ADDR, CONFIG_END_ADDR, BLOCK_SIZE, PAGE_SIZE]
  omega

theorem pageNo_pageAt {block i : Nat} :
    pageNo (pageAt block i * 2) = 64 * (1 + block) + i := by
  simp only [pageNo, pageAt, CONFIG_BASE_ADDR, BLOCK_SIZE, PAGE_SIZE]
  omega

theorem blockOfPage_pageAt {block i : Nat} (inBlock : i < CONFIG_PAGE_NUM) :
    blockOfPage (pageAt block i * 2) = 1 + block := by
  simp only [CONFIG_PAGE_NUM, BLOCK_SIZE, PAGE_SIZE] at inBlock
  rw [blockOfPage_eq, pageNo_pageAt]
  simp only [BLOCK_PAGES, BLOCK_SIZE, PAGE_SIZE]
  omega

/-! ## Pages -/

theorem pageArray_idem (data : Buffer) : pageArray chip (pageArray chip data) = pageArray chip data := by
  funext i
  simp only [pageArray, memcpy]
  split_ifs <;> simp_all

theorem pageArray_congr {data data' : Buffer} (same : ∀ i < PAGE_SIZE, data i = data' i) :
    pageArray chip data = pageArray chip data' := by
  funext i
  simp only [pageArray, memcpy, Nat.zero_add, Nat.sub_zero, zero_le, true_and]
  split_ifs with below
  · exact same i below
  · rfl

theorem pageArray_apply {data : Buffer} {i : Nat} (below : i < PAGE_SIZE) :
    pageArray chip data i = data i := by
  simp only [pageArray, memcpy, Nat.zero_add, Nat.sub_zero, zero_le, true_and]
  exact if_pos below

theorem cfgNandRead_congr {state state' : δ} {pageAddr : Nat}
    (same : chip.pageRd state' (pageAddr * 2) = chip.pageRd state (pageAddr * 2)) :
    cfgNandRead chip state' pageAddr = cfgNandRead chip state pageAddr := by
  unfold cfgNandRead
  rw [same]

theorem cfgNandRead_idle {state : δ} {block i : Nat} (inStore : block < CONFIG_BLOCK_NUM)
    (inBlock : i < CONFIG_PAGE_NUM)
    (idle : ∀ j < PAGE_SIZE + 64, chip.pageRd state (pageAt block i * 2) j = 0xFF) :
    cfgNandRead chip state (pageAt block i) = (0, some (pageArray chip idleBytes)) := by
  unfold cfgNandRead
  rw [if_neg (pageAt_inside inStore inBlock)]
  dsimp only
  rw [if_pos fun j below => idle _ (by omega)]
  exact congrArg (fun page => ((0 : Int), some page)) (pageArray_congr fun j below =>
    idle j (by omega))

theorem readsRecord_idle {state : δ} {block id i : Nat} (inStore : block < CONFIG_BLOCK_NUM)
    (inBlock : i < CONFIG_PAGE_NUM)
    (idle : ∀ j < PAGE_SIZE + 64, chip.pageRd state (pageAt block i * 2) j = 0xFF) :
    readsRecord chip state block id i = false := by
  have erased : isRecord id (pageArray chip idleBytes) = false := by
    by_contra record
    have dollar := (isRecord_iff.mp (Bool.eq_true_of_not_eq_false record)).1.1.1
    rw [pageArray_apply (by decide)] at dollar
    exact absurd dollar (show ¬ (0xFF : Byte) = 0x24 by decide)
  rw [readsRecord, cfgNandRead_idle inStore inBlock idle]
  exact (congrArg _ erased).trans (Bool.and_false _)

theorem cfgNandRead_image {state : δ} {block i : Nat} {src : Buffer}
    (hashed : ∀ data, HASH_SIZE ≤ (chip.sha1 data).length) (inStore : block < CONFIG_BLOCK_NUM) (inBlock : i < CONFIG_PAGE_NUM)
    (image : ∀ j < PAGE_SIZE + 64, chip.pageRd state (pageAt block i * 2) j = pageImage chip src j) :
    cfgNandRead chip state (pageAt block i) = (0, some (pageArray chip src)) := by
  have data := image_data image
  have corrected := eccCorrect_imageOf hashed image
  unfold cfgNandRead
  rw [if_neg (pageAt_inside inStore inBlock)]
  dsimp only
  split_ifs
  · exact congrArg (fun page => ((0 : Int), some page)) (pageArray_congr data)
  · rw [corrected]
    refine congrArg (fun page => ((0 : Int), some page)) (pageArray_congr fun j below => ?_)
    rw [byteAt_wordsOf, data j below]

/-! ## Logs -/

/-- The newest record of a keyword in a log. -/
def newest (log : List Buffer) (id : Nat) : Option Buffer := log.reverse.find? (isRecord id)

/-- A block whose first pages are a log of records, and whose other pages are erased. -/
structure HasLog (chip : Chip δ) (state : δ) (block : Nat) (log : List Buffer) : Prop where
  fits : log.length ≤ CONFIG_PAGE_NUM
  reads : ∀ i page, log[i]? = some page → cfgNandRead chip state (pageAt block i) = (0, some page)
  idle : ∀ i, log.length ≤ i → i < CONFIG_PAGE_NUM → ∀ j < PAGE_SIZE + 64,
    chip.pageRd state (pageAt block i * 2) j = 0xFF
  marked : ∀ page ∈ log, page 0 = 0x24

theorem HasLog.congr {state state' : δ} {block : Nat} {log : List Buffer}
    (has : HasLog chip state block log) (same : ∀ i < CONFIG_PAGE_NUM,
      chip.pageRd state' (pageAt block i * 2) = chip.pageRd state (pageAt block i * 2)) :
    HasLog chip state' block log where
  fits := has.fits
  reads i page held := by
    have below : i < log.length := List.getElem?_eq_some_iff.mp held |>.1
    rw [cfgNandRead_congr (same i (below.trans_le has.fits))]
    exact has.reads i page held
  idle i outside inBlock j below := by
    rw [same i inBlock]
    exact has.idle i outside inBlock j below
  marked := has.marked

theorem find_reverse_range {p : Nat → Bool} {n m : Nat} (le : n ≤ m)
    (none : ∀ i, n ≤ i → i < m → p i = false) :
    (List.range m).reverse.find? p = (List.range n).reverse.find? p := by
  induction m with
  | zero => rw [Nat.le_zero.mp le]
  | succ m past =>
    obtain rfl | before : n = m + 1 ∨ n ≤ m := by omega
    · rfl
    · rw [List.range_succ, List.reverse_append, List.reverse_singleton, List.singleton_append,
        List.find?_cons, none m before (Nat.lt_succ_self m)]
      exact past before fun i above below => none i above (by omega)

theorem find_pages {log : List Buffer} {p : Nat → Bool} {q : Buffer → Bool}
    {page : Nat → Option Buffer}
    (reads : ∀ i record, log[i]? = some record → page i = some record ∧ p i = q record) :
    ((List.range log.length).reverse.find? p).bind page = log.reverse.find? q := by
  induction log using List.reverseRecOn with
  | nil => rfl
  | append_singleton log record past =>
    obtain ⟨here, matched⟩ := reads log.length record (by simp)
    rw [List.length_append, List.length_singleton, List.range_succ, List.reverse_append,
      List.reverse_append, List.reverse_singleton, List.reverse_singleton, List.singleton_append,
      List.singleton_append, List.find?_cons, List.find?_cons, matched]
    cases q record with
    | true => exact here
    | false =>
      refine past fun i other held => reads i other ?_
      rw [List.getElem?_append_left (List.getElem?_eq_some_iff.mp held).1]
      exact held

theorem HasLog.copyOf_eq {state : δ} {block id : Nat} {log : List Buffer}
    (has : HasLog chip state block log) (inStore : block < CONFIG_BLOCK_NUM)
    (inTable : id < keyNum) : copyOf chip state block id = newest log id := by
  have idle : ∀ i, log.length ≤ i → i < CONFIG_PAGE_NUM →
      readsRecord chip state block id i = false :=
    fun i outside inBlock => readsRecord_idle inStore inBlock (has.idle i outside inBlock)
  rw [copyOf, search_apply inTable, find_reverse_range has.fits idle]
  refine find_pages fun i record held => ?_
  have read := has.reads i record held
  rw [readsRecord, read]
  exact ⟨rfl, by simp⟩

theorem HasLog.searchBlankPage_eq {state : δ} {block : Nat} {log : List Buffer}
    (has : HasLog chip state block log) (inStore : block < CONFIG_BLOCK_NUM) :
    searchBlankPage chip state block = log.length := by
  rw [searchBlankPage, find_reverse_range has.fits]
  · cases size : log.length with
    | zero => rfl
    | succ n =>
      have below : n < log.length := by omega
      obtain ⟨page, held⟩ : ∃ page, log[n]? = some page := ⟨_, List.getElem?_eq_getElem below⟩
      have read := has.reads n page held
      have dollar := has.marked page (List.mem_of_getElem? held)
      have used : isUsed chip (cfgNandRead chip state (pageAt block n)) = true := by
        rw [read]
        simp [isUsed, dollar]
      rw [List.range_succ, List.reverse_append, List.reverse_singleton, List.singleton_append]
      have first := List.find?_cons_of_pos (p := fun i =>
        isUsed chip (cfgNandRead chip state (pageAt block i))) (l := (List.range n).reverse) used
      rw [first, Option.elim_some]
  · intro i outside inBlock
    rw [cfgNandRead_idle inStore inBlock (has.idle i outside inBlock)]
    have idle : pageArray chip idleBytes 0 = 0xFF := pageArray_apply (by decide)
    simp [isUsed, idle]

theorem HasLog.push {state state' : δ} {block : Nat} {log : List Buffer} {src : Buffer}
    (has : HasLog chip state block log) (hashed : ∀ data, HASH_SIZE ≤ (chip.sha1 data).length)
    (inStore : block < CONFIG_BLOCK_NUM) (room : log.length < CONFIG_PAGE_NUM)
    (dollar : src 0 = 0x24)
    (image : ∀ j < PAGE_SIZE + 64,
      chip.pageRd state' (pageAt block log.length * 2) j = pageImage chip src j)
    (same : ∀ i < CONFIG_PAGE_NUM, i ≠ log.length →
      chip.pageRd state' (pageAt block i * 2) = chip.pageRd state (pageAt block i * 2)) :
    HasLog chip state' block (log ++ [pageArray chip src]) where
  fits := by rw [List.length_append]; exact room
  reads i page held := by
    obtain before | after := lt_or_ge i log.length
    · rw [List.getElem?_append_left before] at held
      rw [cfgNandRead_congr (same i (by omega) (by omega))]
      exact has.reads i page held
    · rw [List.getElem?_append_right after, List.getElem?_singleton] at held
      split at held
      · have here : i = log.length := by omega
        cases held
        rw [here]
        exact cfgNandRead_image hashed inStore room image
      · cases held
  idle i outside inBlock j below := by
    rw [List.length_append, List.length_singleton] at outside
    rw [same i inBlock (by omega)]
    exact has.idle i (by omega) inBlock j below
  marked page member := by
    obtain old | new := List.mem_append.mp member
    · exact has.marked page old
    · rw [List.mem_singleton.mp new, pageArray_apply (by decide), dollar]

theorem HasLog.erased {state : δ} {block : Nat}
    (idle : ∀ i < CONFIG_PAGE_NUM, ∀ j < PAGE_SIZE + 64,
      chip.pageRd state (pageAt block i * 2) j = 0xFF) : HasLog chip state block [] where
  fits := Nat.zero_le _
  reads i page held := by cases held
  idle i _ inBlock := idle i inBlock
  marked _ member := by cases member

/-! ## Chips -/

/-- A chip whose good blocks work. In the others the programs and the erases may do anything to
their own page and their own block. -/
structure GoodChip (chip : Chip δ) (good : Nat → Bool) : Prop where
  hashed : ∀ data, HASH_SIZE ≤ (chip.sha1 data).length
  framed : chip.PageFramed
  prg : ∀ state block i src, block < CONFIG_BLOCK_NUM → good block = true → i < CONFIG_PAGE_NUM →
    (∀ j < PAGE_SIZE + 64, chip.pageRd state (pageAt block i * 2) j = 0xFF) →
    ∀ j < PAGE_SIZE + 64,
      chip.pageRd (chip.pagePrg state (pageAt block i * 2) src (PAGE_SIZE + 64))
        (pageAt block i * 2) j = src j
  erase : ∀ state block i, block < CONFIG_BLOCK_NUM → good block = true → i < CONFIG_PAGE_NUM →
    ∀ j < PAGE_SIZE + 64,
      chip.pageRd (chip.blkErase state (1 + block)) (pageAt block i * 2) j = 0xFF

theorem GoodChip.prg_other {good : Nat → Bool} (works : GoodChip chip good) {state : δ}
    {block other i len : Nat} {src : Buffer} {log : List Buffer}
    (has : HasLog chip state other log) (inBlock : i < CONFIG_PAGE_NUM) (differ : other ≠ block) :
    HasLog chip (chip.pagePrg state (pageAt block i * 2) src len) other log := by
  refine has.congr fun j inOther => works.framed.prg _ _ _ _ _ ?_
  have first := inBlock
  have second := inOther
  simp only [CONFIG_PAGE_NUM, BLOCK_SIZE, PAGE_SIZE] at first second
  rw [pageNo_pageAt, pageNo_pageAt]
  omega

theorem GoodChip.prg_log {good : Nat → Bool} (works : GoodChip chip good) {state : δ}
    {block : Nat} {src : Buffer} {log : List Buffer} (has : HasLog chip state block log)
    (inStore : block < CONFIG_BLOCK_NUM) (isGood : good block = true)
    (room : log.length < CONFIG_PAGE_NUM) (dollar : src 0 = 0x24) :
    HasLog chip (chip.pagePrg state (pageAt block log.length * 2) (pageImage chip src)
      (PAGE_SIZE + 64)) block (log ++ [pageArray chip src]) := by
  refine has.push works.hashed inStore room dollar ?_ ?_
  · exact works.prg _ _ _ _ inStore isGood room (has.idle _ le_rfl room)
  · intro i inBlock other
    refine works.framed.prg _ _ _ _ _ ?_
    rw [pageNo_pageAt, pageNo_pageAt]
    omega

theorem GoodChip.erase_other {good : Nat → Bool} (works : GoodChip chip good) {state : δ}
    {block other : Nat} {log : List Buffer} (has : HasLog chip state other log)
    (differ : other ≠ block) : HasLog chip (chip.blkErase state (1 + block)) other log := by
  refine has.congr fun i inBlock => works.framed.erase _ _ _ ?_
  rw [blockOfPage_pageAt inBlock]
  omega

end PosFirmware.Config
