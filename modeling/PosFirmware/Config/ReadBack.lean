import PosFirmware.Config.Call
import PosFirmware.Foundation.Run

/-!
# The store reads back what was written

A call leaves the store with the new record of its keyword and with the old ones of the others
(`Wrote.holds`), whatever the programs of one bad block do. With pages that need no correction
this holds along every run (`store_readsBack`). A page that is read with a correction counts as
one that cannot be read, so that two of them are enough to lose a keyword
(`corrected_notRead`).
-/

namespace PosFirmware.Config

open PosFirmware.Flash PosFirmware.Foundation

variable {δ : Type} {chip : Chip δ} {good : Nat → Bool} {start logs : Nat → List Buffer}
  {state : δ} {ops : List Op} {held : Nat → Option Buffer}

/-! ## Logs after a call -/

theorem decides_same (few : (bads good blocks).length ≤ 1) {id : Nat} {out : Option Buffer}
    (same : ∀ b < CONFIG_BLOCK_NUM, good b = true → newest (logs b) id = out) :
    LogsDecide good logs id out := by
  cases out with
  | none => exact decides_none few same
  | some record =>
    have three : blocks = [0, 1, 2] := rfl
    have two : ∃ b b', b < b' ∧ b' < CONFIG_BLOCK_NUM ∧ good b = true ∧ good b' = true := by
      rw [three] at few
      cases zero : good 0 <;> cases one : good 1 <;> cases two : good 2 <;>
        simp [zero, one, two] at few
      · exact ⟨1, 2, by decide, by decide, one, two⟩
      · exact ⟨0, 2, by decide, by decide, zero, two⟩
      · exact ⟨0, 1, by decide, by decide, zero, one⟩
      · exact ⟨0, 1, by decide, by decide, zero, one⟩
    obtain ⟨b, b', order, inStore, first, second⟩ := two
    intro copy reads
    refine decided_pair order inStore ?_ ?_
    · rw [reads b (order.trans inStore) first, same b (order.trans inStore) first]
    · rw [reads b' inStore second, same b' inStore second]

theorem newest_written_own {page : Buffer} {id : Nat} (record : isRecord id page = true)
    {done : List Nat} {b : Nat} (member : b ∈ done) :
    newest (replay logs (done.map (.written · page)) b) id = some page := by
  induction done generalizing logs with
  | nil => cases member
  | cons block rest past =>
    rw [List.map_cons, replay_cons]
    by_cases later : b ∈ rest
    · exact past later
    · have here : b = block := (List.mem_cons.mp member).resolve_right later
      subst here
      rw [replay_other, Op.apply, Function.update_self]
      · exact newest_append_own record
      · intro op inRest
        obtain ⟨other, listed, rfl⟩ := List.mem_map.mp inRest
        exact fun same => later (same ▸ listed)

theorem replay_written_once {page : Buffer} {done : List Nat} (distinct : done.Nodup) {b : Nat}
    (member : b ∈ done) : replay logs (done.map (.written · page)) b = logs b ++ [page] := by
  induction done generalizing logs with
  | nil => cases member
  | cons block rest past =>
    obtain ⟨fresh, others⟩ := List.nodup_cons.mp distinct
    rw [List.map_cons, replay_cons]
    obtain rfl | later := List.mem_cons.mp member
    · rw [replay_other, Op.apply, Function.update_self]
      intro op inRest
      obtain ⟨other, listed, rfl⟩ := List.mem_map.mp inRest
      exact fun same => fresh (same ▸ listed)
    · rw [past others later, apply_other fun same => fresh ?_]
      exact (show block = b from same) ▸ later

theorem rewriteOps_block {pages : List Buffer} {block : Nat} {op : Op}
    (member : op ∈ rewriteOps pages block) : op.block = block := by
  obtain rfl | inRest := List.mem_cons.mp member
  · rfl
  · obtain ⟨page, -, rfl⟩ := List.mem_map.mp inRest
    rfl

theorem replay_rewriteOps {pages : List Buffer} {block : Nat} :
    replay logs (rewriteOps pages block) block = pages := by
  rw [rewriteOps, replay_cons, replay_written, Op.apply, Function.update_self, List.nil_append]

theorem replay_rewritten {pages : List Buffer} {done : List Nat} {b : Nat} (member : b ∈ done) :
    replay logs (done.flatMap (rewriteOps pages)) b = pages := by
  induction done generalizing logs with
  | nil => cases member
  | cons block rest past =>
    rw [List.flatMap_cons, replay_append]
    by_cases later : b ∈ rest
    · exact past later
    · have here : b = block := (List.mem_cons.mp member).resolve_right later
      subst here
      rw [replay_other, replay_rewriteOps]
      intro op inRest
      obtain ⟨other, listed, inOps⟩ := List.mem_flatMap.mp inRest
      rw [rewriteOps_block inOps]
      exact fun same => later (same ▸ listed)

theorem newest_unique {log : List Buffer} {id : Nat} {out : Option Buffer}
    (only : ∀ page ∈ log, isRecord id page = true → out = some page)
    (present : ∀ page, out = some page → page ∈ log ∧ isRecord id page = true) :
    newest log id = out := by
  cases here : newest log id with
  | some page =>
    obtain ⟨record, member⟩ := newest_isRecord here
    exact (only page member record).symm
  | none =>
    cases out with
    | none => rfl
    | some page =>
      obtain ⟨member, record⟩ := present page rfl
      exact absurd record (List.find?_eq_none.mp here page (List.mem_reverse.mpr member))

theorem newest_kept (holds : Holds chip good start held) {index id : Nat} (inTable : id < keyNum) :
    newest (kept held index) id = if id = index then none else held id := by
  have sorted : ∀ page ∈ kept held index, ∃ i < keyNum, i ≠ index ∧ held i = some page := by
    intro page member
    obtain ⟨i, -, here⟩ := List.mem_filterMap.mp member
    split at here
    · cases here
    · next other =>
      refine ⟨i, ?_, other, here⟩
      by_contra outside
      rw [holds.outside i (not_lt.mp outside)] at here
      cases here
  refine newest_unique ?_ ?_
  · intro page member record
    obtain ⟨i, known, other, here⟩ := sorted page member
    have same := isRecord_unique inTable known record (holds.record i page here).1
    rw [same, if_neg other, here]
  · intro page here
    split at here
    · cases here
    · next other =>
      refine ⟨List.mem_filterMap.mpr ⟨id, List.mem_range.mpr (inTable.trans (by decide)), ?_⟩,
        (holds.record id page here).1⟩
      rw [if_neg other, here]

/-! ## A call -/

theorem Holds.update (holds : Holds chip good start held) {index : Nat} {page : Buffer}
    (inTable : index < keyNum) (record : isRecord index page = true)
    (array : pageArray chip page = page)
    (decides : ∀ id < keyNum, LogsDecide good logs id (Function.update held index (some page) id)) :
    Holds chip good logs (Function.update held index (some page)) where
  outside id above := by
    rw [Function.update_of_ne (by omega)]
    exact holds.outside id above
  decides := decides
  record id other here := by
    by_cases same : id = index
    · subst same
      rw [Function.update_self] at here
      cases here
      exact ⟨record, array⟩
    · rw [Function.update_of_ne same] at here
      exact holds.record id other here

/-- **What the store holds after a call**: the old records, or the new one of the keyword. -/
theorem Wrote.holds (few : (bads good blocks).length ≤ 1) (holds : Holds chip good start held)
    {index : Nat} {context : List Byte} {ret : Int}
    (wrote : Wrote chip good held index context ret ops) :
    ∃ held', Holds chip good (replay start ops) held' ∧ (ret ≠ 0 ∧ held' = held ∨
      ret = 0 ∧ ∃ page, held' = Function.update held index (some page) ∧
        recordContent page = context) := by
  cases wrote with
  | @same record here content =>
    refine ⟨held, holds, .inr ⟨rfl, record, ?_, content⟩⟩
    rw [← here, Function.update_eq_self]
  | refused cleared failed _ =>
    refine ⟨held, ?_, .inl ⟨failed, rfl⟩⟩
    obtain ⟨rfl, -⟩ | ⟨rfl, nothing⟩ := cleared
    · exact holds
    · refine ⟨holds.outside, fun id _ => ?_, holds.record⟩
      rw [nothing id]
      refine decides_none few fun b inStore isGood => ?_
      rw [replay_erased (mem_goods inStore isGood)]
      rfl
  | @appended first cleared inTable fits =>
    have own : isRecord index (pageArray chip (recordIn chip.stackBuf index context)) = true :=
      recordIn_isRecord inTable fits
    refine ⟨_, holds.update inTable own (pageArray_idem _) fun id known => ?_,
      .inr ⟨rfl, _, rfl, recordIn_recordContent fits⟩⟩
    by_cases same : id = index
    · subst same
      rw [Function.update_self]
      refine decides_same few fun b inStore isGood => ?_
      rw [replay_append]
      exact newest_written_own own (mem_goods inStore isGood)
    · rw [Function.update_of_ne same]
      refine cleared.decides few holds known ?_ _
      by_contra also
      exact same (isRecord_unique known inTable (Bool.eq_true_of_not_eq_false also) own)
  | @rewritten first done cleared inTable fits some =>
    have own : isRecord index (pageArray chip (recordIn zeros index context)) = true :=
      recordIn_isRecord inTable fits
    refine ⟨_, holds.update inTable own (pageArray_idem _) fun id known => ?_,
      .inr ⟨rfl, _, rfl, recordIn_recordContent fits⟩⟩
    refine decides_same few fun b inStore isGood => ?_
    rw [replay_append, replay_rewritten (mem_goods inStore isGood)]
    by_cases same : id = index
    · subst same
      rw [Function.update_self]
      exact newest_append_own own
    · have other : isRecord id (pageArray chip (recordIn zeros index context)) = false := by
        by_contra also
        exact same (isRecord_unique known inTable (Bool.eq_true_of_not_eq_false also) own)
      rw [Function.update_of_ne same, newest_append_other other, newest_kept holds known,
        if_neg same]

/-! ## Runs -/

/-- A store whose good blocks are logs that hold these contents. -/
def Stored (chip : Chip δ) (good : Nat → Bool) (state : δ) (last : Nat → Option (List Byte)) : Prop :=
  ∃ logs held, (∀ b < CONFIG_BLOCK_NUM, good b = true → HasLog chip state b (logs b)) ∧
    Holds chip good logs held ∧ ∀ id, last id = (held id).map recordContent

theorem GoodChip.tracks (works : GoodChip chip good) (start : Nat → List Buffer) :
    Tracks chip good start fun state ops => ∀ b < CONFIG_BLOCK_NUM, good b = true →
      HasLog chip state b (replay start ops b) where
  hasLog has inStore isGood := has _ inStore isGood
  written {state ops block src} has inStore isGood room dollar b inStore' isGood' := by
    by_cases same : b = block
    · subst same
      rw [replay_snoc_written]
      exact works.prg_log (has b inStore isGood) inStore isGood room dollar
    · rw [@replay_snoc_other _ _ (.written block _) _ (Ne.symm same)]
      exact works.prg_other (has b inStore' isGood') room same
  writtenBad has _ isBad inBlock b inStore isGood := by
    refine works.prg_other (has b inStore isGood) inBlock fun same => ?_
    rw [same, isBad] at isGood
    cases isGood
  erased {state ops block} has inStore isGood b inStore' isGood' := by
    by_cases same : b = block
    · subst same
      rw [replay_append, replay_cons, Op.apply, replay_nil, Function.update_self]
      exact HasLog.erased fun i inBlock => works.erase _ _ _ inStore isGood inBlock
    · rw [@replay_snoc_other _ _ (.erased block) _ (Ne.symm same)]
      exact works.erase_other (has b inStore' isGood') same
  erasedBad has _ isBad b inStore isGood := by
    refine works.erase_other (has b inStore isGood) fun same => ?_
    rw [same, isBad] at isGood
    cases isGood

/-- What happens to the store. -/
inductive Event (δ : Type) where
  /-- `WriteTerminalInfo` is called. -/
  | write (index : Nat) (context : List Byte)
  /-- Bits flip. -/
  | flip (state : δ)

/-- The chip, and what was written to each keyword last, after an event. -/
def step (chip : Chip δ) (now : δ × (Nat → Option (List Byte))) :
    Event δ → δ × (Nat → Option (List Byte))
  | .write index context =>
    let written := writeTerminalInfo chip now.1 index context
    (written.2, if written.1 = 0 then Function.update now.2 index (some context) else now.2)
  | .flip state => (state, now.2)

/-- The bits that flip are those that `ecc_correct` can repair: in good blocks, erased pages stay
erased and pages still yield their data. -/
def Repairable (chip : Chip δ) (good : Nat → Bool) (state state' : δ) : Prop :=
  ∀ b < CONFIG_BLOCK_NUM, good b = true → ∀ i < CONFIG_PAGE_NUM,
    ((∀ j < PAGE_SIZE + 64, chip.pageRd state (pageAt b i * 2) j = 0xFF) →
      ∀ j < PAGE_SIZE + 64, chip.pageRd state' (pageAt b i * 2) j = 0xFF) ∧
    ∀ ret data, cfgNandRead chip state (pageAt b i) = (ret, some data) → 0 ≤ ret →
      ∃ ret', 0 ≤ ret' ∧ cfgNandRead chip state' (pageAt b i) = (ret', some data)

/-- No page of a good block needs a correction. -/
def NothingCorrected (chip : Chip δ) (good : Nat → Bool) (state : δ) : Prop :=
  ∀ b < CONFIG_BLOCK_NUM, good b = true → ∀ i < CONFIG_PAGE_NUM,
    (cfgNandRead chip state (pageAt b i)).1 ≤ 0

/-- The events of the runs: flips that can be repaired, and that leave nothing to correct. -/
def Quiet (chip : Chip δ) (good : Nat → Bool) (now : δ × (Nat → Option (List Byte))) :
    Event δ → Prop
  | .write _ _ => True
  | .flip state => Repairable chip good now.1 state ∧ NothingCorrected chip good state

theorem HasLog.flip {state' : δ} {b : Nat} {log : List Buffer} (has : HasLog chip state b log)
    (repairable : Repairable chip good state state') (clean : NothingCorrected chip good state')
    (inStore : b < CONFIG_BLOCK_NUM) (isGood : good b = true) : HasLog chip state' b log where
  fits := has.fits
  reads i page here := by
    have inBlock : i < CONFIG_PAGE_NUM :=
      (List.getElem?_eq_some_iff.mp here).1.trans_le has.fits
    obtain ⟨ret, nonneg, read⟩ :=
      (repairable b inStore isGood i inBlock).2 0 page (has.reads i page here) le_rfl
    have low := clean b inStore isGood i inBlock
    rw [read] at low ⊢
    have zero : ret = 0 := le_antisymm low nonneg
    rw [zero]
  idle i outside inBlock :=
    (repairable b inStore isGood i inBlock).1 (has.idle i outside inBlock)
  marked := has.marked

theorem Stored.step (works : GoodChip chip good) (few : (bads good blocks).length ≤ 1)
    (now : δ × (Nat → Option (List Byte))) (event : Event δ)
    (stored : Stored chip good now.1 now.2) (quiet : Quiet chip good now event) :
    Stored chip good (step chip now event).1 (step chip now event).2 := by
  obtain ⟨logs, held, has, holds, contents⟩ := stored
  cases event with
  | write index context =>
    obtain ⟨ops, has', wrote⟩ := (works.tracks logs).writeTerminalInfo few holds has index context
    obtain ⟨held', holds', outcome⟩ := wrote.holds few holds
    unfold Config.step
    dsimp only
    generalize writeTerminalInfo chip now.1 index context = written at has' outcome ⊢
    refine ⟨replay logs ops, held', has', holds', fun id => ?_⟩
    obtain ⟨failed, rfl⟩ | ⟨ok, page, rfl, content⟩ := outcome
    · rw [if_neg failed]
      exact contents id
    · rw [if_pos ok]
      by_cases same : id = index
      · rw [same, Function.update_self, Function.update_self, Option.map_some, content]
      · rw [Function.update_of_ne same, Function.update_of_ne same]
        exact contents id
  | flip state =>
    exact ⟨logs, held, fun b inStore isGood =>
      (has b inStore isGood).flip quiet.1 quiet.2 inStore isGood, holds, contents⟩

theorem Stored.read {last : Nat → Option (List Byte)} (stored : Stored chip good state last)
    {id len : Nat} (inTable : id < keyNum) (asked : 0 < len) :
    (readTerminalInfo chip state id len).toOption = (last id).map (·.take len) := by
  obtain ⟨logs, held, has, holds, contents⟩ := stored
  have decided := holds.decides id inTable _ fun b inStore isGood =>
    (has b inStore isGood).copyOf_eq inStore inTable
  rw [readTerminalInfo_decided inTable asked decided, contents id, Option.map_map]
  rfl

theorem stored_erased (few : (bads good blocks).length ≤ 1)
    (erased : ∀ b < CONFIG_BLOCK_NUM, good b = true → HasLog chip state b []) :
    Stored chip good state fun _ => none := by
  refine ⟨fun _ => [], fun _ => none, erased, ⟨fun _ _ => rfl, fun id _ => ?_, fun _ _ => ?_⟩,
    fun _ => rfl⟩
  · exact decides_none few fun _ _ _ => rfl
  · intro here
    cases here

/-- **What was written is read back**, cut to the length asked for, after every run of calls and
of flips that leave nothing to correct, when at most one block is bad. -/
theorem store_readsBack (works : GoodChip chip good) (few : (bads good blocks).length ≤ 1)
    (erased : ∀ b < CONFIG_BLOCK_NUM, good b = true → HasLog chip state b [])
    {events : List (Event δ)}
    (quiet : Meets (step chip) (Quiet chip good) (state, fun _ => none) events) {id len : Nat}
    (inTable : id < keyNum) (asked : 0 < len) :
    (readTerminalInfo chip (runEvents (step chip) (state, fun _ => none) events).1 id
      len).toOption =
        ((runEvents (step chip) (state, fun _ => none) events).2 id).map (·.take len) := by
  have stored : Stored chip good (runEvents (step chip) (state, fun _ => none) events).1
      (runEvents (step chip) (state, fun _ => none) events).2 :=
    @runEvents_keeps _ _ _ _ (fun now => Stored chip good now.1 now.2)
      (fun now event => Stored.step works few now event) _ (stored_erased few erased) _ quiet
  exact stored.read inTable asked

/-! ## A page that is corrected -/

/-- The fault-free chip with a given hash. -/
def hashedChip (hash : List Byte → List Byte) : Chip Pages :=
  { faultFree fun _ => false with sha1 := hash }

theorem hashedChip_pageRd (hash : List Byte → List Byte) (pages : Pages) (pageAddr : Nat) :
    (hashedChip hash).pageRd pages pageAddr = pages (pageNo pageAddr) := rfl

theorem hashedChip_good {hash : List Byte → List Byte}
    (long : ∀ data, HASH_SIZE ≤ (hash data).length) (good : Nat → Bool) :
    GoodChip (hashedChip hash) good where
  hashed := long
  framed := by
    constructor
    · intro pages block pageAddr away
      rw [blockOfPage_eq] at away
      exact if_neg away
    · intro pages pageAddr src len other away
      exact Function.update_of_ne away _ _
  prg pages block i src _ _ _ idle j below := by
    have here : (hashedChip hash).pagePrg pages (pageAt block i * 2) src (PAGE_SIZE + 64) =
        pages.program (pageNo (pageAt block i * 2)) src (PAGE_SIZE + 64) := rfl
    have ones : (0xFF : Byte) &&& src j = src j := BitVec.allOnes_and
    rw [here, hashedChip_pageRd, Pages.program, Function.update_self, if_pos below]
    exact (congrArg (· &&& src j) (idle j below)).trans ones
  erase pages block i _ _ inBlock j _ := by
    have here : (hashedChip hash).blkErase pages (1 + block) = pages.erase (1 + block) := rfl
    rw [here, hashedChip_pageRd, Pages.erase, if_pos]
    · rfl
    · rw [← blockOfPage_eq, blockOfPage_pageAt inBlock]

theorem blank_hasLog {hash : List Byte → List Byte} (b : Nat) :
    HasLog (hashedChip hash) blank b [] :=
  HasLog.erased fun _ _ _ _ => rfl

/-- What is written to a new chip is read back. -/
theorem store_readsBack_new :
    (readTerminalInfo (hashedChip sha1) (runEvents (step (hashedChip sha1))
        (blank, fun _ => none) [.write 0 [1]]).1 0 16).toOption =
      ((runEvents (step (hashedChip sha1)) (blank, fun _ => none) [.write 0 [1]]).2 0).map
        (·.take 16) := by
  have works : GoodChip (hashedChip sha1) fun b => b != 2 :=
    hashedChip_good (fun data => by rw [sha1_length]; decide) _
  have quiet : Meets (step (hashedChip sha1)) (Quiet (hashedChip sha1) fun b => b != 2)
      (blank, fun _ => none) [.write 0 [1]] := And.intro trivial trivial
  exact store_readsBack works (by decide) (fun b _ _ => blank_hasLog b) quiet (by decide)
    (by decide)

/-- The record of the first keyword with the content `1`. -/
def recordOne : Buffer := recordIn zeros 0 [1]

/-- The SHA-1 of the page with this record, and of the page with one bit of byte 100 flipped. -/
def sha1OfRecord (data : List Byte) : List Byte :=
  if data = bytesOf recordOne PAGE_SIZE then
    [0x58, 0x59, 0x4e, 0x23, 0x76, 0xe3, 0x5a, 0x2a, 0xd6, 0x87,
      0x6b, 0xa4, 0x02, 0x8b, 0x1b, 0x47, 0x25, 0xb2, 0x51, 0xfc]
  else
    [0x34, 0x13, 0xaf, 0x55, 0x59, 0xf6, 0x1b, 0x8b, 0x97, 0x40,
      0x3a, 0xa6, 0x8d, 0x8f, 0x96, 0xc1, 0xa5, 0xac, 0xd8, 0xe0]

theorem sha1OfRecord_long (data : List Byte) : HASH_SIZE ≤ (sha1OfRecord data).length := by
  unfold sha1OfRecord
  split <;> decide

/-- One bit of byte 100 flipped. -/
def flipByte (page : Buffer) : Buffer := fun i => if i = 100 then page i ^^^ 1 else page i

/-- The first pages of the first two blocks have this bit flipped. -/
def flipTwo (pages : Pages) : Pages := fun page =>
  if page = 64 ∨ page = 128 then flipByte (pages page) else pages page

theorem byteAt_withEcc (chip : Chip δ) (src : Buffer) {offset : Nat}
    (below : offset < PAGE_SIZE + 32) :
    byteAt (withEcc (wordsOf src)) offset = pageImage chip src offset := by
  have notHash : ¬ PAGE_SIZE + 32 ≤ offset := by omega
  rw [pageImage_apply, if_neg (by omega), if_neg (by omega)]
  by_cases inData : offset < PAGE_SIZE
  · rw [if_neg (by omega), ← byteAt_wordsOf src offset, byteAt, byteAt, withEcc, if_pos]
    simp only [PAGE_SIZE] at inData ⊢
    omega
  · rw [if_pos (by omega), byteAt, byteAt, withEcc, if_neg]
    · simp only [PAGE_SIZE] at inData ⊢
      have word : offset / 4 - 2048 / 4 = (offset - 2048) / 4 := by omega
      have within : offset % 4 = (offset - 2048) % 4 := by omega
      rw [word, within]
    · simp only [PAGE_SIZE] at inData ⊢
      omega

theorem flipByte_getLsbD (raw : Buffer) {bit byte place : Nat} (inByte : place < 8)
    (whole : byte * 8 + place = bit) :
    (flipByte raw byte).getLsbD place = ((raw byte).getLsbD place ^^ decide (bit = 800)) := by
  rw [flipByte]
  split
  · next here =>
    subst here
    generalize raw 100 = b
    have bits : ∀ p < 8, (b ^^^ 1).getLsbD p = (b.getLsbD p ^^ decide (p = 0)) := by
      revert b
      decide
    rw [bits place inByte]
    exact congrArg _ (decide_eq_decide.mpr (by omega))
  · next away =>
    have other : bit ≠ 800 := by omega
    rw [decide_eq_false other, Bool.xor_false]

theorem eccCorrect_flipped {src raw : Buffer}
    (record : bytesOf src PAGE_SIZE = bytesOf recordOne PAGE_SIZE)
    (image : ∀ j < PAGE_SIZE + 64, raw j = pageImage (hashedChip sha1OfRecord) src j) :
    0 < (eccCorrect sha1OfRecord (wordsOf (flipByte raw))).1 ∧
      ∃ out, (eccCorrect sha1OfRecord (wordsOf (flipByte raw))).2 = some out ∧
        pageBytes out = bytesOf recordOne PAGE_SIZE := by
  have bytes : pageBytes (wordsOf src) = bytesOf recordOne PAGE_SIZE := by
    rw [← record]
    exact List.map_congr_left fun i _ => byteAt_wordsOf src i
  have damaged : Damaged (wordsOf src) (wordsOf (flipByte raw)) {800} := by
    refine ⟨by rw [Finset.card_singleton]; decide, fun bit below => ?_⟩
    have inByte : bit % 8 < 8 := Nat.mod_lt _ (by decide)
    have inside : bit / 8 < PAGE_SIZE + 32 := by
      simp only [ECC_BITS, PAGE_BITS, MATRIX_NUM, PAGE_SIZE] at below ⊢
      omega
    have place := byteAt_getLsbD (wordsOf (flipByte raw)) (bit / 8) (bit % 8) inByte
    have place' := byteAt_getLsbD (withEcc (wordsOf src)) (bit / 8) (bit % 8) inByte
    have whole : bit / 8 * 8 + bit % 8 = bit := by omega
    rw [byteAt_wordsOf, whole] at place
    rw [byteAt_withEcc (hashedChip sha1OfRecord) src inside, whole,
      ← image _ (by omega)] at place'
    rw [← place, ← place', flipByte_getLsbD raw inByte whole]
    exact congrArg _ (decide_eq_decide.mpr Finset.mem_singleton.symm)
  have intact : HashIntact sha1OfRecord (wordsOf src) (wordsOf (flipByte raw)) := by
    refine @image_hashIntact _ (hashedChip sha1OfRecord) sha1OfRecord_long _ src _
      (bytes.trans record.symm) fun i low high => ?_
    rw [flipByte, if_neg (by simp only [PAGE_SIZE] at low; omega)]
    exact image i (by omega)
  have noCollision : NoCollision sha1OfRecord (wordsOf src) (wordsOf (flipByte raw)) := by
    intro tried _ same
    rw [bytes] at same
    refine SamePage.of_pageBytes (Eq.trans ?_ bytes.symm)
    by_contra other
    rw [sha1OfRecord, sha1OfRecord, if_neg other, if_pos rfl] at same
    exact absurd same (by decide)
  have misread : ¬ SamePage (wordsOf (flipByte raw)) (wordsOf src) := by
    intro same
    have byte := congrArg (fun bytes => bytes[100]?) same.pageBytes_eq
    have inPage : 100 < PAGE_SIZE := by decide
    simp only [pageBytes, List.getElem?_map, List.getElem?_range inPage, Option.map_some,
      byteAt_wordsOf, Option.some.injEq] at byte
    rw [flipByte, if_pos rfl, image_data image 100 inPage] at byte
    generalize src 100 = b at byte
    revert b
    decide
  obtain ⟨tried, member, same⟩ := damaged.tried
  obtain ⟨-, out, delivered, outSame⟩ := eccCorrect_of_tried intact noCollision member same
  exact ⟨eccCorrect_pos damaged intact noCollision misread, out, delivered,
    outSame.pageBytes_eq.trans bytes⟩

/-- The pages of the logs hold the images of what was programmed. -/
def Images (chip : Chip δ) (state : δ) (logs : Nat → List Buffer) : Prop :=
  ∀ b < CONFIG_BLOCK_NUM, ∀ i page, (logs b)[i]? = some page → ∃ src, pageArray chip src = page ∧
    ∀ j < PAGE_SIZE + 64, chip.pageRd state (pageAt b i * 2) j = pageImage chip src j

theorem GoodChip.tracksImages (works : GoodChip chip fun _ => true)
    (start : Nat → List Buffer) : Tracks chip (fun _ => true) start fun state ops =>
      (∀ b < CONFIG_BLOCK_NUM, true = true → HasLog chip state b (replay start ops b)) ∧
        Images chip state (replay start ops) where
  hasLog tracked := (works.tracks start).hasLog tracked.1
  written {state ops block src} tracked inStore isGood room dollar := by
    refine ⟨(works.tracks start).written tracked.1 inStore isGood room dollar, ?_⟩
    have idle := (tracked.1 block inStore rfl).idle _ le_rfl room
    generalize size : (replay start ops block).length = n at room idle ⊢
    intro b inStore' i page here
    by_cases last : b = block ∧ i = n
    · obtain ⟨rfl, rfl⟩ := last
      rw [replay_snoc_written, ← size, List.getElem?_concat_length] at here
      cases here
      exact ⟨src, rfl, works.prg _ _ _ _ inStore rfl room idle⟩
    · have old : (replay start ops b)[i]? = some page := by
        by_cases same : b = block
        · subst same
          have other : i ≠ n := fun here => last ⟨rfl, here⟩
          rw [replay_snoc_written] at here
          obtain before | after := lt_or_ge i n
          · rwa [List.getElem?_append_left (by omega)] at here
          · rw [List.getElem?_append_right (by omega),
              List.getElem?_eq_none (by rw [List.length_singleton]; omega)] at here
            cases here
        · rwa [@replay_snoc_other _ _ (.written block _) _ (Ne.symm same)] at here
      obtain ⟨src', rfl, image⟩ := tracked.2 b inStore' i page old
      have inBlock : i < CONFIG_PAGE_NUM :=
        (List.getElem?_eq_some_iff.mp old).1.trans_le (tracked.1 b inStore' rfl).fits
      refine ⟨src', rfl, fun j below => ?_⟩
      rw [works.framed.prg]
      · exact image j below
      · simp only [CONFIG_PAGE_NUM, BLOCK_SIZE, PAGE_SIZE] at room inBlock
        rw [pageNo_pageAt, pageNo_pageAt]
        omega
  writtenBad _ _ isBad := Bool.noConfusion isBad
  erased {state ops block} tracked inStore isGood := by
    refine ⟨(works.tracks start).erased tracked.1 inStore isGood, ?_⟩
    intro b inStore' i page here
    by_cases same : b = block
    · subst same
      rw [replay_append, replay_cons, Op.apply, replay_nil, Function.update_self] at here
      cases here
    · rw [@replay_snoc_other _ _ (.erased block) _ (Ne.symm same)] at here
      obtain ⟨src, rfl, image⟩ := tracked.2 b inStore' i page here
      have inBlock : i < CONFIG_PAGE_NUM :=
        (List.getElem?_eq_some_iff.mp here).1.trans_le (tracked.1 b inStore' rfl).fits
      refine ⟨src, rfl, fun j below => ?_⟩
      rw [works.framed.erase]
      · exact image j below
      · rw [blockOfPage_pageAt inBlock]
        omega
  erasedBad _ _ isBad := Bool.noConfusion isBad

/-- The first page of a block holds the record, and its other pages are erased. -/
def HasOne (state : Pages) (b : Nat) : Prop :=
  (∃ src, bytesOf src PAGE_SIZE = bytesOf recordOne PAGE_SIZE ∧ ∀ j < PAGE_SIZE + 64,
    state (pageNo (pageAt b 0 * 2)) j = pageImage (hashedChip sha1OfRecord) src j) ∧
  ∀ i < CONFIG_PAGE_NUM, i ≠ 0 → ∀ j < PAGE_SIZE + 64,
    state (pageNo (pageAt b i * 2)) j = 0xFF

theorem hasOne_of_log {state : Pages} {logs : Nat → List Buffer} {b : Nat}
    (has : HasLog (hashedChip sha1OfRecord) state b (logs b))
    (images : Images (hashedChip sha1OfRecord) state logs) (inStore : b < CONFIG_BLOCK_NUM)
    (alone : logs b = [pageArray (hashedChip sha1OfRecord) recordOne]) : HasOne state b := by
  have first : (logs b)[0]? = some (pageArray (hashedChip sha1OfRecord) recordOne) := by
    rw [alone]
    rfl
  obtain ⟨src, same, image⟩ := images b inStore 0 _ first
  refine ⟨⟨src, ?_, image⟩, fun i inBlock other => has.idle i ?_ inBlock⟩
  · refine List.map_congr_left fun i member => ?_
    have below := List.mem_range.mp member
    have byte := congrFun same i
    rwa [pageArray_apply below, pageArray_apply below] at byte
  · rw [alone, List.length_singleton]
    exact Nat.one_le_iff_ne_zero.mpr other

theorem writeOne : (writeTerminalInfo (hashedChip sha1OfRecord) blank 0 [1]).1 = 0 ∧
    ∀ b < CONFIG_BLOCK_NUM,
      HasOne (writeTerminalInfo (hashedChip sha1OfRecord) blank 0 [1]).2 b := by
  have works : GoodChip (hashedChip sha1OfRecord) fun _ => true :=
    hashedChip_good sha1OfRecord_long _
  have few : (bads (fun _ => true) blocks).length ≤ 1 := by decide
  have holds : Holds (hashedChip sha1OfRecord) (fun _ => true) (fun _ => []) fun _ => none := by
    refine ⟨fun _ _ => rfl, fun id _ => decides_none few fun _ _ _ => rfl, fun _ _ here => ?_⟩
    cases here
  have start : (∀ b < CONFIG_BLOCK_NUM, true = true →
      HasLog (hashedChip sha1OfRecord) blank b (replay (fun _ => []) [] b)) ∧
        Images (hashedChip sha1OfRecord) blank (replay (fun _ => []) []) :=
    ⟨fun b _ _ => blank_hasLog b, fun _ _ _ _ here => by cases here⟩
  obtain ⟨ops, ⟨has, images⟩, wrote⟩ :=
    (works.tracksImages fun _ => []).writeTerminalInfo few holds start 0 [1]
  generalize writeTerminalInfo (hashedChip sha1OfRecord) blank 0 [1] = written
    at has images wrote ⊢
  obtain ⟨ret, state⟩ := written
  have stack : (hashedChip sha1OfRecord).stackBuf = zeros := rfl
  have erased : ∀ first, Cleared (fun _ => true) (fun _ => none) first →
      ∀ b < CONFIG_BLOCK_NUM, replay (fun _ => []) first b = [] := by
    intro first cleared b inStore
    obtain ⟨rfl, id, here⟩ | ⟨rfl, -⟩ := cleared
    · exact absurd rfl here
    · exact replay_erased (mem_goods inStore rfl)
  cases wrote with
  | same here => cases here
  | refused _ _ reason =>
    obtain outside | long := reason
    · exact absurd outside (by decide)
    · exact absurd (show Fits [1] by decide) long
  | @appended first cleared =>
    refine ⟨rfl, fun b inStore => hasOne_of_log (has b inStore rfl) images inStore ?_⟩
    rw [replay_append, replay_written_once (List.nodup_range.filter _) (mem_goods inStore rfl),
      erased first cleared b inStore, stack]
    rfl
  | @rewritten first done cleared =>
    refine ⟨rfl, fun b inStore => hasOne_of_log (has b inStore rfl) images inStore ?_⟩
    rw [replay_append, replay_rewritten (mem_goods inStore rfl)]
    rfl

theorem cfgNandRead_flipped {state : Pages} {b : Nat} (inStore : b < CONFIG_BLOCK_NUM)
    {src : Buffer} (record : bytesOf src PAGE_SIZE = bytesOf recordOne PAGE_SIZE)
    (image : ∀ j < PAGE_SIZE + 64,
      state (pageNo (pageAt b 0 * 2)) j = pageImage (hashedChip sha1OfRecord) src j)
    {state' : Pages}
    (flipped : state' (pageNo (pageAt b 0 * 2)) = flipByte (state (pageNo (pageAt b 0 * 2)))) :
    ∃ ret, 0 < ret ∧ cfgNandRead (hashedChip sha1OfRecord) state' (pageAt b 0) =
      (ret, some (pageArray (hashedChip sha1OfRecord) src)) := by
  obtain ⟨positive, out, delivered, bytes⟩ := eccCorrect_flipped record image
  have spare : ¬ ∀ i < 64, flipByte (state (pageNo (pageAt b 0 * 2))) (PAGE_SIZE + i) = 0xFF := by
    intro idle
    have byte := idle 32 (by decide)
    have hash : pageImage (hashedChip sha1OfRecord) src (PAGE_SIZE + 32) =
        (sha1OfRecord (bytesOf src PAGE_SIZE)).getD 0 0 := by
      rw [pageImage_apply, if_neg (by decide), if_pos (by decide), Nat.sub_self,
        show (hashedChip sha1OfRecord).sha1 = sha1OfRecord from rfl]
    rw [flipByte, if_neg (by decide), image _ (by decide), hash, record, sha1OfRecord,
      if_pos rfl] at byte
    exact absurd byte (by decide)
  refine ⟨_, positive, ?_⟩
  unfold cfgNandRead
  rw [if_neg (pageAt_inside inStore (by decide)), hashedChip_pageRd, flipped]
  dsimp only
  rw [if_neg spare, show (hashedChip sha1OfRecord).sha1 = sha1OfRecord from rfl]
  generalize eccCorrect sha1OfRecord
    (wordsOf (flipByte (state (pageNo (pageAt b 0 * 2))))) = result at delivered
  obtain ⟨ret, data⟩ := result
  cases delivered
  refine congrArg (fun page => (ret, some page)) (pageArray_congr fun i below => ?_)
  have same := bytes.trans record.symm
  have byte := congrArg (fun bytes => bytes[i]?) same
  simpa only [pageBytes, bytesOf, List.getElem?_map, List.getElem?_range below, Option.map_some,
    Option.some.injEq] using byte

theorem flipTwo_other {state : Pages} {b i : Nat} (inBlock : i < CONFIG_PAGE_NUM)
    (other : i ≠ 0 ∨ b = 2) :
    flipTwo state (pageNo (pageAt b i * 2)) = state (pageNo (pageAt b i * 2)) := by
  simp only [CONFIG_PAGE_NUM, BLOCK_SIZE, PAGE_SIZE] at inBlock
  rw [flipTwo, pageNo_pageAt, if_neg (by omega)]

theorem flipTwo_first {state : Pages} {b : Nat} (inStore : b < CONFIG_BLOCK_NUM)
    (isGood : (b != 2) = true) :
    flipTwo state (pageNo (pageAt b 0 * 2)) = flipByte (state (pageNo (pageAt b 0 * 2))) := by
  have three : b < 3 := inStore
  have other : b ≠ 2 := by simpa using isGood
  rw [flipTwo, pageNo_pageAt, if_pos (by omega)]

theorem flipTwo_corrected {state : Pages} {b : Nat} (hasOne : HasOne state b)
    (inStore : b < CONFIG_BLOCK_NUM) (isGood : (b != 2) = true) :
    ∃ src, (∃ ret, 0 < ret ∧
      cfgNandRead (hashedChip sha1OfRecord) (flipTwo state) (pageAt b 0) =
        (ret, some (pageArray (hashedChip sha1OfRecord) src))) ∧
      cfgNandRead (hashedChip sha1OfRecord) state (pageAt b 0) =
        (0, some (pageArray (hashedChip sha1OfRecord) src)) ∧
      ¬ ∀ j < PAGE_SIZE + 64, state (pageNo (pageAt b 0 * 2)) j = 0xFF := by
  obtain ⟨⟨src, record, image⟩, -⟩ := hasOne
  refine ⟨src, cfgNandRead_flipped inStore record image (flipTwo_first inStore isGood),
    cfgNandRead_image sha1OfRecord_long inStore (by decide) image, fun idle => ?_⟩
  have byte := congrArg (fun bytes => bytes[0]?) record
  have inPage : 0 < PAGE_SIZE := by decide
  simp only [bytesOf, List.getElem?_map, List.getElem?_range inPage, Option.map_some,
    Option.some.injEq, ← image_data image 0 inPage] at byte
  rw [idle 0 (by decide)] at byte
  exact absurd byte (by decide)

theorem flipTwo_repairable {state : Pages} (hasOne : ∀ b < CONFIG_BLOCK_NUM, HasOne state b) :
    Repairable (hashedChip sha1OfRecord) (fun b => b != 2) state (flipTwo state) := by
  intro b inStore isGood i inBlock
  obtain ⟨src, ⟨ret, positive, read⟩, whole, marked⟩ :=
    flipTwo_corrected (hasOne b inStore) inStore isGood
  by_cases first : i = 0
  · subst first
    refine ⟨fun idle => absurd idle marked, fun ret' data here _ => ?_⟩
    rw [whole] at here
    cases here
    exact ⟨ret, positive.le, read⟩
  · have same : (hashedChip sha1OfRecord).pageRd (flipTwo state) (pageAt b i * 2) =
        (hashedChip sha1OfRecord).pageRd state (pageAt b i * 2) :=
      flipTwo_other inBlock (.inl first)
    refine ⟨fun idle => by rwa [same], fun ret' data here nonneg => ⟨ret', nonneg, ?_⟩⟩
    rwa [cfgNandRead_congr same]

theorem flipTwo_copyOf {state : Pages} {b : Nat} (hasOne : HasOne state b)
    (inStore : b < CONFIG_BLOCK_NUM) (isGood : (b != 2) = true) :
    copyOf (hashedChip sha1OfRecord) (flipTwo state) b 0 = none := by
  have unread : ∀ i < CONFIG_PAGE_NUM,
      readsRecord (hashedChip sha1OfRecord) (flipTwo state) b 0 i = false := by
    intro i inBlock
    by_cases first : i = 0
    · subst first
      obtain ⟨src, ⟨ret, positive, read⟩, -⟩ := flipTwo_corrected hasOne inStore isGood
      rw [readsRecord, read]
      simp only [positive.ne', decide_false, Bool.false_and]
    · have idle : ∀ j < PAGE_SIZE + 64, (hashedChip sha1OfRecord).pageRd (flipTwo state)
          (pageAt b i * 2) j = 0xFF := by
        rw [hashedChip_pageRd, flipTwo_other inBlock (.inl first)]
        exact hasOne.2 i inBlock first
      exact readsRecord_idle inStore inBlock idle
  rw [copyOf, search_apply (by decide), List.find?_eq_none.mpr]
  · rfl
  · intro i member
    rw [unread i (List.mem_range.mp (List.mem_reverse.mp member))]
    exact Bool.false_ne_true

theorem flipTwo_notRead {state : Pages} (hasOne : ∀ b < CONFIG_BLOCK_NUM, HasOne state b) :
    (readTerminalInfo (hashedChip sha1OfRecord) (flipTwo state) 0 16).toOption = none := by
  have zero := flipTwo_copyOf (hasOne 0 (by decide)) (by decide) rfl
  have one := flipTwo_copyOf (hasOne 1 (by decide)) (by decide) rfl
  generalize flipTwo state = flipped at zero one ⊢
  have few : copies (fun b => copyOf (hashedChip sha1OfRecord) flipped b 0) < 2 := by
    have last := Bool.toNat_le (copyOf (hashedChip sha1OfRecord) flipped 2 0).isSome
    rw [copies, zero, one]
    simp only [Option.isSome_none, Bool.toNat_false]
    omega
  rw [readTerminalInfo_decided (by decide) (by decide) (decided_few few), Option.map_none]

/-- A correction is enough to lose a record: two of the blocks read as corrected. -/
theorem corrected_notRead :
    (writeTerminalInfo (hashedChip sha1OfRecord) blank 0 [1]).1 = 0 ∧
      Repairable (hashedChip sha1OfRecord) (fun b => b != 2)
        (writeTerminalInfo (hashedChip sha1OfRecord) blank 0 [1]).2
        (flipTwo (writeTerminalInfo (hashedChip sha1OfRecord) blank 0 [1]).2) ∧
      (readTerminalInfo (hashedChip sha1OfRecord)
        (flipTwo (writeTerminalInfo (hashedChip sha1OfRecord) blank 0 [1]).2) 0 16).toOption =
          none :=
  ⟨writeOne.1, flipTwo_repairable writeOne.2, flipTwo_notRead writeOne.2⟩

end PosFirmware.Config
