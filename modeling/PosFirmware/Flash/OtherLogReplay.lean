import PosFirmware.Flash.OtherLog

/-! # What the log reads back

Every write to the log sector that was accepted since the last erase is applied
again by `otherReadLog`, in order and whatever bits its copies lost, as long as
each bit is left in one of them (`log_rebuilt`). The blocks of the log are full
only when more than the reserve is written by force.
-/

namespace PosFirmware.Flash

open PosFirmware.Foundation

/-! ## An item and its copies -/

theorem itemPage_copy (log : Buffer) {j k : Nat} (copy : j < REWRITE_COPIES)
    (inside : k < DATA_LOG_SIZE) : itemPage log (j * DATA_LOG_SIZE + k) = log k := by
  unfold REWRITE_COPIES at copy
  change k < 512 at inside
  change memcpy (memcpy (memcpy (memcpy idleBytes 0 log 0 512) 512 log 0 512) 1024 log 0 512)
    1536 log 0 512 (j * 512 + k) = log k
  simp only [memcpy]
  interval_cases j
  · rw [if_neg (by omega), if_neg (by omega), if_neg (by omega), if_pos (by omega),
      show 0 + (0 * 512 + k - 0) = k by omega]
  · rw [if_neg (by omega), if_neg (by omega), if_pos (by omega),
      show 0 + (1 * 512 + k - 512) = k by omega]
  · rw [if_neg (by omega), if_pos (by omega), show 0 + (2 * 512 + k - 1024) = k by omega]
  · rw [if_pos (by omega), show 0 + (3 * 512 + k - 1536) = k by omega]

private theorem bytes_append (x : Ushort) : x.extractLsb' 8 8 ++ x.extractLsb' 0 8 = x := by
  apply BitVec.eq_of_getLsbD_eq
  intro bit below
  rw [BitVec.getLsbD_append, BitVec.getLsbD_extractLsb', BitVec.getLsbD_extractLsb']
  by_cases low : bit < 8
  · simp [low]
  · simp [low, show bit - 8 < 8 by omega, show 8 + (bit - 8) = bit by omega]

section Header

variable (des : Nat) (src : Buffer) (len : Nat)

theorem dataLog_flag : logFlag (dataLog des src len) = LOG_TAG := by
  simp only [logFlag, dataLog, memcpy]
  change LOG_TAG.extractLsb' 24 8 ++ LOG_TAG.extractLsb' 16 8 ++ LOG_TAG.extractLsb' 8 8 ++
    LOG_TAG.extractLsb' 0 8 = LOG_TAG
  decide

theorem dataLog_offset : logOffset (dataLog des src len) = BitVec.ofNat 16 des := by
  simp only [logOffset, dataLog, memcpy]
  exact bytes_append _

theorem dataLog_len : logLen (dataLog des src len) = BitVec.ofNat 16 len := by
  simp only [logLen, dataLog, memcpy]
  exact bytes_append _

theorem dataLog_data {i : Nat} (inside : i < len) : dataLog des src len (8 + i) = src i := by
  simp only [dataLog, memcpy]
  rw [if_pos (by omega)]
  congr 1
  omega

end Header

/-- What became of the page of an item: bits of it were lost, but each is left in
one of the copies at least. -/
structure Faded (log page : Buffer) : Prop where
  lost : ∀ i < PAGE_SIZE, ∀ bit, (page i).getLsbD bit → (itemPage log i).getLsbD bit
  left : ∀ k < DATA_LOG_SIZE, ∀ bit, (log k).getLsbD bit →
    ∃ j < REWRITE_COPIES, (page (j * DATA_LOG_SIZE + k)).getLsbD bit

theorem Faded.of_copy {log page : Buffer} {j : Nat} (copy : j < REWRITE_COPIES)
    (lost : ∀ i < PAGE_SIZE, ∀ bit, (page i).getLsbD bit → (itemPage log i).getLsbD bit)
    (intact : ∀ k < DATA_LOG_SIZE, page (j * DATA_LOG_SIZE + k) = log k) : Faded log page :=
  ⟨lost, fun k inside bit here => ⟨j, copy, by rw [intact k inside]; exact here⟩⟩

private theorem or_bit (bytes : List Byte) (first : Byte) (bit : Nat) :
    (bytes.foldl (· ||| ·) first).getLsbD bit ↔
      first.getLsbD bit ∨ ∃ byte ∈ bytes, byte.getLsbD bit := by
  induction bytes generalizing first with
  | nil => simp
  | cons byte rest ih =>
      rw [List.foldl_cons, ih, BitVec.getLsbD_or, Bool.or_eq_true, List.exists_mem_cons_iff, or_assoc]

theorem orCopies_bit (inbuf : Buffer) (k bit : Nat) : (orCopies inbuf k).getLsbD bit ↔
    ∃ j < REWRITE_COPIES, (inbuf (j * DATA_LOG_SIZE + k)).getLsbD bit := by
  have spread := or_bit ((List.range REWRITE_COPIES).map fun j => inbuf (j * DATA_LOG_SIZE + k)) 0 bit
  rw [List.foldl_map] at spread
  refine spread.trans ?_
  simp

theorem Faded.orCopies {log page : Buffer} (faded : Faded log page) {k : Nat}
    (inside : k < DATA_LOG_SIZE) : orCopies page k = log k := by
  apply BitVec.eq_of_getLsbD_eq
  intro bit _
  rw [Bool.eq_iff_iff, orCopies_bit]
  refine ⟨fun ⟨j, copy, here⟩ => ?_, faded.left k inside bit⟩
  have place : j * DATA_LOG_SIZE + k < PAGE_SIZE := by
    change j < 4 at copy
    change k < 512 at inside
    change j * 512 + k < 2048
    omega
  rw [← itemPage_copy log copy inside]
  exact faded.lost _ place bit here

/-! ## Reading one page -/

/-- A write to the log sector. -/
structure LogWrite where
  des : Nat
  src : Buffer
  len : Nat

/-- It lies in the sector and fits an item. -/
def LogWrite.Small (write : LogWrite) : Prop :=
  write.des + write.len ≤ LOG_SIZE ∧ write.len ≤ DATA_LOG_SIZE - 8

instance (write : LogWrite) : Decidable write.Small := inferInstanceAs (Decidable (_ ∧ _))

def LogWrite.log (write : LogWrite) : Buffer := dataLog write.des write.src write.len

/-- The effect of a write on the sector. -/
def LogWrite.apply (output : Buffer) (write : LogWrite) : Buffer :=
  memcpy output write.des write.src 0 write.len

theorem getPageItems_faded {write : LogWrite} (small : write.Small) {page : Buffer}
    (faded : Faded write.log page) (output : Buffer) (logIndex : Nat) :
    getPageItems page output logIndex = (0, write.apply output, logIndex + 1) := by
  have byte {k : Nat} (inside : k < 512) : orCopies page k = write.log k := faded.orCopies inside
  obtain ⟨fits, short⟩ := small
  change write.des + write.len ≤ 0x6000 at fits
  change write.len ≤ 504 at short
  have flag : logFlag (orCopies page) = LOG_TAG := by
    rw [logFlag, byte (by decide), byte (by decide), byte (by decide), byte (by decide)]
    exact dataLog_flag _ _ _
  have offset : (logOffset (orCopies page)).toNat = write.des := by
    rw [logOffset, byte (by decide), byte (by decide)]
    refine (congrArg BitVec.toNat (dataLog_offset _ _ _)).trans ?_
    rw [BitVec.toNat_ofNat, Nat.mod_eq_of_lt (by omega)]
  have len : (logLen (orCopies page)).toNat = write.len := by
    rw [logLen, byte (by decide), byte (by decide)]
    refine (congrArg BitVec.toNat (dataLog_len _ _ _)).trans ?_
    rw [BitVec.toNat_ofNat, Nat.mod_eq_of_lt (by omega)]
  have copied : memcpy output write.des (orCopies page) 8 write.len = write.apply output := by
    funext i
    unfold LogWrite.apply memcpy
    split_ifs with here
    · rw [byte (by omega), Nat.zero_add]
      exact dataLog_data _ _ _ (by omega)
    · rfl
  unfold getPageItems
  simp only [flag, offset, len, copied, if_true]
  rw [if_neg (by decide)]

theorem getPageItems_blank {page : Buffer} (blank : ∀ i < PAGE_SIZE, page i = 0xFF)
    (output : Buffer) (logIndex : Nat) : getPageItems page output logIndex = (-1, output, logIndex) := by
  have byte {k : Nat} (inside : k < 512) : orCopies page k = 0xFF := by
    have copy {j : Nat} (below : j < 4) : page (j * 512 + k) = 0xFF := blank _ (by
      change j * 512 + k < 2048
      omega)
    change ((((0 ||| page (0 * 512 + k)) ||| page (1 * 512 + k)) ||| page (2 * 512 + k)) |||
      page (3 * 512 + k)) = 0xFF
    rw [copy (by decide), copy (by decide), copy (by decide), copy (by decide)]
    decide
  have flag : logFlag (orCopies page) = 0xFFFFFFFF := by
    rw [logFlag, byte (by decide), byte (by decide), byte (by decide), byte (by decide)]
    decide
  unfold getPageItems
  simp only [flag, if_true]
  rw [if_neg (by decide)]

theorem readPages_items {pages : Pages} {items : List LogWrite} {front back : List Nat}
    (small : ∀ write ∈ items, write.Small)
    (faded : List.Forall₂ (fun write page => Faded write.log (pages page)) items front)
    (ends : ∀ page ∈ back.head?, ∀ i < PAGE_SIZE, pages page i = 0xFF)
    (output : Buffer) (logIndex : Nat) :
    LogArea.readPages pages (front ++ back) output logIndex =
      (items.foldl LogWrite.apply output, logIndex + items.length) := by
  induction faded generalizing output logIndex with
  | nil =>
      cases back with
      | nil => rfl
      | cons page rest =>
          rw [List.nil_append, LogArea.readPages, getPageItems_blank (ends page rfl)]
          rfl
  | @cons write page items front here _ ih =>
      rw [List.cons_append, LogArea.readPages,
        getPageItems_faded (small write List.mem_cons_self) here]
      refine (ih (fun later member => small later (List.mem_cons_of_mem _ member)) _ _).trans ?_
      rw [List.foldl_cons, List.length_cons, Nat.add_assoc, Nat.add_comm 1]

/-! ## The table of the blocks -/

section Table

variable (isBadBlock : Nat → Bool)

/-- The table after the first blocks of the area were looked at. -/
def logTable (count : Nat) : (Nat → Nat) × Nat :=
  (List.range count).foldl (LogArea.initBlock isBadBlock) (fun _ => 0, 0)

/-- The entries of the table are blocks of the area, each larger than the one before. -/
structure TableOf (count : Nat) (logBlock : Nat → Nat) (num : Nat) : Prop where
  fits : num ≤ count
  above : ∀ j < num, LOG_INFO_START ≤ logBlock j
  below : ∀ j < num, logBlock j < LOG_INFO_START + count
  increasing : ∀ j k, j < k → k < num → logBlock j < logBlock k
  some_ : ∀ i < count, isBadBlock (LOG_INFO_START + i) = false → 0 < num

variable {isBadBlock}

theorem TableOf.initBlock {count num : Nat} {logBlock : Nat → Nat}
    (of : TableOf isBadBlock count logBlock num) :
    TableOf isBadBlock (count + 1) (LogArea.initBlock isBadBlock (logBlock, num) count).1
      (LogArea.initBlock isBadBlock (logBlock, num) count).2 := by
  have fits := of.fits
  have old {j : Nat} (inside : j < num) :
      Function.update logBlock count LOG_INFO_START j = logBlock j :=
    Function.update_of_ne (by omega) _ _
  unfold LogArea.initBlock
  by_cases bad : isBadBlock (LOG_INFO_START + count)
  · rw [if_pos bad]
    change TableOf isBadBlock (count + 1) (Function.update logBlock count LOG_INFO_START) num
    refine ⟨by omega, fun j inside => ?_, fun j inside => ?_, fun j k order inside => ?_,
      fun i inside good => ?_⟩
    · exact (of.above j inside).trans_eq (old inside).symm
    · have below := of.below j inside
      rw [old inside]
      omega
    · rw [old inside, old (by omega)]
      exact of.increasing j k order inside
    · rcases Nat.lt_succ_iff_lt_or_eq.mp inside with earlier | rfl
      · exact of.some_ i earlier good
      · rw [good] at bad
        cases bad
  · rw [if_neg bad]
    change TableOf isBadBlock (count + 1) (Function.update (Function.update logBlock count
      LOG_INFO_START) num (LOG_INFO_START + count)) (num + 1)
    have entry {j : Nat} (inside : j < num) :
        Function.update (Function.update logBlock count LOG_INFO_START) num
          (LOG_INFO_START + count) j = logBlock j :=
      (Function.update_of_ne (by omega) _ _).trans (old inside)
    have last : Function.update (Function.update logBlock count LOG_INFO_START) num
        (LOG_INFO_START + count) num = LOG_INFO_START + count := Function.update_self ..
    refine ⟨by omega, fun j inside => ?_, fun j inside => ?_, fun j k order inside => ?_,
      fun _ _ _ => Nat.succ_pos _⟩
    · rcases Nat.lt_succ_iff_lt_or_eq.mp inside with earlier | rfl
      · exact (of.above j earlier).trans_eq (entry earlier).symm
      · exact (Nat.le_add_right _ _).trans_eq last.symm
    · rcases Nat.lt_succ_iff_lt_or_eq.mp inside with earlier | rfl
      · have below := of.below j earlier
        rw [entry earlier]
        omega
      · rw [last]
        omega
    · rcases Nat.lt_succ_iff_lt_or_eq.mp inside with earlier | rfl
      · rw [entry earlier, entry (by omega)]
        exact of.increasing j k order earlier
      · rw [last, entry order]
        exact of.below j order

theorem logTable_of (count : Nat) :
    TableOf isBadBlock count (logTable isBadBlock count).1 (logTable isBadBlock count).2 := by
  induction count with
  | zero => exact ⟨le_rfl, nofun, nofun, nofun, nofun⟩
  | succ count ih =>
      unfold logTable
      rw [List.range_succ, List.foldl_append]
      exact ih.initBlock

end Table

/-! ## The pages of the log -/

/-- The number of items that fit the good blocks. -/
def LogArea.capacity (s : LogArea) : Nat := ITEMS_PER_BLOCK * s.logBlockNum

/-- The number of an item's page. -/
def LogArea.itemNo (s : LogArea) (n : Nat) : Nat := pageNo (s.itemAddr n)

theorem LogArea.itemNo_eq (s : LogArea) (n : Nat) :
    s.itemNo n = s.logBlock (n / ITEMS_PER_BLOCK) * ITEMS_PER_BLOCK + n % ITEMS_PER_BLOCK := by
  change (s.logBlock (n / 64) * 131072 + n % 64 * 2048) * 2 / 4096 =
    s.logBlock (n / 64) * 64 + n % 64
  omega

theorem LogArea.itemNo_add (s : LogArea) (block : Nat) {page : Nat} (inBlock : page < ITEMS_PER_BLOCK) :
    s.itemNo (ITEMS_PER_BLOCK * block + page) =
      pageNo ((s.logBlock block * BLOCK_SIZE + page * PAGE_SIZE) * 2) := by
  unfold itemNo itemAddr
  rw [Nat.mul_add_div (by decide), Nat.mul_add_mod, Nat.div_eq_of_lt inBlock,
    Nat.mod_eq_of_lt inBlock, Nat.add_zero]

theorem LogArea.blockPages_eq (s : LogArea) (blocks : Nat) :
    ((List.range blocks).flatMap fun block => (List.range ITEMS_PER_BLOCK).map fun page =>
      pageNo ((s.logBlock block * BLOCK_SIZE + page * PAGE_SIZE) * 2)) =
    (List.range (ITEMS_PER_BLOCK * blocks)).map s.itemNo := by
  induction blocks with
  | zero => rw [Nat.mul_zero, List.range_zero, List.flatMap_nil, List.map_nil]
  | succ blocks ih =>
      have last : ((List.range ITEMS_PER_BLOCK).map fun page =>
          pageNo ((s.logBlock blocks * BLOCK_SIZE + page * PAGE_SIZE) * 2)) =
          ((List.range ITEMS_PER_BLOCK).map fun page => ITEMS_PER_BLOCK * blocks + page).map
            s.itemNo := by
        rw [List.map_map]
        refine List.map_congr_left fun page inside => ?_
        rw [Function.comp_apply, s.itemNo_add blocks (List.mem_range.mp inside)]
      rw [List.range_succ, List.flatMap_append, ih, List.flatMap_singleton, last, Nat.mul_succ,
        List.range_add, List.map_append]

theorem LogArea.logPages_eq (s : LogArea) : s.logPages = (List.range s.capacity).map s.itemNo := by
  unfold logPages capacity
  exact s.blockPages_eq s.logBlockNum

section Reading

variable {isBadBlock : Nat → Bool} {s : LogArea}

/-- The table of the area is the one made when the terminal starts. -/
structure LogArea.Tabled (isBadBlock : Nat → Bool) (s : LogArea) : Prop where
  logBlock : s.logBlock = (logTable isBadBlock LOG_INFO_NUM).1
  num : s.logBlockNum = (logTable isBadBlock LOG_INFO_NUM).2

theorem boot_tabled (pages : Pages) : (LogArea.boot isBadBlock pages).Tabled isBadBlock := ⟨rfl, rfl⟩

namespace LogArea.Tabled

theorem table (tabled : s.Tabled isBadBlock) :
    TableOf isBadBlock LOG_INFO_NUM s.logBlock s.logBlockNum := by
  rw [tabled.logBlock, tabled.num]
  exact logTable_of _

theorem boot_eq (tabled : s.Tabled isBadBlock) :
    LogArea.boot isBadBlock s.pages = { s with logIndex := 0, otherForceWrite := false } := by
  change ({ logBlock := (logTable isBadBlock LOG_INFO_NUM).1
            logBlockNum := (logTable isBadBlock LOG_INFO_NUM).2
            logIndex := 0, otherForceWrite := false, pages := s.pages } : LogArea) = _
  rw [← tabled.logBlock, ← tabled.num]

theorem itemNo_inj (tabled : s.Tabled isBadBlock) {n m : Nat} (inside : n < s.capacity)
    (inside' : m < s.capacity) (same : s.itemNo n = s.itemNo m) : n = m := by
  rw [s.itemNo_eq, s.itemNo_eq] at same
  change n < 64 * s.logBlockNum at inside
  change m < 64 * s.logBlockNum at inside'
  change s.logBlock (n / 64) * 64 + n % 64 = s.logBlock (m / 64) * 64 + m % 64 at same
  have block : s.logBlock (n / 64) = s.logBlock (m / 64) := by omega
  have rest : n % 64 = m % 64 := by omega
  have number : n / 64 = m / 64 := by
    rcases lt_trichotomy (n / 64) (m / 64) with less | equal | more
    · exact absurd block (tabled.table.increasing _ _ less (by omega)).ne
    · exact equal
    · exact absurd block (tabled.table.increasing _ _ more (by omega)).ne'
  omega

theorem positive (tabled : s.Tabled isBadBlock)
    (good : ∃ block, LOG_INFO_START ≤ block ∧ block ≤ LOG_INFO_END ∧ isBadBlock block = false) :
    0 < s.logBlockNum := by
  obtain ⟨block, above, below, isGood⟩ := good
  refine tabled.table.some_ (block - LOG_INFO_START) ?_ ?_
  · unfold LOG_INFO_NUM
    omega
  · rwa [Nat.add_sub_cancel' above]

theorem otherEraseLog_pages (tabled : s.Tabled isBadBlock) {n : Nat} (inside : n < s.capacity) :
    s.otherEraseLog.pages (s.itemNo n) = idleBytes := by
  have number : n / 64 < s.logBlockNum := by
    change n < 64 * s.logBlockNum at inside
    omega
  have block : s.itemNo n / BLOCK_PAGES = s.logBlock (n / 64) := by
    rw [s.itemNo_eq]
    change (s.logBlock (n / 64) * 64 + n % 64) / 64 = _
    omega
  have inArea : ¬ (s.logBlock (n / 64) < LOG_INFO_START ∨ LOG_INFO_END < s.logBlock (n / 64)) := by
    have above := tabled.table.above _ number
    have below : s.logBlock (n / 64) < 52 + 12 := tabled.table.below _ number
    change ¬ (_ ∨ 63 < _)
    omega
  suffices loop : ∀ (blocks : List Nat) (pages : Pages),
      (pages (s.itemNo n) = idleBytes ∨ n / 64 ∈ blocks) →
      blocks.foldl (fun pages i =>
        if s.logBlock i < LOG_INFO_START ∨ LOG_INFO_END < s.logBlock i then pages
        else pages.erase (s.logBlock i)) pages (s.itemNo n) = idleBytes from
    loop _ _ (.inr (List.mem_range.mpr number))
  intro blocks
  induction blocks with
  | nil => exact fun pages done => done.resolve_right List.not_mem_nil
  | cons i rest ih =>
      intro pages done
      refine ih _ ?_
      rcases done with idle | member
      · left
        dsimp only
        split_ifs
        · exact idle
        · unfold Pages.erase
          split_ifs
          · rfl
          · exact idle
      · rcases List.mem_cons.mp member with rfl | later
        · left
          dsimp only
          rw [if_neg inArea]
          exact if_pos block
        · exact .inr later

end LogArea.Tabled

end Reading

/-! ## Runs -/

/-- The log with the writes accepted since its last erase, and how many of them were
accepted by force. -/
structure Logging where
  area : LogArea
  items : List LogWrite
  forced : Nat

/-- What happens to the log: a write, `OtherForceWrite`, an erase, bits that are lost, the
terminal started anew. -/
inductive LogEvent
  | write (write : LogWrite)
  | force
  | erase
  | decay (pages : Pages)
  | restart (output : Buffer)

namespace Logging

/-- The log as it is behind an erase. -/
def erased (area : LogArea) : Logging := { area := area.otherEraseLog, items := [], forced := 0 }

def step (isBadBlock : Nat → Bool) (s : Logging) : LogEvent → Option Logging
  | .write write => (s.area.otherWriteLog write.des write.src write.len).map fun (ret, area) =>
      if ret = 0 then
        { area, items := s.items ++ [write],
          forced := if s.area.otherForceWrite then s.forced + 1 else s.forced }
      else { s with area }
  | .force => some { s with area := s.area.forceWrite }
  | .erase => some (erased s.area)
  | .decay pages => some { s with area := { s.area with pages } }
  | .restart output =>
      some { s with
        area := ((LogArea.boot isBadBlock s.area.pages).otherReadLog output LOG_SIZE).2 }

/-- The pages that items lie on lost bits, the other pages of the log did not. -/
structure Decays (s : Logging) (pages : Pages) : Prop where
  items : ∀ n write, s.items[n]? = some write → Faded write.log (pages (s.area.itemNo n))
  others : ∀ n, s.items.length ≤ n → n < s.area.capacity →
    pages (s.area.itemNo n) = s.area.pages (s.area.itemNo n)

/-- The writes are small, and the reserve is not exhausted. -/
def Allowed (s : Logging) : LogEvent → Prop
  | .write write => write.Small ∧
      (s.area.otherForceWrite = true → s.forced < RESERVE_LOG_NUM - 1)
  | .decay pages => s.Decays pages
  | _ => True

/-- Every accepted write lies on its page, and the pages behind are erased. -/
structure Holds (isBadBlock : Nat → Bool) (s : Logging) : Prop where
  tabled : s.area.Tabled isBadBlock
  index : s.area.logIndex = s.items.length
  small : ∀ write ∈ s.items, write.Small
  faded : ∀ n write, s.items[n]? = some write → Faded write.log (s.area.pages (s.area.itemNo n))
  blank : ∀ n, s.items.length ≤ n → n < s.area.capacity →
    ∀ i < PAGE_SIZE, s.area.pages (s.area.itemNo n) i = 0xFF
  reserve : s.items.length + (RESERVE_LOG_NUM - 1) ≤ s.area.capacity + s.forced
  few : s.forced ≤ RESERVE_LOG_NUM - 1

variable {isBadBlock : Nat → Bool} {s : Logging}

theorem Holds.inside (holds : s.Holds isBadBlock) : s.items.length ≤ s.area.capacity := by
  have reserve := holds.reserve
  have few := holds.few
  omega

theorem Holds.table_fits (holds : s.Holds isBadBlock) : s.area.logBlockNum ≤ LOG_INFO_NUM :=
  holds.tabled.table.fits

theorem Holds.logPages (holds : s.Holds isBadBlock) :
    s.area.logPages = (List.range s.items.length).map s.area.itemNo ++
      (List.range' s.items.length (s.area.capacity - s.items.length)).map s.area.itemNo := by
  have total : s.area.capacity = s.items.length + (s.area.capacity - s.items.length) :=
    (Nat.add_sub_cancel' holds.inside).symm
  rw [s.area.logPages_eq, ← List.map_append, List.range_eq_range', List.range_eq_range']
  refine congrArg (List.map _) ?_
  calc List.range' 0 s.area.capacity
      = List.range' 0 (s.items.length + (s.area.capacity - s.items.length)) := by rw [← total]
    _ = List.range' 0 s.items.length ++
          List.range' (0 + s.items.length) (s.area.capacity - s.items.length) :=
        List.range'_append_1.symm
    _ = _ := by rw [Nat.zero_add]

theorem Holds.reads (holds : s.Holds isBadBlock) (output : Buffer) :
    (LogArea.boot isBadBlock s.area.pages).otherReadLog output LOG_SIZE =
      (s.items.foldl LogWrite.apply (memcpy output 0 idleBytes 0 LOG_SIZE),
        { s.area with otherForceWrite := false }) := by
  have faded : List.Forall₂ (fun write page => Faded write.log (s.area.pages page)) s.items
      ((List.range s.items.length).map s.area.itemNo) := by
    refine List.forall₂_iff_get.mpr ⟨by rw [List.length_map, List.length_range], ?_⟩
    intro n inside _
    rw [List.get_eq_getElem, List.get_eq_getElem, List.getElem_map, List.getElem_range]
    exact holds.faded n _ (List.getElem?_eq_getElem inside)
  have ends : ∀ page ∈ ((List.range' s.items.length (s.area.capacity - s.items.length)).map
      s.area.itemNo).head?, ∀ i < PAGE_SIZE, s.area.pages page i = 0xFF := by
    intro page first
    obtain ⟨n, member, rfl⟩ := List.mem_map.mp (List.mem_of_head? first)
    have bounds := List.mem_range'_1.mp member
    exact holds.blank n bounds.1 (by omega)
  have read := readPages_items holds.small faded ends (memcpy output 0 idleBytes 0 LOG_SIZE) 0
  rw [← holds.logPages, Nat.zero_add, ← holds.index] at read
  rw [holds.tabled.boot_eq]
  change ((LogArea.readPages s.area.pages s.area.logPages _ 0).1,
    ({ s.area with
        logIndex := (LogArea.readPages s.area.pages s.area.logPages _ 0).2
        otherForceWrite := false } : LogArea)) = _
  rw [read]

theorem erased_holds {area : LogArea} (tabled : area.Tabled isBadBlock)
    (good : ∃ block, LOG_INFO_START ≤ block ∧ block ≤ LOG_INFO_END ∧ isBadBlock block = false) :
    (erased area).Holds isBadBlock where
  tabled := ⟨tabled.logBlock, tabled.num⟩
  index := rfl
  small := nofun
  faded := nofun
  blank n _ inside i _ := congrFun (tabled.otherEraseLog_pages inside) i
  reserve := by
    have positive := tabled.positive good
    change 0 + 19 ≤ 64 * area.logBlockNum + 0
    omega
  few := Nat.zero_le _

theorem Holds.room (holds : s.Holds isBadBlock) (positive : 0 < s.area.logBlockNum)
    (reserve : s.area.otherForceWrite = true → s.forced < RESERVE_LOG_NUM - 1)
    (accepted : ¬ (s.area.otherForceWrite = false ∧ s.area.maxIndex < s.area.logIndex)) :
    s.items.length < s.area.capacity ∧
      s.items.length + 1 + (RESERVE_LOG_NUM - 1) ≤ s.area.capacity +
        (if s.area.otherForceWrite then s.forced + 1 else s.forced) := by
  have filled := holds.reserve
  have few := holds.table_fits
  rw [holds.index] at accepted
  change s.items.length + 19 ≤ 64 * s.area.logBlockNum + s.forced at filled
  change s.items.length < 64 * s.area.logBlockNum ∧
    s.items.length + 1 + 19 ≤ 64 * s.area.logBlockNum + _
  cases force : s.area.otherForceWrite with
  | true =>
      have below : s.forced < 19 := reserve force
      rw [if_pos rfl]
      omega
  | false =>
      have least : s.items.length ≤ (64 * s.area.logBlockNum + 2 ^ 32 - 20) % 2 ^ 32 :=
        Nat.not_lt.mp fun more => accepted ⟨force, more⟩
      rw [if_neg Bool.false_ne_true]
      omega

theorem Holds.append (holds : s.Holds isBadBlock) {write : LogWrite} (small : write.Small)
    (room : s.items.length < s.area.capacity) {area : LogArea} {forced : Nat}
    (logBlock : area.logBlock = s.area.logBlock) (num : area.logBlockNum = s.area.logBlockNum)
    (index : area.logIndex = s.items.length + 1)
    (pages : area.pages =
      s.area.pages.program (s.area.itemNo s.items.length) (itemPage write.log) PAGE_SIZE)
    (reserve : s.items.length + 1 + (RESERVE_LOG_NUM - 1) ≤ s.area.capacity + forced)
    (few : forced ≤ RESERVE_LOG_NUM - 1) :
    Holds isBadBlock { area := area, items := s.items ++ [write], forced := forced } := by
  have itemNo (n : Nat) : area.itemNo n = s.area.itemNo n := by
    rw [area.itemNo_eq, s.area.itemNo_eq, logBlock]
  have capacity : area.capacity = s.area.capacity := congrArg (ITEMS_PER_BLOCK * ·) num
  have away {n : Nat} (inside : n < s.area.capacity) (other : n ≠ s.items.length) :
      area.pages (area.itemNo n) = s.area.pages (s.area.itemNo n) := by
    rw [pages, itemNo]
    exact Function.update_of_ne (fun same => other (holds.tabled.itemNo_inj inside room same)) _ _
  have here {i : Nat} (below : i < PAGE_SIZE) :
      area.pages (area.itemNo s.items.length) i = itemPage write.log i := by
    rw [pages, itemNo, Pages.program, Function.update_self, if_pos below,
      holds.blank _ le_rfl room i below]
    exact BitVec.allOnes_and
  have length : (s.items ++ [write]).length = s.items.length + 1 := by
    rw [List.length_append, List.length_singleton]
  refine ⟨⟨logBlock.trans holds.tabled.logBlock, num.trans holds.tabled.num⟩,
    index.trans length.symm, fun other member => ?_, fun n other found => ?_,
    fun n behind inside i below => ?_, ?_, few⟩
  · rcases List.mem_append.mp member with earlier | last
    · exact holds.small other earlier
    · exact List.mem_singleton.mp last ▸ small
  · change Faded other.log (area.pages (area.itemNo n))
    by_cases inside : n < s.items.length
    · rw [away (inside.trans room) inside.ne]
      exact holds.faded n other ((List.getElem?_append_left inside).symm.trans found)
    · have within := (List.getElem?_eq_some_iff.mp found).1
      rw [length] at within
      obtain rfl : n = s.items.length := by omega
      obtain rfl : write = other := by
        rw [List.getElem?_concat_length] at found
        exact Option.some.inj found
      refine Faded.of_copy (by decide : 0 < REWRITE_COPIES) (fun i below bit lit => ?_)
        fun k below => ?_
      · rwa [here below] at lit
      · have inPage : 0 * DATA_LOG_SIZE + k < PAGE_SIZE := by
          change k < 512 at below
          change 0 * 512 + k < 2048
          omega
        rw [here inPage]
        exact itemPage_copy _ (by decide) below
  · change area.pages (area.itemNo n) i = 0xFF
    change n < area.capacity at inside
    rw [length] at behind
    rw [capacity] at inside
    rw [away inside (by omega)]
    exact holds.blank n (by omega) inside i below
  · change (s.items ++ [write]).length + _ ≤ area.capacity + forced
    rw [length, capacity]
    exact reserve

theorem Holds.write (holds : s.Holds isBadBlock) (positive : 0 < s.area.logBlockNum)
    {write : LogWrite} (allowed : s.Allowed (.write write)) :
    ∃ next, s.step isBadBlock (.write write) = some next ∧ next.Holds isBadBlock := by
  by_cases refused : s.area.otherForceWrite = false ∧ s.area.maxIndex < s.area.logIndex
  · refine ⟨s, ?_, holds⟩
    change (s.area.otherWriteLog write.des write.src write.len).map _ = _
    unfold LogArea.otherWriteLog
    rw [if_pos refused]
    rfl
  · obtain ⟨room, reserve⟩ := holds.room positive allowed.2 refused
    have few := holds.table_fits
    have inTable : s.area.logIndex / ITEMS_PER_BLOCK < LOG_INFO_NUM := by
      rw [holds.index]
      change s.items.length < 64 * s.area.logBlockNum at room
      change s.area.logBlockNum ≤ 12 at few
      change s.items.length / 64 < 12
      omega
    have runs : s.step isBadBlock (.write write) = some
        { area := { s.area with
            pages := s.area.pages.program (s.area.itemNo s.items.length) (itemPage write.log)
              PAGE_SIZE
            logIndex := s.items.length + 1 }
          items := s.items ++ [write]
          forced := if s.area.otherForceWrite then s.forced + 1 else s.forced } := by
      change (s.area.otherWriteLog write.des write.src write.len).map _ = _
      unfold LogArea.otherWriteLog
      rw [if_neg refused, if_pos inTable, holds.index]
      rfl
    refine ⟨_, runs, holds.append allowed.1 room rfl rfl rfl rfl reserve ?_⟩
    cases force : s.area.otherForceWrite with
    | true => exact allowed.2 force
    | false => exact holds.few

theorem Holds.step (holds : s.Holds isBadBlock)
    (good : ∃ block, LOG_INFO_START ≤ block ∧ block ≤ LOG_INFO_END ∧ isBadBlock block = false)
    {event : LogEvent} (allowed : s.Allowed event) :
    ∃ next, s.step isBadBlock event = some next ∧ next.Holds isBadBlock := by
  cases event with
  | write write => exact holds.write (holds.tabled.positive good) allowed
  | force =>
      refine ⟨_, rfl, ?_⟩
      exact ⟨⟨holds.tabled.logBlock, holds.tabled.num⟩, holds.index, holds.small, holds.faded,
        holds.blank, holds.reserve, holds.few⟩
  | erase => exact ⟨_, rfl, erased_holds holds.tabled good⟩
  | decay pages =>
      refine ⟨_, rfl, ⟨⟨holds.tabled.logBlock, holds.tabled.num⟩, holds.index, holds.small,
        allowed.items, fun n behind inside i below => ?_, holds.reserve, holds.few⟩⟩
      change pages (s.area.itemNo n) i = 0xFF
      rw [allowed.others n behind inside]
      exact holds.blank n behind inside i below
  | restart output =>
      refine ⟨_, rfl, ?_⟩
      rw [holds.reads output]
      exact ⟨⟨holds.tabled.logBlock, holds.tabled.num⟩, holds.index, holds.small, holds.faded,
        holds.blank, holds.reserve, holds.few⟩

end Logging

/-- **The log is rebuilt from its pages.** With a good block in the area and no more writes
by force than the reserve allows, the index stays within the good blocks, and a terminal
that is started anew reads the accepted writes in their order and the same index. -/
theorem log_rebuilt (isBadBlock : Nat → Bool)
    (good : ∃ block, LOG_INFO_START ≤ block ∧ block ≤ LOG_INFO_END ∧ isBadBlock block = false)
    (pages : Pages) (events : List LogEvent)
    (meets : MeetsPartial (Logging.step isBadBlock) Logging.Allowed
      (.erased (LogArea.boot isBadBlock pages)) events) :
    ∃ last, events.foldlM (Logging.step isBadBlock)
        (.erased (LogArea.boot isBadBlock pages)) = some last ∧
      last.area.logIndex ≤ ITEMS_PER_BLOCK * last.area.logBlockNum ∧
      ∀ output, (LogArea.boot isBadBlock last.area.pages).otherReadLog output LOG_SIZE =
        (last.items.foldl LogWrite.apply (memcpy output 0 idleBytes 0 LOG_SIZE),
          { last.area with otherForceWrite := false }) := by
  have first := Logging.erased_holds (boot_tabled pages) good
  obtain ⟨last, runs, holds⟩ := foldlM_keeps
    (fun _ _ holds allowed => Logging.Holds.step holds good allowed) first meets
  refine ⟨last, runs, ?_, holds.reads⟩
  rw [holds.index]
  exact holds.inside

/-- A write of two bytes behind the head of the log. -/
def shortWrite : LogWrite := { des := 16, src := fun _ => 0, len := 2 }

theorem log_rebuilt_forced :
    ∃ last, [LogEvent.force, .write shortWrite].foldlM (Logging.step fun _ => false)
        (.erased (LogArea.boot (fun _ => false) blank)) = some last ∧
      last.area.logIndex ≤ ITEMS_PER_BLOCK * last.area.logBlockNum ∧
      ∀ output, (LogArea.boot (fun _ => false) last.area.pages).otherReadLog output LOG_SIZE =
        (last.items.foldl LogWrite.apply (memcpy output 0 idleBytes 0 LOG_SIZE),
          { last.area with otherForceWrite := false }) := by
  refine log_rebuilt (fun _ => false) ⟨LOG_INFO_START, by decide, by decide, rfl⟩ blank _
    ⟨trivial, fun next forces => ?_⟩
  cases forces
  exact ⟨⟨by decide, fun _ => by decide⟩, fun _ _ => trivial⟩

theorem Logging.accepted_step {isBadBlock : Nat → Bool} {s : Logging} (write : LogWrite)
    (unrefused : ¬ (s.area.otherForceWrite = false ∧ s.area.maxIndex < s.area.logIndex))
    (inTable : s.area.logIndex / ITEMS_PER_BLOCK < LOG_INFO_NUM) :
    ∃ next, s.step isBadBlock (.write write) = some next ∧
      next.area.otherForceWrite = s.area.otherForceWrite ∧
      next.area.logIndex = s.area.logIndex + 1 ∧
      next.area.logBlockNum = s.area.logBlockNum := by
  change ∃ next, (s.area.otherWriteLog write.des write.src write.len).map _ = some next ∧ _
  unfold LogArea.otherWriteLog
  rw [if_neg unrefused, if_pos inTable]
  exact ⟨_, rfl, rfl, rfl, rfl⟩

theorem Logging.forced_run {isBadBlock : Nat → Bool} (write : LogWrite) (count : Nat) {s : Logging}
    (force : s.area.otherForceWrite = true)
    (inside : s.area.logIndex + count ≤ ITEMS_PER_BLOCK * LOG_INFO_NUM) :
    ∃ last, (List.replicate count (LogEvent.write write)).foldlM (Logging.step isBadBlock) s =
        some last ∧
      last.area.logIndex = s.area.logIndex + count ∧
      last.area.logBlockNum = s.area.logBlockNum := by
  induction count generalizing s with
  | zero => exact ⟨s, rfl, rfl, rfl⟩
  | succ count ih =>
      change s.area.logIndex + (count + 1) ≤ 64 * 12 at inside
      obtain ⟨next, steps, force', index, num⟩ := @accepted_step isBadBlock s write
        (by rw [force]; exact fun both => nomatch both.1)
        (by change s.area.logIndex / 64 < 12; omega)
      obtain ⟨last, runs, index', num'⟩ := ih (force'.trans force) (by
        rw [index]
        change s.area.logIndex + 1 + count ≤ 64 * 12
        omega)
      refine ⟨last, ?_, by omega, num'.trans num⟩
      rw [List.replicate_succ, List.foldlM_cons, steps]
      exact runs

theorem Logging.force_then_run {isBadBlock : Nat → Bool} (write : LogWrite) (count : Nat)
    (s : Logging) (inside : s.area.logIndex + count ≤ ITEMS_PER_BLOCK * LOG_INFO_NUM) :
    ∃ last, (LogEvent.force :: List.replicate count (.write write)).foldlM
        (Logging.step isBadBlock) s = some last ∧
      last.area.logIndex = s.area.logIndex + count ∧
      last.area.logBlockNum = s.area.logBlockNum :=
  forced_run (s := { s with area := s.area.forceWrite }) write count rfl inside

/-- With one good block, the index leaves the log by force; with none, by any write. -/
theorem forced_leavesLog :
    (∃ last, (LogEvent.force :: List.replicate 65 (.write shortWrite)).foldlM
        (Logging.step fun block => block ≠ LOG_INFO_START)
        (.erased (LogArea.boot (fun block => block ≠ LOG_INFO_START) blank)) = some last ∧
      ITEMS_PER_BLOCK * last.area.logBlockNum < last.area.logIndex) ∧
    ∃ last, [LogEvent.write shortWrite].foldlM (Logging.step fun _ => true)
        (.erased (LogArea.boot (fun _ => true) blank)) = some last ∧
      ITEMS_PER_BLOCK * last.area.logBlockNum < last.area.logIndex := by
  constructor
  · obtain ⟨last, runs, index, num⟩ := Logging.force_then_run shortWrite 65
      (.erased (LogArea.boot (fun block => block ≠ LOG_INFO_START) blank)) (by decide)
    refine ⟨last, runs, ?_⟩
    rw [index, num]
    decide
  · obtain ⟨last, steps, -, index, num⟩ := @Logging.accepted_step (fun _ => true)
      (.erased (LogArea.boot (fun _ => true) blank)) shortWrite
      (fun both => absurd both.2 (Nat.not_lt_zero _)) (by decide)
    refine ⟨last, ?_, ?_⟩
    · rw [List.foldlM_cons, steps]
      rfl
    · rw [index, num]
      decide

end PosFirmware.Flash
