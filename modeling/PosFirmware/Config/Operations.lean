import PosFirmware.Config.Log

/-!
# What a call does to the logs

The programs and erases of a call, as far as they reach good blocks, are a list of operations
on their logs (`replay`). `Tracks` is what is asked of a relation between the state of a chip and
the operations since the start of a call; for each function that writes, one theorem says which
operations it adds. `Tracks.writeTerminalInfo` lists those of a whole call.
-/

namespace PosFirmware.Config

open PosFirmware.Flash

/-! ## Operations -/

/-- What is done to a good block. -/
inductive Op where
  | erased (block : Nat)
  | written (block : Nat) (page : Buffer)

/-- The logs after an operation. -/
def Op.apply (logs : Nat → List Buffer) : Op → Nat → List Buffer
  | .erased block => Function.update logs block []
  | .written block page => Function.update logs block (logs block ++ [page])

/-- The logs after some operations. -/
def replay (logs : Nat → List Buffer) (ops : List Op) : Nat → List Buffer :=
  ops.foldl Op.apply logs

/-- The block of an operation. -/
def Op.block : Op → Nat
  | .erased block => block
  | .written block _ => block

@[simp] theorem replay_nil (logs : Nat → List Buffer) : replay logs [] = logs := rfl

theorem replay_append (logs : Nat → List Buffer) (ops more : List Op) :
    replay logs (ops ++ more) = replay (replay logs ops) more := List.foldl_append

theorem replay_cons (logs : Nat → List Buffer) (op : Op) (ops : List Op) :
    replay logs (op :: ops) = replay (op.apply logs) ops := rfl

theorem apply_other {logs : Nat → List Buffer} {op : Op} {block : Nat} (away : op.block ≠ block) :
    op.apply logs block = logs block := by
  cases op with
  | erased other => exact Function.update_of_ne (Ne.symm away) _ _
  | written other page => exact Function.update_of_ne (Ne.symm away) _ _

theorem replay_other {logs : Nat → List Buffer} {ops : List Op} {block : Nat}
    (away : ∀ op ∈ ops, op.block ≠ block) : replay logs ops block = logs block := by
  induction ops generalizing logs with
  | nil => rfl
  | cons op rest past =>
    rw [replay_cons, past fun other member => away other (List.mem_cons_of_mem _ member)]
    exact apply_other (away op List.mem_cons_self)

theorem replay_written {logs : Nat → List Buffer} {block : Nat} (pages : List Buffer) :
    replay logs (pages.map (.written block)) block = logs block ++ pages := by
  induction pages generalizing logs with
  | nil => exact (List.append_nil _).symm
  | cons page rest past =>
    have here : (Op.written block page).apply logs block = logs block ++ [page] :=
      Function.update_self _ _ _
    rw [List.map_cons, replay_cons, past, here, List.append_assoc]
    rfl

theorem replay_snoc_other {logs : Nat → List Buffer} {ops : List Op} {op : Op} {block : Nat}
    (away : op.block ≠ block) : replay logs (ops ++ [op]) block = replay logs ops block := by
  rw [replay_append]
  exact apply_other away

theorem replay_snoc_written {logs : Nat → List Buffer} {ops : List Op} {block : Nat}
    {page : Buffer} :
    replay logs (ops ++ [.written block page]) block = replay logs ops block ++ [page] := by
  rw [replay_append]
  exact Function.update_self _ _ _

variable {δ : Type} {chip : Chip δ} {good : Nat → Bool} {start : Nat → List Buffer}
  {R : δ → List Op → Prop} {state : δ} {ops : List Op}

/-- A relation that holds between the states of a chip and the operations on its good blocks
since their logs were `start`. -/
structure Tracks (chip : Chip δ) (good : Nat → Bool) (start : Nat → List Buffer)
    (R : δ → List Op → Prop) : Prop where
  hasLog : ∀ {state ops block}, R state ops → block < CONFIG_BLOCK_NUM → good block = true →
    HasLog chip state block (replay start ops block)
  written : ∀ {state ops block src}, R state ops → block < CONFIG_BLOCK_NUM → good block = true →
    (replay start ops block).length < CONFIG_PAGE_NUM → src 0 = 0x24 →
    R (chip.pagePrg state (pageAt block (replay start ops block).length * 2) (pageImage chip src)
      (PAGE_SIZE + 64)) (ops ++ [.written block (pageArray chip src)])
  writtenBad : ∀ {state ops block i src len}, R state ops → block < CONFIG_BLOCK_NUM →
    good block = false → i < CONFIG_PAGE_NUM →
    R (chip.pagePrg state (pageAt block i * 2) src len) ops
  erased : ∀ {state ops block}, R state ops → block < CONFIG_BLOCK_NUM → good block = true →
    R (chip.blkErase state (1 + block)) (ops ++ [.erased block])
  erasedBad : ∀ {state ops block}, R state ops → block < CONFIG_BLOCK_NUM → good block = false →
    R (chip.blkErase state (1 + block)) ops

/-! ## Pages -/

theorem Tracks.write (tracks : Tracks chip good start R) (tracked : R state ops) {block : Nat}
    {src : Buffer} (inStore : block < CONFIG_BLOCK_NUM) (isGood : good block = true)
    (room : (replay start ops block).length < CONFIG_PAGE_NUM) (dollar : src 0 = 0x24) :
    (cfgNandWrite chip state (pageAt block (replay start ops block).length) src).1 = 0 ∧
      R (cfgNandWrite chip state (pageAt block (replay start ops block).length) src).2
        (ops ++ [.written block (pageArray chip src)]) := by
  have next := tracks.written tracked inStore isGood room dollar
  have log := tracks.hasLog next inStore isGood
  rw [replay_snoc_written] at log
  have read := log.reads (replay start ops block).length (pageArray chip src) (by simp)
  unfold cfgNandWrite
  rw [if_neg (pageAt_inside inStore room)]
  refine ⟨?_, next⟩
  dsimp only
  rw [read, verify, if_neg]
  rw [not_or, not_not, not_not]
  exact ⟨rfl, (sameBytes_iff _ _ _).mpr fun i below => (pageArray_apply below).symm⟩

theorem Tracks.write_bad (tracks : Tracks chip good start R) (tracked : R state ops) {block i : Nat}
    (src : Buffer) (inStore : block < CONFIG_BLOCK_NUM) (isBad : good block = false)
    (inBlock : i < CONFIG_PAGE_NUM) : R (cfgNandWrite chip state (pageAt block i) src).2 ops := by
  unfold cfgNandWrite
  rw [if_neg (pageAt_inside inStore inBlock)]
  exact tracks.writtenBad tracked inStore isBad inBlock

theorem writeFirst_succ (block : Nat) (src : Buffer) (left page : Nat) (state : δ) :
    writeFirst chip block src (left + 1) page state =
      if (cfgNandWrite chip state (pageAt block page) src).1 = 0 then
        (page, (cfgNandWrite chip state (pageAt block page) src).2)
      else writeFirst chip block src left (page + 1)
        (cfgNandWrite chip state (pageAt block page) src).2 := rfl

theorem writeFirst_cases {P : Nat → δ → Prop} {result : Int × δ} {page : Nat} {rest : Nat × δ}
    (taken : result.1 = 0 → P page result.2) (tried : result.1 ≠ 0 → P rest.1 rest.2) :
    P (if result.1 = 0 then (page, result.2) else rest).1
      (if result.1 = 0 then (page, result.2) else rest).2 := by
  by_cases written : result.1 = 0
  · rw [if_pos written]
    exact taken written
  · rw [if_neg written]
    exact tried written

theorem Tracks.writeFirst (tracks : Tracks chip good start R) (tracked : R state ops) {block n : Nat}
    {src : Buffer} (inStore : block < CONFIG_BLOCK_NUM) (isGood : good block = true)
    (size : (replay start ops block).length = n) (room : n < CONFIG_PAGE_NUM)
    (dollar : src 0 = 0x24) :
    (Config.writeFirst chip block src (CONFIG_PAGE_NUM - n) n state).1 = n ∧
      R (Config.writeFirst chip block src (CONFIG_PAGE_NUM - n) n state).2
        (ops ++ [.written block (pageArray chip src)]) := by
  subst size
  obtain ⟨written, next⟩ := tracks.write tracked inStore isGood room dollar
  obtain ⟨left, some⟩ := Nat.exists_eq_succ_of_ne_zero (Nat.sub_ne_zero_of_lt room)
  rw [some, writeFirst_succ]
  exact writeFirst_cases (P := fun j after => j = _ ∧ R after _) (fun _ => ⟨rfl, next⟩)
    fun failed => absurd written failed

theorem Tracks.writeFirst_bad (tracks : Tracks chip good start R) {block : Nat} (src : Buffer)
    (inStore : block < CONFIG_BLOCK_NUM) (isBad : good block = false) (left page : Nat)
    (inBlock : page + left ≤ CONFIG_PAGE_NUM) (tracked : R state ops) :
    (Config.writeFirst chip block src left page state).1 ≤ CONFIG_PAGE_NUM ∧
      R (Config.writeFirst chip block src left page state).2 ops := by
  induction left generalizing page state with
  | zero => exact ⟨inBlock, tracked⟩
  | succ left past =>
    have next := tracks.write_bad tracked src inStore isBad (show page < CONFIG_PAGE_NUM by omega)
    rw [writeFirst_succ]
    exact writeFirst_cases (P := fun j after => j ≤ CONFIG_PAGE_NUM ∧ R after ops)
      (fun _ => ⟨by omega, next⟩) fun _ => past (page + 1) (by omega) next

/-! ## Appending -/

theorem searchBlankPage_le (state : δ) (block : Nat) :
    searchBlankPage chip state block ≤ CONFIG_PAGE_NUM := by
  rw [searchBlankPage]
  generalize found : List.find? _ _ = last
  cases last with
  | none => exact Nat.zero_le _
  | some i =>
    have member := List.mem_of_find?_eq_some found
    rw [List.mem_reverse, List.mem_range] at member
    exact member

/-- The good blocks of a list. -/
abbrev goods (good : Nat → Bool) (blocks : List Nat) : List Nat := blocks.filter good

/-- The bad blocks of a list. -/
abbrev bads (good : Nat → Bool) (blocks : List Nat) : List Nat := blocks.filter fun b => !good b

theorem appendToBlocks_cons (src : Buffer) (i : Nat) (rest : List Nat) (failedFlag : Nat)
    (state : δ) : appendToBlocks chip src (i :: rest) failedFlag state =
      if searchBlankPage chip state i = CONFIG_PAGE_NUM then (-3, state)
      else appendToBlocks chip src rest
        (if (writeFirst chip i src (CONFIG_PAGE_NUM - searchBlankPage chip state i)
            (searchBlankPage chip state i) state).1 = CONFIG_PAGE_NUM then failedFlag + 1
          else failedFlag)
        (writeFirst chip i src (CONFIG_PAGE_NUM - searchBlankPage chip state i)
          (searchBlankPage chip state i) state).2 := rfl

/-- The loop of `WriteToFlash` appends to the good blocks, or stops at a full one. -/
theorem Tracks.appendToBlocks (tracks : Tracks chip good start R) {src : Buffer}
    (dollar : src 0 = 0x24) (blocks : List Nat) (failedFlag : Nat)
    (inStore : ∀ b ∈ blocks, b < CONFIG_BLOCK_NUM) (distinct : blocks.Nodup)
    (few : failedFlag + (bads good blocks).length ≤ 1) (tracked : R state ops) :
    ∃ done, done <+: goods good blocks ∧
      R (Config.appendToBlocks chip src blocks failedFlag state).2
        (ops ++ done.map (.written · (pageArray chip src))) ∧
      ((Config.appendToBlocks chip src blocks failedFlag state).1 = 0 ∧ done = goods good blocks ∨
        (Config.appendToBlocks chip src blocks failedFlag state).1 = -3) := by
  induction blocks generalizing failedFlag state ops with
  | nil =>
    have none : ¬ 1 < failedFlag := by
      have bound := (Nat.le_add_right _ _).trans few
      omega
    refine ⟨[], List.nil_prefix, ?_, .inl ⟨?_, rfl⟩⟩
    · rw [Config.appendToBlocks, if_neg none, List.map_nil, List.append_nil]
      exact tracked
    · rw [Config.appendToBlocks, if_neg none]
  | cons i rest past =>
    obtain ⟨fresh, distinct⟩ := List.nodup_cons.mp distinct
    have here := inStore i List.mem_cons_self
    have inStore : ∀ b ∈ rest, b < CONFIG_BLOCK_NUM :=
      fun b member => inStore b (List.mem_cons_of_mem _ member)
    rw [appendToBlocks_cons]
    by_cases full : searchBlankPage chip state i = CONFIG_PAGE_NUM
    · rw [if_pos full]
      refine ⟨[], List.nil_prefix, ?_, .inr rfl⟩
      rw [List.map_nil, List.append_nil]
      exact tracked
    · rw [if_neg full]
      cases isGood : good i with
      | true =>
        have log := tracks.hasLog tracked here isGood
        have blank := log.searchBlankPage_eq here
        have room : (replay start ops i).length < CONFIG_PAGE_NUM := by
          have fits := log.fits
          omega
        obtain ⟨page, next⟩ := tracks.writeFirst tracked here isGood rfl room dollar
        have few' : failedFlag + (bads good rest).length ≤ 1 := by
          simpa [bads, isGood] using few
        rw [blank, page, if_neg room.ne]
        obtain ⟨done, shorter, tracked', ends⟩ := past failedFlag inStore distinct few' next
        have front : goods good (i :: rest) = i :: goods good rest :=
          List.filter_cons_of_pos isGood
        refine ⟨i :: done, ?_, ?_, ?_⟩
        · rw [front]
          exact (List.prefix_cons_inj i).mpr shorter
        · rw [List.map_cons]
          rw [List.append_assoc] at tracked'
          exact tracked'
        · rw [front]
          exact ends.imp_left fun ends => ⟨ends.1, congrArg _ ends.2⟩
      | false =>
        have blank : searchBlankPage chip state i ≤ CONFIG_PAGE_NUM := searchBlankPage_le state i
        have next := tracks.writeFirst_bad src here isGood
          (CONFIG_PAGE_NUM - searchBlankPage chip state i) (searchBlankPage chip state i)
          (by omega) tracked
        have more : failedFlag + 1 + (bads good rest).length ≤ 1 := by
          have size : (bads good (i :: rest)).length = (bads good rest).length + 1 := by
            rw [bads, List.filter_cons_of_pos (by rw [isGood]; rfl), List.length_cons]
          omega
        have front : goods good (i :: rest) = goods good rest :=
          List.filter_cons_of_neg (by rw [isGood]; exact Bool.false_ne_true)
        rw [front]
        generalize Config.writeFirst chip i src (CONFIG_PAGE_NUM - searchBlankPage chip state i)
          (searchBlankPage chip state i) state = result at next ⊢
        refine past _ inStore distinct ?_ next.2
        split <;> omega

/-! ## Writing anew -/

/-- The records that are copied when a keyword is written. -/
def copied (chip : Chip δ) (found : Keywords) (index : Nat) (ids : List Nat) : List Buffer :=
  ids.filterMap fun i => if i = index then none else (found.entry i).map (pageArray chip)

theorem Tracks.copyRecord (tracks : Tracks chip good start R) {found : Keywords} {index : Nat}
    (marked : ∀ i record, i ≠ index → found.entry i = some record → record 0 = 0x24) {block n : Nat}
    (inStore : block < CONFIG_BLOCK_NUM) (isGood : good block = true)
    (size : (replay start ops block).length = n) (room : n < CONFIG_PAGE_NUM)
    (tracked : R state ops) (i : Nat) :
    ∃ pages, pages = copied chip found index [i] ∧
      (Config.copyRecord chip found index block (n, state) i).1 = n + pages.length ∧
      R (Config.copyRecord chip found index block (n, state) i).2
        (ops ++ pages.map (.written block)) := by
  refine ⟨_, rfl, ?_⟩
  unfold Config.copyRecord copied
  cases held : found.index i with
  | none =>
    have absent : found.entry i = none := by rw [Keywords.entry, held]; rfl
    have nothing : [i].filterMap (fun i =>
        if i = index then none else (found.entry i).map (pageArray chip)) = [] := by
      simp [absent]
    rw [nothing, List.map_nil, List.append_nil]
    exact ⟨rfl, tracked⟩
  | some page =>
    have entry : found.entry i = some (found.store page) := by rw [Keywords.entry, held]; rfl
    dsimp only
    by_cases own : i = index
    · have nothing : [i].filterMap (fun i =>
          if i = index then none else (found.entry i).map (pageArray chip)) = [] := by
        simp [own]
      rw [if_pos own, nothing, List.map_nil, List.append_nil]
      exact ⟨rfl, tracked⟩
    · have single : [i].filterMap (fun i =>
          if i = index then none else (found.entry i).map (pageArray chip)) =
            [pageArray chip (found.store page)] := by
        simp [own, entry]
      have first : ∀ j < PAGE_SIZE, memcpy zeros 0 (found.store page) 0 PAGE_SIZE j =
          found.store page j := by
        intro j below
        simp only [memcpy, Nat.zero_add, Nat.sub_zero, zero_le, true_and]
        exact if_pos below
      have dollar := (first 0 (by decide)).trans (marked i _ own entry)
      obtain ⟨at_, next⟩ := tracks.writeFirst tracked inStore isGood size room dollar
      rw [pageArray_congr first] at next
      rw [if_neg own, single, at_, if_neg room.ne]
      dsimp only
      exact ⟨rfl, next⟩

theorem Tracks.copyRecords (tracks : Tracks chip good start R) {found : Keywords} {index : Nat}
    (marked : ∀ i record, i ≠ index → found.entry i = some record → record 0 = 0x24) {block : Nat}
    (inStore : block < CONFIG_BLOCK_NUM) (isGood : good block = true) (ids : List Nat) {n : Nat}
    (size : (replay start ops block).length = n) (room : n + ids.length ≤ CONFIG_PAGE_NUM)
    (tracked : R state ops) :
    (ids.foldl (Config.copyRecord chip found index block) (n, state)).1 =
        n + (copied chip found index ids).length ∧
      R (ids.foldl (Config.copyRecord chip found index block) (n, state)).2
        (ops ++ (copied chip found index ids).map (.written block)) := by
  induction ids generalizing n state ops with
  | nil =>
    refine ⟨rfl, ?_⟩
    rw [copied, List.filterMap_nil, List.map_nil, List.append_nil]
    exact tracked
  | cons i rest past =>
    rw [List.length_cons] at room
    obtain ⟨pages, first, at_, next⟩ :=
      tracks.copyRecord marked inStore isGood size (by omega) tracked i
    have all : copied chip found index (i :: rest) = pages ++ copied chip found index rest := by
      rw [first, copied, copied, copied, ← List.filterMap_append]
      rfl
    have short : pages.length ≤ 1 := by
      rw [first]
      exact List.length_filterMap_le _ _
    rw [List.foldl_cons, all]
    generalize Config.copyRecord chip found index block (n, state) i = written at at_ next ⊢
    obtain ⟨j, state'⟩ := written
    dsimp only at at_ next
    subst at_
    have size' : (replay start (ops ++ pages.map (.written block)) block).length =
        n + pages.length := by
      rw [replay_append, replay_written, List.length_append, size]
    obtain ⟨last, final⟩ := past size' (by omega) next
    rw [List.length_append, List.map_append, ← List.append_assoc, ← Nat.add_assoc]
    exact ⟨last, final⟩

theorem Tracks.copyRecords_bad (tracks : Tracks chip good start R) (found : Keywords) (index : Nat)
    {block : Nat} (inStore : block < CONFIG_BLOCK_NUM) (isBad : good block = false)
    (ids : List Nat) {n : Nat} (inBlock : n ≤ CONFIG_PAGE_NUM) (tracked : R state ops) :
    (ids.foldl (Config.copyRecord chip found index block) (n, state)).1 ≤ CONFIG_PAGE_NUM ∧
      R (ids.foldl (Config.copyRecord chip found index block) (n, state)).2 ops := by
  induction ids generalizing n state with
  | nil => exact ⟨inBlock, tracked⟩
  | cons i rest past =>
    rw [List.foldl_cons]
    suffices step : (Config.copyRecord chip found index block (n, state) i).1 ≤ CONFIG_PAGE_NUM ∧
        R (Config.copyRecord chip found index block (n, state) i).2 ops from past step.1 step.2
    unfold Config.copyRecord
    cases found.index i with
    | none => exact ⟨inBlock, tracked⟩
    | some page =>
      dsimp only
      split
      · exact ⟨inBlock, tracked⟩
      · obtain ⟨bound, next⟩ := tracks.writeFirst_bad
          (memcpy zeros 0 (found.store page) 0 PAGE_SIZE) inStore isBad
          (CONFIG_PAGE_NUM - n) n (by omega) tracked
        refine ⟨?_, next⟩
        split <;> omega

/-- The operations that write a block anew. -/
def rewriteOps (pages : List Buffer) (block : Nat) : List Op :=
  .erased block :: pages.map (.written block)

theorem cfgNandErase_eq (state : δ) {block : Nat} (inStore : block < CONFIG_BLOCK_NUM) :
    cfgNandErase chip state (CONFIG_BASE_ADDR / BLOCK_SIZE + block) =
      chip.blkErase state (1 + block) := by
  have three : block < 3 := inStore
  rw [cfgNandErase, if_neg]
  · rfl
  · simp only [CONFIG_BASE_ADDR, CONFIG_END_ADDR, BLOCK_SIZE]
    omega

theorem Tracks.rewriteBlock (tracks : Tracks chip good start R) {found : Keywords} {index : Nat}
    {context : List Byte}
    (marked : ∀ i record, i ≠ index → found.entry i = some record → record 0 = 0x24)
    (dollar : recordIn zeros index context 0 = 0x24) {block : Nat}
    (inStore : block < CONFIG_BLOCK_NUM) (isGood : good block = true) (failedFlag : Nat)
    (tracked : R state ops) :
    (Config.rewriteBlock chip found index context (failedFlag, state) block).1 = failedFlag ∧
      R (Config.rewriteBlock chip found index context (failedFlag, state) block).2
        (ops ++ rewriteOps (copied chip found index (List.range MAX_INDEX) ++
          [pageArray chip (recordIn zeros index context)]) block) := by
  have erased := tracks.erased tracked inStore isGood
  have empty : (replay start (ops ++ [.erased block]) block).length = 0 := by
    rw [replay_append, replay_cons, Op.apply, replay_nil, Function.update_self]
    rfl
  obtain ⟨count, next⟩ := tracks.copyRecords marked inStore isGood
    (List.range MAX_INDEX) empty (by decide) erased
  rw [Nat.zero_add] at count
  have short : (copied chip found index (List.range MAX_INDEX)).length < CONFIG_PAGE_NUM :=
    (List.length_filterMap_le _ _).trans_lt (by decide)
  have size : (replay start (ops ++ [.erased block] ++
      (copied chip found index (List.range MAX_INDEX)).map (.written block)) block).length =
        (copied chip found index (List.range MAX_INDEX)).length := by
    rw [replay_append, replay_written, List.length_append, empty, Nat.zero_add]
  obtain ⟨at_, last⟩ := tracks.writeFirst next inStore isGood size short dollar
  unfold Config.rewriteBlock
  dsimp only
  rw [cfgNandErase_eq state inStore, count, at_, if_neg short.ne]
  refine ⟨rfl, ?_⟩
  rw [rewriteOps, List.map_append, List.append_cons ops, ← List.append_assoc]
  exact last

theorem Tracks.rewriteBlock_bad (tracks : Tracks chip good start R) (found : Keywords) (index : Nat)
    (context : List Byte) {block : Nat} (inStore : block < CONFIG_BLOCK_NUM)
    (isBad : good block = false) (failedFlag : Nat) (tracked : R state ops) :
    (Config.rewriteBlock chip found index context (failedFlag, state) block).1 ≤ failedFlag + 1 ∧
      R (Config.rewriteBlock chip found index context (failedFlag, state) block).2 ops := by
  have erased := tracks.erasedBad tracked inStore isBad
  obtain ⟨inBlock, next⟩ := tracks.copyRecords_bad found index inStore isBad
    (List.range MAX_INDEX) (Nat.zero_le CONFIG_PAGE_NUM) erased
  unfold Config.rewriteBlock
  dsimp only
  rw [cfgNandErase_eq state inStore]
  refine ⟨?_, (tracks.writeFirst_bad _ inStore isBad _ _ (by omega) next).2⟩
  split <;> omega

theorem Tracks.rewriteAll (tracks : Tracks chip good start R) {found : Keywords} {index : Nat}
    {context : List Byte}
    (marked : ∀ i record, i ≠ index → found.entry i = some record → record 0 = 0x24)
    (dollar : recordIn zeros index context 0 = 0x24) (blocks : List Nat) (failedFlag : Nat)
    (inStore : ∀ b ∈ blocks, b < CONFIG_BLOCK_NUM) (tracked : R state ops) :
    (blocks.foldl (Config.rewriteBlock chip found index context) (failedFlag, state)).1 ≤
        failedFlag + (bads good blocks).length ∧
      R (blocks.foldl (Config.rewriteBlock chip found index context) (failedFlag, state)).2
        (ops ++ (goods good blocks).flatMap (rewriteOps (copied chip found index
          (List.range MAX_INDEX) ++ [pageArray chip (recordIn zeros index context)]))) := by
  induction blocks generalizing failedFlag state ops with
  | nil =>
    refine ⟨Nat.le_add_right _ _, ?_⟩
    rw [goods, List.filter_nil, List.flatMap_nil, List.append_nil]
    exact tracked
  | cons block rest past =>
    have here := inStore block List.mem_cons_self
    have inStore : ∀ b ∈ rest, b < CONFIG_BLOCK_NUM :=
      fun b member => inStore b (List.mem_cons_of_mem _ member)
    rw [List.foldl_cons]
    cases isGood : good block with
    | true =>
      obtain ⟨same, next⟩ := tracks.rewriteBlock marked dollar here isGood failedFlag tracked
      have front : goods good (block :: rest) = block :: goods good rest :=
        List.filter_cons_of_pos isGood
      have others : bads good (block :: rest) = bads good rest :=
        List.filter_cons_of_neg (by rw [isGood]; exact Bool.false_ne_true)
      rw [front, others, List.flatMap_cons, ← List.append_assoc]
      have last := past (Config.rewriteBlock chip found index context (failedFlag, state) block).1
        inStore next
      rw [same] at last
      generalize Config.rewriteBlock chip found index context (failedFlag, state) block = written
        at same last
      obtain ⟨flag, state'⟩ := written
      dsimp only at same last
      rw [same]
      exact last
    | false =>
      obtain ⟨more, next⟩ := tracks.rewriteBlock_bad found index context here isGood failedFlag tracked
      have front : goods good (block :: rest) = goods good rest :=
        List.filter_cons_of_neg (by rw [isGood]; exact Bool.false_ne_true)
      have size : (bads good (block :: rest)).length = (bads good rest).length + 1 := by
        rw [bads, List.filter_cons_of_pos (by rw [isGood]; rfl), List.length_cons]
      rw [front]
      obtain ⟨bound, last⟩ := past (Config.rewriteBlock chip found index context
        (failedFlag, state) block).1 inStore next
      exact ⟨bound.trans (by omega), last⟩

theorem Tracks.eraseAll (tracks : Tracks chip good start R) (blocks : List Nat)
    (inStore : ∀ b ∈ blocks, b < CONFIG_BLOCK_NUM) (tracked : R state ops) :
    R (blocks.foldl (fun state j => cfgNandErase chip state (CONFIG_BASE_ADDR / BLOCK_SIZE + j))
      state) (ops ++ (goods good blocks).map .erased) := by
  induction blocks generalizing state ops with
  | nil =>
    rw [goods, List.filter_nil, List.map_nil, List.append_nil]
    exact tracked
  | cons block rest past =>
    have here := inStore block List.mem_cons_self
    have inStore : ∀ b ∈ rest, b < CONFIG_BLOCK_NUM :=
      fun b member => inStore b (List.mem_cons_of_mem _ member)
    rw [List.foldl_cons, cfgNandErase_eq state here]
    cases isGood : good block with
    | true =>
      have front : goods good (block :: rest) = block :: goods good rest :=
        List.filter_cons_of_pos isGood
      rw [front, List.map_cons, List.append_cons]
      exact past inStore (tracks.erased tracked here isGood)
    | false =>
      have front : goods good (block :: rest) = goods good rest :=
        List.filter_cons_of_neg (by rw [isGood]; exact Bool.false_ne_true)
      rw [front]
      exact past inStore (tracks.erasedBad tracked here isGood)

end PosFirmware.Config
