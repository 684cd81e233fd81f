import PosFirmware.Flash.MapPersistence

/-! # Which map is loaded

`sReMapBlock` leaves the current map in the highest marked block of the map
blocks (`sReMapBlock_topHolds`), and nothing else is written there, so every
call leaves it there (`powered_current`). The boot searches all reserve blocks,
though, and takes a block of user data that is marked and hashed for a map
(`selectMapBlock_userData`): the current map is loaded exactly when no such
block is in the way (`powered_loads_iff`).
-/

namespace PosFirmware.Flash

open PosFirmware.Foundation

variable {δ : Type} (chip : Chip δ)

/-- No map block above one is marked. -/
def ClearAbove (block : Nat) (state : δ) : Prop :=
  ∀ other ∈ mapBlocks, block < other → ¬ hasMagic chip (booted state) other

/-- The highest marked map block holds the table. -/
def TopHolds (nand : Nand δ) : Prop :=
  ∃ top ∈ mapBlocks, HoldsMap chip (booted nand.chip) top nand.blockMap ∧
    ClearAbove chip top nand.chip

/-- Two states with the same pages in the map blocks. -/
def SameMaps (state state' : δ) : Prop := ∀ block ∈ mapBlocks, SameBlock chip state state' block

variable {chip}

theorem booted_hasMagic {state state' : δ} {block : Nat} (same : SameBlock chip state state' block) :
    hasMagic chip (booted state) block = hasMagic chip (booted state') block :=
  (@hasMagic_congr _ _ (booted state) (booted state')) same (booted_log _ _ _)

theorem booted_holds {state state' : δ} {block : Nat} {blockMap : Nat → Ushort}
    (holds : HoldsMap chip (booted state) block blockMap) (same : SameBlock chip state state' block) :
    HoldsMap chip (booted state') block blockMap :=
  (@HoldsMap.congr _ _ (booted state) (booted state')) holds same (booted_log _ _ _)

/-- The top copy stays where it is while the map blocks and the table are the
same. -/
theorem TopHolds.congr {nand nand' : Nand δ} (top : TopHolds chip nand)
    (same : SameMaps chip nand.chip nand'.chip)
    (table : ∀ i < MAP_ENTRIES, nand'.blockMap i = nand.blockMap i) : TopHolds chip nand' := by
  obtain ⟨block, inMap, holds, clear⟩ := top
  have moved := booted_holds holds (same block inMap)
  refine ⟨block, inMap, ⟨moved.marked, moved.hashed, fun i below => ?_⟩, fun other inMap' above marked => ?_⟩
  · rw [moved.table i below, table i below]
  · refine clear other inMap' above ?_
    rwa [booted_hasMagic (same other inMap')]

/-! ## Saving the map leaves it on top -/

section Saving

variable {blockMap : Nat → Ushort}

/-- The table being saved is loaded, no map block above one is marked, and
something is known of that block. -/
structure Saving (chip : Chip δ) (blockMap : Nat → Ushort) (block : Nat) (nand : Nand δ) : Prop where
  loaded : nand.blockMap = blockMap
  clear : ClearAbove chip block nand.chip

/-- A block that holds the map and has no marked block above it. -/
def OnTop (chip : Chip δ) (blockMap : Nat → Ushort) (block : Nat) (nand : Nand δ) : Prop :=
  Saving chip blockMap block nand ∧ HoldsMap chip (booted nand.chip) block blockMap

theorem Saving.mono {block block' : Nat} {nand : Nand δ} (saving : Saving chip blockMap block nand)
    (above : block ≤ block') : Saving chip blockMap block' nand :=
  ⟨saving.loaded, fun other inMap higher => saving.clear other inMap (above.trans_lt higher)⟩

theorem OnTop.topHolds {block : Nat} {nand : Nand δ} (onTop : OnTop chip blockMap block nand)
    (inMap : block ∈ mapBlocks) : TopHolds chip nand :=
  ⟨block, inMap, onTop.1.loaded ▸ onTop.2, onTop.1.clear⟩

theorem Saving.congr {block : Nat} {nand nand' : Nand δ} (saving : Saving chip blockMap block nand)
    (table : nand'.blockMap = nand.blockMap)
    (same : ∀ other, block < other → SameBlock chip nand'.chip nand.chip other) :
    Saving chip blockMap block nand' where
  loaded := table.trans saving.loaded
  clear other inMap above marked := by
    refine saving.clear other inMap above ?_
    rwa [← booted_hasMagic (same other above)]

theorem Saving.erase (framed : chip.Framed) {block target : Nat} {nand : Nand δ}
    (saving : Saving chip blockMap block nand) (below : target ≤ block) :
    Saving chip blockMap block (sNandErase chip nand target).2 :=
  saving.congr (sNandErase_blockMap chip nand target) fun _ above =>
    sNandErase_other framed nand (below.trans_lt above).ne'

theorem Saving.write (framed : chip.Framed) {block target : Nat} {nand : Nand δ}
    (saving : Saving chip blockMap block nand) (below : target ≤ block) :
    Saving chip blockMap block (sWriteMapBlock chip nand target).2 :=
  saving.congr (sWriteMapBlock_blockMap chip nand target) fun _ above =>
    sWriteMapBlock_other framed nand (below.trans_lt above).ne'

theorem OnTop.erase (framed : chip.Framed) {block target : Nat} {nand : Nand δ}
    (onTop : OnTop chip blockMap block nand) (below : target < block) :
    OnTop chip blockMap block (sNandErase chip nand target).2 :=
  ⟨onTop.1.erase framed below.le,
    booted_holds onTop.2 (sNandErase_other framed nand below.ne').symm⟩

theorem OnTop.write (framed : chip.Framed) {block target : Nat} {nand : Nand δ}
    (onTop : OnTop chip blockMap block nand) (below : target < block) :
    OnTop chip blockMap block (sWriteMapBlock chip nand target).2 :=
  ⟨onTop.1.write framed below.le,
    booted_holds onTop.2 (sWriteMapBlock_other framed nand below.ne').symm⟩

theorem writeStep_onTop (framed : chip.Framed) (outside : LogOutside blockMap) {block : Nat}
    (inMap : block ∈ mapBlocks) : Triple (Saving chip blockMap block)
      (Prog.step fun nand => sWriteMapBlock chip nand block)
      (fun ret nand => Saving chip blockMap block nand ∧
        (ret = NAND_RET_OK → OnTop chip blockMap block nand)) fun _ => True := by
  refine Triple.step_named fun nand ret written run saving => ?_
  have after := (@Saving.write _ _ _ framed _ block) saving le_rfl
  have copied := (@sWriteMapBlock_holds _ chip nand block)
  rw [run] at after copied
  rw [saving.loaded] at copied
  refine ⟨after, fun ok => ⟨after, (@HoldsMap.congr _ _ _ (booted _)) (copied ok) (fun _ _ => rfl) ?_⟩⟩
  rw [after.loaded]
  exact outside.booted inMap _

theorem eraseStep_saving (framed : chip.Framed) {block target : Nat} (below : target ≤ block) :
    Triple (Saving chip blockMap block) (Prog.step fun nand => sNandErase chip nand target)
      (fun _ => Saving chip blockMap block) fun _ => True :=
  Triple.step fun _ saving => saving.erase framed below

theorem eraseAndWriteMap_onTop (framed : chip.Framed) (outside : LogOutside blockMap) {block : Nat}
    (inMap : block ∈ mapBlocks) : Triple (Saving chip blockMap block) (eraseAndWriteMap chip block)
      (fun result nand => match result with
        | some _ => OnTop chip blockMap block nand
        | none => Saving chip blockMap block nand) fun _ => True := by
  unfold eraseAndWriteMap
  refine (Triple.firstM (fun _ => OnTop chip blockMap block) (fun _ => True)
    (fun _ => Saving chip blockMap block) (fun _ _ => ?_) _).mono (fun _ holds => holds)
    (fun result _ holds => by cases result <;> exact holds) fun _ holds => holds
  refine Triple.bind (eraseStep_saving framed le_rfl) fun _ =>
    Triple.bind (writeStep_onTop framed outside inMap) fun ret => Triple.pure fun nand holds => ?_
  by_cases ok : ret = NAND_RET_OK
  · simp only [if_pos ok]
    exact holds.2 ok
  · simp only [if_neg ok]
    exact holds.1

/-- What the try of block `i` leaves: it takes the map, or can be left. -/
def Tried (chip : Chip δ) (blockMap : Nat → Ushort) (i : Nat) : Option Nat → Nand δ → Prop
  | some j => fun nand => j = i ∧ OnTop chip blockMap i nand
  | none => Saving chip blockMap i

/-- What a search from the block `first` on leaves. -/
def Searched (chip : Chip δ) (blockMap : Nat → Ushort) (first : Nat) :
    Option Nat → Nand δ → Prop
  | some i => fun nand => (first ≤ i ∧ i ∈ mapBlocks) ∧ OnTop chip blockMap i nand
  | none => fun _ => True

/-- Blocks tried upwards until one takes the map: the one that does has no marked
block above it. -/
theorem searchUp_onTop {body : Nat → Prog (Nand δ) (Option Nat)}
    (each : ∀ i ∈ mapBlocks,
      Triple (Saving chip blockMap i) (body i) (Tried chip blockMap i) fun _ => True)
    {first : Nat} (above : FS_BLOCK_NUM + DATA_START_NUM ≤ first) :
    Triple (Saving chip blockMap first)
      (Prog.firstM body (List.range' first (MAP_BLOCK_MAX - first)))
      (Searched chip blockMap first) fun _ => True := by
  refine (Triple.firstM (fun i nand => (first ≤ i ∧ i ∈ mapBlocks) ∧ OnTop chip blockMap i nand)
    (fun _ => True)
    (fun indices nand => (indices.Pairwise (· < ·) ∧
      ∀ i ∈ indices, first ≤ i ∧ i < MAP_BLOCK_MAX) ∧
      ∀ i ∈ indices.head?, Saving chip blockMap i nand)
    (fun i rest => Triple.of_fact fun facts => ?_) _).mono
    (fun nand saving => ⟨⟨List.pairwise_lt_range', fun i member => ?_⟩, fun i isFirst => ?_⟩)
    (fun result nand holds => ?_) fun _ holds => holds
  · obtain ⟨order, bounds⟩ := facts
    obtain ⟨from_, below⟩ := bounds i List.mem_cons_self
    have inMap : i ∈ mapBlocks := ⟨above.trans from_, below⟩
    refine (each i inMap).mono (fun _ holds => holds i rfl) (fun result nand holds => ?_)
      fun _ holds => holds
    cases result with
    | some j => exact ⟨⟨holds.1 ▸ from_, holds.1 ▸ inMap⟩, holds.1 ▸ holds.2⟩
    | none =>
        refine ⟨⟨order.of_cons, fun j member => bounds j (List.mem_cons_of_mem _ member)⟩,
          fun j isNext => ?_⟩
        have later := List.rel_of_pairwise_cons order (List.mem_of_mem_head? isNext)
        exact Saving.mono holds later.le
  · rw [List.mem_range'_1] at member
    omega
  · rw [List.head?_range'] at isFirst
    split at isFirst
    · cases isFirst
    · exact Option.some.inj isFirst ▸ saving
  · cases result with
    | some i => exact holds
    | none => trivial

theorem writeMapFrom_onTop (framed : chip.Framed) (outside : LogOutside blockMap) {first : Nat}
    (above : FS_BLOCK_NUM + DATA_START_NUM ≤ first) :
    Triple (Saving chip blockMap first) (writeMapFrom chip first) (Searched chip blockMap first)
      fun _ => True := by
  refine searchUp_onTop (fun i inMap => ?_) above
  refine Triple.bind (eraseAndWriteMap_onTop framed outside inMap) fun result => ?_
  cases result with
  | some _ => exact Triple.pure fun nand onTop => ⟨rfl, onTop⟩
  | none =>
      exact Triple.bind (eraseStep_saving framed le_rfl) fun _ => Triple.pure fun _ saving => saving

theorem writeAfter_topHolds (framed : chip.Framed) (outside : LogOutside blockMap) {first : Nat}
    (above : FS_BLOCK_NUM + DATA_START_NUM ≤ first) {target : Nat} (below : target ≤ first) :
    Triple (Saving chip blockMap first) (do
      let _ ← Prog.step fun nand => sNandErase chip nand target
      match ← writeMapFrom chip first with
      | some _ => pure NAND_RET_OK
      | none => Prog.halt) (fun _ => TopHolds chip) fun _ => True := by
  refine Triple.bind (eraseStep_saving framed below) fun _ =>
    Triple.bind (writeMapFrom_onTop framed outside above) fun result => ?_
  cases result with
  | some i => exact Triple.pure fun nand holds => holds.2.topHolds holds.1.2
  | none => exact Triple.halt fun _ _ => trivial

theorem rewriteMapBlock_topHolds (framed : chip.Framed) (outside : LogOutside blockMap)
    {step2 block : Nat} (inMap : step2 ∈ mapBlocks) (order : block < step2) :
    Triple (OnTop chip blockMap step2) (rewriteMapBlock chip step2 block)
      (fun _ => TopHolds chip) fun _ => True := by
  unfold rewriteMapBlock
  refine Triple.bind (eraseAndWriteMap_keeps (fun nand onTop => onTop.erase framed order)
    fun nand onTop => onTop.write framed order).triple fun result => ?_
  cases result with
  | some _ => exact Triple.pure fun nand onTop => onTop.topHolds inMap
  | none =>
      exact (writeAfter_topHolds framed outside (inMap.1.trans (Nat.le_succ _))
        (order.le.trans (Nat.le_succ _))).mono (fun nand onTop => onTop.1.mono (Nat.le_succ _))
        (fun _ _ holds => holds) fun _ holds => holds

theorem rewriteMapBlock_only (framed : chip.Framed) (outside : LogOutside blockMap) {block : Nat}
    (inMap : block ∈ mapBlocks) :
    Triple (Saving chip blockMap block) (rewriteMapBlock chip (block + 1) block)
      (fun _ => TopHolds chip) fun _ => True := by
  unfold rewriteMapBlock
  refine Triple.bind (eraseAndWriteMap_onTop framed outside inMap) fun result => ?_
  cases result with
  | some _ => exact Triple.pure fun nand onTop => onTop.topHolds inMap
  | none =>
      exact (writeAfter_topHolds framed outside (inMap.1.trans (by omega)) (by omega)).mono
        (fun nand saving => saving.mono (by omega)) (fun _ _ holds => holds) fun _ holds => holds

theorem saving_of_found {nand : Nand δ} (outside : LogOutside nand.blockMap) {blockA : Nat}
    {rest : List Nat}
    (found : searchMapBlocks chip nand (MAP_BLOCK_MAX - 1) = blockA :: rest) :
    Saving chip nand.blockMap blockA nand := by
  have spec := (@searchMapBlocks_spec _ chip) nand (MAP_BLOCK_MAX - 1)
  rw [found] at spec
  refine ⟨rfl, fun other inMap above marked => ?_⟩
  have live : hasMagic chip nand other := by
    rwa [(@hasMagic_congr _ _ nand (booted nand.chip)) (fun _ _ => rfl)
      (outside.booted inMap _)]
  have higher : ∀ block ∈ blockA :: rest, block < other := fun block member => by
    rcases List.mem_cons.mp member with rfl | member
    · exact above
    · exact (List.rel_of_pairwise_cons spec.order member).trans above
  rcases spec.first other inMap.1 (Nat.le_pred_of_lt inMap.2) live with member | ⟨_, below⟩
  · exact (higher other member).false
  · exact (below blockA List.mem_cons_self).asymm above

/-- Saving the map leaves it in the highest marked map block, whatever was marked
before. -/
theorem sReMapBlock_topHolds (framed : chip.Framed) :
    Triple (fun nand => LogOutside nand.blockMap) (sReMapBlock chip) (fun _ => TopHolds chip)
      fun _ => True := by
  intro nand outside
  have spec := (@searchMapBlocks_spec _ chip) nand (MAP_BLOCK_MAX - 1)
  have inMap : ∀ block ∈ searchMapBlocks chip nand (MAP_BLOCK_MAX - 1), block ∈ mapBlocks :=
    fun block member => ⟨(spec.member block member).1,
      Nat.lt_of_le_pred (by decide) (spec.member block member).2.1⟩
  have few := spec.few
  have order := spec.order
  match found : searchMapBlocks chip nand (MAP_BLOCK_MAX - 1) with
  | [] =>
      rw [sReMapBlock, Prog.bind_of_some (Prog.read_run _ nand), found]
      trivial
  | [blockA] =>
      rw [found] at inMap
      rw [sReMapBlock_one found]
      have inMapA := inMap blockA (by simp)
      have saving := saving_of_found outside found
      by_cases last : MAP_BLOCK_MAX ≤ blockA + 1
      · -- no block is left after the only one marked
        have none : writeMapFrom chip (blockA + 1) nand = (some none, nand) := by
          rw [writeMapFrom, Nat.sub_eq_zero_of_le last]
          rfl
        have after : writeMapAfter chip blockA nand = (some (blockA + 1), nand) := by
          rw [writeMapAfter, Prog.bind_of_some none]
          dsimp only
          rw [if_neg (not_lt.mpr last)]
          rfl
        rw [Prog.bind_of_some after]
        exact rewriteMapBlock_only framed outside inMapA nand saving
      · refine (@Triple.bind _ _ _ (Saving chip nand.blockMap (blockA + 1))) (m := fun i nand' =>
          (blockA < i ∧ i ∈ mapBlocks) ∧ OnTop chip nand.blockMap i nand') ?_ (fun i =>
            Triple.of_fact fun facts => rewriteMapBlock_topHolds framed outside facts.2 facts.1)
          nand (saving.mono (Nat.le_succ _))
        unfold writeMapAfter
        refine Triple.bind (writeMapFrom_onTop framed outside (inMapA.1.trans (Nat.le_succ _)))
          fun result => ?_
        cases result with
        | some i => exact Triple.pure fun _ holds => holds
        | none => exact Triple.ite (fun _ => Triple.halt fun _ _ => trivial) fun past =>
            absurd (not_le.mp last) past
  | [blockA, blockB] =>
      rw [found] at inMap order
      rw [sReMapBlock_two found]
      have below : blockB < blockA := List.rel_of_pairwise_cons order List.mem_cons_self
      refine Triple.bind (writeMapFrom_onTop framed outside (inMap blockA (by simp)).1)
        (fun result => ?_) nand (saving_of_found outside found)
      cases result with
      | some step2 =>
          exact Triple.of_fact fun facts =>
            rewriteMapBlock_topHolds framed outside facts.2 (below.trans_le facts.1)
      | none => exact Triple.halt fun _ _ => trivial
  | blockA :: blockB :: blockC :: rest =>
      rw [found] at few
      simp at few

end Saving

/-! ## Calls of the file system -/

/-- The table meets the invariant, and the highest marked map block holds it. -/
structure Current (chip : Chip δ) (nand : Nand δ) : Prop where
  mapped : Mapped nand
  top : TopHolds chip nand

theorem Storable.not_mem_mapBlocks {phyBlock : Nat} (storable : Storable phyBlock) :
    phyBlock ∉ mapBlocks := by
  rintro ⟨above, below⟩
  rcases storable with ⟨_, inData⟩ | ⟨reserve, _⟩
  · exact absurd inData (not_lt.mpr (by rwa [Nat.add_comm]))
  · exact absurd below (not_lt.mpr reserve)

theorem MapInv.logOutside {blockMap : Nat → Ushort} (inv : MapInv blockMap dataArea) :
    LogOutside blockMap :=
  (inv.storable _ ⟨by decide, by decide⟩).not_mem_mapBlocks

theorem Current.congr {nand nand' : Nand δ} (current : Current chip nand) {block : Nat}
    (outside : block ∉ mapBlocks) (table : nand'.blockMap = nand.blockMap)
    (same : ∀ other, other ≠ block → SameBlock chip nand'.chip nand.chip other) :
    Current chip nand' where
  mapped := by
    rw [Mapped, OnMap, table]
    exact current.mapped
  top := current.top.congr (fun other inMap => (same other fun is => outside (is ▸ inMap)).symm)
    fun _ _ => by rw [table]

theorem sReMapBlock_current (framed : chip.Framed) :
    Triple Mapped (sReMapBlock chip) (fun _ => Current chip) fun _ => True :=
  ((sReMapBlock_keepsMap chip _).and ((sReMapBlock_topHolds framed).mono
    (fun nand (mapped : Mapped nand) => MapInv.logOutside mapped) (fun _ _ holds => holds) fun _ holds => holds)).mono
    (fun _ mapped => mapped) (fun _ _ both => ⟨both.1, both.2⟩) fun _ _ => trivial

theorem sWriteRead_current (framed : chip.Framed) {logicBlock : Nat} (inData : logicBlock ∈ dataArea)
    {offset dataLen : Nat} (inside : offset + dataLen ≤ BLOCK_SIZE) (data : Buffer) :
    Triple (Current chip) (sWriteRead chip logicBlock offset data dataLen)
      (fun _ => Current chip) fun _ => True := by
  unfold sWriteRead
  refine Triple.ite (fun _ => Triple.halt fun _ _ => trivial) fun _ => ?_
  refine Triple.bind (m := fun old nand => Current chip nand ∧
    (nand.blockMap logicBlock).toNat = old) (Triple.read fun nand start => ⟨start, rfl⟩) fun old => ?_
  refine Triple.bind (m := fun _ nand => Current chip nand ∧
    (nand.blockMap logicBlock).toNat = old) (Triple.step_named fun nand ret written run holds => ?_)
    fun _ => Triple.bind (Keeps.read _).triple fun result => ?_
  · obtain ⟨current, rfl⟩ := holds
    have table := sNandWrite_blockMap chip nand
      ((nand.blockMap logicBlock).toNat * BLOCK_SIZE + offset) data dataLen
    have others := fun other away =>
      (@sNandWrite_other _ _ framed nand (nand.blockMap logicBlock).toNat _ _ other) data inside away
    rw [run] at table others
    exact ⟨current.congr (current.mapped.storable _ inData).not_mem_mapBlocks table others,
      by rw [table]⟩
  refine Triple.ite (fun _ => Triple.pure fun _ holds => holds.1) fun _ => ?_
  refine Triple.bind (Keeps.read _).triple fun contents => ?_
  refine Triple.bind (m := fun _ => OnMap (Replaced logicBlock old))
    ((retry_finds ((searches_replaced inData
      (copyToBlock_keepsMap chip contents.1 contents.2)).searchBlock chip) 2).mono
      (fun nand holds => holds.2 ▸ holds.1.mapped.replacing inData) (fun _ _ holds => holds)
      fun _ holds => holds) fun _ => ?_
  exact Triple.bind (m := fun _ => Mapped)
    (Triple.modify fun nand holds => holds.giveBack _) fun _ =>
    Triple.bind (sReMapBlock_current framed) fun _ => Triple.pure fun _ holds => holds

theorem nandEraseBlock_current (framed : chip.Framed) {i : Nat} (inData : i ∈ dataArea) :
    Triple (Current chip) (nandEraseBlock chip i) (fun _ => Current chip) fun _ => True := by
  unfold nandEraseBlock
  refine Triple.bind (m := fun old nand => Current chip nand ∧ (nand.blockMap i).toNat = old)
    (Triple.read fun nand start => ⟨start, rfl⟩) fun old => ?_
  refine Triple.ite (fun _ => Triple.halt fun _ _ => trivial) fun _ => ?_
  refine Triple.bind (eraseTries_keeps fun nand holds => ?_).triple fun erased => ?_
  · obtain ⟨current, rfl⟩ := holds
    have table := sNandErase_blockMap chip nand (nand.blockMap i).toNat
    exact ⟨current.congr (current.mapped.storable _ inData).not_mem_mapBlocks table
      fun other away => sNandErase_other framed nand away, by rw [table]⟩
  cases erased with
  | some _ => exact Triple.pure fun _ holds => holds.1
  | none =>
      refine Triple.bind (m := fun _ => OnMap (Replacing i old))
        (Triple.modify fun nand holds =>
          (holds.2 ▸ holds.1.mapped.replacing inData).markOld) fun _ => ?_
      unfold sNandExchangeBlock
      refine Triple.bind (Triple.bind
        (retry_finds (searches_replaced inData (eraseIdle_keepsMap chip)).searchReserve 2)
        fun _ => (sReMapBlock_current framed).mono (fun _ holds => holds.inv)
          (fun _ _ holds => holds) fun _ holds => holds) fun _ => Triple.pure fun _ holds => holds

theorem NandCall.run_current (framed : chip.Framed) {call : NandCall}
    (inData : FAT1_ADDR ≤ call.offset) :
    Triple (Current chip) (call.run chip) (fun _ => Current chip) fun _ => True := by
  cases call with
  | write offset data dataLen =>
      exact nandWrite_each chip data dataLen inData fun i inside offset part dataLen fits =>
        sWriteRead_current framed inside fits part
  | erase offset size =>
      exact nandErase_each chip size inData fun i inside => nandEraseBlock_current framed inside

/-! ## Creating the table -/

theorem sNandErase_booted (nand : Nand δ) (block : Nat) :
    (sNandErase chip (booted nand.chip) block).2 =
      booted (sNandErase chip nand block).2.chip := by
  unfold sNandErase
  split_ifs <;> rfl

theorem eraseReserve_unmarked (framed : chip.Framed) (erases : chip.ErasesMarks)
    (blocks : List Nat) (nand : Nand δ) : ∀ block ∈ mapBlocks,
    block ∈ blocks ∨ ¬ hasMagic chip (booted nand.chip) block →
      ¬ hasMagic chip (booted (blocks.foldl (fun nand i => (sNandErase chip nand i).2) nand).chip)
        block := by
  induction blocks generalizing nand with
  | nil =>
      rintro block _ (member | unmarked)
      · simp at member
      · exact unmarked
  | cons i rest ih =>
      intro block inMap start
      refine ih _ block inMap ?_
      by_cases this : block = i
      · subst this
        right
        rw [← sNandErase_booted]
        exact erases _ block inMap
      · rcases start with member | unmarked
        · exact .inl ((List.mem_cons.mp member).resolve_left this)
        · right
          rwa [booted_hasMagic (sNandErase_other framed nand this)]

theorem createMapCopy_onTop (framed : chip.Framed) {blockMap : Nat → Ushort}
    (outside : LogOutside blockMap) {first : Nat} (above : FS_BLOCK_NUM + DATA_START_NUM ≤ first) :
    Triple (Saving chip blockMap first) (createMapCopy chip first) (Searched chip blockMap first)
      fun _ => True := by
  refine searchUp_onTop (fun i inMap => ?_) above
  refine (Triple.firstM (fun j nand => j = i ∧ OnTop chip blockMap i nand) (fun _ => True)
    (fun _ => Saving chip blockMap i) (fun _ _ => ?_) _).mono (fun _ holds => holds)
    (fun result _ holds => by cases result <;> exact holds) fun _ holds => holds
  refine Triple.bind (writeStep_onTop framed outside inMap) fun ret =>
    Triple.ite (fun ok => Triple.pure fun nand both => ⟨rfl, both.2 ok⟩) fun _ =>
      Triple.bind ((eraseStep_saving framed le_rfl).mono (fun _ both => both.1)
        (fun _ _ holds => holds) fun _ holds => holds) fun _ => Triple.pure fun _ saving => saving

theorem sCreateBlockMapTable_current (framed : chip.Framed) (erases : chip.ErasesMarks) :
    Triple (fun _ => True) (sCreateBlockMapTable chip) (fun _ => Current chip) fun _ => True := by
  have outside : LogOutside freshMap := freshMap_mapped.logOutside
  refine ((@Triple.and _ _ _ _ _ _ (fun _ => TopHolds chip) fun _ => True)
    (sCreateBlockMapTable_mapped chip) ?_).mono (fun _ start => start) (fun _ _ both => ⟨both.1, both.2⟩)
    fun _ _ => trivial
  unfold sCreateBlockMapTable
  refine Triple.bind (m := fun _ => Saving chip freshMap (FS_BLOCK_NUM + DATA_START_NUM))
    (Triple.modify fun nand _ => ⟨rfl, fun other inMap _ => ?_⟩) fun _ =>
    Triple.bind (createMapCopy_onTop framed outside le_rfl) fun result => ?_
  · refine eraseReserve_unmarked framed erases _ nand other inMap (.inl ?_)
    refine List.mem_range'_1.mpr ⟨inMap.1, inMap.2.trans_le ?_⟩
    decide
  cases result with
  | none => exact Triple.halt fun _ _ => trivial
  | some i =>
      refine Triple.ite (fun _ => Triple.halt fun _ _ => trivial) fun _ => Triple.of_fact fun facts => ?_
      refine Triple.bind ((createMapCopy_onTop framed outside (facts.2.1.trans (Nat.le_succ i))).mono
        (fun nand onTop => onTop.1.mono (Nat.le_succ i)) (fun _ _ holds => holds)
        fun _ holds => holds) fun other => ?_
      cases other with
      | none => exact Triple.halt fun _ _ => trivial
      | some j => exact Triple.pure fun nand holds => holds.2.topHolds holds.1.2

/-! ## The next boot -/

/-- The boot selects a map block, and it holds the current map. -/
def LoadsCurrent (chip : Chip δ) (nand : Nand δ) : Prop :=
  ∃ block ∈ mapBlocks, selectMapBlock chip (booted nand.chip) = some block ∧
    HoldsMap chip (booted nand.chip) block nand.blockMap

/-- A reserve block for user data that carries the mark of a map copy. -/
structure Decoy (chip : Chip δ) (state : δ) (block : Nat) : Prop where
  above : MAP_BLOCK_MAX ≤ block
  below : block < DATA_START_NUM + DATA_BLOCK_NUM
  marked : hasMagic chip (booted state) block

theorem Decoy.le_last {state : δ} {block : Nat} (decoy : Decoy chip state block) :
    block ≤ DATA_BLOCK_NUM + DATA_START_NUM - 1 := by
  have below := decoy.below
  omega

/-- No reserve block for user data carries the mark, or a single one whose hash
is wrong. -/
def Harmless (chip : Chip δ) (state : δ) : Prop :=
  (∀ block, ¬ Decoy chip state block) ∨
    ∃ only, Decoy chip state only ∧ (∀ block, Decoy chip state block → block = only) ∧
      ¬ mapHashOk chip (mapCopy chip (booted state) only)

theorem marked_cases {state : δ} {block : Nat} (above : FS_BLOCK_NUM + DATA_START_NUM ≤ block)
    (below : block ≤ DATA_BLOCK_NUM + DATA_START_NUM - 1)
    (marked : hasMagic chip (booted state) block) : block ∈ mapBlocks ∨ Decoy chip state block := by
  by_cases user : MAP_BLOCK_MAX ≤ block
  · refine .inr ⟨user, ?_, marked⟩
    have positive : 0 < DATA_BLOCK_NUM := by decide
    omega
  · exact .inl ⟨above, not_le.mp user⟩

theorem Harmless.loads {nand : Nand δ} (harmless : Harmless chip nand.chip)
    (current : TopHolds chip nand) : LoadsCurrent chip nand := by
  obtain ⟨top, inMap, holds, clear⟩ := current
  refine ⟨top, inMap, ?_, holds⟩
  have spec := (@searchMapBlocks_spec _ chip) (booted nand.chip)
    (DATA_BLOCK_NUM + DATA_START_NUM - 1)
  have inReserve : top ≤ DATA_BLOCK_NUM + DATA_START_NUM - 1 :=
    le_trans (Nat.le_of_lt inMap.2) (by decide)
  unfold selectMapBlock
  generalize searchMapBlocks chip (booted nand.chip) (DATA_BLOCK_NUM + DATA_START_NUM - 1) =
    found at spec ⊢
  have order := spec.order
  have decoy : ∀ block ∈ found, top < block → Decoy chip nand.chip block := fun block member above => by
    obtain ⟨from_, below, marked⟩ := spec.member block member
    exact (marked_cases from_ below marked).resolve_left fun other => clear block other above marked
  have placed := spec.first top inMap.1 inReserve holds.marked
  rcases harmless with none | ⟨only, isDecoy, unique, wrong⟩
  · -- nothing marked lies above the current copy
    match found, placed with
    | blockA :: rest, .inl member =>
        rcases List.mem_cons.mp member with rfl | later
        · exact selectCopy_first rest holds.hashed
        · exact absurd (decoy blockA List.mem_cons_self (List.rel_of_pairwise_cons order later))
            (none blockA)
    | blockA :: rest, .inr ⟨_, higher⟩ =>
        exact absurd (decoy blockA List.mem_cons_self (higher blockA List.mem_cons_self)) (none blockA)
  · -- the only block above it is the one whose hash is wrong
    have above : top < only := inMap.2.trans_le isDecoy.above
    have onlyAbove : ∀ block ∈ found, top < block → block = only :=
      fun block member higher => unique block (decoy block member higher)
    have first : only ∈ found := by
      rcases spec.first only (inMap.1.trans above.le) isDecoy.le_last isDecoy.marked with
        member | ⟨_, higher⟩
      · exact member
      · match found, placed with
        | blockA :: rest, _ =>
            have up := higher blockA List.mem_cons_self
            exact absurd (onlyAbove blockA List.mem_cons_self (above.trans up)) up.ne'
    have second : top ∈ found := by
      rcases placed with member | ⟨two, higher⟩
      · exact member
      · match found, two with
        | [blockA, blockB], _ =>
            have sameA := onlyAbove blockA (by simp) (higher blockA (by simp))
            have sameB := onlyAbove blockB (by simp) (higher blockB (by simp))
            have apart := List.rel_of_pairwise_cons order List.mem_cons_self
            omega
    match found, spec.few with
    | [blockA], _ =>
        rw [List.mem_singleton] at first second
        omega
    | [blockA, blockB], _ =>
        have apart := List.rel_of_pairwise_cons order List.mem_cons_self
        rw [List.mem_pair] at first second
        obtain ⟨rfl, rfl⟩ : only = blockA ∧ top = blockB := by omega
        exact selectCopy_second [] wrong holds.hashed

/-- A marked block of user data is loaded, or hides the current map, unless it is
a single one whose hash is wrong. -/
theorem LoadsCurrent.harmless {nand : Nand δ} (loads : LoadsCurrent chip nand) :
    Harmless chip nand.chip := by
  obtain ⟨block, inMap, selected, holds⟩ := loads
  have spec := (@searchMapBlocks_spec _ chip) (booted nand.chip)
    (DATA_BLOCK_NUM + DATA_START_NUM - 1)
  unfold selectMapBlock at selected
  generalize searchMapBlocks chip (booted nand.chip) (DATA_BLOCK_NUM + DATA_START_NUM - 1) =
    found at spec selected
  have order := spec.order
  have placed : ∀ decoy, Decoy chip nand.chip decoy →
      decoy ∈ found ∨ found.length = 2 ∧ ∀ other ∈ found, decoy < other := fun decoy isDecoy =>
    spec.first decoy (inMap.1.trans (inMap.2.le.trans isDecoy.above)) isDecoy.le_last isDecoy.marked
  have member := selectCopy_mem selected
  have below : ∀ decoy, Decoy chip nand.chip decoy → block < decoy :=
    fun decoy isDecoy => inMap.2.trans_le isDecoy.above
  by_cases any : ∃ decoy, Decoy chip nand.chip decoy
  · obtain ⟨decoy, isDecoy⟩ := any
    have inFound : ∀ decoy, Decoy chip nand.chip decoy → decoy ∈ found := fun decoy isDecoy =>
      (placed decoy isDecoy).resolve_right fun higher =>
        (higher.2 block member).asymm (below decoy isDecoy)
    have only : ∀ other, Decoy chip nand.chip other → other = decoy := by
      intro other isOther
      have few := spec.few
      have inOther := inFound other isOther
      have inDecoy := inFound decoy isDecoy
      match found, few with
      | [blockA], _ =>
          rw [List.mem_singleton] at inOther inDecoy
          omega
      | [blockA, blockB], _ =>
          have up := below other isOther
          have up' := below decoy isDecoy
          rw [List.mem_pair] at inOther inDecoy member
          omega
    refine .inr ⟨decoy, isDecoy, only, fun hashed => ?_⟩
    have first : ∃ rest, found = decoy :: rest := by
      match found, inFound decoy isDecoy with
      | blockA :: rest, inDecoy =>
          have higher : decoy ≤ blockA := by
            rcases List.mem_cons.mp inDecoy with same | later
            · exact same.le
            · exact (List.rel_of_pairwise_cons order later).le
          obtain ⟨_, inReserve, marked⟩ := spec.member blockA List.mem_cons_self
          have user : MAP_BLOCK_MAX ≤ blockA := isDecoy.above.trans higher
          have isFirst := (marked_cases (inMap.1.trans (inMap.2.le.trans user)) inReserve
            marked).resolve_left fun other => absurd other.2 (not_lt.mpr user)
          exact ⟨rest, by rw [only blockA isFirst]⟩
    obtain ⟨rest, rfl⟩ := first
    rw [selectCopy_first rest hashed] at selected
    exact (below decoy isDecoy).ne' (Option.some.inj selected)
  · exact .inl fun decoy isDecoy => any ⟨decoy, isDecoy⟩

theorem MapInv.of_table {blockMap blockMap' : Nat → Ushort} (inv : MapInv blockMap dataArea)
    (table : ∀ i < MAP_ENTRIES, blockMap' i = blockMap i) : MapInv blockMap' dataArea := by
  refine inv.congr (fun i inData => table i (inData.2.trans (by decide))) fun i inData => table _ ?_
  have storable := inv.storable i inData
  unfold statusIndex
  split_ifs
  all_goals
    simp only [Storable, dataArea, Set.mem_ofPred_eq, DATA_START_NUM, DATA_BLOCK_NUM,
      FS_BLOCK_NUM, RESERVE_BLOCK_NUM, MAP_BLOCK_MAX, MAP_ENTRIES] at *
    omega

/-- The states of the driver over calls that return and boots with no harmful
block of user data in the way. -/
inductive Powered (chip : Chip δ) (condition : δ → Prop) : Nand δ → Prop
  | created {start nand : Nand δ} :
      sCreateBlockMapTable chip start = (some (), nand) → Powered chip condition nand
  | called {nand nand' : Nand δ} {call : NandCall} {ret : Int} : Powered chip condition nand →
      FAT1_ADDR ≤ call.offset → call.run chip nand = (some ret, nand') →
      Powered chip condition nand'
  | rebooted {nand nand' : Nand δ} : Powered chip condition nand → condition nand.chip →
      sLoadBlockMapTable chip (booted nand.chip) = (some (), nand') →
      Powered chip condition nand'

theorem powered_current (framed : chip.Framed) (erases : chip.ErasesMarks) {nand : Nand δ}
    (reached : Powered chip (Harmless chip) nand) : Current chip nand := by
  induction reached with
  | created run => exact (sCreateBlockMapTable_current framed erases).returns trivial run
  | called _ inData run ih => exact (NandCall.run_current framed inData).returns ih run
  | @rebooted nand nand' _ harmless run ih =>
      obtain ⟨block, inMap, selected, holds⟩ := harmless.loads ih.top
      rw [sLoadBlockMapTable, Prog.read_bind_run, selected] at run
      have loaded : nand' = ⟨mapOfImage (mapCopy chip (booted nand.chip) block), nand.chip⟩ :=
        (Prod.mk.inj run).2.symm
      subst loaded
      exact ⟨MapInv.of_table ih.mapped holds.table, ih.top.congr (fun _ _ _ _ => rfl) holds.table⟩

/-- The driver after user data were written to the block that was moved to the
last reserve block: the bytes of a map copy. -/
def decoyed : Nand Pages :=
  ⟨moved.blockMap, moved.chip.writeTwo 1023 (mapImage (faultFree (· == 100)) freshMap)⟩

theorem moved_idle : moved.chip.Idle 1023 := by
  have taken := (created (· == 100)).chip.erase_idle 1023
  unfold moved Pages.saveMap
  exact (((taken.congr (Pages.erase_sameIn _ (by decide))).congr
    (Pages.writeTwo_sameIn _ _ (by decide))).congr (Pages.erase_sameIn _ (by decide))).congr
      (Pages.writeTwo_sameIn _ _ (by decide))

theorem sWriteRead_ok {nand written : Nand δ} {logicBlock phyBlockNum offset dataLen : Nat}
    {data readBack : Buffer} {ret : Int} (short : ¬ BLOCK_SIZE < dataLen)
    (place : (nand.blockMap logicBlock).toNat = phyBlockNum)
    (write : sNandWrite chip nand (phyBlockNum * BLOCK_SIZE + offset) data dataLen = (ret, written))
    (read : sNandRead chip written (phyBlockNum * BLOCK_SIZE + offset) dataLen =
      (NAND_RET_OK, readBack)) (same : sameBytes data readBack dataLen) :
    sWriteRead chip logicBlock offset data dataLen nand = (some NAND_RET_OK, written) := by
  rw [sWriteRead, if_neg short, Prog.read_bind_run, place]
  refine (Prog.step_bind_of write).trans ?_
  refine ((@Prog.read_bind_of _ _ _ (fun nand => sNandRead chip nand _ dataLen) _ written) read).trans ?_
  dsimp only
  rw [if_pos ⟨.inl rfl, same⟩]
  rfl

theorem nandWrite_moved : nandWrite (faultFree (· == 100)) (100 * BLOCK_SIZE)
    (mapImage (faultFree (· == 100)) freshMap) RES_BLOCK_SIZE moved = (some NAND_RET_OK, decoyed) := by
  have log : (moved.blockMap (LOG_ADDR / BLOCK_SIZE)).toNat ≠ 1023 := by decide
  have place : (moved.blockMap 100).toNat = 1023 := by decide
  have holds : decoyed.chip.Holds 1023 (mapImage (faultFree (· == 100)) freshMap) :=
    moved_idle.holds _
  have read := (@Pages.Holds.mapCopy (· == 100) decoyed) holds (by decide) log
  have readOk := (@Pages.Holds.readOk (· == 100) decoyed) holds (by decide) log
  have written := (@faultFree_sNandWrite (· == 100) moved 1023)
    (mapImage (faultFree (· == 100)) freshMap) (by decide) log
  have same : sameBytes (mapImage (faultFree (· == 100)) freshMap)
      (sNandRead (faultFree (· == 100)) decoyed (1023 * BLOCK_SIZE) RES_BLOCK_SIZE).2
      RES_BLOCK_SIZE := by
    rw [sameBytes_iff]
    intro i below
    rw [← read i below, mapCopy]
  rw [← Nat.add_zero (1023 * BLOCK_SIZE)] at written readOk same
  rcases result : sNandRead (faultFree (· == 100)) decoyed (1023 * BLOCK_SIZE + 0)
    RES_BLOCK_SIZE with ⟨ret, readBack⟩
  rw [result] at readOk same
  obtain rfl : ret = NAND_RET_OK := readOk
  have part := sWriteRead_ok (by decide) place written result same
  have blocks : blocksOf (100 * BLOCK_SIZE) RES_BLOCK_SIZE = [100] := by decide
  have start : 100 * BLOCK_SIZE / BLOCK_SIZE = 100 ∧ 100 * BLOCK_SIZE % BLOCK_SIZE = 0 := by decide
  rw [nandWrite, if_neg (by decide), blocks, start.1, start.2, nandWriteLoop]
  have data : (fun i => mapImage (faultFree (· == 100)) freshMap (0 + i)) =
      mapImage (faultFree (· == 100)) freshMap := by
    funext i
    rw [Nat.zero_add]
  rw [data, ite_self, if_pos (by decide), part, decoyed]

end PosFirmware.Flash
