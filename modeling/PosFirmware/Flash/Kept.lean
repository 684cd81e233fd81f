import PosFirmware.Flash.BlockMap

/-! # What the driver's programs keep

Every change of the flash is an erase of a block or the programming of a page.
An invariant that both keep is kept by a range written (`sNandWrite_keeps`), by
the search for a block (`copyToBlock_keeps`, `eraseTries_keeps`) and by saving
the map (`sReMapBlock_keeps`).
-/

namespace PosFirmware.Flash

open PosFirmware.Foundation

variable {δ : Type} {chip : Chip δ} {inv : Nand δ → Prop}

/-- The blocks that hold map copies. -/
def mapBlocks : Set Nat := { block | FS_BLOCK_NUM + DATA_START_NUM ≤ block ∧ block < MAP_BLOCK_MAX }

/-- An invariant that is kept by the programming of the pages of a range is kept
by the range. -/
theorem sNandWrite_keeps {offset dataLen : Nat} (data : Buffer)
    (page : ∀ nand src, ∀ i < numberOfSectors offset dataLen, inv nand →
      inv (nandPhyPageWrite chip nand (sectorAddr offset i) src).2)
    {nand : Nand δ} (holds : inv nand) : inv (sNandWrite chip nand offset data dataLen).2 := by
  suffices loop : ∀ (sectors : List Nat) (state : Int × Nand δ),
      (∀ i ∈ sectors, i < numberOfSectors offset dataLen) → inv state.2 →
      inv (sectors.foldl (writeSector chip offset data dataLen) state).2 from
    loop _ (NAND_RET_OK, nand) (fun i member => List.mem_range.mp member) holds
  intro sectors
  induction sectors with
  | nil => exact fun _ _ holds => holds
  | cons i rest ih =>
      intro state below holds
      refine ih _ (fun j member => below j (List.mem_cons_of_mem _ member)) ?_
      rw [writeSector]
      exact page _ _ i (below i List.mem_cons_self) holds

/-! ## Saving the map -/

private theorem pair_snd {α β : Type} (first : α) (second : β) : (first, second).2 = second := rfl

theorem sWriteMapBlock_snd (nand : Nand δ) (block : Nat) : (sWriteMapBlock chip nand block).2 =
    (sNandWrite chip nand (block * BLOCK_SIZE) (mapImage chip nand.blockMap) RES_BLOCK_SIZE).2 := by
  unfold sWriteMapBlock
  exact pair_snd _ _

/-- Erasing some blocks and writing the map into them keep an invariant. -/
structure BlocksKeep (chip : Chip δ) (inv : Nand δ → Prop) (blocks : Set Nat) : Prop where
  erase : ∀ nand, ∀ block ∈ blocks, inv nand → inv (sNandErase chip nand block).2
  write : ∀ nand, ∀ block ∈ blocks, inv nand → inv (sWriteMapBlock chip nand block).2

/-- Erasing a block and writing the map into it keep an invariant. -/
structure MapWritesKeep (chip : Chip δ) (inv : Nand δ → Prop) : Prop where
  erase : ∀ nand block, inv nand → inv (sNandErase chip nand block).2
  write : ∀ nand block, inv nand → inv (sWriteMapBlock chip nand block).2

theorem MapWritesKeep.blocks (keeps : MapWritesKeep chip inv) : BlocksKeep chip inv Set.univ :=
  ⟨fun nand block _ => keeps.erase nand block, fun nand block _ => keeps.write nand block⟩

theorem eraseAndWriteMap_keeps {block : Nat}
    (erase : ∀ nand, inv nand → inv (sNandErase chip nand block).2)
    (write : ∀ nand, inv nand → inv (sWriteMapBlock chip nand block).2) :
    Keeps inv (eraseAndWriteMap chip block) := by
  unfold eraseAndWriteMap
  exact .firstM fun _ _ => .bind (.step erase) fun _ => .bind (.step write) fun _ => .pure _

theorem searchMapBlocks_subset (nand : Nand δ) :
    ∀ block ∈ searchMapBlocks chip nand (MAP_BLOCK_MAX - 1), block ∈ mapBlocks := by
  intro block member
  have inside := mem_blocksDown.mp (List.mem_of_mem_filter (List.mem_of_mem_take member))
  exact ⟨inside.1, Nat.lt_of_le_pred (by decide) inside.2⟩

section SavingTheMap

variable {blocks : Set Nat} (keeps : BlocksKeep chip inv blocks)
include keeps

theorem BlocksKeep.writeMapFrom {first : Nat}
    (inside : ∀ i, first ≤ i → i < MAP_BLOCK_MAX → i ∈ blocks) :
    Triple inv (writeMapFrom chip first)
      (fun written nand => (∀ i ∈ written, first ≤ i) ∧ inv nand) inv := by
  unfold Flash.writeMapFrom
  refine (Triple.firstM (fun i nand => first ≤ i ∧ inv nand) inv
    (fun indices nand => (∀ i ∈ indices, first ≤ i ∧ i < MAP_BLOCK_MAX) ∧ inv nand)
    (fun i rest => Triple.of_fact fun bounds => ?_) _).mono
    (fun nand holds => ⟨fun i member => ?_, holds⟩) (fun written nand holds => ?_)
    fun _ holds => holds
  · obtain ⟨above, below⟩ := bounds i List.mem_cons_self
    have here := inside i above below
    refine Triple.bind (m := fun _ => inv)
      (eraseAndWriteMap_keeps (keeps.erase · i here) (keeps.write · i here)) fun written => ?_
    cases written with
    | some _ => exact Triple.pure fun _ holds => ⟨above, holds⟩
    | none =>
        refine Triple.bind (m := fun _ => inv) (Triple.step fun nand => keeps.erase nand i here)
          fun _ => Triple.pure fun _ holds => ?_
        exact ⟨fun j member => bounds j (List.mem_cons_of_mem _ member), holds⟩
  · have bounds := List.mem_range'_1.mp member
    exact ⟨bounds.1, by omega⟩
  · cases written with
    | some i => exact ⟨fun j same => Option.some.inj same ▸ holds.1, holds.2⟩
    | none => exact ⟨nofun, holds.2⟩

theorem BlocksKeep.rewriteMapBlock {step2 block : Nat} (here : block ∈ blocks)
    (inside : ∀ i, step2 < i → i < MAP_BLOCK_MAX → i ∈ blocks) :
    Keeps inv (rewriteMapBlock chip step2 block) := by
  unfold Flash.rewriteMapBlock
  refine .bind (eraseAndWriteMap_keeps (keeps.erase · block here) (keeps.write · block here))
    fun written => ?_
  cases written with
  | some _ => exact .pure _
  | none =>
      have rest : Keeps inv (Flash.writeMapFrom chip (step2 + 1)) :=
        (keeps.writeMapFrom inside).mono (fun _ holds => holds) (fun _ _ holds => holds.2)
          fun _ holds => holds
      refine .bind (.step fun nand => keeps.erase nand block here) fun _ => rest.bind fun other => ?_
      cases other with
      | some _ => exact .pure _
      | none => exact Keeps.halt

theorem BlocksKeep.sReMapBlock (inside : mapBlocks ⊆ blocks) : Keeps inv (sReMapBlock chip) := by
  have later {first : Nat} (above : FS_BLOCK_NUM + DATA_START_NUM ≤ first) :
      ∀ i, first ≤ i → i < MAP_BLOCK_MAX → i ∈ blocks :=
    fun i order below => inside ⟨above.trans order, below⟩
  unfold Flash.sReMapBlock
  refine Triple.bind (m := fun found nand => (∀ block ∈ found, block ∈ mapBlocks) ∧ inv nand)
    (Triple.read fun nand holds => ⟨searchMapBlocks_subset nand, holds⟩) fun found =>
    Triple.of_fact fun members => ?_
  match found, members with
  | [], _ => exact Keeps.halt
  | [blockAStep], members =>
      have inMap := members blockAStep (by simp)
      refine Triple.bind (m := fun step2 nand => blockAStep + 1 ≤ step2 ∧ inv nand) ?_
        fun step2 => Triple.of_fact fun order => ?_
      · unfold writeMapAfter
        refine Triple.bind (keeps.writeMapFrom (later (by have := inMap.1; omega)))
          fun written => ?_
        cases written with
        | some i => exact Triple.pure fun _ holds => ⟨holds.1 i rfl, holds.2⟩
        | none =>
            exact Triple.ite (fun _ => Triple.halt fun _ holds => holds.2)
              fun _ => Triple.pure fun _ holds => ⟨le_rfl, holds.2⟩
      · exact keeps.rewriteMapBlock (inside inMap) (later (by have := inMap.1; omega))
  | blockAStep :: blockBStep :: _, members =>
      have inMap := members blockAStep (by simp)
      refine Triple.bind (keeps.writeMapFrom (later inMap.1)) fun written => ?_
      cases written with
      | some step2 =>
          refine Triple.of_fact fun order => ?_
          have above := inMap.1.trans (order step2 rfl)
          exact keeps.rewriteMapBlock (inside (members blockBStep (by simp))) (later (by omega))
      | none => exact Triple.halt fun _ holds => holds.2

end SavingTheMap

section SavingTheMap

variable (keeps : MapWritesKeep chip inv)
include keeps

theorem writeMapFrom_keeps (first : Nat) : Keeps inv (writeMapFrom chip first) :=
  (keeps.blocks.writeMapFrom fun _ _ _ => trivial).mono (fun _ holds => holds)
    (fun _ _ holds => holds.2) fun _ holds => holds

theorem rewriteMapBlock_keeps (step2 block : Nat) :
    Keeps inv (rewriteMapBlock chip step2 block) :=
  keeps.blocks.rewriteMapBlock trivial fun _ _ _ => trivial

theorem sReMapBlock_keeps : Keeps inv (sReMapBlock chip) :=
  keeps.blocks.sReMapBlock fun _ _ => trivial

theorem createMapCopy_keeps (first : Nat) : Keeps inv (createMapCopy chip first) := by
  unfold createMapCopy
  refine .firstM fun i _ => .firstM fun _ _ => ?_
  exact .bind (.step fun nand => keeps.write nand i) fun ret =>
    .ite (.pure _) (.bind (.step fun nand => keeps.erase nand i) fun _ => .pure _)

end SavingTheMap

/-! ## Trying a block -/

section TryingABlock

variable {block : Nat} (erase : ∀ nand, inv nand → inv (sNandErase chip nand block).2)
include erase

theorem eraseIdle_keeps : Keeps inv (eraseIdle chip block) := by
  unfold eraseIdle
  exact .bind (.step erase) fun _ => .read _

theorem eraseTries_keeps : Keeps inv (eraseTries chip block) := by
  unfold eraseTries
  refine .bind (.step erase) fun ret => .bind (.read _) fun idle =>
    .ite (.pure _) (.ite (.pure _) (.firstM fun _ _ => ?_))
  exact .bind (eraseIdle_keeps erase) fun _ => .ite (.pure _) (.pure _)

theorem copyToBlock_keeps (blockBuff : Buffer) (idlePage : Nat → Bool)
    (write : ∀ nand page, ∀ k < BLOCK_PAGES, inv nand →
      inv (sNandWrite chip nand (block * BLOCK_SIZE + k * PAGE_SIZE) page PAGE_SIZE).2) :
    Keeps inv (copyToBlock chip blockBuff idlePage block) := by
  unfold copyToBlock
  refine .bind (.firstM fun _ _ => .bind (.step erase) fun _ =>
    .bind (.firstM fun k member => .ite (.pure _) ?_) fun _ => .pure _) fun _ => .pure _
  refine .bind (.step_named fun nand ret written run holds => ?_) fun _ => .read _
  have kept := write nand (fun i => blockBuff (k * PAGE_SIZE + i)) k (List.mem_range.mp member) holds
  rwa [run] at kept

end TryingABlock

end PosFirmware.Flash
