import PosFirmware.Flash.MapSelection

/-! # The other logical blocks while one is moved

Work on one logical block, whatever fails in it, leaves the entries of the
others in the table and the blocks they are stored in as they are (`Others`).
A search that ends has moved the block (`Moved`) to one whose trial succeeded.
-/

namespace PosFirmware.Flash

open PosFirmware.Foundation

variable {δ : Type} {chip : Chip δ} {ref nand : Nand δ} {logicBlock old : Nat}

/-- A logical block is stored where it was, and its block is as it was. -/
structure Untouched (chip : Chip δ) (ref nand : Nand δ) (i : Nat) : Prop where
  entry : nand.blockMap i = ref.blockMap i
  block : SameBlock chip nand.chip ref.chip (ref.blockMap i).toNat

/-- All logical blocks but one are untouched. -/
def Others (chip : Chip δ) (ref : Nand δ) (logicBlock : Nat) (nand : Nand δ) : Prop :=
  ∀ i ∈ dataArea \ {logicBlock}, Untouched chip ref nand i

theorem Untouched.refl (chip : Chip δ) (ref : Nand δ) (i : Nat) : Untouched chip ref ref i :=
  ⟨rfl, fun _ _ => rfl⟩

theorem Untouched.trans {last : Nand δ} {i : Nat} (first : Untouched chip ref nand i)
    (second : Untouched chip nand last i) : Untouched chip ref last i := by
  have block := second.block
  rw [first.entry] at block
  exact ⟨second.entry.trans first.entry, block.trans first.block⟩

theorem MapInv.log_iff {blockMap : Nat → Ushort} (inv : MapInv blockMap dataArea) {i : Nat}
    (inData : i ∈ dataArea) :
    (blockMap (LOG_ADDR / BLOCK_SIZE)).toNat = (blockMap i).toNat ↔ LOG_ADDR / BLOCK_SIZE = i :=
  ⟨fun same => inv.injective ⟨by decide, by decide⟩ inData (BitVec.eq_of_toNat_eq same),
    fun same => by rw [same]⟩

theorem Untouched.read {i offset dataLen : Nat} (untouched : Untouched chip ref nand i)
    (mapped : Mapped ref) (mapped' : Mapped nand) (inData : i ∈ dataArea)
    (inside : offset + dataLen ≤ BLOCK_SIZE) :
    sNandRead chip nand ((nand.blockMap i).toNat * BLOCK_SIZE + offset) dataLen =
      sNandRead chip ref ((ref.blockMap i).toNat * BLOCK_SIZE + offset) dataLen := by
  have logs := (MapInv.log_iff mapped' inData).trans (MapInv.log_iff mapped inData).symm
  rw [untouched.entry] at logs ⊢
  exact sNandRead_congr inside untouched.block logs

/-! ## Work on a block that holds none of the others -/

/-- No other logical block is stored in a block. -/
def Apart (ref : Nand δ) (logicBlock phyBlock : Nat) : Prop :=
  ∀ i ∈ dataArea \ {logicBlock}, (ref.blockMap i).toNat ≠ phyBlock

theorem Others.congr {next : Nand δ} {phyBlock : Nat} (others : Others chip ref logicBlock nand)
    (apart : Apart ref logicBlock phyBlock) (table : next.blockMap = nand.blockMap)
    (same : ∀ other, other ≠ phyBlock → SameBlock chip next.chip nand.chip other) :
    Others chip ref logicBlock next := by
  intro i member
  have untouched := others i member
  exact ⟨by rw [table, untouched.entry],
    (same _ (apart i member)).trans untouched.block⟩

theorem Others.erase (framed : chip.Framed) {phyBlock : Nat}
    (others : Others chip ref logicBlock nand) (apart : Apart ref logicBlock phyBlock) :
    Others chip ref logicBlock (sNandErase chip nand phyBlock).2 :=
  others.congr apart (sNandErase_blockMap chip nand phyBlock)
    fun _ away => sNandErase_other framed nand away

theorem Others.setMap {i : Nat} (others : Others chip ref logicBlock nand) (value : Ushort)
    (away : i ∉ dataArea \ {logicBlock}) : Others chip ref logicBlock (nand.setMap i value) := by
  intro j member
  refine ⟨?_, (others j member).block⟩
  rw [← (others j member).entry]
  exact Function.update_of_ne (ne_of_mem_of_not_mem member away) _ _

theorem statusIndex_not_mem {phyBlock : Nat} (storable : Storable phyBlock) :
    statusIndex phyBlock ∉ dataArea \ {logicBlock} :=
  fun member => storable.statusIndex_ne member.1 rfl

/-! ## The search -/

/-- A logical block is being moved away from its old block. -/
structure Moving (chip : Chip δ) (ref : Nand δ) (logicBlock old : Nat) (nand : Nand δ) : Prop where
  table : Replacing logicBlock old nand.blockMap
  others : Others chip ref logicBlock nand

/-- It was moved, and the trial of its new block succeeded. -/
structure Moved (chip : Chip δ) (ref : Nand δ) (logicBlock old : Nat)
    (good : Nat → Nand δ → Prop) (nand : Nand δ) : Prop where
  table : Replaced logicBlock old nand.blockMap
  others : Others chip ref logicBlock nand
  good : good (nand.blockMap logicBlock).toNat nand

/-- A trial of a block leaves the table and the others alone, and says whether the block
is good. -/
def Tries (chip : Chip δ) (ref : Nand δ) (logicBlock : Nat) (good : Nat → Nand δ → Prop)
    (try_ : Nat → Prog (Nand δ) Bool) : Prop :=
  ∀ new, Apart ref logicBlock new → ∀ property,
    Triple (fun nand => OnMap property nand ∧ Others chip ref logicBlock nand) (try_ new)
      (fun taken nand => (OnMap property nand ∧ Others chip ref logicBlock nand) ∧
        (taken = true → good new nand)) fun _ => True

variable {good : Nat → Nand δ → Prop} {try_ : Nat → Prog (Nand δ) Bool}

theorem Moving.recycle (moving : Moving chip ref logicBlock old nand) :
    Moving chip ref logicBlock old (sRecycleFreeBlock nand).2 := by
  refine ⟨moving.table.recycle, fun i member => ?_⟩
  have untouched := moving.others i member
  have below := member.1.2
  have kept : (sRecycleFreeBlock nand).2.blockMap i = nand.blockMap i := by
    unfold sRecycleFreeBlock
    simp only [decide_eq_true_eq]
    rw [if_neg (by omega)]
  have chipKept : (sRecycleFreeBlock nand).2.chip = nand.chip := by
    unfold sRecycleFreeBlock
    rfl
  exact ⟨kept.trans untouched.entry, by rw [chipKept]; exact untouched.block⟩

theorem Moving.apart_free (moving : Moving chip ref logicBlock old nand) {new : Nat}
    (free : nand.blockMap (statusIndex new) = RES_BLOCK_FREE) : Apart ref logicBlock new := by
  intro i member same
  refine moving.table.others.apart_of_status (by rw [free]; decide) i member ?_
  rwa [(moving.others i member).entry]

theorem takeBlock_moves (inData : logicBlock ∈ dataArea)
    (tries : Tries chip ref logicBlock good try_) {new : Nat} (storable : Storable new) :
    Triple (Moving chip ref logicBlock old)
      (takeBlock logicBlock (statusIndex new) new (try_ new))
      (fun taken nand => if taken then Moved chip ref logicBlock old good nand
        else Moving chip ref logicBlock old nand) fun _ => True := by
  unfold takeBlock
  refine Triple.bind (m := fun value nand => (value = RES_BLOCK_FREE → Apart ref logicBlock new) ∧
    nand.blockMap (statusIndex new) = value ∧ Moving chip ref logicBlock old nand)
    (Triple.read fun nand start => ⟨start.apart_free, rfl, start⟩) fun value =>
    Triple.of_fact fun apart => Triple.ite (fun _ => Triple.pure fun _ holds => holds.2)
      fun free => ?_
  have free := not_ne_iff.mp free
  refine Triple.bind (m := fun _ nand => OnMap (fun blockMap =>
    Replaced logicBlock old blockMap ∧ (blockMap logicBlock).toNat = new) nand ∧
    Others chip ref logicBlock nand) (Triple.modify fun nand start => ?_) fun _ =>
    Triple.bind (tries new (apart free) _) fun taken => ?_
  · obtain ⟨status, moving⟩ := start
    refine ⟨⟨moving.table.take inData storable (status.trans free), ?_⟩,
      (moving.others.setMap _ fun member => member.2 rfl).setMap _ (statusIndex_not_mem storable)⟩
    simp only [Nand.setMap]
    rw [Function.update_of_ne (storable.statusIndex_ne inData), Function.update_self,
      storable.toNat_ofNat]
  · cases taken with
    | true =>
        refine Triple.pure fun nand holds => ⟨holds.1.1.1, holds.1.2, ?_⟩
        rw [holds.1.1.2]
        exact holds.2 rfl
    | false =>
        refine Triple.bind (m := fun _ => Moving chip ref logicBlock old)
          (Triple.modify fun nand holds => ?_) fun _ => Triple.pure fun _ holds => holds
        obtain ⟨⟨⟨replaced, number⟩, others⟩, -⟩ := holds
        have marked := replaced.markBad inData
        rw [number] at marked
        exact ⟨marked, others.setMap _ (statusIndex_not_mem storable)⟩

theorem searches_moved (inData : logicBlock ∈ dataArea)
    (tries : Tries chip ref logicBlock good try_) :
    Searches (Moving chip ref logicBlock old) (Moved chip ref logicBlock old good) logicBlock
      try_ where
  recycle _ start := start.recycle
  take _ storable := takeBlock_moves inData tries storable

/-! ## Saving the map -/

/-- The table and every block outside the map copies are as they were. -/
structure OutsideMap (chip : Chip δ) (ref nand : Nand δ) : Prop where
  table : nand.blockMap = ref.blockMap
  block : ∀ phyBlock ∉ mapBlocks, SameBlock chip nand.chip ref.chip phyBlock

theorem sReMapBlock_outside (framed : chip.Framed) (ref : Nand δ) :
    Keeps (OutsideMap chip ref) (sReMapBlock chip) := by
  have keeps : BlocksKeep chip (OutsideMap chip ref) mapBlocks := by
    refine ⟨fun nand block inMap holds => ?_, fun nand block inMap holds => ?_⟩
    · refine ⟨(sNandErase_blockMap chip nand block).trans holds.table, fun other outside => ?_⟩
      exact (sNandErase_other framed nand (ne_of_mem_of_not_mem inMap outside).symm).trans
        (holds.block other outside)
    · refine ⟨(sWriteMapBlock_blockMap chip nand block).trans holds.table, fun other outside => ?_⟩
      exact (sWriteMapBlock_other framed nand (ne_of_mem_of_not_mem inMap outside).symm).trans
        (holds.block other outside)
  exact keeps.sReMapBlock le_rfl

theorem OutsideMap.untouched (outside : OutsideMap chip ref nand) (mapped : Mapped ref) {i : Nat}
    (inData : i ∈ dataArea) : Untouched chip ref nand i :=
  ⟨congrFun outside.table i, outside.block _ (mapped.storable i inData).not_mem_mapBlocks⟩

theorem OutsideMap.mapped (outside : OutsideMap chip ref nand) (mapped : Mapped ref) :
    Mapped nand := by
  rw [Mapped, OnMap, outside.table]
  exact mapped

end PosFirmware.Flash
