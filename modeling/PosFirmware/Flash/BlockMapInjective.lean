import PosFirmware.Flash.FaultFree
import Mathlib.Data.Set.Function

/-! # Two logical blocks never share a physical block

Every replacement takes a free block, gives it to one logical block, and gives
the old block back or marks it bad. Between the two steps the logical block is
left out of the invariant (`Replacing`); once a block was found it is back in it
(`Replaced`). The table is injective on the data area after every sequence of
writes and erases (`blockMap_injective`), whatever blocks fail.
-/

namespace PosFirmware.Flash

open PosFirmware.Foundation

/-- The logical blocks of the data area. -/
def dataArea : Set Nat := { i | DATA_START_NUM ≤ i ∧ i < DATA_START_NUM + FS_BLOCK_NUM }

/-- The physical blocks that may hold a logical block: those of the data area and
the reserve blocks that hold no map copy. -/
def Storable (phyBlock : Nat) : Prop :=
  phyBlock ∈ dataArea ∨ MAP_BLOCK_MAX ≤ phyBlock ∧ phyBlock < DATA_START_NUM + DATA_BLOCK_NUM

/-- Each of some logical blocks is stored in a physical block of its own, marked
as used. -/
structure MapInv (blockMap : Nat → Ushort) (logical : Set Nat) : Prop where
  storable : ∀ i ∈ logical, Storable (blockMap i).toNat
  used : ∀ i ∈ logical, blockMap (statusIndex (blockMap i).toNat) = RES_BLOCK_USED
  injective : Set.InjOn blockMap logical

/-! ## Places in the table -/

theorem Storable.statusIndex_gt {phyBlock : Nat} (storable : Storable phyBlock) :
    DATA_START_NUM + FS_BLOCK_NUM < statusIndex phyBlock := by
  unfold statusIndex
  split_ifs
  all_goals
    simp only [Storable, dataArea, Set.mem_ofPred_eq, DATA_START_NUM, DATA_BLOCK_NUM,
      FS_BLOCK_NUM, RESERVE_BLOCK_NUM, MAP_BLOCK_MAX] at *
    omega

theorem statusIndex_inj {first second : Nat} (storable : Storable first)
    (storable' : Storable second) (same : statusIndex first = statusIndex second) :
    first = second := by
  unfold statusIndex at same
  split_ifs at same
  all_goals
    simp only [Storable, dataArea, Set.mem_ofPred_eq, DATA_START_NUM, DATA_BLOCK_NUM,
      FS_BLOCK_NUM, RESERVE_BLOCK_NUM, MAP_BLOCK_MAX] at *
    omega

theorem Storable.statusIndex_ne {phyBlock logicBlock : Nat} (storable : Storable phyBlock)
    (inData : logicBlock ∈ dataArea) : logicBlock ≠ statusIndex phyBlock := by
  have above := storable.statusIndex_gt
  have below := inData.2
  omega

theorem Storable.toNat_ofNat {phyBlock : Nat} (storable : Storable phyBlock) :
    (BitVec.ofNat 16 phyBlock).toNat = phyBlock := by
  rw [BitVec.toNat_ofNat]
  apply Nat.mod_eq_of_lt
  simp only [Storable, dataArea, Set.mem_ofPred_eq, DATA_START_NUM, DATA_BLOCK_NUM, FS_BLOCK_NUM,
    RESERVE_BLOCK_NUM, MAP_BLOCK_MAX] at storable
  omega

namespace MapInv

variable {blockMap : Nat → Ushort} {logical : Set Nat}

theorem subset {fewer : Set Nat} (inv : MapInv blockMap logical) (less : fewer ⊆ logical) :
    MapInv blockMap fewer :=
  ⟨fun i member => inv.storable i (less member), fun i member => inv.used i (less member),
    inv.injective.mono less⟩

/-- The invariant depends on the entries of the logical blocks and on the status
of the blocks they are stored in. -/
theorem congr {blockMap' : Nat → Ushort} (inv : MapInv blockMap logical)
    (entries : ∀ i ∈ logical, blockMap' i = blockMap i)
    (statuses : ∀ i ∈ logical, blockMap' (statusIndex (blockMap i).toNat) =
      blockMap (statusIndex (blockMap i).toNat)) : MapInv blockMap' logical where
  storable i member := by
    rw [entries i member]
    exact inv.storable i member
  used i member := by
    rw [entries i member, statuses i member]
    exact inv.used i member
  injective i member j member' same := by
    rw [entries i member, entries j member'] at same
    exact inv.injective member member' same

/-- The status of a block that holds none of the logical blocks is free to
change. -/
theorem setStatus {phyBlock : Nat} (value : Ushort) (inv : MapInv blockMap logical)
    (within : logical ⊆ dataArea) (storable : Storable phyBlock)
    (apart : ∀ i ∈ logical, (blockMap i).toNat ≠ phyBlock) :
    MapInv (Function.update blockMap (statusIndex phyBlock) value) logical := by
  refine inv.congr (fun i member => ?_) (fun i member => ?_)
  · exact Function.update_of_ne (storable.statusIndex_ne (within member)) _ _
  · refine Function.update_of_ne (fun same => apart i member ?_) _ _
    exact statusIndex_inj (inv.storable i member) storable same

theorem setEntry {logicBlock : Nat} (value : Ushort) (inv : MapInv blockMap logical)
    (inData : logicBlock ∈ dataArea) (absent : logicBlock ∉ logical) :
    MapInv (Function.update blockMap logicBlock value) logical := by
  refine inv.congr (fun i member => ?_) (fun i member => ?_)
  · exact Function.update_of_ne (ne_of_mem_of_not_mem member absent) _ _
  · exact Function.update_of_ne ((inv.storable i member).statusIndex_ne inData).symm _ _

theorem insert {logicBlock : Nat} (inv : MapInv blockMap logical)
    (storable : Storable (blockMap logicBlock).toNat)
    (used : blockMap (statusIndex (blockMap logicBlock).toNat) = RES_BLOCK_USED)
    (apart : ∀ i ∈ logical, blockMap i ≠ blockMap logicBlock) :
    MapInv blockMap (insert logicBlock logical) where
  storable i member := by
    rcases member with rfl | member
    · exact storable
    · exact inv.storable i member
  used i member := by
    rcases member with rfl | member
    · exact used
    · exact inv.used i member
  injective := by
    intro i member j member' same
    rcases member with rfl | member <;> rcases member' with rfl | member'
    · rfl
    · exact absurd same.symm (apart j member')
    · exact absurd same (apart i member)
    · exact inv.injective member member' same

theorem apart_of_status {phyBlock : Nat} (inv : MapInv blockMap logical)
    (unused : blockMap (statusIndex phyBlock) ≠ RES_BLOCK_USED) :
    ∀ i ∈ logical, (blockMap i).toNat ≠ phyBlock := by
  intro i member same
  exact unused (same ▸ inv.used i member)

end MapInv

/-! ## Replacing a block -/

/-- The table while a logical block is moved away from its old block: the other
logical blocks are stored in blocks of their own, none of them the old one, and
the old block is not free. -/
structure Replacing (logicBlock old : Nat) (blockMap : Nat → Ushort) : Prop where
  others : MapInv blockMap (dataArea \ {logicBlock})
  oldStorable : Storable old
  oldApart : ∀ i ∈ dataArea \ {logicBlock}, (blockMap i).toNat ≠ old
  oldKept : blockMap (statusIndex old) ≠ RES_BLOCK_FREE
  oldUsed : blockMap (statusIndex old) ≠ RES_BLOCK_FREE_USED

/-- The table once the logical block was moved to another block. -/
structure Replaced (logicBlock old : Nat) (blockMap : Nat → Ushort) : Prop
    extends Replacing logicBlock old blockMap where
  inv : MapInv blockMap dataArea
  moved : (blockMap logicBlock).toNat ≠ old

/-- What a step that leaves the table alone preserves. -/
def OnMap {δ : Type} (property : (Nat → Ushort) → Prop) (nand : Nand δ) : Prop :=
  property nand.blockMap

theorem MapInv.replacing {blockMap : Nat → Ushort} {logicBlock : Nat}
    (inv : MapInv blockMap dataArea) (inData : logicBlock ∈ dataArea) :
    Replacing logicBlock (blockMap logicBlock).toNat blockMap where
  others := inv.subset Set.sdiff_subset
  oldStorable := inv.storable _ inData
  oldApart i member same :=
    member.2 (inv.injective member.1 inData (BitVec.eq_of_toNat_eq same))
  oldKept := by rw [inv.used _ inData]; decide
  oldUsed := by rw [inv.used _ inData]; decide

theorem Replacing.markOld {blockMap : Nat → Ushort} {logicBlock old : Nat}
    (replacing : Replacing logicBlock old blockMap) :
    Replacing logicBlock old (Function.update blockMap (statusIndex old) RES_BLOCK_BAD) where
  others := replacing.others.setStatus _ Set.sdiff_subset replacing.oldStorable replacing.oldApart
  oldStorable := replacing.oldStorable
  oldApart i member := by
    rw [Function.update_of_ne (replacing.oldStorable.statusIndex_ne member.1)]
    exact replacing.oldApart i member
  oldKept := by rw [Function.update_self]; decide
  oldUsed := by rw [Function.update_self]; decide

theorem Replacing.take {blockMap : Nat → Ushort} {logicBlock old new : Nat}
    (replacing : Replacing logicBlock old blockMap) (inData : logicBlock ∈ dataArea)
    (storable : Storable new) (free : blockMap (statusIndex new) = RES_BLOCK_FREE) :
    Replaced logicBlock old (Function.update
      (Function.update blockMap logicBlock (BitVec.ofNat 16 new)) (statusIndex new)
      RES_BLOCK_USED) := by
  have apart : ∀ i ∈ dataArea \ {logicBlock}, (blockMap i).toNat ≠ new :=
    replacing.others.apart_of_status (by rw [free]; decide)
  have notOld : new ≠ old := fun same => replacing.oldKept (same ▸ free)
  have entry : ∀ i ∈ dataArea \ {logicBlock}, Function.update
      (Function.update blockMap logicBlock (BitVec.ofNat 16 new)) (statusIndex new)
      RES_BLOCK_USED i = blockMap i := fun i member => by
    rw [Function.update_of_ne (storable.statusIndex_ne member.1), Function.update_of_ne member.2]
  have taken : Function.update (Function.update blockMap logicBlock (BitVec.ofNat 16 new))
      (statusIndex new) RES_BLOCK_USED logicBlock = BitVec.ofNat 16 new := by
    rw [Function.update_of_ne (storable.statusIndex_ne inData), Function.update_self]
  have oldStatus : Function.update (Function.update blockMap logicBlock (BitVec.ofNat 16 new))
      (statusIndex new) RES_BLOCK_USED (statusIndex old) = blockMap (statusIndex old) := by
    rw [Function.update_of_ne fun same =>
        notOld (statusIndex_inj replacing.oldStorable storable same).symm,
      Function.update_of_ne (replacing.oldStorable.statusIndex_ne inData).symm]
  have others : MapInv (Function.update (Function.update blockMap logicBlock
      (BitVec.ofNat 16 new)) (statusIndex new) RES_BLOCK_USED) (dataArea \ {logicBlock}) := by
    refine (replacing.others.setEntry _ inData fun member => member.2 rfl).setStatus _
      Set.sdiff_subset storable fun i member => ?_
    rw [Function.update_of_ne member.2]
    exact apart i member
  refine ⟨⟨others, replacing.oldStorable, fun i member => ?_, ?_, ?_⟩, ?_, ?_⟩
  · rw [entry i member]
    exact replacing.oldApart i member
  · rw [oldStatus]
    exact replacing.oldKept
  · rw [oldStatus]
    exact replacing.oldUsed
  · have joined := (@MapInv.insert _ _ logicBlock) others
    rw [taken, storable.toNat_ofNat, Function.update_self, Set.insert_sdiff_singleton,
      Set.insert_eq_of_mem inData] at joined
    refine joined storable rfl fun i member same => apart i member ?_
    rw [← entry i member, same, storable.toNat_ofNat]
  · rw [taken, storable.toNat_ofNat]
    exact notOld

theorem Replaced.markBad {blockMap : Nat → Ushort} {logicBlock old : Nat}
    (replaced : Replaced logicBlock old blockMap) (inData : logicBlock ∈ dataArea) :
    Replacing logicBlock old
      (Function.update blockMap (statusIndex (blockMap logicBlock).toNat) RES_BLOCK_BAD) := by
  have storable := replaced.inv.storable _ inData
  have oldStatus : Function.update blockMap (statusIndex (blockMap logicBlock).toNat)
      RES_BLOCK_BAD (statusIndex old) = blockMap (statusIndex old) :=
    Function.update_of_ne (fun same =>
      replaced.moved (statusIndex_inj replaced.oldStorable storable same).symm) _ _
  refine ⟨replaced.others.setStatus _ Set.sdiff_subset storable fun i member same =>
    member.2 (replaced.inv.injective member.1 inData (BitVec.eq_of_toNat_eq same)),
    replaced.oldStorable, fun i member => ?_, ?_, ?_⟩
  · rw [Function.update_of_ne (storable.statusIndex_ne member.1)]
    exact replaced.oldApart i member
  · rw [oldStatus]
    exact replaced.oldKept
  · rw [oldStatus]
    exact replaced.oldUsed

theorem Replaced.giveBack {blockMap : Nat → Ushort} {logicBlock old : Nat}
    (replaced : Replaced logicBlock old blockMap) (value : Ushort) :
    MapInv (Function.update blockMap (statusIndex old) value) dataArea := by
  refine replaced.inv.setStatus _ le_rfl replaced.oldStorable fun i member => ?_
  by_cases this : i = logicBlock
  · rw [this]
    exact replaced.moved
  · exact replaced.oldApart i ⟨member, this⟩

/-! ## Steps that leave the table alone -/

section KeepsMap

variable {δ : Type} {α β : Type} (chip : Chip δ)

/-- A program that leaves the table alone. -/
def KeepsMap (prog : Prog (Nand δ) α) : Prop :=
  ∀ property, Triple (OnMap property) prog (fun _ => OnMap property) fun _ => True

theorem KeepsMap.read (value : Nand δ → α) : KeepsMap (Prog.read value) :=
  fun _ => (Keeps.read value).triple

theorem nandPhyPageWrite_blockMap (nand : Nand δ) (pageAddr : Nat) (src : Buffer) :
    (nandPhyPageWrite chip nand pageAddr src).2.blockMap = nand.blockMap := by
  unfold nandPhyPageWrite
  split_ifs <;> rfl

@[simp] theorem sNandWrite_blockMap (nand : Nand δ) (offset : Nat) (data : Buffer)
    (dataLen : Nat) : (sNandWrite chip nand offset data dataLen).2.blockMap = nand.blockMap :=
  (@sNandWrite_keeps _ _ (fun written => written.blockMap = nand.blockMap)) data
    (fun written src _ _ same => (nandPhyPageWrite_blockMap chip written _ src).trans same) rfl

@[simp] theorem sNandErase_blockMap (nand : Nand δ) (block : Nat) :
    (sNandErase chip nand block).2.blockMap = nand.blockMap := by
  unfold sNandErase
  split_ifs <;> rfl

@[simp] theorem sWriteMapBlock_blockMap (nand : Nand δ) (block : Nat) :
    (sWriteMapBlock chip nand block).2.blockMap = nand.blockMap := by
  rw [sWriteMapBlock_snd, sNandWrite_blockMap]

theorem onMap_erase (property : (Nat → Ushort) → Prop) (nand : Nand δ) (block : Nat)
    (holds : OnMap property nand) : OnMap property (sNandErase chip nand block).2 := by
  rwa [OnMap, sNandErase_blockMap]

theorem onMap_mapWritesKeep (property : (Nat → Ushort) → Prop) :
    MapWritesKeep chip (OnMap property) where
  erase := onMap_erase chip property
  write nand block holds := by rwa [OnMap, sWriteMapBlock_blockMap]

theorem sReMapBlock_keepsMap : KeepsMap (sReMapBlock chip) :=
  fun property => (sReMapBlock_keeps (onMap_mapWritesKeep chip property)).triple

theorem eraseIdle_keepsMap (block : Nat) : KeepsMap (eraseIdle chip block) :=
  fun property => (eraseIdle_keeps fun nand => onMap_erase chip property nand block).triple

theorem eraseTries_keepsMap (block : Nat) : KeepsMap (eraseTries chip block) :=
  fun property => (eraseTries_keeps fun nand => onMap_erase chip property nand block).triple

theorem copyToBlock_keepsMap (blockBuff : Buffer) (idlePage : Nat → Bool) (block : Nat) :
    KeepsMap (copyToBlock chip blockBuff idlePage block) :=
  fun property => (copyToBlock_keeps (fun nand => onMap_erase chip property nand block) _ _
    fun nand page k _ holds => by rwa [OnMap, sNandWrite_blockMap]).triple

end KeepsMap

/-! ## Replacing over the whole search -/

section Replacement

variable {δ : Type} (chip : Chip δ) {logicBlock old : Nat}

/-- A free block taken for the logical block replaces the old one; otherwise the
search goes on. -/
theorem takeBlock_replaces (inData : logicBlock ∈ dataArea) {status new : Nat}
    (storable : Storable new) (place : statusIndex new = status)
    {try_ : Prog (Nand δ) Bool} (keeps : KeepsMap try_) :
    Triple (OnMap (Replacing logicBlock old)) (takeBlock logicBlock status new try_)
      (fun taken => OnMap (if taken then Replaced logicBlock old else Replacing logicBlock old))
      fun _ => True := by
  subst place
  unfold takeBlock
  refine Triple.bind (m := fun value nand => nand.blockMap (statusIndex new) = value ∧
    OnMap (Replacing logicBlock old) nand) (Triple.read fun nand start => ⟨rfl, start⟩)
    fun value => Triple.ite (fun _ => Triple.pure fun _ holds => holds.2) fun free => ?_
  refine Triple.bind (m := fun _ => OnMap fun blockMap =>
    Replaced logicBlock old blockMap ∧ (blockMap logicBlock).toNat = new)
    (Triple.modify fun nand start => ?_) fun _ => Triple.bind (keeps _) fun taken => ?_
  · refine ⟨start.2.take inData storable (start.1.trans (not_ne_iff.mp free)), ?_⟩
    simp only [Nand.setMap]
    rw [Function.update_of_ne (storable.statusIndex_ne inData), Function.update_self,
      storable.toNat_ofNat]
  · cases taken with
    | true => exact Triple.pure fun _ holds => holds.1
    | false =>
        refine Triple.bind (m := fun _ => OnMap (Replacing logicBlock old))
          (Triple.modify fun nand holds => ?_) fun _ => Triple.pure fun _ holds => holds
        have marked := holds.1.markBad inData
        rw [holds.2] at marked
        exact marked

theorem Replacing.recycle {nand : Nand δ} (replacing : Replacing logicBlock old nand.blockMap) :
    Replacing logicBlock old (sRecycleFreeBlock nand).2.blockMap := by
  have kept : ∀ i, nand.blockMap i ≠ RES_BLOCK_FREE_USED →
      (sRecycleFreeBlock nand).2.blockMap i = nand.blockMap i := by
    intro i other
    unfold sRecycleFreeBlock
    simp only [decide_eq_true_eq]
    rw [if_neg fun freed => other freed.2.2]
  have entry : ∀ i ∈ dataArea, (sRecycleFreeBlock nand).2.blockMap i = nand.blockMap i := by
    intro i member
    have below := member.2
    unfold sRecycleFreeBlock
    simp only [decide_eq_true_eq]
    rw [if_neg (by omega)]
  refine ⟨replacing.others.congr (fun i member => entry i member.1) fun i member => kept _ ?_,
    replacing.oldStorable, fun i member => ?_, ?_, ?_⟩
  · rw [replacing.others.used i member]
    decide
  · rw [entry i member.1]
    exact replacing.oldApart i member
  · rw [kept _ replacing.oldUsed]
    exact replacing.oldKept
  · rw [kept _ replacing.oldUsed]
    exact replacing.oldUsed

/-- What a search preserves: one property until a block was taken, another one from then on. -/
structure Searches (searching found : Nand δ → Prop) (logicBlock : Nat)
    (try_ : Nat → Prog (Nand δ) Bool) : Prop where
  recycle : ∀ nand, searching nand → searching (sRecycleFreeBlock nand).2
  take : ∀ new, Storable new →
    Triple searching (takeBlock logicBlock (statusIndex new) new (try_ new))
      (fun taken nand => if taken then found nand else searching nand) fun _ => True

namespace Searches

variable {searching found : Nand δ → Prop} {try_ : Nat → Prog (Nand δ) Bool}

theorem searchReserve (searches : Searches searching found logicBlock try_) :
    Triple searching (searchReserve logicBlock try_)
      (fun result nand => match result with
        | some _ => found nand
        | none => searching nand) fun _ => True := by
  unfold Flash.searchReserve
  refine Triple.bind (m := fun result nand => match result with
    | some .replaced => found nand
    | some .again => searching nand
    | none => False) ?_ fun ending => Triple.pure fun nand holds => ?_
  · -- the indices left are reserve blocks, and one of them ends the search
    refine (Triple.firstM (fun ending nand => match ending with
        | .replaced => found nand
        | .again => searching nand) (fun _ => True)
      (fun indices nand => ((∀ i ∈ indices, i < DATA_START_NUM + DATA_BLOCK_NUM) ∧
        ∃ i ∈ indices, i < MAP_BLOCK_MAX) ∧ searching nand)
      (fun i rest => Triple.of_fact fun bounds => Triple.ite (fun _ => ?_) fun above => ?_) _).mono
      (fun nand start => ⟨⟨fun i member => ?_, DATA_START_NUM + FS_BLOCK_NUM, ?_, ?_⟩, start⟩)
      (fun result nand holds => ?_) fun _ holds => holds
    · refine Triple.bind (m := fun _ => searching)
        (Triple.step fun nand start => searches.recycle nand start) fun recycled => ?_
      exact Triple.ite (fun _ => Triple.pure fun _ holds => holds)
        fun _ => Triple.halt fun _ _ => trivial
    · obtain ⟨all, j, member, below⟩ := bounds
      have rest : (∀ i ∈ rest, i < DATA_START_NUM + DATA_BLOCK_NUM) ∧
          ∃ i ∈ rest, i < MAP_BLOCK_MAX :=
        ⟨fun i member => all i (List.mem_cons_of_mem _ member), j,
          (List.mem_cons.mp member).resolve_left fun same => above (same ▸ below), below⟩
      have take := searches.take i (.inr ⟨not_lt.mp above, all i List.mem_cons_self⟩)
      rw [show statusIndex i = i from if_pos (by
        simp only [MAP_BLOCK_MAX] at above
        omega)] at take
      refine Triple.bind take fun taken => ?_
      cases taken with
      | true => exact Triple.pure fun _ holds => holds
      | false => exact Triple.pure fun _ holds => ⟨rest, holds⟩
    · have := (mem_blocksDown.mp member).2
      simp only [DATA_START_NUM, DATA_BLOCK_NUM] at *
      omega
    · exact mem_blocksDown.mpr (by decide)
    · decide
    · rcases result with _ | _ | _
      · simp at holds
      · exact holds
      · exact holds
  · rcases ending with _ | _ | _
    · exact holds.elim
    · exact holds
    · exact holds

theorem sReuseDataBlock {data : Buffer} {idlePage : Nat → Bool}
    (searches : Searches searching found logicBlock (copyToBlock chip data idlePage)) :
    Triple searching (sReuseDataBlock chip logicBlock data idlePage)
      (fun ret nand => if ret = NAND_RET_OK then found nand else searching nand)
      fun _ => True := by
  unfold Flash.sReuseDataBlock
  refine Triple.bind (m := fun reused nand => if reused.isSome then found nand
    else searching nand) ?_ fun reused => ?_
  · refine (Triple.firstM (fun _ : Unit => found) (fun _ => True)
      (fun indices nand => (∀ i ∈ indices, DATA_START_NUM + DATA_BLOCK_NUM ≤ i ∧ i < MAP_ENTRIES) ∧
        searching nand)
      (fun i rest => Triple.of_fact fun bounds => ?_) _).mono
      (fun nand start => ⟨fun i member => ?_, start⟩)
      (fun result nand holds => ?_) fun _ holds => holds
    · obtain ⟨above, below⟩ := bounds i List.mem_cons_self
      have member : i - DATA_BLOCK_NUM ∈ dataArea := by
        simp only [dataArea, Set.mem_ofPred_eq, MAP_ENTRIES, DATA_START_NUM, DATA_BLOCK_NUM,
          FS_BLOCK_NUM, RESERVE_BLOCK_NUM] at *
        omega
      have take := searches.take (i - DATA_BLOCK_NUM) (.inl member)
      rw [show statusIndex (i - DATA_BLOCK_NUM) = i by
        rw [statusIndex, if_neg (not_lt.mpr member.2.le)]
        omega] at take
      refine Triple.bind take fun taken => ?_
      cases taken with
      | true => exact Triple.pure fun _ holds => holds
      | false =>
          exact Triple.pure fun _ holds =>
            ⟨fun j member => bounds j (List.mem_cons_of_mem _ member), holds⟩
    · simp only [List.mem_range'_1, MAP_ENTRIES] at *
      omega
    · cases result with
      | some _ => exact holds
      | none => exact holds.2
  · refine Triple.pure fun nand holds => ?_
    cases reused with
    | some _ => exact holds
    | none => exact holds

theorem searchBlock {blockBuff : Buffer} {idlePage : Nat → Bool}
    (searches : Searches searching found logicBlock (copyToBlock chip blockBuff idlePage)) :
    Triple searching (searchBlock chip logicBlock blockBuff idlePage)
      (fun result nand => match result with
        | some _ => found nand
        | none => searching nand) fun _ => True := by
  unfold Flash.searchBlock
  refine Triple.bind (sReuseDataBlock chip searches) fun ret =>
    Triple.ite (fun reused => Triple.pure fun nand holds => ?_) fun failed => ?_
  · simpa only [if_pos reused] using holds
  · simp only [if_neg failed]
    exact searches.searchReserve

end Searches

theorem retry_finds {searching found : Nand δ → Prop} {search : Prog (Nand δ) (Option Unit)}
    (finds : Triple searching search (fun result nand => match result with
        | some _ => found nand
        | none => searching nand) fun _ => True) (fuel : Nat) :
    Triple searching (Prog.retry search fuel) (fun _ => found) fun _ => True :=
  Triple.retry (finds.mono (fun _ start => start)
    (fun result _ holds => by cases result <;> exact holds) fun _ holds => holds)
    (fun _ _ => trivial) fuel

theorem searches_replaced (inData : logicBlock ∈ dataArea) {try_ : Nat → Prog (Nand δ) Bool}
    (keeps : ∀ i, KeepsMap (try_ i)) :
    Searches (OnMap (Replacing logicBlock old)) (OnMap (Replaced logicBlock old)) logicBlock
      try_ where
  recycle nand start := (@Replacing.recycle _ _ _ nand) start
  take new storable := (takeBlock_replaces inData storable rfl (keeps new)).mono
    (fun _ start => start) (fun taken _ holds => by cases taken <;> exact holds)
    fun _ holds => holds

theorem sNandExchangeBlock_replaces (inData : logicBlock ∈ dataArea) :
    Triple (OnMap (Replacing logicBlock old)) (sNandExchangeBlock chip logicBlock)
      (fun _ => OnMap (Replaced logicBlock old)) fun _ => True :=
  Triple.bind (retry_finds (searches_replaced inData (eraseIdle_keepsMap chip)).searchReserve 2)
    fun _ => sReMapBlock_keepsMap chip _

end Replacement

/-! ## Whole runs -/

section Runs

variable {δ : Type} (chip : Chip δ)

/-- The table keeps its invariant on the data area. -/
abbrev Mapped : Nand δ → Prop := OnMap (MapInv · dataArea)

theorem sWriteRead_mapped {logicBlock : Nat} (inData : logicBlock ∈ dataArea) (offset : Nat)
    (data : Buffer) (dataLen : Nat) :
    Triple Mapped (sWriteRead chip logicBlock offset data dataLen) (fun _ => Mapped)
      fun _ => True := by
  unfold sWriteRead
  refine Triple.ite (fun _ => Triple.halt fun _ _ => trivial) fun _ => ?_
  refine Triple.bind (m := fun old => OnMap fun blockMap => MapInv blockMap dataArea ∧
    (blockMap logicBlock).toNat = old) (Triple.read fun nand start => ⟨start, rfl⟩) fun old => ?_
  refine Triple.bind (m := fun _ => OnMap fun blockMap => MapInv blockMap dataArea ∧
    (blockMap logicBlock).toNat = old) (Triple.step_named fun nand ret written run holds => ?_)
    fun _ => Triple.bind (KeepsMap.read _ _) fun result => ?_
  · have same := sNandWrite_blockMap chip nand (old * BLOCK_SIZE + offset) data dataLen
    rw [run] at same
    rwa [OnMap, same]
  refine Triple.ite (fun _ => Triple.pure fun _ holds => holds.1) fun _ => ?_
  refine Triple.bind (KeepsMap.read _ _) fun contents => ?_
  refine Triple.bind (m := fun _ => OnMap (Replaced logicBlock old))
    ((retry_finds ((searches_replaced inData
      (copyToBlock_keepsMap chip contents.1 contents.2)).searchBlock chip) 2).mono
      (fun nand holds => holds.2 ▸ holds.1.replacing inData) (fun _ _ holds => holds)
      fun _ holds => holds) fun _ => ?_
  exact Triple.bind (m := fun _ => Mapped)
    (Triple.modify fun nand holds => holds.giveBack _) fun _ =>
    Triple.bind (sReMapBlock_keepsMap chip _) fun _ => Triple.pure fun _ holds => holds

theorem nandEraseBlock_mapped {i : Nat} (inData : i ∈ dataArea) :
    Triple Mapped (nandEraseBlock chip i) (fun _ => Mapped) fun _ => True := by
  unfold nandEraseBlock
  refine Triple.bind (m := fun old => OnMap fun blockMap => MapInv blockMap dataArea ∧
    (blockMap i).toNat = old) (Triple.read fun nand start => ⟨start, rfl⟩) fun old => ?_
  refine Triple.ite (fun _ => Triple.halt fun _ _ => trivial) fun _ => ?_
  refine Triple.bind (eraseTries_keepsMap chip old _) fun erased => ?_
  cases erased with
  | some _ => exact Triple.pure fun _ holds => holds.1
  | none =>
      refine Triple.bind (m := fun _ => OnMap (Replacing i old))
        (Triple.modify fun nand holds => (holds.2 ▸ holds.1.replacing inData).markOld) fun _ =>
        Triple.bind (sNandExchangeBlock_replaces chip inData) fun _ =>
        Triple.pure fun _ holds => holds.inv

theorem blocksOf_subset {offset size : Nat} (inData : FAT1_ADDR ≤ offset)
    (within : (offset + size) % 2 ^ 32 ≤ (DATA_START_NUM + FS_BLOCK_NUM) * BLOCK_SIZE) :
    ∀ i ∈ blocksOf offset size, i ∈ dataArea := by
  intro i member
  unfold blocksOf at member
  rw [List.mem_range'_1] at member
  have first : DATA_START_NUM ≤ offset / BLOCK_SIZE :=
    (Nat.le_div_iff_mul_le (by decide)).mpr inData
  refine ⟨by omega, ?_⟩
  have last : (offset + size) % 2 ^ 32 / BLOCK_SIZE +
      (if (offset + size) % 2 ^ 32 % BLOCK_SIZE ≠ 0 then 1 else 0) ≤
        DATA_START_NUM + FS_BLOCK_NUM := by
    split
    all_goals
      simp only [BLOCK_SIZE] at *
      omega
  omega

theorem nandErase_each {inv : Nand δ → Prop} {offset : Nat} (size : Nat)
    (inData : FAT1_ADDR ≤ offset)
    (each : ∀ i ∈ dataArea, Triple inv (nandEraseBlock chip i) (fun _ => inv) fun _ => True) :
    Triple inv (nandErase chip offset size) (fun _ => inv) fun _ => True := by
  unfold nandErase
  refine Triple.ite (fun _ => Triple.halt fun _ _ => trivial) fun within => ?_
  have blocks := blocksOf_subset inData (not_lt.mp within)
  refine Triple.bind (m := fun _ => inv) ?_ fun _ => Triple.pure fun _ holds => holds
  refine (Triple.firstM (fun _ : Unit => inv) (fun _ => True)
    (fun indices nand => (∀ i ∈ indices, i ∈ dataArea) ∧ inv nand)
    (fun i rest => Triple.of_fact fun inside => ?_) _).mono
    (fun nand start => ⟨blocks, start⟩) (fun result nand holds => ?_) fun _ holds => holds
  · refine (each i (inside i List.mem_cons_self)).mono
      (fun _ start => start) (fun result nand holds => ?_) fun _ holds => holds
    cases result with
    | some _ => exact holds
    | none => exact ⟨fun j member => inside j (List.mem_cons_of_mem _ member), holds⟩
  · cases result with
    | some _ => exact holds
    | none => exact holds.2

theorem nandWriteLoop_each {inv : Nand δ → Prop} (startBlockNum : Nat) {blockOffset : Nat}
    (first : blockOffset < BLOCK_SIZE) (data : Buffer)
    (each : ∀ i ∈ dataArea, ∀ offset part dataLen, offset + dataLen ≤ BLOCK_SIZE →
      Triple inv (sWriteRead chip i offset part dataLen) (fun _ => inv) fun _ => True)
    (blocks : List Nat) (inside : ∀ i ∈ blocks, i ∈ dataArea) (done dataLen : Nat) :
    Triple inv (nandWriteLoop chip startBlockNum blockOffset data blocks done dataLen)
      (fun _ => inv) fun _ => True := by
  induction blocks generalizing done dataLen with
  | nil => exact Triple.pure fun _ holds => holds
  | cons logicBlock rest ih =>
      have inData := inside logicBlock List.mem_cons_self
      have start : (if logicBlock = startBlockNum then blockOffset else 0) < BLOCK_SIZE := by
        split
        · exact first
        · decide
      unfold nandWriteLoop
      generalize (if logicBlock = startBlockNum then blockOffset else 0) = offset at start ⊢
      refine Triple.ite (fun fits => ?_) fun _ => ?_
      · by_cases long : BLOCK_SIZE < dataLen
        · unfold sWriteRead
          rw [if_pos long]
          exact Triple.halt fun _ _ => trivial
        · refine each logicBlock inData offset _ dataLen ?_
          simp only [BLOCK_SIZE] at *
          omega
      · refine Triple.bind (each logicBlock inData offset _ _ (by omega)) fun ret =>
          Triple.ite (fun _ => Triple.pure fun _ holds => holds) fun _ => ?_
        exact ih (fun i member => inside i (List.mem_cons_of_mem _ member)) _ _

theorem nandWrite_each {inv : Nand δ → Prop} {offset : Nat} (data : Buffer) (dataLen : Nat)
    (inData : FAT1_ADDR ≤ offset)
    (each : ∀ i ∈ dataArea, ∀ offset part dataLen, offset + dataLen ≤ BLOCK_SIZE →
      Triple inv (sWriteRead chip i offset part dataLen) (fun _ => inv) fun _ => True) :
    Triple inv (nandWrite chip offset data dataLen) (fun _ => inv) fun _ => True := by
  unfold nandWrite
  refine Triple.ite (fun _ => Triple.halt fun _ _ => trivial) fun within => ?_
  exact nandWriteLoop_each chip _ (Nat.mod_lt _ (by decide)) data each _
    (blocksOf_subset inData (not_lt.mp within)) _ _

theorem freshMap_mapped : MapInv freshMap dataArea := by
  have entry : ∀ i ∈ dataArea, freshMap i = BitVec.ofNat 16 i := fun i member => by
    rw [freshMap, if_pos (by have := member.2; omega)]
  have number : ∀ i ∈ dataArea, (freshMap i).toNat = i := fun i member => by
    rw [entry i member, Storable.toNat_ofNat (.inl member)]
  refine ⟨fun i member => ?_, fun i member => ?_, fun i member j member' same => ?_⟩
  · rw [number i member]
    exact .inl member
  · rw [number i member, statusIndex, if_neg (not_lt.mpr member.2.le)]
    obtain ⟨above, below⟩ := member
    simp only [DATA_START_NUM, FS_BLOCK_NUM, DATA_BLOCK_NUM, RESERVE_BLOCK_NUM] at above below
    rw [freshMap, if_neg, if_neg, if_neg]
    all_goals
      simp only [MAP_BLOCK_MAX, DATA_START_NUM, FS_BLOCK_NUM, DATA_BLOCK_NUM, RESERVE_BLOCK_NUM]
      omega
  · rw [← number i member, ← number j member', same]

theorem createMapCopy_keepsMap (first : Nat) : KeepsMap (createMapCopy chip first) :=
  fun property => (createMapCopy_keeps (onMap_mapWritesKeep chip property) first).triple

theorem sCreateBlockMapTable_mapped :
    Triple (fun _ => True) (sCreateBlockMapTable chip) (fun _ => Mapped) fun _ => True := by
  unfold sCreateBlockMapTable
  refine Triple.bind (m := fun _ => Mapped) (Triple.modify fun _ _ => freshMap_mapped)
    fun _ => Triple.bind (createMapCopy_keepsMap chip _ _) fun written => ?_
  cases written with
  | none => exact Triple.halt fun _ _ => trivial
  | some i =>
      refine Triple.ite (fun _ => Triple.halt fun _ _ => trivial) fun _ =>
        Triple.bind (createMapCopy_keepsMap chip _ _) fun other => ?_
      cases other with
      | none => exact Triple.halt fun _ _ => trivial
      | some _ => exact Triple.pure fun _ holds => holds

/-- A call of the file system to the driver. -/
inductive NandCall where
  | write (offset : Nat) (data : Buffer) (dataLen : Nat)
  | erase (offset size : Nat)

/-- The first byte a call touches. -/
def NandCall.offset : NandCall → Nat
  | .write offset _ _ => offset
  | .erase offset _ => offset

/-- A call carried out. -/
def NandCall.run : NandCall → Prog (Nand δ) Int
  | .write offset data dataLen => nandWrite chip offset data dataLen
  | .erase offset size => nandErase chip offset size

/-- Calls carried out one after the other. -/
def runCalls : List NandCall → Prog (Nand δ) Unit
  | [] => pure ()
  | call :: rest => do
      let _ ← call.run chip
      runCalls rest

theorem runCalls_mapped (calls : List NandCall)
    (inData : ∀ call ∈ calls, FAT1_ADDR ≤ call.offset) :
    Triple Mapped (runCalls chip calls) (fun _ => Mapped) fun _ => True := by
  induction calls with
  | nil => exact Triple.pure fun _ holds => holds
  | cons call rest ih =>
      have here := inData call List.mem_cons_self
      refine Triple.bind (m := fun _ => Mapped) ?_ fun _ =>
        ih fun other member => inData other (List.mem_cons_of_mem _ member)
      cases call with
      | write offset data dataLen =>
          exact nandWrite_each chip data dataLen here fun i inside offset part dataLen _ =>
            sWriteRead_mapped chip inside offset part dataLen
      | erase offset size =>
          exact nandErase_each chip size here fun i inside => nandEraseBlock_mapped chip inside

end Runs

end PosFirmware.Flash
