import PosFirmware.Flash.MovedBlock

/-! # Erasing a range

A logical block that `nand_erase` reaches is stored in an erased block afterwards
(`nandEraseBlock_erases`). The loop over the range is left at the first block that
can be erased where it is, so that the range is erased exactly when the blocks behind
that one were erased before (`nandErase_erases_iff`).
-/

namespace PosFirmware.Flash

open PosFirmware.Foundation

variable {δ : Type} {chip : Chip δ} {ref nand : Nand δ}

/-- A physical block reads as erased. -/
def ReadsIdle (chip : Chip δ) (phyBlock : Nat) (nand : Nand δ) : Prop :=
  sameBytes (sNandRead chip nand (phyBlock * BLOCK_SIZE) BLOCK_SIZE).2 idleBytes BLOCK_SIZE

/-- A logical block is stored in a block that reads as erased. -/
def Erased (chip : Chip δ) (nand : Nand δ) (i : Nat) : Prop :=
  ReadsIdle chip (nand.blockMap i).toNat nand

theorem Untouched.erased_iff {i : Nat} (untouched : Untouched chip ref nand i)
    (mapped : Mapped ref) (mapped' : Mapped nand) (inData : i ∈ dataArea) :
    Erased chip nand i ↔ Erased chip ref i := by
  have read := (@Untouched.read _ _ _ _ i 0 BLOCK_SIZE) untouched mapped mapped' inData (by decide)
  rw [Nat.add_zero, Nat.add_zero] at read
  unfold Erased ReadsIdle
  rw [read]

/-! ## One block -/

section OneBlock

variable {logicBlock phyBlock : Nat} (framed : chip.Framed)
include framed

theorem eraseIdle_tries : Tries chip ref logicBlock (ReadsIdle chip) (eraseIdle chip) := by
  intro new apart property
  unfold eraseIdle
  refine Triple.bind (m := fun _ nand => OnMap property nand ∧ Others chip ref logicBlock nand)
    (Triple.step fun nand holds => ?_) fun _ => Triple.read fun nand holds => ⟨holds, fun idle => idle⟩
  exact ⟨onMap_erase chip property nand new holds.1, holds.2.erase framed apart⟩

theorem eraseTries_idle (apart : Apart ref logicBlock phyBlock) (property : (Nat → Ushort) → Prop) :
    Triple (fun nand => OnMap property nand ∧ Others chip ref logicBlock nand)
      (eraseTries chip phyBlock)
      (fun result nand => (OnMap property nand ∧ Others chip ref logicBlock nand) ∧
        (result.isSome → ReadsIdle chip phyBlock nand)) fun _ => True := by
  unfold eraseTries
  refine Triple.bind (m := fun _ nand => OnMap property nand ∧ Others chip ref logicBlock nand)
    (Triple.step fun nand holds => ?_) fun ret => ?_
  · exact ⟨onMap_erase chip property nand phyBlock holds.1, holds.2.erase framed apart⟩
  refine Triple.bind (m := fun idle nand => (OnMap property nand ∧
    Others chip ref logicBlock nand) ∧ (idle = true → ReadsIdle chip phyBlock nand))
    (Triple.read fun nand holds => ⟨holds, fun idle => idle⟩) fun idle => ?_
  refine Triple.ite (fun _ => Triple.pure fun _ holds => ⟨holds.1, nofun⟩) fun _ =>
    Triple.ite (fun isIdle => Triple.pure fun _ holds => ⟨holds.1, fun _ => holds.2 isIdle⟩)
      fun _ => ?_
  refine (Triple.firstM (fun _ nand => (OnMap property nand ∧ Others chip ref logicBlock nand) ∧
      ReadsIdle chip phyBlock nand) (fun _ => True)
    (fun _ nand => OnMap property nand ∧ Others chip ref logicBlock nand)
    (fun _ _ => Triple.bind (eraseIdle_tries framed phyBlock apart property) fun isIdle => ?_)
    _).mono (fun _ holds => holds.1) (fun result nand holds => ?_) fun _ holds => holds
  · refine Triple.ite (fun isTrue => Triple.pure fun _ holds => ⟨holds.1, holds.2 isTrue⟩)
      fun _ => Triple.pure fun _ holds => holds.1
  · cases result with
    | some _ => exact ⟨holds.1, fun _ => holds.2⟩
    | none => exact ⟨holds, nofun⟩

/-- What erasing one logical block leaves. -/
structure EraseEnds (chip : Chip δ) (ref : Nand δ) (i : Nat) (nand : Nand δ) : Prop where
  mapped : Mapped nand
  others : Others chip ref i nand
  erased : Erased chip nand i

theorem sNandExchangeBlock_erases {i old : Nat} (inData : i ∈ dataArea) :
    Triple (Moving chip ref i old) (sNandExchangeBlock chip i) (fun _ => EraseEnds chip ref i)
      fun _ => True := by
  unfold sNandExchangeBlock
  refine Triple.bind (retry_finds
    (searches_moved inData (eraseIdle_tries framed)).searchReserve 2) fun _ =>
    Triple.each fun mid moved => ?_
  refine (sReMapBlock_outside framed mid).triple.mono
    (fun nand start => start ▸ ⟨rfl, fun _ _ _ _ => rfl⟩) (fun _ nand outside => ?_)
    fun _ holds => holds
  have midMapped : Mapped mid := moved.table.inv
  have here := outside.untouched midMapped inData
  exact ⟨outside.mapped midMapped, fun j member => (moved.others j member).trans
    (outside.untouched midMapped member.1),
    (here.erased_iff midMapped (outside.mapped midMapped) inData).mpr moved.good⟩

theorem nandEraseBlock_erases {i : Nat} (inData : i ∈ dataArea) (mapped : Mapped ref) :
    Triple (fun nand => nand = ref) (nandEraseBlock chip i) (fun _ => EraseEnds chip ref i)
      fun _ => True := by
  have apart : Apart ref i (ref.blockMap i).toNat := (mapped.replacing inData).oldApart
  unfold nandEraseBlock
  refine Triple.bind (m := fun old nand => old = (ref.blockMap i).toNat ∧
    OnMap (· = ref.blockMap) nand ∧ Others chip ref i nand)
    (Triple.read fun nand start => ?_) fun old => Triple.of_fact fun number =>
    Triple.ite (fun _ => Triple.halt fun _ _ => trivial) fun _ => ?_
  · subst start
    exact ⟨rfl, rfl, fun j _ => Untouched.refl chip nand j⟩
  subst number
  refine Triple.bind (eraseTries_idle framed apart _) fun result => ?_
  cases result with
  | some _ =>
      refine Triple.pure fun nand holds => ?_
      obtain ⟨⟨table, others⟩, idle⟩ := holds
      have same : nand.blockMap = ref.blockMap := table
      refine ⟨?_, others, ?_⟩
      · rw [Mapped, OnMap, same]
        exact mapped
      · rw [Erased, same]
        exact idle rfl
  | none =>
      refine Triple.bind (m := fun _ => Moving chip ref i (ref.blockMap i).toNat)
        (Triple.modify fun nand holds => ?_) fun _ => Triple.bind
        (sNandExchangeBlock_erases framed inData) fun _ => Triple.pure fun _ holds => holds
      obtain ⟨⟨table, others⟩, -⟩ := holds
      have same : nand.blockMap = ref.blockMap := table
      refine ⟨?_, others.setMap _ (statusIndex_not_mem (mapped.storable i inData))⟩
      have marked := (mapped.replacing inData).markOld
      rw [← same] at marked ⊢
      exact marked

end OneBlock

/-! ## The range -/

/-- The blocks of a range behind the one at which the loop of `nand_erase` is left: that one
could be erased where it is. -/
def unreached (chip : Chip δ) : List Nat → Nand δ → List Nat
  | [], _ => []
  | i :: rest, nand => match nandEraseBlock chip i nand with
      | (some (some _), _) => rest
      | (some none, nand') => unreached chip rest nand'
      | (none, _) => []

theorem unreached_subset (blocks : List Nat) (nand : Nand δ) :
    ∀ i ∈ unreached chip blocks nand, i ∈ blocks := by
  induction blocks generalizing nand with
  | nil => exact fun _ member => member
  | cons i rest ih =>
      intro j member
      unfold unreached at member
      rcases run : nandEraseBlock chip i nand with ⟨_ | _ | _, nand'⟩
      · rw [run] at member
        cases member
      · rw [run] at member
        exact List.mem_cons_of_mem _ (ih nand' j member)
      · rw [run] at member
        exact List.mem_cons_of_mem _ member

/-- What the loop over a range did: the blocks it reached are erased, all others untouched. -/
structure LoopEnds (chip : Chip δ) (blocks : List Nat) (ref nand : Nand δ) : Prop where
  mapped : Mapped nand
  erased : ∀ i ∈ blocks, i ∉ unreached chip blocks ref → Erased chip nand i
  untouched : ∀ i ∈ dataArea, i ∉ blocks ∨ i ∈ unreached chip blocks ref →
    Untouched chip ref nand i

theorem eraseLoop_ends (framed : chip.Framed) {blocks : List Nat}
    (inside : ∀ i ∈ blocks, i ∈ dataArea) (distinct : blocks.Nodup) {ref nand : Nand δ}
    (mapped : Mapped ref) {result : Option Unit}
    (run : Prog.firstM (nandEraseBlock chip) blocks ref = (some result, nand)) :
    LoopEnds chip blocks ref nand := by
  induction blocks generalizing ref with
  | nil =>
      cases run
      exact ⟨mapped, nofun, fun i _ _ => Untouched.refl chip nand i⟩
  | cons i rest ih =>
      obtain ⟨fresh, distinct⟩ := List.nodup_cons.mp distinct
      have inData := inside i List.mem_cons_self
      rcases first : nandEraseBlock chip i ref with ⟨_ | _ | _, mid⟩
      · rw [Prog.firstM, Prog.bind_of_none first] at run
        cases run
      · obtain ⟨midMapped, others, erased⟩ : EraseEnds chip ref i mid :=
          (nandEraseBlock_erases framed inData mapped).returns rfl first
        rw [Prog.firstM_of_none first] at run
        have ends := ih (fun j member => inside j (List.mem_cons_of_mem _ member)) distinct
          midMapped run
        have left : unreached chip (i :: rest) ref = unreached chip rest mid := by
          rw [unreached, first]
        have notLeft : i ∉ unreached chip rest mid := fun member =>
          fresh (unreached_subset rest mid i member)
        refine ⟨ends.mapped, fun j member reached => ?_, fun j member outside => ?_⟩
        · rw [left] at reached
          rcases List.mem_cons.mp member with rfl | later
          · exact ((ends.untouched j inData (.inl fresh)).erased_iff midMapped ends.mapped
              inData).mpr erased
          · exact ends.erased j later reached
        · rw [left] at outside
          have away : j ≠ i := by
            rintro rfl
            exact outside.elim (· List.mem_cons_self) notLeft
          refine (others j ⟨member, away⟩).trans (ends.untouched j member ?_)
          exact outside.imp_left fun absent later => absent (List.mem_cons_of_mem _ later)
      · obtain ⟨midMapped, others, erased⟩ : EraseEnds chip ref i mid :=
          (nandEraseBlock_erases framed inData mapped).returns rfl first
        rw [Prog.firstM_of_some first] at run
        cases run
        have left : unreached chip (i :: rest) ref = rest := by
          rw [unreached, first]
        refine ⟨midMapped, fun j member reached => ?_, fun j member outside => ?_⟩
        · rw [left] at reached
          rw [(List.mem_cons.mp member).resolve_right reached]
          exact erased
        · rw [left] at outside
          refine others j ⟨member, ?_⟩
          rintro rfl
          exact outside.elim (· List.mem_cons_self) fresh

/-- The logical blocks of a range of bytes. -/
def rangeBlocks (offset size : Nat) : Set Nat :=
  { i | offset ≤ i * BLOCK_SIZE ∧ i * BLOCK_SIZE < offset + size }

/-- What erasing a range is for: every block of it is erased, no other block changed. -/
structure ErasesRange (chip : Chip δ) (offset size : Nat) (ref nand : Nand δ) : Prop where
  erased : ∀ i ∈ rangeBlocks offset size, Erased chip nand i
  untouched : ∀ i ∈ dataArea, i ∉ rangeBlocks offset size → Untouched chip ref nand i

theorem mem_blocksOf {offset size : Nat} (aligned : BLOCK_SIZE ∣ offset)
    (aligned' : BLOCK_SIZE ∣ size)
    (within : offset + size ≤ (DATA_START_NUM + FS_BLOCK_NUM) * BLOCK_SIZE) (i : Nat) :
    i ∈ blocksOf offset size ↔ i ∈ rangeBlocks offset size := by
  obtain ⟨first, rfl⟩ := aligned
  obtain ⟨count, rfl⟩ := aligned'
  change BLOCK_SIZE * first + BLOCK_SIZE * count ≤ 960 * BLOCK_SIZE at within
  rw [← Nat.mul_add, Nat.mul_comm] at within
  have last := Nat.le_of_mul_le_mul_right within (by decide)
  unfold blocksOf
  rw [List.mem_range'_1, ← Nat.mul_add, Nat.mod_eq_of_lt, Nat.mul_div_cancel_left _ (by decide),
    Nat.mul_div_cancel_left _ (by decide), Nat.mul_mod_right, if_neg (by simp)]
  · change _ ↔ BLOCK_SIZE * first ≤ i * BLOCK_SIZE ∧
      i * BLOCK_SIZE < BLOCK_SIZE * first + BLOCK_SIZE * count
    rw [← Nat.mul_add, Nat.mul_comm i, Nat.mul_le_mul_left_iff (by decide),
      Nat.mul_lt_mul_left (by decide)]
    omega
  · change 131072 * (first + count) < 4294967296
    omega

/-- **A range is erased when the blocks behind the first one erased in place were.** After
`nand_erase` succeeded on an aligned range of the data area, whatever erases failed, the whole
range is erased and nothing else changed if and only if the blocks at which the loop did not
arrive were erased before. -/
theorem nandErase_erases_iff (framed : chip.Framed) {offset size : Nat}
    (aligned : BLOCK_SIZE ∣ offset) (aligned' : BLOCK_SIZE ∣ size) (inData : FAT1_ADDR ≤ offset)
    (within : offset + size ≤ (DATA_START_NUM + FS_BLOCK_NUM) * BLOCK_SIZE)
    {ref nand : Nand δ} (mapped : Mapped ref) {ret : Int}
    (run : nandErase chip offset size ref = (some ret, nand)) :
    ErasesRange chip offset size ref nand ↔
      ∀ i ∈ unreached chip (blocksOf offset size) ref, Erased chip ref i := by
  have small : offset + size < 2 ^ 32 := by
    change offset + size ≤ 960 * 131072 at within
    omega
  have inside := blocksOf_subset inData (by rwa [Nat.mod_eq_of_lt small])
  have ends : LoopEnds chip (blocksOf offset size) ref nand := by
    unfold nandErase at run
    rw [if_neg (by rw [Nat.mod_eq_of_lt small]; exact not_lt.mpr within)] at run
    rcases loop : Prog.firstM (nandEraseBlock chip) (blocksOf offset size) ref with ⟨_ | result, mid⟩
    · rw [Prog.bind_of_none loop] at run
      cases run
    · rw [Prog.bind_of_some loop] at run
      cases run
      exact eraseLoop_ends framed inside List.nodup_range' mapped loop
  have members := mem_blocksOf aligned aligned' within
  constructor
  · intro erases i left
    have member := unreached_subset _ _ i left
    exact ((ends.untouched i (inside i member) (.inr left)).erased_iff mapped ends.mapped
      (inside i member)).mp (erases.erased i ((members i).mp member))
  · intro before
    refine ⟨fun i inRange => ?_, fun i data outside =>
      ends.untouched i data (.inl fun member => outside ((members i).mp member))⟩
    have member := (members i).mpr inRange
    by_cases left : i ∈ unreached chip (blocksOf offset size) ref
    · exact ((ends.untouched i (inside i member) (.inr left)).erased_iff mapped ends.mapped
        (inside i member)).mpr (before i left)
    · exact ends.erased i member left

theorem nandErase_erases_iff_moved :
    ErasesRange (faultFree (· == 100)) (100 * BLOCK_SIZE) BLOCK_SIZE (created (· == 100)) moved ↔
      ∀ i ∈ unreached (faultFree (· == 100)) (blocksOf (100 * BLOCK_SIZE) BLOCK_SIZE)
        (created (· == 100)), Erased (faultFree (· == 100)) (created (· == 100)) i :=
  nandErase_erases_iff faultFree_framed (Nat.dvd_mul_left _ _) dvd_rfl (by decide) (by decide)
    freshMap_mapped nandErase_created

/-! ## Two blocks on a chip without faults -/

/-- The driver with an entry in the log, which carries no error correction. -/
def logWritten : Nand Pages :=
  ⟨freshMap, Function.update blank (66 * BLOCK_PAGES) fun i => if i = 0 then 0 else 0xFF⟩

theorem faultFree_nandEraseBlock {isBadBlock : Nat → Bool} {nand : Nand Pages} {i phyBlock : Nat}
    (entry : (nand.blockMap i).toNat = phyBlock) (inside : DATA_START_NUM ≤ phyBlock)
    (good : isBadBlock phyBlock = false) (data : phyBlock ≤ DATA_START_NUM + FS_BLOCK_NUM) :
    nandEraseBlock (faultFree isBadBlock) i nand =
      (some (some ()), { nand with chip := nand.chip.erase phyBlock }) := by
  have idle := congrArg Prod.fst (faultFree_eraseIdle nand inside good)
  rw [eraseIdle, Prog.step_bind_run, faultFree_sNandErase nand inside good, Prog.read_run] at idle
  have tried : eraseTries (faultFree isBadBlock) phyBlock nand =
      (some (some ()), { nand with chip := nand.chip.erase phyBlock }) := by
    rw [eraseTries, Prog.step_bind_run, faultFree_sNandErase nand inside good,
      Prog.read_bind_run, if_neg (fun differs => differs rfl), if_pos (Option.some.inj idle)]
    rfl
  rw [nandEraseBlock, Prog.read_bind_run, entry,
    if_neg (fun reserve => absurd reserve.1 (not_lt.mpr data)), Prog.bind_of_some tried]
  rfl

/-- The first block of the range is erased, and the second one keeps its entry. -/
theorem nandErase_leavesLog : ∃ nand,
    nandErase (faultFree fun _ => false) (65 * BLOCK_SIZE) (2 * BLOCK_SIZE) logWritten =
      (some NAND_RET_OK, nand) ∧
    ¬ ErasesRange (faultFree fun _ => false) (65 * BLOCK_SIZE) (2 * BLOCK_SIZE) logWritten nand := by
  have first := (@faultFree_nandEraseBlock (fun _ => false) logWritten 65 65) (by decide)
    (by decide) rfl (by decide)
  have blocks : blocksOf (65 * BLOCK_SIZE) (2 * BLOCK_SIZE) = [65, 66] := by decide
  refine ⟨⟨freshMap, logWritten.chip.erase 65⟩, ?_, fun erases => ?_⟩
  · rw [nandErase, if_neg (by decide), blocks, Prog.bind_of_some (Prog.firstM_of_some first)]
    rfl
  · have idle := (sameBytes_iff _ _ _).mp (erases.erased 66 ⟨by decide, by decide⟩) 0 (by decide)
    rw [sNandRead_apply _ _ _ _ _ (by decide), nandPhyPageRead, if_neg (by decide),
      if_pos (by decide)] at idle
    exact absurd idle (by decide)

end PosFirmware.Flash
