import Mathlib.Data.List.Pairwise
import Mathlib.Data.List.Perm.Basic

/-! # Blocks that tile a range

Blocks of at least a least length that lie apart in a range of addresses and leave no address
of it out, in any order. A block may be split (`Tiling.split`), and two that touch may be joined
(`Tiling.join`).
-/

namespace PosFirmware.Foundation

/-- The addresses from one on. -/
structure Block where
  addr : Nat
  len : Nat
  deriving DecidableEq

namespace Block

/-- The first address behind a block. -/
def stop (block : Block) : Nat := block.addr + block.len

def Apart (one other : Block) : Prop := one.stop ≤ other.addr ∨ other.stop ≤ one.addr

theorem Apart.symm {one other : Block} (apart : Apart one other) : Apart other one := Or.symm apart

end Block

instance : Std.Symm Block.Apart := ⟨fun _ _ => Block.Apart.symm⟩

/-- Blocks that tile a range. -/
structure Tiling (lo hi least : Nat) (blocks : List Block) : Prop where
  apart : blocks.Pairwise Block.Apart
  long : ∀ block ∈ blocks, least ≤ block.len
  inside : ∀ block ∈ blocks, lo ≤ block.addr ∧ block.stop ≤ hi
  cover : ∀ a, lo ≤ a → a < hi → ∃ block ∈ blocks, block.addr ≤ a ∧ a < block.stop

namespace Tiling

variable {lo hi least : Nat} {blocks blocks' rest : List Block} {block one other : Block}

theorem perm (tiling : Tiling lo hi least blocks) (same : blocks'.Perm blocks) :
    Tiling lo hi least blocks' where
  apart := (same.pairwise_iff Block.Apart.symm).mpr tiling.apart
  long block member := tiling.long block (same.mem_iff.mp member)
  inside block member := tiling.inside block (same.mem_iff.mp member)
  cover a above below := by
    obtain ⟨block, member, covers⟩ := tiling.cover a above below
    exact ⟨block, same.mem_iff.mpr member, covers⟩

theorem apart_of_ne (tiling : Tiling lo hi least blocks) (oneIn : one ∈ blocks)
    (otherIn : other ∈ blocks) (different : one ≠ other) : one.Apart other :=
  tiling.apart.forall oneIn otherIn different

/-- No two blocks start at one address. -/
theorem starts_nodup (tiling : Tiling lo hi least blocks) (positive : 0 < least) :
    (blocks.map Block.addr).Nodup := by
  refine List.pairwise_map.mpr (tiling.apart.imp_of_mem fun {one other} oneIn otherIn apart => ?_)
  have long := tiling.long one oneIn
  have long' := tiling.long other otherIn
  unfold Block.Apart Block.stop at apart
  omega

/-- A block is split where both parts are long enough. -/
theorem split {n : Nat} (tiling : Tiling lo hi least (block :: rest)) (first : least ≤ n)
    (second : n + least ≤ block.len) :
    Tiling lo hi least (⟨block.addr, n⟩ :: ⟨block.addr + n, block.len - n⟩ :: rest) := by
  obtain ⟨apart, others⟩ := List.pairwise_cons.mp tiling.apart
  have inside := tiling.inside block List.mem_cons_self
  unfold Block.stop at inside
  refine ⟨List.pairwise_cons.mpr ⟨?_, List.pairwise_cons.mpr ⟨?_, others⟩⟩, ?_, ?_, ?_⟩
  · rintro other (_ | ⟨_, member⟩)
    · exact .inl (Nat.le_refl _)
    · have away := apart other member
      unfold Block.Apart Block.stop at *
      dsimp only
      omega
  · intro other member
    have away := apart other member
    unfold Block.Apart Block.stop at *
    dsimp only
    omega
  · rintro other (_ | ⟨_, _ | ⟨_, member⟩⟩)
    · exact first
    · exact Nat.le_sub_of_add_le (by omega)
    · exact tiling.long other (List.mem_cons_of_mem _ member)
  · rintro other (_ | ⟨_, _ | ⟨_, member⟩⟩)
    · unfold Block.stop
      dsimp only
      omega
    · unfold Block.stop
      dsimp only
      omega
    · exact tiling.inside other (List.mem_cons_of_mem _ member)
  · intro a above below
    obtain ⟨other, member, from_, till⟩ := tiling.cover a above below
    rcases List.mem_cons.mp member with rfl | member
    · unfold Block.stop at till
      by_cases early : a < other.addr + n
      · exact ⟨_, List.mem_cons_self, from_, early⟩
      · refine ⟨_, List.mem_cons_of_mem _ List.mem_cons_self, Nat.le_of_not_lt early, ?_⟩
        unfold Block.stop
        dsimp only
        omega
    · exact ⟨other, List.mem_cons_of_mem _ (List.mem_cons_of_mem _ member), from_, till⟩

/-- Two blocks that touch are joined. -/
theorem join (tiling : Tiling lo hi least (one :: other :: rest)) (positive : 0 < least)
    (touch : one.stop = other.addr) :
    Tiling lo hi least (⟨one.addr, one.len + other.len⟩ :: rest) := by
  obtain ⟨apart, pairs⟩ := List.pairwise_cons.mp tiling.apart
  obtain ⟨apart', others⟩ := List.pairwise_cons.mp pairs
  have inside := tiling.inside one List.mem_cons_self
  have inside' := tiling.inside other (List.mem_cons_of_mem _ List.mem_cons_self)
  have long := tiling.long one List.mem_cons_self
  unfold Block.stop at touch inside inside'
  refine ⟨List.pairwise_cons.mpr ⟨?_, others⟩, ?_, ?_, ?_⟩
  · intro third member
    have away := apart third (List.mem_cons_of_mem _ member)
    have away' := apart' third member
    have some_ := tiling.long third (List.mem_cons_of_mem _ (List.mem_cons_of_mem _ member))
    unfold Block.Apart Block.stop at *
    dsimp only
    omega
  · rintro third (_ | ⟨_, member⟩)
    · exact Nat.le_trans long (Nat.le_add_right _ _)
    · exact tiling.long third (List.mem_cons_of_mem _ (List.mem_cons_of_mem _ member))
  · rintro third (_ | ⟨_, member⟩)
    · unfold Block.stop
      dsimp only
      omega
    · exact tiling.inside third (List.mem_cons_of_mem _ (List.mem_cons_of_mem _ member))
  · intro a above below
    obtain ⟨third, member, from_, till⟩ := tiling.cover a above below
    unfold Block.stop at till
    rcases List.mem_cons.mp member with rfl | member
    · refine ⟨_, List.mem_cons_self, from_, ?_⟩
      unfold Block.stop
      dsimp only
      omega
    · rcases List.mem_cons.mp member with rfl | member
      · refine ⟨_, List.mem_cons_self, ?_, ?_⟩
        · dsimp only
          omega
        · unfold Block.stop
          dsimp only
          omega
      · exact ⟨third, List.mem_cons_of_mem _ member, from_, till⟩

end Tiling

end PosFirmware.Foundation
