import Mathlib.Data.List.Nodup
import Mathlib.Logic.Function.Basic

/-! # Rings of doubly linked nodes

A head and the nodes that links lead through, forward and back, until they come to the head
again. A node is put before the head (`Ring.insertTail`), and the node behind it is taken out
(`Ring.removeFirst`).
-/

namespace PosFirmware.Foundation

variable {α : Type*}

/-- Links in both directions from a first node through the nodes of a list to a last one. -/
def Links (next prev : α → α) : α → List α → α → Prop
  | first, [], last => next first = last ∧ prev last = first
  | first, node :: rest, last =>
      (next first = node ∧ prev node = first) ∧ Links next prev node rest last

/-- Links from a head through different nodes and back to it. -/
structure Ring (next prev : α → α) (head : α) (nodes : List α) : Prop where
  links : Links next prev head nodes head
  nodup : (head :: nodes).Nodup

variable {next prev next' prev' : α → α} {first last head node : α} {nodes front back : List α}

namespace Links

theorem through_iff : Links next prev first (front ++ node :: back) last ↔
    Links next prev first front node ∧ Links next prev node back last := by
  induction front generalizing first with
  | nil => exact Iff.rfl
  | cons second front ih => exact (and_congr_right fun _ => ih).trans and_assoc.symm

theorem congr (sameNext : ∀ other ∈ first :: nodes, next' other = next other)
    (samePrev : ∀ other ∈ nodes ++ [last], prev' other = prev other)
    (links : Links next prev first nodes last) : Links next' prev' first nodes last := by
  induction nodes generalizing first with
  | nil =>
      refine ⟨?_, ?_⟩
      · rw [sameNext first List.mem_cons_self, links.1]
      · rw [samePrev last List.mem_cons_self, links.2]
  | cons node rest ih =>
      refine ⟨⟨?_, ?_⟩, ih (fun other member => sameNext other (List.mem_cons_of_mem _ member))
        (fun other member => samePrev other (List.mem_cons_of_mem _ member)) links.2⟩
      · rw [sameNext first List.mem_cons_self, links.1.1]
      · rw [samePrev node List.mem_cons_self, links.1.2]

/-- The node before the last one. -/
theorem before_last (links : Links next prev first nodes last) :
    prev last ∈ first :: nodes ∧ next (prev last) = last := by
  induction nodes generalizing first with
  | nil =>
      rw [links.2]
      exact ⟨List.mem_cons_self, links.1⟩
  | cons node rest ih =>
      obtain ⟨member, leads⟩ := ih links.2
      exact ⟨List.mem_cons_of_mem _ member, leads⟩

end Links

namespace Ring

theorem congr (sameNext : ∀ other ∈ head :: nodes, next' other = next other)
    (samePrev : ∀ other ∈ head :: nodes, prev' other = prev other)
    (ring : Ring next prev head nodes) : Ring next' prev' head nodes := by
  refine ⟨ring.links.congr sameNext fun other member => samePrev other ?_, ring.nodup⟩
  rw [List.mem_append, List.mem_singleton] at member
  exact List.mem_cons.mpr member.symm

variable [DecidableEq α]

/-- With a node between the one before the head and the head. -/
theorem insertTail (ring : Ring next prev head nodes) (new : node ∉ head :: nodes) :
    Ring (Function.update (Function.update next node head) (prev head) node)
      (Function.update (Function.update prev node (prev head)) head node) head (nodes ++ [node]) := by
  have once := ring.nodup
  have notHead : node ≠ head := fun same => new (same ▸ List.mem_cons_self)
  refine ⟨?_, by grind⟩
  rcases List.eq_nil_or_concat nodes with rfl | ⟨front, last, rfl⟩
  · have self : prev head = head := ring.links.2
    refine ⟨⟨?_, ?_⟩, ?_, Function.update_self ..⟩
    · rw [self, Function.update_self]
    · rw [Function.update_of_ne notHead, Function.update_self, self]
    · rw [self, Function.update_of_ne notHead, Function.update_self]
  · rw [List.concat_eq_append] at *
    obtain ⟨before, -, back⟩ := Links.through_iff.mp ring.links
    have notLast : node ≠ last := by grind
    rw [back, List.append_assoc]
    refine Links.through_iff.mpr ⟨before.congr ?_ ?_, ⟨Function.update_self .., ?_⟩, ?_, ?_⟩
    · intro other member
      rw [Function.update_of_ne (by grind), Function.update_of_ne (by grind)]
    · intro other member
      rw [Function.update_of_ne (by grind), Function.update_of_ne (by grind)]
    · rw [Function.update_of_ne notHead, Function.update_self]
    · rw [Function.update_of_ne notLast, Function.update_self]
    · exact Function.update_self ..

/-- Without the node behind the head. -/
theorem removeFirst {rest : List α} (ring : Ring next prev head (node :: rest)) :
    Ring (Function.update next head (next node)) (Function.update prev (next node) head) head
      rest := by
  have once := ring.nodup
  obtain ⟨⟨-, -⟩, links⟩ := ring.links
  refine ⟨?_, by grind⟩
  cases rest with
  | nil =>
      have ends : next node = head := links.1
      exact ⟨by rw [Function.update_self, ends], by rw [ends, Function.update_self]⟩
  | cons second rest =>
      have leads : next node = second := links.1.1
      rw [leads]
      refine ⟨⟨Function.update_self .., Function.update_self ..⟩, links.2.congr ?_ ?_⟩
      · intro other member
        exact Function.update_of_ne (by grind) _ _
      · intro other member
        exact Function.update_of_ne (by grind) _ _

end Ring

end PosFirmware.Foundation
