import Mathlib.Data.List.Nodup
import Mathlib.Logic.Function.Basic

/-! # Singly linked lists

The nodes that links lead through, from a start to an end (`Path`), and from a start to the
empty link (`Chain`). A chain is determined by its start (`Chain.unique`) and meets no node
twice (`Chain.nodup`); the links of other nodes may change (`Path.congr`).
-/

namespace PosFirmware.Foundation

variable {α : Type*}

/-- The links lead from a start through the nodes of a list to an end. -/
def Path (next : α → Option α) : Option α → List α → Option α → Prop
  | start, [], last => start = last
  | start, node :: rest, last => start = some node ∧ Path next (next node) rest last

/-- The links lead from a start through the nodes of a list, and end there. -/
def Chain (next : α → Option α) (start : Option α) (nodes : List α) : Prop :=
  Path next start nodes none

variable {next next' : α → Option α} {start last : Option α} {nodes front back : List α} {node : α}

namespace Path

theorem append_iff : Path next start (front ++ back) last ↔
    ∃ middle, Path next start front middle ∧ Path next middle back last := by
  induction front generalizing start with
  | nil => exact ⟨fun path => ⟨start, rfl, path⟩, fun ⟨_, same, path⟩ => same ▸ path⟩
  | cons first front ih =>
      constructor
      · rintro ⟨same, path⟩
        obtain ⟨middle, left, right⟩ := ih.mp path
        exact ⟨middle, ⟨same, left⟩, right⟩
      · rintro ⟨middle, ⟨same, left⟩, right⟩
        exact ⟨same, ih.mpr ⟨middle, left, right⟩⟩

/-- A path through a node in the middle. -/
theorem through_iff : Path next start (front ++ node :: back) last ↔
    Path next start front (some node) ∧ Path next (next node) back last := by
  rw [append_iff]
  constructor
  · rintro ⟨middle, left, same, right⟩
    exact ⟨same ▸ left, right⟩
  · rintro ⟨left, right⟩
    exact ⟨some node, left, rfl, right⟩

theorem congr (same : ∀ node ∈ nodes, next' node = next node) (path : Path next start nodes last) :
    Path next' start nodes last := by
  induction nodes generalizing start with
  | nil => exact path
  | cons node rest ih =>
      refine ⟨path.1, ?_⟩
      rw [same node List.mem_cons_self]
      exact ih (fun other member => same other (List.mem_cons_of_mem _ member)) path.2

variable [DecidableEq α] {target : Option α}

/-- The link of a node outside a path may change. -/
theorem update (absent : node ∉ nodes) (path : Path next start nodes last) :
    Path (Function.update next node target) start nodes last := by
  refine path.congr fun other member => Function.update_of_ne ?_ _ _
  rintro rfl
  exact absent member

/-- A node that nothing links to comes behind a node of a path. -/
theorem insertAfter {new : α} (path : Path next start (front ++ node :: back) last)
    (once : (front ++ node :: back).Nodup) (absent : new ∉ front ++ node :: back) :
    Path (Function.update (Function.update next new (next node)) node (some new)) start
      (front ++ node :: new :: back) last := by
  obtain ⟨before, after⟩ := through_iff.mp path
  have different : new ≠ node := by
    rintro rfl
    exact absent (List.mem_append_right _ List.mem_cons_self)
  have outFront : node ∉ front := fun member =>
    (List.nodup_append.mp once).2.2 node member node List.mem_cons_self rfl
  have outBack : node ∉ back := (List.nodup_cons.mp (List.nodup_append.mp once).2.1).1
  have newFront : new ∉ front := fun member => absent (List.mem_append_left _ member)
  have newBack : new ∉ back := fun member =>
    absent (List.mem_append_right _ (List.mem_cons_of_mem _ member))
  refine through_iff.mpr ⟨(before.update newFront).update outFront, Function.update_self .., ?_⟩
  rw [Function.update_of_ne different, Function.update_self]
  exact (after.update newBack).update outBack

/-- The node behind a node of a path is passed over. -/
theorem removeAfter {old : α} (path : Path next start (front ++ node :: old :: back) last)
    (once : (front ++ node :: old :: back).Nodup) :
    Path (Function.update next node (next old)) start (front ++ node :: back) last := by
  obtain ⟨before, -, after⟩ := through_iff.mp path
  have outFront : node ∉ front := fun member =>
    (List.nodup_append.mp once).2.2 node member node List.mem_cons_self rfl
  have outBack : node ∉ back := fun member =>
    (List.nodup_cons.mp (List.nodup_append.mp once).2.1).1 (List.mem_cons_of_mem _ member)
  refine through_iff.mpr ⟨before.update outFront, ?_⟩
  rw [Function.update_self]
  exact after.update outBack

end Path

/-! ## Searches -/

/-- Within a number of turns, the first node behind a node at which a search stops, or the end,
and the node before it. -/
def searchLinks (next : α → Option α) (stop : α → Prop) [DecidablePred stop] :
    Nat → α → Option (α × Option α)
  | 0, _ => none
  | turns + 1, node =>
      match next node with
      | none => some (node, none)
      | some after =>
          if stop after then some (node, some after) else searchLinks next stop turns after

/-- A search along a path goes to the first node at which it stops. -/
theorem searchLinks_eq {stop : α → Prop} [DecidablePred stop] {turns : Nat} {final : α}
    (path : Path next (next node) (nodes ++ back) none) (passes : ∀ other ∈ nodes, ¬ stop other)
    (stops : ∀ other ∈ back.head?, stop other) (parts : node :: nodes = front ++ [final]) :
    searchLinks next stop turns node =
      if nodes.length < turns then some (final, back.head?) else none := by
  induction nodes generalizing node front turns with
  | nil =>
      obtain ⟨rfl, rfl⟩ : front = [] ∧ node = final := by
        cases front with
        | nil => exact ⟨rfl, List.head_eq_of_cons_eq parts⟩
        | cons first front => cases front <;> cases parts
      cases turns with
      | zero => rfl
      | succ turns =>
          rw [searchLinks, List.length_nil, if_pos (Nat.succ_pos turns)]
          cases back with
          | nil => rw [show next node = none from path, List.head?_nil]
          | cons first back =>
              rw [show next node = some first from path.1, List.head?_cons]
              exact if_pos (stops first rfl)
  | cons first nodes ih =>
      obtain ⟨same, rest⟩ := path
      cases turns with
      | zero => rfl
      | succ turns =>
          rw [searchLinks, same]
          change (if stop first then _ else _) = _
          rw [if_neg (passes first List.mem_cons_self)]
          cases front with
          | nil => cases parts
          | cons _ front =>
              rw [ih rest (fun other member => passes other (List.mem_cons_of_mem _ member))
                (List.tail_eq_of_cons_eq parts)]
              simp only [List.length_cons, Nat.add_lt_add_iff_right]

namespace Chain

theorem unique {nodes' : List α} (chain : Chain next start nodes)
    (chain' : Chain next start nodes') : nodes = nodes' := by
  induction nodes generalizing start nodes' with
  | nil =>
      cases nodes' with
      | nil => rfl
      | cons node rest => exact absurd (chain.symm.trans chain'.1) nofun
  | cons node rest ih =>
      cases nodes' with
      | nil => exact absurd (chain'.symm.trans chain.1) nofun
      | cons node' rest' =>
          obtain rfl : node = node' := Option.some.inj (chain.1.symm.trans chain'.1)
          rw [ih chain.2 chain'.2]

/-- What a path from the start of a chain leads through is the front of the chain. -/
theorem front_of_path (chain : Chain next start nodes) (path : Path next start front (some node)) :
    ∃ back, nodes = front ++ node :: back := by
  induction front generalizing start nodes with
  | nil =>
      cases nodes with
      | nil => exact absurd (path.symm.trans chain) nofun
      | cons first rest =>
          obtain rfl : node = first := Option.some.inj (path.symm.trans chain.1)
          exact ⟨rest, rfl⟩
  | cons first front ih =>
      cases nodes with
      | nil => exact absurd (path.1.symm.trans chain) nofun
      | cons first' rest =>
          obtain rfl : first = first' := Option.some.inj (path.1.symm.trans chain.1)
          obtain ⟨back, rfl⟩ := ih chain.2 path.2
          exact ⟨back, rfl⟩

/-- From every node of a chain the rest of it is a chain. -/
theorem suffix (chain : Chain next start (front ++ node :: back)) :
    Chain next (some node) (node :: back) :=
  ⟨rfl, (Path.through_iff.mp chain).2⟩

theorem nodup (chain : Chain next start nodes) : nodes.Nodup := by
  induction nodes generalizing start with
  | nil => exact List.nodup_nil
  | cons node rest ih =>
      refine List.nodup_cons.mpr ⟨fun again => ?_, ih chain.2⟩
      obtain ⟨front, back, rfl⟩ := List.append_of_mem again
      have first : Chain next (some node) (node :: (front ++ node :: back)) := ⟨rfl, chain.2⟩
      have second : Chain next (some node) (node :: back) := suffix chain.2
      have same := congrArg List.length (first.unique second)
      simp only [List.length_cons, List.length_append] at same
      omega

/-- No node of a chain links to itself. -/
theorem not_self (chain : Chain next start nodes) (member : node ∈ nodes) :
    next node ≠ some node := by
  intro self
  obtain ⟨front, back, rfl⟩ := List.append_of_mem member
  have rest : Chain next (next node) back := chain.suffix.2
  have same := congrArg List.length (chain.suffix.unique (self ▸ rest))
  simp only [List.length_cons] at same
  omega

end Chain

end PosFirmware.Foundation
