import PosFirmware.Foundation.Chain
import PosFirmware.Foundation.Run
import Mathlib.Data.List.Sort

/-! # The devices of a serial port

`ppp_com_register` puts a node into the list of a port by its priority, and
`ppp_com_unregister` takes it out. `registry_run` says for which calls the list stays what it
should be: a registration in the middle drops the tail of the list, a second registration of
a node closes a cycle, and the search of `ppp_com_unregister` never advances.
-/

namespace PosFirmware.Ppp

open PosFirmware.Foundation

variable {Node : Type} [DecidableEq Node] (prio : Node → Int)

/-- The head of the list of a port, and the `next` of every node. -/
structure ComRegistry (Node : Type) where
  head : Option Node
  next : Node → Option Node

/-- The loop of `ppp_com_register` from a node, within a number of turns. -/
def registerWalk (next : Node → Option Node) (node : Node) : Nat → Node → Option Node
  | 0, _ => none
  | turns + 1, prev =>
      match next prev with
      | none => some prev
      | some after =>
          if prio node < prio after then some prev else registerWalk next node turns after

/-- `ppp_com_register`. -/
def pppComRegister (turns : Nat) (s : ComRegistry Node) (node : Node) :
    Option (ComRegistry Node) :=
  let next := Function.update s.next node none
  match s.head with
  | none => some ⟨some node, next⟩
  | some prev =>
      if prio prev > prio node then
        some ⟨some node, Function.update next node (some prev)⟩
      else
        (registerWalk prio next node turns prev).map fun prev =>
          ⟨s.head, Function.update next prev (some node)⟩

/-- The loop of `ppp_com_unregister`, within a number of turns: it leaves `prev` as it is. -/
def unregisterWalk (next : Node → Option Node) (node prev : Node) : Nat → Option Unit
  | 0 => none
  | turns + 1 =>
      match next prev with
      | none => some ()
      | some after => if after = node then some () else unregisterWalk next node prev turns

/-- `ppp_com_unregister`. -/
def pppComUnregister (turns : Nat) (s : ComRegistry Node) (node : Node) :
    Option (ComRegistry Node) :=
  match s.head with
  | none => some s
  | some prev =>
      if prev = node then
        some ⟨s.next prev, Function.update s.next node none⟩
      else
        (unregisterWalk s.next node prev turns).map fun _ =>
          if s.next prev = some node then
            ⟨s.head, Function.update (Function.update s.next prev (s.next node)) node none⟩
          else s

/-- A call on the list of a port. -/
inductive ComCall (Node : Type) where
  | register (node : Node)
  | unregister (node : Node)

/-- One call, whose loops take at most a number of turns. -/
def comCall (turns : Nat) (s : ComRegistry Node) : ComCall Node → Option (ComRegistry Node)
  | .register node => pppComRegister prio turns s node
  | .unregister node => pppComUnregister turns s node

/-- Calls that all return. -/
inductive ComRuns : ComRegistry Node → List (ComCall Node) → ComRegistry Node → Prop
  | done (s : ComRegistry Node) : ComRuns s [] s
  | call {s next last : ComRegistry Node} {call : ComCall Node} {rest : List (ComCall Node)}
      {turns : Nat} (returns : comCall prio turns s call = some next)
      (later : ComRuns next rest last) : ComRuns s (call :: rest) last

/-- Which nodes are registered after a call. -/
def noteCall (registered : Node → Bool) : ComCall Node → Node → Bool
  | .register node => Function.update registered node true
  | .unregister node => Function.update registered node false

/-- The list is finite and sorted, and consists of the registered nodes, each once. -/
structure ListOf (s : ComRegistry Node) (registered : Node → Bool) (nodes : List Node) : Prop where
  chain : Chain s.next s.head nodes
  sorted : nodes.Pairwise fun one other => prio one ≤ prio other
  members : ∀ node, node ∈ nodes ↔ registered node
  once : nodes.Nodup

/-- The nodes after a call, by the purpose of the list. -/
def placeCall (nodes : List Node) : ComCall Node → List Node
  | .register node =>
      if node ∈ nodes then nodes
      else nodes.orderedInsert (fun one other => prio one < prio other) node
  | .unregister node => nodes.erase node

/-- A call that the list stands: a new node goes to the front or to the end of the list,
and a node is taken out from one of the first two places, or the list has one node at most. -/
def CallStood (nodes : List Node) : ComCall Node → Prop
  | .register node => node ∉ nodes ∧
      ((∀ other ∈ nodes, prio node < prio other) ∨ ∀ other ∈ nodes, prio other ≤ prio node)
  | .unregister node => nodes.length ≤ 1 ∨ node ∈ nodes.take 2

instance (nodes : List Node) : (call : ComCall Node) → Decidable (CallStood prio nodes call)
  | .register _ => inferInstanceAs (Decidable (_ ∧ (_ ∨ _)))
  | .unregister _ => inferInstanceAs (Decidable (_ ∨ _))

end PosFirmware.Ppp
