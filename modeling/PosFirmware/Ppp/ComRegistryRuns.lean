import PosFirmware.Ppp.ComRegistry

/-! # Runs over the devices of a serial port

What one call does to a list that is as it should be: `register_stands` and
`unregister_stands` where the list stands it, `register_fails` and `unregister_fails` where it
does not. `registry_run` joins them over runs.
-/

namespace PosFirmware.Ppp

open PosFirmware.Foundation

variable {Node : Type} [DecidableEq Node] {prio : Node → Int} {s next : ComRegistry Node}
  {registered : Node → Bool} {nodes nodes' : List Node} {node : Node} {turns : Nat}

/-! ## Registration -/

omit [DecidableEq Node] in
/-- The loop of `ppp_com_register` stops at the last node that does not go behind the new
one. -/
theorem registerWalk_eq {links : Node → Option Node} {front : List Node} {prev last : Node}
    {after : Option Node} (path : Path links (some prev) (front ++ [last]) after)
    (lower : ∀ other ∈ front ++ [last], prio other ≤ prio node)
    (stop : ∀ other ∈ after, prio node < prio other) :
    registerWalk prio links node turns prev = if front.length < turns then some last else none := by
  induction front generalizing prev turns with
  | nil =>
      obtain ⟨same, ends⟩ := path
      obtain rfl : prev = last := Option.some.inj same
      cases turns with
      | zero => rfl
      | succ turns =>
          have leads : links prev = after := ends
          rw [registerWalk, leads, List.length_nil, if_pos (Nat.succ_pos turns)]
          cases after with
          | none => rfl
          | some other => exact if_pos (stop other rfl)
  | cons first front ih =>
      obtain ⟨same, rest⟩ := path
      obtain rfl : prev = first := Option.some.inj same
      cases turns with
      | zero => rfl
      | succ turns =>
          obtain ⟨second, leads⟩ : ∃ second, links prev = some second := by
            cases front with
            | nil => exact ⟨last, rest.1⟩
            | cons second front => exact ⟨second, rest.1⟩
          have below : prio second ≤ prio node := by
            apply lower
            rw [leads] at rest
            cases front with
            | nil => simp [Option.some.inj rest.1]
            | cons other front => simp [Option.some.inj rest.1]
          rw [registerWalk, leads]
          change (if prio node < prio second then _ else _) = _
          rw [if_neg (not_lt.mpr below), ih (leads ▸ rest)
            (fun other member => lower other (List.mem_cons_of_mem _ member))]
          simp only [List.length_cons, Nat.add_lt_add_iff_right]

theorem noteCall_register {other : Node} :
    noteCall registered (.register node) other ↔ other = node ∨ registered other := by
  rw [noteCall]
  by_cases same : other = node
  · simp [same]
  · simp [same]

theorem ListOf.insert (list : ListOf prio s registered nodes)
    (chain : Chain next.next next.head nodes')
    (sorted : nodes'.Pairwise fun one other => prio one ≤ prio other)
    (put : nodes'.Perm (node :: nodes)) :
    ListOf prio next (noteCall registered (.register node)) nodes' := by
  refine ⟨chain, sorted, fun other => ?_, chain.nodup⟩
  rw [noteCall_register, put.mem_iff, List.mem_cons, list.members]

omit [DecidableEq Node] in
theorem ListOf.head_mem (list : ListOf prio s registered nodes) (present : nodes ≠ []) :
    ∃ first, s.head = some first ∧ first ∈ nodes := by
  cases nodes with
  | nil => exact absurd rfl present
  | cons first rest => exact ⟨first, list.chain.1, List.mem_cons_self⟩

omit [DecidableEq Node] in
theorem orderedInsert_last (lower : ∀ other ∈ nodes, prio other ≤ prio node) :
    nodes.orderedInsert (fun one other => prio one < prio other) node = nodes ++ [node] := by
  induction nodes with
  | nil => rfl
  | cons first rest ih =>
      rw [List.orderedInsert_cons, if_neg (not_lt.mpr (lower first List.mem_cons_self)),
        ih fun other member => lower other (List.mem_cons_of_mem _ member)]
      rfl

omit [DecidableEq Node] in
theorem orderedInsert_first (higher : ∀ other ∈ nodes, prio node < prio other) :
    nodes.orderedInsert (fun one other => prio one < prio other) node = node :: nodes := by
  cases nodes with
  | nil => rfl
  | cons first rest =>
      rw [List.orderedInsert_cons, if_pos (higher first List.mem_cons_self)]

/-- The registration of a node that goes behind others, when the list up to where it goes
is a path. -/
theorem pppComRegister_behind (turns : Nat) {front : List Node} {last first : Node} {after : Option Node}
    (head : s.head = some first) (notFirst : prio first ≤ prio node)
    (path : Path (Function.update s.next node none) (some first) (front ++ [last]) after)
    (lower : ∀ other ∈ front ++ [last], prio other ≤ prio node)
    (stop : ∀ other ∈ after, prio node < prio other) :
    pppComRegister prio turns s node = if front.length < turns then
        some ⟨s.head, Function.update (Function.update s.next node none) last (some node)⟩
      else none := by
  rw [pppComRegister, head]
  change (if prio first > prio node then _ else _) = _
  rw [if_neg (not_lt.mpr notFirst), registerWalk_eq path lower stop, apply_ite (Option.map _)]
  rfl

theorem register_first (list : ListOf prio s registered nodes) (new : node ∉ nodes)
    (higher : ∀ other ∈ nodes, prio node < prio other) :
    ∃ next, comCall prio turns s (.register node) = some next ∧
      ListOf prio next (noteCall registered (.register node)) (node :: nodes) := by
  have sorted : (node :: nodes).Pairwise fun one other => prio one ≤ prio other :=
    List.pairwise_cons.mpr ⟨fun other member => (higher other member).le, list.sorted⟩
  cases nodes with
  | nil =>
      have head : s.head = none := list.chain
      refine ⟨⟨some node, Function.update s.next node none⟩, ?_,
        list.insert ⟨rfl, Function.update_self ..⟩ sorted (List.Perm.refl _)⟩
      rw [comCall, pppComRegister, head]
  | cons first rest =>
      have head : s.head = some first := list.chain.1
      refine ⟨⟨some node, Function.update (Function.update s.next node none) node (some first)⟩,
        ?_, list.insert ⟨rfl, ?_⟩ sorted (List.Perm.refl _)⟩
      · rw [comCall, pppComRegister, head]
        exact if_pos (higher first List.mem_cons_self)
      · have kept : Path (Function.update s.next node (some first)) (some first) (first :: rest)
            none := head ▸ Path.update new list.chain
        simpa only [Function.update_self, Function.update_idem] using kept

theorem chain_behind {front : List Node} {last : Node} {after : Option Node}
    (path : Path (Function.update s.next node none) s.head (front ++ [last]) after)
    (new : node ∉ front ++ [last]) (once : (front ++ [last]).Nodup) :
    Chain (Function.update (Function.update s.next node none) last (some node)) s.head
      (front ++ [last] ++ [node]) := by
  have notLast : node ≠ last := by
    rintro rfl
    exact new (List.mem_append_right _ List.mem_cons_self)
  have lastOnce : last ∉ front := by
    rw [List.nodup_append] at once
    exact fun member => once.2.2 last member last List.mem_cons_self rfl
  rw [List.append_assoc]
  refine Path.through_iff.mpr ⟨Path.update lastOnce (Path.through_iff.mp path).1,
    Function.update_self .., ?_⟩
  have ends : Function.update (Function.update s.next node none) last (some node) node = none := by
    rw [Function.update_of_ne notLast, Function.update_self]
  exact ends

theorem register_last (list : ListOf prio s registered nodes) (new : node ∉ nodes)
    (present : nodes ≠ []) (lower : ∀ other ∈ nodes, prio other ≤ prio node) :
    ∃ turns next, comCall prio turns s (.register node) = some next ∧
      ListOf prio next (noteCall registered (.register node)) (nodes ++ [node]) := by
  obtain ⟨front, last, rfl⟩ : ∃ front last, nodes = front ++ [last] :=
    ⟨_, _, (List.dropLast_append_getLast present).symm⟩
  obtain ⟨first, head, member⟩ := list.head_mem present
  have path : Path (Function.update s.next node none) s.head (front ++ [last]) none :=
    Path.update new list.chain
  have returns := pppComRegister_behind (front.length + 1) head (lower first member)
    (head ▸ path) lower (by simp)
  rw [if_pos (Nat.lt_succ_self _)] at returns
  refine ⟨front.length + 1, _, returns, list.insert (chain_behind path new list.once) ?_
    (List.perm_append_singleton _ _)⟩
  refine List.pairwise_append.mpr ⟨list.sorted, List.pairwise_singleton _ _, ?_⟩
  intro one member other isNode
  rw [List.mem_singleton.mp isNode]
  exact lower one member

theorem register_stands (list : ListOf prio s registered nodes)
    (stood : CallStood prio nodes (.register node)) :
    ∃ turns next, comCall prio turns s (.register node) = some next ∧
      ListOf prio next (noteCall registered (.register node))
        (placeCall prio nodes (.register node)) := by
  obtain ⟨new, place⟩ := stood
  rw [placeCall, if_neg new]
  by_cases higher : ∀ other ∈ nodes, prio node < prio other
  · rw [orderedInsert_first higher]
    exact ⟨0, register_first list new higher⟩
  · have lower := place.resolve_left higher
    rw [orderedInsert_last lower]
    refine register_last list new ?_ lower
    rintro rfl
    exact higher nofun

/-- Where a registration goes to the end of the part of the list before it, the list ends
there. -/
theorem register_drops {front back : List Node} {last dropped : Node}
    (list : ListOf prio s registered (front ++ [last] ++ dropped :: back))
    (new : node ∉ front ++ [last] ++ dropped :: back)
    (lower : ∀ other ∈ front ++ [last], prio other ≤ prio node)
    (above : prio node < prio dropped)
    (returns : comCall prio turns s (.register node) = some next) :
    Chain next.next next.head (front ++ [last] ++ [node]) := by
  have path : Path (Function.update s.next node none) s.head (front ++ [last]) (some dropped) :=
    (Path.through_iff.mp (Path.update new list.chain)).1
  have newHere : node ∉ front ++ [last] := fun member => new (List.mem_append_left _ member)
  obtain ⟨first, head, notFirst⟩ : ∃ first, s.head = some first ∧ prio first ≤ prio node := by
    cases front with
    | nil => exact ⟨last, path.1, lower last List.mem_cons_self⟩
    | cons first front => exact ⟨first, path.1, lower first List.mem_cons_self⟩
  rw [comCall, pppComRegister_behind turns head notFirst (head ▸ path) lower (by simpa using above),
    Option.ite_none_right_eq_some] at returns
  obtain rfl := Option.some.inj returns.2
  exact chain_behind path newHere (List.Nodup.of_append_left list.once)

theorem register_again (list : ListOf prio s registered nodes) (again : node ∈ nodes)
    (returns : comCall prio turns s (.register node) = some next) : next.next node = some node := by
  obtain ⟨front, back, rfl⟩ := List.append_of_mem again
  have absent : node ∉ front := by
    have once := list.once
    rw [List.nodup_append] at once
    exact fun member => once.2.2 node member node List.mem_cons_self rfl
  have lower : ∀ other ∈ front ++ [node], prio other ≤ prio node := by
    intro other member
    rcases List.mem_append.mp member with before | same
    · exact (List.pairwise_append.mp list.sorted).2.2 other before node List.mem_cons_self
    · rw [List.mem_singleton.mp same]
  have path : Path (Function.update s.next node none) s.head (front ++ [node]) none :=
    Path.through_iff.mpr ⟨Path.update absent (Path.through_iff.mp list.chain).1,
      Function.update_self ..⟩
  obtain ⟨first, head, notFirst⟩ : ∃ first, s.head = some first ∧ prio first ≤ prio node := by
    cases front with
    | nil => exact ⟨node, path.1, le_rfl⟩
    | cons first front => exact ⟨first, path.1, lower first List.mem_cons_self⟩
  rw [comCall, pppComRegister_behind turns head notFirst (head ▸ path) lower (by simp),
    Option.ite_none_right_eq_some] at returns
  obtain rfl := Option.some.inj returns.2
  exact Function.update_self ..

omit [DecidableEq Node] in
theorem exists_lower_front (prio : Node → Int) (node : Node) (nodes : List Node) :
    ∃ front back, nodes = front ++ back ∧ (∀ other ∈ front, prio other ≤ prio node) ∧
      ∀ first ∈ back.head?, prio node < prio first := by
  induction nodes with
  | nil => exact ⟨[], [], rfl, by simp, by simp⟩
  | cons first rest ih =>
      by_cases higher : prio node < prio first
      · exact ⟨[], first :: rest, rfl, by simp, by simpa using higher⟩
      · obtain ⟨front, back, rfl, lower, stop⟩ := ih
        exact ⟨first :: front, back, rfl,
          List.forall_mem_cons.mpr ⟨not_lt.mp higher, lower⟩, stop⟩

theorem register_fails (list : ListOf prio s registered nodes)
    (fails : ¬ CallStood prio nodes (.register node))
    (returns : comCall prio turns s (.register node) = some next) :
    ¬ ListOf prio next (noteCall registered (.register node)) nodes' := by
  intro list'
  have newIn : node ∈ nodes' := (list'.members node).mpr (noteCall_register.mpr (.inl rfl))
  by_cases again : node ∈ nodes
  · exact list'.chain.not_self newIn (register_again list again returns)
  · simp only [CallStood, again, not_false_eq_true, true_and, not_or, not_forall] at fails
    obtain ⟨⟨one, oneIn, notBefore⟩, other, otherIn, above⟩ := fails
    obtain ⟨front, back, rfl, lower, stop⟩ := exists_lower_front prio node nodes
    cases back with
    | nil => exact absurd (lower other (by simpa using otherIn)) above
    | cons dropped back =>
        rcases List.eq_nil_or_concat front with rfl | ⟨front, last, rfl⟩
        · have first : prio dropped ≤ prio one := by
            rcases List.mem_cons.mp oneIn with rfl | later
            · rfl
            · exact List.rel_of_pairwise_cons list.sorted later
          exact notBefore (lt_of_lt_of_le (stop dropped rfl) first)
        · rw [List.concat_eq_append] at lower list again
          have drops := register_drops list again lower (stop dropped rfl) returns
          have droppedIn : dropped ∈ nodes' := by
            apply (list'.members dropped).mpr
            exact noteCall_register.mpr (.inr ((list.members dropped).mp (by simp)))
          rw [list'.chain.unique drops] at droppedIn
          rcases List.mem_append.mp droppedIn with kept | same
          · exact absurd (lower dropped kept) (not_le.mpr (stop dropped rfl))
          · rw [List.mem_singleton.mp same] at stop
            exact absurd (stop node rfl) (lt_irrefl _)

/-! ## Removal -/

theorem noteCall_unregister {other : Node} :
    noteCall registered (.unregister node) other ↔ other ≠ node ∧ registered other := by
  rw [noteCall]
  by_cases same : other = node
  · simp [same]
  · simp [same]

theorem ListOf.erase (list : ListOf prio s registered nodes)
    (chain : Chain next.next next.head (nodes.erase node)) :
    ListOf prio next (noteCall registered (.unregister node)) (nodes.erase node) := by
  refine ⟨chain, list.sorted.sublist List.erase_sublist, fun other => ?_, chain.nodup⟩
  rw [noteCall_unregister, list.once.mem_erase_iff, list.members]

theorem unregisterWalk_eq {links : Node → Option Node} {prev : Node} :
    unregisterWalk links node prev turns = if 0 < turns ∧
      (links prev = none ∨ links prev = some node) then some () else none := by
  induction turns with
  | zero => rfl
  | succ turns ih =>
      rw [unregisterWalk]
      cases leads : links prev with
      | none => simp
      | some after =>
          by_cases same : after = node
          · simp [same]
          · change (if after = node then _ else _) = _
            rw [if_neg same, ih, leads]
            simp [same]

/-- Behind the first node the loop finds what it searches in the second place, or nothing in
a list of one node. -/
theorem pppComUnregister_second (prio : Node → Int) {first : Node} (head : s.head = some first)
    (notFirst : first ≠ node) (leads : s.next first = none ∨ s.next first = some node) :
    comCall prio 1 s (.unregister node) = some (if s.next first = some node then
      ⟨s.head, Function.update (Function.update s.next first (s.next node)) node none⟩ else s) := by
  rw [comCall, pppComUnregister, head]
  change (if first = node then _ else (unregisterWalk s.next node first 1).map _) = _
  have found : unregisterWalk s.next node first 1 = some () := by
    rw [unregisterWalk_eq]
    exact if_pos ⟨Nat.one_pos, leads⟩
  rw [if_neg notFirst, found]
  rfl

theorem unregister_stands (list : ListOf prio s registered nodes)
    (stood : CallStood prio nodes (.unregister node)) :
    ∃ turns next, comCall prio turns s (.unregister node) = some next ∧
      ListOf prio next (noteCall registered (.unregister node))
        (placeCall prio nodes (.unregister node)) := by
  rcases nodes with _ | ⟨first, rest⟩
  · have head : s.head = none := list.chain
    refine ⟨0, s, ?_, list.erase list.chain⟩
    rw [comCall, pppComUnregister, head]
  have head : s.head = some first := list.chain.1
  have firstOnce : first ∉ rest := (List.nodup_cons.mp list.once).1
  rw [placeCall]
  by_cases isFirst : first = node
  · subst isFirst
    refine ⟨0, ⟨s.next first, Function.update s.next first none⟩, ?_, list.erase ?_⟩
    · rw [comCall, pppComUnregister, head]
      exact if_pos rfl
    · rw [List.erase_cons_head]
      exact Path.update firstOnce list.chain.2
  rcases rest with _ | ⟨second, rest⟩
  · have ends : s.next first = none := list.chain.2
    have returns := pppComUnregister_second prio head isFirst (.inl ends)
    rw [ends, if_neg nofun] at returns
    have absent : [first].erase node = [first] :=
      List.erase_of_not_mem (by simpa using Ne.symm isFirst)
    refine ⟨1, s, returns, list.erase ?_⟩
    rw [absent]
    exact list.chain
  · obtain rfl : node = second := by
      simpa [CallStood, Ne.symm isFirst] using stood
    have leads : s.next first = some node := list.chain.2.1
    have returns := pppComUnregister_second prio head isFirst (.inr leads)
    rw [leads, if_pos rfl] at returns
    refine ⟨1, _, returns, list.erase ?_⟩
    rw [List.erase_cons_tail (by simpa using isFirst), List.erase_cons_head]
    have nodeOnce : node ∉ rest := (List.nodup_cons.mp (List.nodup_cons.mp list.once).2).1
    have firstOut : first ∉ rest := fun member => firstOnce (List.mem_cons_of_mem _ member)
    refine ⟨head, ?_⟩
    have skips : Function.update (Function.update s.next first (s.next node)) node none first =
        s.next node := by
      rw [Function.update_of_ne isFirst, Function.update_self]
    have kept : Path s.next (s.next node) rest none := list.chain.2.2
    rw [← skips] at kept
    exact (kept.update firstOut).update nodeOnce

theorem unregister_fails (list : ListOf prio s registered nodes)
    (fails : ¬ CallStood prio nodes (.unregister node)) :
    comCall prio turns s (.unregister node) = none := by
  rcases nodes with _ | ⟨first, _ | ⟨second, rest⟩⟩
  · exact absurd (.inl (Nat.zero_le 1)) fails
  · exact absurd (.inl le_rfl) fails
  · have head : s.head = some first := list.chain.1
    have leads : s.next first = some second := list.chain.2.1
    obtain ⟨notFirst, notSecond⟩ : node ≠ first ∧ node ≠ second := by
      simpa [CallStood] using fails
    have endless : unregisterWalk s.next node first turns = none := by
      rw [unregisterWalk_eq, leads]
      simp [notSecond.symm]
    rw [comCall, pppComUnregister, head]
    change (if first = node then _ else _) = _
    rw [if_neg notFirst.symm, endless]
    rfl

/-! ## Runs -/

omit [DecidableEq Node] in
theorem registerWalk_unique {links : Node → Option Node} {turns' : Nat} {prev one other : Node}
    (left : registerWalk prio links node turns prev = some one)
    (right : registerWalk prio links node turns' prev = some other) : one = other := by
  induction turns generalizing turns' prev with
  | zero => cases left
  | succ turns ih =>
      cases turns' with
      | zero => cases right
      | succ turns' =>
          rw [registerWalk] at left right
          cases leads : links prev with
          | none =>
              rw [leads] at left right
              exact Option.some.inj (left.symm.trans right)
          | some after =>
              rw [leads] at left right
              by_cases stops : prio node < prio after
              · simp only [if_pos stops] at left right
                exact Option.some.inj (left.symm.trans right)
              · simp only [if_neg stops] at left right
                exact ih left right

theorem comCall_unique {turns' : Nat} {call : ComCall Node} {one other : ComRegistry Node}
    (left : comCall prio turns s call = some one) (right : comCall prio turns' s call = some other) :
    one = other := by
  cases call with
  | register node =>
      rw [comCall, pppComRegister] at left right
      cases head : s.head with
      | none =>
          rw [head] at left right
          exact Option.some.inj (left.symm.trans right)
      | some first =>
          rw [head] at left right
          by_cases front : prio first > prio node
          · simp only [if_pos front] at left right
            exact Option.some.inj (left.symm.trans right)
          · simp only [if_neg front, Option.map_eq_some_iff] at left right
            obtain ⟨last, walk, rfl⟩ := left
            obtain ⟨last', walk', rfl⟩ := right
            rw [registerWalk_unique walk walk']
  | unregister node =>
      rw [comCall, pppComUnregister] at left right
      cases head : s.head with
      | none =>
          rw [head] at left right
          exact Option.some.inj (left.symm.trans right)
      | some first =>
          rw [head] at left right
          by_cases front : first = node
          · simp only [if_pos front] at left right
            exact Option.some.inj (left.symm.trans right)
          · simp only [if_neg front, Option.map_eq_some_iff] at left right
            obtain ⟨-, -, rfl⟩ := left
            obtain ⟨-, -, rfl⟩ := right
            rfl

theorem call_stands {call : ComCall Node} (list : ListOf prio s registered nodes)
    (stood : CallStood prio nodes call) : ∃ turns next, comCall prio turns s call = some next ∧
      ListOf prio next (noteCall registered call) (placeCall prio nodes call) := by
  cases call with
  | register node => exact register_stands list stood
  | unregister node => exact unregister_stands list stood

theorem call_fails {call : ComCall Node} (list : ListOf prio s registered nodes)
    (returns : comCall prio turns s call = some next)
    (list' : ListOf prio next (noteCall registered call) nodes') : CallStood prio nodes call := by
  by_contra fails
  cases call with
  | register node => exact register_fails list fails returns list'
  | unregister node => exact absurd (returns.symm.trans (unregister_fails list fails)) nofun

/-- Every part of a run returns and leaves the list as it should be. -/
def StaysListed (prio : Node → Int) (s : ComRegistry Node) (registered : Node → Bool)
    (calls : List (ComCall Node)) : Prop :=
  ∀ n, ∃ last nodes, ComRuns prio s (calls.take n) last ∧
    ListOf prio last (runEvents noteCall registered (calls.take n)) nodes

theorem stays_listed_iff {calls : List (ComCall Node)} (list : ListOf prio s registered nodes) :
    StaysListed prio s registered calls ↔
      Meets (placeCall prio) (CallStood prio) nodes calls := by
  induction calls generalizing s registered nodes with
  | nil =>
      refine ⟨fun _ => trivial, fun _ n => ⟨s, nodes, ?_⟩⟩
      rw [List.take_nil]
      exact ⟨.done s, list⟩
  | cons call rest ih =>
      constructor
      · intro stays
        obtain ⟨last, nodes', runs, list'⟩ := stays 1
        cases runs with
        | call returns later =>
            cases later
            have stood := call_fails list returns list'
            obtain ⟨_, next, returns', listed⟩ := call_stands list stood
            refine ⟨stood, (ih listed).mp fun n => ?_⟩
            obtain ⟨last, nodes', runs, list'⟩ := stays (n + 1)
            cases runs with
            | call again later =>
                rw [comCall_unique again returns'] at later
                exact ⟨last, nodes', later, list'⟩
      · rintro ⟨stood, meets⟩ n
        cases n with
        | zero => exact ⟨s, nodes, .done s, list⟩
        | succ n =>
            obtain ⟨_, next, returns, listed⟩ := call_stands list stood
            obtain ⟨last, nodes', runs, list'⟩ := (ih listed).mpr meets n
            exact ⟨last, nodes', .call returns runs, list'⟩

omit [DecidableEq Node] in
theorem listOf_empty {links : Node → Option Node} :
    ListOf prio ⟨none, links⟩ (fun _ => false) [] :=
  ⟨rfl, .nil, fun _ => by simp, .nil⟩

/-- **The devices of a port.** From an empty list every call of a run returns and leaves the
list finite and sorted, of exactly the registered nodes, each once, exactly when the list
stands every call: a new node goes to the front or to the end, and a node is taken out of the
first two places, or of a list of one node at most. -/
theorem registry_run (prio : Node → Int) (links : Node → Option Node)
    (calls : List (ComCall Node)) :
    StaysListed prio ⟨none, links⟩ (fun _ => false) calls ↔
      Meets (placeCall prio) (CallStood prio) [] calls :=
  stays_listed_iff listOf_empty

/-- A node is registered between two others, and the last one is gone from the list. -/
theorem registry_drops_tail : ¬ StaysListed (fun node : Nat => (node : Int))
    ⟨none, fun _ => none⟩ (fun _ => false) [.register 0, .register 2, .register 1] := by
  rw [stays_listed_iff listOf_empty]
  decide

end PosFirmware.Ppp
