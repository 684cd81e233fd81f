import PosFirmware.IpStack.SkBuffPools

/-! # Runs over the packet buffers

`skb_init` puts every element into the ring of its pool, and each event of a stack keeps the
free and the taken elements of both pools apart. `skb_conserved` says so of every run.
-/

namespace PosFirmware.IpStack

open PosFirmware.Foundation

variable {layout : SkbLayout} {s : SkbState} {user : SkbUser} {free taken : SkbPool → List Nat}
  {name : SkbPool} {mem mem' : Memory} {pool pool' : MemPool} {size : Int} {node skb : Nat}

/-- The elements of both pools. -/
structure SkbLinks (layout : SkbLayout) (s : SkbState) (free taken : SkbPool → List Nat) :
    Prop where
  links : ∀ name, PoolLinks layout name s.mem (s.pools name) (free name) (taken name)
  sizes : ∀ name, TrueSizes name s.mem (taken name)

theorem SkbLinks.step {free' taken' : List Nat} (kept : SkbLinks layout s free taken)
    (links : PoolLinks layout name mem' pool' free' taken') (sizes : TrueSizes name mem' taken')
    (outside : ∀ a, ¬ layout.Area name a → mem' a = s.mem a) :
    SkbLinks layout ⟨mem', Function.update s.pools name pool'⟩ (Function.update free name free')
      (Function.update taken name taken') := by
  have each : ∀ other, PoolLinks layout other mem' (Function.update s.pools name pool' other)
      (Function.update free name free' other) (Function.update taken name taken' other) ∧
        TrueSizes other mem' (Function.update taken name taken' other) := by
    intro other
    by_cases same : other = name
    · subst same
      simp only [Function.update_self]
      exact ⟨links, sizes⟩
    · simp only [Function.update_of_ne same]
      exact (kept.links other).frame (kept.sizes other) fun a inside =>
        outside a (SkbLayout.areas_apart same inside)
  exact ⟨fun other => (each other).1, fun other => (each other).2⟩

/-! ## The calls -/

theorem SkbLinks.dataSpace (kept : SkbLinks layout s free taken) (name : SkbPool) :
    skbDataSpace (s.pools name) = name.dataSize := by
  have size := (kept.links name).size
  have holds := name.stride_holds.2
  unfold skbDataSpace
  omega

theorem skbNewFrom_kept (size : Int) (kept : SkbLinks layout s free taken) (names : List SkbPool) :
    skbNewFrom size names s = (s, none) ∨
      ∃ name node rest, free name = node :: rest ∧
        (skbNewFrom size names s).2 = some (node + LIST_NODE_SIZE) ∧
        SkbLinks layout (skbNewFrom size names s).1 (Function.update free name rest)
          (Function.update taken name (node :: taken name)) := by
  induction names with
  | nil => exact .inl rfl
  | cons name names ih =>
      by_cases small : (skbDataSpace (s.pools name) : Int) < size
      · have again : skbNewFrom size (name :: names) s = skbNewFrom size names s := if_pos small
        rw [again]
        exact ih
      · have links := kept.links name
        cases ring : free name with
        | nil =>
            rw [ring] at links
            have again : skbNewFrom size (name :: names) s = skbNewFrom size names s := by
              rw [skbNewFrom, memMalloc_empty links.list]
              simp only [if_neg small, Function.update_eq_self]
            rw [again]
            exact ih
        | cons node rest =>
            rw [ring] at links
            obtain ⟨mem', pool', returns, links', sizes', outside⟩ := links.new (kept.sizes name)
            rw [← kept.dataSpace name] at links' sizes' outside
            have first : skbNewFrom size (name :: names) s =
                (⟨skbSetUp mem' (node + LIST_NODE_SIZE) (skbDataSpace (s.pools name)),
                  Function.update s.pools name pool'⟩, some (node + LIST_NODE_SIZE)) := by
              rw [skbNewFrom, returns]
              exact if_neg small
            rw [first]
            exact .inr ⟨name, node, rest, ring, rfl, kept.step links' sizes' outside⟩

theorem skbPoolOf_taken (kept : SkbLinks layout s free taken) (inTaken : node ∈ taken name) :
    skbPoolOf s (node + LIST_NODE_SIZE) = name := by
  rw [skbPoolOf, kept.sizes name node inTaken]
  simp only [kept.dataSpace]
  cases name <;> decide

theorem skbFree_kept (kept : SkbLinks layout s free taken) (inTaken : node ∈ taken name) :
    SkbLinks layout (skbFree s (some (node + LIST_NODE_SIZE)))
      (Function.update free name (free name ++ [node]))
      (Function.update taken name ((taken name).erase node)) := by
  rw [skbFree, skbPoolOf_taken kept inTaken]
  obtain ⟨links, sizes, outside⟩ := (kept.links name).put (kept.sizes name) inTaken
  exact kept.step links sizes outside

theorem skbWrite_kept {offset : Nat} {value : Byte} (kept : SkbLinks layout s free taken)
    (inTaken : node ∈ taken name) :
    SkbLinks layout { s with mem := skbWrite s.mem (node + LIST_NODE_SIZE) offset value } free
      taken := by
  have nodeIn := (kept.links name).takenIn inTaken
  rw [skbWrite, kept.sizes name node inTaken]
  by_cases inside : offset < SK_BUFF_SIZE + name.dataSize ∧
      (offset < SKB_TRUESIZE ∨ SKB_TRUESIZE + 4 ≤ offset)
  · rw [if_pos inside]
    obtain ⟨wide, data⟩ := name.stride_holds
    have element : Element name node (node + LIST_NODE_SIZE + offset) :=
      ⟨Nat.le_add_right .., by omega⟩
    have same : ∀ a, a ≠ node + LIST_NODE_SIZE + offset →
        Function.update s.mem (node + LIST_NODE_SIZE + offset) value a = s.mem a :=
      fun a different => Function.update_of_ne different _ _
    have links : PoolLinks layout name
        (Function.update s.mem (node + LIST_NODE_SIZE + offset) value) (s.pools name) (free name)
        (taken name) := by
      refine (kept.links name).congr fun a inNode => same a ?_
      rintro rfl
      exact SkbLayout.element_not_node nodeIn inNode element
    have sizes : TrueSizes name (Function.update s.mem (node + LIST_NODE_SIZE + offset) value)
        (taken name) := by
      intro other otherIn
      rw [← kept.sizes name other otherIn]
      refine loadWord_congr fun a first last => same a ?_
      rintro rfl
      by_cases different : other = node
      · subst different
        omega
      · exact SkbLayout.elements_apart nodeIn ((kept.links name).takenIn otherIn)
          (Ne.symm different) element (SkbLayout.truesize_element name first last)
    have area : ∀ a, ¬ layout.Area name a →
        Function.update s.mem (node + LIST_NODE_SIZE + offset) value a = s.mem a := by
      refine fun a outside => same a ?_
      rintro rfl
      exact SkbLayout.outside_element nodeIn outside element
    have stepped := kept.step links sizes area
    rw [Function.update_eq_self, Function.update_eq_self, Function.update_eq_self] at stepped
    exact stepped
  · rw [if_neg inside]
    exact kept

/-! ## `skb_init` -/

theorem memPoolFill_eq (size count node : Nat) (put : Memory × MemPool) :
    memPoolFill size count node put =
      ((List.range count).map fun i => node + memNodeSize size * i).foldl
        (fun put node => listInsertTail put.1 put.2 node) put := by
  induction count generalizing node put with
  | zero => rfl
  | succ count ih =>
      rw [memPoolFill, ih, List.range_succ_eq_map, List.map_cons, List.foldl_cons, Nat.mul_zero,
        Nat.add_zero, List.map_map]
      congr 1
      refine List.map_congr_left fun i _ => ?_
      change _ = node + memNodeSize size * (i + 1)
      rw [Nat.mul_succ]
      omega

theorem foldl_insertTail {all nodes front : List Nat} (spaced : NodesApart all)
    {put last : Memory × MemPool}
    (runs : nodes.foldl (fun put node => listInsertTail put.1 put.2 node) put = last)
    (list : PoolRing put.1 put.2 front) (inAll : put.2.listHead :: (front ++ nodes) ⊆ all)
    (once : (put.2.listHead :: (front ++ nodes)).Nodup) :
    PoolRing last.1 last.2 (front ++ nodes) ∧ last.2.listHead = put.2.listHead ∧
      last.2.size = put.2.size ∧ last.2.used = put.2.used ∧
      ∀ a, OutsideNodes all a → last.1 a = put.1 a := by
  induction nodes generalizing put front with
  | nil =>
      subst runs
      rw [List.append_nil]
      exact ⟨list, rfl, rfl, rfl, fun _ _ => rfl⟩
  | cons node nodes ih =>
      have regroup : front ++ node :: nodes = front ++ [node] ++ nodes := by
        rw [List.append_assoc]
        rfl
      have nodeIn : node ∈ all :=
        inAll (List.mem_cons_of_mem _ (List.mem_append_right _ List.mem_cons_self))
      have parts : (put.2.listHead :: front ++ node :: nodes).Nodup := once
      have new : node ∉ put.2.listHead :: front := fun member =>
        (List.nodup_append.mp parts).2.2 node member node List.mem_cons_self rfl
      have frontIn : put.2.listHead :: front ⊆ all := fun other member =>
        inAll (List.mem_append_left (node :: nodes) member)
      obtain ⟨ring, -, outside⟩ := listInsertTail_ring spaced list frontIn nodeIn new
      rw [regroup] at inAll once ⊢
      obtain ⟨rings, head, size, used, frame⟩ := ih runs ring inAll once
      exact ⟨rings, head, size, used, fun a out => (frame a out).trans (outside a out)⟩

theorem memPoolInit_kept (layout : SkbLayout) (name : SkbPool) (mem : Memory)
    {put : Memory × MemPool}
    (init : memPoolInit mem (layout.pool name) name.size name.capacity (layout.buf name) = put) :
    PoolLinks layout name put.1 put.2 (layout.nodes name) [] ∧
      ∀ a, ¬ layout.Area name a → put.1 a = mem a := by
  have spaced := layout.spaced name
  have headIn : layout.pool name ∈ layout.all name := List.mem_cons_self
  have once : (layout.all name).Nodup := by
    refine List.nodup_cons.mpr ⟨fun member => ?_, layout.nodes_nodup name⟩
    have inside := SkbLayout.node_inside member
    have outside := layout.eachApart name name
    have wide := name.stride_holds.1
    unfold MEM_POOL_SIZE at outside
    unfold LIST_NODE_SIZE at wide
    omega
  rw [memPoolInit, memPoolFill_eq] at init
  have first : PoolRing (listInit (fillBytes mem (layout.pool name) MEM_POOL_SIZE 0)
      (layout.pool name)) ⟨layout.pool name, 0, 0, 0, 0, 0, name.size⟩ [] := by
    refine ⟨⟨⟨?_, ?_⟩, List.nodup_singleton _⟩, rfl⟩
    · rw [listInit, spaced.next_setPrev headIn headIn, spaced.next_setNext headIn headIn headIn,
        Function.update_self]
    · rw [listInit, spaced.prev_setPrev headIn headIn headIn, Function.update_self]
  obtain ⟨ring, head, size, used, frame⟩ :=
    foldl_insertTail spaced init first (List.Subset.refl _) once
  refine ⟨⟨head, size, ring, used, ?_, nofun⟩, fun a outside => ?_⟩
  · rw [List.append_nil]
  · have outNodes := SkbLayout.outside_nodes outside
    rw [frame a outNodes]
    unfold SkbLayout.Area at outside
    change setPrev (setNext (fillBytes mem _ _ _) _ _) _ _ a = mem a
    rw [setPrev_outside outNodes headIn, setNext_outside outNodes headIn,
      fillBytes_outside (by omega)]

theorem skbInit_eq (layout : SkbLayout) (mem : Memory) : ∃ small large,
    memPoolInit mem (layout.pool .skb512) SkbPool.skb512.size SkbPool.skb512.capacity
        (layout.buf .skb512) = small ∧
      memPoolInit small.1 (layout.pool .skb1518) SkbPool.skb1518.size SkbPool.skb1518.capacity
        (layout.buf .skb1518) = large ∧
      skbInit layout mem = ⟨large.1, fun | .skb512 => small.2 | .skb1518 => large.2⟩ :=
  ⟨_, _, rfl, rfl, rfl⟩

theorem skbInit_kept (layout : SkbLayout) (mem : Memory) :
    SkbLinks layout (skbInit layout mem) layout.nodes fun _ => [] := by
  obtain ⟨small, large, smallInit, largeInit, same⟩ := skbInit_eq layout mem
  obtain ⟨smallLinks, -⟩ := memPoolInit_kept layout .skb512 mem smallInit
  obtain ⟨largeLinks, frame⟩ := memPoolInit_kept layout .skb1518 small.1 largeInit
  rw [same]
  refine ⟨?_, fun _ => nofun⟩
  rintro (_ | _)
  · exact (smallLinks.frame nofun fun a inside =>
      frame a (SkbLayout.areas_apart (by decide) inside)).1
  · exact largeLinks

/-! ## Runs -/

/-- Every element of both pools is in the ring of its pool, or it is one that the stack holds. -/
structure SkbKept (layout : SkbLayout) (user : SkbUser) (free taken : SkbPool → List Nat) :
    Prop where
  links : SkbLinks layout user.skbs free taken
  held : user.held.Perm ((taken .skb512 ++ taken .skb1518).map (· + LIST_NODE_SIZE))

theorem SkbKept.held_taken (kept : SkbKept layout user free taken) (inHeld : skb ∈ user.held) :
    ∃ name, ∃ node ∈ taken name, skb = node + LIST_NODE_SIZE := by
  obtain ⟨node, member, same⟩ := List.mem_map.mp (kept.held.mem_iff.mp inHeld)
  rcases List.mem_append.mp member with small | large
  · exact ⟨_, node, small, same.symm⟩
  · exact ⟨_, node, large, same.symm⟩

theorem taken_cons (taken : SkbPool → List Nat) (name : SkbPool) (node : Nat) :
    ((Function.update taken name (node :: taken name) .skb512 ++
        Function.update taken name (node :: taken name) .skb1518).map (· + LIST_NODE_SIZE)).Perm
      ((node + LIST_NODE_SIZE) ::
        (taken .skb512 ++ taken .skb1518).map (· + LIST_NODE_SIZE)) := by
  cases name with
  | skb512 => exact List.Perm.refl _
  | skb1518 => exact List.perm_middle.map (· + LIST_NODE_SIZE)

theorem taken_erase (inTaken : node ∈ taken name) :
    ((node + LIST_NODE_SIZE) ::
      (Function.update taken name ((taken name).erase node) .skb512 ++
        Function.update taken name ((taken name).erase node) .skb1518).map (· + LIST_NODE_SIZE)).Perm
      ((taken .skb512 ++ taken .skb1518).map (· + LIST_NODE_SIZE)) := by
  have less : (node :: (taken name).erase node).Perm (taken name) :=
    (List.perm_cons_erase inTaken).symm
  cases name with
  | skb512 => exact (less.append_right _).map (· + LIST_NODE_SIZE)
  | skb1518 =>
      exact (List.perm_middle.symm.trans (less.append_left _)).map (· + LIST_NODE_SIZE)

theorem skbEvent_kept (kept : SkbKept layout user free taken) (event : SkbEvent) :
    ∃ free taken, SkbKept layout (skbEvent user event) free taken := by
  cases event with
  | new size =>
      rw [skbEvent, skbNew]
      rcases skbNewFrom_kept size kept.links skbMemPools with
        fails | ⟨name, node, rest, -, returns, links⟩
      · rw [fails]
        exact ⟨free, taken, kept⟩
      · rw [returns]
        exact ⟨_, _, links, (kept.held.cons _).trans (taken_cons taken name node).symm⟩
  | write i offset value =>
      rw [skbEvent]
      cases found : user.held[i]? with
      | none => exact ⟨free, taken, kept⟩
      | some skb =>
          obtain ⟨name, node, inTaken, rfl⟩ := kept.held_taken (List.mem_of_getElem? found)
          exact ⟨free, taken, skbWrite_kept kept.links inTaken, kept.held⟩
  | free i =>
      rw [skbEvent]
      cases found : user.held[i]? with
      | none =>
          rw [List.eraseIdx_of_length_le (List.getElem?_eq_none_iff.mp found)]
          exact ⟨free, taken, kept⟩
      | some skb =>
          obtain ⟨name, node, inTaken, rfl⟩ := kept.held_taken (List.mem_of_getElem? found)
          refine ⟨_, _, skbFree_kept kept.links inTaken, ?_⟩
          obtain ⟨inside, is⟩ := List.getElem?_eq_some_iff.mp found
          have out := List.getElem_cons_eraseIdx_perm inside
          rw [is] at out
          exact ((out.trans kept.held).trans (taken_erase inTaken).symm).cons_inv

/-- The elements of every pool are conserved: some are in its ring, and the others are what the
stack holds of it. -/
structure SkbConserved (layout : SkbLayout) (user : SkbUser) (free taken : SkbPool → List Nat) :
    Prop where
  /-- The ring of a pool is made of the free elements, and counts them. -/
  ring : ∀ name, Ring (nodeNext user.skbs.mem) (nodePrev user.skbs.mem) (layout.pool name)
    (free name)
  counts : ∀ name, (user.skbs.pools name).count = (free name).length ∧
    (user.skbs.pools name).used = (taken name).length ∧
    (user.skbs.pools name).count + (user.skbs.pools name).used = name.capacity
  /-- All elements are different, and each is free or in use. -/
  distinct : ∀ name, (free name ++ taken name).Nodup
  slots : ∀ name node, node ∈ layout.nodes name ↔ node ∈ free name ∨ node ∈ taken name
  /-- The elements in use are those that the stack holds, each once. -/
  once : user.held.Nodup
  held : ∀ skb, skb ∈ user.held ↔ ∃ name, ∃ node ∈ taken name, skb = node + LIST_NODE_SIZE
  /-- A free finds the pool that an element is of. -/
  returned : ∀ name, ∀ node ∈ taken name, skbPoolOf user.skbs (node + LIST_NODE_SIZE) = name

theorem SkbLayout.pools_apart {one other : SkbPool} (oneIn : node ∈ layout.nodes one)
    (otherIn : node ∈ layout.nodes other) : one = other := by
  by_contra different
  have inside := node_inside oneIn
  have inside' := node_inside otherIn
  have wide := one.stride_holds.1
  have wide' := other.stride_holds.1
  unfold LIST_NODE_SIZE at wide wide'
  exact layout.areas_apart different (.inr ⟨inside.1, by omega⟩) (.inr ⟨inside'.1, by omega⟩)

theorem SkbKept.conserved (kept : SkbKept layout user free taken) :
    SkbConserved layout user free taken where
  ring name := (kept.links.links name).head ▸ (kept.links.links name).list.ring
  counts name := by
    have links := kept.links.links name
    have whole := links.slots.length_eq
    rw [List.length_append, SkbLayout.nodes_length] at whole
    refine ⟨links.list.count, links.used, ?_⟩
    rw [links.list.count, links.used]
    omega
  distinct name := (kept.links.links name).nodup
  slots name node := by
    rw [← (kept.links.links name).slots.mem_iff, List.mem_append]
  once := by
    rw [kept.held.nodup_iff]
    refine List.Nodup.map (fun _ _ => Nat.add_right_cancel) ?_
    have each := fun name => (List.nodup_append.mp (kept.links.links name).nodup).2.1
    refine List.nodup_append.mpr ⟨each _, each _, fun one inSmall other inLarge same => ?_⟩
    subst same
    have small := (kept.links.links _).takenIn inSmall
    have large := (kept.links.links _).takenIn inLarge
    exact absurd (SkbLayout.pools_apart small large) (by decide)
  held skb := by
    constructor
    · exact kept.held_taken
    · rintro ⟨name, node, inTaken, rfl⟩
      refine kept.held.mem_iff.mpr (List.mem_map.mpr ⟨node, List.mem_append.mpr ?_, rfl⟩)
      cases name with
      | skb512 => exact .inl inTaken
      | skb1518 => exact .inr inTaken
  returned name node inTaken := skbPoolOf_taken kept.links inTaken

/-- **The packet buffers are conserved.** However a stack allocates buffers of any sizes, writes
into them and frees them, the elements of each pool are in its ring or held by the stack, no
element is in two places, and none is lost. -/
theorem skb_conserved (layout : SkbLayout) (mem : Memory) (events : List SkbEvent) :
    ∃ free taken, SkbConserved layout
      (runEvents skbEvent ⟨skbInit layout mem, []⟩ events) free taken := by
  have first : ∃ free taken, SkbKept layout ⟨skbInit layout mem, []⟩ free taken :=
    ⟨layout.nodes, fun _ => [], skbInit_kept layout mem, List.Perm.refl _⟩
  have each : ∀ user event, (∃ free taken, SkbKept layout user free taken) →
      ∃ free taken, SkbKept layout (skbEvent user event) free taken :=
    fun _ event ⟨_, _, kept⟩ => skbEvent_kept kept event
  have last : ∃ free taken, SkbKept layout
      (runEvents skbEvent ⟨skbInit layout mem, []⟩ events) free taken :=
    runEvents_always each first
  obtain ⟨free, taken, kept⟩ := last
  exact ⟨free, taken, kept.conserved⟩

end PosFirmware.IpStack
