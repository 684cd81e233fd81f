import PosFirmware.IpStack.MemPool
import PosFirmware.IpStack.SkBuff

/-! # The packet buffers are conserved

Every element of a pool is in the ring of the pool or held by the stack, in every run
(`skb_conserved`): taking a buffer moves its node out of the ring, a free finds the pool by the
size in the buffer, and what the stack writes into its buffers reaches no node.
-/

namespace PosFirmware.IpStack

open PosFirmware.Foundation

/-! ## Where the elements lie -/

namespace SkbPool

/-- From one node to the next. -/
def stride (name : SkbPool) : Nat := memNodeSize name.size

theorem stride_holds (name : SkbPool) :
    LIST_NODE_SIZE + name.size + 8 ≤ name.stride ∧ SK_BUFF_SIZE + name.dataSize = name.size := by
  cases name <;> decide

end SkbPool

variable {layout : SkbLayout} {name : SkbPool} {mem mem' : Memory} {pool : MemPool}
  {free taken : List Nat} {node other : Nat}

/-- The nodes of a pool, before the elements. -/
def SkbLayout.nodes (layout : SkbLayout) (name : SkbPool) : List Nat :=
  (List.range name.capacity).map fun i => memAlign (layout.buf name) + name.stride * i

/-- The nodes of a pool and the head of its list. -/
def SkbLayout.all (layout : SkbLayout) (name : SkbPool) : List Nat :=
  layout.pool name :: layout.nodes name

/-- The bytes of a pool: its own, and its static buffer. -/
def SkbLayout.Area (layout : SkbLayout) (name : SkbPool) (a : Nat) : Prop :=
  (layout.pool name ≤ a ∧ a < layout.pool name + MEM_POOL_SIZE) ∨
    (layout.buf name ≤ a ∧ a < layout.buf name + name.bufSize)

/-- The bytes of the element behind a node. -/
def Element (name : SkbPool) (node a : Nat) : Prop :=
  node + LIST_NODE_SIZE ≤ a ∧ a < node + name.stride

namespace SkbLayout

theorem mem_nodes : node ∈ layout.nodes name ↔
    ∃ i < name.capacity, memAlign (layout.buf name) + name.stride * i = node := by
  simp only [nodes, List.mem_map, List.mem_range]

theorem nodes_apart (nodeIn : node ∈ layout.nodes name) (otherIn : other ∈ layout.nodes name)
    (different : node ≠ other) : node + name.stride ≤ other ∨ other + name.stride ≤ node := by
  obtain ⟨i, -, rfl⟩ := mem_nodes.mp nodeIn
  obtain ⟨j, -, rfl⟩ := mem_nodes.mp otherIn
  have notSame : i ≠ j := by
    rintro rfl
    exact different rfl
  rcases Nat.lt_or_gt_of_ne notSame with before | after
  · have step := Nat.mul_le_mul_left name.stride (Nat.succ_le_of_lt before)
    rw [Nat.mul_succ] at step
    omega
  · have step := Nat.mul_le_mul_left name.stride (Nat.succ_le_of_lt after)
    rw [Nat.mul_succ] at step
    omega

theorem nodes_nodup (layout : SkbLayout) (name : SkbPool) : (layout.nodes name).Nodup := by
  refine List.Nodup.map_on ?_ List.nodup_range
  intro i _ j _ same
  have wide := name.stride_holds.1
  exact Nat.eq_of_mul_eq_mul_left (by unfold LIST_NODE_SIZE at wide; omega)
    (Nat.add_left_cancel same)

theorem nodes_length (layout : SkbLayout) (name : SkbPool) :
    (layout.nodes name).length = name.capacity := by
  rw [nodes, List.length_map, List.length_range]

theorem node_inside (nodeIn : node ∈ layout.nodes name) :
    layout.buf name ≤ node ∧ node + name.stride ≤ layout.buf name + name.bufSize := by
  obtain ⟨i, below, rfl⟩ := mem_nodes.mp nodeIn
  have step := Nat.mul_le_mul_left name.stride (Nat.succ_le_of_lt below)
  rw [Nat.mul_succ] at step
  have size : name.bufSize = name.stride * name.capacity + 4 := rfl
  unfold memAlign
  omega

theorem spaced (layout : SkbLayout) (name : SkbPool) : NodesApart (layout.all name) := by
  have wide := name.stride_holds.1
  have outside := layout.eachApart name name
  have inMemory := layout.inMemory name
  unfold LIST_NODE_SIZE at *
  unfold MEM_POOL_SIZE at *
  refine ⟨⟨fun one oneIn other otherIn different => ?_⟩, fun one oneIn => ?_⟩
  · rcases List.mem_cons.mp oneIn with rfl | oneIn
    · rcases List.mem_cons.mp otherIn with rfl | otherIn
      · exact absurd rfl different
      · have inside := node_inside otherIn
        omega
    · rcases List.mem_cons.mp otherIn with rfl | otherIn
      · have inside := node_inside oneIn
        omega
      · have apart := nodes_apart oneIn otherIn different
        omega
  · unfold LIST_NODE_SIZE
    rcases List.mem_cons.mp oneIn with rfl | oneIn
    · omega
    · have inside := node_inside oneIn
      omega

theorem element_outside {a : Nat} (nodeIn : node ∈ layout.nodes name)
    (element : Element name node a) (otherIn : other ∈ layout.all name) :
    a < other ∨ other + LIST_NODE_SIZE ≤ a := by
  obtain ⟨first, last⟩ := element
  have inside := node_inside nodeIn
  have outside := layout.eachApart name name
  have wide := name.stride_holds.1
  rcases List.mem_cons.mp otherIn with rfl | otherIn
  · unfold LIST_NODE_SIZE at *
    unfold MEM_POOL_SIZE at *
    omega
  · by_cases same : other = node
    · rw [same]
      exact .inr first
    · have apart := nodes_apart nodeIn otherIn (Ne.symm same)
      unfold LIST_NODE_SIZE at *
      omega

theorem areas_apart {one other : SkbPool} (different : one ≠ other) {a : Nat}
    (inside : layout.Area one a) : ¬ layout.Area other a := by
  have poolApart := layout.poolApart
  have bufApart := layout.bufApart
  have each := layout.eachApart one other
  have back := layout.eachApart other one
  unfold Area at *
  cases one <;> cases other
  · exact absurd rfl different
  · omega
  · omega
  · exact absurd rfl different

end SkbLayout

/-! ## One pool -/

/-- The elements of a pool: the nodes of some are in its ring, and the others are taken. -/
structure PoolLinks (layout : SkbLayout) (name : SkbPool) (mem : Memory) (pool : MemPool)
    (free taken : List Nat) : Prop where
  head : pool.listHead = layout.pool name
  size : pool.size = name.size
  list : PoolRing mem pool free
  used : pool.used = taken.length
  slots : (free ++ taken).Perm (layout.nodes name)
  alone : ∀ node ∈ taken, Alone mem node

/-- Each element has the size of its pool in it. -/
def TrueSizes (name : SkbPool) (mem : Memory) (taken : List Nat) : Prop :=
  ∀ node ∈ taken, loadWord mem (node + LIST_NODE_SIZE + SKB_TRUESIZE) = name.dataSize

namespace PoolLinks

theorem freeIn (kept : PoolLinks layout name mem pool free taken) :
    pool.listHead :: free ⊆ layout.all name := by
  intro node member
  rcases List.mem_cons.mp member with rfl | inFree
  · rw [kept.head]
    exact List.mem_cons_self
  · exact List.mem_cons_of_mem _ (kept.slots.mem_iff.mp (List.mem_append_left _ inFree))

theorem takenIn (kept : PoolLinks layout name mem pool free taken) (inTaken : node ∈ taken) :
    node ∈ layout.nodes name :=
  kept.slots.mem_iff.mp (List.mem_append_right _ inTaken)

theorem nodup (kept : PoolLinks layout name mem pool free taken) : (free ++ taken).Nodup :=
  kept.slots.nodup_iff.mpr (layout.nodes_nodup name)

theorem takenOut (kept : PoolLinks layout name mem pool free taken) (inTaken : node ∈ taken) :
    node ∉ pool.listHead :: free := by
  rw [List.mem_cons, kept.head]
  rintro (rfl | inFree)
  · have inside := SkbLayout.node_inside (kept.takenIn inTaken)
    have outside := layout.eachApart name name
    have wide := name.stride_holds.1
    unfold MEM_POOL_SIZE at outside
    unfold LIST_NODE_SIZE at wide
    omega
  · exact (List.nodup_append.mp kept.nodup).2.2 node inFree node inTaken rfl

theorem congr (kept : PoolLinks layout name mem pool free taken)
    (same : ∀ a, ¬ OutsideNodes (layout.all name) a → mem' a = mem a) :
    PoolLinks layout name mem' pool free taken := by
  have bytes : ∀ node ∈ layout.all name, ∀ a, node ≤ a → a < node + LIST_NODE_SIZE →
      mem' a = mem a := by
    intro node member a first last
    refine same a fun outside => ?_
    rcases outside node member with before | after <;> omega
  unfold LIST_NODE_SIZE at bytes
  have next : ∀ node ∈ layout.all name, nodeNext mem' node = nodeNext mem node :=
    fun node member => loadWord_congr fun a _ _ => bytes node member a (by omega) (by omega)
  have prev : ∀ node ∈ layout.all name, nodePrev mem' node = nodePrev mem node :=
    fun node member => loadWord_congr fun a first _ => bytes node member a first (by omega)
  have inAll : ∀ node ∈ taken, node ∈ layout.all name := fun node member =>
    List.mem_cons_of_mem _ (kept.takenIn member)
  exact
    { kept with
      list := ⟨kept.list.ring.congr (fun node member => next node (kept.freeIn member))
        (fun node member => prev node (kept.freeIn member)), kept.list.count⟩
      alone := fun node member => ⟨(next node (inAll node member)).trans (kept.alone node member).1,
        (prev node (inAll node member)).trans (kept.alone node member).2⟩ }

end PoolLinks

namespace SkbLayout

theorem element_not_node {a : Nat} (nodeIn : node ∈ layout.nodes name)
    (inNode : ¬ OutsideNodes (layout.all name) a) : ¬ Element name node a :=
  fun element => inNode fun _ otherIn => element_outside nodeIn element otherIn

theorem outside_nodes {a : Nat} (outside : ¬ layout.Area name a) :
    OutsideNodes (layout.all name) a := by
  intro node nodeIn
  unfold Area MEM_POOL_SIZE at outside
  unfold LIST_NODE_SIZE
  rcases List.mem_cons.mp nodeIn with rfl | nodeIn
  · omega
  · have inside := node_inside nodeIn
    have wide := name.stride_holds.1
    unfold LIST_NODE_SIZE at wide
    omega

theorem outside_element {a : Nat} (nodeIn : node ∈ layout.nodes name)
    (outside : ¬ layout.Area name a) : ¬ Element name node a := by
  rintro ⟨first, last⟩
  have inside := node_inside nodeIn
  unfold Area at outside
  unfold LIST_NODE_SIZE at first
  omega

theorem truesize_element (name : SkbPool) {a : Nat} (first : node + LIST_NODE_SIZE + SKB_TRUESIZE ≤ a)
    (last : a < node + LIST_NODE_SIZE + SKB_TRUESIZE + 4) : Element name node a := by
  obtain ⟨wide, size⟩ := name.stride_holds
  unfold SKB_TRUESIZE at *
  unfold LIST_NODE_SIZE at *
  unfold SK_BUFF_SIZE at size
  constructor
  · unfold LIST_NODE_SIZE
    omega
  · omega

theorem elements_apart {a : Nat} (nodeIn : node ∈ layout.nodes name)
    (otherIn : other ∈ layout.nodes name) (different : node ≠ other)
    (element : Element name node a) : ¬ Element name other a := by
  rintro ⟨first, last⟩
  obtain ⟨first', last'⟩ := element
  have apart := nodes_apart nodeIn otherIn different
  unfold LIST_NODE_SIZE at *
  omega

end SkbLayout

theorem TrueSizes.congr (sizes : TrueSizes name mem taken)
    (same : ∀ node ∈ taken, ∀ a, Element name node a → mem' a = mem a) :
    TrueSizes name mem' taken := fun node member =>
  (loadWord_congr fun _ first last =>
    same node member _ (SkbLayout.truesize_element name first last)).trans (sizes node member)

theorem PoolLinks.frame (kept : PoolLinks layout name mem pool free taken)
    (sizes : TrueSizes name mem taken) (same : ∀ a, layout.Area name a → mem' a = mem a) :
    PoolLinks layout name mem' pool free taken ∧ TrueSizes name mem' taken := by
  refine ⟨kept.congr fun a inNode => same a ?_, sizes.congr fun node member a element => same a ?_⟩
  · by_contra outside
    exact inNode (SkbLayout.outside_nodes outside)
  · by_contra outside
    exact SkbLayout.outside_element (kept.takenIn member) outside element

/-! ## Taking an element -/

theorem skbSetUp_outside {skb size a : Nat} (outside : a < skb ∨ skb + SK_BUFF_SIZE + size ≤ a) :
    skbSetUp mem skb size a = mem a := by
  unfold SK_BUFF_SIZE at outside
  unfold skbSetUp SKB_HEAD SKB_DATA SKB_TAIL SKB_END SKB_TRUESIZE
  rw [putWord_outside (by omega), putWord_outside (by omega), putWord_outside (by omega),
    putWord_outside (by omega), putWord_outside (by omega), fillBytes_outside (by omega)]

theorem memMalloc_empty (list : PoolRing mem pool []) : memMalloc mem pool = (mem, pool, none) := by
  have got : staticMalloc mem pool = (mem, pool, none) := by
    rw [staticMalloc, listGet_empty list]
    rfl
  rw [memMalloc, got]

theorem memMalloc_first (list : PoolRing mem pool (node :: free)) : memMalloc mem pool =
    ((memHandOut (listRemove mem pool node).1 (listRemove mem pool node).2
        (node + LIST_NODE_SIZE)).1,
      (memHandOut (listRemove mem pool node).1 (listRemove mem pool node).2
        (node + LIST_NODE_SIZE)).2, some (node + LIST_NODE_SIZE)) := by
  have got : staticMalloc mem pool = ((listRemove mem pool node).1, (listRemove mem pool node).2,
      some (node + LIST_NODE_SIZE)) := by
    rw [staticMalloc, listGet_first list]
    rfl
  rw [memMalloc, got]

theorem memHandOut_outside {p a : Nat} (outside : a < p ∨ p + pool.size + 8 ≤ a) :
    (memHandOut mem pool p).1 a = mem a := by
  change putWord (putWord (fillBytes mem p pool.size 0) (p + pool.size) _)
    (p + pool.size + 4) _ a = _
  rw [putWord_outside (by omega), putWord_outside (by omega), fillBytes_outside (by omega)]

/-- A buffer from a pool with a free element. -/
theorem PoolLinks.new (kept : PoolLinks layout name mem pool (node :: free) taken)
    (sizes : TrueSizes name mem taken) :
    ∃ mem' pool', memMalloc mem pool = (mem', pool', some (node + LIST_NODE_SIZE)) ∧
      PoolLinks layout name (skbSetUp mem' (node + LIST_NODE_SIZE) name.dataSize) pool' free
        (node :: taken) ∧
      TrueSizes name (skbSetUp mem' (node + LIST_NODE_SIZE) name.dataSize) (node :: taken) ∧
      ∀ a, ¬ layout.Area name a →
        skbSetUp mem' (node + LIST_NODE_SIZE) name.dataSize a = mem a := by
  obtain ⟨ring, alone, outside⟩ := listRemove_ring (layout.spaced name) kept.list kept.freeIn
  obtain ⟨wide, data⟩ := name.stride_holds
  have nodeIn : node ∈ layout.nodes name :=
    kept.slots.mem_iff.mp (List.mem_append_left _ List.mem_cons_self)
  have ringOut : node ∉ pool.listHead :: free := by
    have once := kept.list.ring.nodup
    grind
  have slots : (free ++ node :: taken).Perm (layout.nodes name) :=
    List.perm_middle.trans kept.slots
  have size : (listRemove mem pool node).2.size = name.size := kept.size
  have used : (listRemove mem pool node).2.used + 1 = (node :: taken).length :=
    congrArg (· + 1) kept.used
  have onlyElement : ∀ a, ¬ Element name node a →
      skbSetUp (memHandOut (listRemove mem pool node).1 (listRemove mem pool node).2
        (node + LIST_NODE_SIZE)).1 (node + LIST_NODE_SIZE) name.dataSize a =
      (listRemove mem pool node).1 a := by
    intro a notElement
    have apart : a < node + LIST_NODE_SIZE ∨ node + name.stride ≤ a := by
      unfold Element at notElement
      omega
    rw [skbSetUp_outside (by omega), memHandOut_outside (by rw [size]; omega)]
  have removed : PoolLinks layout name (listRemove mem pool node).1
      (memHandOut (listRemove mem pool node).1 (listRemove mem pool node).2
        (node + LIST_NODE_SIZE)).2 free (node :: taken) :=
    { head := kept.head
      size := size
      list := ⟨ring.ring, ring.count⟩
      used := used
      slots := slots
      alone := by
        intro other member
        have inNodes : other ∈ layout.nodes name :=
          slots.mem_iff.mp (List.mem_append_right _ member)
        refine alone other (List.mem_cons_of_mem _ inNodes) ?_ ?_
        · rcases List.mem_cons.mp member with rfl | inTaken
          · exact ringOut
          · exact fun third => kept.takenOut inTaken (List.mem_cons.mpr
              ((List.mem_cons.mp third).imp_right (List.mem_cons_of_mem _)))
        · intro different
          exact kept.alone other ((List.mem_cons.mp member).resolve_left different) }
  refine ⟨_, _, memMalloc_first kept.list, removed.congr fun a inNode =>
    onlyElement a (SkbLayout.element_not_node nodeIn inNode), ?_, ?_⟩
  · intro other member
    rcases List.mem_cons.mp member with rfl | inTaken
    · apply loadWord_putWord
      cases name <;> decide
    · refine (sizes.congr fun node' inTaken a element => ?_) other inTaken
      have otherIn := kept.takenIn inTaken
      have different : node' ≠ node := by
        rintro rfl
        exact (List.nodup_append.mp kept.nodup).2.2 node' List.mem_cons_self node' inTaken rfl
      rw [onlyElement a (SkbLayout.elements_apart otherIn nodeIn different element)]
      exact outside a fun third => SkbLayout.element_outside otherIn element
  · intro a notArea
    rw [onlyElement a (SkbLayout.outside_element nodeIn notArea)]
    exact outside a (SkbLayout.outside_nodes notArea)

/-! ## Giving an element back -/

theorem memFree_eq (alone : Alone mem node) : memFree mem pool (node + LIST_NODE_SIZE) =
    ((listInsertTail mem pool node).1, { (listInsertTail mem pool node).2 with
      freeCount := pool.freeCount + 1, used := pool.used - 1 }) := by
  have put : staticFree mem pool (node + LIST_NODE_SIZE) = listInsertTail mem pool node := by
    rw [staticFree, Nat.add_sub_cancel]
    exact if_neg fun linked => linked.1 alone.1
  rw [memFree, put]
  rfl

theorem PoolLinks.put (kept : PoolLinks layout name mem pool free taken)
    (sizes : TrueSizes name mem taken) (inTaken : node ∈ taken) :
    PoolLinks layout name (memFree mem pool (node + LIST_NODE_SIZE)).1
        (memFree mem pool (node + LIST_NODE_SIZE)).2 (free ++ [node]) (taken.erase node) ∧
      TrueSizes name (memFree mem pool (node + LIST_NODE_SIZE)).1 (taken.erase node) ∧
      ∀ a, ¬ layout.Area name a → (memFree mem pool (node + LIST_NODE_SIZE)).1 a = mem a := by
  rw [memFree_eq (kept.alone node inTaken)]
  have nodeIn : node ∈ layout.all name := List.mem_cons_of_mem _ (kept.takenIn inTaken)
  obtain ⟨ring, alone, outside⟩ := listInsertTail_ring (layout.spaced name) kept.list kept.freeIn
    nodeIn (kept.takenOut inTaken)
  have once : taken.Nodup := (List.nodup_append.mp kept.nodup).2.1
  have still : ∀ other ∈ taken.erase node, other ∈ taken := fun other => List.mem_of_mem_erase
  refine ⟨?_, ?_, fun a notArea => outside a (SkbLayout.outside_nodes notArea)⟩
  · exact
      { head := kept.head
        size := kept.size
        list := ⟨ring.ring, ring.count⟩
        used := by
          change pool.used - 1 = _
          have some_ := List.length_pos_of_mem inTaken
          rw [kept.used, List.length_erase_of_mem inTaken]
          omega
        slots := by
          rw [List.append_assoc]
          exact (List.Perm.append_left _ (List.perm_cons_erase inTaken).symm).trans kept.slots
        alone := by
          intro other member
          refine alone other (List.mem_cons_of_mem _ (kept.takenIn (still other member)))
            (kept.takenOut (still other member)) ?_ (kept.alone other (still other member))
          rintro rfl
          exact once.not_mem_erase member }
  · intro other member
    refine (sizes.congr fun node' inTaken' a element => ?_) other (still other member)
    exact outside a fun third =>
      SkbLayout.element_outside (kept.takenIn inTaken') element

end PosFirmware.IpStack
