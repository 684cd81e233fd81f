import PosFirmware.Foundation.Words
import PosFirmware.IpStack.Inet
import PosFirmware.Foundation.Ring

/-! # Pools of equal elements

`mem_pool.c` for a pool in a static buffer: a ring of `LIST_NODE`s, each before the element it
stands for, all in one memory of bytes. An element in use has its node linked to itself.
-/

namespace PosFirmware.IpStack

open PosFirmware.Foundation

abbrev Memory := Nat → Byte

/-! ## Nodes -/

/-- `sizeof(LIST_NODE)`: `prev`, then `next`. -/
def LIST_NODE_SIZE : Nat := 8

def nodePrev (mem : Memory) (node : Nat) : Nat := loadWord mem node
def nodeNext (mem : Memory) (node : Nat) : Nat := loadSecond mem node
def setPrev (mem : Memory) (node target : Nat) : Memory := putWord mem node target
def setNext (mem : Memory) (node target : Nat) : Memory := putSecond mem node target

/-- `list_init`. -/
def listInit (mem : Memory) (node : Nat) : Memory := setPrev (setNext mem node node) node node

/-- `list_insert`. -/
def listInsert (mem : Memory) (prev node : Nat) : Memory :=
  let mem := setNext mem node (nodeNext mem prev)
  let mem := setPrev mem node prev
  let mem := setPrev mem (nodeNext mem prev) node
  setNext mem prev node

/-- A pool: its `list_head` starts with the node at `listHead` and has the count of nodes. -/
structure MemPool where
  listHead : Nat
  count : Int
  mallocCount : Int
  freeCount : Int
  used : Int
  maxUsed : Int
  size : Nat

/-- `list_remove`. -/
def listRemove (mem : Memory) (pool : MemPool) (node : Nat) : Memory × MemPool :=
  let prev := nodePrev mem node
  let next := nodeNext mem node
  (listInit (setPrev (setNext mem prev next) next prev) node,
    { pool with count := pool.count - 1 })

/-- `list_insertTail`. -/
def listInsertTail (mem : Memory) (pool : MemPool) (node : Nat) : Memory × MemPool :=
  (listInsert mem (nodePrev mem pool.listHead) node, { pool with count := pool.count + 1 })

/-- `list_get`. -/
def listGet (mem : Memory) (pool : MemPool) : Memory × MemPool × Option Nat :=
  let node := nodeNext mem pool.listHead
  if pool.count = 0 then (mem, pool, none)
  else
    let removed := listRemove mem pool node
    (removed.1, removed.2, some node)

/-! ## Elements -/

/-- `static_malloc`. -/
def staticMalloc (mem : Memory) (pool : MemPool) : Memory × MemPool × Option Nat :=
  let got := listGet mem pool
  (got.1, got.2.1, got.2.2.map (· + LIST_NODE_SIZE))

/-- `static_free`: an element whose node is in a ring is left there. -/
def staticFree (mem : Memory) (pool : MemPool) (p : Nat) : Memory × MemPool :=
  let node := p - LIST_NODE_SIZE
  if nodeNext mem node ≠ node ∧ nodePrev mem node ≠ node then (mem, pool)
  else listInsertTail mem pool node

/-- `MEM_ALIGN`. -/
def memAlign (m : Nat) : Nat := (m + 3) / 4 * 4

/-- `MEM_NODE_SIZE`: the node, the element, and eight bytes that guard its end. -/
def memNodeSize (size : Nat) : Nat := memAlign size + LIST_NODE_SIZE + 8

/-- The two words of `magic_id`. -/
def magicId : Nat × Nat := (0x12345678, 0x87654321)

/-- `mem_malloc` with an element: it is counted, cleared and guarded. -/
def memHandOut (mem : Memory) (pool : MemPool) (p : Nat) : Memory × MemPool :=
  let used := pool.used + 1
  let mem := fillBytes mem p pool.size 0
  (putWord (putWord mem (p + pool.size) magicId.1) (p + pool.size + 4) magicId.2,
    { pool with
      mallocCount := pool.mallocCount + 1, used := used, maxUsed := max pool.maxUsed used })

/-- `mem_malloc`, where a pool without elements is no failed assertion. -/
def memMalloc (mem : Memory) (pool : MemPool) : Memory × MemPool × Option Nat :=
  match staticMalloc mem pool with
  | (mem, pool, none) => (mem, pool, none)
  | (mem, pool, some p) =>
      let out := memHandOut mem pool p
      (out.1, out.2, some p)

/-- `mem_free`. Its check of the guarding bytes has no effect. -/
def memFree (mem : Memory) (pool : MemPool) (p : Nat) : Memory × MemPool :=
  let put := staticFree mem pool p
  (put.1, { put.2 with freeCount := put.2.freeCount + 1, used := put.2.used - 1 })

/-- `sizeof(MEM_POOL)`. -/
def MEM_POOL_SIZE : Nat := 56

/-- The loop of `mem_pool_init`: a number of nodes from an address on. -/
def memPoolFill (size : Nat) : Nat → Nat → Memory × MemPool → Memory × MemPool
  | 0, _, put => put
  | count + 1, node, put =>
      memPoolFill size count (node + memNodeSize size) (listInsertTail put.1 put.2 node)

/-- `mem_pool_init` of a pool at an address with a static buffer. -/
def memPoolInit (mem : Memory) (ppool size count staticBuf : Nat) : Memory × MemPool :=
  let mem := fillBytes mem ppool MEM_POOL_SIZE 0
  let pool : MemPool := ⟨ppool, 0, 0, 0, 0, 0, size⟩
  memPoolFill size count (memAlign staticBuf) (listInit mem ppool, pool)

/-! ## The ring of a pool

On nodes that lie apart the operations on a list change the links that the ring of the pool
has, and no other link: `listInsertTail_ring` and `listRemove_ring`.
-/

/-- Nodes in memory that do not overlap. -/
structure NodesApart (nodes : List Nat) : Prop extends Spaced nodes where
  inMemory : ∀ node ∈ nodes, node + LIST_NODE_SIZE ≤ 4294967296

variable {mem : Memory} {pool : MemPool} {all free : List Nat} {node other target prev : Nat}

namespace NodesApart

theorem fits (spaced : NodesApart all) (nodeIn : node ∈ all) : node < 4294967296 := by
  have inMemory := spaced.inMemory node nodeIn
  unfold LIST_NODE_SIZE at inMemory
  omega

theorem next_setNext (spaced : NodesApart all) (nodeIn : node ∈ all) (otherIn : other ∈ all)
    (targetIn : target ∈ all) : nodeNext (setNext mem node target) other =
      Function.update (nodeNext mem) node target other :=
  spaced.second_putSecond nodeIn otherIn (spaced.fits targetIn)

theorem prev_setPrev (spaced : NodesApart all) (nodeIn : node ∈ all) (otherIn : other ∈ all)
    (targetIn : target ∈ all) : nodePrev (setPrev mem node target) other =
      Function.update (nodePrev mem) node target other :=
  spaced.first_putWord nodeIn otherIn (spaced.fits targetIn)

theorem prev_setNext (spaced : NodesApart all) (nodeIn : node ∈ all) (otherIn : other ∈ all) :
    nodePrev (setNext mem node target) other = nodePrev mem other :=
  spaced.first_putSecond nodeIn otherIn

theorem next_setPrev (spaced : NodesApart all) (nodeIn : node ∈ all) (otherIn : other ∈ all) :
    nodeNext (setPrev mem node target) other = nodeNext mem other :=
  spaced.second_putWord nodeIn otherIn

end NodesApart

theorem listInsert_eq (spaced : NodesApart all) (nodeIn : node ∈ all) (prevIn : prev ∈ all)
    (nextIn : nodeNext mem prev ∈ all) (new : prev ≠ node) : listInsert mem prev node =
      setNext (setPrev (setPrev (setNext mem node (nodeNext mem prev)) node prev)
        (nodeNext mem prev) node) prev node := by
  have leads : nodeNext (setPrev (setNext mem node (nodeNext mem prev)) node prev) prev =
      nodeNext mem prev := by
    rw [spaced.next_setPrev nodeIn prevIn, spaced.next_setNext nodeIn prevIn nextIn,
      Function.update_of_ne new]
  rw [listInsert, leads]

theorem listInsert_links (spaced : NodesApart all) (nodeIn : node ∈ all) (prevIn : prev ∈ all)
    (nextIn : nodeNext mem prev ∈ all) (new : prev ≠ node) (otherIn : other ∈ all) :
    nodeNext (listInsert mem prev node) other =
        Function.update (Function.update (nodeNext mem) node (nodeNext mem prev)) prev node other ∧
      nodePrev (listInsert mem prev node) other =
        Function.update (Function.update (nodePrev mem) node prev) (nodeNext mem prev) node
          other := by
  rw [listInsert_eq spaced nodeIn prevIn nextIn new]
  constructor
  · rw [spaced.next_setNext prevIn otherIn nodeIn]
    by_cases same : other = prev
    · rw [same, Function.update_self, Function.update_self]
    · rw [Function.update_of_ne same, Function.update_of_ne same,
        spaced.next_setPrev nextIn otherIn, spaced.next_setPrev nodeIn otherIn,
        spaced.next_setNext nodeIn otherIn nextIn]
  · rw [spaced.prev_setNext prevIn otherIn, spaced.prev_setPrev nextIn otherIn nodeIn]
    by_cases same : other = nodeNext mem prev
    · rw [same, Function.update_self, Function.update_self]
    · rw [Function.update_of_ne same, Function.update_of_ne same,
        spaced.prev_setPrev nodeIn otherIn prevIn, Function.update_apply, Function.update_apply,
        spaced.prev_setNext nodeIn otherIn]

theorem listRemove_links (pool : MemPool) (spaced : NodesApart all) (nodeIn : node ∈ all)
    (prevIn : nodePrev mem node ∈ all) (nextIn : nodeNext mem node ∈ all) (otherIn : other ∈ all) :
    nodeNext (listRemove mem pool node).1 other = Function.update
        (Function.update (nodeNext mem) (nodePrev mem node) (nodeNext mem node)) node node other ∧
      nodePrev (listRemove mem pool node).1 other = Function.update
        (Function.update (nodePrev mem) (nodeNext mem node) (nodePrev mem node)) node node
          other := by
  constructor
  · change nodeNext (setPrev (setNext _ node node) node node) other = _
    rw [spaced.next_setPrev nodeIn otherIn, spaced.next_setNext nodeIn otherIn nodeIn,
      Function.update_apply, Function.update_apply, spaced.next_setPrev nextIn otherIn,
      spaced.next_setNext prevIn otherIn nextIn]
  · change nodePrev (setPrev (setNext _ node node) node node) other = _
    rw [spaced.prev_setPrev nodeIn otherIn nodeIn, Function.update_apply, Function.update_apply,
      spaced.prev_setNext nodeIn otherIn, spaced.prev_setPrev nextIn otherIn prevIn,
      Function.update_apply, Function.update_apply, spaced.prev_setNext prevIn otherIn]

/-! ## Bytes of no node -/

/-- The byte belongs to none of the nodes. -/
def OutsideNodes (nodes : List Nat) (a : Nat) : Prop :=
  ∀ node ∈ nodes, a < node ∨ node + LIST_NODE_SIZE ≤ a

variable {a : Nat}

theorem setNext_outside (outside : OutsideNodes all a) (nodeIn : node ∈ all) :
    setNext mem node target a = mem a := by
  have apart := outside node nodeIn
  unfold LIST_NODE_SIZE at apart
  exact putWord_outside (by omega)

theorem setPrev_outside (outside : OutsideNodes all a) (nodeIn : node ∈ all) :
    setPrev mem node target a = mem a := by
  have apart := outside node nodeIn
  unfold LIST_NODE_SIZE at apart
  exact putWord_outside (by omega)

theorem listInsert_outside (spaced : NodesApart all) (nodeIn : node ∈ all) (prevIn : prev ∈ all)
    (nextIn : nodeNext mem prev ∈ all) (new : prev ≠ node) (outside : OutsideNodes all a) :
    listInsert mem prev node a = mem a := by
  rw [listInsert_eq spaced nodeIn prevIn nextIn new, setNext_outside outside prevIn,
    setPrev_outside outside nextIn, setPrev_outside outside nodeIn, setNext_outside outside nodeIn]

theorem listRemove_outside (nodeIn : node ∈ all) (prevIn : nodePrev mem node ∈ all)
    (nextIn : nodeNext mem node ∈ all) (outside : OutsideNodes all a) :
    (listRemove mem pool node).1 a = mem a := by
  change setPrev (setNext _ node node) node node a = _
  rw [setPrev_outside outside nodeIn, setNext_outside outside nodeIn,
    setPrev_outside outside nextIn, setNext_outside outside prevIn]

/-! ## The ring -/

/-- A list of a pool in a memory: a ring from its head, whose nodes it counts. -/
structure PoolRing (mem : Memory) (pool : MemPool) (free : List Nat) : Prop where
  ring : Ring (nodeNext mem) (nodePrev mem) pool.listHead free
  count : pool.count = free.length

/-- A node that is in no ring. -/
def Alone (mem : Memory) (node : Nat) : Prop := nodeNext mem node = node ∧ nodePrev mem node = node

theorem listInsertTail_ring (spaced : NodesApart all) (list : PoolRing mem pool free)
    (freeIn : pool.listHead :: free ⊆ all) (nodeIn : node ∈ all)
    (new : node ∉ pool.listHead :: free) :
    PoolRing (listInsertTail mem pool node).1 (listInsertTail mem pool node).2 (free ++ [node]) ∧
      (∀ other ∈ all, other ∉ pool.listHead :: free → other ≠ node → Alone mem other →
        Alone (listInsertTail mem pool node).1 other) ∧
      ∀ a, OutsideNodes all a → (listInsertTail mem pool node).1 a = mem a := by
  obtain ⟨lastIn, leads⟩ := list.ring.links.before_last
  have headIn : pool.listHead ∈ all := freeIn List.mem_cons_self
  have nextIn : nodeNext mem (nodePrev mem pool.listHead) ∈ all := by
    rw [leads]
    exact headIn
  have notLast : nodePrev mem pool.listHead ≠ node := fun same => new (same ▸ lastIn)
  have links := fun other (otherIn : other ∈ all) =>
    listInsert_links spaced nodeIn (freeIn lastIn) nextIn notLast otherIn
  rw [leads] at links
  have members : ∀ other ∈ pool.listHead :: (free ++ [node]), other ∈ all := by
    intro other member
    rw [← List.cons_append, List.mem_append, List.mem_singleton] at member
    rcases member with inList | rfl
    · exact freeIn inList
    · exact nodeIn
  refine ⟨⟨(list.ring.insertTail new).congr ?_ ?_, ?_⟩, ?_, ?_⟩
  · exact fun other member => (links other (members other member)).1
  · exact fun other member => (links other (members other member)).2
  · change pool.count + 1 = _
    rw [list.count, List.length_append]
    rfl
  · intro other otherIn outside notNode alone
    have notLast : other ≠ nodePrev mem pool.listHead := fun same => outside (same ▸ lastIn)
    have notHead : other ≠ pool.listHead := fun same => outside (same ▸ List.mem_cons_self)
    constructor
    · rw [listInsertTail, (links other otherIn).1, Function.update_of_ne notLast,
        Function.update_of_ne notNode, alone.1]
    · rw [listInsertTail, (links other otherIn).2, Function.update_of_ne notHead,
        Function.update_of_ne notNode, alone.2]
  · exact fun a outside =>
      listInsert_outside spaced nodeIn (freeIn lastIn) nextIn notLast outside

theorem listGet_empty (list : PoolRing mem pool []) : listGet mem pool = (mem, pool, none) := by
  have none_ : pool.count = 0 := list.count
  rw [listGet, if_pos none_]

theorem listGet_first (list : PoolRing mem pool (node :: free)) : listGet mem pool =
    ((listRemove mem pool node).1, (listRemove mem pool node).2, some node) := by
  have first : nodeNext mem pool.listHead = node := list.ring.links.1.1
  have some_ : pool.count ≠ 0 := by
    rw [list.count, List.length_cons]
    omega
  rw [listGet, first, if_neg some_]

theorem listRemove_ring (spaced : NodesApart all) (list : PoolRing mem pool (node :: free))
    (freeIn : pool.listHead :: node :: free ⊆ all) :
    PoolRing (listRemove mem pool node).1 (listRemove mem pool node).2 free ∧
      (∀ other ∈ all, other ∉ pool.listHead :: free → (other ≠ node → Alone mem other) →
        Alone (listRemove mem pool node).1 other) ∧
      ∀ a, OutsideNodes all a → (listRemove mem pool node).1 a = mem a := by
  have headIn : pool.listHead ∈ all := freeIn List.mem_cons_self
  have nodeIn : node ∈ all := freeIn (List.mem_cons_of_mem _ List.mem_cons_self)
  obtain ⟨⟨first, back⟩, rest⟩ := list.ring.links
  have nextIn : nodeNext mem node ∈ pool.listHead :: free := by
    rcases free with _ | ⟨second, free⟩
    · rw [rest.1]
      exact List.mem_cons_self
    · rw [rest.1.1]
      exact List.mem_cons_of_mem _ List.mem_cons_self
  have inAll : ∀ other ∈ pool.listHead :: free, other ∈ all := by
    intro other member
    apply freeIn
    rcases List.mem_cons.mp member with rfl | inFree
    · exact List.mem_cons_self
    · exact List.mem_cons_of_mem _ (List.mem_cons_of_mem _ inFree)
  have nodeOut : node ∉ pool.listHead :: free := by
    have once := list.ring.nodup
    grind
  have links := fun other (otherIn : other ∈ all) => listRemove_links pool spaced nodeIn
    (back ▸ headIn) (inAll _ nextIn) otherIn
  rw [back] at links
  refine ⟨⟨(list.ring.removeFirst).congr ?_ ?_, ?_⟩, ?_, ?_⟩
  · intro other member
    rw [(links other (inAll other member)).1, Function.update_of_ne]
    rintro rfl
    exact nodeOut member
  · intro other member
    rw [(links other (inAll other member)).2, Function.update_of_ne]
    rintro rfl
    exact nodeOut member
  · change pool.count - 1 = _
    rw [list.count, List.length_cons]
    omega
  · intro other otherIn outside alone
    by_cases isNode : other = node
    · subst isNode
      exact ⟨by rw [(links other otherIn).1, Function.update_self],
        by rw [(links other otherIn).2, Function.update_self]⟩
    · have notHead : other ≠ pool.listHead := fun same => outside (same ▸ List.mem_cons_self)
      have notNext : other ≠ nodeNext mem node := fun same => outside (same ▸ nextIn)
      refine ⟨?_, ?_⟩
      · rw [(links other otherIn).1, Function.update_of_ne isNode, Function.update_of_ne notHead,
          (alone isNode).1]
      · rw [(links other otherIn).2, Function.update_of_ne isNode, Function.update_of_ne notNext,
          (alone isNode).2]
  · exact fun a outside => listRemove_outside nodeIn (back ▸ headIn) (inAll _ nextIn) outside

end PosFirmware.IpStack
