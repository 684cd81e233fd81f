import PosFirmware.Foundation.Chain
import PosFirmware.Foundation.Words
import PosFirmware.Foundation.Tiling

/-! # The system heap

`osmem.c` in a memory of bytes. A free block starts with the address of the next and its
length, and an allocated one with its size and the pool; an address of zero is `NULL`. Sums of
addresses and sizes are those of a `uint`.
-/

namespace PosFirmware.Multitask

open PosFirmware.Foundation

abbrev Memory := Nat → BitVec 8

def SYS_MEMORY_SIZE : Nat := 1024 * 100

/-- `sizeof(FREE_BLOCK)`, and `sizeof(ALLOCATED_BLOCK)`. -/
def BLOCK_HEADER : Nat := 8

def uint (n : Nat) : Nat := n % 4294967296

/-- `roundmb`. -/
def roundmb (x : Nat) : Nat := uint (x + 3) / 4 * 4

/-! The fields of a `FREE_BLOCK`, and of an `ALLOCATED_BLOCK` in the same place. -/

def mnext (mem : Memory) (block : Nat) : Nat := loadWord mem block
def mlen (mem : Memory) (block : Nat) : Nat := loadSecond mem block
def setMnext (mem : Memory) (block value : Nat) : Memory := putWord mem block value
def setMlen (mem : Memory) (block value : Nat) : Memory := putSecond mem block value
def blockSize (mem : Memory) (block : Nat) : Nat := loadWord mem block
def blockPool (mem : Memory) (block : Nat) : Nat := loadSecond mem block

/-- `MemMgrInit`. -/
def memMgrInit (mem : Memory) (base len : Nat) : Memory :=
  let len := len / 4 * 4
  let first := base + BLOCK_HEADER
  let mem := setMlen (setMnext mem base first) base 0
  setMlen (setMnext mem first 0) first (len - BLOCK_HEADER)

/-- The loop of `BSP_Malloc`, within a number of turns: the first block that is long enough,
and the one before it. -/
def mallocWalk (mem : Memory) (nbytes : Nat) : Nat → Nat → Nat → Option (Option (Nat × Nat))
  | 0, _, _ => none
  | turns + 1, q, p =>
      if p = 0 then some none
      else if mlen mem p = nbytes ∨ nbytes < mlen mem p then some (some (q, p))
      else mallocWalk mem nbytes turns p (mnext mem p)

/-- A block taken out of the list, or the front of it: what is left over is a new block. -/
def mallocTake (mem : Memory) (nbytes q p : Nat) : Memory :=
  if mlen mem p = nbytes then setMnext mem q (mnext mem p)
  else
    let leftover := uint (p + nbytes)
    let mem := setMnext mem q leftover
    let mem := setMnext mem leftover (mnext mem p)
    setMlen mem leftover (uint (mlen mem p + 4294967296 - nbytes))

/-- `BSP_Malloc` on a pool. -/
def bspMalloc (turns : Nat) (mem : Memory) (pPool nbytes : Nat) : Option (Memory × Nat) :=
  let p := mnext mem pPool
  if nbytes = 0 then some (mem, 0)
  else if p = 0 then some (mem, 0)
  else
    let nbytes := uint (roundmb nbytes + BLOCK_HEADER)
    match mallocWalk mem nbytes turns pPool p with
    | none => none
    | some none => some (mem, 0)
    | some (some (q, p)) =>
        let mem := mallocTake mem nbytes q p
        some (setMlen (setMnext mem p nbytes) p pPool, uint (p + BLOCK_HEADER))

/-- The loop of `BSP_Free`, within a number of turns: the first block that is not before the
freed one, and the one before it. -/
def freeWalk (mem : Memory) (block : Nat) : Nat → Nat → Nat → Option (Nat × Nat)
  | 0, _, _ => none
  | turns + 1, q, p =>
      if p = 0 ∨ block ≤ p then some (q, p) else freeWalk mem block turns p (mnext mem p)

/-- A block joined with the next one, if that follows. -/
def freeJoin (mem : Memory) (q p : Nat) : Memory :=
  if uint (mlen mem q + q) = p then
    let mem := setMlen mem q (uint (mlen mem q + mlen mem p))
    setMnext mem q (mnext mem p)
  else mem

/-- A freed block put between two of the list, joined with each that it touches. -/
def freePut (mem : Memory) (pPool block size q p : Nat) : Memory :=
  let top := uint (mlen mem q + q)
  if (block < top ∧ q ≠ pPool) ∨ (p ≠ 0 ∧ p < uint (size + block)) then mem
  else if q ≠ pPool ∧ top = block then
    freeJoin (setMlen mem q (uint (mlen mem q + size))) q p
  else
    let mem := setMlen mem block size
    let mem := setMnext mem block p
    freeJoin (setMnext mem q block) block p

/-- `BSP_Free`. -/
def bspFree (turns : Nat) (mem : Memory) (pData : Nat) : Option Memory :=
  let block := pData - BLOCK_HEADER
  let size := blockSize mem block
  let pPool := blockPool mem block
  (freeWalk mem block turns pPool (mnext mem pPool)).map fun found =>
    freePut mem pPool block size found.1 found.2

/-! ## Runs -/

/-- Where `SysMemory` lies. -/
structure HeapLayout where
  base : Nat
  inMemory : base + SYS_MEMORY_SIZE < 4294967296

instance : Inhabited HeapLayout := ⟨0, by decide⟩

/-- The memory, and the blocks that were allocated and not freed, each with the size that was
asked for. -/
structure HeapUser where
  mem : Memory
  held : List (Nat × Nat)

/-- A call: `BSP_Malloc` of any size, or `BSP_Free` of one of the held blocks. -/
inductive HeapEvent where
  | malloc (nbytes : BitVec 32)
  | free (i : Nat)

/-- One call, whose loop takes at most a number of turns. -/
def heapCall (layout : HeapLayout) (turns : Nat) (s : HeapUser) : HeapEvent → Option HeapUser
  | .malloc nbytes => (bspMalloc turns s.mem layout.base nbytes.toNat).map fun got =>
      ⟨got.1, if got.2 = 0 then s.held else (got.2, nbytes.toNat) :: s.held⟩
  | .free i =>
      match s.held[i]? with
      | none => some s
      | some (pData, _) => (bspFree turns s.mem pData).map fun mem => ⟨mem, s.held.eraseIdx i⟩

/-- Calls that all return. -/
inductive HeapRuns (layout : HeapLayout) : HeapUser → List HeapEvent → HeapUser → Prop
  | done (s : HeapUser) : HeapRuns layout s [] s
  | call {s next last : HeapUser} {event : HeapEvent} {rest : List HeapEvent} {turns : Nat}
      (returns : heapCall layout turns s event = some next)
      (later : HeapRuns layout next rest last) : HeapRuns layout s (event :: rest) last

/-- `BSP_MEM_Init`. -/
def bspMemInit (layout : HeapLayout) (mem : Memory) : HeapUser :=
  ⟨memMgrInit mem layout.base SYS_MEMORY_SIZE, []⟩

/-! ## The headers of the heap

The headers of blocks that do not overlap are two numbers each (`HeapFields`), and a heap is a
list of free blocks that are linked from the head of the pool, and a list of allocated ones
(`HeapLinks`). A block is taken out of the free list, split, put into it and joined by changes of
these numbers.
-/

/-- The two words of each header: the link of a free block and its length, or the size of an
allocated one and its pool. -/
structure HeapFields where
  next : Nat → Nat
  len : Nat → Nat

namespace HeapFields

def setNext (f : HeapFields) (block value : Nat) : HeapFields :=
  { f with next := Function.update f.next block value }

def setLen (f : HeapFields) (block value : Nat) : HeapFields :=
  { f with len := Function.update f.len block value }

@[simp] theorem setNext_next (f : HeapFields) (block value : Nat) :
    (f.setNext block value).next = Function.update f.next block value := rfl

@[simp] theorem setNext_len (f : HeapFields) (block value : Nat) :
    (f.setNext block value).len = f.len := rfl

@[simp] theorem setLen_next (f : HeapFields) (block value : Nat) :
    (f.setLen block value).next = f.next := rfl

@[simp] theorem setLen_len (f : HeapFields) (block value : Nat) :
    (f.setLen block value).len = Function.update f.len block value := rfl

/-- The link of a block in the free list. -/
def link (f : HeapFields) (block : Nat) : Option Nat :=
  if f.next block = 0 then none else some (f.next block)

end HeapFields

/-- The headers in a memory. -/
def fields (mem : Memory) : HeapFields := ⟨mnext mem, mlen mem⟩

/-- The headers of some blocks are as given. -/
def Agrees (mem : Memory) (f : HeapFields) (records : List Nat) : Prop :=
  ∀ record ∈ records, mnext mem record = f.next record ∧ mlen mem record = f.len record

variable {base q p n : Nat} {mem : Memory} {f f' : HeapFields} {records : List Nat}
  {free used front back : List Block} {block : Block}

namespace Agrees

theorem setMnext (agrees : Agrees mem f records) (spaced : Spaced records) (qIn : q ∈ records)
    (fits : n < 4294967296) : Agrees (setMnext mem q n) (f.setNext q n) records := by
  intro other member
  refine ⟨(spaced.first_putWord qIn member fits).trans ?_,
    (spaced.second_putWord qIn member).trans (agrees other member).2⟩
  by_cases same : other = q
  · rw [same, HeapFields.setNext_next, Function.update_self, Function.update_self]
  · rw [HeapFields.setNext_next, Function.update_of_ne same, Function.update_of_ne same]
    exact (agrees other member).1

theorem setMlen (agrees : Agrees mem f records) (spaced : Spaced records) (qIn : q ∈ records)
    (fits : n < 4294967296) : Agrees (setMlen mem q n) (f.setLen q n) records := by
  intro other member
  refine ⟨(spaced.first_putSecond qIn member).trans (agrees other member).1,
    (spaced.second_putSecond qIn member fits).trans ?_⟩
  by_cases same : other = q
  · rw [same, HeapFields.setLen_len, Function.update_self, Function.update_self]
  · rw [HeapFields.setLen_len, Function.update_of_ne same, Function.update_of_ne same]
    exact (agrees other member).2

end Agrees

theorem HeapFields.link_eq_some : f.link q = some p ↔ f.next q = p ∧ p ≠ 0 := by
  unfold link
  constructor
  · intro leads
    rw [Option.ite_none_left_eq_some] at leads
    obtain ⟨some_, same⟩ := leads
    obtain rfl := Option.some.inj same
    exact ⟨rfl, some_⟩
  · rintro ⟨rfl, some_⟩
    exact if_neg some_

theorem HeapFields.link_setNext : (f.setNext q n).link =
    Function.update f.link q (if n = 0 then none else some n) := by
  funext other
  by_cases same : other = q
  · subst same
    rw [link, setNext_next, Function.update_self, Function.update_self]
  · rw [link, setNext_next, Function.update_of_ne same, Function.update_of_ne same]
    rfl

/-! ## Heaps -/

/-- The addresses of blocks. -/
def addrs (blocks : List Block) : List Nat := blocks.map Block.addr

@[simp] theorem addrs_append (one other : List Block) :
    addrs (one ++ other) = addrs one ++ addrs other := List.map_append

@[simp] theorem addrs_cons (block : Block) (blocks : List Block) :
    addrs (block :: blocks) = block.addr :: addrs blocks := rfl

theorem addr_mem {blocks : List Block} (member : block ∈ blocks) : block.addr ∈ addrs blocks :=
  List.mem_map_of_mem member

/-- Each allocated block has its size and the pool. -/
def Sized (base : Nat) (f : HeapFields) (used : List Block) : Prop :=
  ∀ block ∈ used, f.next block.addr = block.len ∧ f.len block.addr = base

/-- The free blocks are linked from the head of the pool, and each block has its length. -/
structure HeapLinks (base : Nat) (f : HeapFields) (free used : List Block) : Prop where
  chain : Chain f.link (some base) (base :: addrs free)
  lengths : ∀ block ∈ free, f.len block.addr = block.len
  sizes : Sized base f used

namespace Sized

theorem setNext (sized : Sized base f used) (apart : q ∉ addrs used) :
    Sized base (f.setNext q n) used := by
  intro block member
  have different : block.addr ≠ q := by
    rintro rfl
    exact apart (addr_mem member)
  rw [HeapFields.setNext_next, Function.update_of_ne different]
  exact sized block member

theorem setLen (sized : Sized base f used) (apart : q ∉ addrs used) :
    Sized base (f.setLen q n) used := by
  intro block member
  have different : block.addr ≠ q := by
    rintro rfl
    exact apart (addr_mem member)
  rw [HeapFields.setLen_len, Function.update_of_ne different]
  exact sized block member

end Sized

namespace HeapLinks

theorem congr (links : HeapLinks base f free used)
    (same : ∀ header ∈ base :: (addrs free ++ addrs used),
      f'.next header = f.next header ∧ f'.len header = f.len header) :
    HeapLinks base f' free used := by
  refine ⟨links.chain.congr fun header member => ?_, fun block member => ?_, fun block member => ?_⟩
  · have member : header ∈ base :: (addrs free ++ addrs used) :=
      List.mem_append_left (addrs used) member
    rw [HeapFields.link, HeapFields.link, (same header member).1]
  · rw [(same _ (List.mem_cons_of_mem _ (List.mem_append_left _ (addr_mem member)))).2,
      links.lengths block member]
  · have inUsed := List.mem_cons_of_mem base (List.mem_append_right (addrs free) (addr_mem member))
    rw [(same _ inUsed).1, (same _ inUsed).2]
    exact links.sizes block member

theorem handOut (links : HeapLinks base f free used) (block : Block)
    (absent : block.addr ∉ base :: (addrs free ++ addrs used)) :
    HeapLinks base ((f.setNext block.addr block.len).setLen block.addr base) free
      (block :: used) := by
  have kept : HeapLinks base ((f.setNext block.addr block.len).setLen block.addr base) free used := by
    refine links.congr fun header member => ?_
    have different : header ≠ block.addr := fun same => absent (same ▸ member)
    exact ⟨Function.update_of_ne different _ _, Function.update_of_ne different _ _⟩
  refine ⟨kept.chain, kept.lengths, fun other member => ?_⟩
  rcases List.mem_cons.mp member with rfl | member
  · exact ⟨Function.update_self .., Function.update_self ..⟩
  · exact kept.sizes other member

theorem mono (links : HeapLinks base f free used) {fewer : List Block} (less : fewer ⊆ used) :
    HeapLinks base f free fewer :=
  ⟨links.chain, links.lengths, fun block member => links.sizes block (less member)⟩

theorem parts {before : List Nat} (prev : base :: addrs front = before ++ [q]) :
    base :: addrs (front ++ back) = before ++ q :: addrs back := by
  rw [addrs_append, ← List.cons_append, prev, List.append_assoc]
  rfl

theorem takeOut (links : HeapLinks base f (front ++ block :: back) used) (apart : q ∉ addrs used)
    {before : List Nat} (prev : base :: addrs front = before ++ [q]) :
    HeapLinks base (f.setNext q (f.next block.addr)) (front ++ back) used := by
  have chain := links.chain
  rw [parts prev, addrs_cons] at chain
  refine ⟨?_, fun other member => links.lengths other ?_, links.sizes.setNext apart⟩
  · rw [parts prev, HeapFields.link_setNext]
    exact Path.removeAfter chain chain.nodup
  · rcases List.mem_append.mp member with early | late
    · exact List.mem_append_left _ early
    · exact List.mem_append_right _ (List.mem_cons_of_mem _ late)

theorem putIn (links : HeapLinks base f (front ++ back) used) (block : Block)
    (absent : block.addr ∉ base :: (addrs (front ++ back) ++ addrs used)) (apart : q ∉ addrs used)
    (some_ : block.addr ≠ 0) {before : List Nat} (prev : base :: addrs front = before ++ [q]) :
    HeapLinks base (((f.setLen block.addr block.len).setNext block.addr (f.next q)).setNext q
      block.addr) (front ++ block :: back) used := by
  have chain := links.chain
  rw [parts prev] at chain
  have outUsed : block.addr ∉ addrs used := fun member =>
    absent (List.mem_cons_of_mem _ (List.mem_append_right _ member))
  have outFree : block.addr ∉ base :: addrs (front ++ back) := fun member =>
    absent (List.mem_append_left (addrs used) member)
  refine ⟨?_, fun other member => ?_, ?_⟩
  · rw [parts prev, HeapFields.link_setNext, HeapFields.link_setNext, if_neg some_]
    rw [parts prev] at outFree
    exact Path.insertAfter chain chain.nodup outFree
  · rw [List.mem_append, List.mem_cons, or_left_comm, ← List.mem_append] at member
    rcases member with rfl | member
    · exact Function.update_self ..
    · refine (Function.update_of_ne ?_ ..).trans (links.lengths other member)
      intro same
      exact outFree (same ▸ List.mem_cons_of_mem _ (addr_mem member))
  · exact ((links.sizes.setLen outUsed).setNext outUsed).setNext apart

theorem grow (links : HeapLinks base f (front ++ block :: back) used)
    (apart : block.addr ∉ addrs used) :
    HeapLinks base (f.setLen block.addr n) (front ++ ⟨block.addr, n⟩ :: back) used := by
  have chain := links.chain
  have once : (addrs (front ++ block :: back)).Nodup := (List.nodup_cons.mp chain.nodup).2
  rw [addrs_append, addrs_cons] at once chain
  refine ⟨?_, fun other member => ?_, links.sizes.setLen apart⟩
  · rw [addrs_append]
    exact chain
  · obtain ⟨-, later, disjoint⟩ := List.nodup_append.mp once
    rcases List.mem_append.mp member with early | late
    · rw [HeapFields.setLen_len, Function.update_of_ne
        (disjoint _ (addr_mem early) _ List.mem_cons_self)]
      exact links.lengths other (List.mem_append_left _ early)
    · rcases List.mem_cons.mp late with rfl | late
      · exact Function.update_self ..
      · have different : other.addr ≠ block.addr := fun same =>
          (List.nodup_cons.mp later).1 (same ▸ addr_mem late)
        rw [HeapFields.setLen_len, Function.update_of_ne different]
        exact links.lengths other (List.mem_append_right _ (List.mem_cons_of_mem _ late))

end HeapLinks

end PosFirmware.Multitask
