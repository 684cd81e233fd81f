import Mathlib.Data.List.Pairwise
import PosFirmware.Foundation.Run
import PosFirmware.IpStack.MemPool
import PosFirmware.IpStack.TcpPcb

/-! # Packet buffers

`skb_new` and `skb_free` of `skbuff.c` over the pools of small and of large buffers, and runs
of a stack that takes buffers, writes into those it has, and gives them back in any order.
-/

namespace PosFirmware.IpStack

open PosFirmware.Foundation

def MAX_512_COUNT : Nat := (TCP_RCV_QUEUELEN + TCP_SND_QUEUELEN + 1) * MAX_TCP_PCB_COUNT
def MAX_1518_COUNT : Nat := (TCP_RCV_QUEUELEN + TCP_SND_QUEUELEN + 4) * MAX_TCP_PCB_COUNT

/-- `sizeof(struct sk_buff)`, and the offsets of the fields that `skb_new` sets. -/
def SK_BUFF_SIZE : Nat := 80
def SKB_TRUESIZE : Nat := 56
def SKB_HEAD : Nat := 64
def SKB_DATA : Nat := 68
def SKB_TAIL : Nat := 72
def SKB_END : Nat := 76

/-- The pools of `skb_mem_pools`. -/
inductive SkbPool where
  | skb512
  | skb1518
  deriving DecidableEq

namespace SkbPool

def dataSize : SkbPool → Nat
  | skb512 => 512
  | skb1518 => 1518

def capacity : SkbPool → Nat
  | skb512 => MAX_512_COUNT
  | skb1518 => MAX_1518_COUNT

/-- The size of an element. -/
def size (name : SkbPool) : Nat := SK_BUFF_SIZE + name.dataSize

/-- `SKB_BUF_SIZE` and four bytes for the alignment. -/
def bufSize (name : SkbPool) : Nat := memNodeSize name.size * name.capacity + 4

end SkbPool

/-- Where the linker puts the pools and their static buffers: in memory, and apart. -/
structure SkbLayout where
  pool : SkbPool → Nat
  buf : SkbPool → Nat
  inMemory : ∀ name, pool name + MEM_POOL_SIZE ≤ 4294967296 ∧ buf name + name.bufSize ≤ 4294967296
  poolApart : pool .skb512 + MEM_POOL_SIZE ≤ pool .skb1518 ∨
    pool .skb1518 + MEM_POOL_SIZE ≤ pool .skb512
  bufApart : buf .skb512 + SkbPool.skb512.bufSize ≤ buf .skb1518 ∨
    buf .skb1518 + SkbPool.skb1518.bufSize ≤ buf .skb512
  eachApart : ∀ one other, pool one + MEM_POOL_SIZE ≤ buf other ∨
    buf other + other.bufSize ≤ pool one

instance : Inhabited SkbLayout where
  default :=
    { pool := fun | .skb512 => 0 | .skb1518 => 1000
      buf := fun | .skb512 => 10000 | .skb1518 => 1000000
      inMemory := by rintro (_ | _) <;> decide
      poolApart := by decide
      bufApart := by decide
      eachApart := by rintro (_ | _) (_ | _) <;> decide }

/-- The memory and the pools. -/
structure SkbState where
  mem : Memory
  pools : SkbPool → MemPool

def skbMemPools : List SkbPool := [.skb512, .skb1518]

/-- `SKB_DATA_SPACE`. -/
def skbDataSpace (pool : MemPool) : Nat := pool.size - SK_BUFF_SIZE

/-- A buffer with the fields as `skb_new` sets them. -/
def skbSetUp (mem : Memory) (skb size : Nat) : Memory :=
  let mem := fillBytes mem skb size 0
  let head := skb + SK_BUFF_SIZE
  let mem := putWord mem (skb + SKB_HEAD) head
  let mem := putWord mem (skb + SKB_END) (head + size)
  let mem := putWord (putWord mem (skb + SKB_TAIL) head) (skb + SKB_DATA) head
  putWord mem (skb + SKB_TRUESIZE) size

/-- The loop of `skb_new`. -/
def skbNewFrom (size : Int) : List SkbPool → SkbState → SkbState × Option Nat
  | [], s => (s, none)
  | name :: rest, s =>
      let dataSpace := skbDataSpace (s.pools name)
      if (dataSpace : Int) < size then skbNewFrom size rest s
      else
        match memMalloc s.mem (s.pools name) with
        | (mem, pool, none) => skbNewFrom size rest ⟨mem, Function.update s.pools name pool⟩
        | (mem, pool, some skb) =>
            (⟨skbSetUp mem skb dataSpace, Function.update s.pools name pool⟩, some skb)

/-- `skb_new`. -/
def skbNew (size : Int) (s : SkbState) : SkbState × Option Nat := skbNewFrom size skbMemPools s

/-- The pool that `skb_free` finds by the size of a buffer: the last one where there is none. -/
def skbPoolOf (s : SkbState) (skb : Nat) : SkbPool :=
  (skbMemPools.find? fun name =>
    skbDataSpace (s.pools name) = loadWord s.mem (skb + SKB_TRUESIZE)).getD .skb1518

/-- `skb_free`. -/
def skbFree (s : SkbState) : Option Nat → SkbState
  | none => s
  | some skb =>
      let name := skbPoolOf s skb
      let put := memFree s.mem (s.pools name) skb
      ⟨put.1, Function.update s.pools name put.2⟩

/-- `skb_init`. -/
def skbInit (layout : SkbLayout) (mem : Memory) : SkbState :=
  let init (mem : Memory) (name : SkbPool) :=
    memPoolInit mem (layout.pool name) name.size name.capacity (layout.buf name)
  let small := init mem .skb512
  let large := init small.1 .skb1518
  ⟨large.1, fun | .skb512 => small.2 | .skb1518 => large.2⟩

/-! ## Runs -/

/-- A stack with the buffers that it was handed and has not freed. -/
structure SkbUser where
  skbs : SkbState
  held : List Nat

/-- What a stack does: it asks for a buffer, writes a byte of one that it has (not the size,
and nothing beyond the buffer), or frees one; a place without a buffer is `NULL`. -/
inductive SkbEvent where
  | new (size : Int)
  | write (i offset : Nat) (value : Byte)
  | free (i : Nat)

/-- A byte of a buffer is written. -/
def skbWrite (mem : Memory) (skb offset : Nat) (value : Byte) : Memory :=
  if offset < SK_BUFF_SIZE + loadWord mem (skb + SKB_TRUESIZE) ∧
      (offset < SKB_TRUESIZE ∨ SKB_TRUESIZE + 4 ≤ offset) then
    Function.update mem (skb + offset) value
  else mem

/-- One event. -/
def skbEvent (s : SkbUser) : SkbEvent → SkbUser
  | .new size =>
      let got := skbNew size s.skbs
      ⟨got.1, got.2.toList ++ s.held⟩
  | .write i offset value =>
      match s.held[i]? with
      | none => s
      | some skb => { s with skbs.mem := skbWrite s.skbs.mem skb offset value }
  | .free i => ⟨skbFree s.skbs s.held[i]?, s.held.eraseIdx i⟩

end PosFirmware.IpStack
