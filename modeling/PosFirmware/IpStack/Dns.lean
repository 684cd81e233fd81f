import Mathlib.Logic.Function.Basic
import PosFirmware.Foundation.Memory
import PosFirmware.IpStack.Inet

/-! # The names of the DNS client

`dns.c` reads a name of a reply into a buffer (`dns_pkt_to_name`), and writes the name of a
query with a byte of length before each label. A packet is memory from `skb->data` on.
-/

namespace PosFirmware.IpStack

open PosFirmware.Foundation

def DNS_NAME_SIZE : Nat := 255

/-- The character `.`. -/
def dot : Byte := 0x2E

/-! ## `dns_pkt_to_name` -/

/-- The locals of `dns_pkt_to_name`: `buf` as an offset in the packet, `*buf_size`, the
buffer with `name` as an offset in it, `name_size` and `count`, and the offsets that were
read from the packet and written in the buffer. -/
structure NameScan where
  buf : Nat
  bufSize : Int
  buffer : Nat → Byte
  name : Nat
  nameSize : Int
  count : Nat
  reads : List Nat
  writes : List Nat

/-- A byte of the packet was read. -/
def NameScan.look (s : NameScan) (k : Nat) : NameScan := { s with reads := k :: s.reads }

/-- `*name = value`. -/
def NameScan.store (s : NameScan) (value : Byte) : NameScan :=
  { s with buffer := Function.update s.buffer s.name value, writes := s.name :: s.writes }

/-- `if(count > 0) { *name++ = '.'; name_size--; }`. -/
def NameScan.separate (s : NameScan) : NameScan :=
  if s.count > 0 then
    { s.store dot with name := s.name + 1, nameSize := s.nameSize - 1 }
  else s

/-- The `memcpy` of a label, with the steps of `name`, `name_size` and `count`. -/
def NameScan.copyLabel (mem : Nat → Byte) (src segSize : Nat) (s : NameScan) : NameScan :=
  { s with
    buffer := blit s.buffer s.name (slice mem src segSize), name := s.name + segSize,
    nameSize := s.nameSize - segSize, count := s.count + 1,
    reads := (List.range' src segSize) ++ s.reads,
    writes := (List.range' s.name segSize) ++ s.writes }

/-- Where a loop of `dns_pkt_to_name` leads: to `return NULL`, to `return buf`, or behind
the loop. -/
inductive NameResult where
  | null (s : NameScan)
  | out (s : NameScan)
  | past (s : NameScan)

/-- `while(name_size > 0)`, the loop over the name that a pointer points to. Every round
takes from `name_size`. -/
def followPointer (mem : Nat → Byte) : (fuel : Nat) → (offset : Nat) → NameScan → NameResult
  | 0, _, s => .past s
  | fuel + 1, offset, s =>
      if s.nameSize > 0 then
        let segSize := (mem offset).toNat
        let s := s.look offset
        if segSize = 0 then .out s
        else
          let s := s.separate
          if segSize > s.nameSize then .null s
          else
            followPointer mem fuel (offset + (segSize + 1)) (s.copyLabel mem (offset + 1) segSize)
      else .past s

/-- `while(*buf_size > 0)`. Every round takes from `*buf_size`. -/
def nameLoop (mem : Nat → Byte) : (fuel : Nat) → (compressFound : Bool) → NameScan → NameResult
  | 0, _, s => .out s
  | fuel + 1, compressFound, s =>
      if s.bufSize > 0 then
        let here := s.buf
        let s := s.look here
        if mem here &&& 0xC0 = 0xC0 then
          let offset := (mem (here + 1)).toNat
          let s := { s.look (here + 1) with bufSize := s.bufSize - 2, buf := here + 2 }
          match followPointer mem s.nameSize.toNat offset s with
          | .past s => nameLoop mem fuel true s
          | left => left
        else
          let segSize := (mem here).toNat
          if segSize = 0 then
            .out { s.store 0 with
              bufSize := s.bufSize - 1, buf := if compressFound then here else here + 1 }
          else
            let s := s.separate
            if segSize + 1 > s.bufSize ∨ segSize > s.nameSize then .null s
            else
              nameLoop mem fuel compressFound
                { s.copyLabel mem (here + 1) segSize with
                  bufSize := s.bufSize - (segSize + 1), buf := here + (segSize + 1) }
      else .out s

/-- `dns_pkt_to_name`. -/
def dnsPktToName (mem : Nat → Byte) (buf : Nat) (bufSize : Int) (buffer : Nat → Byte)
    (nameSize : Nat) : NameResult :=
  nameLoop mem bufSize.toNat false
    (NameScan.store ⟨buf, bufSize, buffer, 0, nameSize, 0, [], []⟩ 0)

/-! ## The name of a query -/

/-- The buffer of a query, and the pointers `cp2` and `cp3`. -/
structure QueryScan where
  buf : Nat → Byte
  cp2 : Nat
  cp3 : Nat

/-- One round of the loop over the characters of the name and its closing zero. -/
def queryChar (s : QueryScan) (cc : Byte) : QueryScan :=
  let s :=
    if cc = dot ∨ cc = 0 then
      { s with buf := Function.update s.buf s.cp3 (BitVec.ofNat 8 (s.cp2 - s.cp3 - 1)),
               cp3 := s.cp2 }
    else s
  { s with buf := Function.update s.buf s.cp2 cc, cp2 := s.cp2 + 1 }

/-- The name written from a place on. -/
def encodeQuery (buf : Nat → Byte) (place : Nat) (fullname : List Byte) : QueryScan :=
  (fullname ++ [0]).foldl queryChar ⟨buf, place + 1, place⟩

end PosFirmware.IpStack
