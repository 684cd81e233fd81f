import Mathlib.Algebra.Group.Nat.Defs
import Mathlib.Data.List.GetD
import PosFirmware.Foundation.Run

/-! # A queue between two tasks

`T_Queue` of `queue1.c` between a producer and a consumer, of which each makes one read or write
of `head`, `tail` or a byte of `buf` at a time. What was stored and taken, and what the calls
returned, is noted.
-/

namespace PosFirmware.Bluetooth.Concurrent

open PosFirmware.Foundation

abbrev Byte := BitVec 8

/-- The sum of two `int`. -/
def intAdd (a b : Int) : Int := Int.bmod (a + b) (2 ^ 32)

/-- `((to + size) - from) % size`. -/
def distance (size low high : Nat) : Int := (intAdd (intAdd high size) (-low)).tmod size

/-- Where a producer is: what it reads or writes next. -/
inductive Producer
  | idle
  -- `QuePuts`: `head == tail`, then `tail` and `head` of the length
  | putsHead (data : List Byte)
  | putsTail (data : List Byte) (head : Nat)
  | putsTailAgain (data : List Byte)
  | putsHeadAgain (data : List Byte) (tail : Nat)
  -- `QueIsFull` of `QuePutc`
  | putcHead (ch : Byte)
  | putcTail (ch : Byte) (head : Nat)
  -- `buf[head] = ch; head = (head+1) % size`, with what is returned at last, how many bytes were
  -- stored and which ones are left
  | place (iLen : Int) (moved : Nat) (ch : Byte) (rest : List Byte)
  | store (iLen : Int) (moved : Nat) (ch : Byte) (rest : List Byte) (head : Nat)
  | next (iLen : Int) (moved : Nat) (ch : Byte) (rest : List Byte)
  | publish (iLen : Int) (moved : Nat) (ch : Byte) (rest : List Byte) (head : Nat)

/-- Where a consumer is. -/
inductive Consumer
  | idle
  -- `QueGets`: the length
  | getsHead (size : Nat)
  | getsTail (size head : Nat)
  -- `QueIsEmpty` of `QueGetc`
  | getcHead
  | getcTail (head : Nat)
  -- `ch = buf[tail]; tail = (tail+1) % size`, with how many bytes were taken and how many are left
  -- behind this one
  | place (iLen : Int) (moved left : Nat)
  | load (iLen : Int) (moved left tail : Nat)
  | next (iLen : Int) (moved left : Nat) (ch : Byte)
  | publish (iLen : Int) (moved left : Nat) (ch : Byte) (tail : Nat)
  -- `QueGetsWithoutDelete`: `tail`, `head`, and the bytes
  | peekTail (size : Nat)
  | peekHead (size tail : Nat)
  | peek (iLen : Int) (seen : List Byte) (left tail : Nat)

/-- What a call to peek returned and stored, and how many bytes had been taken before. -/
structure Peeked where
  iLen : Int
  seen : List Byte
  before : Nat

/-- The queue, the two tasks, what was stored and taken, and what the calls returned with how many
bytes they moved. -/
structure State where
  head : Nat
  tail : Nat
  buf : Nat → Byte
  producer : Producer
  consumer : Consumer
  produced : List Byte
  consumed : List Byte
  returned : List (Int × Nat)
  peeked : List Peeked

/-- `QueInit`. -/
def queInit (buf : Nat → Byte) : State := ⟨0, 0, buf, .idle, .idle, [], [], [], []⟩

/-! ## The producer -/

/-- A call of the producer returns. -/
def State.putsReturn (s : State) (iLen : Int) (moved : Nat) : State :=
  { s with producer := .idle, returned := s.returned ++ [(iLen, moved)] }

/-- The loop over the bytes that are left. -/
def State.putsLoop (s : State) (iLen : Int) (moved : Nat) : List Byte → State
  | [] => s.putsReturn iLen moved
  | ch :: rest => { s with producer := .place iLen moved ch rest }

/-- `if (iLen >= len) iLen = len`, and the loop. -/
def State.putsLen (s : State) (data : List Byte) (iLen : Int) : State :=
  if (data.length : Int) ≤ iLen then s.putsLoop data.length 0 data
  else s.putsLoop iLen 0 (data.take iLen.toNat)

/-- The next read or write of the producer. -/
def producerStep (size : Nat) (s : State) : State :=
  match s.producer with
  | .idle => s
  | .putsHead data => { s with producer := .putsTail data s.head }
  | .putsTail data head =>
      if head = s.tail then s.putsLen data (size - 1) else { s with producer := .putsTailAgain data }
  | .putsTailAgain data => { s with producer := .putsHeadAgain data s.tail }
  | .putsHeadAgain data tail => s.putsLen data (distance size s.head tail - 1)
  | .putcHead ch => { s with producer := .putcTail ch s.head }
  | .putcTail ch head =>
      if (head + 1) % size = s.tail then s.putsReturn 0 0 else s.putsLoop 1 0 [ch]
  | .place iLen moved ch rest => { s with producer := .store iLen moved ch rest s.head }
  | .store iLen moved ch rest head =>
      { s with
        buf := fun i => if i = head then ch else s.buf i
        producer := .next iLen moved ch rest }
  | .next iLen moved ch rest => { s with producer := .publish iLen moved ch rest s.head }
  | .publish iLen moved ch rest head =>
      { s with head := (head + 1) % size, produced := s.produced ++ [ch] }.putsLoop iLen (moved + 1)
        rest

/-! ## The consumer -/

def State.getsReturn (s : State) (iLen : Int) (moved : Nat) : State :=
  { s with consumer := .idle, returned := s.returned ++ [(iLen, moved)] }

def State.getsLoop (s : State) (iLen : Int) (moved : Nat) : Nat → State
  | 0 => s.getsReturn iLen moved
  | left + 1 => { s with consumer := .place iLen moved left }

/-- `if (iLen >= size) iLen = size`. -/
def atMost (size : Nat) (iLen : Int) : Int := if (size : Int) ≤ iLen then size else iLen

/-- The loop of `QueGetsWithoutDelete`. -/
def State.peekLoop (s : State) (iLen : Int) (seen : List Byte) (tail : Nat) : Nat → State
  | 0 => { s with consumer := .idle, peeked := s.peeked ++ [⟨iLen, seen, s.consumed.length⟩] }
  | left + 1 => { s with consumer := .peek iLen seen left tail }

/-- The next read or write of the consumer. -/
def consumerStep (queSize : Nat) (s : State) : State :=
  match s.consumer with
  | .idle => s
  | .getsHead size => { s with consumer := .getsTail size s.head }
  | .getsTail size head =>
      let iLen := atMost size (distance queSize s.tail head)
      s.getsLoop iLen 0 iLen.toNat
  | .getcHead => { s with consumer := .getcTail s.head }
  | .getcTail head => if head = s.tail then s.getsReturn 0 0 else s.getsLoop 1 0 1
  | .place iLen moved left => { s with consumer := .load iLen moved left s.tail }
  | .load iLen moved left tail => { s with consumer := .next iLen moved left (s.buf tail) }
  | .next iLen moved left ch => { s with consumer := .publish iLen moved left ch s.tail }
  | .publish iLen moved left ch tail =>
      { s with tail := (tail + 1) % queSize, consumed := s.consumed ++ [ch] }.getsLoop iLen
        (moved + 1) left
  | .peekTail size => { s with consumer := .peekHead size s.tail }
  | .peekHead size tail =>
      let iLen := atMost size (distance queSize tail s.head)
      s.peekLoop iLen [] tail iLen.toNat
  | .peek iLen seen left tail =>
      s.peekLoop iLen (seen ++ [s.buf tail]) ((tail + 1) % queSize) left

/-! ## Both -/

/-- A call that begins, or the next read or write of a task. -/
inductive Event
  | puts (data : List Byte)
  | putc (ch : Byte)
  | produce
  | gets (size : Nat)
  | getc
  | getsWithoutDelete (size : Nat)
  | consume

/-- A call of the producer begins, if it is in none. -/
def State.beginPut (s : State) (producer : Producer) : State :=
  match s.producer with
  | .idle => { s with producer := producer }
  | _ => s

def State.beginGet (s : State) (consumer : Consumer) : State :=
  match s.consumer with
  | .idle => { s with consumer := consumer }
  | _ => s

def step (size : Nat) (s : State) : Event → State
  | .puts data => s.beginPut (.putsHead data)
  | .putc ch => s.beginPut (.putcHead ch)
  | .produce => producerStep size s
  | .gets count => s.beginGet (.getsHead count)
  | .getc => s.beginGet .getcHead
  | .getsWithoutDelete count => s.beginGet (.peekTail count)
  | .consume => consumerStep size s

/-- `QueCheckCapability`. -/
def queCheckCapability (size : Nat) (s : State) : Int :=
  if s.head = s.tail then size - 1 else distance size s.head s.tail - 1

end PosFirmware.Bluetooth.Concurrent
