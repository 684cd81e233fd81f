import Mathlib.Tactic
import PosFirmware.Foundation.Slots

/-! # PPP frames and buffers

The bytes of a frame as `ppp_put_snd` lays them out in a send buffer: the check sequence, the
address and control bytes and the protocol number, then the payload; and the check
sequence that `ppp_checksum` compares on the other side.
-/

namespace PosFirmware.Ppp

/-- A byte of a frame or on the line. -/
abbrev Byte := BitVec 8

/-- `PPP_MSS`, the longest payload. -/
def PPP_MSS : Nat := 1500

/-- `PPP_HEADER_SPACE`: check sequence, address, control and protocol. -/
def PPP_HEADER_SPACE : Nat := 6

/-- `fcstab`. -/
def fcstab : List (BitVec 16) := [
    0x0000, 0x1189, 0x2312, 0x329b, 0x4624, 0x57ad, 0x6536, 0x74bf,
    0x8c48, 0x9dc1, 0xaf5a, 0xbed3, 0xca6c, 0xdbe5, 0xe97e, 0xf8f7,
    0x1081, 0x0108, 0x3393, 0x221a, 0x56a5, 0x472c, 0x75b7, 0x643e,
    0x9cc9, 0x8d40, 0xbfdb, 0xae52, 0xdaed, 0xcb64, 0xf9ff, 0xe876,
    0x2102, 0x308b, 0x0210, 0x1399, 0x6726, 0x76af, 0x4434, 0x55bd,
    0xad4a, 0xbcc3, 0x8e58, 0x9fd1, 0xeb6e, 0xfae7, 0xc87c, 0xd9f5,
    0x3183, 0x200a, 0x1291, 0x0318, 0x77a7, 0x662e, 0x54b5, 0x453c,
    0xbdcb, 0xac42, 0x9ed9, 0x8f50, 0xfbef, 0xea66, 0xd8fd, 0xc974,
    0x4204, 0x538d, 0x6116, 0x709f, 0x0420, 0x15a9, 0x2732, 0x36bb,
    0xce4c, 0xdfc5, 0xed5e, 0xfcd7, 0x8868, 0x99e1, 0xab7a, 0xbaf3,
    0x5285, 0x430c, 0x7197, 0x601e, 0x14a1, 0x0528, 0x37b3, 0x263a,
    0xdecd, 0xcf44, 0xfddf, 0xec56, 0x98e9, 0x8960, 0xbbfb, 0xaa72,
    0x6306, 0x728f, 0x4014, 0x519d, 0x2522, 0x34ab, 0x0630, 0x17b9,
    0xef4e, 0xfec7, 0xcc5c, 0xddd5, 0xa96a, 0xb8e3, 0x8a78, 0x9bf1,
    0x7387, 0x620e, 0x5095, 0x411c, 0x35a3, 0x242a, 0x16b1, 0x0738,
    0xffcf, 0xee46, 0xdcdd, 0xcd54, 0xb9eb, 0xa862, 0x9af9, 0x8b70,
    0x8408, 0x9581, 0xa71a, 0xb693, 0xc22c, 0xd3a5, 0xe13e, 0xf0b7,
    0x0840, 0x19c9, 0x2b52, 0x3adb, 0x4e64, 0x5fed, 0x6d76, 0x7cff,
    0x9489, 0x8500, 0xb79b, 0xa612, 0xd2ad, 0xc324, 0xf1bf, 0xe036,
    0x18c1, 0x0948, 0x3bd3, 0x2a5a, 0x5ee5, 0x4f6c, 0x7df7, 0x6c7e,
    0xa50a, 0xb483, 0x8618, 0x9791, 0xe32e, 0xf2a7, 0xc03c, 0xd1b5,
    0x2942, 0x38cb, 0x0a50, 0x1bd9, 0x6f66, 0x7eef, 0x4c74, 0x5dfd,
    0xb58b, 0xa402, 0x9699, 0x8710, 0xf3af, 0xe226, 0xd0bd, 0xc134,
    0x39c3, 0x284a, 0x1ad1, 0x0b58, 0x7fe7, 0x6e6e, 0x5cf5, 0x4d7c,
    0xc60c, 0xd785, 0xe51e, 0xf497, 0x8028, 0x91a1, 0xa33a, 0xb2b3,
    0x4a44, 0x5bcd, 0x6956, 0x78df, 0x0c60, 0x1de9, 0x2f72, 0x3efb,
    0xd68d, 0xc704, 0xf59f, 0xe416, 0x90a9, 0x8120, 0xb3bb, 0xa232,
    0x5ac5, 0x4b4c, 0x79d7, 0x685e, 0x1ce1, 0x0d68, 0x3ff3, 0x2e7a,
    0xe70e, 0xf687, 0xc41c, 0xd595, 0xa12a, 0xb0a3, 0x8238, 0x93b1,
    0x6b46, 0x7acf, 0x4854, 0x59dd, 0x2d62, 0x3ceb, 0x0e70, 0x1ff9,
    0xf78f, 0xe606, 0xd49d, 0xc514, 0xb1ab, 0xa022, 0x92b9, 0x8330,
    0x7bc7, 0x6a4e, 0x58d5, 0x495c, 0x3de3, 0x2c6a, 0x1ef1, 0x0f78]

/-- One round of the loops over the bytes: `(us1 >> 8) ^ fcstab[(us1 ^ c) & 0xff]`. -/
def fcsByte (us1 : BitVec 16) (c : Byte) : BitVec 16 :=
  (us1 >>> 8) ^^^ fcstab.getD ((us1 ^^^ c.zeroExtend 16) &&& 0xFF).toNat 0

/-- The check sequence over a number of bytes, before the complement. -/
def fcs (us1 : BitVec 16) (bytes : List Byte) : BitVec 16 := bytes.foldl fcsByte us1

/-- The low byte. -/
def lowByte (us : BitVec 16) : Byte := us.setWidth 8

/-- The high byte. -/
def highByte (us : BitVec 16) : Byte := (us >>> 8).setWidth 8

/-- Address, control and protocol, behind the check sequence. -/
def frameHead (proto : BitVec 16) : List Byte := [0xFF, 0x03, highByte proto, lowByte proto]

/-- `ppp_build_header`: the check sequence comes first. -/
def pppBuildHeader (data : List Byte) (proto : BitVec 16) : List Byte :=
  let us1 := fcs (fcs 0xFFFF (frameHead proto)) data ^^^ 0xFFFF
  [lowByte us1, highByte us1] ++ frameHead proto

/-- `ppp_checksum`: the check sequence over the first bytes, and the two bytes behind them. -/
def pppChecksum (length : Nat) (cp : List Byte) : Bool :=
  let us1 := fcs 0xFFFF (cp.take length) ^^^ 0xFFFF
  let us2 := ((cp.getD (length + 1) 0).zeroExtend 16 <<< 8) ||| (cp.getD length 0).zeroExtend 16
  us1 = us2

/-- A frame as it lies in a send buffer. -/
def sendFrame (data : List Byte) (proto : BitVec 16) : List Byte := pppBuildHeader data proto ++ data

@[simp] theorem length_pppBuildHeader (data : List Byte) (proto : BitVec 16) :
    (pppBuildHeader data proto).length = PPP_HEADER_SPACE := rfl

open PosFirmware.Foundation

/-! ## PPP buffers

The arrays `snd_bufs` and `rcv_bufs`. A buffer is free, waits for its turn (`PPP_BUF_USED`) or
is worked on (`PPP_BUF_DOING`). `ppp_find_buf_used` takes the first that waits, `ppp_get_buf`
the first that is free or, where it must, the oldest of the others.
-/

/-- `PPP_SND_QLEN` and `PPP_RCV_QLEN`. -/
def PPP_QLEN : Nat := 10

/-- Status of a buffer. -/
inductive BufStatus where
  /-- `PPP_BUF_FREE`. -/
  | free
  /-- `PPP_BUF_USED`. -/
  | used
  /-- `PPP_BUF_DOING`. -/
  | doing
  deriving DecidableEq

/-- `PPP_BUF_T`. -/
structure PppBuf where
  status : BufStatus
  timestamp : Nat
  len : Nat
  data : Nat → Byte

/-- The bytes of a buffer up to its length. -/
def PppBuf.frame (b : PppBuf) : List Byte := (List.range b.len).map b.data

/-- An array of buffers. -/
abbrev PppBufs := Nat → PppBuf

/-- The largest 32-bit number, the timestamp of a new buffer. -/
def newTimestamp : Nat := 0xFFFFFFFF

/-- Put a buffer at its place. -/
def PppBufs.set (bufs : PppBufs) (j : Nat) (b : PppBuf) : PppBufs :=
  fun i => if i = j then b else bufs i

/-- Set the status of a buffer. -/
def PppBufs.mark (bufs : PppBufs) (j : Nat) (status : BufStatus) : PppBufs :=
  bufs.set j { bufs j with status }

/-- A buffer waits for its turn. -/
def PppBufs.waits (bufs : PppBufs) (i : Nat) : Bool := (bufs i).status = .used

/-- The frames that wait for their turn, by index. -/
def PppBufs.waiting (bufs : PppBufs) : List (List Byte) :=
  slots bufs.waits (fun i => (bufs i).frame) 0 PPP_QLEN

/-- `ppp_find_buf_used`. -/
def pppFindBufUsed (bufs : PppBufs) : Option Nat := firstSlot bufs.waits PPP_QLEN

/-- The first loop of `ppp_get_buf` makes the buffers that are not free older. -/
def ageBuf (b : PppBuf) : PppBuf :=
  if b.status = .free then b else { b with timestamp := b.timestamp - 1 }

/-- A round of the second loop of `ppp_get_buf`. -/
def olderBuf (bufs : PppBufs) (found : Option Nat × Nat) (i : Nat) : Option Nat × Nat :=
  if (bufs i).timestamp < found.2 ∧ (bufs i).status ≠ .doing then (some i, (bufs i).timestamp)
  else found

/-- The second loop of `ppp_get_buf`: the oldest buffer that is not worked on. -/
def oldestBuf (bufs : PppBufs) (count : Nat) : Option Nat × Nat :=
  (List.range count).foldl (olderBuf bufs) (none, newTimestamp)

/-- The end of `ppp_get_buf`: the buffer is free, new and empty. -/
def PppBufs.renew (bufs : PppBufs) (j : Nat) : PppBufs :=
  bufs.set j { bufs j with status := .free, timestamp := newTimestamp, len := 0 }

@[simp] theorem PppBufs.set_same (bufs : PppBufs) (j : Nat) (b : PppBuf) : bufs.set j b j = b :=
  if_pos rfl

theorem PppBufs.set_other (bufs : PppBufs) {i j : Nat} (b : PppBuf) (other : i ≠ j) :
    bufs.set j b i = bufs i := if_neg other

theorem PppBufs.waits_iff (bufs : PppBufs) (i : Nat) :
    bufs.waits i = true ↔ (bufs i).status = .used := decide_eq_true_iff

theorem PppBufs.waits_eq_false (bufs : PppBufs) (i : Nat) :
    bufs.waits i = false ↔ (bufs i).status ≠ .used := decide_eq_false_iff_not

theorem PppBufs.waiting_congr {bufs bufs' : PppBufs}
    (same : ∀ i, i < PPP_QLEN → bufs'.waits i = bufs.waits i ∧
      (bufs.waits i = true → (bufs' i).frame = (bufs i).frame)) :
    bufs'.waiting = bufs.waiting :=
  slots_congr fun i _ high => same i (by omega)

/-- **A buffer behind all that wait** puts its frame at the end of the queue. -/
theorem PppBufs.waiting_push {bufs : PppBufs} {j : Nat} {b : PppBuf} (inside : j < PPP_QLEN)
    (free : (bufs j).status ≠ .used) (last : ∀ i, j < i → i < PPP_QLEN → (bufs i).status ≠ .used)
    (used : b.status = .used) : (bufs.set j b).waiting = bufs.waiting ++ [b.frame] := by
  have pushed := @slots_push _ bufs.waits (bufs.set j b).waits (fun i => (bufs i).frame)
    (fun i => (bufs.set j b i).frame) _ _ inside ((bufs.waits_eq_false j).mpr free)
    (fun i above below => (bufs.waits_eq_false i).mpr (last i above below))
    ((PppBufs.waits_iff _ j).mpr (by rw [PppBufs.set_same, used]))
    (fun i other => by simp only [PppBufs.waits, bufs.set_other b other, implies_true, and_self])
  simp only [PppBufs.set_same] at pushed
  exact pushed

/-- **A buffer that waits from now on** has its frame in the queue. -/
theorem PppBufs.waiting_insert {bufs : PppBufs} {j : Nat} {b : PppBuf} (inside : j < PPP_QLEN)
    (free : (bufs j).status ≠ .used) (used : b.status = .used) :
    (bufs.set j b).waiting.Perm (b.frame :: bufs.waiting) := by
  have inserted := @slots_insert _ bufs.waits (bufs.set j b).waits (fun i => (bufs i).frame)
    (fun i => (bufs.set j b i).frame) _ _ inside ((bufs.waits_eq_false j).mpr free)
    ((PppBufs.waits_iff _ j).mpr (by rw [PppBufs.set_same, used]))
    (fun i other => by simp only [PppBufs.waits, bufs.set_other b other, implies_true, and_self])
  simp only [PppBufs.set_same] at inserted
  exact inserted

/-- **The first buffer that waits** has the first frame of the queue. -/
theorem PppBufs.waiting_take {bufs : PppBufs} {j : Nat} {b : PppBuf}
    (first : pppFindBufUsed bufs = some j) (gone : b.status ≠ .used) :
    bufs.waiting = (bufs j).frame :: (bufs.set j b).waiting :=
  slots_take first ((PppBufs.waits_eq_false _ j).mpr (by rwa [PppBufs.set_same]))
    fun i other => by simp only [PppBufs.waits, bufs.set_other b other, implies_true, and_self]

theorem PppBufs.waiting_set {bufs : PppBufs} {j : Nat} {b : PppBuf}
    (before : (bufs j).status ≠ .used) (after : b.status ≠ .used) :
    (bufs.set j b).waiting = bufs.waiting := by
  refine PppBufs.waiting_congr fun i _ => ?_
  by_cases same : i = j
  · subst same
    simp [PppBufs.waits, before, after]
  · simp only [PppBufs.waits, bufs.set_other b same, implies_true, and_self]

end PosFirmware.Ppp
