import Mathlib.Tactic

/-! # The data of a card exchange and the receive queue

The request and the response of `icc_core.h`, and `sci_queue_spill`, which takes
bytes that the hardware received out of the queue. What the card sends is a
sequence of receptions: a byte, a byte with a parity error, or no byte before the
timeout.
-/

namespace PosFirmware.Icc

/-- An `unsigned char`. -/
abbrev Byte := BitVec 8

def MAX_APDU_SIZE : Nat := 256

/-! ## Error codes -/

def ICC_ERR_PARAM : Int := -2803
def ICC_ERR_PARS : Int := -2807
def ICC_ERR_T0_WWT : Int := -2840
def ICC_ERR_T0_PROB : Int := -2842
def ICC_ERR_T1_BREP : Int := -2850
def ICC_ERR_T1_BWT : Int := -2851
def ICC_ERR_T1_CWT : Int := -2852
def ICC_ERR_T1_NAD : Int := -2853
def ICC_ERR_T1_PCB : Int := -2854
def ICC_ERR_T1_LRC : Int := -2855
def ICC_ERR_T1_LEN : Int := -2856
def ICC_ERR_T1_SRL : Int := -2857
def ICC_ERR_T1_SRC : Int := -2858
def ICC_ERR_T1_SRA : Int := -2859

/-! ## Requests and responses -/

/-- `struct emv_apdu_req`. `data` starts with the array of `MAX_APDU_SIZE` bytes;
what lies behind it in memory follows. -/
structure ApduReq where
  cmd : Fin 4 → Byte
  lc : Nat
  le : Nat
  data : Nat → Byte

/-- `struct emv_apdu_rsp`. -/
structure ApduRsp where
  len : Int
  swa : Byte
  swb : Byte
  data : Nat → Byte

/-- A command without data. -/
def headerReq : ApduReq := ⟨![0x00, 0x84, 0x00, 0x00], 0, 0, fun _ => 0⟩

/-- A response with nothing in it. -/
def ApduRsp.blank : ApduRsp := ⟨0, 0, 0, fun _ => 0⟩

/-- The case of a command, told from its two lengths. -/
def emvTellCase (req : ApduReq) : Nat :=
  if req.lc ≠ 0 then
    if req.le ≠ 0 then 4 else 3
  else
    if req.le ≠ 0 then 2 else 1

/-- Bytes stored from an index on. -/
def storeBytes (data : Nat → Byte) (start : Nat) (bytes : List Byte) : Nat → Byte := fun i =>
  if start ≤ i then bytes.getD (i - start) (data i) else data i

theorem storeBytes_below {data : Nat → Byte} {start i : Nat} {bytes : List Byte}
    (below : i < start) : storeBytes data start bytes i = data i := by
  rw [storeBytes, if_neg (by omega)]

theorem storeBytes_inside {data : Nat → Byte} {start i : Nat} {bytes : List Byte}
    (inside : i < bytes.length) : bytes[i]? = some (storeBytes data start bytes (start + i)) := by
  rw [storeBytes, if_pos (by omega), Nat.add_sub_cancel_left, List.getElem?_eq_getElem inside,
    List.getD_eq_getElem?_getD, List.getElem?_eq_getElem inside, Option.getD_some]

/-! ## Receiving -/

/-- What the hardware has at one place of the receive queue. -/
inductive Reception where
  | byte (value : Byte)
  | parity (value : Byte)
  | timeout

/-- The queue with these bytes in it. -/
def queueOf (bytes : List Byte) : Nat → Reception := fun i =>
  match bytes[i]? with
  | some value => .byte value
  | none => .timeout

/-- `adjust_timeout_type` of a terminal in state `EMV_READY`. -/
def adjustTimeoutType (ptype timeoutIndex : Nat) : Int :=
  if ptype = 0 then ICC_ERR_T0_WWT
  else if timeoutIndex = 0 then ICC_ERR_T1_BWT else ICC_ERR_T1_CWT

/-- What `sci_queue_spill` leaves: the bytes stored, its result and the place of
the next byte of the queue. -/
structure Spill where
  bytes : List Byte
  result : Int
  rxout : Nat

/-- A byte stored in front of the rest of a spill. -/
def Spill.store (value : Byte) (rest : Spill) : Spill :=
  { rest with bytes := value :: rest.bytes }

/-- The loop of `sci_queue_spill`. Under T=0 a parity error stops it; under T=1 it
is only recorded. -/
def spillLoop (ptype : Nat) (queue : Nat → Reception) : Nat → Int → Nat → Spill
  | 0, result, rxout => ⟨[], result, rxout⟩
  | left + 1, result, rxout =>
      match queue rxout with
      | .timeout => ⟨[], adjustTimeoutType ptype rxout, rxout⟩
      | .parity value =>
          if ptype = 0 then ⟨[], ICC_ERR_PARS, rxout⟩
          else (spillLoop ptype queue left ICC_ERR_PARS (rxout + 1)).store value
      | .byte value => (spillLoop ptype queue left result (rxout + 1)).store value

/-- `sci_queue_spill` of a number of bytes. -/
def sciQueueSpill (ptype : Nat) (queue : Nat → Reception) (length rxout : Nat) : Spill :=
  spillLoop ptype queue length 0 rxout

theorem spillLoop_length_le (ptype : Nat) (queue : Nat → Reception) (left : Nat) (result : Int)
    (rxout : Nat) : (spillLoop ptype queue left result rxout).bytes.length ≤ left := by
  induction left generalizing result rxout with
  | zero => simp [spillLoop]
  | succ left past =>
    unfold spillLoop
    cases queue rxout with
    | timeout => simp
    | parity value =>
      dsimp only
      split
      · simp
      · simpa [Spill.store] using past ICC_ERR_PARS (rxout + 1)
    | byte value => simpa [Spill.store] using past result (rxout + 1)

theorem sciQueueSpill_length_le (ptype : Nat) (queue : Nat → Reception) (length rxout : Nat) :
    (sciQueueSpill ptype queue length rxout).bytes.length ≤ length :=
  spillLoop_length_le ptype queue length 0 rxout

theorem adjustTimeoutType_ne_zero (ptype timeoutIndex : Nat) :
    adjustTimeoutType ptype timeoutIndex ≠ 0 := by
  unfold adjustTimeoutType
  split_ifs <;> decide

theorem spillLoop_length_of_ok (ptype : Nat) (queue : Nat → Reception) (left : Nat) (result : Int)
    (rxout : Nat) (ok : (spillLoop ptype queue left result rxout).result = 0) :
    (spillLoop ptype queue left result rxout).bytes.length = left := by
  induction left generalizing result rxout with
  | zero => rfl
  | succ left past =>
    unfold spillLoop at ok ⊢
    cases received : queue rxout with
    | timeout =>
      rw [received] at ok
      exact absurd ok (adjustTimeoutType_ne_zero ptype rxout)
    | parity value =>
      rw [received] at ok
      dsimp only at ok ⊢
      split
      · next isT0 =>
        rw [if_pos isT0] at ok
        exact absurd ok (show ICC_ERR_PARS ≠ 0 by decide)
      · next isT1 =>
        rw [if_neg isT1] at ok
        simpa [Spill.store] using past ICC_ERR_PARS (rxout + 1) ok
    | byte value =>
      rw [received] at ok
      simpa [Spill.store] using past result (rxout + 1) ok

theorem sciQueueSpill_length_of_ok {ptype : Nat} {queue : Nat → Reception} {length rxout : Nat}
    (ok : (sciQueueSpill ptype queue length rxout).result = 0) :
    (sciQueueSpill ptype queue length rxout).bytes.length = length :=
  spillLoop_length_of_ok ptype queue length 0 rxout ok

theorem sciQueueSpill_one_failed {queue : Nat → Reception} {rxout : Nat}
    (failed : (sciQueueSpill 0 queue 1 rxout).result ≠ 0) :
    (sciQueueSpill 0 queue 1 rxout).bytes.length = 0 := by
  unfold sciQueueSpill at failed ⊢
  unfold spillLoop at failed ⊢
  cases received : queue rxout with
  | timeout => rfl
  | parity value => rfl
  | byte value =>
    rw [received] at failed
    exact absurd rfl failed

end PosFirmware.Icc
