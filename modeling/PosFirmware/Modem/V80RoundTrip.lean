import PosFirmware.Modem.V80
import Mathlib.Data.List.Basic
import Mathlib.Tactic.IntervalCases

/-!
# The V.80 codes are undone

A packed frame is a sequence of codes, each of which the receiver undoes where it stands
(`Awaits.receive`). Whatever calls the bytes are spread over, the frame is received
(`v80_roundTrip`), and no bytes at all lead outside the pools (`Bounded.call`).
-/

namespace PosFirmware.Modem

/-! ## Codes -/

/-- The bytes that are sent as codes. -/
def Special (data : Byte) : Prop := data = 0x11 ∨ data = 0x13 ∨ data = 0x19 ∨ data = 0x99

instance (data : Byte) : Decidable (Special data) := inferInstanceAs (Decidable (_ ∨ _))

/-- A sequence of bytes that are no special ones and of codes of two bytes. -/
inductive Coded : List Byte → Prop
  | nil : Coded []
  | plain {data : Byte} {rest : List Byte} : ¬ Special data → Coded rest → Coded (data :: rest)
  | code {cc : Byte} {rest : List Byte} : ¬ Special cc → Coded rest → Coded (0x19 :: cc :: rest)

theorem Coded.append {front back : List Byte} (first : Coded front) (second : Coded back) :
    Coded (front ++ back) := by
  induction first with
  | nil => exact second
  | plain plain _ past => exact .plain plain past
  | code plain _ past => exact .code plain past

theorem Coded.absent {bytes : List Byte} (coded : Coded bytes) :
    ∀ data ∈ bytes, data ≠ 0x11 ∧ data ≠ 0x13 ∧ data ≠ 0x99 := by
  have others : ∀ data : Byte, ¬ Special data → data ≠ 0x11 ∧ data ≠ 0x13 ∧ data ≠ 0x99 := by
    intro data plain
    simp only [Special, not_or] at plain
    exact ⟨plain.1, plain.2.1, plain.2.2.2⟩
  induction coded with
  | nil => exact fun _ member => nomatch member
  | plain plain _ past =>
    intro data member
    obtain rfl | later := List.mem_cons.mp member
    · exact others _ plain
    · exact past data later
  | code plain _ past =>
    intro data member
    obtain rfl | later := List.mem_cons.mp member
    · decide
    · obtain rfl | last := List.mem_cons.mp later
      · exact others _ plain
      · exact past data last

theorem packSingle_cases (data : Byte) : (¬ Special data ∧ packSingle data = [data]) ∨
    ∃ cc, ¬ Special cc ∧ codes.lookup cc = some [data] ∧ packSingle data = [0x19, cc] := by
  by_cases special : Special data
  · obtain rfl | rfl | rfl | rfl := special
    · exact .inr ⟨0xa0, by decide, by decide, by decide⟩
    · exact .inr ⟨0xa1, by decide, by decide, by decide⟩
    · exact .inr ⟨0x5c, by decide, by decide, by decide⟩
    · exact .inr ⟨0x76, by decide, by decide, by decide⟩
  · refine .inl ⟨special, ?_⟩
    simp only [Special, not_or] at special
    obtain ⟨not11, not13, not19, not99⟩ := special
    rw [packSingle, singleMask, if_neg not19, if_neg not99, if_neg not11, if_neg not13,
      if_neg (by decide)]

theorem pairMask_special {data next : Byte} (pair : pairMask data next < 16) :
    Special data ∧ Special next := by
  unfold pairMask at pair
  unfold Special
  split_ifs at pair with h <;> simp_all

theorem pairMask_code {data next : Byte} (pair : pairMask data next < 16) :
    ¬ Special (pairEsc.getD (pairMask data next) 0) ∧
      codes.lookup (pairEsc.getD (pairMask data next) 0) = some [data, next] := by
  obtain ⟨rfl | rfl | rfl | rfl, rfl | rfl | rfl | rfl⟩ := pairMask_special pair <;> decide

theorem packBytes_cases (first : Byte) (more : List Byte) :
    (¬ Special first ∧ packBytes (first :: more) = first :: packBytes more) ∨
    ∃ cc data rest, Special first ∧ first :: more = data ++ rest ∧ data ≠ [] ∧ ¬ Special cc ∧
      codes.lookup cc = some data ∧ packBytes (first :: more) = 0x19 :: cc :: packBytes rest := by
  have single : packBytes (first :: more) = packSingle first ++ packBytes more →
      (¬ Special first ∧ packBytes (first :: more) = first :: packBytes more) ∨
      ∃ cc data rest, Special first ∧ first :: more = data ++ rest ∧ data ≠ [] ∧ ¬ Special cc ∧
        codes.lookup cc = some data ∧
          packBytes (first :: more) = 0x19 :: cc :: packBytes rest := by
    intro packed
    obtain ⟨plain, alone⟩ | ⟨cc, plain, looked, code⟩ := packSingle_cases first
    · rw [packed, alone]
      exact .inl ⟨plain, rfl⟩
    · have special : Special first := by
        by_contra plain'
        simp only [Special, not_or] at plain'
        obtain ⟨not11, not13, not19, not99⟩ := plain'
        rw [packSingle, singleMask, if_neg not19, if_neg not99, if_neg not11, if_neg not13,
          if_neg (by decide)] at code
        cases code
      rw [packed, code]
      exact .inr ⟨cc, [first], more, special, rfl, by simp, plain, looked, rfl⟩
  cases more with
  | nil => exact single (List.append_nil _).symm
  | cons next rest =>
    by_cases pair : pairMask first next < 16
    · obtain ⟨plain, looked⟩ := pairMask_code pair
      refine .inr ⟨_, [first, next], rest, (pairMask_special pair).1, rfl, by simp, plain, looked, ?_⟩
      rw [packBytes, if_pos pair]
      rfl
    · exact single (by rw [packBytes, if_neg pair])

theorem packBytes_coded (bytes : List Byte) : Coded (packBytes bytes) := by
  induction size : bytes.length using Nat.strong_induction_on generalizing bytes with
  | _ n past =>
    subst size
    cases bytes with
    | nil => exact .nil
    | cons first more =>
      obtain ⟨plain, packed⟩ | ⟨cc, data, rest, -, split, some, plain, -, packed⟩ :=
        packBytes_cases first more
      · rw [packed]
        exact .plain plain (past _ (Nat.lt_succ_self _) more rfl)
      · rw [packed]
        refine .code plain (past _ ?_ rest rfl)
        rw [split, List.length_append]
        exact Nat.lt_add_of_pos_left (List.length_pos_of_ne_nil some)

theorem packBytes_length (bytes : List Byte) : (packBytes bytes).length ≤ 2 * bytes.length := by
  induction size : bytes.length using Nat.strong_induction_on generalizing bytes with
  | _ n past =>
    subst size
    cases bytes with
    | nil => exact Nat.le_refl _
    | cons first more =>
      obtain ⟨-, packed⟩ | ⟨cc, data, rest, -, split, some, -, -, packed⟩ :=
        packBytes_cases first more
      · have shorter := past _ (Nat.lt_succ_self _) more rfl
        rw [packed, List.length_cons, List.length_cons]
        omega
      · have positive := List.length_pos_of_ne_nil some
        have whole : (first :: more).length = data.length + rest.length := by
          rw [split, List.length_append]
        have shorter := past _ (by omega) rest rfl
        rw [packed, List.length_cons, List.length_cons, whole]
        omega

theorem packSdlcV80_length (frameAddress ctrl : Byte) (inData : List Byte) :
    (packSdlcV80 frameAddress ctrl inData).length ≤ POOL_SIZE := by
  have packed := packBytes_length (xpool frameAddress ctrl inData)
  have size : (xpool frameAddress ctrl inData).length ≤ FRAME_SIZE := by
    simp only [xpool, List.length_cons, List.length_take, FRAME_SIZE]
    omega
  rw [packSdlcV80, List.length_append, POOL_SIZE]
  simp only [FRAME_SIZE, List.length_cons, List.length_nil] at size ⊢
  omega

theorem packSdlcV80_coded (frameAddress ctrl : Byte) (inData : List Byte) :
    Coded (packSdlcV80 frameAddress ctrl inData) :=
  (packBytes_coded _).append (.code (by decide) .nil)

/-! ## Bounds -/

/-- A receiver that waits for a byte has room for it. -/
def Bounded (s : Rcv) : Prop := s.taskP2 = 1 → s.i ≤ DATA_SIZE + 3

theorem Rcv.writePool_some {s : Rcv} {i : Nat} (inside : i < POOL_SIZE) (data : Byte) :
    s.writePool i data = some { s with ciPool := Function.update s.ciPool i data } := if_pos inside

/-- Some bytes in a pool. -/
def written (pool : Buffer) (i : Nat) (data : List Byte) : Buffer :=
  fun j => if i ≤ j ∧ j < i + data.length then data.getD (j - i) 0 else pool j

/-- The index that a code goes back to. -/
def backTwo (i : Nat) : Nat := if 2 < i then i - 2 else i

theorem Rcv.undo_eq {s : Rcv} {data : List Byte} (room : s.i + data.length ≤ POOL_SIZE) :
    s.undo data = some { s with
      ciPool := written s.ciPool (backTwo s.i) data
      i := backTwo s.i + data.length, emFound := false } := by
  have write : ∀ (data : List Byte) (s : Rcv), s.i + data.length ≤ POOL_SIZE →
      data.foldlM (fun s data => (s.writePool s.i data).map fun s => { s with i := s.i + 1 }) s =
        some { s with ciPool := written s.ciPool s.i data, i := s.i + data.length } := by
    intro data
    induction data with
    | nil =>
      intro s _
      have same : written s.ciPool s.i [] = s.ciPool := by
        funext j
        exact if_neg (by rw [List.length_nil]; omega)
      rw [same]
      rfl
    | cons first rest past =>
      intro s room
      rw [List.length_cons] at room
      rw [List.foldlM_cons, Rcv.writePool_some (by omega)]
      have later := past { s with ciPool := Function.update s.ciPool s.i first, i := s.i + 1 }
        (show s.i + 1 + rest.length ≤ POOL_SIZE by omega)
      refine later.trans ?_
      have pools : written (Function.update s.ciPool s.i first) (s.i + 1) rest =
          written s.ciPool s.i (first :: rest) := by
        funext j
        unfold written
        rw [List.length_cons]
        by_cases here : j = s.i
        · subst here
          rw [if_neg (by omega), if_pos (by omega), Function.update_self, Nat.sub_self]
          rfl
        · rw [Function.update_of_ne here]
          by_cases inside : s.i + 1 ≤ j ∧ j < s.i + 1 + rest.length
          · rw [if_pos inside, if_pos (by omega), show j - s.i = j - (s.i + 1) + 1 by omega]
            rfl
          · rw [if_neg inside, if_neg (by omega)]
      dsimp only
      rw [pools, List.length_cons, Nat.add_assoc, Nat.add_comm 1]
  have low : backTwo s.i ≤ s.i := by
    unfold backTwo
    split <;> omega
  exact write data { s with i := backTwo s.i, emFound := false }
    (show backTwo s.i + data.length ≤ POOL_SIZE by omega)

theorem codes_length {cc : Byte} {data : List Byte} (looked : codes.lookup cc = some data) :
    0 < data.length ∧ data.length ≤ 2 := by
  have all : ∀ entry ∈ codes, 0 < entry.2.length ∧ entry.2.length ≤ 2 := by decide
  obtain ⟨front, back, split, -⟩ := List.lookup_eq_some_iff.mp looked
  exact all (cc, data) (by rw [split]; simp)

theorem Rcv.validFrame_le (s : Rcv) : s.validFrame.i ≤ s.i := by
  have low : (if 2 ≤ s.i then s.i - 2 else s.i) ≤ s.i := by split <;> omega
  unfold Rcv.validFrame
  dsimp only
  generalize (if 2 ≤ s.i then s.i - 2 else s.i) = i at low ⊢
  split
  · exact Nat.zero_le _
  · split <;> exact low

/-- The receiver after a turn of the loop. -/
def Turn.rcv : Turn → Rcv
  | .next s => s
  | .finish s _ => s

theorem Rcv.command_bounded {s : Rcv} (room : s.i ≤ DATA_SIZE + 4) (cc : Byte) :
    ∃ turn, s.command cc = some turn ∧ turn.rcv.i < FRAME_SIZE := by
  have short : s.i ≤ 2052 := room
  have inFrame : s.i < FRAME_SIZE := by simp only [FRAME_SIZE]; omega
  have zero : 0 < FRAME_SIZE := by decide
  unfold Rcv.command
  split
  · exact ⟨_, rfl, zero⟩
  split
  · refine ⟨_, rfl, ?_⟩
    split <;> exact zero
  split
  · exact ⟨_, rfl, inFrame⟩
  split
  · exact ⟨_, rfl, inFrame⟩
  split
  · exact ⟨_, rfl, inFrame⟩
  split
  · exact ⟨_, rfl, zero⟩
  split
  · exact ⟨_, rfl, s.validFrame_le.trans_lt inFrame⟩
  split
  · next data looked =>
    have size := (codes_length looked).2
    rw [Rcv.undo_eq (by simp only [POOL_SIZE, FRAME_SIZE]; omega)]
    refine ⟨_, rfl, ?_⟩
    have low : backTwo s.i ≤ s.i := by
      unfold backTwo
      split <;> omega
    change backTwo s.i + data.length < FRAME_SIZE
    simp only [FRAME_SIZE]
    omega
  · split
    · exact ⟨_, rfl, zero⟩
    split
    · exact ⟨_, rfl, zero⟩
    · exact ⟨_, rfl, inFrame⟩

/-- Where the loop goes on there is room for a byte more, and it ends with a frame that fits. -/
def Turn.Bounded : Turn → Prop
  | .next s => s.i ≤ DATA_SIZE + 3
  | .finish s _ => s.i < FRAME_SIZE

theorem Rcv.check_bounded {s : Rcv} (room : s.i < FRAME_SIZE) (cc : Byte) :
    (s.check cc).Bounded := by
  unfold Rcv.check
  dsimp only
  split
  · exact room
  · split
    · exact room
    · next small => exact Nat.le_of_not_lt small

theorem Rcv.receive_bounded {s : Rcv} (room : s.i ≤ DATA_SIZE + 3) (cc : Byte) :
    ∃ turn, s.receive cc = some turn ∧ turn.Bounded := by
  have inPool : s.i < POOL_SIZE := room.trans_lt (by decide)
  unfold Rcv.receive
  rw [Rcv.writePool_some inPool, Option.bind_eq_bind, Option.bind_some]
  dsimp only
  split
  · obtain ⟨turn, commanded, bounded⟩ := Rcv.command_bounded
      (s := { s with ciPool := Function.update s.ciPool s.i cc, i := s.i + 1 })
      (Nat.add_le_add_right room 1) cc
    rw [commanded]
    cases turn with
    | next s' => exact ⟨_, rfl, Rcv.check_bounded bounded cc⟩
    | finish s' resp => exact ⟨_, rfl, bounded⟩
  · refine ⟨_, rfl, Rcv.check_bounded ?_ cc⟩
    exact (Nat.add_le_add_right room 1).trans_lt (by decide)

theorem Rcv.rEnd_some {s : Rcv} (room : s.i < FRAME_SIZE) (resp : Nat) :
    ∃ result, s.rEnd resp = some result ∧ result.2.taskP2 = 0 := ⟨_, if_pos room, rfl⟩

theorem Rcv.loop_bounded {s : Rcv} (room : s.i ≤ DATA_SIZE + 3) (bytes : List Byte) :
    ∃ result, s.loop bytes = some result ∧ Modem.Bounded result.1.2 := by
  have ends : ∀ {s : Rcv} (resp : Nat) (rest : List Byte), s.i < FRAME_SIZE →
      ∃ result, (s.rEnd resp).map (·, rest) = some result ∧ Modem.Bounded result.1.2 := by
    intro s resp rest inFrame
    obtain ⟨result, some, idle⟩ := s.rEnd_some inFrame resp
    refine ⟨(result, rest), by rw [some]; rfl, fun busy => ?_⟩
    rw [idle] at busy
    cases busy
  induction bytes generalizing s with
  | nil =>
    unfold Rcv.loop
    split
    · exact ends 6 [] (room.trans_lt (by decide))
    · exact ⟨_, rfl, fun _ => room⟩
  | cons cc rest past =>
    obtain ⟨turn, received, bounded⟩ := Rcv.receive_bounded room cc
    unfold Rcv.loop
    rw [received, Option.bind_eq_bind, Option.bind_some]
    cases turn with
    | next s' => exact past bounded
    | finish s' resp => exact ends resp rest bounded

/-- A call of the receiver, and the ticks of the timer after it. -/
structure Call where
  longWait : Bool
  isHalfDuplex : Bool
  bytes : List Byte
  ticks : Nat

/-- A call, after which some time passes. -/
def Call.run (s : Rcv) (call : Call) : Option Rcv :=
  (stepRcvV80Cmd call.longWait call.isHalfDuplex s call.bytes).map fun result =>
    result.1.2.elapse call.ticks

theorem Bounded.call {s : Rcv} (bounded : Bounded s) (call : Call) :
    ∃ s', call.run s = some s' ∧ Bounded s' := by
  have looped : ∃ result, stepRcvV80Cmd call.longWait call.isHalfDuplex s call.bytes =
      some result ∧ Bounded result.1.2 := by
    unfold stepRcvV80Cmd
    split
    · next busy => exact Rcv.loop_bounded (bounded busy) call.bytes
    · exact Rcv.loop_bounded (Nat.zero_le _) call.bytes
  obtain ⟨result, some, bounded'⟩ := looped
  have waits : Bounded (result.1.2.elapse call.ticks) := bounded'
  refine ⟨_, ?_, waits⟩
  rw [Call.run, some]
  rfl

/-! ## Receiving a frame -/

/-- The receiver has got some bytes of a frame, and perhaps the start of a code. -/
structure Got (s : Rcv) (got : List Byte) (started : Bool) : Prop where
  size : s.i = got.length + started.toNat
  bytes : ∀ j data, got[j]? = some data → s.ciPool j = data
  flag : s.emFound = started
  endless : s.wantDlen = 10000

/-- The variables that receiving a byte leaves, and the timer that it starts again. -/
structure Goes (s s' : Rcv) : Prop where
  taskP2 : s'.taskP2 = s.taskP2
  timeout : s'.timeout = s.timeout
  timer : s'.tm02Remains = s.timeout

theorem Rcv.check_next {s : Rcv} {cc : Byte} (endless : s.wantDlen = 10000)
    (room : s.i ≤ DATA_SIZE + 3) :
    s.check cc = .next { s with emFound := s.emFound || cc = 0x19, tm02Remains := s.timeout } := by
  have short : s.i ≤ 2051 := room
  unfold Rcv.check
  dsimp only
  rw [if_neg (by omega), if_neg (by simp only [DATA_SIZE]; omega)]

theorem Got.update {s : Rcv} {got : List Byte} {started : Bool} (has : Got s got started)
    (cc : Byte) : ∀ j data, got[j]? = some data → Function.update s.ciPool s.i cc j = data := by
  intro j data here
  have below : j < got.length := (List.getElem?_eq_some_iff.mp here).1
  rw [Function.update_of_ne (by rw [has.size]; omega)]
  exact has.bytes j data here

theorem Got.plain {s : Rcv} {got : List Byte} (has : Got s got false) {cc : Byte}
    (plain : cc ≠ 0x19) (room : got.length ≤ DATA_SIZE + 2) :
    ∃ s', s.receive cc = some (.next s') ∧ Got s' (got ++ [cc]) false ∧ Goes s s' ∧
      s'.aborts = s.aborts := by
  have size : s.i = got.length := has.size
  have inPool : s.i < POOL_SIZE := by
    rw [size]
    exact room.trans_lt (by decide)
  refine ⟨{ s with ciPool := Function.update s.ciPool s.i cc, i := s.i + 1
                   tm02Remains := s.timeout }, ?_, ?_, ⟨rfl, rfl, rfl⟩, rfl⟩
  · unfold Rcv.receive
    rw [Rcv.writePool_some inPool, Option.bind_eq_bind, Option.bind_some]
    dsimp only
    rw [has.flag, if_neg Bool.false_ne_true, Rcv.check_next]
    · rw [decide_eq_false plain, Bool.or_false]
    · exact has.endless
    · exact show s.i + 1 ≤ DATA_SIZE + 3 by omega
  · refine ⟨?_, fun j data here => ?_, has.flag, has.endless⟩
    · rw [List.length_append]
      exact congrArg (· + 1) size
    · obtain before | after := lt_or_ge j got.length
      · rw [List.getElem?_append_left before] at here
        exact has.update cc j data here
      · rw [List.getElem?_append_right after, List.getElem?_singleton] at here
        split at here
        · next zero =>
          cases here
          have last : j = s.i := by omega
          rw [last]
          exact Function.update_self _ _ _
        · cases here

theorem Got.start {s : Rcv} {got : List Byte} (has : Got s got false)
    (room : got.length ≤ DATA_SIZE + 2) :
    ∃ s', s.receive 0x19 = some (.next s') ∧ Got s' got true ∧ Goes s s' ∧
      s'.aborts = s.aborts := by
  have size : s.i = got.length := has.size
  have inPool : s.i < POOL_SIZE := by
    rw [size]
    exact room.trans_lt (by decide)
  refine ⟨{ s with ciPool := Function.update s.ciPool s.i 0x19, i := s.i + 1, emFound := true
                   tm02Remains := s.timeout }, ?_, ?_, ⟨rfl, rfl, rfl⟩, rfl⟩
  · unfold Rcv.receive
    rw [Rcv.writePool_some inPool, Option.bind_eq_bind, Option.bind_some]
    dsimp only
    rw [has.flag, if_neg Bool.false_ne_true, Rcv.check_next]
    · rw [decide_eq_true rfl, Bool.or_true]
    · exact has.endless
    · exact show s.i + 1 ≤ DATA_SIZE + 3 by omega
  · exact ⟨congrArg (· + 1) size, has.update 0x19, rfl, has.endless⟩

theorem Got.command {s : Rcv} {got : List Byte} (has : Got s got true) (cc : Byte)
    (room : got.length ≤ DATA_SIZE + 2) :
    s.receive cc = ({ s with ciPool := Function.update s.ciPool s.i cc
                             i := got.length + 2 }.command cc).bind fun turn =>
      match turn with
      | .next s => some (s.check cc)
      | .finish s resp => some (.finish s resp) := by
  have size : s.i = got.length + 1 := has.size
  have inPool : s.i < POOL_SIZE := by
    rw [size]
    exact (Nat.add_le_add_right room 1).trans_lt (by decide)
  unfold Rcv.receive
  rw [Rcv.writePool_some inPool, Option.bind_eq_bind, Option.bind_some]
  dsimp only
  rw [has.flag, if_pos rfl, size]
  rfl

theorem Got.code {s : Rcv} {got : List Byte} (has : Got s got true) {cc : Byte}
    {data : List Byte} (looked : codes.lookup cc = some data) (some : got ≠ [])
    (room : got.length + data.length ≤ DATA_SIZE + 2) :
    ∃ s', s.receive cc = .some (.next s') ∧ Got s' (got ++ data) false ∧ Goes s s' ∧
      s'.aborts = s.aborts := by
  have positive := List.length_pos_of_ne_nil some
  have short : got.length + data.length ≤ 2050 := room
  have back : backTwo (got.length + 2) = got.length := by
    rw [backTwo, if_pos (by omega), Nat.add_sub_cancel]
  have others : cc ≠ 0xbe ∧ cc ≠ 0xb0 ∧ cc ≠ 0xb4 ∧ cc ≠ 0xb5 ∧ cc ≠ 0xb6 ∧ cc ≠ 0xb2 ∧
      cc ≠ 0xb1 ∧ cc ≠ 0x19 := by
    have all : ∀ entry ∈ codes, entry.1 ≠ 0xbe ∧ entry.1 ≠ 0xb0 ∧ entry.1 ≠ 0xb4 ∧
        entry.1 ≠ 0xb5 ∧ entry.1 ≠ 0xb6 ∧ entry.1 ≠ 0xb2 ∧ entry.1 ≠ 0xb1 ∧ entry.1 ≠ 0x19 := by
      decide
    obtain ⟨front, rest, split, -⟩ := List.lookup_eq_some_iff.mp looked
    exact all (cc, data) (by rw [split]; simp)
  obtain ⟨notRate, notAbort, notUnder, notOver, notRx, notHunt, notValid, plain⟩ := others
  refine ⟨{ s with
    ciPool := written (Function.update s.ciPool s.i cc) got.length data
    i := got.length + data.length, emFound := false, tm02Remains := s.timeout },
    ?_, ?_, ⟨rfl, rfl, rfl⟩, rfl⟩
  · rw [has.command cc (by simp only [DATA_SIZE]; omega)]
    unfold Rcv.command
    rw [if_neg notRate, if_neg notAbort, if_neg notUnder, if_neg notOver, if_neg notRx,
      if_neg notHunt, if_neg notValid, looked]
    dsimp only
    rw [Rcv.undo_eq (by
      have pool : POOL_SIZE = 6180 := rfl
      have two := (codes_length looked).2
      dsimp only
      omega)]
    dsimp only [Option.map_some, Option.bind_some]
    rw [back, Rcv.check_next]
    · rw [decide_eq_false plain, Bool.or_false]
    · exact has.endless
    · exact show got.length + data.length ≤ DATA_SIZE + 3 by omega
  · refine ⟨?_, fun j held here => ?_, rfl, has.endless⟩
    · rw [List.length_append]
      rfl
    · change written _ got.length data j = held
      unfold written
      obtain before | after := lt_or_ge j got.length
      · rw [List.getElem?_append_left before] at here
        rw [if_neg (by omega)]
        exact has.update cc j held here
      · rw [List.getElem?_append_right after] at here
        have below := (List.getElem?_eq_some_iff.mp here).1
        rw [if_pos (by omega), List.getD_eq_getElem?_getD, here, Option.getD_some]

/-- The indications that may come before a frame: an abort and a hunt. -/
def Indication (cc : Byte) : Prop := cc = 0xb0 ∨ cc = 0xb2

theorem Got.indication {s : Rcv} (has : Got s [] true) {cc : Byte} (indication : Indication cc)
    (few : s.aborts + [cc].count 0xb0 < 6) :
    ∃ s', s.receive cc = some (.next s') ∧ Got s' [] false ∧ Goes s s' ∧
      s'.aborts = s.aborts + [cc].count 0xb0 := by
  have empty : ∀ {pool : Buffer} (j : Nat) (data : Byte), ([] : List Byte)[j]? = some data →
      pool j = data := fun _ _ here => nomatch here
  rw [has.command cc (Nat.zero_le _)]
  obtain rfl | rfl := indication
  · have count : [(0xb0 : Byte)].count 0xb0 = 1 := rfl
    rw [count] at few ⊢
    unfold Rcv.command
    rw [if_neg (by decide), if_pos rfl]
    dsimp only [Option.bind_some]
    rw [if_neg (by omega)]
    dsimp only
    rw [Rcv.check_next]
    · exact ⟨_, rfl, ⟨rfl, empty, rfl, has.endless⟩, ⟨rfl, rfl, rfl⟩, rfl⟩
    · exact has.endless
    · exact Nat.zero_le _
  · unfold Rcv.command
    rw [if_neg (by decide), if_neg (by decide), if_neg (by decide), if_neg (by decide),
      if_neg (by decide), if_pos rfl]
    dsimp only [Option.bind_some]
    rw [Rcv.check_next]
    · exact ⟨_, rfl, ⟨rfl, empty, rfl, has.endless⟩, ⟨rfl, rfl, rfl⟩, rfl⟩
    · exact has.endless
    · exact Nat.zero_le _

/-- A frame that can be sent: its first byte is no special one, and it is not a pair of flags. -/
structure Sendable (frame : List Byte) : Prop where
  address : ∀ data ∈ frame.head?, ¬ Special data
  long : 2 ≤ frame.length
  fits : frame.length ≤ DATA_SIZE + 2
  valid : ¬ (frame[0]? = some 0xff ∧ frame[1]? = some 0xff)

theorem Got.finish {s : Rcv} {frame : List Byte} (has : Got s frame true)
    (sendable : Sendable frame) :
    ∃ s', s.receive 0xb1 = some (.finish s' 0) ∧ s'.i = frame.length ∧
      ∀ j data, frame[j]? = some data → s'.ciPool j = data := by
  have long := sendable.long
  have short : frame.length ≤ 2050 := sendable.fits
  have zero : frame[0]? = some frame[0] := List.getElem?_eq_getElem (by omega)
  have one : frame[1]? = some frame[1] := List.getElem?_eq_getElem (by omega)
  have pool := has.update 0xb1
  have valid : ¬ (frame.length = 1 ∧ Function.update s.ciPool s.i 0xb1 0 = 0xff ∨
      2 ≤ frame.length ∧ Function.update s.ciPool s.i 0xb1 0 = 0xff ∧
        Function.update s.ciPool s.i 0xb1 1 = 0xff) := by
    rintro (⟨alone, -⟩ | ⟨-, first, second⟩)
    · omega
    · rw [pool 0 _ zero] at first
      rw [pool 1 _ one] at second
      exact sendable.valid ⟨by rw [zero, first], by rw [one, second]⟩
  have size : (if 2 ≤ frame.length + 2 then frame.length + 2 - 2 else frame.length + 2) =
      frame.length := by
    rw [if_pos (by omega), Nat.add_sub_cancel]
  rw [has.command 0xb1 sendable.fits]
  unfold Rcv.command
  rw [if_neg (by decide), if_neg (by decide), if_neg (by decide), if_neg (by decide),
    if_neg (by decide), if_neg (by decide), if_pos rfl]
  dsimp only [Option.bind_some]
  unfold Rcv.validFrame
  dsimp only
  rw [size, if_neg valid, if_neg (by omega)]
  unfold Rcv.check
  dsimp only
  rw [if_pos (Nat.le_refl _), if_pos (by simp only [FRAME_SIZE]; omega)]
  exact ⟨_, rfl, rfl, pool⟩

/-- The bytes of a frame behind some indications. -/
def sent (marks frame : List Byte) : List Byte :=
  marks.flatMap (fun cc => [0x19, cc]) ++ (packBytes frame ++ [0x19, 0xb1])

/-- The receiver awaits the last of these bytes. -/
inductive Waits (frame : List Byte) : Rcv → List Byte → Prop
  | indications {s : Rcv} {marks : List Byte} : Got s [] false → (∀ cc ∈ marks, Indication cc) →
      s.aborts + marks.count 0xb0 < 6 → Waits frame s (sent marks frame)
  | indication {s : Rcv} {cc : Byte} {marks : List Byte} : Got s [] true →
      (∀ cc' ∈ cc :: marks, Indication cc') → s.aborts + (cc :: marks).count 0xb0 < 6 →
      Waits frame s (cc :: sent marks frame)
  | data {s : Rcv} {got rest : List Byte} : Got s got false → got ≠ [] → got ++ rest = frame →
      Waits frame s (packBytes rest ++ [0x19, 0xb1])
  | code {s : Rcv} {got data rest : List Byte} {cc : Byte} : Got s got true → got ≠ [] →
      codes.lookup cc = some data → got ++ (data ++ rest) = frame →
      Waits frame s (cc :: (packBytes rest ++ [0x19, 0xb1]))
  | last {s : Rcv} : Got s frame true → Waits frame s [0xb1]

theorem Got.timed {s : Rcv} {got : List Byte} {started : Bool} (has : Got s got started)
    (taskP2 tm02Remains : Nat) :
    Got { s with taskP2 := taskP2, tm02Remains := tm02Remains } got started :=
  ⟨has.size, has.bytes, has.flag, has.endless⟩

theorem Waits.timed {frame : List Byte} {s : Rcv} {bytes : List Byte} (waits : Waits frame s bytes)
    (taskP2 tm02Remains : Nat) :
    Waits frame { s with taskP2 := taskP2, tm02Remains := tm02Remains } bytes := by
  cases waits with
  | indications has marks few => exact .indications (has.timed _ _) marks few
  | indication has marks few => exact .indication (has.timed _ _) marks few
  | data has some split => exact .data (has.timed _ _) some split
  | code has some looked split => exact .code (has.timed _ _) some looked split
  | last has => exact .last (has.timed _ _)

theorem sent_cons (cc : Byte) (marks frame : List Byte) :
    sent (cc :: marks) frame = 0x19 :: cc :: sent marks frame := rfl

theorem Got.rest {s : Rcv} {got rest frame : List Byte} (has : Got s got false)
    (split : got ++ rest = frame) (sendable : Sendable frame) {cc : Byte} {later : List Byte}
    (bytes : packBytes rest ++ [0x19, 0xb1] = cc :: later) :
    ∃ s', s.receive cc = some (.next s') ∧ Waits frame s' later ∧ Goes s s' := by
  have room : got.length + rest.length ≤ DATA_SIZE + 2 := by
    rw [← List.length_append, split]
    exact sendable.fits
  cases rest with
  | nil =>
    cases bytes
    obtain ⟨s', received, has', goes, -⟩ := has.start (by omega)
    rw [List.append_nil] at split
    subst split
    exact ⟨s', received, .last has', goes⟩
  | cons first more =>
    obtain ⟨plain, packed⟩ | ⟨code, data, rest, special, whole, some, -, looked, packed⟩ :=
      packBytes_cases first more
    · rw [packed, List.cons_append, List.cons.injEq] at bytes
      obtain ⟨rfl, rfl⟩ := bytes
      rw [List.length_cons] at room
      obtain ⟨s', received, has', goes, -⟩ := has.plain
        (show first ≠ 0x19 from fun same => plain (.inr (.inr (.inl same)))) (by omega)
      refine ⟨s', received, .data has' (by simp) ?_, goes⟩
      rw [List.append_assoc, List.singleton_append, split]
    · rw [packed, List.cons_append, List.cons_append, List.cons.injEq] at bytes
      obtain ⟨rfl, rfl⟩ := bytes
      have started : got ≠ [] := by
        rintro rfl
        subst split
        exact sendable.address first rfl special
      obtain ⟨s', received, has', goes, -⟩ := has.start (by omega)
      exact ⟨s', received, .code has' started looked (by rw [← whole, split]), goes⟩

/-- **A byte of a frame is received**: the receiver awaits the others, or it has the frame. -/
theorem Waits.receive {frame : List Byte} (sendable : Sendable frame) {s : Rcv} {cc : Byte}
    {later : List Byte} (waits : Waits frame s (cc :: later)) :
    (∃ s', s.receive cc = some (.next s') ∧ Waits frame s' later ∧ Goes s s') ∨
    later = [] ∧ ∃ s', s.receive cc = some (.finish s' 0) ∧ s'.i = frame.length ∧
      ∀ j data, frame[j]? = some data → s'.ciPool j = data := by
  generalize whole : cc :: later = bytes at waits
  cases waits with
  | @indications marks has known few =>
    cases marks with
    | nil => exact .inl (has.rest rfl sendable whole.symm)
    | cons mark rest =>
      rw [sent_cons] at whole
      cases whole
      obtain ⟨s', received, has', goes, aborts⟩ := has.start (Nat.zero_le _)
      exact .inl ⟨s', received, .indication has' known (by rw [aborts]; exact few), goes⟩
  | @indication mark marks has known few =>
    cases whole
    have count : (cc :: marks).count 0xb0 = [cc].count 0xb0 + marks.count 0xb0 :=
      show ([cc] ++ marks).count 0xb0 = _ from List.count_append
    rw [count] at few
    obtain ⟨s', received, has', goes, aborts⟩ :=
      has.indication (known cc List.mem_cons_self) (by omega)
    refine .inl ⟨s', received, .indications has'
      (fun other member => known other (List.mem_cons_of_mem _ member)) ?_, goes⟩
    rw [aborts]
    omega
  | data has some split => exact .inl (has.rest split sendable whole.symm)
  | @code got data rest _ has some looked split =>
    cases whole
    have room : got.length + data.length ≤ DATA_SIZE + 2 := by
      refine le_trans ?_ sendable.fits
      rw [← split, List.length_append, List.length_append]
      omega
    obtain ⟨s', received, has', goes, -⟩ := has.code looked some room
    refine .inl ⟨s', received, .data has' (by simp [some]) ?_, goes⟩
    rw [List.append_assoc, split]
  | last has =>
    cases whole
    exact .inr ⟨rfl, has.finish sendable⟩

theorem Waits.ne_nil {frame : List Byte} {s : Rcv} {bytes : List Byte}
    (waits : Waits frame s bytes) : bytes ≠ [] := by
  cases waits <;> simp [sent]

theorem Waits.suspends {frame : List Byte} (sendable : Sendable frame) {s : Rcv}
    {bytes later : List Byte} (waits : Waits frame s (bytes ++ later)) (more : later ≠ [])
    (inTime : bytes = [] → s.tm02Remains ≠ 0) (positive : s.timeout ≠ 0) :
    ∃ s', s.loop bytes = some ((0, s'), []) ∧ Waits frame s' later ∧ s'.taskP2 = 1 ∧
      s'.timeout = s.timeout ∧
        s'.tm02Remains = if bytes = [] then s.tm02Remains else s.timeout := by
  induction bytes generalizing s with
  | nil =>
    refine ⟨{ s with taskP2 := 1 }, ?_, waits.timed 1 s.tm02Remains, rfl, rfl, rfl⟩
    unfold Rcv.loop
    rw [if_neg (inTime rfl)]
  | cons cc rest past =>
    obtain ⟨s₁, received, waits', goes⟩ | ⟨last, -⟩ := waits.receive sendable
    · obtain ⟨s', loops, waits'', busy, timeout, timer⟩ := past waits'
        (fun _ => by rw [goes.timer]; exact positive) (by rw [goes.timeout]; exact positive)
      refine ⟨s', ?_, waits'', busy, timeout.trans goes.timeout, ?_⟩
      · unfold Rcv.loop
        rw [received]
        exact loops
      · rw [if_neg (List.cons_ne_nil _ _), timer, goes.timer, goes.timeout]
        exact ite_self _
    · exact absurd (List.append_eq_nil_iff.mp last).2 more

/-- The receiver has a frame: it returned and left the frame and its length. -/
structure HasFrame (s : Rcv) (frame : List Byte) : Prop where
  returned : s.taskP2 = 0
  dlen : s.dlen = frame.length
  pool : ∀ j data, frame[j]? = some data → s.framePool j = data

theorem Waits.finishes {frame : List Byte} (sendable : Sendable frame) {s : Rcv}
    {bytes : List Byte} (waits : Waits frame s bytes) :
    ∃ s', s.loop bytes = some ((0, s'), []) ∧ HasFrame s' frame := by
  induction bytes generalizing s with
  | nil => exact absurd rfl waits.ne_nil
  | cons cc rest past =>
    unfold Rcv.loop
    obtain ⟨s₁, received, waits', -⟩ | ⟨rfl, s₁, received, size, pool⟩ := waits.receive sendable
    · rw [received]
      exact past waits'
    · have room : s₁.i < FRAME_SIZE := by
        rw [size]
        exact sendable.fits.trans_lt (by decide)
      rw [received]
      dsimp only [Option.bind_eq_bind, Option.bind_some]
      unfold Rcv.rEnd
      rw [if_pos room]
      refine ⟨_, rfl, rfl, size, fun j data here => ?_⟩
      have below : j < s₁.i := by
        rw [size]
        exact (List.getElem?_eq_some_iff.mp here).1
      dsimp only
      rw [Function.update_of_ne (by omega), if_pos below]
      exact pool j data here

/-! ## Runs -/

/-- Calls that return while the receiver waits for more. -/
def Suspended : Rcv → List Call → Rcv → Prop
  | s, [], s' => s' = s
  | s, call :: rest, s' => ∃ mid, stepRcvV80Cmd call.longWait call.isHalfDuplex s call.bytes =
      some ((0, mid), []) ∧ mid.taskP2 = 1 ∧ Suspended (mid.elapse call.ticks) rest s'

/-- The gaps between the bytes are below the timeout. -/
def GapsBelow (timeout : Nat) : Nat → List Call → Prop
  | _, [] => True
  | left, call :: rest => call.ticks < (if call.bytes = [] then left else timeout) ∧
      GapsBelow timeout ((if call.bytes = [] then left else timeout) - call.ticks) rest

/-- The timeout that the first of some calls sets. -/
def firstTimeout : List Call → Nat
  | [] => 0
  | call :: _ => rcvTimeout call.longWait call.isHalfDuplex

theorem Waits.run {frame : List Byte} (sendable : Sendable frame) {s : Rcv} {calls : List Call}
    {last : Call} (waits : Waits frame s ((calls ++ [last]).flatMap Call.bytes))
    (busy : s.taskP2 = 1) (positive : s.timeout ≠ 0) (gaps : GapsBelow s.timeout s.tm02Remains calls)
    (some : last.bytes ≠ []) :
    ∃ mid s', Suspended s calls mid ∧
      stepRcvV80Cmd last.longWait last.isHalfDuplex mid last.bytes = .some ((0, s'), []) ∧
      HasFrame s' frame := by
  induction calls generalizing s with
  | nil =>
    rw [List.nil_append, List.flatMap_singleton] at waits
    obtain ⟨s', loops, has⟩ := waits.finishes sendable
    refine ⟨s, s', rfl, ?_, has⟩
    unfold stepRcvV80Cmd
    rw [if_pos busy]
    exact loops
  | cons call rest past =>
    rw [List.cons_append, List.flatMap_cons] at waits
    have more : (rest ++ [last]).flatMap Call.bytes ≠ [] := by
      simp [some]
    obtain ⟨below, later⟩ := gaps
    obtain ⟨mid, loops, waits', busy', timeout, timer⟩ := waits.suspends sendable more
      (fun empty zero => by rw [if_pos empty, zero] at below; exact Nat.not_lt_zero _ below) positive
    have elapsed : Waits frame (mid.elapse call.ticks) ((rest ++ [last]).flatMap Call.bytes) := by
      have timed := waits'.timed mid.taskP2 (mid.tm02Remains - call.ticks)
      exact timed
    have gaps' : GapsBelow (mid.elapse call.ticks).timeout (mid.elapse call.ticks).tm02Remains
        rest := by
      change GapsBelow mid.timeout (mid.tm02Remains - call.ticks) rest
      rw [timeout, timer]
      exact later
    obtain ⟨mid', s', suspended, finishes, has⟩ := past elapsed busy'
      (show mid.timeout ≠ 0 by rw [timeout]; exact positive) gaps'
    refine ⟨mid', s', ⟨mid, ?_, busy', suspended⟩, finishes, has⟩
    unfold stepRcvV80Cmd
    rw [if_pos busy]
    exact loops

theorem start_waits (s : Rcv) (longWait isHalfDuplex : Bool) {marks frame : List Byte}
    (known : ∀ cc ∈ marks, Indication cc) (few : marks.count 0xb0 < 6) :
    Waits frame (s.start longWait isHalfDuplex) (sent marks frame) :=
  .indications ⟨rfl, fun _ _ here => (nomatch here), rfl, rfl⟩ known
    (by rw [show (s.start longWait isHalfDuplex).aborts = 0 from rfl, Nat.zero_add]; exact few)

theorem rcvTimeout_ne_zero (longWait isHalfDuplex : Bool) :
    rcvTimeout longWait isHalfDuplex ≠ 0 := by
  cases longWait <;> cases isHalfDuplex <;> decide

theorem frame_received {frame : List Byte} (sendable : Sendable frame) {marks : List Byte}
    (known : ∀ cc ∈ marks, Indication cc) (few : marks.count 0xb0 < 6) {s : Rcv}
    (idle : s.taskP2 = 0) {calls : List Call} {last : Call}
    (bytes : (calls ++ [last]).flatMap Call.bytes = sent marks frame) (some : last.bytes ≠ [])
    (gaps : GapsBelow (firstTimeout calls) (firstTimeout calls) calls) :
    ∃ mid s', Suspended s calls mid ∧
      stepRcvV80Cmd last.longWait last.isHalfDuplex mid last.bytes = .some ((0, s'), []) ∧
      HasFrame s' frame := by
  have fresh : ¬ s.taskP2 = 1 := by rw [idle]; decide
  cases calls with
  | nil =>
    rw [List.nil_append, List.flatMap_singleton] at bytes
    have waits : Waits frame _ _ := start_waits s last.longWait last.isHalfDuplex known few
    rw [← bytes] at waits
    obtain ⟨s', loops, has⟩ := waits.finishes sendable
    refine ⟨s, s', rfl, ?_, has⟩
    unfold stepRcvV80Cmd
    rw [if_neg fresh]
    exact loops
  | cons call rest =>
    have waits : Waits frame _ _ := start_waits s call.longWait call.isHalfDuplex known few
    rw [← bytes, List.cons_append, List.flatMap_cons] at waits
    have more : (rest ++ [last]).flatMap Call.bytes ≠ [] := by
      simp [some]
    have positive := rcvTimeout_ne_zero call.longWait call.isHalfDuplex
    obtain ⟨-, later⟩ := gaps
    obtain ⟨mid, loops, waits', busy, timeout, timer⟩ :=
      waits.suspends sendable more (fun _ => positive) positive
    have elapsed : Waits frame (mid.elapse call.ticks) ((rest ++ [last]).flatMap Call.bytes) :=
      waits'.timed mid.taskP2 (mid.tm02Remains - call.ticks)
    have gaps' : GapsBelow (mid.elapse call.ticks).timeout (mid.elapse call.ticks).tm02Remains
        rest := by
      change GapsBelow mid.timeout (mid.tm02Remains - call.ticks) rest
      rw [timeout, timer]
      exact later
    obtain ⟨mid', s', suspended, finishes, has⟩ := elapsed.run sendable busy
      (show mid.timeout ≠ 0 by rw [timeout]; exact positive) gaps' some
    refine ⟨mid', s', ⟨mid, ?_, busy, suspended⟩, finishes, has⟩
    unfold stepRcvV80Cmd
    rw [if_neg fresh]
    exact loops

/-- The control bytes of the frames: RR, information frames, UA and SNRM. -/
def Generated (ctrl : Byte) : Prop :=
  (∃ nr < 8, ctrl = BitVec.ofNat 8 ((nr <<< 5) + 0x11)) ∨
  (∃ nr < 8, ∃ ns < 8, ctrl = BitVec.ofNat 8 ((nr <<< 5) + 0x10 + (ns <<< 1))) ∨
  ctrl = 0x73 ∨ ctrl = 0x93

theorem Generated.ne_flag {ctrl : Byte} (generated : Generated ctrl) : ctrl ≠ 0xff := by
  obtain ⟨nr, below, rfl⟩ | ⟨nr, below, ns, below', rfl⟩ | rfl | rfl := generated
  · interval_cases nr <;> decide
  · interval_cases nr <;> interval_cases ns <;> decide
  · decide
  · decide

/-- **The V.80 codes round trip**: what is packed fits its pool, holds special bytes only as the
start of codes, and is received as the frame that was packed, whatever indications come before it
and whatever calls its bytes are spread over; no bytes lead the receiver outside its pools. -/
theorem v80_roundTrip {frameAddress ctrl : Byte} {inData : List Byte}
    (address : frameAddress = 0x30 ∨ frameAddress = 0xff) (generated : Generated ctrl)
    (fits : inData.length ≤ DATA_SIZE) :
    ((packSdlcV80 frameAddress ctrl inData).length ≤ POOL_SIZE ∧
      Coded (packSdlcV80 frameAddress ctrl inData) ∧
      ∀ data ∈ packSdlcV80 frameAddress ctrl inData, data ≠ 0x11 ∧ data ≠ 0x13 ∧ data ≠ 0x99) ∧
    (∀ (marks : List Byte) (calls : List Call) (last : Call) (s : Rcv),
      (∀ cc ∈ marks, Indication cc) → marks.count 0xb0 < 6 → s.taskP2 = 0 →
      (calls ++ [last]).flatMap Call.bytes =
        marks.flatMap (fun cc => [0x19, cc]) ++ packSdlcV80 frameAddress ctrl inData →
      last.bytes ≠ [] → GapsBelow (firstTimeout calls) (firstTimeout calls) calls →
      ∃ mid s', Suspended s calls mid ∧
        stepRcvV80Cmd last.longWait last.isHalfDuplex mid last.bytes = some ((0, s'), []) ∧
        HasFrame s' (frameAddress :: ctrl :: inData)) ∧
    ∀ (s : Rcv) (calls : List Call), s.taskP2 = 0 → ∃ s', calls.foldlM Call.run s = some s' := by
  have coded := packSdlcV80_coded frameAddress ctrl inData
  refine ⟨⟨packSdlcV80_length _ _ _, coded, coded.absent⟩, ?_, ?_⟩
  · intro marks calls last s known few idle bytes some gaps
    have sendable : Sendable (frameAddress :: ctrl :: inData) := by
      refine ⟨?_, Nat.le_add_left 2 _, Nat.add_le_add_right fits 2, ?_⟩
      · rintro data ⟨⟩
        obtain rfl | rfl := address <;> decide
      · rintro ⟨-, flag⟩
        exact generated.ne_flag (Option.some.inj flag)
    have whole : xpool frameAddress ctrl inData = frameAddress :: ctrl :: inData := by
      rw [xpool, List.take_of_length_le (fits.trans (by decide))]
    refine frame_received sendable known few idle ?_ some gaps
    rw [bytes, packSdlcV80, whole]
    rfl
  · intro s calls idle
    have start : Bounded s := fun busy => by rw [idle] at busy; cases busy
    obtain ⟨s', runs, -⟩ : ∃ s', calls.foldlM Call.run s = some s' ∧ Bounded s' := by
      clear idle
      induction calls generalizing s with
      | nil => exact ⟨s, rfl, start⟩
      | cons call rest past =>
        obtain ⟨mid, runs, bounded⟩ := start.call call
        obtain ⟨s', runs', bounded'⟩ := past mid bounded
        refine ⟨s', ?_, bounded'⟩
        rw [List.foldlM_cons, runs]
        exact runs'
    exact ⟨s', runs⟩

/-- A receiver before its first call. -/
def idleRcv : Rcv where
  taskP2 := 0
  i := 0
  emFound := false
  huntFlag := false
  wantDlen := 0
  aborts := 0
  timeout := 0
  cmdType := 0
  tm02Remains := 0
  ciPool := fun _ => 0
  framePool := fun _ => 0
  dlen := 0

/-- The first and the second call of a receiver between which a code is cut. -/
def firstCall : Call where
  longWait := true
  isHalfDuplex := false
  bytes := [0x19, 0xb2, 0x30, 0x19]
  ticks := 5

def secondCall : Call where
  longWait := true
  isHalfDuplex := false
  bytes := [0xaa, 0x19, 0xb1]
  ticks := 0

/-- A frame of special bytes is received in two calls. -/
theorem v80_roundTrip_twoCalls : ∃ mid s', Suspended idleRcv [firstCall] mid ∧
    stepRcvV80Cmd true false mid secondCall.bytes = some ((0, s'), []) ∧
      HasFrame s' [0x30, 0x11, 0x19] :=
  (@v80_roundTrip 0x30 0x11 [0x19] (.inl rfl) (.inl ⟨0, by decide, by decide⟩) (by decide)).2.1
    [0xb2] [firstCall] secondCall idleRcv (by simp [Indication]) (by decide) rfl (by decide)
    (by decide) ⟨by decide, trivial⟩

end PosFirmware.Modem
