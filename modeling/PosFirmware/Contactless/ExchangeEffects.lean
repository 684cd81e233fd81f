import PosFirmware.Contactless.Exchange

/-!
# What the contactless exchange leaves behind

The frame waiting time is multiplied before a block that answers a waiting time request
and divided back after it. Two exits lie between the two, the product wraps at 32 bits,
and nothing compares the response with the room of the caller. A run in which none of
the three happens leaves the waiting time as it was and stays inside the buffers
(`exchange_intact`).
-/

namespace PosFirmware.Contactless

open PosFirmware.Foundation

variable {para : PiccPara} {pcd : PcdInfo} {command : List Byte} {answers : Nat → Answer}

/-- The link parameters and the memory around the exchange, in every state of it. -/
structure Intact (fwt : UInt32) (capacity : Nat) (o : Outcome Exchange) : Prop where
  /-- After the exchange the frame waiting time is the one before. -/
  waiting : ∀ code s, o = .returned code s → s.pcd.uiFwt = fwt
  /-- The block built fits the transmit buffer. -/
  frame : o.state.txBuf.length ≤ 256
  /-- The response stored fits the buffer of the caller. -/
  response : o.state.des.length ≤ capacity

/-- A round that neither leaves nor overflows a multiplied waiting time, and has room for
the information of the block it accepts. -/
structure Careful (para : PiccPara) (capacity : Nat) (answer : Answer) (s : Exchange) : Prop where
  /-- The user and the limit end the exchange only with the plain waiting time. -/
  stops : s.step = .orgTraRcv → ¬ 59 < s.uiWtx → Stops para answer s → s.uiWtx = 1
  /-- The multiplied waiting time does not wrap. -/
  product : s.step = .orgTraRcv → ¬ 59 < s.uiWtx →
    s.uiWtx.toNat * s.pcd.uiFwt.toNat < 2 ^ 32
  /-- There is room for the information of an accepted I-block. -/
  room : s.step = .rcvIBlock → s.iTxNum = 0 → sameNumber s = true →
    s.des.length + (information s).length ≤ capacity

instance (para : PiccPara) (answer : Answer) (s : Exchange) : Decidable (Stops para answer s) :=
  inferInstanceAs (Decidable (_ ∧ _ ∨ _ ∧ _))

instance (para : PiccPara) (capacity : Nat) (answer : Answer) (s : Exchange) :
    Decidable (Careful para capacity answer s) :=
  decidable_of_iff
    ((s.step = .orgTraRcv → ¬ 59 < s.uiWtx → Stops para answer s → s.uiWtx = 1) ∧
      (s.step = .orgTraRcv → ¬ 59 < s.uiWtx → s.uiWtx.toNat * s.pcd.uiFwt.toNat < 2 ^ 32) ∧
      (s.step = .rcvIBlock → s.iTxNum = 0 → sameNumber s = true →
        s.des.length + (information s).length ≤ capacity))
    ⟨fun ⟨stops, product, room⟩ => ⟨stops, product, room⟩,
      fun careful => ⟨careful.stops, careful.product, careful.room⟩⟩

/-- What careful rounds keep. -/
structure Kept (fwt : UInt32) (capacity : Nat) (s : Exchange) : Prop where
  /-- The waiting time between two rounds. -/
  fwt : s.pcd.uiFwt = fwt
  /-- The multiplier. -/
  wtx : s.uiWtx ≠ 0
  /-- The frame size. -/
  fsc : 16 ≤ s.pcd.uiFsc ∧ s.pcd.uiFsc ≤ 256
  /-- The block built. -/
  frame : s.txBuf.length ≤ 256
  /-- The response. -/
  response : s.des.length ≤ capacity

theorem fwt_restored {wtx fwt : UInt32} (positive : wtx ≠ 0)
    (product : wtx.toNat * fwt.toNat < 2 ^ 32) : wtx * fwt / wtx = fwt := by
  have some : 0 < wtx.toNat := by
    rcases Nat.eq_zero_or_pos wtx.toNat with zero | some
    · exact absurd (UInt32.toNat_inj.mp zero) positive
    · exact some
  apply UInt32.toNat_inj.mp
  rw [UInt32.toNat_div, UInt32.toNat_mul, Nat.mod_eq_of_lt product, Nat.mul_div_cancel_left _ some]

theorem iTxLmt_add {pcd : PcdInfo} (fsc : 16 ≤ pcd.uiFsc) :
    iTxLmt pcd + (cidField pcd ++ nadField pcd).length + 3 = pcd.uiFsc := by
  rw [List.length_append, cidField, nadField, iTxLmt]
  split <;> split <;> simp only [List.length_cons, List.length_nil] <;> omega

theorem orgIBlock_frame {s : Exchange} (fsc : 16 ≤ s.pcd.uiFsc) :
    (orgIBlock command s).txBuf.length + 2 ≤ s.pcd.uiFsc := by
  have whole := iTxLmt_add fsc
  have chunk : ∀ cn, cn ≤ iTxLmt s.pcd →
      ((command.drop s.src).take cn).length ≤ iTxLmt s.pcd := by
    intro cn small
    rw [List.length_take]
    omega
  have small : (if iTxLmt s.pcd < s.iTxNum then iTxLmt s.pcd else s.iTxNum) ≤
      iTxLmt s.pcd := by
    split <;> omega
  have bound := chunk _ small
  simp only [orgIBlock, List.length_cons]
  rw [List.length_append]
  omega

theorem orgRBlock_frame (control : Byte) (s : Exchange) :
    (orgRBlock control s).txBuf.length ≤ 2 := by
  simp only [orgRBlock, cidField, List.length_cons]
  split <;> simp

theorem Kept.traRcv {fwt : UInt32} {capacity : Nat} {answer : Answer} {s after : Exchange}
    (kept : Kept fwt capacity s) (stage : s.step = .orgTraRcv)
    (careful : Careful para capacity answer s) (ends : TraRcv para answer s after) :
    Kept fwt capacity after := by
  -- a waiting time that is divided back is the one before
  have restored : ¬ 59 < s.uiWtx → s.uiWtx * s.pcd.uiFwt / s.uiWtx = fwt := fun small => by
    rw [fwt_restored kept.wtx (careful.product stage small), kept.fwt]
  cases ends with
  | protocolError large => exact ⟨kept.fwt, kept.wtx, kept.fsc, kept.frame, kept.response⟩
  | left rev small stops =>
    refine ⟨?_, kept.wtx, kept.fsc, kept.frame, kept.response⟩
    have one := careful.stops stage small stops
    change s.uiWtx * s.pcd.uiFwt = fwt
    rw [one, UInt32.one_mul, kept.fwt]
  | failed small goes error =>
    exact ⟨restored small, by simp [restoreFwt], kept.fsc, kept.frame, kept.response⟩
  | unknown small goes error code =>
    exact ⟨restored small, by simp [restoreFwt], kept.fsc, kept.frame, kept.response⟩
  | block small goes good sorted =>
    cases sorted <;>
      exact ⟨restored small, by simp [restoreFwt], kept.fsc, kept.frame, kept.response⟩

theorem Kept.rBlock {fwt : UInt32} {capacity : Nat} {s : Exchange} (kept : Kept fwt capacity s) :
    Kept fwt capacity (rcvRBlock s) := by
  obtain ⟨same, wtx, fsc, frame, response⟩ := kept
  unfold rcvRBlock
  dsimp only
  split
  · exact ⟨same, wtx, fsc, frame, response⟩
  · split
    · split <;> exact ⟨same, wtx, fsc, frame, response⟩
    · split <;> exact ⟨same, wtx, fsc, frame, response⟩

theorem Kept.sBlock {fwt : UInt32} {capacity : Nat} {s : Exchange} (kept : Kept fwt capacity s) :
    Kept fwt capacity (rcvSBlock s) := by
  obtain ⟨same, wtx, fsc, frame, response⟩ := kept
  unfold rcvSBlock
  split
  · exact ⟨same, wtx, fsc, frame, response⟩
  · split
    · exact ⟨same, wtx, fsc, frame, response⟩
    · next some =>
      refine ⟨same, ?_, fsc, frame, response⟩
      intro zero
      refine some (BitVec.eq_of_toNat_eq ?_)
      have value := congrArg UInt32.toNat zero
      have small := requestedWtx_lt s
      simp only [extendWait] at value
      rw [UInt32.toNat_ofNat', Nat.mod_eq_of_lt (by omega)] at value
      exact value

theorem Kept.iBlock {fwt : UInt32} {capacity : Nat} {s : Exchange} (kept : Kept fwt capacity s)
    (room : s.iTxNum = 0 → sameNumber s = true →
      s.des.length + (information s).length ≤ capacity) :
    Kept fwt capacity (rcvIBlock s) := by
  obtain ⟨same, wtx, fsc, frame, response⟩ := kept
  unfold rcvIBlock
  split
  · exact ⟨same, wtx, fsc, frame, response⟩
  · next done =>
    split
    · next number =>
      refine ⟨same, wtx, fsc, frame, ?_⟩
      rw [List.length_append]
      exact room (not_not.mp done) number
    · exact ⟨same, wtx, fsc, frame, response⟩

/-- **A careful round** keeps it. -/
theorem Kept.round {fwt : UInt32} {capacity : Nat} {answer : Answer} {s : Exchange}
    (kept : Kept fwt capacity s) (careful : Careful para capacity answer s) :
    Kept fwt capacity (exchangeBody para command answer s) := by
  unfold exchangeBody
  split <;> rename_i stage
  · refine ⟨kept.fwt, kept.wtx, kept.fsc, ?_, kept.response⟩
    have fits := @orgIBlock_frame command s kept.fsc.1
    have fsc := kept.fsc.2
    omega
  · exact ⟨kept.fwt, kept.wtx, kept.fsc, (orgRBlock_frame 0xA2 s).trans (by omega), kept.response⟩
  · exact ⟨kept.fwt, kept.wtx, kept.fsc, (orgRBlock_frame 0xB2 s).trans (by omega), kept.response⟩
  · exact ⟨kept.fwt, kept.wtx, kept.fsc, by simp [orgSBlock], kept.response⟩
  · exact kept.traRcv stage careful (orgTraRcv_spec para answer s)
  · exact kept.iBlock (careful.room stage)
  · exact kept.rBlock
  · exact kept.sBlock
  · exact ⟨kept.fwt, kept.wtx, kept.fsc, kept.frame, kept.response⟩
  · exact kept

/-- **A careful exchange leaves no trace**: it gives back the frame waiting time, builds
blocks that fit the transmit buffer for every frame size a card announces, and stores no
more of the response than the caller has room for. -/
theorem exchange_intact (para : PiccPara) (pcd : PcdInfo) (command : List Byte)
    (rxBuf : Nat → Byte) (answers : Nat → Answer) (capacity index rounds : Nat)
    (announced : pcd.uiFsc = getMaxFrameSize index)
    (careful : ∀ k s, k < rounds → exchange para pcd command rxBuf answers k = .running s →
      Careful para capacity (answers s.transceptions) s) :
    Intact pcd.uiFwt capacity (exchange para pcd command rxBuf answers rounds) := by
  suffices kept : Kept pcd.uiFwt capacity
      (exchange para pcd command rxBuf answers rounds).state by
    refine ⟨?_, kept.frame, kept.response⟩
    intro code s returned
    rw [returned] at kept
    exact kept.fwt
  have sizes : ∀ size ∈ maxFrameSizeTable, 16 ≤ size ∧ size ≤ 256 := by decide
  have size : 16 ≤ pcd.uiFsc ∧ pcd.uiFsc ≤ 256 := by
    rw [announced, getMaxFrameSize, List.getD_eq_getElem?_getD]
    cases entry : maxFrameSizeTable[index]? with
    | none => exact ⟨by decide, by decide⟩
    | some size => exact sizes size (List.mem_of_getElem? entry)
  induction rounds with
  | zero =>
    refine ⟨rfl, by simp [exchange, startExchange], ?_, by simp [exchange, startExchange],
      by simp [exchange, startExchange]⟩
    simp only [exchange, Outcome.run_zero, Outcome.state_running, startExchange]
    rw [if_neg (by omega)]
    exact size
  | succ rounds past =>
    have before := past fun k s early => careful k s (by omega)
    unfold exchange at before careful ⊢
    rw [Outcome.run_succ]
    cases reached : Outcome.run (exchangeStep para command answers)
        (.running (startExchange pcd command rxBuf)) rounds with
    | returned code s =>
      rw [reached] at before
      exact before
    | running s =>
      rw [reached] at before
      have round : Kept pcd.uiFwt capacity
          (exchangeBody para command (answers s.transceptions) s) :=
        Kept.round before (careful rounds s (by omega) reached)
      rw [Outcome.next_running, exchangeStep]
      split <;> exact round

/-- A card that answers the first block with two bytes. -/
def promptCard : Nat → Answer := fun _ =>
  { rev := 0, num := 3, data := fun i => [0x02, 0x90, 0x00].getD i 0, cancelKey := false }

/-- An exchange with room for the response leaves no trace. -/
theorem exchange_intact_prompt :
    Intact freshPcd.uiFwt 2 (exchange plainPara freshPcd [0x00] (fun _ => 0) promptCard 3) := by
  refine exchange_intact plainPara freshPcd [0x00] (fun _ => 0) promptCard 2 2 3 rfl ?_
  have checked : ∀ k < 3,
      (match exchange plainPara freshPcd [0x00] (fun _ => 0) promptCard k with
      | .running s => decide (Careful plainPara 2 (promptCard s.transceptions) s)
      | .returned _ _ => true) = true := by
    decide +kernel
  intro k s early reached
  have careful := checked k early
  rw [reached] at careful
  exact of_decide_eq_true careful

/-- A key cancels the exchange. -/
def cancelPara : PiccPara := { plainPara with userControl := true }

/-- A card that asks for twice the waiting time, and a user who cancels during it. -/
def cancelledCard : Nat → Answer := fun n =>
  { rev := 0
    num := 2
    data := fun i => [0xF2, 0x02].getD i 0
    cancelKey := n = 1 }

/-- **Traces an exchange leaves**: a doubled waiting time after the user cancelled, and a
response of two bytes in a buffer of one. -/
theorem exchange_leavesTraces :
    ¬ Intact freshPcd.uiFwt 1
      (exchange cancelPara freshPcd [0x00] (fun _ => 0) cancelledCard 6) ∧
    ¬ Intact freshPcd.uiFwt 1
      (exchange plainPara freshPcd [0x00] (fun _ => 0) promptCard 3) := by
  constructor
  · intro intact
    have doubled : (match exchange cancelPara freshPcd [0x00] (fun _ => 0) cancelledCard 6 with
      | .running _ => false
      | .returned _ s => decide (s.pcd.uiFwt = 200)) = true := by
      decide +kernel
    cases reached : exchange cancelPara freshPcd [0x00] (fun _ => 0) cancelledCard 6 with
    | running s =>
      rw [reached] at doubled
      cases doubled
    | returned code s =>
      rw [reached] at doubled
      have same := intact.waiting code s reached
      rw [of_decide_eq_true doubled] at same
      exact absurd same (by decide)
  · intro intact
    exact absurd intact.response (by decide +kernel)

end PosFirmware.Contactless
