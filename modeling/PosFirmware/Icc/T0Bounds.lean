import PosFirmware.Icc.T0Exchange

/-! # Bounds of the exchange under T=0

A complemented instruction byte is answered with one byte of data even after the
transfer is complete: the test before it compares the pointer with the size of the
array and not with what is left. The exchange stays inside its buffers and lengths
exactly when every complemented instruction byte finds something left to transfer
(`t0_withinBounds_iff`); a command with one byte of data and two complemented
instruction bytes already breaks it (`t0_withinBounds_broken`).
-/

namespace PosFirmware.Icc

open PosFirmware.Foundation

/-! ## What the claim asks for -/

/-- The exchange has stayed inside its buffers and lengths: it transmitted at most
`lc` bytes of data, all from inside the request, wrote at most 256 bytes of data,
all inside the response, and its counters are not negative. -/
structure T0State.WithinBounds (lc : Nat) (s : T0State) : Prop where
  sent : s.reads.length ≤ lc
  readsInside : ∀ i ∈ s.reads, 0 ≤ i ∧ i < MAX_APDU_SIZE
  stored : s.stores.length ≤ 256
  storesInside : ∀ i ∈ s.stores, 0 ≤ i ∧ i < MAX_APDU_SIZE
  txResidual : 0 ≤ s.txResidual
  rxResidual : 0 ≤ s.rxResidual

/-- When the terminal answers a complemented instruction byte, something is left to
transfer, or the card does not send the byte it announced. -/
def T0State.TransferOpen (card : Nat → Reception) (s : T0State) : Prop :=
  s.event = .invinsProc →
    if s.cmdCase < 3 then 0 < s.rxResidual ∨ (sciQueueSpill 0 card 1 s.rxout).result ≠ 0
    else 0 < s.txResidual

/-! ## The invariant of a round -/

/-- The bytes of data still to be transmitted for the command in hand. -/
def T0State.toSend (s : T0State) : Int :=
  if s.event = .sendCmd then s.req.lc else s.txResidual

/-- The bounds, and how the pointers and counters go with what was transferred. -/
structure T0State.Counted (lc : Nat) (s : T0State) : Prop where
  bounds : s.WithinBounds lc
  small : lc ≤ 255
  ptx_eq : s.ptx = s.reads.length
  prx_eq : s.prx = s.stores.length
  budget : s.ptx + s.toSend ≤ lc

/-- What every round leaves. -/
def T0Kept (lc : Nat) : Outcome T0State → Prop
  | .running s => s.Counted lc
  | .returned _ s => s.WithinBounds lc

@[simp] theorem indicesFrom_length (start : Int) (count : Nat) :
    (indicesFrom start count).length = count := by
  simp [indicesFrom]

theorem mem_indicesFrom {start i : Int} {count : Nat} :
    i ∈ indicesFrom start count ↔ start ≤ i ∧ i < start + count := by
  simp only [indicesFrom, List.mem_map, List.mem_range]
  constructor
  · rintro ⟨offset, below, rfl⟩
    omega
  · rintro ⟨above, below⟩
    exact ⟨(i - start).toNat, by omega, by omega⟩

variable {lc : Nat} {s : T0State} {card : Nat → Reception}

theorem T0State.Counted.of_eq {s' : T0State} (counted : s.Counted lc)
    (reads : s'.reads = s.reads) (stores : s'.stores = s.stores) (ptx : s'.ptx = s.ptx)
    (prx : s'.prx = s.prx) (tx : 0 ≤ s'.txResidual) (rx : 0 ≤ s'.rxResidual)
    (toSend : s'.toSend ≤ s.toSend) : s'.Counted lc where
  bounds := ⟨reads ▸ counted.bounds.sent, reads ▸ counted.bounds.readsInside,
    stores ▸ counted.bounds.stored, stores ▸ counted.bounds.storesInside, tx, rx⟩
  small := counted.small
  ptx_eq := by rw [ptx, reads, counted.ptx_eq]
  prx_eq := by rw [prx, stores, counted.prx_eq]
  budget := by
    have budget := counted.budget
    omega

theorem T0State.Counted.of_quiet {s' : T0State} (counted : s.Counted lc)
    (event : s.event ≠ .sendCmd) (event' : s'.event ≠ .sendCmd) (reads : s'.reads = s.reads)
    (stores : s'.stores = s.stores) (ptx : s'.ptx = s.ptx) (prx : s'.prx = s.prx)
    (tx : s'.txResidual = s.txResidual) (rx : s'.rxResidual = s.rxResidual) : s'.Counted lc := by
  refine counted.of_eq reads stores ptx prx (tx ▸ counted.bounds.txResidual)
    (rx ▸ counted.bounds.rxResidual) ?_
  rw [T0State.toSend, T0State.toSend, if_neg event, if_neg event', tx]

theorem powerDump_kept {code : Int} (bounds : s.WithinBounds lc) : T0Kept lc (powerDump code s) :=
  ⟨bounds.sent, bounds.readsInside, bounds.stored, bounds.storesInside, bounds.txResidual,
    bounds.rxResidual⟩

theorem sendCmdEvent_kept (counted : s.Counted lc) (event : s.event = .sendCmd) :
    T0Kept lc (sendCmdEvent s) := by
  refine counted.of_eq rfl rfl rfl rfl ?_ ?_ ?_
  · exact Int.natCast_nonneg s.req.lc
  · dsimp only
    split_ifs <;> omega
  · simp [T0State.toSend, event]

theorem getProcedureEvent_kept (counted : s.Counted lc) (event : s.event = .getProcedure) :
    T0Kept lc (getProcedureEvent card s) := by
  have notSend : s.event ≠ .sendCmd := by simp [event]
  unfold getProcedureEvent
  dsimp only
  split_ifs
  · exact powerDump_kept ⟨counted.bounds.sent, counted.bounds.readsInside, counted.bounds.stored,
      counted.bounds.storesInside, counted.bounds.txResidual, counted.bounds.rxResidual⟩
  all_goals exact counted.of_quiet notSend (by simp) rfl rfl rfl rfl rfl rfl

/-- The state after bytes of the card were stored is inside the bounds, if there is
room for them. -/
theorem spillToResp_withinBounds {length : Nat} (counted : s.Counted lc)
    (room : s.prx + (sciQueueSpill 0 card length s.rxout).bytes.length ≤ 256) :
    (spillToResp card length s).2.WithinBounds lc := by
  have prx := counted.prx_eq
  refine ⟨counted.bounds.sent, counted.bounds.readsInside, ?_, ?_, counted.bounds.txResidual,
    counted.bounds.rxResidual⟩
  · simp only [spillToResp, List.length_append, indicesFrom_length]
    omega
  · intro i stored
    simp only [spillToResp, List.mem_append, mem_indicesFrom] at stored
    rcases stored with before | added
    · exact counted.bounds.storesInside i before
    · simp only [MAX_APDU_SIZE]
      omega

theorem spillToResp_counted {length : Nat} {moved rx : Int} (counted : s.Counted lc)
    (event : s.event ≠ .sendCmd) (lengthEq : (length : Int) = moved) (room : s.prx + moved ≤ 256)
    (ok : (spillToResp card length s).1 = 0) (nonneg : 0 ≤ rx) :
    T0State.Counted lc { (spillToResp card length s).2 with
      prx := s.prx + moved, rxResidual := rx, event := .getProcedure } := by
  have all : (sciQueueSpill 0 card length s.rxout).bytes.length = length :=
    sciQueueSpill_length_of_ok ok
  have bounds := (@spillToResp_withinBounds _ _ card length) counted (by omega)
  have budget := counted.budget
  rw [T0State.toSend, if_neg event] at budget
  refine ⟨⟨bounds.sent, bounds.readsInside, bounds.stored, bounds.storesInside,
    bounds.txResidual, nonneg⟩, counted.small, counted.ptx_eq, ?_, budget⟩
  simp [spillToResp, counted.prx_eq, all, lengthEq]

theorem xmitFromReq_counted {length : Nat} {moved tx : Int} (counted : s.Counted lc)
    (event : s.event ≠ .sendCmd) (lengthEq : (length : Int) = moved)
    (left : s.txResidual - moved = tx) (nonneg : 0 ≤ tx) :
    T0State.Counted lc { xmitFromReq length s with
      ptx := s.ptx + moved, txResidual := tx, event := .getProcedure } := by
  have budget := counted.budget
  rw [T0State.toSend, if_neg event] at budget
  have ptx := counted.ptx_eq
  have small := counted.small
  have sent : (s.reads ++ indicesFrom s.ptx length).length = s.reads.length + length := by simp
  refine ⟨⟨?_, ?_, counted.bounds.stored, counted.bounds.storesInside, ?_,
    counted.bounds.rxResidual⟩, counted.small, ?_, counted.prx_eq, ?_⟩
  · simp only [xmitFromReq, sent]
    omega
  · intro i read
    simp only [xmitFromReq, List.mem_append, mem_indicesFrom] at read
    rcases read with before | added
    · exact counted.bounds.readsInside i before
    · simp only [MAX_APDU_SIZE]
      omega
  · dsimp only
    omega
  · simp only [xmitFromReq, sent]
    omega
  · simp only [T0State.toSend, reduceCtorEq, if_false]
    omega

theorem insProcEvent_kept (counted : s.Counted lc) (event : s.event = .insProc) :
    T0Kept lc (insProcEvent card s) := by
  have notSend : s.event ≠ .sendCmd := by simp [event]
  have tx := Int.toNat_of_nonneg counted.bounds.txResidual
  have rx := Int.toNat_of_nonneg counted.bounds.rxResidual
  unfold insProcEvent
  split
  · split
    · exact powerDump_kept counted.bounds
    · next room =>
      dsimp only
      split
      · have stored := sciQueueSpill_length_le 0 card s.rxResidual.toNat s.rxout
        exact powerDump_kept (spillToResp_withinBounds counted (by omega))
      · next ok =>
        exact spillToResp_counted counted notSend rx
          (show s.prx + s.rxResidual ≤ 256 by omega) (not_not.mp ok) le_rfl
  · exact xmitFromReq_counted counted notSend tx (sub_self _) le_rfl

theorem invinsProcEvent_kept (counted : s.Counted lc) (event : s.event = .invinsProc)
    (transferOpen : s.TransferOpen card) : T0Kept lc (invinsProcEvent card s) := by
  have notSend : s.event ≠ .sendCmd := by simp [event]
  have something := transferOpen event
  unfold invinsProcEvent
  split
  · next receiving =>
    rw [if_pos receiving] at something
    split
    · exact powerDump_kept counted.bounds
    · next room =>
      have pointer := counted.bounds.rxResidual
      dsimp only
      split
      · next failed =>
        have none := sciQueueSpill_one_failed failed
        exact powerDump_kept (spillToResp_withinBounds counted (by omega))
      · next ok =>
        have ok := not_not.mp ok
        have residual : 0 < s.rxResidual := something.resolve_right (not_not.mpr ok)
        exact spillToResp_counted counted notSend rfl (by omega) ok
          (show 0 ≤ s.rxResidual - 1 by omega)
  · next sending =>
    rw [if_neg sending] at something
    split
    · exact powerDump_kept counted.bounds
    · exact xmitFromReq_counted counted notSend (show ((1 : Nat) : Int) = 1 from rfl) rfl
        (show 0 ≤ s.txResidual - 1 by omega)

theorem autoResponse_kept (counted : s.Counted lc) (event : s.event = .terminal) :
    (autoResponse s).Counted lc := by
  have tx := counted.bounds.txResidual
  have rx := counted.bounds.rxResidual
  have notSend : s.event ≠ .sendCmd := by simp [event]
  unfold autoResponse
  split_ifs
  all_goals first
    | exact counted
    | exact counted.of_eq rfl rfl rfl rfl tx rx (by simpa [T0State.toSend, event] using tx)

theorem specialProcEvent_kept {auto : Bool} (counted : s.Counted lc)
    (event : s.event = .specialProc) : T0Kept lc (specialProcEvent auto card s) := by
  have notSend : s.event ≠ .sendCmd := by simp [event]
  have bounds := counted.bounds
  unfold specialProcEvent
  split
  · exact powerDump_kept bounds
  · dsimp only
    split
    · exact powerDump_kept ⟨bounds.sent, bounds.readsInside, bounds.stored, bounds.storesInside,
        bounds.txResidual, bounds.rxResidual⟩
    · split
      · exact autoResponse_kept (counted.of_quiet notSend (by simp) rfl rfl rfl rfl rfl rfl) rfl
      · exact counted.of_quiet notSend (by simp) rfl rfl rfl rfl rfl rfl

/-- **One round.** A round that meets an open transfer keeps the invariant. -/
theorem t0Step_kept {auto : Bool} (transferOpen : s.TransferOpen card)
    (counted : T0Kept lc (.running s)) : T0Kept lc (t0Step auto card s) := by
  have switched : T0Kept lc (t0Switch auto card s) := by
    unfold t0Switch
    split
    · next event => exact sendCmdEvent_kept counted event
    · next event => exact getProcedureEvent_kept counted event
    · next event => exact insProcEvent_kept counted event
    · next event => exact invinsProcEvent_kept counted event transferOpen
    · next event => exact specialProcEvent_kept counted event
    · exact counted
  unfold t0Step
  cases ended : t0Switch auto card s with
  | running after =>
    rw [ended] at switched
    unfold t0While
    dsimp only
    split
    · exact switched
    · obtain ⟨bounds, -, -, -, -⟩ := switched
      exact ⟨bounds.sent, bounds.readsInside, bounds.stored, bounds.storesInside,
        bounds.txResidual, bounds.rxResidual⟩
  | returned code after =>
    rw [ended] at switched
    exact switched

/-- A round that answers a complemented instruction byte with nothing left to
transfer makes a counter negative. -/
theorem t0Step_breaks {auto : Bool} (counted : s.Counted lc)
    (closed : ¬ s.TransferOpen card) : ¬ (t0Step auto card s).state.WithinBounds lc := by
  unfold T0State.TransferOpen at closed
  obtain ⟨event, closed⟩ := Classical.not_imp.mp closed
  have sent := counted.bounds.sent
  have stored := counted.bounds.stored
  have small := counted.small
  have ptx := counted.ptx_eq
  have prx := counted.prx_eq
  unfold t0Step t0Switch
  rw [event]
  dsimp only
  unfold invinsProcEvent
  intro bounds
  split at closed
  · next receiving =>
    rw [not_or, not_not] at closed
    rw [if_pos receiving, if_neg (by omega)] at bounds
    dsimp only at bounds
    have ok : (spillToResp card 1 s).1 = 0 := closed.2
    rw [if_neg (not_not.mpr ok)] at bounds
    have residual : 0 ≤ s.rxResidual - 1 := bounds.rxResidual
    omega
  · next sending =>
    rw [if_neg sending, if_neg (by omega)] at bounds
    have residual : 0 ≤ s.txResidual - 1 := bounds.txResidual
    omega

/-! ## Whole runs -/

variable {req : ApduReq} {resp : ApduRsp}

theorem t0Start_kept : T0Kept req.lc (t0Start req resp) := by
  unfold t0Start
  split
  · exact ⟨Nat.zero_le _, by simp [t0Init], by simp [t0Init], by simp [t0Init], le_rfl, le_rfl⟩
  · next small =>
    exact ⟨⟨Nat.zero_le _, by simp [t0Init], by simp [t0Init], by simp [t0Init], le_rfl, le_rfl⟩,
      by omega, rfl, rfl, by simp [t0Init, T0State.toSend]⟩

theorem T0Kept.withinBounds {outcome : Outcome T0State} (kept : T0Kept lc outcome) :
    outcome.state.WithinBounds lc := by
  cases outcome with
  | running s => exact T0State.Counted.bounds kept
  | returned code s => exact kept

/-- **When the exchange stays inside its buffers and lengths.** It does so in every
round exactly when every complemented instruction byte that it answers finds
something left to transfer. -/
theorem t0_withinBounds_iff (auto : Bool) (card : Nat → Reception) (req : ApduReq)
    (resp : ApduRsp) :
    (∀ rounds, (sciEmvT0Exchange auto card req resp rounds).state.WithinBounds req.lc) ↔
      ∀ rounds s, sciEmvT0Exchange auto card req resp rounds = .running s →
        s.TransferOpen card := by
  constructor
  · intro within rounds s reached
    by_contra closed
    have open_of (s : T0State) (after : (t0Step auto card s).state.WithinBounds req.lc)
        (counted : s.Counted req.lc) : s.TransferOpen card := by
      by_contra closed
      exact t0Step_breaks counted closed after
    have kept : T0Kept req.lc (sciEmvT0Exchange auto card req resp rounds) :=
      (@Outcome.run_keeps_of _ _ _ _ fun s => (t0Step auto card s).state.WithinBounds req.lc)
        (fun rounds s reached => by
          have after := within (rounds + 1)
          rwa [sciEmvT0Exchange, Outcome.run_succ, reached] at after)
        t0Start_kept (fun s after counted => t0Step_kept (open_of s after counted) counted) rounds
    rw [reached] at kept
    have after := within (rounds + 1)
    rw [sciEmvT0Exchange, Outcome.run_succ] at after
    rw [sciEmvT0Exchange] at reached
    rw [reached] at after
    exact t0Step_breaks kept closed after
  · intro transferOpen rounds
    exact (Outcome.run_keeps_of transferOpen t0Start_kept (fun s => t0Step_kept) rounds).withinBounds

/-- A request with one byte of data. -/
def oneByteReq : ApduReq := ⟨![0x00, 0xA4, 0x00, 0x00], 1, 0, fun _ => 0⟩

/-- A card that goes on sending complemented instruction bytes. -/
def invertingCard : Nat → Reception := fun _ => .byte 0x5B

/-- A card that asks for single bytes for ever is sent more than the data of the
command: after the second complemented instruction byte, two bytes went out of the
one that there is. -/
theorem t0_withinBounds_broken :
    ¬ ∀ rounds, (sciEmvT0Exchange true invertingCard oneByteReq .blank rounds).state.WithinBounds
      oneByteReq.lc := by
  intro within
  exact absurd (within 5).sent (by decide)

end PosFirmware.Icc
