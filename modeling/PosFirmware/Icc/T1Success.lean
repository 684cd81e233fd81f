import PosFirmware.Icc.T1Exchange

/-! # What success of the exchange under T=1 means

An S-block that reports a VPP error powers the card down and ends the exchange
with the code of the block just read, which is zero: the caller takes an empty or
unfinished response for a complete one. Every other way to return zero goes
through a last I-block and a response of at least two bytes. The exchange returns
zero only with a complete response exactly when it is never sent a VPP error
(`t1_success_iff`).
-/

namespace PosFirmware.Icc

open PosFirmware.Foundation

/-! ## What the claim asks for -/

/-- The response assembled so far: the information of the I-blocks stored. -/
def T1State.assembled (s : T1State) : List Byte := s.accepted.flatMap T1Block.info

/-- The last block read passed every check of `emv_t1_block_recv`. -/
def T1State.Answered (card : Nat → Nat → Reception) (s : T1State) : Prop :=
  s.state = 0 ∧ ∃ terminal, (emvT1BlockRecv terminal (card (s.blocks - 1))).1 = 0 ∧
    (emvT1BlockRecv terminal (card (s.blocks - 1))).2.1 = s.rblock

/-- The response holds what was assembled, at least two bytes, and its length and
status bytes are taken from that. -/
structure T1State.Delivered (s : T1State) : Prop where
  data : ∀ i, i < s.assembled.length → s.assembled[i]? = some (s.resp.data i)
  status : ∃ body, s.assembled = body ++ [s.resp.swa, s.resp.swb] ∧ s.resp.len = body.length

/-- The exchange ended with a valid I-block without the more-data bit, and the
length and the status bytes of the response are those of the response assembled. -/
structure T1State.Complete (card : Nat → Nat → Reception) (s : T1State) : Prop
    extends s.Delivered where
  answered : s.Answered card
  stored : s.accepted.getLast? = some s.rblock
  isIBlock : tstBit s.rblock.pcb 7 = false
  noMore : tstBit s.rblock.pcb IMR_BIT = false

/-- An S-block by which the card reports a VPP error. -/
def T1Block.VppError (block : T1Block) : Prop :=
  (tstBit block.pcb 7 = true ∧ tstBit block.pcb 6 = true) ∧
    tstBit block.pcb SRS_BIT = false ∧ (block.pcb &&& 0x0F).toNat = 0x04

/-! ## The invariant of a round -/

/-- The response holds what was assembled. -/
structure T1State.Assembled (s : T1State) : Prop where
  length : s.prbuf = s.assembled.length
  data : ∀ i, i < s.assembled.length → s.assembled[i]? = some (s.resp.data i)

/-- Between two rounds the response holds what was assembled, a block is looked at
only when it passed its checks, and the events for I-blocks and S-blocks come with such
blocks. -/
structure T1State.Assembling (card : Nat → Nat → Reception) (s : T1State) : Prop
    extends s.Assembled where
  answered : s.event = .pcbAnalyse ∨ s.event = .iBlock ∨ s.event = .rBlock ∨ s.event = .sBlock →
    s.Answered card
  isIBlock : s.event = .iBlock → tstBit s.rblock.pcb 7 = false
  isSBlock : s.event = .sBlock → tstBit s.rblock.pcb 7 = true ∧ tstBit s.rblock.pcb 6 = true

/-- What every round leaves: a code of zero comes with a complete response. -/
def T1Kept (card : Nat → Nat → Reception) : Outcome T1State → Prop
  | .running s => s.event ≠ .terminator ∧ s.Assembling card
  | .returned code s => code = 0 → s.Complete card

variable {card : Nat → Nat → Reception} {s : T1State}

theorem T1State.Assembling.of_quiet {s' : T1State} (assembling : s.Assembling card)
    (prbuf : s'.prbuf = s.prbuf) (resp : s'.resp = s.resp) (accepted : s'.accepted = s.accepted)
    (answered : s'.event = .pcbAnalyse ∨ s'.event = .iBlock ∨ s'.event = .rBlock ∨
      s'.event = .sBlock → s'.Answered card)
    (isIBlock : s'.event = .iBlock → tstBit s'.rblock.pcb 7 = false)
    (isSBlock : s'.event = .sBlock →
      tstBit s'.rblock.pcb 7 = true ∧ tstBit s'.rblock.pcb 6 = true) : s'.Assembling card := by
  have same : s'.assembled = s.assembled := congrArg (List.flatMap T1Block.info) accepted
  refine ⟨⟨?_, ?_⟩, answered, isIBlock, isSBlock⟩
  · rw [prbuf, same, assembling.length]
  · rw [same, resp]
    exact assembling.data

theorem t1While_kept_of_ne (ended : s.event = .terminator) (code : s.state ≠ 0) :
    T1Kept card (t1While s) := by
  rw [t1While, if_neg (not_not.mpr ended)]
  exact fun zero => absurd zero code

theorem t1While_kept (assembling : s.Assembling card) (goesOn : s.event ≠ .terminator) :
    T1Kept card (t1While s) := by
  rw [t1While, if_pos goesOn]
  exact ⟨goesOn, assembling⟩

theorem storeInfo_assembled : (storeInfo s).assembled = s.assembled ++ s.rblock.info := by
  simp [T1State.assembled, storeInfo]

theorem T1State.Assembled.storeInfo (assembled : s.Assembled) : (storeInfo s).Assembled := by
  have length := assembled.length
  refine ⟨?_, fun i inside => ?_⟩
  · rw [storeInfo_assembled, List.length_append, T1Block.info_length, ← length]
    rfl
  · rw [storeInfo_assembled] at inside ⊢
    by_cases below : i < s.prbuf
    · rw [List.getElem?_append_left (by omega), assembled.data i (by omega)]
      exact congrArg some (storeBytes_below below).symm
    · rw [List.length_append] at inside
      rw [List.getElem?_append_right (by omega), (@storeBytes_inside _ s.prbuf) (by omega)]
      congr 2
      omega

theorem takeStatus_accepted : (takeStatus s).accepted = s.accepted := by
  unfold takeStatus
  split_ifs <;> rfl

theorem T1State.Assembled.takeStatus (assembled : s.Assembled) (long : ¬ s.prbuf < 2) :
    (takeStatus s).Delivered := by
  obtain ⟨length, data⟩ := assembled
  have same : (Icc.takeStatus s).assembled = s.assembled :=
    congrArg (List.flatMap T1Block.info) takeStatus_accepted
  refine ⟨?_, s.assembled.take (s.prbuf - 2), ?_, ?_⟩
  · rw [same, Icc.takeStatus, if_neg long]
    exact data
  · have split : s.assembled = s.assembled.take (s.prbuf - 2) ++ s.assembled.drop (s.prbuf - 2) :=
      (List.take_append_drop _ _).symm
    have first := data (s.prbuf - 2) (by omega)
    have second := data (s.prbuf - 1) (by omega)
    obtain ⟨_, firstEq⟩ := List.getElem?_eq_some_iff.mp first
    obtain ⟨_, secondEq⟩ := List.getElem?_eq_some_iff.mp second
    have next : s.prbuf - 2 + 1 = s.prbuf - 1 := by omega
    have last : s.prbuf - 1 + 1 = s.assembled.length := by omega
    rw [same, Icc.takeStatus, if_neg long]
    refine split.trans (congrArg (s.assembled.take (s.prbuf - 2) ++ ·) ?_)
    rw [List.drop_eq_getElem_cons (by omega), firstEq, next, List.drop_eq_getElem_cons (by omega),
      secondEq, last, List.drop_length]
  · rw [Icc.takeStatus, if_neg long]
    simp only [List.length_take]
    omega

/-! ## One round -/

theorem tranRcevEvent_kept (assembling : s.Assembling card) :
    T1Kept card (t1While (tranRcevEvent (card s.blocks) s)) := by
  unfold tranRcevEvent
  dsimp only
  split
  · exact t1While_kept_of_ne rfl (show ICC_ERR_T1_BREP ≠ 0 by decide)
  · unfold transceive
    dsimp only
    split
    · next timeout =>
      refine t1While_kept_of_ne rfl ?_
      dsimp only
      rcases timeout with bwt | cwt
      · rw [bwt]
        decide
      · rw [cwt]
        decide
    · split
      · exact t1While_kept (assembling.of_quiet rfl rfl rfl (by simp) (by simp) (by simp)) (by simp)
      · next valid =>
        refine t1While_kept (assembling.of_quiet rfl rfl rfl (fun _ => ?_) (by simp) (by simp))
          (by simp)
        have valid := not_not.mp valid
        exact ⟨valid, _, valid, rfl⟩

theorem pcbAnalyseEvent_kept (assembling : s.Assembling card) (event : s.event = .pcbAnalyse) :
    T1Kept card (t1While (pcbAnalyseEvent s)) := by
  have answered := assembling.answered (.inl event)
  unfold pcbAnalyseEvent
  split_ifs with isI isR
  · exact t1While_kept (assembling.of_quiet rfl rfl rfl (fun _ => answered)
      (fun _ => by simpa only [Bool.not_eq_true'] using isI) (by simp)) (by simp)
  · exact t1While_kept (assembling.of_quiet rfl rfl rfl (fun _ => answered) (by simp) (by simp))
      (by simp)
  · exact t1While_kept (assembling.of_quiet rfl rfl rfl (fun _ => answered) (by simp)
      fun _ => ⟨by simpa using isI, by simpa using isR⟩) (by simp)

theorem iBlockEvent_kept (assembling : s.Assembling card) (event : s.event = .iBlock) :
    T1Kept card (t1While (iBlockEvent s)) := by
  unfold iBlockEvent
  dsimp only
  split
  · exact t1While_kept_of_ne rfl (show ICC_ERR_PARAM ≠ 0 by decide)
  · have quiet : T1State.Assembling card { s with terminal := s.terminal.clearRepeat } :=
      assembling.of_quiet rfl rfl rfl assembling.answered assembling.isIBlock assembling.isSBlock
    have assembled := quiet.toAssembled.storeInfo
    split
    · exact t1While_kept ⟨⟨assembled.length, assembled.data⟩, by simp, by simp, by simp⟩ (by simp)
    · next noMore =>
      obtain ⟨stored, storedEq⟩ :
        ∃ stored, storeInfo { s with terminal := s.terminal.clearRepeat } = stored := ⟨_, rfl⟩
      by_cases short : stored.prbuf < 2
      · refine t1While_kept_of_ne rfl ?_
        rw [storedEq, takeStatus, if_pos short]
        show ICC_ERR_T1_LEN ≠ 0
        decide
      · rw [storedEq] at assembled ⊢
        rw [t1While, if_neg (by simp)]
        intro _
        have delivered := assembled.takeStatus short
        have rblockEq : (takeStatus stored).rblock = s.rblock := by
          rw [takeStatus, if_neg short, ← storedEq]
          rfl
        have answered : (takeStatus stored).Answered card := by
          rw [takeStatus, if_neg short, ← storedEq]
          exact assembling.answered (.inr (.inl event))
        refine ⟨⟨delivered.data, delivered.status⟩, answered, ?_, ?_, ?_⟩
        · dsimp only
          rw [takeStatus_accepted, rblockEq, ← storedEq]
          simp [storeInfo]
        · dsimp only
          rw [rblockEq]
          exact assembling.isIBlock event
        · dsimp only
          rw [rblockEq]
          simpa using noMore

theorem rBlockEvent_kept (assembling : s.Assembling card) :
    T1Kept card (t1While (rBlockEvent s)) := by
  unfold rBlockEvent
  split
  · by_cases more : tstBit s.terminal.terminalIpcb IMR_BIT
    all_goals
      exact t1While_kept (assembling.of_quiet rfl rfl rfl (by simp [more]) (by simp [more])
        (by simp [more]))
        (by simp [more])
  · split
    all_goals
      exact t1While_kept (assembling.of_quiet rfl rfl rfl (by simp) (by simp) (by simp)) (by simp)

theorem sBlockEvent_kept (assembling : s.Assembling card) (event : s.event = .sBlock)
    (noVpp : ¬ s.rblock.VppError) :
    T1Kept card (t1While (sBlockEvent s)) := by
  have answered := assembling.answered (.inr (.inr (.inr event)))
  unfold sBlockEvent
  split
  · exact t1While_kept (assembling.of_quiet rfl rfl rfl (by simp) (by simp) (by simp)) (by simp)
  · next request =>
    have same : T1State.Assembling card { s with terminal := s.terminal.clearRepeat } :=
      assembling.of_quiet rfl rfl rfl (fun _ => answered) (by simp [event])
        assembling.isSBlock
    have goesOn : T1Kept card (t1While { s with terminal := s.terminal.clearRepeat }) :=
      t1While_kept same (by simp [event])
    dsimp only
    split
    · split
      · exact t1While_kept (assembling.of_quiet rfl rfl rfl (by simp) (by simp) (by simp)) (by simp)
      · exact goesOn
    · split
      · exact t1While_kept (assembling.of_quiet rfl rfl rfl (by simp) (by simp) (by simp)) (by simp)
      · exact goesOn
    · next vpp =>
      exact absurd ⟨assembling.isSBlock event, by simpa using request, vpp⟩ noVpp
    · exact goesOn

theorem invalidOrgEvent_kept (assembling : s.Assembling card) :
    T1Kept card (t1While (invalidOrgEvent s)) := by
  unfold invalidOrgEvent
  dsimp only
  split
  · next abort =>
    refine t1While_kept_of_ne rfl ?_
    dsimp only
    rw [abort]
    decide
  · split
    all_goals
      exact t1While_kept (assembling.of_quiet rfl rfl rfl (by simp) (by simp) (by simp)) (by simp)

/-- **One round.** Every round that does not meet a VPP error keeps the response
assembled. -/
theorem t1Step_kept (noVpp : s.event = .sBlock → ¬ s.rblock.VppError)
    (kept : T1Kept card (.running s)) : T1Kept card (t1Step (card s.blocks) s) := by
  obtain ⟨goesOn, assembling⟩ := kept
  unfold t1Step t1Switch
  split
  · exact t1While_kept (assembling.of_quiet rfl rfl rfl (by simp [iOrgEvent]) (by simp [iOrgEvent])
      (by simp [iOrgEvent]))
      (by simp [iOrgEvent])
  · exact tranRcevEvent_kept assembling
  · next event => exact pcbAnalyseEvent_kept assembling event
  · next event => exact iBlockEvent_kept assembling event
  · exact rBlockEvent_kept assembling
  · next event => exact sBlockEvent_kept assembling event (noVpp event)
  · exact t1While_kept
      (assembling.of_quiet rfl rfl rfl (by simp [ackSreqEvent]) (by simp [ackSreqEvent])
      (by simp [ackSreqEvent]))
      (by simp [ackSreqEvent])
  · exact t1While_kept (assembling.of_quiet rfl rfl rfl (by simp [ackEvent]) (by simp [ackEvent])
      (by simp [ackEvent]))
      (by simp [ackEvent])
  · exact invalidOrgEvent_kept assembling
  · next event => exact absurd event goesOn

theorem t1Step_vppError (assembling : s.Assembling card) (event : s.event = .sBlock)
    (vpp : s.rblock.VppError) :
    ∃ after, t1Step (card s.blocks) s = .returned 0 after ∧ after.rblock = s.rblock := by
  obtain ⟨-, request, kind⟩ := vpp
  have code := (assembling.answered (.inr (.inr (.inr event)))).1
  have ended : sBlockEvent s =
      { s with terminal := s.terminal.clearRepeat.powerDump, event := .terminator } := by
    rw [sBlockEvent, if_neg (by simp [request])]
    dsimp only
    rw [kind]
    rfl
  refine ⟨sBlockEvent s, ?_, ?_⟩
  · rw [t1Step, t1Switch, event]
    dsimp only
    rw [ended, t1While, if_neg (by simp)]
    exact congrArg (Outcome.returned · _) code
  · rw [ended]

/-! ## Whole runs -/

theorem t1Start_kept (terminal : EmvCore) (req : ApduReq) (resp : ApduRsp)
    (sblock rblock : T1Block) : T1Kept card (t1Start terminal req resp sblock rblock) := by
  unfold t1Start
  split
  · exact fun zero => absurd zero (by decide)
  · exact ⟨by simp [t1Init], ⟨by simp [t1Init, T1State.assembled],
      by simp [t1Init, T1State.assembled]⟩, by simp [t1Init], by simp [t1Init], by simp [t1Init]⟩

theorem running_assembling {terminal : EmvCore} {req : ApduReq} {resp : ApduRsp}
    {sblock rblock : T1Block} {rounds : Nat}
    (reached : sciEmvT1Exchange card terminal req resp sblock rblock rounds = .running s) :
    s.event ≠ .terminator ∧ s.Assembling card := by
  have kept : ∀ s', sciEmvT1Exchange card terminal req resp sblock rblock rounds = .running s' →
      T1Kept card (.running s') := by
    refine (@Outcome.run_keeps _ _ _ fun outcome => ∀ s', outcome = .running s' →
      T1Kept card (.running s')) ?_ ?_ rounds
    · intro s' started
      exact started ▸ t1Start_kept terminal req resp sblock rblock
    · intro before past s' ended
      by_cases vpp : before.event = .sBlock ∧ before.rblock.VppError
      · obtain ⟨after, returned, -⟩ := t1Step_vppError (past before rfl).2 vpp.1 vpp.2
        rw [returned] at ended
        exact absurd ended (by simp)
      · exact ended ▸ t1Step_kept (fun event isVpp => vpp ⟨event, isVpp⟩) (past before rfl)
  exact kept s reached

theorem T1State.Complete.not_vppError (complete : s.Complete card) : ¬ s.rblock.VppError := by
  rintro ⟨⟨sBlock, -⟩, -⟩
  rw [complete.isIBlock] at sBlock
  exact absurd sBlock (by decide)

/-- **What success means.** The exchange returns zero only with a complete response
exactly when no block that it takes for an S-block reports a VPP error. -/
theorem t1_success_iff (card : Nat → Nat → Reception) (terminal : EmvCore) (req : ApduReq)
    (resp : ApduRsp) (sblock rblock : T1Block) :
    (∀ rounds s, sciEmvT1Exchange card terminal req resp sblock rblock rounds = .returned 0 s →
        s.Complete card) ↔
      ∀ rounds s, sciEmvT1Exchange card terminal req resp sblock rblock rounds = .running s →
        s.event = .sBlock → ¬ s.rblock.VppError := by
  have start : T1Kept card (t1Start terminal req resp sblock rblock) :=
    t1Start_kept terminal req resp sblock rblock
  constructor
  · intro complete
    have noVpp (s : T1State) (assembling : s.Assembling card)
        (after : ∀ s', t1Step (card s.blocks) s = .returned 0 s' → s'.Complete card)
        (event : s.event = .sBlock) : ¬ s.rblock.VppError := by
      intro vpp
      obtain ⟨s', ended, rblockEq⟩ := t1Step_vppError assembling event vpp
      exact (after s' ended).not_vppError (rblockEq ▸ vpp)
    have afterwards (rounds : Nat) (s : T1State)
        (reached : sciEmvT1Exchange card terminal req resp sblock rblock rounds = .running s)
        (s' : T1State) (ended : t1Step (card s.blocks) s = .returned 0 s') : s'.Complete card := by
      refine complete (rounds + 1) s' ?_
      rw [sciEmvT1Exchange] at reached
      rw [sciEmvT1Exchange, Outcome.run_succ, reached, Outcome.next_running, ended]
    intro rounds s reached
    have kept : T1Kept card (sciEmvT1Exchange card terminal req resp sblock rblock rounds) :=
      Outcome.run_keeps_of afterwards start
        (fun s after kept => t1Step_kept (noVpp s kept.2 after) kept) rounds
    rw [reached] at kept
    exact noVpp s kept.2 (afterwards rounds s reached)
  · intro noVpp rounds s reached
    have kept : T1Kept card (sciEmvT1Exchange card terminal req resp sblock rblock rounds) :=
      Outcome.run_keeps_of noVpp start (fun s => t1Step_kept) rounds
    rw [reached] at kept
    exact kept rfl

/-- A card that answers every block with a VPP error. -/
def vppCard : Nat → Nat → Reception := fun _ => queueOf [0x00, 0xC4, 0x01, 0x00, 0xC5]

/-- The exchange with a card that reports a VPP error returns zero, and nothing was
received. -/
theorem t1_success_empty :
    ¬ ∀ rounds s, sciEmvT1Exchange vppCard freshCore headerReq .blank .zero .zero rounds =
      .returned 0 s → s.Complete vppCard := by
  intro complete
  obtain ⟨after, ended⟩ : ∃ after, sciEmvT1Exchange vppCard freshCore headerReq .blank .zero
      .zero 4 = .returned 0 after := ⟨_, rfl⟩
  have stored := (complete 4 after ended).stored
  have accepted : (sciEmvT1Exchange vppCard freshCore headerReq .blank .zero .zero 4).state.accepted =
      [] := by decide
  rw [ended] at accepted
  rw [Outcome.state_returned] at accepted
  rw [accepted] at stored
  exact absurd stored (by simp)

end PosFirmware.Icc
